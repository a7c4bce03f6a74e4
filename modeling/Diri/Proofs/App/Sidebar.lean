/-
The sidebar shows every session once, in the tree of who spawned whom.

`SidebarLaw` is what the whole projection obeys, and `Shallow` the one condition it takes:
no row that can be seen has 65536 sessions above it.
-/
import Diri.Proofs.App.Forest

namespace Diri.App

open Relation List

/-! ### Lists -/

theorem flatMap_filter_perm {α β : Type} [DecidableEq β] {f : α → β} {keys : List β} {l : List α}
    (hl : l.Nodup) (hkeys : keys.Nodup) (hcover : ∀ x ∈ l, f x ∈ keys) :
    (keys.flatMap fun key => l.filter fun x => f x = key).Perm l := by
  have hnodup : (keys.flatMap fun key => l.filter fun x => f x = key).Nodup := by
    refine nodup_flatMap.mpr ⟨fun key _ => hl.filter _, hkeys.imp fun hne => ?_⟩
    intro x hx hx'
    simp only [mem_filter, decide_eq_true_eq] at hx hx'
    exact hne (hx.2.symm.trans hx'.2)
  refine (perm_ext_iff_of_nodup hnodup hl).mpr fun x => ?_
  simp only [mem_flatMap, mem_filter, decide_eq_true_eq]
  constructor
  · rintro ⟨-, -, hx, -⟩
    exact hx
  · intro hx
    exact ⟨f x, hcover x hx, hx, rfl⟩

theorem mapM_eq_some {α β : Type} {f : α → Option β} {g : α → β} (h : ∀ x, f x = some (g x))
    (l : List α) : l.mapM f = some (l.map g) := by
  obtain rfl : f = fun x => some (g x) := funext h
  exact mapM_pure

/-! ### The groups -/

/-- The sessions the sidebar shows, in the order they are walked in. -/
def shownIn (walks : Walks) (sessions : Sessions) (closing : List SessionId) : List SessionRecord :=
  (walks.sessions.apply sessions.values).filter (isShown closing)

def groupOf (walks : Walks) (sessions : Sessions) (closing : List SessionId)
    (projectId : ProjectId) : List SessionRecord :=
  (shownIn walks sessions closing).filter fun session => session.projectId = projectId

def activeOf (walks : Walks) (sessions : Sessions) (closing : List SessionId)
    (projectId : ProjectId) : List SessionRecord :=
  (groupOf walks sessions closing projectId).filter (!·.isArchived)

section Groups

variable (walks : Walks) (sessions : Sessions) (projects : Projects) (prefs : Prefs)
  (selected : Option SessionId) (closing : List SessionId)

theorem shownIn_perm :
    (shownIn walks sessions closing).Perm (sessions.values.filter (isShown closing)) :=
  (walks.sessions.perm _).filter _

theorem nodup_shownIn : ((shownIn walks sessions closing).map (·.id)).Nodup := by
  have hwalk := ((walks.sessions.perm sessions.values).map (·.id)).nodup_iff.mpr sessions.nodup
  exact hwalk.sublist (filter_sublist.map _)

variable (projectId : ProjectId)

theorem nodup_groupOf : ((groupOf walks sessions closing projectId).map (·.id)).Nodup :=
  (nodup_shownIn walks sessions closing).sublist (filter_sublist.map _)

theorem nodup_activeOf : ((activeOf walks sessions closing projectId).map (·.id)).Nodup :=
  (nodup_groupOf walks sessions closing projectId).sublist (filter_sublist.map _)

/-- What becomes of one group. -/
structure Built (projectId : ProjectId) (group : SidebarProject) : Prop where
  id : group.project.id = projectId
  tree : ∃ parents visits, Resolved (activeOf walks sessions closing projectId) parents ∧
    Drawn prefs (activeOf walks sessions closing projectId)
      (!prefs.sidebarCollapsedProjects.contains projectId) parents visits ∧
    group.sessions = Drawn.rows prefs parents (activeOf walks sessions closing projectId) visits ∧
    group.active = visits.map (·.session)
  archived : group.archived.Perm ((groupOf walks sessions closing projectId).filter (·.isArchived))

theorem buildGroup_eq :
    ∃ ranked, buildGroup projects prefs projectId (groupOf walks sessions closing projectId) =
      some ranked ∧ Built walks sessions prefs closing projectId ranked.2 := by
  obtain ⟨parents, visits, -, hresolved, hdrawn, htree⟩ :=
    buildTree_eq prefs (nodup_activeOf walks sessions closing projectId)
      (!prefs.sidebarCollapsedProjects.contains projectId)
  rw [activeOf] at htree
  rw [buildGroup, htree]
  refine ⟨_, rfl, ?_, ⟨parents, visits, hresolved, hdrawn, rfl, rfl⟩, perm_insertionSort _ _⟩
  show ((projects.lookup projectId).getD _).id = projectId
  cases hlookup : projects.lookup projectId with
  | none => rfl
  | some project => exact Index.key_of_lookup hlookup

def projectIds : List ProjectId :=
  walks.groups.apply ((shownIn walks sessions closing).map (·.projectId)).dedup

def arranged (ranked : List (WithTop Nat × SidebarProject)) : SidebarProjection :=
  let result := (ranked.insertionSort fun left right =>
    projectKey prefs left ≤ projectKey prefs right).map (·.2)
  { projects := result
    orderedSessions := result.flatMap (·.ordered selected)
    displayOrder := result.flatMap fun group => (group.active ++ group.archived).map (·.id) }

theorem buildProjection_of_groups {ranked : ProjectId → WithTop Nat × SidebarProject}
    (h : ∀ projectId, buildGroup projects prefs projectId
      (groupOf walks sessions closing projectId) = some (ranked projectId)) :
    buildProjection walks sessions projects prefs selected closing =
      some (arranged prefs selected ((projectIds walks sessions closing).map ranked)) := by
  have hgroups := mapM_eq_some h (projectIds walks sessions closing)
  simp only [projectIds, groupOf, shownIn] at hgroups
  rw [buildProjection, hgroups]
  rfl

/-- The projection is there, and its groups are those of the projects of its sessions. -/
theorem buildProjection_eq :
    ∃ projection, buildProjection walks sessions projects prefs selected closing = some projection ∧
      ∃ built : ProjectId → SidebarProject,
        (∀ projectId, Built walks sessions prefs closing projectId (built projectId)) ∧
        projection.projects.Perm
          ((((shownIn walks sessions closing).map (·.projectId)).dedup).map built) := by
  choose ranked hranked hbuilt using buildGroup_eq walks sessions projects prefs closing
  refine ⟨_, buildProjection_of_groups walks sessions projects prefs selected closing hranked,
    fun projectId => (ranked projectId).2, hbuilt, ?_⟩
  refine ((perm_insertionSort _ _).map _).trans ?_
  rw [List.map_map]
  exact (walks.groups.perm _).map _

end Groups

/-! ### The law -/

/-- What the sidebar shows. -/
structure SidebarLaw (walks : Walks) (sessions : Sessions) (prefs : Prefs)
    (closing : List SessionId) (projection : SidebarProjection) : Prop where
  /-- Every session that is neither closing nor auxiliary is there once, and no other is. -/
  once : (projection.projects.flatMap fun group => group.active ++ group.archived).Perm
    (sessions.values.filter (isShown closing))
  distinct : (projection.projects.map (·.project.id)).Nodup
  own : ∀ group ∈ projection.projects,
    (∀ session ∈ group.active, session.projectId = group.project.id ∧ session.isArchived = false) ∧
    (∀ session ∈ group.archived, session.projectId = group.project.id ∧ session.isArchived = true)
  tree : ∀ group ∈ projection.projects, ∃ parents,
    Resolved (activeOf walks sessions closing group.project.id) parents ∧
      TreeLaw prefs (!prefs.sidebarCollapsedProjects.contains group.project.id) parents
        group.sessions group.active

/-- No session that can be seen has as many sessions above it as a `u16` cannot count. -/
def Shallow (walks : Walks) (sessions : Sessions) (prefs : Prefs) (closing : List SessionId) : Prop :=
  ∀ projectId ∉ prefs.sidebarCollapsedProjects, ∀ parents,
    Resolved (activeOf walks sessions closing projectId) parents →
      ∀ session ∈ activeOf walks sessions closing projectId,
        Unfolded prefs parents session.id → ∀ d, Depth parents session.id d → d < 2 ^ 16

section Law

variable {walks : Walks} {sessions : Sessions} {projects : Projects} {prefs : Prefs}
  {selected : Option SessionId} {closing : List SessionId} {projection : SidebarProjection}

theorem Resolved.unique {active : List SessionRecord} {parents parents' : SessionId → Option SessionId}
    (h : Resolved active parents) (h' : Resolved active parents') : parents = parents' := by
  funext x
  by_cases hx : BreaksCycle (namedParent active) (active.map (·.id)) x
  · rw [h.broken x hx, h'.broken x hx]
  · rw [h.kept x hx, h'.kept x hx]

theorem mem_activeOf {projectId : ProjectId} {session : SessionRecord}
    (h : session ∈ activeOf walks sessions closing projectId) :
    session ∈ shownIn walks sessions closing ∧ session.projectId = projectId ∧
      session.isArchived = false := by
  simp only [activeOf, groupOf, mem_filter, decide_eq_true_eq, Bool.not_eq_true'] at h
  exact ⟨h.1.1, h.1.2, h.2⟩

namespace Built

variable {projectId : ProjectId} {group : SidebarProject}

section
variable (h : Built walks sessions prefs closing projectId group)
include h

theorem active_perm : group.active.Perm (activeOf walks sessions closing projectId) := by
  obtain ⟨parents, visits, -, hdrawn, -, hactive⟩ := h.tree
  rw [hactive]
  exact hdrawn.perm

theorem perm :
    (group.active ++ group.archived).Perm (groupOf walks sessions closing projectId) := by
  refine (h.active_perm.append h.archived).trans (perm_append_comm.trans ?_)
  have hsplit := filter_append_perm (·.isArchived) (groupOf walks sessions closing projectId)
  simpa [activeOf] using hsplit

theorem own :
    (∀ session ∈ group.active, session.projectId = group.project.id ∧ session.isArchived = false) ∧
    (∀ session ∈ group.archived,
      session.projectId = group.project.id ∧ session.isArchived = true) := by
  rw [h.id]
  constructor
  · intro session hmem
    exact (mem_activeOf (h.active_perm.subset hmem)).2
  · intro session hmem
    have harchived := h.archived.subset hmem
    simp only [groupOf, mem_filter, decide_eq_true_eq] at harchived
    exact ⟨harchived.1.2, harchived.2⟩

end

end Built

/-! ### What is shown -/

section
variable (hprojection : buildProjection walks sessions projects prefs selected closing = some projection)
include hprojection

/-- The groups of a projection are built, and it has one for every project it shows. -/
theorem groups_of_build : ∃ built : ProjectId → SidebarProject,
      (∀ projectId, Built walks sessions prefs closing projectId (built projectId)) ∧
        projection.projects.Perm
          ((((shownIn walks sessions closing).map (·.projectId)).dedup).map built) := by
  obtain ⟨found, hfound, hgroups⟩ :=
    buildProjection_eq walks sessions projects prefs selected closing
  obtain rfl := Option.some.inj (hfound.symm.trans hprojection)
  exact hgroups

theorem built_of_mem {group : SidebarProject} (hgroup : group ∈ projection.projects) :
    Built walks sessions prefs closing group.project.id group := by
  obtain ⟨built, hbuilt, hgroups⟩ := groups_of_build hprojection
  obtain ⟨projectId, -, rfl⟩ := mem_map.mp (hgroups.subset hgroup)
  rw [(hbuilt projectId).id]
  exact hbuilt projectId

theorem once_of_build :
    (projection.projects.flatMap fun group => group.active ++ group.archived).Perm
      (sessions.values.filter (isShown closing)) := by
  obtain ⟨built, hbuilt, hgroups⟩ := groups_of_build hprojection
  refine ((hgroups.flatMap_right _).trans ?_).trans (shownIn_perm walks sessions closing)
  rw [flatMap_map]
  refine (List.Perm.flatMap_left _ fun projectId _ => (hbuilt projectId).perm).trans ?_
  exact flatMap_filter_perm ((nodup_shownIn walks sessions closing).of_map _)
    (nodup_dedup _) fun session hsession =>
      mem_dedup.mpr (mem_map_of_mem hsession)

theorem orders_of_build :
    projection.orderedSessions = projection.projects.flatMap (·.ordered selected) ∧
      projection.displayOrder =
        (projection.projects.flatMap fun group => group.active ++ group.archived).map (·.id) := by
  choose ranked hranked _ using buildGroup_eq walks sessions projects prefs closing
  rw [buildProjection_of_groups walks sessions projects prefs selected closing hranked] at hprojection
  obtain ⟨⟩ := hprojection
  exact ⟨rfl, map_flatMap.symm⟩

theorem mem_displayOrder {id : SessionId} : id ∈ projection.displayOrder ↔
      ∃ session ∈ sessions.values, isShown closing session = true ∧ session.id = id := by
  rw [(orders_of_build hprojection).2, ((once_of_build hprojection).map _).mem_iff]
  simp [and_assoc]

end

theorem Shallow.lawful (h : Shallow walks sessions prefs closing)
    (hprojection : buildProjection walks sessions projects prefs selected closing = some projection) :
    SidebarLaw walks sessions prefs closing projection := by
  obtain ⟨built, hbuilt, hgroups⟩ := groups_of_build hprojection
  constructor
  · exact once_of_build hprojection
  · refine ((hgroups.map _).nodup_iff).mpr ?_
    rw [List.map_map]
    have hid : (fun group : SidebarProject => group.project.id) ∘ built = id :=
      funext fun projectId => (hbuilt projectId).id
    rw [hid, map_id]
    exact nodup_dedup _
  · exact fun group hmem => (built_of_mem hprojection hmem).own
  intro group hmem
  obtain ⟨parents, visits, hresolved, hdrawn, hrows, hactive⟩ := (built_of_mem hprojection hmem).tree
  refine ⟨parents, hresolved, ?_⟩
  rw [hrows, hactive]
  refine hdrawn.treeLaw hresolved (nodup_activeOf walks sessions closing _) ?_
  intro session hsession hexpanded hunfolded
  have hmem' : group.project.id ∉ prefs.sidebarCollapsedProjects := by simpa using hexpanded
  exact h _ hmem' parents hresolved session hsession hunfolded

/-- A row of the sidebar is no deeper than a `u16` holds, so a law it obeys says so. -/
theorem SidebarLaw.shallow (h : SidebarLaw walks sessions prefs closing projection)
    (hprojection : buildProjection walks sessions projects prefs selected closing = some projection) :
    Shallow walks sessions prefs closing := by
  obtain ⟨built, hbuilt, hgroups⟩ := groups_of_build hprojection
  intro projectId hexpanded parents hresolved session hsession hunfolded d hd
  have hbuilt' := hbuilt projectId
  have hgroup : built projectId ∈ projection.projects := by
    refine hgroups.symm.subset (mem_map_of_mem (mem_dedup.mpr ?_))
    obtain ⟨hshown, hid, -⟩ := mem_activeOf hsession
    exact hid ▸ mem_map_of_mem hshown
  obtain ⟨parents', hresolved', htree⟩ := h.tree _ hgroup
  rw [hbuilt'.id] at hresolved' htree
  obtain rfl := hresolved.unique hresolved'
  have hactive : session ∈ (built projectId).active := hbuilt'.active_perm.symm.subset hsession
  have hrow := (htree.visible session hactive).mpr ⟨by simpa using hexpanded, hunfolded⟩
  obtain ⟨row, hmem, rfl⟩ := mem_map.mp hrow
  have hdepth : d = row.depth := hd.unique (htree.depth row hmem)
  obtain ⟨parents', visits, -, hdrawn, hrows, -⟩ := hbuilt'.tree
  rw [hdepth]
  exact hdrawn.row_depth_lt (hrows ▸ hmem)

end Law

/-- **The sidebar is there, and obeys its law just where no row is too deep.** -/
theorem sidebar_lawful (walks : Walks) (sessions : Sessions) (projects : Projects) (prefs : Prefs)
    (selected : Option SessionId) (closing : List SessionId) :
    ∃ projection, buildProjection walks sessions projects prefs selected closing = some projection ∧
      (SidebarLaw walks sessions prefs closing projection ↔
        Shallow walks sessions prefs closing) := by
  obtain ⟨projection, hprojection, -⟩ :=
    buildProjection_eq walks sessions projects prefs selected closing
  exact ⟨projection, hprojection, fun h => h.shallow hprojection, fun h => h.lawful hprojection⟩

/-! ### A chain of sessions too deep -/

/-- The name of the session so many spawns down a chain. -/
def chainId (i : Nat) : SessionId := toString i

theorem chainId_injective : Function.Injective chainId := by
  intro i j h
  have hdigits := congrArg (fun id => Nat.ofDigitChars 10 id.toList 0) h
  simpa [chainId, Nat.toString_eq_ofList_toDigits, Nat.ofDigitChars_toDigits] using hdigits

def chained (i : Nat) : SessionRecord where
  id := chainId i
  kind := "claude-code"
  cwd := "/work"
  title := ""
  titleSource := .placeholder
  status := .working
  resumability := .live
  updatedAt := ⟨i⟩
  createdAt := ⟨i⟩
  projectId := "work"
  parent := if i = 0 then none else some (chainId (i - 1))

/-- A session, and the ones it leads to. -/
def chain (n : Nat) : Sessions where
  values := (List.range (n + 1)).map chained
  nodup := by
    rw [List.map_map]
    exact nodup_range.map chainId_injective

theorem active_chain (n : Nat) : activeOf .inOrder (chain n) [] "work" = (chain n).values := by
  simp [activeOf, groupOf, shownIn, chain, Walks.inOrder, Walk.inOrder, isShown, chained,
    SessionRecord.isAuxiliaryTerminal, SessionRecord.isArchived, filter_map, Function.comp_def]

theorem depth_chain (n : Nat) : ∀ i ≤ n, Depth (namedParent (chain n).values) (chainId i) i := by
  have hmem : ∀ i ≤ n, chained i ∈ (chain n).values := fun i hi =>
    mem_map.mpr ⟨i, by simp; omega, rfl⟩
  have hfind : ∀ i ≤ n,
      (chain n).values.find? (fun session => session.id = chainId i) = some (chained i) :=
    fun i hi => Index.lookup_of_mem (hmem i hi)
  intro i
  induction i with
  | zero =>
    intro hi
    refine .root ?_
    rw [namedParent, hfind 0 hi]
    rfl
  | succ i ih =>
    intro hi
    refine .step ?_ (ih (by omega))
    have hne : chainId i ≠ chainId (i + 1) := fun h => by simpa using chainId_injective h
    have hany : ((chain n).values.any fun other => other.id = chainId i) = true := by
      rw [any_eq_true]
      exact ⟨chained i, hmem i (by omega), by simp [chained]⟩
    rw [namedParent, hfind (i + 1) hi, Option.bind_some]
    simp [chained, hany, hne]

theorem not_shallow_chain {n : Nat} (hn : 2 ^ 16 ≤ n) : ¬ Shallow .inOrder (chain n) {} [] := by
  intro h
  obtain ⟨parents, -, hresolved⟩ := resolveParents_eq (chain n).nodup
  have hlast : chained n ∈ (chain n).values := mem_map.mpr ⟨n, by simp, rfl⟩
  have hactive := active_chain n
  have hlt := h "work" (by simp) parents (by rwa [hactive]) (chained n) (by rwa [hactive])
    (fun above _ => by simp) n (hresolved.depth (depth_chain n n (Nat.le_refl n)))
  omega

/-- A chain of 65537 spawns: the row of the last says that nothing spawned it. -/
theorem deep_chain_unlawful :
    ∃ projection, buildProjection .inOrder (chain (2 ^ 16)) .empty {} none [] = some projection ∧
      ¬ SidebarLaw .inOrder (chain (2 ^ 16)) {} [] projection := by
  obtain ⟨projection, hprojection, -⟩ :=
    buildProjection_eq .inOrder (chain (2 ^ 16)) .empty {} none []
  exact ⟨projection, hprojection, fun hlaw =>
    not_shallow_chain (Nat.le_refl _) (hlaw.shallow hprojection)⟩

end Diri.App
