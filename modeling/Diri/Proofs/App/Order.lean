/-
The sidebar and the order its maps are walked in.

Every sort of the build ends in an id, so a sorted list forgets the order it came from.
What does not forget it is the session the walk comes to first in a group, which gives the
group its host, the last of the newest sessions, which names a project without a record,
and the first session on a cycle, which becomes a root.  `Steady` rules the three out, and
nothing less makes every walk build the same sidebar.
-/
import Diri.Proofs.App.Sidebar

namespace Diri.App

open Relation List Option

/-! ### Sorting -/

/-- A sort by a key that no two members share forgets the order it started from. -/
theorem insertionSort_eq_of_perm {α β : Type} [LinearOrder β] {key : α → β} {l l' : List α}
    (h : l.Perm l') (hkey : ∀ x ∈ l, ∀ y ∈ l, key x = key y → x = y) :
    l.insertionSort (fun x y => key x ≤ key y) = l'.insertionSort fun x y => key x ≤ key y := by
  have hperm := (perm_insertionSort (fun x y => key x ≤ key y) l).trans
    (h.trans (perm_insertionSort (fun x y => key x ≤ key y) l').symm)
  refine hperm.eq_of_pairwise (fun x y hx hy hxy hyx => ?_) (pairwise_insertionSort _ l)
    (pairwise_insertionSort _ l')
  rw [mem_insertionSort] at hx hy
  exact hkey x hx y (h.symm.subset hy) (le_antisymm hxy hyx)

/-! ### One group, walked in two orders -/

section Group

variable {active active' : List SessionRecord}

theorem find_eq_of_perm (h : active.Perm active') (hnodup : (active.map (·.id)).Nodup)
    (id : SessionId) : active.find? (fun session => session.id = id) =
      active'.find? fun session => session.id = id := by
  have hnodup' := (h.map (·.id)).nodup_iff.mp hnodup
  let index : Sessions := ⟨active, hnodup⟩
  let index' : Sessions := ⟨active', hnodup'⟩
  refine Option.ext fun session => ?_
  have hleft : index.lookup id = some session ↔ session ∈ active ∧ session.id = id :=
    Index.lookup_eq_some
  have hright : index'.lookup id = some session ↔ session ∈ active' ∧ session.id = id :=
    Index.lookup_eq_some
  rw [h.mem_iff] at hleft
  exact hleft.trans hright.symm

theorem namedParent_eq_of_perm (h : active.Perm active') (hnodup : (active.map (·.id)).Nodup) :
    namedParent active = namedParent active' := by
  funext id
  have hany : ∀ parent, (active.any fun other => other.id = parent) =
      active'.any fun other => other.id = parent := fun parent => h.any_eq
  simp only [namedParent, find_eq_of_perm h hnodup, hany]

/-- No session of a group leads back to itself. -/
def Acyclic (active : List SessionRecord) : Prop :=
  ∀ id, ¬ TransGen (PointsAt (namedParent active)) id id

theorem acyclic_of_perm (h : active.Perm active') (hnodup : (active.map (·.id)).Nodup)
    (hacyclic : Acyclic active) : Acyclic active' := by
  rwa [Acyclic, ← namedParent_eq_of_perm h hnodup]

theorem resolveParents_of_acyclic (hnodup : (active.map (·.id)).Nodup) (h : Acyclic active) :
    resolveParents active = some (namedParent active) := by
  obtain ⟨parents, hparents, hresolved⟩ := resolveParents_eq hnodup
  have heq : parents = namedParent active := funext fun x =>
    hresolved.kept_of_grounded (grounded_of_acyclic
      (fun x y hxy => ⟨(namedParent_eq_some hxy).1, (namedParent_eq_some hxy).2.1⟩) h x)
  rw [hparents, heq]

theorem childrenOf_eq_of_perm (prefs : Prefs) (h : active.Perm active')
    (hnodup : (active.map (·.id)).Nodup)
    (parents : SessionId → Option SessionId) (parent : Option SessionId) :
    childrenOf prefs parents active parent = childrenOf prefs parents active' parent := by
  refine insertionSort_eq_of_perm (h.filter _) fun x hx y hy hkey => ?_
  refine inj_on_of_nodup_map hnodup (mem_filter.mp hx).1 (mem_filter.mp hy).1 ?_
  have hparts := congrArg (fun key => (ofLex (ofLex (ofLex key).2).2).2) hkey
  exact hparts

theorem buildTree_eq_of_perm (prefs : Prefs) (h : active.Perm active')
    (hnodup : (active.map (·.id)).Nodup) (hacyclic : Acyclic active) (expanded : Bool) :
    buildTree prefs active expanded = buildTree prefs active' expanded := by
  have hnodup' := (h.map (·.id)).nodup_iff.mp hnodup
  have hchildren := childrenOf_eq_of_perm prefs h hnodup (namedParent active')
  rw [buildTree, buildTree, resolveParents_of_acyclic hnodup hacyclic, resolveParents_of_acyclic
    hnodup' (acyclic_of_perm h hnodup hacyclic), namedParent_eq_of_perm h hnodup, h.length_eq]
  simp only [bind_eq_bind, bind_some, hchildren]

end Group

/-! ### The project of a group without a record -/

def IsNewest (group : List SessionRecord) (session : SessionRecord) : Prop :=
  ∀ other ∈ group, other.createdAt.sinceEpoch ≤ session.createdAt.sinceEpoch

/-- The root a session gives a project without a record. -/
def rootOf (session : SessionRecord) : String := session.worktreePath.getD session.cwd

/-- One turn of the search for the newest session. -/
def later (best : Option SessionRecord) (session : SessionRecord) : Option SessionRecord :=
  match best with
  | none => some session
  | some best =>
    if best.createdAt.sinceEpoch ≤ session.createdAt.sinceEpoch then some session else some best

theorem latest_eq (group : List SessionRecord) : latest group = group.foldl later none := rfl

theorem foldl_later (group : List SessionRecord) (best : SessionRecord) :
    ∃ session ∈ best :: group, group.foldl later (some best) = some session ∧
      IsNewest (best :: group) session := by
  induction group generalizing best with
  | nil => exact ⟨best, by simp, rfl, by simp [IsNewest]⟩
  | cons next rest ih =>
    by_cases hle : best.createdAt.sinceEpoch ≤ next.createdAt.sinceEpoch
    · obtain ⟨session, hmem, hfold, hnewest⟩ := ih next
      refine ⟨session, mem_cons_of_mem _ hmem, by simpa [later, hle] using hfold, ?_⟩
      intro other hother
      rcases mem_cons.mp hother with rfl | hother
      · exact hle.trans (hnewest next (by simp))
      · exact hnewest other hother
    obtain ⟨session, hmem, hfold, hnewest⟩ := ih best
    refine ⟨session, ?_, by simpa [later, hle] using hfold, ?_⟩
    · rcases mem_cons.mp hmem with rfl | hmem
      · simp
      · simp [hmem]
    intro other hother
    rcases mem_cons.mp hother with rfl | hother
    · exact hnewest other (by simp)
    rcases mem_cons.mp hother with rfl | hother
    · exact (Nat.le_of_not_le hle).trans (hnewest best (by simp))
    · exact hnewest other (by simp [hother])

theorem latest_newest {group : List SessionRecord} (h : group ≠ []) :
    ∃ session ∈ group, latest group = some session ∧ IsNewest group session := by
  obtain ⟨first, rest, rfl⟩ := exists_cons_of_ne_nil h
  exact foldl_later rest first

theorem latest_append {group : List SessionRecord} {session : SessionRecord}
    (h : IsNewest group session) : latest (group ++ [session]) = some session := by
  rw [latest_eq, foldl_append, ← latest_eq]
  by_cases hgroup : group = []
  · rw [hgroup]
    rfl
  obtain ⟨best, hbest, hlatest, -⟩ := latest_newest hgroup
  rw [hlatest]
  exact if_pos (h best hbest)

theorem syntheticProject_root {group : List SessionRecord} {session : SessionRecord}
    (h : latest group = some session) (id : ProjectId) :
    (syntheticProject id group).root = rootOf session := by
  simp [syntheticProject, h, rootOf]

variable {group group' : List SessionRecord}

theorem syntheticProject_congr {session session' : SessionRecord}
    (h : latest group = some session) (h' : latest group' = some session')
    (hroot : rootOf session = rootOf session') (id : ProjectId) :
    syntheticProject id group = syntheticProject id group' := by
  rw [rootOf, rootOf] at hroot
  simp [syntheticProject, h, h', hroot]

/-! ### Groups walked in two orders -/

/-- What a group must be for the order its sessions are walked in not to matter. -/
structure SteadyGroup (projects : Projects) (projectId : ProjectId) (group : List SessionRecord) :
    Prop where
  acyclic : Acyclic (group.filter (!·.isArchived))
  host : ∀ session ∈ group, ∀ other ∈ group, session.host = other.host
  root : projects.lookup projectId = none → ∀ session ∈ group, ∀ other ∈ group,
    IsNewest group session → IsNewest group other → rootOf session = rootOf other

theorem arrival_eq_of_perm (h : group.Perm group') : arrival group = arrival group' := by
  refine h.foldl_eq' (fun x _ y _ oldest => ?_) _
  exact min_right_comm (oldest : WithTop Nat) x.createdAt.sinceEpoch y.createdAt.sinceEpoch

theorem SteadyGroup.buildGroup_eq {projects : Projects} {prefs : Prefs} {projectId : ProjectId}
    (h : SteadyGroup projects projectId group)
    (hnodup : (group.map (·.id)).Nodup) (hperm : group.Perm group') :
    buildGroup projects prefs projectId group = buildGroup projects prefs projectId group' := by
  have hproject : (projects.lookup projectId).getD (syntheticProject projectId group) =
      (projects.lookup projectId).getD (syntheticProject projectId group') := by
    cases hlookup : projects.lookup projectId with
    | some project => rfl
    | none =>
      by_cases hgroup : group = []
      · have hgroup' : group' = [] := (hgroup ▸ hperm).nil_eq.symm
        rw [hgroup, hgroup']
      have hgroup' : group' ≠ [] := fun hnil => hgroup (hnil ▸ hperm).eq_nil
      obtain ⟨session, hmem, hlatest, hnewest⟩ := latest_newest hgroup
      obtain ⟨other, hother, hlatest', hnewest'⟩ := latest_newest hgroup'
      exact syntheticProject_congr hlatest hlatest' (h.root hlookup session hmem other
        (hperm.symm.subset hother) hnewest fun x hx => hnewest' x (hperm.subset hx)) projectId
  have hhost : group.head?.bind (·.host) = group'.head?.bind (·.host) := by
    cases hhead : group.head? with
    | none =>
      obtain rfl := head?_eq_none_iff.mp hhead
      rw [← hperm.nil_eq]
      rfl
    | some session =>
      cases hhead' : group'.head? with
      | none =>
        obtain rfl := head?_eq_none_iff.mp hhead'
        rw [hperm.eq_nil] at hhead
        cases hhead
      | some other =>
        exact h.host session (mem_of_head? hhead) other (hperm.symm.subset (mem_of_head? hhead'))
  have harchived : (group.filter (·.isArchived)).insertionSort
        (fun left right => archivedKey left ≤ archivedKey right) =
      (group'.filter (·.isArchived)).insertionSort
        fun left right => archivedKey left ≤ archivedKey right := by
    refine insertionSort_eq_of_perm (hperm.filter _) fun x hx y hy hkey => ?_
    refine inj_on_of_nodup_map hnodup (mem_filter.mp hx).1 (mem_filter.mp hy).1 ?_
    have hparts := congrArg (fun key => (ofLex key).2) hkey
    exact hparts
  have htree := buildTree_eq_of_perm prefs (hperm.filter (!·.isArchived))
    (hnodup.sublist (filter_sublist.map _)) h.acyclic
  simp only [buildGroup, hproject, hhost, harchived, htree, arrival_eq_of_perm hperm]

/-! ### The whole sidebar, walked in two orders -/

/-- Every group is one whose walk does not matter. -/
def Steady (sessions : Sessions) (projects : Projects) (closing : List SessionId) : Prop :=
  ∀ projectId, SteadyGroup projects projectId (groupOf .inOrder sessions closing projectId)

section Walks

variable {sessions : Sessions} {projects : Projects} {closing : List SessionId}

theorem groupOf_perm (walks walks' : Walks) (projectId : ProjectId) :
    (groupOf walks sessions closing projectId).Perm (groupOf walks' sessions closing projectId) :=
  ((shownIn_perm walks sessions closing).trans (shownIn_perm walks' sessions closing).symm).filter _

theorem projectIds_perm (walks walks' : Walks) :
    (projectIds walks sessions closing).Perm (projectIds walks' sessions closing) :=
  (walks.groups.perm _).trans (((((shownIn_perm walks sessions closing).trans
      (shownIn_perm walks' sessions closing).symm).map _).dedup).trans (walks'.groups.perm _).symm)

theorem Steady.buildProjection_eq (h : Steady sessions projects closing) (walks walks' : Walks)
    (prefs : Prefs) (selected : Option SessionId) :
    buildProjection walks sessions projects prefs selected closing =
      buildProjection walks' sessions projects prefs selected closing := by
  choose ranked hranked hbuilt using buildGroup_eq .inOrder sessions projects prefs closing
  have hgroups : ∀ (walks : Walks) (projectId : ProjectId), buildGroup projects prefs projectId
      (groupOf walks sessions closing projectId) = some (ranked projectId) := fun walks projectId =>
    ((h projectId).buildGroup_eq (nodup_groupOf .inOrder sessions closing projectId)
      (groupOf_perm .inOrder walks projectId)).symm.trans (hranked projectId)
  rw [buildProjection_of_groups walks sessions projects prefs selected closing (hgroups walks),
    buildProjection_of_groups walks' sessions projects prefs selected closing (hgroups walks')]
  refine congrArg some ?_
  have hsorted : ((projectIds walks sessions closing).map ranked).insertionSort
        (fun left right => projectKey prefs left ≤ projectKey prefs right) =
      ((projectIds walks' sessions closing).map ranked).insertionSort
        fun left right => projectKey prefs left ≤ projectKey prefs right := by
    refine insertionSort_eq_of_perm ((projectIds_perm walks walks').map ranked) ?_
    intro x hx y hy hkey
    obtain ⟨projectId, -, rfl⟩ := mem_map.mp hx
    obtain ⟨other, -, rfl⟩ := mem_map.mp hy
    have hparts := congrArg (fun key => (ofLex (ofLex (ofLex key).2).2).2) hkey
    have hids : (ranked projectId).2.project.id = (ranked other).2.project.id := hparts
    rw [(hbuilt projectId).id, (hbuilt other).id] at hids
    rw [hids]
  rw [arranged, arranged, hsorted]

/-! ### What a walk gives away -/

/-- The walk that comes to one session before all others. -/
def Walks.first (session : SessionRecord) : Walks := ⟨.first session, .inOrder⟩

/-- The walk that comes to one session after all others. -/
def Walks.last (session : SessionRecord) : Walks := ⟨.last session, .inOrder⟩

variable {projectId : ProjectId} {session : SessionRecord} {prefs : Prefs}

theorem mem_groupOf {walks : Walks} : session ∈ groupOf walks sessions closing projectId ↔
      session ∈ sessions.values ∧ isShown closing session = true ∧
        session.projectId = projectId := by
  rw [(groupOf_perm walks .inOrder projectId).mem_iff]
  simp only [groupOf, shownIn, Walks.inOrder, Walk.inOrder, id_eq, mem_filter,
    decide_eq_true_eq, and_assoc]

theorem groupOf_first (h : session ∈ groupOf .inOrder sessions closing projectId) :
    ∃ rest, groupOf (.first session) sessions closing projectId = session :: rest := by
  obtain ⟨hmem, hshown, hid⟩ := mem_groupOf.mp h
  simp [groupOf, shownIn, Walks.first, Walk.first, hmem, hshown, hid]

theorem groupOf_last (h : session ∈ groupOf .inOrder sessions closing projectId) :
    ∃ rest, groupOf (.last session) sessions closing projectId = rest ++ [session] := by
  obtain ⟨hmem, hshown, hid⟩ := mem_groupOf.mp h
  simp [groupOf, shownIn, Walks.last, Walk.last, hmem, hshown, hid]

theorem buildGroup_fields {group : List SessionRecord} {ranked : WithTop Nat × SidebarProject}
    (h : buildGroup projects prefs projectId group = some ranked) :
    ranked.2.project = (projects.lookup projectId).getD (syntheticProject projectId group) ∧
      ranked.2.host = group.head?.bind (·.host) := by
  simp only [buildGroup, bind_eq_bind, bind_eq_some_iff] at h
  obtain ⟨tree, -, hranked⟩ := h
  obtain ⟨⟩ := hranked
  exact ⟨rfl, rfl⟩

theorem group_eq {walks walks' : Walks} {selected : Option SessionId}
    (heq : buildProjection walks sessions projects prefs selected closing =
      buildProjection walks' sessions projects prefs selected closing)
    (hsession : session ∈ groupOf .inOrder sessions closing projectId) :
    ∃ ranked ranked', buildGroup projects prefs projectId
        (groupOf walks sessions closing projectId) = some ranked ∧
      buildGroup projects prefs projectId
        (groupOf walks' sessions closing projectId) = some ranked' ∧
      Built walks sessions prefs closing projectId ranked.2 ∧
      Built walks' sessions prefs closing projectId ranked'.2 ∧ ranked.2 = ranked'.2 := by
  choose ranked hranked hbuilt using buildGroup_eq walks sessions projects prefs closing
  choose ranked' hranked' hbuilt' using buildGroup_eq walks' sessions projects prefs closing
  refine ⟨ranked projectId, ranked' projectId, hranked projectId, hranked' projectId,
    hbuilt projectId, hbuilt' projectId, ?_⟩
  rw [buildProjection_of_groups walks sessions projects prefs selected closing hranked,
    buildProjection_of_groups walks' sessions projects prefs selected closing hranked'] at heq
  have hprojects := congrArg SidebarProjection.projects (Option.some.inj heq)
  have hgroups : ∀ (walks : Walks) (ranked : ProjectId → WithTop Nat × SidebarProject),
      (arranged prefs selected ((projectIds walks sessions closing).map ranked)).projects.Perm
        ((projectIds walks sessions closing).map fun projectId => (ranked projectId).2) := by
    intro walks ranked
    refine ((perm_insertionSort _ _).map _).trans ?_
    rw [List.map_map]
    exact .refl _
  have hid : ∀ walks : Walks, projectId ∈ projectIds walks sessions closing := by
    intro walks
    obtain ⟨hmem, hshown, rfl⟩ := mem_groupOf.mp hsession
    have hin : session ∈ shownIn walks sessions closing :=
      (shownIn_perm walks sessions closing).symm.subset (mem_filter.mpr ⟨hmem, hshown⟩)
    rw [projectIds, Walk.mem_apply, mem_dedup]
    exact mem_map_of_mem hin
  have hdistinct : ((arranged prefs selected
      ((projectIds walks sessions closing).map ranked)).projects.map (·.project.id)).Nodup := by
    refine ((hgroups walks ranked).map _).nodup_iff.mpr ?_
    rw [List.map_map, show (fun group : SidebarProject => group.project.id) ∘
      (fun projectId => (ranked projectId).2) = id from funext fun projectId =>
        (hbuilt projectId).id, List.map_id]
    exact ((walks.groups.perm _).nodup_iff).mpr (nodup_dedup _)
  refine inj_on_of_nodup_map hdistinct ?_ ?_ ?_
  · exact (hgroups walks ranked).symm.subset (mem_map.mpr ⟨projectId, hid walks, rfl⟩)
  · rw [hprojects]
    exact (hgroups walks' ranked').symm.subset (mem_map.mpr ⟨projectId, hid walks', rfl⟩)
  · rw [(hbuilt projectId).id, (hbuilt' projectId).id]

theorem reaches_kept {named parents : SessionId → Option SessionId} {x y : SessionId}
    (hpath : ReflTransGen (PointsAt named) y x)
    (hkept : ∀ z, z ≠ x → ReflTransGen (PointsAt named) z x → parents z = named z) :
    ReflTransGen (PointsAt parents) y x := by
  induction hpath using ReflTransGen.head_induction_on with
  | refl => exact .refl
  | head hpoint hrest ih =>
    rename_i z w
    by_cases hz : z = x
    · rw [hz]
    · exact .head ((hkept z hz (.head hpoint hrest)).trans hpoint) ih

theorem Built.first_above {group : SidebarProject}
    (h : Built (.first session) sessions prefs closing projectId group)
    (hsession : session ∈ activeOf .inOrder sessions closing projectId) {y : SessionId}
    (hne : y ≠ session.id)
    (hpath : ReflTransGen (PointsAt (namedParent (activeOf .inOrder sessions closing projectId)))
      y session.id) : [session.id, y].Sublist (group.active.map (·.id)) := by
  obtain ⟨parents, visits, hresolved, hdrawn, -, hactive⟩ := h.tree
  obtain ⟨hgroup, harchived⟩ := mem_filter.mp hsession
  obtain ⟨rest, hrest⟩ := groupOf_first hgroup
  have hfirst : activeOf (.first session) sessions closing projectId =
      session :: rest.filter (!·.isArchived) := by
    rw [activeOf, hrest]
    exact filter_cons_of_pos harchived
  have hperm : (activeOf .inOrder sessions closing projectId).Perm
      (activeOf (.first session) sessions closing projectId) :=
    (groupOf_perm .inOrder (.first session) projectId).filter _
  have hnamed := namedParent_eq_of_perm hperm (nodup_activeOf .inOrder sessions closing projectId)
  rw [hnamed] at hpath
  have hkept : ∀ z, z ≠ session.id →
      ReflTransGen (PointsAt (namedParent (activeOf (.first session) sessions closing projectId)))
        z session.id →
      parents z = namedParent (activeOf (.first session) sessions closing projectId) z := by
    intro z hz hreach
    refine hresolved.kept z fun hbreaks => ?_
    have hle := hbreaks.2 session.id hreach
    rw [hfirst, map_cons, idxOf_cons_self, idxOf_cons_ne _ (Ne.symm hz)] at hle
    omega
  have hup : TransGen (PointsAt parents) y session.id :=
    (reflTransGen_iff_eq_or_transGen.mp (reaches_kept hpath hkept)).resolve_left (Ne.symm hne)
  have hmem : session ∈ visits.map (·.session) := hdrawn.perm.symm.subset (hperm.subset hsession)
  obtain ⟨before, below, after, hsplit, hbelow⟩ :=
    hdrawn.subtree hresolved (nodup_activeOf (.first session) sessions closing projectId) hmem
  obtain ⟨z, hyz, -⟩ := TransGen.head'_iff.mp hup
  obtain ⟨other, hother, rfl⟩ := mem_map.mp (namedParent_eq_some (hresolved.named hyz)).1
  have hunder := (hbelow other).mpr ⟨hdrawn.perm.symm.subset hother, hup⟩
  rw [hactive, hsplit, map_append, map_cons, map_append]
  refine List.Sublist.trans ?_ (sublist_append_right _ _)
  have hin : other.id ∈ below.map (·.id) ++ after.map (·.id) :=
    mem_append_left _ (mem_map_of_mem hunder)
  exact (singleton_sublist.mpr hin).cons_cons _

theorem steady_of_forall {selected : Option SessionId}
    (h : ∀ walks walks' : Walks, buildProjection walks sessions projects prefs selected closing =
      buildProjection walks' sessions projects prefs selected closing) :
    Steady sessions projects closing := by
  intro projectId
  constructor
  · intro x hcycle
    obtain ⟨parent, hparent, hback⟩ := TransGen.head'_iff.mp hcycle
    obtain ⟨hx, hp, hne, -⟩ := namedParent_eq_some hparent
    obtain ⟨session, hsession, rfl⟩ := mem_map.mp hx
    obtain ⟨other, hother, rfl⟩ := mem_map.mp hp
    obtain ⟨ranked, ranked', -, -, hbuilt, hbuilt', heq⟩ := group_eq
      (h (.first session) (.first other)) (mem_filter.mp hsession).1
    have habove := hbuilt.first_above hsession hne hback
    have habove' := hbuilt'.first_above hother (Ne.symm hne) (.single hparent)
    rw [← heq] at habove'
    have hnodup : (ranked.2.active.map (·.id)).Nodup :=
      (hbuilt.active_perm.map _).nodup_iff.mpr (nodup_activeOf _ sessions closing projectId)
    have hpair := pair_sublist_of_sublist hnodup habove (by simp) (by simp) habove'
    have hswap := hpair.eq_of_length (by simp)
    exact hne (by simpa using congrArg List.head? hswap)
  · intro session hsession other hother
    obtain ⟨ranked, ranked', hranked, hranked', -, -, heq⟩ :=
      group_eq (h (.first session) (.first other)) hsession
    obtain ⟨rest, hrest⟩ := groupOf_first hsession
    obtain ⟨rest', hrest'⟩ := groupOf_first hother
    have hhost := (buildGroup_fields hranked).2
    have hhost' := (buildGroup_fields hranked').2
    rw [hrest] at hhost
    rw [← heq, hrest'] at hhost'
    exact hhost.symm.trans hhost'
  intro hlookup session hsession other hother hnewest hnewest'
  obtain ⟨ranked, ranked', hranked, hranked', -, -, heq⟩ :=
    group_eq (h (.last session) (.last other)) hsession
  obtain ⟨rest, hrest⟩ := groupOf_last hsession
  obtain ⟨rest', hrest'⟩ := groupOf_last hother
  have hlast : ∀ {session : SessionRecord} {rest : List SessionRecord},
      groupOf (.last session) sessions closing projectId = rest ++ [session] →
      IsNewest (groupOf .inOrder sessions closing projectId) session →
      latest (groupOf (.last session) sessions closing projectId) = some session := by
    intro session rest hrest hnewest
    rw [hrest]
    exact latest_append fun x hx => hnewest x
      ((groupOf_perm (.last session) .inOrder projectId).subset (by simp [hrest, hx]))
  have hproject := (buildGroup_fields hranked).1
  have hproject' := (buildGroup_fields hranked').1
  rw [← heq, hproject, hlookup, getD_none, getD_none] at hproject'
  have hroot := congrArg Project.root hproject'
  rwa [syntheticProject_root (hlast hrest hnewest), syntheticProject_root (hlast hrest' hnewest')]
    at hroot

end Walks

/--
**Two walks of the same maps build one sidebar just where every group is steady**: where no
session leads back to itself, all sessions of a project share their host, and the newest
sessions of a project without a record agree on its root.
-/
theorem projection_of_walks (sessions : Sessions) (projects : Projects) (prefs : Prefs)
    (selected : Option SessionId) (closing : List SessionId) :
    (∀ walks walks' : Walks, buildProjection walks sessions projects prefs selected closing =
      buildProjection walks' sessions projects prefs selected closing) ↔
      Steady sessions projects closing :=
  ⟨steady_of_forall, fun h walks walks' => h.buildProjection_eq walks walks' prefs selected⟩

/-! ### Two sessions created at one moment -/

/-- A session of a project the daemon has sent no record of. -/
def unfiled (id : SessionId) (worktreePath : String) : SessionRecord where
  id
  kind := "claude-code"
  cwd := "/work/repo"
  title := ""
  titleSource := .placeholder
  status := .working
  resumability := .live
  updatedAt := ⟨0⟩
  createdAt := ⟨0⟩
  projectId := "repo"
  worktreePath := some worktreePath

/-- Two sessions as new as each other: their project is named after whichever is walked last. -/
theorem project_renamed : buildProjection (.last (unfiled "a" "/work/left"))
        (.ofList [unfiled "a" "/work/left", unfiled "b" "/work/right"]) .empty {} none [] ≠
      buildProjection (.last (unfiled "b" "/work/right"))
        (.ofList [unfiled "a" "/work/left", unfiled "b" "/work/right"]) .empty {} none [] := by
  decide +kernel

end Diri.App
