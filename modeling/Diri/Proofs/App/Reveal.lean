/-
Selecting a session brings it into view.

`reveal` climbs by the parents that the records name, the sidebar by those that count.  The
second way up is part of the first (`named_of_resolved`) and comes by no session twice, so
`unfoldAbove` does not stop before its end, and nothing above the session stays folded.
-/
import Diri.Proofs.App.Closing

namespace Diri.App

open Relation List

variable {sessions : Sessions} {id : SessionId}

/-! ### The walk -/

theorem unfoldAbove_sublist (fuel : Nat) (seen : List SessionId) (cursor : Option SessionId)
    (collapsed : List SessionId) :
    (SessionStore.unfoldAbove sessions fuel seen cursor collapsed).Sublist collapsed := by
  induction fuel generalizing seen cursor collapsed with
  | zero => exact List.Sublist.refl _
  | succ fuel ih =>
    cases cursor with
    | none => exact List.Sublist.refl _
    | some ancestor =>
      rw [SessionStore.unfoldAbove]
      split
      · exact List.Sublist.refl _
      · exact (ih _ _ _).trans erase_sublist

/-- Where the ways up of a forest are ways up of the records, all that is above is unfolded. -/
theorem not_mem_unfoldAbove {parents : SessionId → Option SessionId}
    (hnamed : ∀ x y, parents x = some y → (sessions.lookup x).bind (·.parent) = some y)
    {x : SessionId} {n : Nat} (hdepth : Depth parents x n) :
    ∀ {fuel : Nat} {seen collapsed : List SessionId}, n ≤ fuel → collapsed.Nodup →
      (∀ y, TransGen (PointsAt parents) x y → y ∉ seen) → ∀ y, TransGen (PointsAt parents) x y →
        y ∉ SessionStore.unfoldAbove sessions fuel seen ((sessions.lookup x).bind (·.parent))
          collapsed := by
  induction hdepth with
  | root hroot =>
    intro fuel seen collapsed _ _ _ y hy
    obtain ⟨z, hz, -⟩ := TransGen.head'_iff.mp hy
    rw [PointsAt, hroot] at hz
    cases hz
  | @step x above n hstep habove ih =>
    intro fuel seen collapsed hfuel hnodup hfresh y hy
    obtain ⟨fuel, rfl⟩ := Nat.exists_eq_add_of_le' (Nat.one_le_of_lt hfuel)
    have hnew : above ∉ seen := hfresh above (.single hstep)
    rw [hnamed x above hstep, SessionStore.unfoldAbove, if_neg hnew]
    have hgone : above ∉ collapsed.erase above := hnodup.not_mem_erase
    obtain ⟨z, hz, hzy⟩ := TransGen.head'_iff.mp hy
    obtain rfl : above = z := Option.some.inj (hstep.symm.trans hz)
    rcases reflTransGen_iff_eq_or_transGen.mp hzy with rfl | hup
    · exact fun hmem => hgone ((unfoldAbove_sublist _ _ _ _).subset hmem)
    refine ih (Nat.le_of_succ_le_succ hfuel) (hnodup.erase _) (fun w hw => ?_) y hup
    rw [mem_cons, not_or]
    refine ⟨?_, hfresh w (.head hstep hw)⟩
    rintro rfl
    exact habove.acyclic hw

/-! ### What a selection changes -/

namespace SessionStore

variable {walks : Walks} {store : SessionStore}

/-- The preferences and the selected session stay. -/
def Steady (before after : SessionStore) : Prop :=
  after.prefs = before.prefs ∧ after.selectedSessionId = before.selectedSessionId

theorem focusSession_tail (id : SessionId) (store : SessionStore) :
    let touched := if store.isUnarchived id then store.touchResidency id else store
    let seen := if touched.isUnarchived id then touched.emit (.markSeen id) else touched
    Steady store ((seen.autoResumeIfNeeded id).emit .uiChanged) := by
  intro touched seen
  have htouched : Steady store touched := by
    show Steady store (if store.isUnarchived id then store.touchResidency id else store)
    rw [touchResidency_eq]
    split <;> exact ⟨rfl, rfl⟩
  have hseen : Steady touched seen := by
    show Steady touched (if touched.isUnarchived id then touched.emit (.markSeen id) else touched)
    split <;> exact ⟨rfl, rfl⟩
  have hresumed : Steady seen ((seen.autoResumeIfNeeded id).emit .uiChanged) := by
    unfold autoResumeIfNeeded
    simp only
    split <;> exact ⟨rfl, rfl⟩
  exact ⟨hresumed.1.trans (hseen.1.trans htouched.1), hresumed.2.trans (hseen.2.trans htouched.2)⟩

theorem select_frame (h : store.sessions.contains id = true) : (store.select id).prefs =
        { (store.reveal id).prefs with lastSelectedSession := some id } ∧
      (store.select id).selectedSessionId = some id := by
  have hreveal : ∀ focused : SessionStore, focused.sessions = store.sessions →
      focused.prefs = store.prefs → (focused.reveal id).prefs = (store.reveal id).prefs ∧
        (focused.reveal id).selectedSessionId = focused.selectedSessionId := by
    intro focused hsessions hprefs
    unfold reveal
    rw [hsessions, hprefs]
    cases store.sessions.lookup id with
    | none => exact ⟨hprefs, rfl⟩
    | some session => exact ⟨rfl, rfl⟩
  obtain ⟨hprefs, hselected⟩ := hreveal { store with
    sidebarSelection := [], sidebarSelectionAnchor := some id,
      selectedSessionId := some id } rfl rfl
  rw [select, if_pos h, focusSession]
  refine ⟨(focusSession_tail id _).1.trans ?_, (focusSession_tail id _).2.trans hselected⟩
  rw [← hprefs]

end SessionStore

/-! ### What is in view -/

section View

variable {walks : Walks} {projects : Projects} {prefs : Prefs} {selected : Option SessionId}
  {closing : List SessionId} {projection : SidebarProjection} {session : SessionRecord}

theorem exists_group (hprojection : buildProjection walks sessions projects prefs selected closing =
      some projection)
    (hsession : session ∈ sessions.values) (hshown : isShown closing session = true) :
    ∃ group ∈ projection.projects, Built walks sessions prefs closing session.projectId group ∧
      session ∈ groupOf walks sessions closing session.projectId := by
  have hmem : session ∈ shownIn walks sessions closing :=
    (shownIn_perm walks sessions closing).mem_iff.mpr (mem_filter.mpr ⟨hsession, hshown⟩)
  obtain ⟨built, hbuilt, hgroups⟩ := groups_of_build hprojection
  refine ⟨built session.projectId, hgroups.mem_iff.mpr (mem_map_of_mem ?_),
    hbuilt session.projectId, mem_filter.mpr ⟨hmem, by simp⟩⟩
  exact mem_dedup.mpr (mem_map_of_mem hmem)

theorem mem_rows {group : SidebarProject} {projectId : ProjectId}
    (hbuilt : Built walks sessions prefs closing projectId group)
    (hactive : session ∈ activeOf walks sessions closing projectId)
    (hopen : projectId ∉ prefs.sidebarCollapsedProjects)
    (hunfolded : ∀ parents, Resolved (activeOf walks sessions closing projectId) parents →
      Unfolded prefs parents session.id) : session ∈ group.sessions.map (·.session) := by
  obtain ⟨parents, visits, hresolved, hdrawn, hrows, -⟩ := hbuilt.tree
  obtain ⟨frame, hframe, rfl⟩ := mem_map.mp (hdrawn.perm.mem_iff.mpr hactive)
  obtain ⟨depth, hplaced⟩ := hdrawn.placed frame hframe
  have hvisible : frame.visible = true :=
    hplaced.visible.mpr ⟨by simpa using hopen, hunfolded parents hresolved⟩
  rw [hrows, Drawn.rows_session]
  exact mem_map_of_mem (mem_filter.mpr ⟨hframe, hvisible⟩)

end View

namespace SessionStore

theorem unfolded_of_select {walks : Walks} {store : SessionStore} {session : SessionRecord}
    (hsession : store.sessions.lookup id = some session)
    (hnodup : store.prefs.sidebarCollapsedSessions.Nodup)
    (hactive : session ∈ activeOf walks store.sessions store.closing session.projectId)
    {parents : SessionId → Option SessionId}
    (hresolved : Resolved (activeOf walks store.sessions store.closing session.projectId) parents) :
    Unfolded (store.select id).prefs parents id := by
  have hid : session.id = id := (Index.lookup_eq_some.mp hsession).2
  have hstored : ∀ other ∈ activeOf walks store.sessions store.closing session.projectId,
      other ∈ store.sessions.values := fun other hother =>
    (mem_filter.mp ((shownIn_perm walks _ _).subset (mem_activeOf hother).1)).1
  have hnamed : ∀ x y, parents x = some y →
      (store.sessions.lookup x).bind (·.parent) = some y := by
    intro x y hxy
    obtain ⟨-, -, -, child, hchild, rfl, hparent⟩ := namedParent_eq_some (hresolved.named hxy)
    rw [Index.lookup_of_mem (hstored child hchild), Option.bind_some, hparent]
  obtain ⟨n, hdepth⟩ := hresolved.grounded id
  have hfuel : n ≤ store.sessions.values.length + 1 := by
    have hlt := depth_lt hresolved (hid ▸ mem_map_of_mem hactive) hdepth
    have hle := (subperm_of_subset ((nodup_activeOf walks store.sessions store.closing
      session.projectId).of_map _) hstored).length_le
    omega
  have hcontains : store.sessions.contains id = true := by
    rw [Index.contains, hsession]
    rfl
  have hparent : session.parent = (store.sessions.lookup id).bind (·.parent) := by
    rw [hsession]
    rfl
  intro above habove
  rw [(select_frame hcontains).1, reveal, hsession]
  show above ∉ unfoldAbove _ _ _ session.parent _
  rw [hparent]
  refine not_mem_unfoldAbove hnamed hdepth hfuel hnodup (fun y hy => ?_) above habove
  rw [mem_singleton]
  rintro rfl
  exact hdepth.acyclic hy

/-- Selecting a session puts it in the keyboard's order, and on the sidebar. -/
theorem select_reveals (walks : Walks) {store : SessionStore} {session : SessionRecord}
    (hsession : store.sessions.lookup id = some session)
    (hshown : isShown store.closing session = true)
    (hprojects : store.prefs.sidebarCollapsedProjects.Nodup)
    (hsessions : store.prefs.sidebarCollapsedSessions.Nodup) :
    id ∈ ((store.select id).sidebarProjection walks).orderedSessions.map (·.id) ∧
      id ∈ (store.select id).sidebarVisibleOrder walks := by
  have hcontains : store.sessions.contains id = true := by
    rw [Index.contains, hsession]
    rfl
  have hid : session.id = id := (Index.lookup_eq_some.mp hsession).2
  have hfocus := Focuses.select hcontains
  obtain ⟨hprefs, hselected⟩ := select_frame hcontains
  have hprojection := projection_eq walks (store.select id)
  rw [hfocus.sessions, hfocus.closing, hselected] at hprojection
  obtain ⟨group, hgroup, hbuilt, hmember⟩ :=
    exists_group hprojection (Index.mem_of_lookup hsession) hshown
  rw [(orders_of_build hprojection).1, sidebarVisibleOrder]
  cases harchived : session.isArchived with
  | false =>
    have hactive : session ∈ activeOf walks store.sessions store.closing session.projectId :=
      mem_filter.mpr ⟨hmember, by simp [harchived]⟩
    have hopen : session.projectId ∉ (store.select id).prefs.sidebarCollapsedProjects := by
      rw [hprefs, reveal, hsession]
      exact hprojects.not_mem_erase
    have hrow := mem_rows hbuilt hactive hopen fun parents hresolved => by
      rw [hid]
      exact unfolded_of_select hsession hsessions hactive hresolved
    obtain ⟨row, hrow, hrowSession⟩ := mem_map.mp hrow
    constructor
    · refine mem_map.mpr ⟨session, mem_flatMap.mpr ⟨group, hgroup, ?_⟩, hid⟩
      exact mem_append_left _ (mem_map.mpr ⟨row, hrow, hrowSession⟩)
    · refine mem_flatMap.mpr ⟨group, hgroup, mem_append_left _ ?_⟩
      exact mem_map.mpr ⟨row, hrow, by rw [hrowSession, hid]⟩
  | true =>
    have hmem : session ∈ group.archived :=
      hbuilt.archived.mem_iff.mpr (mem_filter.mpr ⟨hmember, harchived⟩)
    constructor
    · refine mem_map.mpr ⟨session, mem_flatMap.mpr ⟨group, hgroup, ?_⟩, hid⟩
      exact mem_append_right _ (mem_filter.mpr ⟨hmem, by simp [hid]⟩)
    have hexpanded : (store.select id).prefs.sidebarExpandedArchives.contains
        group.project.id = true := by
      rw [hprefs, reveal, hsession, hbuilt.id]
      simp only [harchived, Bool.true_and]
      split <;> simp_all
    refine mem_flatMap.mpr ⟨group, hgroup, mem_append_right _ ?_⟩
    rw [if_pos hexpanded]
    exact mem_map.mpr ⟨session, hmem, hid⟩

/-- A session below one that is folded away, in a project that is. -/
def folded : SessionStore where
  sessions := chain 1
  prefs := { sidebarCollapsedProjects := ["work"], sidebarCollapsedSessions := [chainId 0] }

theorem select_reveals_folded : chainId 1 ∈
        ((folded.select (chainId 1)).sidebarProjection .inOrder).orderedSessions.map (·.id) ∧
      chainId 1 ∈ (folded.select (chainId 1)).sidebarVisibleOrder .inOrder := by
  have hsession : folded.sessions.lookup (chainId 1) = some (chained 1) := rfl
  exact select_reveals .inOrder hsession rfl (by decide) (by decide)

end SessionStore

end Diri.App
