/-
Which sessions are closing.

A session is put among the closing ones only together with the request for its removal, so
it is closing while that request is in flight.  What goes wrong is its failure: the task that
runs the effects notes the error, and the session stays hidden.
-/
import Diri.Proofs.App.Focus
import Diri.Proofs.App.Sidebar

namespace Diri.App

open List

namespace SessionStore

variable {a b c store : SessionStore} {id : SessionId} {walks : Walks}

/-! ### The sidebar -/

theorem projection_eq (walks : Walks) (store : SessionStore) :
    buildProjection walks store.sessions store.projects store.prefs store.selectedSessionId
      store.closing = some (store.sidebarProjection walks) := by
  obtain ⟨projection, hprojection, -⟩ := buildProjection_eq walks store.sessions store.projects
    store.prefs store.selectedSessionId store.closing
  rw [sidebarProjection, hprojection]
  rfl

theorem mem_sidebarProjection : id ∈ (store.sidebarProjection walks).displayOrder ↔
      ∃ session ∈ store.sessions.values, isShown store.closing session = true ∧ session.id = id :=
  mem_displayOrder (projection_eq walks store)

/-! ### What a change may hide -/

/-- Just these removals are asked for, and no other session begins to close. -/
structure Acts (removed : SessionId → Prop) (before after : SessionStore) : Prop where
  sent : ∃ new, after.effects = before.effects ++ new ∧ ∀ id, .remove id ∈ new ↔ removed id
  closing : ∀ id ∈ after.closing, id ∈ before.closing ∨ removed id
  pendingClose : ∀ ids, after.pendingClose = some ids → before.pendingClose = some ids

/-- No removal is asked for. -/
abbrev Spares (before after : SessionStore) : Prop := Acts (fun _ => False) before after

namespace Acts

variable {removed removed' : SessionId → Prop}

theorem refl (store : SessionStore) : Spares store store :=
  ⟨⟨[], by simp, by simp⟩, fun _ h => .inl h, fun _ h => h⟩

theorem trans (hab : Acts removed a b) (hbc : Acts removed' b c) :
    Acts (fun id => removed id ∨ removed' id) a c := by
  obtain ⟨newA, hA, hremoveA⟩ := hab.sent
  obtain ⟨newB, hB, hremoveB⟩ := hbc.sent
  refine ⟨⟨newA ++ newB, by rw [hB, hA, append_assoc], fun id => ?_⟩, fun id hid => ?_,
    fun ids h => hab.pendingClose ids (hbc.pendingClose ids h)⟩
  · rw [mem_append, hremoveA, hremoveB]
  · rcases hbc.closing id hid with hid | hid
    · exact (hab.closing id hid).imp_right .inl
    · exact .inr (.inr hid)

theorem congr (h : Acts removed a b) (hiff : ∀ id, removed id ↔ removed' id) : Acts removed' a b := by
  obtain rfl : removed = removed' := funext fun id => propext (hiff id)
  exact h

theorem after_spares (hab : Spares a b) (hbc : Acts removed b c) : Acts removed a c :=
  (hab.trans hbc).congr fun _ => false_or _ |>.to_iff

theorem then_spares (hab : Acts removed a b) (hbc : Spares b c) : Acts removed a c :=
  (hab.trans hbc).congr fun _ => or_false _ |>.to_iff

end Acts

theorem Quiet.spares (h : Quiet a b) : Spares a b := by
  obtain ⟨new, hnew, hquiet⟩ := h.sent
  exact ⟨⟨new, hnew, fun id => iff_of_false (not_remove_of_quiet hquiet id) (fun h => h)⟩,
    fun id hid => .inl (h.closing ▸ hid), fun ids hids => h.pendingClose ▸ hids⟩

theorem Focuses.spares {target : Option SessionId} (h : Focuses target a b) : Spares a b := by
  obtain ⟨new, hnew, hremove, -⟩ := h.sent
  exact ⟨⟨new, hnew, fun id => iff_of_false (hremove id) (fun h => h)⟩,
    fun id hid => .inl (h.closing ▸ hid), fun ids hids => h.pendingClose ▸ hids⟩

theorem spares_of_eq (heffects : b.effects = a.effects) (hclosing : b.closing ⊆ a.closing)
    (hpending : ∀ ids, b.pendingClose = some ids → a.pendingClose = some ids) : Spares a b :=
  ⟨⟨[], by rw [heffects, append_nil], by simp⟩, fun _ h => .inl (hclosing h), hpending⟩

theorem spares_of_sent {new : List StoreEffect} (heffects : b.effects = a.effects ++ new)
    (hnew : ∀ id, .remove id ∉ new) (hclosing : b.closing ⊆ a.closing)
    (hpending : ∀ ids, b.pendingClose = some ids → a.pendingClose = some ids) : Spares a b :=
  ⟨⟨new, heffects, fun id => iff_of_false (hnew id) (fun h => h)⟩, fun _ h => .inl (hclosing h),
    hpending⟩

theorem spares_touchResidency (id : SessionId) (store : SessionStore) :
    Spares store (store.touchResidency id) := by
  rw [touchResidency_eq]
  refine spares_of_sent rfl (fun x => ?_) (fun _ h => h) fun _ h => h
  cases (store.terminalResidency.touch id).2 <;> simp

theorem spares_removeResidency (id : SessionId) (store : SessionStore) :
    Spares store (store.removeResidency id) := by
  rw [removeResidency_eq]
  refine spares_of_sent rfl (fun x => ?_) (fun _ h => h) fun _ h => h
  split <;> simp

/-! ### Closing sessions -/

variable {ids : List SessionId}

theorem mem_firstOccurrences : id ∈ firstOccurrences ids ↔ id ∈ ids := by
  induction ids with
  | nil => simp [firstOccurrences]
  | cons first rest ih =>
    by_cases h : id = first
    · simp [firstOccurrences, h]
    · simp [firstOccurrences, h, ih]

@[simp] theorem mem_insertId {x : SessionId} : x ∈ insertId id ids ↔ x = id ∨ x ∈ ids := by
  unfold insertId
  split
  · rename_i h
    constructor
    · exact .inr
    · rintro (rfl | hx)
      · exact h
      · exact hx
  · simp [or_comm]

@[simp] theorem mem_withoutId {x : SessionId} : x ∈ withoutId id ids ↔ x ∈ ids ∧ x ≠ id := by
  simp [withoutId]

/-- The shell of the workbench of one of the sessions. -/
def IsAuxiliaryOf (sessions : Sessions) (ids : List SessionId) (id : SessionId) : Prop :=
  ∃ session ∈ sessions.values, session.id = id ∧ session.isAuxiliaryTerminal = true ∧
    ∃ parent ∈ ids, session.parent = some parent

theorem mem_auxiliaryOf :
    id ∈ store.auxiliaryOf walks ids ↔ IsAuxiliaryOf store.sessions ids id := by
  simp only [auxiliaryOf, mem_map, mem_filter, Walk.mem_apply, Bool.and_eq_true,
    Option.any_eq_true, contains_iff_mem, IsAuxiliaryOf]
  constructor
  · rintro ⟨session, ⟨hmem, ⟨parent, hparent, hin⟩, haux⟩, rfl⟩
    exact ⟨session, hmem, rfl, haux, parent, hin, hparent⟩
  · rintro ⟨session, hmem, rfl, haux, parent, hin, hparent⟩
    exact ⟨session, ⟨hmem, ⟨parent, hparent, hin⟩, haux⟩, rfl⟩

theorem acts_dispatchRemoval (id : SessionId) (store : SessionStore) :
    Acts (· = id) store (store.dispatchRemoval id) := by
  have hselection : Spares store
      { store with sidebarSelection := withoutId id store.sidebarSelection } :=
    spares_of_eq rfl (fun _ h => h) fun _ h => h
  have hresidency := hselection.then_spares (spares_removeResidency id _)
  refine hresidency.after_spares ⟨⟨[.remove id], rfl, by simp⟩, fun x hx => ?_, fun _ h => h⟩
  exact (mem_insertId.mp hx).symm

theorem acts_dispatchRemovals (ids : List SessionId) (store : SessionStore) :
    Acts (· ∈ ids) store (ids.foldl dispatchRemoval store) := by
  induction ids generalizing store with
  | nil => exact (Acts.refl store).congr fun _ => by simp
  | cons id rest ih =>
    exact ((acts_dispatchRemoval id store).trans (ih _)).congr fun _ => List.mem_cons.symm

theorem acts_removeSessions (walks : Walks) (ids : List SessionId) (store : SessionStore) :
    Acts (fun id => id ∈ ids ∨ IsAuxiliaryOf store.sessions ids id) store
      (store.removeSessions walks ids) := by
  have htargets : ∀ id, id ∈ firstOccurrences (ids ++ store.auxiliaryOf walks ids) ↔
      id ∈ ids ∨ IsAuxiliaryOf store.sessions ids id := fun id => by
    rw [mem_firstOccurrences, mem_append, mem_auxiliaryOf]
  unfold removeSessions
  simp only
  refine Acts.congr ?_ htargets
  split
  · exact (Focuses.focusNeighbor walks _ store).spares.after_spares (acts_dispatchRemovals _ _)
  · exact acts_dispatchRemovals _ store

/-! ### Records -/

/-- What is removed when a record arrives. -/
def Closes (session : SessionRecord) (store : SessionStore) (id : SessionId) : Prop :=
  store.shouldAutoClose session = true ∧
    (id = session.id ∨ IsAuxiliaryOf (store.sessions.insert session) [session.id] id)

/-- The record is stored, the residency may be touched, and the manual order may change. -/
def stored (session : SessionRecord) (store : SessionStore) : SessionStore :=
  let isNew := !store.sessions.contains session.id
  let inserted := { store with sessions := store.sessions.insert session }
  let touched :=
    if isNew && store.selectedSessionId = some session.id && !session.isArchived &&
        !store.terminalResidency.contains session.id then
      inserted.touchResidency session.id
    else inserted
  if isNew then touched.reconcileSidebarOrder else touched

theorem upsertSession_eq (walks : Walks) (session : SessionRecord) (store : SessionStore) :
    store.upsertSession walks session =
      if store.shouldAutoClose session then (store.stored session).removeSessions walks [session.id]
      else let resumed := (store.stored session).autoResumeIfNeeded session.id
        if !store.sessions.contains session.id then
          if resumed.selectedSessionId = some session.id then resumed.focusSession session.id
          else resumed.autoSelectIfNeeded walks else resumed := rfl

theorem spares_stored (session : SessionRecord) (store : SessionStore) :
    Spares store (store.stored session) := by
  have hinsert : Spares store { store with sessions := store.sessions.insert session } :=
    spares_of_eq rfl (fun _ h => h) fun _ h => h
  unfold stored
  simp only
  split <;> split
  · exact (hinsert.then_spares (spares_touchResidency _ _)).then_spares
      (Quiet.reconcileSidebarOrder _).spares
  · exact hinsert.then_spares (Quiet.reconcileSidebarOrder _).spares
  · exact hinsert.then_spares (spares_touchResidency _ _)
  · exact hinsert

theorem stored_sessions (session : SessionRecord) (store : SessionStore) :
    (store.stored session).sessions = store.sessions.insert session := by
  unfold stored
  simp only [touchResidency_eq, reconcileSidebarOrder]
  split <;> split <;> rfl

theorem acts_upsertSession (walks : Walks) (session : SessionRecord) (store : SessionStore) :
    Acts (Closes session store) store (store.upsertSession walks session) := by
  have hstored := spares_stored session store
  rw [upsertSession_eq]
  by_cases hcloses : store.shouldAutoClose session = true
  · rw [if_pos hcloses]
    refine (hstored.after_spares (acts_removeSessions walks [session.id] _)).congr fun id => ?_
    simp [Closes, hcloses, stored_sessions]
  rw [if_neg hcloses]
  have hresumed := hstored.then_spares (Quiet.autoResumeIfNeeded session.id _).spares
  have hrest : Spares store (store.upsertSession walks session) := by
    rw [upsertSession_eq, if_neg hcloses]
    simp only
    split
    · split
      · exact hresumed.then_spares (Focuses.focusSession _ _).spares
      · exact hresumed.then_spares (Focuses.autoSelectIfNeeded walks _).spares
    · exact hresumed
  rw [upsertSession_eq, if_neg hcloses] at hrest
  exact hrest.congr fun id => by simp [Closes, hcloses]

theorem spares_removeSessionRecord (walks : Walks) (id : SessionId) (store : SessionStore) :
    Spares store (store.removeSessionRecord walks id) := by
  have hfocus : Spares store
      (if store.selectedSessionId = some id then store.focusNeighbor walks [id] else store) := by
    split
    · exact (Focuses.focusNeighbor walks [id] store).spares
    · exact Acts.refl store
  unfold removeSessionRecord
  simp only
  generalize (if store.selectedSessionId = some id then store.focusNeighbor walks [id] else store)
    = focused at hfocus ⊢
  have hdropped : Spares focused
      { focused with
        sessions := focused.sessions.erase id
        closing := withoutId id focused.closing
        sidebarSelection := withoutId id focused.sidebarSelection
        mruOrder := withoutId id focused.mruOrder
        autoResuming := withoutId id focused.autoResuming
        migrating := withoutId id focused.migrating } :=
    spares_of_eq rfl (fun _ h => (mem_withoutId.mp h).1) fun _ h => h
  exact ((hfocus.then_spares hdropped).then_spares (spares_removeResidency id _)).then_spares
    (Quiet.reconcileSidebarOrder _).spares

/-- The daemon's list replaces the records, and the selection stays if it is listed. -/
def listed (sessions : List SessionRecord) (projects : List Project) (store : SessionStore) :
    SessionStore :=
  let replaced :=
    { store with closing := [], sessions := .ofList sessions, projects := .ofList projects }
  (if replaced.selectedSessionId.any fun id => !replaced.sessions.contains id then
    { replaced with selectedSessionId := none }
  else replaced).reconcileSidebarOrder

theorem hydrate_eq (walks : Walks) (sessions : List SessionRecord) (projects : List Project)
    (store : SessionStore) : store.hydrate walks sessions projects =
      let selected := (store.listed sessions projects).autoSelectIfNeeded walks
      match selected.selectedSessionId with
      | none => selected
      | some id =>
        (if selected.isUnarchived id && !selected.terminalResidency.contains id then
          selected.touchResidency id
        else selected).autoResumeIfNeeded id := rfl

theorem spares_listed (sessions : List SessionRecord) (projects : List Project)
    (store : SessionStore) : Spares store (store.listed sessions projects) := by
  unfold listed
  simp only
  refine Acts.then_spares ?_ (Quiet.reconcileSidebarOrder _).spares
  split
  · exact spares_of_eq rfl (by simp) fun _ h => h
  · exact spares_of_eq rfl (by simp) fun _ h => h

theorem spares_hydrate (walks : Walks) (sessions : List SessionRecord) (projects : List Project)
    (store : SessionStore) : Spares store (store.hydrate walks sessions projects) := by
  have hselected := (spares_listed sessions projects store).then_spares
    (Focuses.autoSelectIfNeeded walks _).spares
  rw [hydrate_eq]
  generalize (store.listed sessions projects).autoSelectIfNeeded walks = selected at hselected ⊢
  simp only
  cases selected.selectedSessionId with
  | none => exact hselected
  | some id =>
    refine Acts.then_spares ?_ (Quiet.autoResumeIfNeeded id _).spares
    split
    · exact hselected.then_spares (spares_touchResidency id _)
    · exact hselected

/-! ### The calls -/

theorem quiet_selection (selection : List SessionId) (anchor : Option SessionId)
    (store : SessionStore) : Quiet store
      { store with sidebarSelection := selection, sidebarSelectionAnchor := anchor } :=
  ⟨rfl, rfl, rfl, rfl, [], by simp, by simp⟩

theorem quiet_startSelection (id : SessionId) (store : SessionStore) :
    Quiet store (store.startSelection id) := by
  unfold startSelection
  split
  · split
    · exact quiet_selection _ _ store
    · exact .refl store
  · exact .refl store

theorem quiet_shiftClick (walks : Walks) (id : SessionId) (store : SessionStore) :
    Quiet store (store.shiftClick walks id) := by
  unfold shiftClick
  simp only
  split
  · exact .refl store
  · exact quiet_selection _ _ store

theorem focuses_commandClick (walks : Walks) (id : SessionId) (store : SessionStore) :
    ∃ target, Focuses target store (store.commandClick walks id) ∧
      ∀ x, target = some x → x ∈ (store.sidebarProjection walks).displayOrder := by
  unfold commandClick
  simp only
  split
  · split
    · rename_i next hnext
      split
      · refine ⟨some next, Focuses.framed (quiet_selection _ _ store) (Focuses.focusSession next _)
          (Quiet.refl _), fun x hx => ?_⟩
        obtain ⟨⟩ := hx
        exact mem_of_find?_eq_some hnext
      · exact ⟨none, (quiet_selection _ _ store).focuses, by simp⟩
    · exact ⟨none, (quiet_selection _ _ store).focuses, by simp⟩
  · exact ⟨none, (quiet_selection _ _ store).focuses, by simp⟩

theorem startSelection_projection (walks : Walks) (id : SessionId) (store : SessionStore) :
    (store.startSelection id).sidebarProjection walks = store.sidebarProjection walks := by
  unfold startSelection
  split
  · split <;> rfl
  · rfl

/-- The focus a click moves: to the session clicked, or to one that the sidebar shows. -/
theorem focuses_sidebarClick (walks : Walks) (id : SessionId) (modifiers : ClickModifiers)
    (store : SessionStore) :
    ∃ target, Focuses target store (store.sidebarClick walks id modifiers) ∧ ∀ x, target = some x →
        x = id ∧ modifiers = {} ∨ x ∈ (store.sidebarProjection walks).displayOrder := by
  have hquiet : ∀ {after : SessionStore}, Quiet store after →
      ∃ target, Focuses target store after ∧ ∀ x, target = some x →
        x = id ∧ modifiers = {} ∨ x ∈ (store.sidebarProjection walks).displayOrder :=
    fun h => ⟨none, h.focuses, by simp⟩
  obtain ⟨command, shift⟩ := modifiers
  unfold sidebarClick
  by_cases hstored : store.sessions.contains id = true
  · rw [if_neg (by simp [hstored])]
    cases shift with
    | true => exact hquiet (quiet_shiftClick walks id store)
    | false =>
      cases command with
      | true =>
        obtain ⟨target, hfocus, hshown⟩ := focuses_commandClick walks id (store.startSelection id)
        refine ⟨target, Focuses.framed (quiet_startSelection id store) hfocus (Quiet.refl _),
          fun x hx => .inr ?_⟩
        rw [← startSelection_projection walks id store]
        exact hshown x hx
      | false =>
        exact ⟨some id, Focuses.select hstored, fun x hx => .inl ⟨(Option.some.inj hx).symm, rfl⟩⟩
  · rw [if_pos (by rw [Bool.eq_false_iff.mpr hstored]; rfl)]
    exact hquiet (.refl store)

theorem spares_archiveOne (now : DateMillis) (id : SessionId) (store : SessionStore) :
    Spares store (store.archiveOne now id) := by
  have hsent : ∀ marked, Spares store marked →
      Spares store ((marked.removeResidency id).emit (.archive id)) := fun marked hmarked =>
    (hmarked.then_spares (spares_removeResidency id _)).then_spares (Quiet.emit rfl _).spares
  refine hsent _ ?_
  split
  · exact spares_of_eq rfl (fun _ h => h) fun _ h => h
  · exact spares_of_eq rfl (fun _ h => h) fun _ h => h

theorem spares_foldl {α : Type} {f : SessionStore → α → SessionStore}
    (h : ∀ store x, Spares store (f store x)) (l : List α) (store : SessionStore) :
    Spares store (l.foldl f store) := by
  induction l generalizing store with
  | nil => exact Acts.refl store
  | cons x rest ih => exact (h store x).then_spares (ih _)

theorem spares_archiveSessions (walks : Walks) (now : DateMillis) (ids : List SessionId)
    (store : SessionStore) : Spares store (store.archiveSessions walks now ids) := by
  unfold archiveSessions
  simp only
  refine Acts.then_spares ?_ (spares_foldl (fun store id => spares_archiveOne now id store) _ _)
  split
  · exact (Focuses.focusNeighbor walks _ store).spares
  · exact Acts.refl store

theorem spares_reviveOne (revived : SessionStore × List SessionId) (id : SessionId) :
    Spares revived.1 (reviveOne revived id).1 := by
  unfold reviveOne
  split
  · split
    · refine ⟨⟨[_], rfl, fun x => iff_of_false ?_ (fun h => h)⟩, fun _ h => .inl h, fun _ h => h⟩
      split <;> simp
    · exact Acts.refl _
  · exact Acts.refl _

theorem spares_select (id : SessionId) (store : SessionStore) : Spares store (store.select id) := by
  by_cases hstored : store.sessions.contains id = true
  · exact (Focuses.select hstored).spares
  · exact (Focuses.select_of_not (Bool.eq_false_iff.mpr hstored)).spares

theorem spares_reviveSessions (ids : List SessionId) (store : SessionStore) :
    Spares store (store.reviveSessions ids) := by
  have hloop : ∀ (ids : List SessionId) (revived : SessionStore × List SessionId),
      Spares revived.1 (ids.foldl reviveOne revived).1 := by
    intro ids
    induction ids with
    | nil => exact fun revived => Acts.refl revived.1
    | cons id rest ih => exact fun revived => (spares_reviveOne revived id).then_spares (ih _)
  have hrevived := hloop ids (store, [])
  unfold reviveSessions
  simp only
  split
  · exact hrevived.then_spares (spares_select _ _)
  · exact hrevived

theorem quiet_updatePreferences (update : Prefs → Prefs) (saved : Bool) (store : SessionStore) :
    Quiet store (store.updatePreferences update saved) := by
  have hprefs : Quiet store { store with prefs := update store.prefs } :=
    ⟨rfl, rfl, rfl, rfl, [], by simp, by simp⟩
  unfold updatePreferences
  simp only
  split
  · exact hprefs.trans (Quiet.emit rfl _)
  · exact hprefs

theorem spares_toggleSessionCollapsed (id : SessionId) (saved : Bool) (store : SessionStore) :
    Spares store (store.toggleSessionCollapsed id saved) := by
  unfold toggleSessionCollapsed
  simp only
  refine Acts.then_spares ?_ (quiet_updatePreferences _ saved _).spares
  split
  · exact spares_select id store
  · exact Acts.refl store

theorem quiet_toggleArchiveExpanded (id : ProjectId) (saved : Bool) (store : SessionStore) :
    Quiet store (store.toggleArchiveExpanded id saved) := by
  unfold toggleArchiveExpanded
  simp only
  refine Quiet.trans ?_ (quiet_updatePreferences _ saved _)
  split
  · exact quiet_selection _ store.sidebarSelectionAnchor store
  · exact Quiet.refl store

theorem spares_rename (id : SessionId) (title : String) (store : SessionStore) :
    Spares store (store.rename id title) := by
  unfold rename
  simp only
  refine Acts.then_spares ?_ (Quiet.emit rfl _).spares
  split
  · exact spares_of_eq rfl (fun _ h => h) fun _ h => h
  · exact Acts.refl store

theorem quiet_migrateSession (id : SessionId) (targetHost : Option String) (store : SessionStore) :
    Quiet store (store.migrateSession id targetHost) := by
  unfold migrateSession
  split
  · split
    · exact Quiet.refl store
    · have hnoted : Quiet store { store with migrating := insertId id store.migrating } :=
        ⟨rfl, rfl, rfl, rfl, [], by simp, by simp⟩
      exact hnoted.trans (Quiet.emit rfl _)
  · exact Quiet.refl store

theorem quiet_spawnAuxiliaryTerminal (parent : SessionId) (store : SessionStore) :
    Quiet store (store.spawnAuxiliaryTerminal parent) := by
  have hcleared : Quiet store { store with lastActionError := none } :=
    ⟨rfl, rfl, rfl, rfl, [], by simp, by simp⟩
  unfold spawnAuxiliaryTerminal
  simp only
  split
  · exact hcleared.trans (Quiet.emit rfl _)
  · exact Quiet.refl store

theorem quiet_setActive (active : Bool) (store : SessionStore) :
    Quiet store (store.setActive active) := by
  have hset : Quiet store { store with appIsActive := active } :=
    ⟨rfl, rfl, rfl, rfl, [], by simp, by simp⟩
  unfold setActive
  split
  · exact Quiet.refl store
  · exact hset.trans (Quiet.emit rfl _)

theorem requestClose_cases (walks : Walks) (ids : List SessionId) (store : SessionStore) :
    store.requestClose walks ids = store ∨
      ∃ open' ⊆ ids, store.requestClose walks ids = { store with pendingClose := some open' } ∨
        store.requestClose walks ids = store.removeSessions walks open' := by
  have hsubset : ids.filter (fun id => !store.closing.contains id) ⊆ ids := filter_subset_self ids
  unfold requestClose
  simp only
  split
  · exact .inl rfl
  split
  · exact .inr ⟨_, hsubset, .inl rfl⟩
  · exact .inr ⟨_, hsubset, .inr rfl⟩

/-- What the records that arrive with a call or an outcome may remove. -/
inductive Removes (store : SessionStore) : Call → SessionId → Prop
  | updated {session : SessionRecord} {id : SessionId} (h : Closes session store id) :
      Removes store (.handleEvent (.sessionUpdated session)) id
  | requested {ids : List SessionId} {id : SessionId}
      (h : id ∈ ids ∨ IsAuxiliaryOf store.sessions ids id) : Removes store (.requestClose ids) id
  | removed {ids : List SessionId} {id : SessionId}
      (h : id ∈ ids ∨ IsAuxiliaryOf store.sessions ids id) : Removes store (.removeSessions ids) id
  | confirmed {ids : List SessionId} {id : SessionId} (hpending : store.pendingClose = some ids)
      (h : id ∈ ids ∨ IsAuxiliaryOf store.sessions ids id) : Removes store .confirmPendingClose id

/-- What a change sends and hides, and where a close that waits for confirmation comes from. -/
structure Performs (removes : SessionId → Prop) (requested : List SessionId)
    (before after : SessionStore) : Prop where
  acts : ∃ new, after.effects = before.effects ++ new ∧ (∀ id, .remove id ∈ new → removes id) ∧
    ∀ id ∈ after.closing, id ∈ before.closing ∨ .remove id ∈ new
  pendingClose : ∀ ids, after.pendingClose = some ids →
    before.pendingClose = some ids ∨ ids ⊆ requested

theorem Acts.performs {removed removes : SessionId → Prop} (h : Acts removed a b)
    (hremoves : ∀ id, removed id → removes id) (requested : List SessionId) :
    Performs removes requested a b := by
  obtain ⟨new, hnew, hremoved⟩ := h.sent
  exact ⟨⟨new, hnew, fun id hid => hremoves id ((hremoved id).mp hid), fun id hid => (h.closing id
    hid).imp_right (hremoved id).mpr⟩, fun ids hids => .inl (h.pendingClose ids hids)⟩

end SessionStore

def Call.closes : Call → List SessionId
  | .requestClose ids | .removeSessions ids => ids
  | _ => []

namespace SessionStore

variable {store : SessionStore}

theorem Performs.spares {removes : SessionId → Prop} {requested : List SessionId}
    {after : SessionStore} (h : Spares store after) : Performs removes requested store after :=
  Acts.performs h (fun _ => False.elim) requested

variable (walks : Walks)

theorem handleEvent_performs (event : StoreEvent) (store : SessionStore) :
    Performs (Removes store (.handleEvent event)) [] store (store.handleEvent walks event) := by
  cases event with
  | sessionUpdated session =>
    simp only [handleEvent]
    split
    · exact .spares (.refl store)
    · exact (acts_upsertSession walks session store).performs (fun _ => .updated) _
  | sessionResources resources =>
    simp only [handleEvent]
    split
    · exact .spares (spares_of_eq rfl (fun _ h => h) fun _ h => h)
    · exact .spares (.refl store)
  | sessionRemoved id =>
    simp only [handleEvent]
    split
    · exact .spares (spares_removeSessionRecord walks id store)
    · exact .spares (.refl store)
  | projectUpdated project =>
    simp only [handleEvent]
    split
    · exact .spares (.refl store)
    have hinsert : Spares store { store with projects := store.projects.insert project } :=
      spares_of_eq rfl (fun _ h => h) fun _ h => h
    exact .spares (hinsert.then_spares (Quiet.reconcileSidebarOrder _).spares)
  | other => exact .spares (.refl store)

theorem requestClose_performs (ids : List SessionId) (store : SessionStore) :
    Performs (Removes store (.requestClose ids)) ids store (store.requestClose walks ids) := by
  rcases requestClose_cases walks ids store with heq | ⟨open', hsubset, heq | heq⟩
  · rw [heq]
    exact .spares (.refl store)
  · rw [heq]
    refine ⟨⟨[], by simp, by simp, fun _ h => .inl h⟩, fun pending h => .inr ?_⟩
    obtain ⟨⟩ := h
    exact hsubset
  rw [heq]
  refine (acts_removeSessions walks open' store).performs (fun id hid => .requested ?_) _
  rcases hid with hid | ⟨session, hmem, hid, haux, parent, hparent, heq⟩
  · exact .inl (hsubset hid)
  · exact .inr ⟨session, hmem, hid, haux, parent, hsubset hparent, heq⟩

theorem confirmPendingClose_performs (store : SessionStore) :
    Performs (Removes store .confirmPendingClose) [] store (store.confirmPendingClose walks) := by
  unfold confirmPendingClose
  split
  · rename_i ids hpending
    have hcleared : Spares store { store with pendingClose := none } :=
      spares_of_eq rfl (fun _ h => h) fun _ h => by cases h
    exact (hcleared.after_spares (acts_removeSessions walks ids _)).performs
      (fun id hid => .confirmed hpending hid) _
  · exact .spares (.refl store)

/-- A call removes what it may, and hides a session only with the request for its removal. -/
theorem perform_performs (call : Call) (store : SessionStore) :
    Performs (Removes store call) call.closes store (store.perform walks call) := by
  cases call with
  | hydrate sessions projects => exact .spares (spares_hydrate walks sessions projects store)
  | handleEvent event => exact handleEvent_performs walks event store
  | setDaemonState state | clearSidebarSelection =>
    exact .spares (spares_of_eq rfl (fun _ h => h) fun _ h => h)
  | select id => exact .spares (spares_select id store)
  | sidebarClick id modifiers =>
    obtain ⟨target, hfocus, -⟩ := focuses_sidebarClick walks id modifiers store
    exact .spares hfocus.spares
  | requestClose ids => exact requestClose_performs walks ids store
  | removeSessions ids =>
    exact (acts_removeSessions walks ids store).performs (fun id hid => .removed hid) _
  | confirmPendingClose => exact confirmPendingClose_performs walks store
  | cancelPendingClose => exact .spares (spares_of_eq rfl (fun _ h => h) fun _ h => by cases h)
  | archiveSessions now ids => exact .spares (spares_archiveSessions walks now ids store)
  | reviveSessions ids => exact .spares (spares_reviveSessions ids store)
  | rename id title => exact .spares (spares_rename id title store)
  | resume id | reopenLast | spawn => exact .spares (Quiet.emit rfl store).spares
  | spawnAuxiliaryTerminal parent => exact .spares (quiet_spawnAuxiliaryTerminal parent store).spares
  | migrateSession id targetHost => exact .spares (quiet_migrateSession id targetHost store).spares
  | setActive active => exact .spares (quiet_setActive active store).spares
  | updatePreferences update saved =>
    exact .spares (quiet_updatePreferences update saved store).spares
  | toggleSessionCollapsed id saved => exact .spares (spares_toggleSessionCollapsed id saved store)
  | toggleArchiveExpanded id saved =>
    exact .spares (quiet_toggleArchiveExpanded id saved store).spares
  | reconcileSidebarOrder => exact .spares (Quiet.reconcileSidebarOrder store).spares

def arrives : Outcome → Option SessionRecord
  | .migrated session | .reopened session => some session
  | _ => none

theorem spares_finishAutoResume (id : SessionId) (store : SessionStore) :
    Spares store (store.finishAutoResume id) :=
  spares_of_eq rfl (fun _ h => h) fun _ h => h

theorem spares_finishMigration (id : SessionId) (store : SessionStore) :
    Spares store (store.finishMigration id) :=
  spares_of_eq rfl (fun _ h => h) fun _ h => h

theorem finish_performs (effect : StoreEffect) (outcome : Outcome) (store : SessionStore) :
    Performs (fun id => ∃ session, arrives outcome = some session ∧ Closes session store id) []
      store (store.finish walks effect outcome) := by
  have hended : ∀ {removed : SessionId → Prop} {after : SessionStore}, Acts removed store after →
      ∀ error, Acts removed store { after with lastActionError := error } :=
    fun h error => h.then_spares (spares_of_eq rfl (fun _ h => h) fun _ h => h)
  have hidle : ∀ {after : SessionStore}, Spares store after → ∀ error,
      Performs (fun id => ∃ session, arrives outcome = some session ∧ Closes session store id) []
        store { after with lastActionError := error } :=
    fun h error => .spares (hended h error)
  unfold finish
  simp only
  split
  · exact hidle (spares_finishAutoResume _ store) _
  · exact hidle (Focuses.focusSession _ store).spares _
  · rename_i id host session
    exact (hended ((spares_finishMigration id store).after_spares
      (acts_upsertSession walks session _)) _).performs (fun id hid => ⟨session, rfl, hid⟩) _
  · exact hidle (spares_finishMigration _ store) _
  · rename_i session
    exact (hended ((acts_upsertSession walks session store).then_spares
      (spares_select session.id _)) _).performs (fun id hid => ⟨session, rfl, hid⟩) _
  · exact hidle (.refl store) _

end SessionStore

end Diri.App
