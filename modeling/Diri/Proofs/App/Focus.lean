/-
What moving the focus does to the store.

Of everything that a focus changes, what the laws of the store look at is little: the records,
the sessions that are closing and those that wait for a confirmation stay, and the residency
is touched by the session that is focused, if that is stored and not archived.  `Quiet` is a
change of which not even that is left.
-/
import Diri.App.Runtime

namespace Diri.App

open List

/-! ### The residency -/

namespace TerminalResidency

variable {residency : TerminalResidency} {id x : SessionId}

theorem remove_snd : (residency.remove id).2 = true ↔ id ∈ residency.order := by
  simp [remove]

end TerminalResidency

namespace SessionStore

theorem touchResidency_eq (id : SessionId) (store : SessionStore) : store.touchResidency id =
      { store with
        terminalResidency := (store.terminalResidency.touch id).1
        effects := store.effects ++
          ((store.terminalResidency.touch id).2.map StoreEffect.detachAttachment).toList } := by
  unfold touchResidency
  cases hevicted : (store.terminalResidency.touch id).2 with
  | none => simp [hevicted]
  | some evicted =>
    simp only [hevicted]
    rfl

theorem removeResidency_eq (id : SessionId) (store : SessionStore) : store.removeResidency id =
      { store with
        terminalResidency := (store.terminalResidency.remove id).1
        effects := store.effects ++
          if id ∈ store.terminalResidency.order then [.detachAttachment id] else [] } := by
  unfold removeResidency
  by_cases hmem : id ∈ store.terminalResidency.order
  · simp only [TerminalResidency.remove_snd.mpr hmem, if_pos, if_pos hmem]
    rfl
  have hremoved : (store.terminalResidency.remove id).2 = false :=
    Bool.eq_false_iff.mpr fun h => hmem (TerminalResidency.remove_snd.mp h)
  simp [hremoved, hmem]

end SessionStore

/-! ### Effects that the laws do not look at -/

def StoreEffect.isQuiet : StoreEffect → Bool
  | .remove _ | .detachAttachment _ => false
  | _ => true

namespace SessionStore

/-- A change that touches nothing the laws look at. -/
structure Quiet (before after : SessionStore) : Prop where
  sessions : after.sessions = before.sessions
  closing : after.closing = before.closing
  pendingClose : after.pendingClose = before.pendingClose
  residency : after.terminalResidency = before.terminalResidency
  sent : ∃ new, after.effects = before.effects ++ new ∧ ∀ effect ∈ new, effect.isQuiet = true

namespace Quiet

variable {a b c store : SessionStore} {id : SessionId} {walks : Walks}

theorem refl (store : SessionStore) : Quiet store store := ⟨rfl, rfl, rfl, rfl, [], by simp⟩

theorem trans (hab : Quiet a b) (hbc : Quiet b c) : Quiet a c := by
  obtain ⟨newA, hA, hquietA⟩ := hab.sent
  obtain ⟨newB, hB, hquietB⟩ := hbc.sent
  refine ⟨hbc.sessions.trans hab.sessions, hbc.closing.trans hab.closing,
    hbc.pendingClose.trans hab.pendingClose, hbc.residency.trans hab.residency, newA ++ newB, ?_, ?_⟩
  · rw [hB, hA, append_assoc]
  · intro effect hmem
    rcases List.mem_append.mp hmem with hmem | hmem
    · exact hquietA effect hmem
    · exact hquietB effect hmem

theorem emit {effect : StoreEffect} (h : effect.isQuiet = true) (store : SessionStore) :
    Quiet store (store.emit effect) :=
  ⟨rfl, rfl, rfl, rfl, [effect], rfl, by simpa using h⟩

theorem reconcileSidebarOrder (store : SessionStore) : Quiet store store.reconcileSidebarOrder :=
  ⟨rfl, rfl, rfl, rfl, [], by simp [SessionStore.reconcileSidebarOrder], by simp⟩

theorem reveal (id : SessionId) (store : SessionStore) : Quiet store (store.reveal id) := by
  unfold SessionStore.reveal
  split
  · exact refl store
  · exact ⟨rfl, rfl, rfl, rfl, [], by simp, by simp⟩

theorem autoResumeIfNeeded (id : SessionId) (store : SessionStore) :
    Quiet store (store.autoResumeIfNeeded id) := by
  unfold SessionStore.autoResumeIfNeeded
  simp only
  split
  · exact ⟨rfl, rfl, rfl, rfl, [_], rfl, by simp [StoreEffect.isQuiet]⟩
  · exact refl store

theorem isUnarchived (h : Quiet a b) (id : SessionId) : b.isUnarchived id = a.isUnarchived id := by
  rw [SessionStore.isUnarchived, h.sessions]
  rfl

end Quiet

/-! ### The focus -/

/-- The residency once a session has the focus, and what it lets go of. -/
def touchedBy (target : Option SessionId) (store : SessionStore) :
    TerminalResidency × Option SessionId :=
  match target with
  | some id =>
    if store.isUnarchived id then store.terminalResidency.touch id
    else (store.terminalResidency, none)
  | none => (store.terminalResidency, none)

/-- The focus goes to a session, or to none, and nothing else changes that the laws look at. -/
structure Focuses (target : Option SessionId) (before after : SessionStore) : Prop where
  sessions : after.sessions = before.sessions
  closing : after.closing = before.closing
  pendingClose : after.pendingClose = before.pendingClose
  residency : after.terminalResidency = (before.touchedBy target).1
  sent : ∃ new, after.effects = before.effects ++ new ∧ (∀ id, .remove id ∉ new) ∧
    ∀ id, new.count (.detachAttachment id) = if (before.touchedBy target).2 = some id then 1 else 0

theorem not_remove_of_quiet {new : List StoreEffect} (h : ∀ effect ∈ new, effect.isQuiet = true)
    (id : SessionId) : .remove id ∉ new := fun hmem => by simpa [StoreEffect.isQuiet] using h _ hmem

theorem count_of_quiet {new : List StoreEffect} (h : ∀ effect ∈ new, effect.isQuiet = true)
    (id : SessionId) : new.count (.detachAttachment id) = 0 :=
  List.count_eq_zero.mpr fun hmem => by simpa [StoreEffect.isQuiet] using h _ hmem

theorem Quiet.focuses {before after : SessionStore} (h : Quiet before after) :
    Focuses none before after := by
  obtain ⟨new, hnew, hquiet⟩ := h.sent
  exact ⟨h.sessions, h.closing, h.pendingClose, h.residency, new, hnew,
    not_remove_of_quiet hquiet, by simpa [touchedBy] using count_of_quiet hquiet⟩

namespace Focuses

variable {a b c d store : SessionStore} {id : SessionId} {target : Option SessionId} {walks : Walks}

theorem touchedBy_congr (h : Quiet a b) (target : Option SessionId) :
    b.touchedBy target = a.touchedBy target := by
  cases target with
  | none => simp [SessionStore.touchedBy, h.residency]
  | some id => simp [SessionStore.touchedBy, h.residency, h.isUnarchived]

theorem framed (hab : Quiet a b) (hbc : Focuses target b c) (hcd : Quiet c d) :
    Focuses target a d := by
  obtain ⟨newA, hA, hquietA⟩ := hab.sent
  obtain ⟨newB, hB, hremoveB, hcountB⟩ := hbc.sent
  obtain ⟨newC, hC, hquietC⟩ := hcd.sent
  refine ⟨hcd.sessions.trans (hbc.sessions.trans hab.sessions), hcd.closing.trans (hbc.closing.trans
    hab.closing), hcd.pendingClose.trans (hbc.pendingClose.trans hab.pendingClose), ?_, newA ++ newB
    ++ newC, ?_, ?_, ?_⟩
  · rw [hcd.residency, hbc.residency, touchedBy_congr hab]
  · rw [hC, hB, hA, append_assoc, append_assoc, append_assoc]
  · intro id hmem
    simp only [mem_append] at hmem
    rcases hmem with (hmem | hmem) | hmem
    · exact not_remove_of_quiet hquietA id hmem
    · exact hremoveB id hmem
    · exact not_remove_of_quiet hquietC id hmem
  · intro id
    rw [count_append, count_append, count_of_quiet hquietA, count_of_quiet hquietC,
      hcountB, touchedBy_congr hab]
    simp

theorem touchResidency (h : store.isUnarchived id = true) :
    Focuses (some id) store (store.touchResidency id) := by
  have htouched : store.touchedBy (some id) = store.terminalResidency.touch id := by
    simp [touchedBy, h]
  rw [touchResidency_eq]
  refine ⟨rfl, rfl, rfl, by rw [htouched], _, rfl, ?_, ?_⟩
  · cases (store.terminalResidency.touch id).2 <;> simp
  · intro x
    rw [htouched]
    cases (store.terminalResidency.touch id).2 with
    | none => simp
    | some evicted => simp [count_singleton]

theorem focusSession (id : SessionId) (store : SessionStore) :
    Focuses (some id) store (store.focusSession id) := by
  unfold SessionStore.focusSession
  have hselect : Quiet store { store with selectedSessionId := some id } :=
    ⟨rfl, rfl, rfl, rfl, [], by simp, by simp⟩
  have hreveal := hselect.trans (Quiet.reveal id _)
  generalize { store with selectedSessionId := some id }.reveal id = revealed at hreveal ⊢
  have hwritten := hreveal.trans (c :=
    { revealed with
      prefs := { revealed.prefs with lastSelectedSession := some id }
      mruOrder := id :: withoutId id revealed.mruOrder }) ⟨rfl, rfl, rfl, rfl, [], by simp, by simp⟩
  simp only
  generalize { revealed with
      prefs := { revealed.prefs with lastSelectedSession := some id }
      mruOrder := id :: withoutId id revealed.mruOrder } = written at hwritten ⊢
  have htail : ∀ store : SessionStore, Quiet store ((store.autoResumeIfNeeded id).emit .uiChanged) :=
    fun store => (Quiet.autoResumeIfNeeded id store).trans (.emit rfl _)
  by_cases hunarchived : written.isUnarchived id = true
  · have htouch := touchResidency hunarchived
    rw [if_pos hunarchived]
    generalize written.touchResidency id = touched at htouch ⊢
    refine framed hwritten htouch ?_
    split
    · exact (Quiet.emit rfl touched).trans (htail _)
    · exact htail touched
  rw [if_neg hunarchived, if_neg hunarchived]
  have hnone : store.touchedBy (some id) = store.touchedBy none := by
    rw [hwritten.isUnarchived] at hunarchived
    simp [touchedBy, hunarchived]
  have hquiet := (hwritten.trans (htail written)).focuses
  exact ⟨hquiet.sessions, hquiet.closing, hquiet.pendingClose, hnone ▸ hquiet.residency,
    hnone ▸ hquiet.sent⟩

theorem setSelectedSurvivor (survivor : Option SessionId) (store : SessionStore) :
    Focuses survivor store (store.setSelectedSurvivor survivor) := by
  cases survivor with
  | none =>
    have hquiet : Quiet store (store.setSelectedSurvivor none) :=
      ⟨rfl, rfl, rfl, rfl, [], by simp [SessionStore.setSelectedSurvivor], by simp⟩
    exact hquiet.focuses
  | some id => exact focusSession id store

theorem focusNeighbor (walks : Walks) (excluded : List SessionId) (store : SessionStore) :
    Focuses (store.neighbor walks excluded) store (store.focusNeighbor walks excluded) :=
  setSelectedSurvivor _ store

/-- The session that is selected if none is: the first that is active. -/
def autoSelected (walks : Walks) (store : SessionStore) : Option SessionId :=
  if store.selectedSessionId.isSome then none
  else (store.sidebarProjection walks).firstActive.map (·.id)

theorem autoSelectIfNeeded (walks : Walks) (store : SessionStore) :
    Focuses (autoSelected walks store) store (store.autoSelectIfNeeded walks) := by
  unfold SessionStore.autoSelectIfNeeded autoSelected
  split
  · exact (Quiet.refl store).focuses
  · exact setSelectedSurvivor _ store

theorem select (h : store.sessions.contains id = true) :
    Focuses (some id) store (store.select id) := by
  have hquiet : Quiet store
      { store with sidebarSelection := [], sidebarSelectionAnchor := some id } :=
    ⟨rfl, rfl, rfl, rfl, [], by simp, by simp⟩
  rw [SessionStore.select, if_pos h]
  exact framed hquiet (focusSession id _) (Quiet.refl _)

theorem select_of_not (h : store.sessions.contains id = false) : Quiet store (store.select id) := by
  rw [SessionStore.select, if_neg (by simp [h])]
  exact Quiet.refl store

end Focuses

end SessionStore

end Diri.App
