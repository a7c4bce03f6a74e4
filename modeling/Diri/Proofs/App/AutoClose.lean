/-
What the store removes.

A removal is sent because the user has asked to close a session, now or before a
confirmation, or because a record arrives that says that its session has ended and left
nothing to go back to.  Either way the shells of the session's workbench go with it.
-/
import Diri.Proofs.App.Closing

namespace Diri.App

open List SessionStore

/-- The sessions the user has asked to close in a run. -/
def closeRequests (steps : List RuntimeStep) : List SessionId :=
  steps.flatMap fun step =>
    match step with
    | .call _ call => call.closes
    | _ => []

def RuntimeStep.arriving : RuntimeStep → Option SessionRecord
  | .call _ (.handleEvent (.sessionUpdated session)) => some session
  | .finish _ (.migrated session) | .finish _ (.reopened session) => some session
  | _ => none

/-- A record says that its session has ended, which is news, and left nothing behind. -/
structure EndedBy (store : SessionStore) (session : SessionRecord) : Prop where
  exited : ∃ info, session.status = .exited info ∧ info.reason = .exited ∧ info.code = some 0
  resumability : session.resumability ≠ .resumable
  unclosed : session.id ∉ store.closing
  news : ∀ stored, store.sessions.lookup session.id = some stored → stored.status.isExited = false

/-- A session, or the shell of the workbench of one. -/
def BelongsTo (sessions : Sessions) (ids : List SessionId) (id : SessionId) : Prop :=
  id ∈ ids ∨ SessionStore.IsAuxiliaryOf sessions ids id

theorem BelongsTo.mono {sessions : Sessions} {ids ids' : List SessionId} {id : SessionId}
    (h : BelongsTo sessions ids id) (hsubset : ids ⊆ ids') : BelongsTo sessions ids' id := by
  rcases h with hid | ⟨session, hmem, hid, haux, parent, hparent, heq⟩
  · exact .inl (hsubset hid)
  · exact .inr ⟨session, hmem, hid, haux, parent, hsubset hparent, heq⟩

section Ends

variable {store : SessionStore} {session : SessionRecord} {id : SessionId}

theorem leavesNothing_iff : SessionStore.leavesNothing session = true ↔
    (∃ info, session.status = .exited info ∧ info.reason = .exited ∧ info.code = some 0) ∧
      session.resumability ≠ .resumable := by
  unfold SessionStore.leavesNothing
  cases session.status <;> simp [and_assoc]

theorem shouldAutoClose_iff : store.shouldAutoClose session = true ↔ EndedBy store session := by
  unfold SessionStore.shouldAutoClose
  simp only [Bool.and_eq_true, leavesNothing_iff, Bool.not_eq_true', Option.all_eq_true]
  constructor
  · rintro ⟨⟨hclosing, hexited, hresumability⟩, hnews⟩
    exact ⟨hexited, hresumability, by simpa using hclosing, by simpa using hnews⟩
  · intro h
    exact ⟨⟨by simpa using h.unclosed, h.exited, h.resumability⟩, by simpa using h.news⟩

/-- What an arriving record removes is its own session, which has ended, and its shells. -/
theorem Closes.ended (h : SessionStore.Closes session store id) :
    EndedBy store session ∧ BelongsTo (store.sessions.insert session) [session.id] id :=
  ⟨shouldAutoClose_iff.mp h.1, h.2.imp_left fun hid => List.mem_singleton.mpr hid⟩

end Ends

/-! ### One step -/

/-- Why a session may be removed in a step, after some requests to close. -/
inductive Removable (store : SessionStore) (step : RuntimeStep) (requests : List SessionId)
    (id : SessionId) : Prop
  | asked (h : BelongsTo store.sessions (closeRequests [step]) id)
  | confirmed (walks : Walks) (hstep : step = .call walks .confirmPendingClose)
      (h : BelongsTo store.sessions requests id)
  | ended (session : SessionRecord) (harrives : step.arriving = some session)
      (hended : EndedBy store session)
      (hown : BelongsTo (store.sessions.insert session) [session.id] id)

section Step

variable {runtime next : Runtime} {step : RuntimeStep} {id : SessionId} {requests : List SessionId}

theorem closeRequests_call (walks : Walks) (call : Call) :
    closeRequests [.call walks call] = call.closes := by
  simp [closeRequests]

theorem SessionStore.Removes.removable {call : Call} (h : SessionStore.Removes runtime.store call id)
    (walks : Walks) (hpending : ∀ ids, runtime.store.pendingClose = some ids → ids ⊆ requests) :
    Removable runtime.store (.call walks call) requests id := by
  cases h with
  | updated h => exact .ended _ rfl (Closes.ended h).1 (Closes.ended h).2
  | requested h | removed h => exact .asked (closeRequests_call walks _ ▸ h)
  | confirmed hids h => exact .confirmed walks rfl (BelongsTo.mono h (hpending _ hids))

theorem sent_of_step {new : List StoreEffect} (hstep : runtime.step step = some next)
    (hnew : next.store.effects = runtime.store.effects ++ new) : runtime.sent step ⊆ new := by
  unfold Runtime.sent
  rw [hstep]
  split
  · exact nil_subset _
  · exact nil_subset _
  rename_i heq
  obtain ⟨⟩ := heq
  rw [hnew, drop_left]
  exact List.Subset.refl _

theorem closeRequests_concat (steps : List RuntimeStep) (step : RuntimeStep) :
    closeRequests (steps ++ [step]) = closeRequests steps ++ closeRequests [step] := by
  simp [closeRequests]

section
variable (hstep : runtime.step step = some next)
  (hpending : ∀ ids, runtime.store.pendingClose = some ids → ids ⊆ requests)
include hstep hpending

/-- A step removes what it may, if only what the user asked for awaits a confirmation. -/
theorem Runtime.sent_removable (hsent : .remove id ∈ runtime.sent step) :
    Removable runtime.store step requests id := by
  cases step with
  | call walks call =>
    obtain rfl := Option.some.inj hstep
    obtain ⟨new, hnew, hremoves, -⟩ := (perform_performs walks call runtime.store).acts
    exact (hremoves id (sent_of_step hstep hnew hsent)).removable walks hpending
  | receive =>
    cases hsent
  | finish walks outcome =>
    have hrunning := hstep
    simp only [Runtime.step] at hrunning
    split at hrunning
    case h_2 => cases hrunning
    rename_i effect heffect
    split at hrunning <;> obtain ⟨⟩ := hrunning
    obtain ⟨new, hnew, hremoves, -⟩ :=
      (finish_performs walks effect outcome runtime.store).acts
    obtain ⟨session, harrives, hcloses⟩ := hremoves id (sent_of_step hstep hnew hsent)
    have harriving : (RuntimeStep.finish walks outcome).arriving = some session := by
      rw [← harrives]
      cases outcome <;> rfl
    exact .ended session harriving (Closes.ended hcloses).1 (Closes.ended hcloses).2

theorem Runtime.pending_requested :
    ∀ ids, next.store.pendingClose = some ids → ids ⊆ requests ++ closeRequests [step] := by
  have hkept : ∀ {asked : List SessionId} {removes : SessionId → Prop} {after : SessionStore},
      SessionStore.Performs removes asked runtime.store after →
        ∀ ids, after.pendingClose = some ids → ids ⊆ requests ++ asked := by
    intro asked removes after h ids hids
    rcases h.pendingClose ids hids with hbefore | hasked
    · exact List.Subset.trans (hpending ids hbefore) (subset_append_left _ _)
    · exact List.Subset.trans hasked (subset_append_right _ _)
  cases step with
  | call walks call =>
    obtain ⟨⟩ := hstep
    rw [closeRequests_call]
    exact hkept (perform_performs walks call runtime.store)
  | receive =>
    simp only [Runtime.step] at hstep
    split at hstep <;> obtain ⟨⟩ := hstep
    exact fun ids hids => List.Subset.trans (hpending ids hids) (subset_append_left _ _)
  | finish walks outcome =>
    simp only [Runtime.step] at hstep
    split at hstep
    · split at hstep <;> obtain ⟨⟩ := hstep
      exact hkept (finish_performs walks _ outcome runtime.store)
    · cases hstep

end

end Step

/-! ### Whole runs -/

theorem pending_of_run (prefs : Prefs) {steps : List RuntimeStep} {runtime : Runtime}
    (hrun : partialRun Runtime.step (.start prefs) steps = some runtime) :
    ∀ ids, runtime.store.pendingClose = some ids → ids ⊆ closeRequests steps := by
  refine partialRun_induction
    (P := fun steps runtime => ∀ ids, runtime.store.pendingClose = some ids →
      ids ⊆ closeRequests steps) ?_ ?_ hrun
  · intro ids hids
    cases hids
  intro steps runtime step next hpending hstep
  rw [closeRequests_concat]
  exact Runtime.pending_requested hstep hpending

/-- **What is removed in any step of a run was asked for, or has ended and left nothing.** -/
theorem removed_for_a_reason (prefs : Prefs) {steps : List RuntimeStep} {runtime : Runtime}
    (hrun : partialRun Runtime.step (.start prefs) steps = some runtime) {step : RuntimeStep}
    {id : SessionId} (hsent : .remove id ∈ runtime.sent step) :
    Removable runtime.store step (closeRequests steps) id := by
  cases hstep : runtime.step step with
  | some next => exact Runtime.sent_removable hstep (pending_of_run prefs hrun) hsent
  | none =>
    unfold Runtime.sent at hsent
    split at hsent <;> simp_all

def leftShell : SessionRecord where
  id := "left"
  kind := "shell"
  cwd := "/work"
  title := ""
  titleSource := .placeholder
  status := .exited ⟨.exited, some 0, none⟩
  resumability := .notResumable
  updatedAt := ⟨0⟩
  createdAt := ⟨0⟩
  projectId := "work"

/-- A shell in the workbench of the other. -/
def benchShell : SessionRecord :=
  { leftShell with id := "bench", parent := some "left", status := .working }

theorem removed_for_a_reason_leftShell : ∃ runtime, partialRun Runtime.step (.start {})
        [.call .inOrder (.hydrate [{ leftShell with status := .working }] [])] = some runtime ∧
      Removable runtime.store (.call .inOrder (.handleEvent (.sessionUpdated leftShell))) [] "left" := by
  have hsent : (partialRun Runtime.step (.start {})
      [.call .inOrder (.hydrate [{ leftShell with status := .working }] [])]).any fun runtime =>
        decide (.remove "left" ∈
          runtime.sent (.call .inOrder (.handleEvent (.sessionUpdated leftShell)))) := by
    decide +kernel
  obtain ⟨runtime, hrun, hsent⟩ := (Option.any_eq_true _ _).mp hsent
  exact ⟨runtime, hrun, removed_for_a_reason {} hrun (of_decide_eq_true hsent)⟩

/--
A shell that was never stored is removed once it is heard of, and one that runs goes with the
session whose workbench it is in, though the user asked for neither.
-/
theorem removed_unasked : (∃ runtime, partialRun Runtime.step (.start {}) [] = some runtime ∧
      .remove "left" ∈ runtime.sent (.call .inOrder (.handleEvent (.sessionUpdated leftShell))) ∧
      runtime.store.sessions.lookup "left" = none) ∧ ∃ runtime, partialRun Runtime.step (.start {})
        [.call .inOrder (.hydrate [leftShell, benchShell] [])] = some runtime ∧
      .remove "bench" ∈ runtime.sent (.call .inOrder (.requestClose ["left"])) ∧
      "bench" ∉ closeRequests [.call .inOrder (.hydrate [leftShell, benchShell] []),
        .call .inOrder (.requestClose ["left"])] := by
  refine ⟨⟨_, rfl, by decide +kernel⟩, ?_⟩
  have hsent : (partialRun Runtime.step (.start {})
      [.call .inOrder (.hydrate [leftShell, benchShell] [])]).any fun runtime =>
        decide (.remove "bench" ∈ runtime.sent (.call .inOrder (.requestClose ["left"])) ∧
          "bench" ∉ closeRequests [.call .inOrder (.hydrate [leftShell, benchShell] []),
            .call .inOrder (.requestClose ["left"])]) := by
    decide +kernel
  obtain ⟨runtime, hrun, hboth⟩ := (Option.any_eq_true _ _).mp hsent
  exact ⟨runtime, hrun, of_decide_eq_true hboth⟩

end Diri.App
