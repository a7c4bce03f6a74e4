/-
Subagents do not interfere.

A hook that belongs to a subagent may do one thing to its parent: keep it from
going stale.  The run with the subagents' hooks and the run without them are
compared step by step.  At every moment the two reducers are the same but for the
time of the last signal and the set of running subagents, and while the session
works the longer run has heard from it no earlier than the shorter one.

So the handlers are shown to commute with `reclock`, which changes just these two
fields.  Only the staleness test of a tick reads the clock, and there the longer
run is stale only if the shorter one is.
-/
import Diri.Proofs.Status.Turn

namespace Diri

open List

/-- The hooks that tell of subagents, or come from one. -/
def StatusSignal.ofSubagent : StatusSignal → Bool
  | .claudeHook (.subagentStart _) _ | .claudeHook (.subagentStop _) _ => true
  | .claudeHook _ isSubagent => isSubagent
  | _ => false

namespace StatusReducer

/-- The same reducer, had it heard its last signal at `t` and known the subagents `ids`. -/
def reclock (r : StatusReducer) (t : SystemTime) (ids : Finset String) : StatusReducer :=
  { r with state := { r.state with lastSignalAt := t, activeSubagents := ids } }

variable (r : StatusReducer) (now t : SystemTime) (ids : Finset String) (o : ReducerOutcome)

@[simp] theorem reclock_reclock (t' : SystemTime) (ids' : Finset String) :
    (r.reclock t ids).reclock t' ids' = r.reclock t' ids' := rfl

/-- A result carried over to another clock. -/
def reclockResult (x : StatusReducer × ReducerOutcome) (t : SystemTime)
    (ids : Finset String) : StatusReducer × ReducerOutcome :=
  (x.1.reclock t ids, x.2)

/-! ### The handlers do not read the clock -/

variable {r now t ids o}

theorem reclock_ite {c : Prop} [Decidable c] {x y x' y' : StatusReducer × ReducerOutcome}
    (hx : c → x' = reclockResult x t ids) (hy : ¬c → y' = reclockResult y t ids) :
    (if c then x' else y') = reclockResult (if c then x else y) t ids := by
  by_cases h : c
  · rw [if_pos h, if_pos h]
    exact hx h
  · rw [if_neg h, if_neg h]
    exact hy h

theorem setStatus_reclock (r : StatusReducer) (s : SessionStatus) (o : ReducerOutcome) :
    (r.reclock t ids).setStatus s o = reclockResult (r.setStatus s o) t ids :=
  reclock_ite (fun _ => rfl) (fun _ => rfl)

theorem goWorking_reclock (r : StatusReducer) (clear : Bool) (o : ReducerOutcome) :
    (r.reclock t ids).goWorking now clear o = reclockResult (r.goWorking now clear o) now ids := by
  cases clear with
  | true =>
    exact setStatus_reclock { r.cancelIdleCandidacy with state := {
      r.cancelIdleCandidacy.state with
      screenBlockerActive := false, blockerMissScans := 0, turnInFlight := true,
      lastSignalAt := now } } .working o
  | false =>
    exact setStatus_reclock { r.cancelIdleCandidacy with state := {
      r.cancelIdleCandidacy.state with turnInFlight := true, lastSignalAt := now } } .working o

theorem commitIdle_reclock (r : StatusReducer) (o : ReducerOutcome) :
    (r.reclock t ids).commitIdle now o = reclockResult (r.commitIdle now o) now ids := by
  unfold commitIdle
  rw [setStatus_reclock]
  rfl

theorem handleStrongIdle_reclock (r : StatusReducer) (o : ReducerOutcome) :
    (r.reclock now ids).handleStrongIdle now o
      = reclockResult (r.handleStrongIdle now o) now ids := by
  refine reclock_ite (fun _ => setStatus_reclock r .idle o) (fun _ => ?_)
  refine reclock_ite (fun _ => rfl) (fun _ => ?_)
  refine reclock_ite (fun _ => ?_) (fun _ => rfl)
  exact commitIdle_reclock { r with state := { r.state with
    idleStrong := true, pendingTurnCompleted := r.state.turnInFlight,
    idleCandidateSince := some (r.state.idleCandidateSince.getD now),
    idleConfirms := r.state.idleConfirms + 1 } } o

theorem countIdle_reclock (r : StatusReducer) :
    (r.reclock t ids).countIdle now = (r.countIdle now).reclock t ids := by
  unfold countIdle
  by_cases h : r.state.idleCandidateSince.isNone = true
  · rw [if_pos h, if_pos (show (r.reclock t ids).state.idleCandidateSince.isNone = true from h)]
    rfl
  · rw [if_neg h, if_neg (show ¬(r.reclock t ids).state.idleCandidateSince.isNone = true from h)]
    rfl

theorem confirmIdle_reclock (r : StatusReducer) (o : ReducerOutcome) :
    (r.reclock now ids).confirmIdle now o = reclockResult (r.confirmIdle now o) now ids := by
  refine reclock_ite (fun _ => rfl) (fun _ => ?_)
  rw [countIdle_reclock]
  exact reclock_ite (fun _ => commitIdle_reclock _ o) (fun _ => rfl)

theorem askForInput_reclock (r : StatusReducer) (detail : NeedsInputDetail)
    (kind : NeedsInputKind) (o : ReducerOutcome) : (r.reclock t ids).askForInput detail kind o
      = reclockResult (r.askForInput detail kind o) t ids :=
  setStatus_reclock (cancelIdleCandidacy { r with state :=
    { r.state with pendingNeedsInput := some detail } }) _ _

theorem handleNotification_reclock (r : StatusReducer) (kind message : Option String)
    (o : ReducerOutcome) : (r.reclock now ids).handleNotification kind message now o
      = reclockResult (r.handleNotification kind message now o) now ids := by
  refine reclock_ite (fun _ => askForInput_reclock r _ _ o) (fun _ => ?_)
  refine reclock_ite (fun _ => askForInput_reclock r _ _ o) (fun _ => ?_)
  exact reclock_ite (fun _ => handleStrongIdle_reclock r o) (fun _ => rfl)

theorem applyNonBlockerScreen_reclock (r : StatusReducer) (observation : ScreenObservation)
    (cleared : Bool) (o : ReducerOutcome) :
    (r.reclock now ids).applyNonBlockerScreen observation now cleared o
      = reclockResult (r.applyNonBlockerScreen observation now cleared o) now ids := by
  unfold applyNonBlockerScreen
  split
  · exact goWorking_reclock r false o
  · refine reclock_ite (fun _ => confirmIdle_reclock r o) (fun _ => ?_)
    refine reclock_ite (fun _ => setStatus_reclock r .idle o) (fun _ => ?_)
    exact reclock_ite (fun _ => setStatus_reclock r.cancelIdleCandidacy .idle o) (fun _ => rfl)
  all_goals rfl

theorem handleFreshScreen_reclock (r : StatusReducer) (observation : ScreenObservation)
    (o : ReducerOutcome) : (r.reclock now ids).handleFreshScreen observation now o
      = reclockResult (r.handleFreshScreen observation now o) now ids := by
  unfold handleFreshScreen
  split
  · exact askForInput_reclock { r with state := { r.state with
      screenBlockerActive := true, blockerMissScans := 0 } } _ _ o
  refine reclock_ite (fun _ => ?_) (fun _ => ?_)
  · refine reclock_ite (fun _ => rfl) (fun _ => ?_)
    exact applyNonBlockerScreen_reclock { r with state := { r.state with
      screenBlockerActive := false, blockerMissScans := 0 } } observation true o
  · exact reclock_ite (fun _ => rfl) (fun _ => applyNonBlockerScreen_reclock r observation false o)

theorem handleScreen_reclock (r : StatusReducer) (observation : ScreenObservation)
    (o : ReducerOutcome) : (r.reclock t ids).handleScreen observation now o
      = reclockResult (r.handleScreen observation now o) now ids := by
  refine reclock_ite (fun _ => rfl) (fun _ => ?_)
  refine reclock_ite (fun _ => rfl) (fun _ => ?_)
  exact handleFreshScreen_reclock { r with state := { r.state with
    lastSignalAt := now, skipActive := false, lastScreenSeq := some observation.contentSeq,
    screenBelief := some observation.state } } observation o

theorem handleClaudeHook_reclock (r : StatusReducer) {hook : ClaudeHook} {isSubagent : Bool}
    (h : (StatusSignal.claudeHook hook isSubagent).ofSubagent = false) (o : ReducerOutcome) :
    (r.reclock t ids).handleClaudeHook hook isSubagent now o
      = reclockResult (r.handleClaudeHook hook isSubagent now o) now ids := by
  -- both reducers have just heard the signal
  let heard : StatusReducer := { r with state := { r.state with lastSignalAt := now } }
  cases isSubagent with
  | true => cases hook <;> exact absurd h (by simp [StatusSignal.ofSubagent])
  | false =>
    cases hook with
    | sessionStart => exact reclock_ite (fun _ => setStatus_reclock heard .idle o) (fun _ => rfl)
    | userPromptSubmit =>
      exact goWorking_reclock { heard with state := { heard.state with turnInFlight := true } }
        true o
    | preToolUse => exact goWorking_reclock heard true o
    | permissionRequest tool input => exact askForInput_reclock heard _ _ o
    | notification kind message => exact handleNotification_reclock heard kind message o
    | stop => exact handleStrongIdle_reclock heard o
    | subagentStart id | subagentStop id => exact absurd h (by simp [StatusSignal.ofSubagent])
    | sessionEnd => rfl

/-! ### One signal, heard by both -/

/-- Either both reducers have just heard a signal, or neither has. -/
def Heard (now : SystemTime) (r : StatusReducer) (t : SystemTime) (r' : StatusReducer)
    (t' : SystemTime) : Prop :=
  (r'.state.lastSignalAt = now ∧ t' = now) ∨
    (r'.state.lastSignalAt = r.state.lastSignalAt ∧ t' = t ∧
      (r'.status = .working → r.status = .working))

theorem Heard.trans {r r₁ r₂ : StatusReducer} {t t₁ t₂ : SystemTime}
    (h₁ : Heard now r t r₁ t₁) (h₂ : Heard now r₁ t₁ r₂ t₂) : Heard now r t r₂ t₂ := by
  rcases h₂ with h₂ | ⟨hlast, ht, hw⟩
  · exact Or.inl h₂
  rcases h₁ with ⟨hlast₁, ht₁⟩ | ⟨hlast₁, ht₁, hw₁⟩
  · exact Or.inl ⟨hlast.trans hlast₁, ht.trans ht₁⟩
  · exact Or.inr ⟨hlast.trans hlast₁, ht.trans ht₁, fun h => hw₁ (hw h)⟩

theorem Heard.later {r r' : StatusReducer} {t t' : SystemTime} (h : Heard now r t r' t')
    (hr : r.status = .working → r.state.lastSignalAt ≤ t) (hw : r'.status = .working) :
    r'.state.lastSignalAt ≤ t' := by
  rcases h with ⟨hlast, ht⟩ | ⟨hlast, ht, hwas⟩
  · rw [hlast, ht]
  · rw [hlast, ht]
    exact hr (hwas hw)

theorem heard_of_reclock {r : StatusReducer} {x : StatusReducer × ReducerOutcome}
    (h : x = reclockResult x now ids) (t : SystemTime) : Heard now r t x.1 now := by
  have hlast := congrArg (fun y => y.1.state.lastSignalAt) h
  exact Or.inl ⟨hlast, rfl⟩

/-- `x'` is `x` on another clock, which has heard what the clock of `x` has. -/
def Follows (now : SystemTime) (ids : Finset String) (r : StatusReducer) (t : SystemTime)
    (x' x : StatusReducer × ReducerOutcome) : Prop :=
  ∃ t', x' = reclockResult x t' ids ∧ Heard now r t x.1 t'

theorem Follows.stay (r : StatusReducer) (t : SystemTime) (o : ReducerOutcome) :
    Follows now ids r t (r.reclock t ids, o) (r, o) :=
  ⟨t, rfl, Or.inr ⟨rfl, rfl, id⟩⟩

/-- A handler that commutes with `reclock` at every clock has just heard the signal. -/
theorem Follows.hear (f : StatusReducer → StatusReducer × ReducerOutcome)
    (h : ∀ r t ids, f (reclock r t ids) = reclockResult (f r) now ids) (r : StatusReducer)
    (t : SystemTime) : Follows now ids r t (f (r.reclock t ids)) (f r) :=
  ⟨now, h r t ids, heard_of_reclock (h r _ r.state.activeSubagents) t⟩

theorem Follows.ite {r : StatusReducer} {t : SystemTime} {c : Prop} [Decidable c]
    {x y x' y' : StatusReducer × ReducerOutcome} (hx : c → Follows now ids r t x' x)
    (hy : ¬c → Follows now ids r t y' y) :
    Follows now ids r t (if c then x' else y') (if c then x else y) := by
  by_cases h : c
  · rw [if_pos h, if_pos h]
    exact hx h
  · rw [if_neg h, if_neg h]
    exact hy h

theorem setStatus_follows (r : StatusReducer) (t : SystemTime) {s : SessionStatus}
    (hs : s ≠ .working) (o : ReducerOutcome) :
    Follows now ids r t ((r.reclock t ids).setStatus s o) (r.setStatus s o) := by
  refine ⟨t, setStatus_reclock r s o, Or.inr ⟨?_, rfl, ?_⟩⟩
  · rw [setStatus_state]
  · intro hw
    have hstatus : (r.setStatus s o).1.status = s := congrArg Core.status (r.setStatus_fst_core s o)
    exact absurd (hstatus.symm.trans hw) hs

theorem reconsiderStartup_follows (r : StatusReducer) (t : SystemTime) (o : ReducerOutcome) :
    Follows now ids r t ((r.reclock t ids).reconsiderStartup now o)
      (r.reconsiderStartup now o) := by
  refine .ite (fun _ => ?_) (fun _ => .stay r t o)
  have hbelief : (r.reclock t ids).state.screenBelief = r.state.screenBelief := rfl
  rw [hbelief]
  split
  · exact Follows.hear (fun r => goWorking now false r o)
      (fun r _ _ => goWorking_reclock r false o) r t
  · exact setStatus_follows r t (by decide) o
  all_goals exact .stay r t o

theorem settleWorking_follows (r : StatusReducer) (t : SystemTime) (o : ReducerOutcome)
    (hclock : r.status = .working → r.state.lastSignalAt ≤ t)
    (hknown : (r.settleWorking now o).1.status ≠ .unknown) :
    Follows now ids r t ((r.reclock t ids).settleWorking now o) (r.settleWorking now o) := by
  have hfresh : ¬(r.status = .working
      ∧ r.timing.stalenessTimeout < now.elapsedSince r.state.lastSignalAt) := by
    intro hstale
    refine hknown ?_
    unfold settleWorking
    rw [if_pos hstale]
    exact congrArg Core.status (r.setStatus_fst_core .unknown o)
  have hfresh' : ¬((r.reclock t ids).status = .working
      ∧ r.timing.stalenessTimeout < now.elapsedSince t) := by
    intro hstale
    have hw : r.status = .working := hstale.1
    have hanti := now.elapsedSince_anti (hclock hw)
    exact hfresh ⟨hw, Nat.lt_of_lt_of_le hstale.2 hanti⟩
  have hshort : r.settleWorking now o = _ := if_neg hfresh
  have hfull : (r.reclock t ids).settleWorking now o = _ := if_neg hfresh'
  rw [hshort, hfull]
  refine .ite (fun _ => ?_) (fun _ => .stay r t o)
  exact Follows.hear (fun r => commitIdle now { r with state :=
    { r.state with idleConfirms := r.state.idleConfirms + 1 } } o)
    (fun r t _ => commitIdle_reclock { r with state :=
      { r.state with idleConfirms := r.state.idleConfirms + 1 } } o) r t

theorem handleTick_follows (r : StatusReducer) (t : SystemTime) (o : ReducerOutcome)
    (hclock : r.status = .working → r.state.lastSignalAt ≤ t)
    (hknown : (r.handleTick now o).1.status ≠ .unknown) :
    Follows now ids r t ((r.reclock t ids).handleTick now o) (r.handleTick now o) := by
  have hstartup : Follows now ids r t _ _ := reconsiderStartup_follows r t o
  obtain ⟨t₁, heq, hheard⟩ := hstartup
  have hsettle : Follows now ids (r.reconsiderStartup now o).1 t₁ _ _ :=
    settleWorking_follows (r.reconsiderStartup now o).1 t₁ (r.reconsiderStartup now o).2
      (fun hw => hheard.later hclock hw) hknown
  obtain ⟨t₂, heq₂, hheard₂⟩ := hsettle
  refine ⟨t₂, ?_, hheard.trans hheard₂⟩
  show ((r.reclock t ids).reconsiderStartup now o).1.settleWorking now
    ((r.reclock t ids).reconsiderStartup now o).2 = _
  rw [heq]
  exact heq₂

theorem reduceProcessOnly_follows (r : StatusReducer) (t : SystemTime) (signal : StatusSignal)
    (o : ReducerOutcome) : Follows now ids r t ((r.reclock t ids).reduceProcessOnly signal now o)
      (r.reduceProcessOnly signal now o) := by
  refine .ite (fun _ => ?_) (fun _ => .stay r t o)
  refine ⟨now, ?_, Or.inl ⟨rfl, rfl⟩⟩
  have hstatus : (r.reclock t ids).status = r.status := rfl
  rw [hstatus]
  by_cases hs : r.status = .starting
  · rw [if_pos hs, if_pos hs]
    exact congrArg (fun x : StatusReducer × ReducerOutcome =>
      ({ x.1 with state := { x.1.state with lastSignalAt := now } }, x.2))
      (setStatus_reclock { r with state := { r.state with turnInFlight := true } } .working o)
  · rw [if_neg hs, if_neg hs]
    rfl

/-- **A signal of the session itself does the same on either clock.** -/
theorem reduce_follows (r : StatusReducer) (t : SystemTime) {signal : StatusSignal}
    (hsignal : signal.ofSubagent = false) (hclock : r.status = .working → r.state.lastSignalAt ≤ t)
    (hknown : (r.reduce signal now).1.status ≠ .unknown) :
    Follows now ids r t ((r.reclock t ids).reduce signal now) (r.reduce signal now) := by
  unfold reduce at hknown ⊢
  by_cases hexited : r.status.isExited = true
  · rw [if_pos hexited, if_pos (show (r.reclock t ids).status.isExited = true from hexited)]
    exact .stay r t {}
  rw [if_neg hexited] at hknown
  rw [if_neg hexited, if_neg (show ¬(r.reclock t ids).status.isExited = true from hexited)]
  by_cases hp : r.authority = .processOnly
  · have hp' : (r.reclock t ids).authority = .processOnly := hp
    cases signal with
    | processExit code sig => exact setStatus_follows r t (by simp) {}
    | _ =>
      dsimp only
      rw [if_pos hp, if_pos hp']
      exact reduceProcessOnly_follows r t _ {}
  have hp' : ¬(r.reclock t ids).authority = .processOnly := hp
  cases signal with
  | processExit code sig => exact setStatus_follows r t (by simp) {}
  | claudeHook hook isSubagent =>
    dsimp only
    rw [if_neg hp, if_neg hp']
    exact Follows.hear (fun r => handleClaudeHook hook isSubagent now r {})
      (fun r _ _ => handleClaudeHook_reclock r hsignal {}) r t
  | codexTurnComplete =>
    dsimp only
    rw [if_neg hp, if_neg hp']
    exact Follows.hear (fun r => handleStrongIdle now
      { r with state := { r.state with lastSignalAt := now } } {})
      (fun r _ _ => handleStrongIdle_reclock
        { r with state := { r.state with lastSignalAt := now } } {}) r t
  | screen observation =>
    dsimp only
    rw [if_neg hp, if_neg hp']
    exact Follows.hear (fun r => handleScreen observation now r {})
      (fun r _ _ => handleScreen_reclock r observation {}) r t
  | ptyOutputActivity =>
    dsimp only
    rw [if_neg hp, if_neg hp']
    exact ⟨now, rfl, Or.inl ⟨rfl, rfl⟩⟩
  | userKeystroke =>
    dsimp only
    rw [if_neg hp, if_neg hp']
    exact .ite (fun _ => ⟨now, rfl, Or.inl ⟨rfl, rfl⟩⟩) (fun _ => ⟨now, rfl, Or.inl ⟨rfl, rfl⟩⟩)
  | tick =>
    dsimp only at hknown ⊢
    rw [if_neg hp] at hknown
    rw [if_neg hp, if_neg hp']
    exact handleTick_follows r t {} hclock hknown

/-- **A signal of a subagent moves nothing but the clock and the set of subagents.** -/
theorem reduce_ofSubagent (r : StatusReducer) (now : SystemTime) {signal : StatusSignal}
    (hsignal : signal.ofSubagent = true) : ∃ t' ids', (t' = now ∨ t' = r.state.lastSignalAt) ∧
      r.reduce signal now = (r.reclock t' ids', {}) := by
  have hstay : ∃ t' ids', (t' = now ∨ t' = r.state.lastSignalAt) ∧
      ((r, {}) : StatusReducer × ReducerOutcome) = (r.reclock t' ids', {}) :=
    ⟨_, r.state.activeSubagents, Or.inr rfl, rfl⟩
  unfold reduce
  by_cases hexited : r.status.isExited = true
  · rw [if_pos hexited]
    exact hstay
  rw [if_neg hexited]
  cases signal with
  | claudeHook hook isSubagent =>
    dsimp only
    by_cases hp : r.authority = .processOnly
    · rw [if_pos hp]
      exact hstay
    rw [if_neg hp]
    have hheard : ∃ t' ids', (t' = now ∨ t' = r.state.lastSignalAt) ∧
        ((r.reclock now r.state.activeSubagents, {}) : StatusReducer × ReducerOutcome)
          = (r.reclock t' ids', {}) := ⟨now, _, Or.inl rfl, rfl⟩
    cases hook with
    | subagentStart id | subagentStop id => exact ⟨now, _, Or.inl rfl, rfl⟩
    | _ =>
      have hsub : isSubagent = true := hsignal
      rw [hsub]
      exact hheard
  | _ => exact absurd hsignal (by simp [StatusSignal.ofSubagent])

end StatusReducer

/-! ### The two runs -/

open StatusReducer

/-- The run without the subagents' signals, and the run with them, after the signals `seen`. -/
structure Agrees (seen : List Stamped) (short full : StatusReducer) : Prop where
  same : full = short.reclock full.state.lastSignalAt full.state.activeSubagents
  /-- While working, the longer run was heard from no earlier. -/
  later : short.status = .working → short.state.lastSignalAt ≤ full.state.lastSignalAt
  /-- A working session was last heard from at one of the signals. -/
  heard : short.status = .working → ∃ i ∈ seen, short.state.lastSignalAt = i.2

theorem Agrees.step {seen : List Stamped} {short full : StatusReducer}
    (h : Agrees seen short full) {i : Stamped} (hi : i.1.ofSubagent = false)
    (hknown : (short.reduce i.1 i.2).1.status ≠ .unknown) :
    Agrees (seen ++ [i]) (short.reduce i.1 i.2).1 (full.reduce i.1 i.2).1 ∧
      (full.reduce i.1 i.2).1.status = (short.reduce i.1 i.2).1.status ∧
      (full.reduce i.1 i.2).2 = (short.reduce i.1 i.2).2 := by
  have hfollows : Follows i.2 full.state.activeSubagents short full.state.lastSignalAt _ _ :=
    reduce_follows short full.state.lastSignalAt hi h.later hknown
  obtain ⟨t', heq, hheard⟩ := hfollows
  rw [← h.same] at heq
  rw [heq]
  refine ⟨⟨rfl, fun hw => hheard.later h.later hw, ?_⟩, rfl, rfl⟩
  intro hw
  rcases hheard with ⟨hlast, -⟩ | ⟨hlast, -, hwas⟩
  · exact ⟨i, by simp, hlast⟩
  · obtain ⟨j, hj, hlast'⟩ := h.heard (hwas hw)
    exact ⟨j, by simp [hj], hlast.trans hlast'⟩

theorem Agrees.subagent {seen : List Stamped} {short full : StatusReducer}
    (h : Agrees seen short full) {i : Stamped} (hi : i.1.ofSubagent = true)
    (hpast : ∀ d ∈ seen, d.2 ≤ i.2) : Agrees (seen ++ [i]) short (full.reduce i.1 i.2).1 := by
  obtain ⟨t', ids', ht, heq⟩ := full.reduce_ofSubagent i.2 hi
  rw [heq]
  refine ⟨?_, ?_, ?_⟩
  · show full.reclock t' ids' = short.reclock t' ids'
    rw [h.same, reclock_reclock]
  · intro hw
    show short.state.lastSignalAt ≤ t'
    rcases ht with rfl | rfl
    · obtain ⟨j, hj, hlast⟩ := h.heard hw
      rw [hlast]
      exact hpast j hj
    · exact h.later hw
  · intro hw
    obtain ⟨j, hj, hlast⟩ := h.heard hw
    exact ⟨j, by simp [hj], hlast⟩

def withoutSubagents (signals : List Stamped) : List Stamped :=
  signals.filter fun i => !i.1.ofSubagent

/-- What the steps on those signals showed: the status, and what was reported. -/
def shown (history : List StatusStep) : List (SessionStatus × ReducerOutcome) :=
  (history.filter fun e => !e.input.1.ofSubagent).map fun e => (e.after.status, e.output)

/--
**Subagents do not interfere.**  Delete every signal of a subagent.  If the shorter
run never shows `unknown`, every signal that is left leaves the longer run in the
same status and makes it report the same: subagents can only put off staleness.
-/
theorem subagents_do_not_interfere (authority : Authority) (timing : ReducerTiming)
    (spawnedAt : SystemTime) (signals : List Stamped)
    (hclock : signals.Pairwise fun a b => a.2 ≤ b.2)
    (hknown : ∀ e ∈ (statusRun authority timing spawnedAt (withoutSubagents signals)).2,
      e.after.status ≠ .unknown) : shown (statusRun authority timing spawnedAt signals).2 =
      (statusRun authority timing spawnedAt (withoutSubagents signals)).2.map
        fun e => (e.after.status, e.output) := by
  suffices h : Agrees signals (statusRun authority timing spawnedAt (withoutSubagents signals)).1
        (statusRun authority timing spawnedAt signals).1 ∧ shown (statusRun authority timing
        spawnedAt signals).2 = (statusRun authority timing spawnedAt (withoutSubagents
        signals)).2.map fun e => (e.after.status, e.output) from h.2
  induction signals using reverseRecOn with
  | nil =>
    refine ⟨⟨rfl, fun _ => Int.le_refl _, ?_⟩, rfl⟩
    intro hw
    exact absurd (show SessionStatus.starting = .working from hw) (by decide)
  | append_singleton signals i ih =>
    obtain ⟨hclock', -, hlast⟩ := pairwise_append.mp hclock
    have hpast : ∀ d ∈ signals, d.2 ≤ i.2 := fun d hd => hlast d hd i (by simp)
    unfold statusRun at *
    rw [run_concat]
    cases hi : i.1.ofSubagent with
    | true =>
      have hshort : withoutSubagents (signals ++ [i]) = withoutSubagents signals := by
        simp [withoutSubagents, hi]
      rw [hshort] at hknown ⊢
      obtain ⟨hagree, hshown⟩ := ih hclock' hknown
      refine ⟨hagree.subagent hi hpast, ?_⟩
      rw [← hshown]
      simp [shown, advance, taken, hi]
    | false =>
      have hshort : withoutSubagents (signals ++ [i]) = withoutSubagents signals ++ [i] := by
        simp [withoutSubagents, hi]
      rw [hshort, run_concat] at hknown ⊢
      have hlater : (run (fun r i => reduce r i.1 i.2) (.new authority timing spawnedAt)
          (withoutSubagents signals)).1.reduce i.1 i.2 |>.1.status ≠ .unknown :=
        hknown _ mem_cons_self
      obtain ⟨hagree, hshown⟩ := ih hclock' (fun e he => hknown e (mem_cons_of_mem _ he))
      obtain ⟨hagree', hstatus, hout⟩ := hagree.step hi hlater
      refine ⟨hagree', ?_⟩
      simp only [advance, map_cons, ← hshown]
      simp [shown, taken, hi, hstatus, hout]

/-- A turn with a subagent in it, and the tick that settles it. -/
def subagentTurn : List Stamped :=
  [(.claudeHook .userPromptSubmit false, 10), (.claudeHook (.subagentStart "a") true, 20),
    (.claudeHook .preToolUse true, 30), (.claudeHook .stop true, 40),
    (.claudeHook (.subagentStop "a") true, 50), (.claudeHook .stop false, 60), (.tick, 70)]

theorem subagents_do_not_interfere_turn :
    shown (statusRun .hooksPrimary .default 0 subagentTurn).2 =
      (statusRun .hooksPrimary .default 0 (withoutSubagents subagentTurn)).2.map
        fun e => (e.after.status, e.output) :=
  subagents_do_not_interfere .hooksPrimary .default 0 subagentTurn (by decide) (by decide)

end Diri
