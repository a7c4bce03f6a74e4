/-
What the handlers of the reducer leave alone.

Only an accepted screen changes what the reducer believes about the screen, and
nothing changes its authority or its timing.  `reduce_frame` is that fact for a
whole step; below it stands one line for each handler.

The anti-flicker law.

A session that stops working has shown that it did: since the last work signal
either a strong idle signal was reduced while it worked, or enough idle screens in
a row were accepted, or one was accepted long enough after the first.

The counter and the candidate time the reducer keeps are the evidence, so the
invariant says what they stand for.  Everything since the last work signal is the
`stretch`.  A working session that has seen no strong idle signal has accepted only
idle screens in its stretch, at least as many as it has counted, the first of them
no later than the time it measures from.
-/
import Diri.Proofs.Status.Turn
import Mathlib.Data.List.Chain

namespace Diri

namespace StatusReducer

/-- Authority, timing, and the screen last looked at. -/
def frame (r : StatusReducer) : Authority × ReducerTiming × Option ManifestState × Option UInt64 :=
  (r.authority, r.timing, r.state.screenBelief, r.state.lastScreenSeq)

variable (now : SystemTime) (r : StatusReducer) (o : ReducerOutcome)

@[simp] theorem setStatus_frame (s : SessionStatus) : (r.setStatus s o).1.frame = r.frame := by
  unfold setStatus
  split <;> rfl

@[simp] theorem goWorking_frame (clear : Bool) : (r.goWorking now clear o).1.frame = r.frame := by
  unfold goWorking
  rw [setStatus_frame]
  cases clear <;> rfl

@[simp] theorem commitIdle_frame : (r.commitIdle now o).1.frame = r.frame := by
  unfold commitIdle setStatus
  dsimp only
  split <;> rfl

@[simp] theorem handleStrongIdle_frame : (r.handleStrongIdle now o).1.frame = r.frame := by
  unfold handleStrongIdle
  split
  · exact setStatus_frame _ _ _
  split
  · rfl
  dsimp only
  split
  · rw [commitIdle_frame]
    rfl
  · rfl

@[simp] theorem confirmIdle_frame : (r.confirmIdle now o).1.frame = r.frame := by
  have hcount : (r.countIdle now).frame = r.frame := by
    unfold countIdle
    cases r.state.idleCandidateSince <;> rfl
  unfold confirmIdle
  split
  · rfl
  dsimp only
  split
  · rw [commitIdle_frame, hcount]
  · exact hcount

@[simp] theorem askForInput_frame (detail : NeedsInputDetail) (kind : NeedsInputKind) :
    (r.askForInput detail kind o).1.frame = r.frame := by
  unfold askForInput
  rw [setStatus_frame]
  rfl

@[simp] theorem handleNotification_frame (kind message : Option String) :
    (r.handleNotification kind message now o).1.frame = r.frame := by
  unfold handleNotification
  split
  · exact askForInput_frame _ _ _ _
  split
  · exact askForInput_frame _ _ _ _
  split
  · exact handleStrongIdle_frame _ _ _
  · rfl

@[simp] theorem handleClaudeHook_frame (hook : ClaudeHook) (isSubagent : Bool) :
    (r.handleClaudeHook hook isSubagent now o).1.frame = r.frame := by
  cases isSubagent with
  | true => cases hook <;> rfl
  | false =>
    cases hook with
    | sessionStart =>
      unfold handleClaudeHook
      dsimp only
      rw [if_neg (by simp)]
      split
      · rw [setStatus_frame]
        rfl
      · rfl
    | userPromptSubmit | preToolUse => exact goWorking_frame _ _ _ _
    | permissionRequest tool input => exact askForInput_frame _ _ _ _
    | notification kind message => exact handleNotification_frame _ _ _ _ _
    | stop => exact handleStrongIdle_frame _ _ _
    | subagentStart id | subagentStop id | sessionEnd => rfl

@[simp] theorem applyNonBlockerScreen_frame (observation : ScreenObservation) (cleared : Bool) :
    (r.applyNonBlockerScreen observation now cleared o).1.frame = r.frame := by
  unfold applyNonBlockerScreen
  split
  · exact goWorking_frame _ _ _ _
  · split
    · exact confirmIdle_frame _ _ _
    · split
      · exact setStatus_frame _ _ _
      · split
        · rw [setStatus_frame]
          rfl
        · rfl
  all_goals rfl

@[simp] theorem handleFreshScreen_frame (observation : ScreenObservation) :
    (r.handleFreshScreen observation now o).1.frame = r.frame := by
  unfold handleFreshScreen
  split
  · rw [askForInput_frame]
    rfl
  split
  · dsimp only
    split
    · rfl
    · rw [applyNonBlockerScreen_frame]
      rfl
  split
  · rfl
  · exact applyNonBlockerScreen_frame _ _ _ _ _

/-- What a screen leaves the reducer believing. -/
def frameAfter (observation : ScreenObservation) :
    Authority × ReducerTiming × Option ManifestState × Option UInt64 :=
  if r.accepts observation then
    (r.authority, r.timing, some observation.state, some observation.contentSeq)
  else r.frame

theorem handleScreen_frame (hr : r.listens = true) (observation : ScreenObservation) :
    (r.handleScreen observation now o).1.frame = r.frameAfter observation := by
  unfold handleScreen frameAfter accepts
  by_cases hskip : observation.state = .skip
  · rw [if_pos hskip, if_neg (by simp [hskip])]
    rfl
  rw [if_neg hskip]
  by_cases hseq : r.state.lastScreenSeq = some observation.contentSeq
  · rw [if_pos hseq, if_neg (by simp [hseq])]
    rfl
  · rw [if_neg hseq, if_pos (by simp [hskip, hseq, hr]), handleFreshScreen_frame]
    rfl

@[simp] theorem settleWorking_frame : (r.settleWorking now o).1.frame = r.frame := by
  unfold settleWorking
  split
  · exact setStatus_frame _ _ _
  split
  · rw [commitIdle_frame]
    rfl
  · rfl

@[simp] theorem handleTick_frame : (r.handleTick now o).1.frame = r.frame := by
  show ((r.reconsiderStartup now o).1.settleWorking now (r.reconsiderStartup now o).2).1.frame = _
  rw [settleWorking_frame]
  rcases r.reconsiderStartup_cases now o with h | ⟨-, -, h⟩ | ⟨-, h⟩
  · rw [h]
  · rw [h, goWorking_frame]
  · rw [h, setStatus_frame]

@[simp] theorem reduceProcessOnly_frame (signal : StatusSignal) :
    (r.reduceProcessOnly signal now o).1.frame = r.frame := by
  unfold reduceProcessOnly
  split
  · dsimp only
    split
    · exact setStatus_frame { r with state := { r.state with turnInFlight := true } } o _
    · rfl
  · rfl

/-- The screen a signal makes the reducer look at, if any. -/
def acceptedScreen (signal : StatusSignal) : Option ScreenObservation :=
  match signal with
  | .screen observation => if r.accepts observation then some observation else none
  | _ => none

/-- **Only an accepted screen changes what is believed of the screen.** -/
theorem reduce_frame (signal : StatusSignal) : (r.reduce signal now).1.frame =
      match r.acceptedScreen signal with
      | some observation =>
        (r.authority, r.timing, some observation.state, some observation.contentSeq)
      | none => r.frame := by
  by_cases hl : r.listens = true
  · obtain ⟨hexited, hp⟩ := r.listens_iff.mp hl
    unfold reduce acceptedScreen
    rw [if_neg (by rw [hexited]; exact Bool.false_ne_true)]
    cases signal with
    | processExit code sig => exact setStatus_frame _ _ _
    | claudeHook hook isSubagent =>
      dsimp only
      rw [if_neg hp]
      exact handleClaudeHook_frame _ _ _ _ _
    | codexTurnComplete =>
      dsimp only
      rw [if_neg hp]
      exact handleStrongIdle_frame _ _ _
    | screen observation =>
      dsimp only
      rw [if_neg hp, handleScreen_frame now r {} hl]
      unfold frameAfter
      by_cases ha : r.accepts observation = true
      · rw [if_pos ha, if_pos ha]
      · rw [if_neg ha, if_neg ha]
    | ptyOutputActivity =>
      dsimp only
      rw [if_neg hp]
      rfl
    | userKeystroke =>
      dsimp only
      rw [if_neg hp]
      split <;> rfl
    | tick =>
      dsimp only
      rw [if_neg hp]
      exact handleTick_frame _ _ _
  have hnone : r.acceptedScreen signal = none := by
    unfold acceptedScreen accepts
    cases signal with
    | screen observation => exact if_neg (by simp [hl])
    | _ => rfl
  rw [hnone]
  rcases reduce_of_not_listens (by simpa using hl) signal now with h | ⟨code, sig, h⟩ | ⟨-, h⟩
  · rw [h]
  · rw [h]
    exact setStatus_frame _ _ _
  · rw [h]
    exact reduceProcessOnly_frame _ _ _ _

end StatusReducer

end Diri

namespace Diri

open StatusReducer

/-- The screen a step looked at, if it did. -/
def Taken.screen (e : StatusStep) : Option ScreenObservation :=
  e.before.acceptedScreen e.input.1

/-- The steps since the last work signal, most recent first. -/
def stretch (history : List StatusStep) : List StatusStep :=
  history.takeWhile fun e => e.evidence != .work

/-- The screens a history looked at, with the time of each, most recent first. -/
def acceptedScreens (history : List StatusStep) : List (ScreenObservation × SystemTime) :=
  history.filterMap fun e => e.screen.map fun observation => (observation, e.input.2)

def idleScreens (history : List StatusStep) : List (ScreenObservation × SystemTime) :=
  (acceptedScreens history).filter fun s => s.1.state = .idle

/-! ### An accepted screen is what its state is evidence of -/

variable {e : StatusStep} {observation : ScreenObservation} {history : List StatusStep}
  {o : ReducerOutcome} {r : StatusReducer} {timing : ReducerTiming}

section
variable (h : e.screen = some observation)
include h

theorem evidence_of_screen : e.evidence = screenEvidence observation.state := by
  unfold Taken.screen acceptedScreen at h
  unfold Taken.evidence StatusReducer.evidence
  split at h
  · rename_i obs hsig
    split at h
    · rename_i ha
      obtain ⟨⟩ := h
      have hl : e.before.listens = true := by
        unfold accepts at ha
        simp only [Bool.and_eq_true] at ha
        exact ha.1.1
      rw [if_pos hl, hsig]
      dsimp only
      rw [if_pos ha]
    · simp at h
  · simp at h

theorem not_skip_of_screen : observation.state ≠ .skip := by
  unfold Taken.screen acceptedScreen at h
  split at h
  · split at h
    · rename_i ha
      obtain ⟨⟩ := h
      unfold accepts at ha
      simp only [Bool.and_eq_true, bne_iff_ne] at ha
      exact ha.1.2
    · simp at h
  · simp at h

theorem fresh_of_screen : e.before.state.lastScreenSeq ≠ some observation.contentSeq := by
  unfold Taken.screen acceptedScreen at h
  split at h
  · split at h
    · rename_i ha
      obtain ⟨⟩ := h
      unfold accepts at ha
      simp only [Bool.and_eq_true, bne_iff_ne] at ha
      exact ha.2
    · simp at h
  · simp at h

end

theorem screen_of_idle (h : e.evidence = .idle) :
    ∃ observation, e.screen = some observation ∧ observation.state = .idle := by
  have hnot : ∀ kind, notificationEvidence kind ≠ .idle := by
    intro kind
    unfold notificationEvidence
    split
    · decide
    · split <;> decide
  unfold Taken.evidence StatusReducer.evidence at h
  split at h
  · split at h
    · rename_i hook isSubagent _
      split at h
      · simp at h
      cases hook with
      | notification kind message => exact absurd h (hnot kind)
      | _ => simp [hookEvidence] at h
    · simp at h
    · rename_i observation hsig
      split at h
      · rename_i ha
        refine ⟨observation, ?_, ?_⟩
        · unfold Taken.screen acceptedScreen
          rw [hsig]
          exact if_pos ha
        · cases hs : observation.state <;> rw [hs] at h <;> simp_all [screenEvidence]
      · simp at h
    all_goals simp at h
  · simp at h

theorem screen_idle_iff
    (h : e.screen = some observation) : observation.state = .idle ↔ e.evidence = .idle := by
  rw [evidence_of_screen h]
  cases observation.state <;> simp [screenEvidence]

/-! ### The stretch, one step at a time -/

theorem stretch_cons (e : StatusStep) (history : List StatusStep) :
    stretch (e :: history) = if e.evidence = .work then [] else e :: stretch history := by
  unfold stretch
  by_cases h : e.evidence = .work
  · rw [if_pos h, List.takeWhile_cons_of_neg (by simp [h])]
  · rw [if_neg h, List.takeWhile_cons_of_pos (by simp [h])]

theorem acceptedScreens_cons (e : StatusStep) (history : List StatusStep) :
    acceptedScreens (e :: history) = match e.screen with
      | some observation => (observation, e.input.2) :: acceptedScreens history
      | none => acceptedScreens history := by
  unfold acceptedScreens
  cases h : e.screen <;> simp [h]

theorem idleScreens_cons_of_idle (he : e.evidence = .idle) (history : List StatusStep) :
    ∃ observation, idleScreens (e :: history) =
      (observation, e.input.2) :: idleScreens history := by
  obtain ⟨observation, hs, hidle⟩ := screen_of_idle he
  refine ⟨observation, ?_⟩
  unfold idleScreens
  rw [acceptedScreens_cons, hs]
  exact List.filter_cons_of_pos (by simpa using hidle)

theorem idleScreens_cons_of_not_idle (he : e.evidence ≠ .idle)
    (history : List StatusStep) : idleScreens (e :: history) = idleScreens history := by
  unfold idleScreens
  rw [acceptedScreens_cons]
  cases hs : e.screen with
  | none => rfl
  | some observation =>
    exact List.filter_cons_of_neg (by simpa using fun h => he ((screen_idle_iff hs).mp h))

theorem isPrefix_acceptedScreens_stretch (history : List StatusStep) :
    acceptedScreens (stretch history) <+: acceptedScreens history :=
  (List.takeWhile_prefix _).filterMap _

theorem time_of_idleScreen {s : ScreenObservation × SystemTime}
    (h : s ∈ idleScreens (stretch history)) : ∃ d ∈ history, d.input.2 = s.2 := by
  have hmem : s ∈ acceptedScreens history :=
    (isPrefix_acceptedScreens_stretch history).subset (List.mem_of_mem_filter h)
  obtain ⟨d, hd, hs⟩ := List.mem_filterMap.mp hmem
  obtain ⟨observation, -, rfl⟩ := Option.map_eq_some_iff.mp hs
  exact ⟨d, hd, rfl⟩

/-! ### What the counter and the candidate time stand for -/

theorem idle_of_quiet_screen (hs : e.screen = some observation) (hwork : e.evidence ≠ .work)
    (hblock : e.evidence ≠ .blocker) : observation.state = .idle := by
  rw [evidence_of_screen hs] at hwork hblock
  have hskip := not_skip_of_screen hs
  cases hstate : observation.state <;> simp_all [screenEvidence]

/-- If the last screen looked at reads as working, none was looked at since the work. -/
theorem acceptedScreens_stretch_of_working (history : List StatusStep) :
    (acceptedScreens history).head?.map (·.1.state) = some .working →
      acceptedScreens (stretch history) = [] := by
  induction history with
  | nil => intro _; rfl
  | cons e history ih =>
    intro h
    rw [acceptedScreens_cons] at h
    rw [stretch_cons]
    cases hs : e.screen with
    | some observation =>
      rw [hs] at h
      have hworking : observation.state = .working := by simpa using h
      have hev : e.evidence = .work := by
        rw [evidence_of_screen hs, hworking]
        rfl
      rw [if_pos hev]
      rfl
    | none =>
      rw [hs] at h
      by_cases hev : e.evidence = .work
      · rw [if_pos hev]
        rfl
      · rw [if_neg hev, acceptedScreens_cons, hs]
        exact ih h

/-- The evidence a working session has gathered since its last work signal. -/
structure Gathered (c : Core) (history : List StatusStep) : Prop where
  /-- No more confirmations are counted than idle screens were accepted. -/
  counted : c.confirms ≤ (idleScreens (stretch history)).length
  /-- The first of them came no later than the time the cap is measured from. -/
  measured : ∀ t, c.candidate = some t →
    ∃ first, (idleScreens (stretch history)).getLast? = some first ∧ first.2 ≤ t

theorem Gathered.of_none {c : Core} (hc : c.confirms = 0)
    (hcand : c.candidate = none) : Gathered c history :=
  ⟨by omega, fun t ht => absurd (hcand.symm.trans ht) (by simp)⟩

theorem Gathered.cons {c : Core} (h : Gathered c history) (hwork : e.evidence ≠ .work) :
    Gathered c (e :: history) := by
  have hstretch : stretch (e :: history) = e :: stretch history := by
    rw [stretch_cons, if_neg hwork]
  by_cases hidle : e.evidence = .idle
  · obtain ⟨observation, hcons⟩ := idleScreens_cons_of_idle hidle (stretch history)
    refine ⟨?_, ?_⟩
    · rw [hstretch, hcons, List.length_cons]
      exact Nat.le_succ_of_le h.counted
    · intro t ht
      obtain ⟨first, hfirst, hle⟩ := h.measured t ht
      refine ⟨first, ?_, hle⟩
      rw [hstretch, hcons, List.getLast?_cons, hfirst]
      rfl
  have hcons := idleScreens_cons_of_not_idle hidle (stretch history)
  refine ⟨?_, ?_⟩
  · rw [hstretch, hcons]
    exact h.counted
  · rw [hstretch, hcons]
    exact h.measured

theorem Gathered.confirm {c : Core} (h : Gathered c history) (hidle : e.evidence = .idle)
    (hpast : ∀ d ∈ history, d.input.2 ≤ e.input.2) (b : Bool) :
    Gathered { c with candidate := some (c.candidate.getD e.input.2),
                      confirms := c.nextConfirms, blocker := b } (e :: history) := by
  have hwork : e.evidence ≠ .work := by rw [hidle]; decide
  have hkeep := h.cons hwork
  have hstretch : stretch (e :: history) = e :: stretch history := by
    rw [stretch_cons, if_neg hwork]
  obtain ⟨observation, hcons⟩ := idleScreens_cons_of_idle hidle (stretch history)
  refine ⟨?_, ?_⟩
  · show c.nextConfirms ≤ _
    rw [hstretch, hcons, List.length_cons]
    have hcounted := h.counted
    unfold Core.nextConfirms
    split <;> omega
  intro t ht
  have htime : c.candidate.getD e.input.2 = t := Option.some.inj ht
  cases hcand : c.candidate with
  | some t' =>
    rw [hcand] at htime
    exact htime ▸ hkeep.measured t' hcand
  | none =>
    rw [hcand] at htime
    have hnow : e.input.2 = t := htime
    rw [hstretch, hcons, List.getLast?_cons, ← hnow]
    refine ⟨_, rfl, ?_⟩
    cases hlast : (idleScreens (stretch history)).getLast? with
    | none => exact Int.le_refl _
    | some first =>
      obtain ⟨d, hd, htime⟩ := time_of_idleScreen (List.mem_of_getLast? hlast)
      show first.2 ≤ e.input.2
      rw [← htime]
      exact hpast d hd

/-- What the reducer keeps about the screen is true of the run's past. -/
structure FlickerInv (timing : ReducerTiming) (r : StatusReducer)
    (history : List StatusStep) : Prop where
  turn : TurnInv r.core history
  timing : r.timing = timing
  belief : r.state.screenBelief = (acceptedScreens history).head?.map (·.1.state)
  lastSeq : r.state.lastScreenSeq = (acceptedScreens history).head?.map (·.1.contentSeq)
  /-- No screen is a repeat of the one looked at before it. -/
  distinct : (acceptedScreens history).IsChain fun a b => a.1.contentSeq ≠ b.1.contentSeq
  /-- A working session has looked at idle screens only since its last work signal. -/
  onlyIdle : r.status = .working → r.listens = true →
    ∀ s ∈ acceptedScreens (stretch history), s.1.state = .idle
  gathered : r.status = .working → r.state.idleStrong = false → Gathered r.core history

theorem reduce_screen_frame (r : StatusReducer) (i : Stamped) : (r.reduce i.1 i.2).1.frame =
      match (taken (fun r i => StatusReducer.reduce r i.1 i.2) r i).screen with
      | some observation =>
        (r.authority, r.timing, some observation.state, some observation.contentSeq)
      | none => r.frame :=
  r.reduce_frame i.2 i.1

theorem Move.gathered {now : SystemTime} {ev : Evidence} {c c' : Core} (hm : Move r now ev c c' o)
    (hev : e.evidence = ev) (hnow : e.input.2 = now)
    (hpast : ∀ d ∈ history, d.input.2 ≤ e.input.2) (hturn : TurnInv c history)
    (h : c.status = .working → c.strong = false → Gathered c history) :
    c'.status = .working → c'.strong = false → Gathered c' (e :: history) := by
  cases hm with
  | @hold _ _ b hwork _ _ _ =>
    intro hs hstrong
    have hfree := hturn.shown.blocker_eq_false (Or.inr hs)
    have hquiet : e.evidence ≠ .work := by
      rw [hev]
      intro hw
      rcases hwork hw with hstart | hb
      · exact absurd (hstart.symm.trans hs) (by decide)
      · exact absurd (hb.symm.trans hfree) (by decide)
    obtain ⟨hcounted, hmeasured⟩ := (h hs hstrong).cons hquiet
    exact ⟨hcounted, hmeasured⟩
  | firstOutput hs _ =>
    intro _ _
    obtain ⟨-, hcand, hconf⟩ := hturn.fresh hs
    exact .of_none hconf hcand
  | work | resume => exact fun _ _ => .of_none rfl rfl
  | strong => exact fun _ hstrong => Bool.noConfusion (show true = false from hstrong)
  | @confirm _ b hw hs _ =>
    intro _ _
    subst hnow
    exact (h hw hs).confirm hev hpast b
  | _ => exact fun hs => absurd hs (by simp [Core.commit, Core.dropTo])

theorem Move.stays_working {now : SystemTime} {ev : Evidence}
    {c c' : Core} (hm : Move r now ev c c' o) (hwork : ev ≠ .work) (h : c'.status = .working) :
    (c.status = .working ∧ ev ≠ .blocker) ∨
      (ev = .tick ∧ r.state.screenBelief = some .working) ∨ r.authority = .processOnly := by
  cases hm with
  | hold _ hblock _ _ => exact Or.inl ⟨h, hblock⟩
  | firstOutput _ hp => exact Or.inr (Or.inr hp)
  | work => exact absurd rfl hwork
  | resume _ hbelief => exact Or.inr (Or.inl ⟨rfl, hbelief⟩)
  | strong hw | confirm hw => exact Or.inl ⟨hw, by decide⟩
  | _ => exact absurd h (by simp [Core.commit, Core.dropTo])

theorem Move.stops {now : SystemTime} {ev : Evidence} {c c' : Core} (hm : Move r now ev c c' o)
    (h : c.status = .working) (h' : c'.status = .idle) :
    ev = .strongIdle ∨ (ev = .tick ∧ c.strong = true) ∨
      (ev = .idle ∧ (c.strong = true ∨ r.timing.idleConfirmations ≤ c.nextConfirms ∨
        r.timing.idleConfirmCap ≤ now.elapsedSince (c.candidate.getD now))) := by
  cases hm with
  | commitStrong => exact Or.inl rfl
  | commitTick _ hs => exact Or.inr (Or.inl ⟨rfl, hs⟩)
  | commitIdle _ _ hevidence => exact Or.inr (Or.inr ⟨rfl, hevidence⟩)
  | hold => exact absurd (h.symm.trans h') (by decide)
  | settle hs => exact absurd (h.symm.trans hs) (by decide)
  | release hn => exact absurd hn (by rw [h]; decide)
  | strong | confirm => exact absurd (h.symm.trans h') (by decide)
  | _ => exact absurd h' (by simp [Core.dropTo])

/-- The step of the reducer `r` on `i`, as a run records it. -/
abbrev statusStep (r : StatusReducer) (i : Stamped) : StatusStep :=
  taken (fun r i => r.reduce i.1 i.2) r i

section
variable (h : FlickerInv timing r history)
include h

theorem FlickerInv.distinct_cons (hbefore : e.before = r) :
    (acceptedScreens (e :: history)).IsChain fun a b => a.1.contentSeq ≠ b.1.contentSeq := by
  rw [acceptedScreens_cons]
  cases hs : e.screen with
  | none => exact h.distinct
  | some observation =>
    refine List.isChain_cons.mpr ⟨?_, h.distinct⟩
    intro s hhead heq
    refine fresh_of_screen hs ?_
    rw [hbefore, h.lastSeq, hhead, heq]
    rfl

/-- A step that leaves the session working, without work to show for it, saw an idle screen or none. -/
theorem FlickerInv.onlyIdle_cons (i : Stamped)
    (hauthority : (r.reduce i.1 i.2).1.authority = r.authority)
    (hev : (statusStep r i).evidence ≠ .work) (hworking : (r.reduce i.1 i.2).1.status = .working)
    (hlistens : (r.reduce i.1 i.2).1.listens = true) :
    ∀ s ∈ acceptedScreens (statusStep r i :: stretch history), s.1.state = .idle := by
  rw [acceptedScreens_cons]
  rcases (r.taken_move i).stays_working hev hworking with
    ⟨hwas, hblock⟩ | ⟨htick, hbelief⟩ | hp
  · have hlistened : r.listens = true := by
      refine r.listens_iff.mpr ⟨?_, ?_⟩
      · rw [show r.status = .working from hwas]
        rfl
      · rw [← hauthority]
        exact ((listens_iff _).mp hlistens).2
    cases hs : (statusStep r i).screen with
    | none => exact h.onlyIdle hwas hlistened
    | some observation =>
      intro s hmem
      rcases List.mem_cons.mp hmem with rfl | hold
      · exact idle_of_quiet_screen hs hev hblock
      · exact h.onlyIdle hwas hlistened s hold
  · cases hs : (statusStep r i).screen with
    | none =>
      intro s hmem
      rw [acceptedScreens_stretch_of_working history (by rw [← h.belief, hbelief])] at hmem
      exact absurd hmem (List.not_mem_nil)
    | some observation =>
      have hscreen := evidence_of_screen hs
      rw [show (statusStep r i).evidence = .tick from htick] at hscreen
      exact absurd hscreen (by cases observation.state <;> decide)
  · exact absurd (hauthority.trans hp) ((listens_iff _).mp hlistens).2

theorem FlickerInv.step (i : Stamped) (hpast : ∀ d ∈ history, d.input.2 ≤ i.2) :
    FlickerInv timing (r.reduce i.1 i.2).1 (statusStep r i :: history) := by
  have hmove := r.taken_move i
  have hframe := reduce_screen_frame r i
  have hscreens := acceptedScreens_cons (statusStep r i) history
  have hauthority : (r.reduce i.1 i.2).1.authority = r.authority := by
    have hfst := congrArg Prod.fst hframe
    revert hfst
    cases (statusStep r i).screen <;> exact id
  refine
    { turn := hmove.turnInv rfl rfl h.turn
      timing := ?_
      belief := ?_
      lastSeq := ?_
      distinct := ?_
      onlyIdle := ?_
      gathered := fun hs => hmove.gathered rfl rfl hpast h.turn h.gathered hs }
  · have hsnd := congrArg (fun f => f.2.1) hframe
    revert hsnd
    cases (statusStep r i).screen <;> exact fun hsnd => hsnd.trans h.timing
  · have hbelief := congrArg (fun f => f.2.2.1) hframe
    rw [hscreens]
    revert hbelief
    cases (statusStep r i).screen with
    | none => exact fun hbelief => hbelief.trans h.belief
    | some observation => exact id
  · have hseq := congrArg (fun f => f.2.2.2) hframe
    rw [hscreens]
    revert hseq
    cases (statusStep r i).screen with
    | none => exact fun hseq => hseq.trans h.lastSeq
    | some observation => exact id
  · exact h.distinct_cons rfl
  intro hworking hlistens
  rw [stretch_cons]
  by_cases hev : (statusStep r i).evidence = .work
  · rw [if_pos hev]
    exact fun s hs => absurd hs (List.not_mem_nil)
  · rw [if_neg hev]
    exact h.onlyIdle_cons i hauthority hev hworking hlistens

end

/-- The steps of a run are stamped in order, later ones first. -/
def Ordered (history : List StatusStep) : Prop :=
  history.Pairwise fun later earlier => earlier.input.2 ≤ later.input.2

theorem FlickerInv.init (authority : Authority) (timing : ReducerTiming) (spawnedAt : SystemTime) :
    FlickerInv timing (StatusReducer.new authority timing spawnedAt) [] where
  turn := statusRun_turnInv authority timing spawnedAt []
  timing := rfl
  belief := rfl
  lastSeq := rfl
  distinct := List.IsChain.nil
  onlyIdle := fun _ _ s hs => absurd hs (List.not_mem_nil)
  gathered := fun hs => absurd hs (by simp [StatusReducer.new])

theorem statusRun_flickerInv (authority : Authority) (timing : ReducerTiming)
    (spawnedAt : SystemTime) (signals : List Stamped)
    (hordered : Ordered (statusRun authority timing spawnedAt signals).2) :
    FlickerInv timing (statusRun authority timing spawnedAt signals).1
      (statusRun authority timing spawnedAt signals).2 := by
  have hrun : Ordered (statusRun authority timing spawnedAt signals).2 →
      FlickerInv timing (statusRun authority timing spawnedAt signals).1
        (statusRun authority timing spawnedAt signals).2 := by
    refine run_induction (P := fun r history => Ordered history → FlickerInv timing r history)
      (fun _ => FlickerInv.init authority timing spawnedAt) ?_ signals
    intro r history i ih hordered
    obtain ⟨hpast, hrest⟩ := List.pairwise_cons.mp hordered
    exact (ih hrest).step i hpast
  exact hrun hordered

theorem ordered_of_clock {authority : Authority} {spawnedAt : SystemTime} {signals : List Stamped}
    (hclock : signals.Pairwise fun a b => a.2 ≤ b.2) :
    Ordered (statusRun authority timing spawnedAt signals).2 := by
  have hinputs : ((statusRun authority timing spawnedAt signals).2.map Taken.input).Pairwise
      fun later earlier => earlier.2 ≤ later.2 := by
    rw [statusRun, run_inputs]
    exact List.pairwise_reverse.mpr hclock
  exact List.pairwise_map.mp hinputs

theorem listens_of_idle (h : e.evidence = .idle) : e.before.listens = true := by
  unfold Taken.evidence StatusReducer.evidence at h
  by_contra hl
  rw [if_neg hl] at h
  exact absurd h (by decide)

theorem FlickerInv.stopped_by_screen (h : FlickerInv timing r history)
    (hbefore : e.before = r) (hpast : ∀ d ∈ history, d.input.2 ≤ e.input.2)
    (hw : r.status = .working) (hweak : r.state.idleStrong = false) (hidle : e.evidence = .idle)
    (hmet : timing.idleConfirmations ≤ r.core.nextConfirms ∨
      timing.idleConfirmCap ≤ e.input.2.elapsedSince (r.core.candidate.getD e.input.2)) :
    (timing.idleConfirmations ≤ (idleScreens (stretch (e :: history))).length ∧
      (idleScreens (stretch (e :: history))).IsChain fun a b => a.1.contentSeq ≠ b.1.contentSeq) ∨
    ∃ first last, (idleScreens (stretch (e :: history))).getLast? = some first ∧
      (idleScreens (stretch (e :: history))).head? = some last ∧
      first.2 + timing.idleConfirmCap ≤ last.2 := by
  have hnotwork : e.evidence ≠ .work := by rw [hidle]; decide
  have hstretch : stretch (e :: history) = e :: stretch history := by
    rw [stretch_cons, if_neg hnotwork]
  have hgathered := (h.gathered hw hweak).confirm hidle hpast r.core.blocker
  rcases hmet with hcount | hcap
  · refine Or.inl ⟨Nat.le_trans hcount hgathered.counted, ?_⟩
    obtain ⟨observation, hs, hstate⟩ := screen_of_idle hidle
    have hlistens : r.listens = true := hbefore ▸ listens_of_idle hidle
    -- every screen looked at in the stretch reads as idle, so none is left out
    have hall : idleScreens (stretch (e :: history)) = acceptedScreens (stretch (e :: history)) := by
      refine List.filter_eq_self.mpr ?_
      intro s hmem
      rw [hstretch, acceptedScreens_cons, hs] at hmem
      rcases List.mem_cons.mp hmem with rfl | hold
      · simpa using hstate
      · simpa using h.onlyIdle hw hlistens s hold
    have hchain := h.distinct_cons hbefore
    obtain ⟨older, holder⟩ := isPrefix_acceptedScreens_stretch (e :: history)
    rw [← holder] at hchain
    rw [hall]
    exact hchain.left_of_append
  right
  obtain ⟨observation, hcons⟩ := idleScreens_cons_of_idle hidle (stretch history)
  obtain ⟨first, hfirst, hle⟩ := hgathered.measured _ rfl
  refine ⟨first, (observation, e.input.2), hfirst, by rw [hstretch, hcons]; rfl, ?_⟩
  -- the clock never runs back, so the first screen is no later than this one
  have hnow : first.2 ≤ e.input.2 := by
    obtain ⟨d, hd, htime⟩ := time_of_idleScreen (List.mem_of_getLast? hfirst)
    rcases List.mem_cons.mp hd with rfl | hd
    · exact htime ▸ Int.le_refl _
    · exact htime ▸ hpast d hd
  rw [SystemTime.elapsedSince_eq] at hcap
  have hfar : (timing.idleConfirmCap : Int) ≤
      max (e.input.2 - (r.core.candidate.getD e.input.2)) 0 := by
    rw [← Int.toNat_eq_max]
    exact Int.ofNat_le.mpr hcap
  show first.2 + (timing.idleConfirmCap : Int) ≤ e.input.2
  rcases le_max_iff.mp hfar with hfar | hzero
  · exact Int.le_trans (Int.add_le_add hle hfar) (by rw [Int.add_comm, Int.sub_add_cancel])
  · exact Int.le_trans (Int.add_le_add_left hzero first.2) (by rwa [Int.add_zero])

/--
**A session that goes idle has shown it.**  Since the last work signal either a
strong idle signal was reduced while the session worked; or as many idle screens
were accepted as the timing asks for, no two neighbours of them the same; or an
idle screen was accepted at least the cap after the first one.
-/
theorem idle_needs_evidence (authority : Authority) (timing : ReducerTiming)
    (spawnedAt : SystemTime) (signals : List Stamped)
    (hclock : signals.Pairwise fun a b => a.2 ≤ b.2) (post past : List StatusStep) (e : StatusStep)
    (hrun : (statusRun authority timing spawnedAt signals).2 = post ++ e :: past)
    (hbefore : e.before.status = .working) (hafter : e.after.status = .idle) :
    Since (fun d => d.evidence ≠ .work) StrongWhileWorking (e :: past) ∨
    (timing.idleConfirmations ≤ (idleScreens (stretch (e :: past))).length ∧
      (idleScreens (stretch (e :: past))).IsChain fun a b => a.1.contentSeq ≠ b.1.contentSeq) ∨
    ∃ first last, (idleScreens (stretch (e :: past))).getLast? = some first ∧
      (idleScreens (stretch (e :: past))).head? = some last ∧
      first.2 + timing.idleConfirmCap ≤ last.2 := by
  obtain ⟨js, hjs, hrunjs⟩ := run_suffix signals hrun
  obtain ⟨ks, rfl, hks, he⟩ := run_past hrunjs
  have hclock' : Ordered (e :: past) := by
    rw [← hrunjs]
    exact ordered_of_clock (hclock.sublist hjs.sublist)
  obtain ⟨hpast, hordered⟩ := List.pairwise_cons.mp hclock'
  have hstate : e.before = (statusRun authority timing spawnedAt ks).1 := by
    rw [he]
    rfl
  have hinv := statusRun_flickerInv authority timing spawnedAt ks
    (by rw [statusRun, hks]; exact hordered)
  rw [← hstate, show (statusRun authority timing spawnedAt ks).2 = past from hks] at hinv
  have hmove : Move e.before e.input.2 e.evidence e.before.core e.after.core e.output := by
    rw [he]
    exact StatusReducer.taken_move _ _
  have hstands : e.evidence ≠ .work → e.before.state.idleStrong = true →
      Since (fun d => d.evidence ≠ .work) StrongWhileWorking (e :: past) := by
    intro hev hstrong
    refine Or.inr ⟨hev, ?_⟩
    exact (hinv.turn.stands hbefore hstrong).mono (fun _ hd => hd.2.1) (fun _ hd => hd)
  rcases hmove.stops hbefore hafter with hev | ⟨hev, hs⟩ | ⟨hev, hmet⟩
  · exact Or.inl (Or.inl ⟨hev, hbefore⟩)
  · exact Or.inl (hstands (by rw [hev]; decide) hs)
  by_cases hs : e.before.state.idleStrong = true
  · exact Or.inl (hstands (by rw [hev]; decide) hs)
  right
  rcases hmet with hstrong | hmet
  · exact absurd hstrong hs
  · rw [hinv.timing] at hmet
    exact hinv.stopped_by_screen rfl hpast hbefore (by simpa using hs) hev hmet

/-- A turn whose screen reads as idle three times running. -/
def threeIdleScreens : List Stamped :=
  [(.claudeHook .userPromptSubmit false, 10), (plainScreen .idle 1, 20),
    (plainScreen .idle 2, 30), (plainScreen .idle 3, 40)]

/-- The steps of that turn, most recent first. -/
def threeIdleScreensSteps : List StatusStep :=
  (statusRun .hooksPrimary .default 0 threeIdleScreens).2

theorem idle_needs_evidence_three_screens :
    Since (fun d => d.evidence ≠ .work) StrongWhileWorking threeIdleScreensSteps ∨
    (3 ≤ (idleScreens (stretch threeIdleScreensSteps)).length ∧
      (idleScreens (stretch threeIdleScreensSteps)).IsChain
        fun a b => a.1.contentSeq ≠ b.1.contentSeq) ∨
    ∃ first last, (idleScreens (stretch threeIdleScreensSteps)).getLast? = some first ∧
      (idleScreens (stretch threeIdleScreensSteps)).head? = some last ∧
      first.2 + (700000000 : Nat) ≤ last.2 :=
  idle_needs_evidence .hooksPrimary .default 0 threeIdleScreens (by decide) []
    (threeIdleScreensSteps.drop 1) (threeIdleScreensSteps.get ⟨0, by decide⟩) rfl rfl rfl

end Diri
