/-
What one signal can do to the status of a session.

About fifteen kinds of signal reach the reducer, but to the laws of the state
machine they are only six kinds of `Evidence`: work, a blocker, a strong idle, an
idle screen, a tick, and everything else.  `Move` lists what each of them can do to
the part of the reducer the laws speak of, its `Core`, with the guard under which
it does it.  `reduce_move` says that every step of the reducer is one of these
moves.  No later proof about the reducer unfolds a handler again.
-/
import Diri.Engine.Status
import Diri.Lib.Run

namespace Diri

/-- What a reduced signal is evidence of. -/
inductive Evidence
  /-- A prompt, a tool use, or an accepted screen that reads as working. -/
  | work
  /-- A permission or a question, from a hook or on an accepted screen. -/
  | blocker
  /-- A definitive end of turn: `Stop`, `agent_completed`, the codex notification. -/
  | strongIdle
  /-- An accepted screen that reads as idle. -/
  | idle
  | tick
  | other
  deriving DecidableEq, Repr

namespace StatusReducer

/-- Whether signals other than the process exit reach the handlers at all. -/
def listens (r : StatusReducer) : Bool :=
  !r.status.isExited && r.authority != .processOnly

/-- Whether a screen is looked at: not held as `skip`, not a repeat of the last one. -/
def accepts (r : StatusReducer) (observation : ScreenObservation) : Bool :=
  r.listens && observation.state != .skip && r.state.lastScreenSeq != some observation.contentSeq

/-- What a notification asks for, by its type. -/
def notificationEvidence (notificationType : Option String) : Evidence :=
  if notificationType = some "permission_prompt" ∨ notificationType = some "idle_prompt"
      ∨ notificationType = some "agent_needs_input"
      ∨ notificationType = some "elicitation_dialog" then .blocker
  else if notificationType = some "agent_completed" then .strongIdle
  else .other

/-- What a hook of the session itself, not of a subagent, is evidence of. -/
def hookEvidence : ClaudeHook → Evidence
  | .userPromptSubmit | .preToolUse => .work
  | .permissionRequest _ _ => .blocker
  | .notification notificationType _ => notificationEvidence notificationType
  | .stop => .strongIdle
  | .sessionStart | .subagentStart _ | .subagentStop _ | .sessionEnd => .other

/-- What an accepted screen is evidence of. -/
def screenEvidence : ManifestState → Evidence
  | .working => .work
  | .idle => .idle
  | .blockedPermission | .blockedQuestion => .blocker
  | .skip => .other

/-- What a signal is evidence of, to the reducer that receives it. -/
def evidence (r : StatusReducer) (signal : StatusSignal) : Evidence :=
  if r.listens then
    match signal with
    | .claudeHook hook isSubagent => if isSubagent then .other else hookEvidence hook
    | .codexTurnComplete => .strongIdle
    | .screen observation =>
      if r.accepts observation then screenEvidence observation.state else .other
    | .tick => .tick
    | .ptyOutputActivity | .userKeystroke | .processExit _ _ => .other
  else .other

end StatusReducer

/-! ### The part of the reducer the laws speak of -/

/-- Status, blocker belief and idle candidacy. -/
structure Core where
  status : SessionStatus
  turnInFlight : Bool
  candidate : Option SystemTime
  confirms : Nat
  strong : Bool
  pending : Bool
  blocker : Bool

def StatusReducer.core (r : StatusReducer) : Core where
  status := r.status
  turnInFlight := r.state.turnInFlight
  candidate := r.state.idleCandidateSince
  confirms := r.state.idleConfirms
  strong := r.state.idleStrong
  pending := r.state.pendingTurnCompleted
  blocker := r.state.screenBlockerActive

def changeTo (old new : SessionStatus) : Option SessionStatus :=
  if old ≠ new then some new else none

/-- The core with its idle candidacy dropped, in status `s`. -/
def Core.dropTo (c : Core) (s : SessionStatus) : Core :=
  { c with status := s, candidate := none, confirms := 0, strong := false, pending := false }

/-- The core after a committed end of turn. -/
def Core.commit (c : Core) : Core := { c.dropTo .idle with turnInFlight := false }

/-- The confirmations counted once one more idle screen has been seen. -/
def Core.nextConfirms (c : Core) : Nat :=
  (if c.candidate.isNone then 0 else c.confirms) + 1

/-- What one signal can do to the core of a reducer `r` at time `now`. -/
inductive Move (r : StatusReducer) (now : SystemTime) :
    Evidence → Core → Core → ReducerOutcome → Prop
  /-- Nothing moves, except that a blocker may be released in passing. -/
  | hold {ev c b} (hwork : ev = .work → c.status = .starting ∨ c.blocker = true)
      (hblock : ev ≠ .blocker) (hstrong : ev = .strongIdle → c.status ≠ .working)
      (hb : b = true → c.blocker = true) : Move r now ev c { c with blocker := b } {}
  | exit {c info} :
      Move r now .other c { c with status := .exited info }
        { statusChange := changeTo c.status (.exited info) }
  | firstOutput {c} (h : c.status = .starting) (hp : r.authority = .processOnly) :
      Move r now .other c { c with status := .working, turnInFlight := true }
        { statusChange := some .working }
  | work {c} :
      Move r now .work c { c.dropTo .working with turnInFlight := true, blocker := false }
        { statusChange := changeTo c.status .working }
  /-- A tick past the startup grace, on a remembered working screen. -/
  | resume {c} (h : c.status = .starting) (hbelief : r.state.screenBelief = some .working) :
      Move r now .tick c { c.dropTo .working with turnInFlight := true }
        { statusChange := some .working }
  | block {c kind detail b} (hb : c.blocker = true → b = true) :
      Move r now .blocker c { c.dropTo (.needsInput kind) with blocker := b }
        { statusChange := changeTo c.status (.needsInput kind), needsInput := some detail }
  /-- The end of startup: the session is idle. -/
  | settle {ev c b} (h : c.status = .starting) (hb : b = true → c.blocker = true) :
      Move r now ev c { c with status := .idle, blocker := b } { statusChange := some .idle }
  /-- A released blocker on a screen that reads as idle. -/
  | release {c} (h : c.status.isNeedsInput = true) :
      Move r now .idle c { c.dropTo .idle with blocker := false } { statusChange := some .idle }
  | strong {c} (h : c.status = .working) :
      Move r now .strongIdle c
        { c with strong := true, pending := c.turnInFlight,
                 candidate := some (c.candidate.getD now) } {}
  | confirm {c b} (h : c.status = .working) (hs : c.strong = false)
      (hb : b = true → c.blocker = true) :
      Move r now .idle c
        { c with candidate := some (c.candidate.getD now), confirms := c.nextConfirms,
                 blocker := b } {}
  | commitStrong {c} (h : c.status = .working) :
      Move r now .strongIdle c c.commit
        { statusChange := some .idle, turnCompleted := c.turnInFlight }
  | commitTick {c} (h : c.status = .working) (hs : c.strong = true) :
      Move r now .tick c c.commit { statusChange := some .idle, turnCompleted := c.pending }
  | commitIdle {c b} (h : c.status = .working) (hb : b = true → c.blocker = true)
      (hevidence : c.strong = true ∨ r.timing.idleConfirmations ≤ c.nextConfirms ∨
        r.timing.idleConfirmCap ≤ now.elapsedSince (c.candidate.getD now)) :
      Move r now .idle c { c.commit with blocker := b }
        { statusChange := some .idle, turnCompleted := c.pending }
  | stale {c} (h : c.status = .working) :
      Move r now .tick c { c with status := .unknown } { statusChange := some .unknown }

namespace StatusReducer

/-! ### The handlers, one lemma each -/

theorem setStatus_fst_core (r : StatusReducer) (s : SessionStatus) (o : ReducerOutcome) :
    (r.setStatus s o).1.core = { r.core with status := s } := by
  unfold setStatus
  split
  · rfl
  rename_i h
  simp only [ne_eq, not_not] at h
  rw [← h]
  rfl

theorem setStatus_snd (r : StatusReducer) (s : SessionStatus) (detail : Option NeedsInputDetail) :
    (r.setStatus s { needsInput := detail }).2 =
      { statusChange := changeTo r.status s, needsInput := detail } := by
  unfold setStatus changeTo
  split <;> rfl

variable {r : StatusReducer}

theorem setStatus_of_ne {s : SessionStatus} (h : r.status ≠ s) (o : ReducerOutcome) :
    r.setStatus s o = ({ r with status := s }, { o with statusChange := some s }) := by
  unfold setStatus
  rw [if_pos h]

theorem commitIdle_of_working (h : r.status = .working) (now : SystemTime) :
    (r.commitIdle now {}).1.core = r.core.commit ∧ (r.commitIdle now {}).2 =
        { statusChange := some .idle, turnCompleted := r.state.pendingTurnCompleted } := by
  have hne : r.status ≠ .idle := by rw [h]; decide
  unfold commitIdle
  rw [setStatus_of_ne hne]
  refine ⟨rfl, ?_⟩
  cases r.state.pendingTurnCompleted <;> rfl

variable {r₀ : StatusReducer} {now : SystemTime}

theorem handleStrongIdle_move (r : StatusReducer) :
    Move r₀ now .strongIdle r.core (r.handleStrongIdle now {}).1.core
      (r.handleStrongIdle now {}).2 := by
  unfold handleStrongIdle
  split
  · rename_i h
    rw [setStatus_of_ne (by rw [h]; decide)]
    exact .settle h id
  split
  · rename_i hw
    exact .hold (by simp) (by simp) (fun _ => hw) id
  rename_i hw
  have hw' : r.status = .working := by simpa using hw
  dsimp only
  split
  · obtain ⟨hcore, hout⟩ := commitIdle_of_working (r := { r with state := { r.state with
        idleStrong := true, pendingTurnCompleted := r.state.turnInFlight,
        idleCandidateSince := some (r.state.idleCandidateSince.getD now),
        idleConfirms := r.state.idleConfirms + 1 } }) hw' now
    rw [hcore, hout]
    exact .commitStrong hw'
  · exact .strong hw'

theorem goWorking_core (r : StatusReducer) (clear : Bool) (o : ReducerOutcome) :
    (r.goWorking now clear o).1.core =
      { r.core.dropTo .working with turnInFlight := true, blocker := !clear && r.core.blocker } := by
  unfold goWorking
  rw [setStatus_fst_core]
  cases clear <;> rfl

theorem goWorking_snd (r : StatusReducer) (clear : Bool) :
    (r.goWorking now clear {}).2 = { statusChange := changeTo r.status .working } := by
  unfold goWorking
  rw [setStatus_snd]
  cases clear <;> rfl

theorem goWorking_move (r : StatusReducer) (clear : Bool)
    (h : clear = false → r.state.screenBlockerActive = false) :
    Move r₀ now .work r.core (r.goWorking now clear {}).1.core (r.goWorking now clear {}).2 := by
  have hb : (!clear && r.core.blocker) = false := by
    cases clear with
    | true => rfl
    | false => exact h rfl
  rw [goWorking_core, goWorking_snd, hb]
  exact .work

theorem askForInput_core (r : StatusReducer) (detail : NeedsInputDetail)
    (kind : NeedsInputKind) (o : ReducerOutcome) :
    (r.askForInput detail kind o).1.core = r.core.dropTo (.needsInput kind) := by
  unfold askForInput
  rw [setStatus_fst_core]
  rfl

theorem askForInput_snd (r : StatusReducer) (detail : NeedsInputDetail) (kind : NeedsInputKind) :
    (r.askForInput detail kind {}).2 =
      { statusChange := changeTo r.status (.needsInput kind), needsInput := some detail } :=
  setStatus_snd _ _ (some detail)

theorem askForInput_move (r : StatusReducer) (detail : NeedsInputDetail) (kind : NeedsInputKind) :
    Move r₀ now .blocker r.core (r.askForInput detail kind {}).1.core
      (r.askForInput detail kind {}).2 := by
  rw [askForInput_core, askForInput_snd]
  exact .block (b := r.core.blocker) id

theorem handleNotification_move (r : StatusReducer) (notificationType message : Option String) :
    Move r₀ now (notificationEvidence notificationType) r.core
      (r.handleNotification notificationType message now {}).1.core
      (r.handleNotification notificationType message now {}).2 := by
  unfold handleNotification notificationEvidence
  by_cases h1 : notificationType = some "permission_prompt"
  · rw [if_pos h1, if_pos (Or.inl h1)]
    exact askForInput_move r _ _
  rw [if_neg h1]
  by_cases h2 : notificationType = some "idle_prompt" ∨
      notificationType = some "agent_needs_input" ∨
      notificationType = some "elicitation_dialog"
  · rw [if_pos h2, if_pos (Or.inr h2)]
    exact askForInput_move r _ _
  rw [if_neg h2, if_neg (by simp only [h1, h2, or_self, not_false_eq_true])]
  split
  · exact handleStrongIdle_move r
  · exact .hold (by simp) (by simp) (by simp) id

theorem handleClaudeHook_move (r : StatusReducer) (hook : ClaudeHook) (isSubagent : Bool) :
    Move r₀ now (if isSubagent then .other else hookEvidence hook) r.core
      (r.handleClaudeHook hook isSubagent now {}).1.core
      (r.handleClaudeHook hook isSubagent now {}).2 := by
  have hold : Move r₀ now .other r.core r.core {} := .hold (by simp) (by simp) (by simp) id
  cases isSubagent with
  | true => cases hook <;> exact hold
  | false =>
    cases hook with
    | sessionStart =>
      unfold handleClaudeHook
      dsimp only
      by_cases h : r.status = .starting
      · rw [if_neg (by simp), if_pos h, setStatus_of_ne (by rw [h]; decide)]
        exact .settle h id
      · rw [if_neg (by simp), if_neg h]
        exact hold
    | userPromptSubmit | preToolUse => exact goWorking_move _ true (by simp)
    | permissionRequest tool input =>
      exact askForInput_move { r with state := { r.state with lastSignalAt := now } } _ _
    | notification kind message =>
      exact handleNotification_move
        { r with state := { r.state with lastSignalAt := now } } kind message
    | stop =>
      exact handleStrongIdle_move { r with state := { r.state with lastSignalAt := now } }
    | subagentStart id | subagentStop id | sessionEnd => exact hold

theorem countIdle_core (r : StatusReducer) : (r.countIdle now).core = { r.core with
      candidate := some (r.core.candidate.getD now), confirms := r.core.nextConfirms } := by
  cases h : r.state.idleCandidateSince <;>
    simp [countIdle, Core.nextConfirms, StatusReducer.core, h]

theorem countIdle_timing (r : StatusReducer) : (r.countIdle now).timing = r.timing := by
  unfold countIdle
  cases r.state.idleCandidateSince <;> rfl

theorem idleConfirmed_countIdle (r : StatusReducer) (now : SystemTime) :
    (r.countIdle now).idleConfirmed now ↔
      (if r.core.strong then 1 else r.timing.idleConfirmations) ≤ r.core.nextConfirms ∨
        r.timing.idleConfirmCap ≤ now.elapsedSince (r.core.candidate.getD now) := by
  have hstrong : (r.countIdle now).state.idleStrong = r.core.strong :=
    congrArg Core.strong r.countIdle_core
  have hcand : (r.countIdle now).state.idleCandidateSince = some (r.core.candidate.getD now) :=
    congrArg Core.candidate r.countIdle_core
  have hconf : (r.countIdle now).state.idleConfirms = r.core.nextConfirms :=
    congrArg Core.confirms r.countIdle_core
  have hpos : 1 ≤ r.core.nextConfirms := Nat.le_add_left 1 _
  unfold idleConfirmed
  rw [hstrong, hcand, hconf, countIdle_timing]
  simp only [Option.bind_some, hpos, and_true]
  rfl

theorem confirmIdle_move (hw : r.status = .working) (ht : r.timing = r₀.timing) :
    Move r₀ now .idle r.core (r.confirmIdle now {}).1.core (r.confirmIdle now {}).2 := by
  have hw' : (r.countIdle now).status = .working := by
    rw [← hw]
    exact congrArg Core.status r.countIdle_core
  have hconfirmed := r.idleConfirmed_countIdle now
  rw [ht] at hconfirmed
  unfold confirmIdle
  rw [if_neg (by simp [hw])]
  dsimp only
  split
  · rename_i hc
    obtain ⟨hcore, hout⟩ := commitIdle_of_working hw' now
    have hpending : (r.countIdle now).state.pendingTurnCompleted = r.core.pending :=
      congrArg Core.pending r.countIdle_core
    rw [hcore, hout, countIdle_core, hpending]
    refine .commitIdle (b := r.core.blocker) hw id ?_
    rcases hconfirmed.mp hc with hn | hcap
    · cases hs : r.core.strong with
      | true => exact Or.inl rfl
      | false => exact Or.inr (Or.inl (by simpa [hs] using hn))
    · exact Or.inr (Or.inr hcap)
  rename_i hc
  have hs : r.core.strong = false := by
    by_contra hs
    simp only [Bool.not_eq_false] at hs
    exact hc (hconfirmed.mpr (Or.inl (by rw [if_pos hs]; exact Nat.le_add_left 1 _)))
  rw [countIdle_core]
  exact .confirm hw hs id

/-- A released blocker gives an idle or a working screen no more than it had without one. -/
theorem Move.of_released {ev : Evidence} {c c' : Core} {o : ReducerOutcome}
    (hev : ev = .idle ∨ ev = .work) (h : Move r₀ now ev { c with blocker := false } c' o) :
    Move r₀ now ev c c' o := by
  cases h with
  | hold hwork hblock hstrong hb =>
    refine .hold ?_ hblock hstrong (fun hbt => by simpa using hb hbt)
    intro he
    exact Or.inl (by simpa using hwork he)
  | exit | firstOutput => simp at hev
  | work => exact .work
  | resume | block => simp at hev
  | settle h hb => exact .settle h (fun hbt => by simpa using hb hbt)
  | release h => exact .release h
  | strong => simp at hev
  | confirm h hs hb => exact .confirm h hs (fun hbt => by simpa using hb hbt)
  | commitStrong | commitTick => simp at hev
  | commitIdle h hb hevidence => exact .commitIdle h (fun hbt => by simpa using hb hbt) hevidence
  | stale => simp at hev

theorem applyNonBlockerScreen_move (r : StatusReducer) (ht : r.timing = r₀.timing)
    (observation : ScreenObservation) (cleared : Bool)
    (hstate : needsInputKind observation.state = none) (hskip : observation.state ≠ .skip)
    (hb : r.state.screenBlockerActive = false) :
    Move r₀ now (screenEvidence observation.state) r.core
      (r.applyNonBlockerScreen observation now cleared {}).1.core
      (r.applyNonBlockerScreen observation now cleared {}).2 := by
  unfold applyNonBlockerScreen
  cases hobs : observation.state with
  | working => exact goWorking_move r false (fun _ => hb)
  | idle =>
    dsimp only
    split
    · rename_i hw
      exact confirmIdle_move hw ht
    split
    · rename_i hs
      rw [setStatus_of_ne (by rw [hs]; decide)]
      exact .settle hs id
    split
    · rename_i hni
      have hout : (r.cancelIdleCandidacy.setStatus .idle {}).2
          = { statusChange := some .idle } := by
        have hne : r.cancelIdleCandidacy.status ≠ .idle := by
          intro hc
          have hidle : r.status = .idle := hc
          simp [hidle, SessionStatus.isNeedsInput] at hni
        rw [setStatus_of_ne hne]
      have hcore : (r.cancelIdleCandidacy.setStatus .idle {}).1.core
          = { r.core.dropTo .idle with blocker := false } := by
        rw [setStatus_fst_core]
        simp [Core.dropTo, StatusReducer.core, cancelIdleCandidacy, hb]
      rw [hcore, hout]
      exact .release hni.2
    rename_i hw _ _
    exact .hold (by simp [screenEvidence]) (by simp [screenEvidence]) (by simp [screenEvidence]) id
  | blockedPermission | blockedQuestion => simp [hobs, needsInputKind] at hstate
  | skip => exact absurd hobs hskip

theorem handleFreshScreen_move (r : StatusReducer) (ht : r.timing = r₀.timing)
    (observation : ScreenObservation) (hskip : observation.state ≠ .skip) :
    Move r₀ now (screenEvidence observation.state) r.core
      (r.handleFreshScreen observation now {}).1.core
      (r.handleFreshScreen observation now {}).2 := by
  unfold handleFreshScreen
  split
  · rename_i kind hkind
    have hev : screenEvidence observation.state = .blocker := by
      cases hobs : observation.state <;> simp_all [needsInputKind, screenEvidence]
    rw [hev]
    rw [askForInput_core, askForInput_snd]
    exact .block (b := true) (fun _ => rfl)
  rename_i hkind
  have hev : screenEvidence observation.state = .idle ∨
      screenEvidence observation.state = .work := by
    cases hobs : observation.state <;> simp_all [needsInputKind, screenEvidence]
  split
  · rename_i hblocked
    dsimp only
    split
    · refine .hold (b := r.core.blocker) (fun _ => Or.inr hblocked) ?_ ?_ id
      · rcases hev with h | h <;> rw [h] <;> decide
      · rcases hev with h | h <;> rw [h] <;> simp
    refine Move.of_released hev ?_
    exact applyNonBlockerScreen_move { r with state := { r.state with
      screenBlockerActive := false, blockerMissScans := 0 } } ht observation true hkind
      hskip rfl
  rename_i hfree
  split
  · rename_i hgrace
    refine .hold (b := r.core.blocker) (fun _ => Or.inl hgrace.1) ?_ ?_ id
    · rcases hev with h | h <;> rw [h] <;> decide
    · rcases hev with h | h <;> rw [h] <;> simp
  · exact applyNonBlockerScreen_move r ht observation false hkind hskip (by simpa using hfree)

theorem handleScreen_move (r : StatusReducer) (ht : r.timing = r₀.timing)
    (hr : r.listens = true) (observation : ScreenObservation) :
    Move r₀ now (if r.accepts observation then screenEvidence observation.state else .other)
      r.core (r.handleScreen observation now {}).1.core (r.handleScreen observation now {}).2 := by
  have hold : Move r₀ now .other r.core r.core {} := .hold (by simp) (by simp) (by simp) id
  unfold handleScreen accepts
  dsimp only
  by_cases hskip : observation.state = .skip
  · rw [if_pos hskip, if_neg (by simp [hskip])]
    exact hold
  rw [if_neg hskip]
  by_cases hseq : r.state.lastScreenSeq = some observation.contentSeq
  · rw [if_pos hseq, if_neg (by simp [hseq])]
    exact hold
  rw [if_neg hseq, if_pos (by simp [hskip, hseq, hr])]
  exact handleFreshScreen_move { r with state := { r.state with
    lastSignalAt := now, skipActive := false, lastScreenSeq := some observation.contentSeq,
    screenBelief := some observation.state } } ht observation hskip

theorem settleWorking_move (r : StatusReducer) :
    Move r₀ now .tick r.core (r.settleWorking now {}).1.core (r.settleWorking now {}).2 := by
  unfold settleWorking
  split
  · rename_i h
    rw [setStatus_of_ne (by rw [h.1]; decide)]
    exact .stale h.1
  split
  · rename_i h
    obtain ⟨hcore, hout⟩ := commitIdle_of_working (r := { r with state := { r.state with
      idleConfirms := r.state.idleConfirms + 1 } }) h.1 now
    rw [hcore, hout]
    exact .commitTick h.1 h.2.1
  · exact .hold (by simp) (by simp) (by simp) id

theorem setStatus_state (r : StatusReducer) (s : SessionStatus) (o : ReducerOutcome) :
    (r.setStatus s o).1.state = r.state := by
  unfold setStatus
  split <;> rfl

theorem settleWorking_of_not_working (h : r.status ≠ .working)
    (o : ReducerOutcome) : r.settleWorking now o = (r, o) := by
  unfold settleWorking
  rw [if_neg (fun hc => h hc.1), if_neg (fun hc => h hc.1)]

theorem settleWorking_goWorking (r : StatusReducer) (clear : Bool) (o : ReducerOutcome) :
    (r.goWorking now clear o).1.settleWorking now (r.goWorking now clear o).2 =
      r.goWorking now clear o := by
  have hlast : (r.goWorking now clear o).1.state.lastSignalAt = now := by
    unfold goWorking
    rw [setStatus_state]
  have hstrong : (r.goWorking now clear o).1.state.idleStrong = false := by
    unfold goWorking
    rw [setStatus_state]
    cases clear <;> rfl
  have hquiet : now.elapsedSince now = 0 := by
    rw [SystemTime.elapsedSince_eq, Int.sub_self]
    rfl
  unfold settleWorking
  rw [hlast, hstrong, hquiet, if_neg (fun hc => Nat.not_lt_zero _ hc.2),
    if_neg (fun hc => Bool.false_ne_true hc.2.1)]

theorem reconsiderStartup_cases (r : StatusReducer) (now : SystemTime) (o : ReducerOutcome) :
    r.reconsiderStartup now o = (r, o) ∨
      (r.status = .starting ∧ r.state.screenBelief = some .working ∧
        r.reconsiderStartup now o = r.goWorking now false o) ∨
      (r.status = .starting ∧ r.reconsiderStartup now o = r.setStatus .idle o) := by
  unfold reconsiderStartup
  split
  · rename_i hstart
    split
    · rename_i hbelief
      exact Or.inr (Or.inl ⟨hstart.1, hbelief, rfl⟩)
    · exact Or.inr (Or.inr ⟨hstart.1, rfl⟩)
    all_goals exact Or.inl rfl
  · exact Or.inl rfl

theorem handleTick_move (r : StatusReducer) :
    Move r now .tick r.core (r.handleTick now {}).1.core (r.handleTick now {}).2 := by
  have htick : r.handleTick now {} = (r.reconsiderStartup now {}).1.settleWorking now
      (r.reconsiderStartup now {}).2 := rfl
  rw [htick]
  rcases r.reconsiderStartup_cases now {} with h | ⟨hs, hbelief, h⟩ | ⟨hs, h⟩
  · rw [h]
    exact settleWorking_move r
  · have hmove : Move r now .tick r.core _ _ := .resume hs hbelief
    have hchange : changeTo r.status .working = some .working := by rw [hs]; rfl
    rw [h, settleWorking_goWorking, goWorking_core, goWorking_snd, hchange]
    exact hmove
  · rw [h, setStatus_of_ne (by rw [hs]; decide), settleWorking_of_not_working (by simp)]
    exact .settle hs id

/-! ### The whole reducer -/

theorem reduceProcessOnly_move (r : StatusReducer) (hp : r.authority = .processOnly)
    (signal : StatusSignal) : Move r now .other r.core (r.reduceProcessOnly signal now {}).1.core
      (r.reduceProcessOnly signal now {}).2 := by
  have hold : Move r now .other r.core r.core {} := .hold (by simp) (by simp) (by simp) id
  unfold reduceProcessOnly
  split
  · by_cases hs : r.status = .starting
    · rw [if_pos hs]
      dsimp only
      rw [setStatus_of_ne (by rw [hs]; decide)]
      exact .firstOutput hs hp
    · rw [if_neg hs]
      exact hold
  · exact hold

theorem listens_iff (r : StatusReducer) :
    r.listens = true ↔ r.status.isExited = false ∧ r.authority ≠ .processOnly := by
  simp [listens]

theorem reduce_of_not_listens (h : r.listens = false) (signal : StatusSignal) (now : SystemTime) :
    r.reduce signal now = (r, {}) ∨ (∃ code sig, r.reduce signal now = r.handleExit code sig {}) ∨
      (r.authority = .processOnly ∧ r.reduce signal now = r.reduceProcessOnly signal now {}) := by
  unfold reduce
  by_cases hexited : r.status.isExited = true
  · exact Or.inl (by rw [if_pos hexited])
  have hp : r.authority = .processOnly := by
    by_contra hp
    exact absurd (r.listens_iff.mpr ⟨by simpa using hexited, hp⟩) (by simp [h])
  rw [if_neg hexited]
  cases signal with
  | processExit code sig => exact Or.inr (Or.inl ⟨code, sig, rfl⟩)
  | _ => exact Or.inr (Or.inr ⟨hp, if_pos hp⟩)

/-- **Every step of the reducer is one of the moves.** -/
theorem reduce_move (r : StatusReducer) (signal : StatusSignal) (now : SystemTime) :
    Move r now (r.evidence signal) r.core (r.reduce signal now).1.core (r.reduce signal now).2 := by
  have hold : Move r now .other r.core r.core {} := .hold (by simp) (by simp) (by simp) id
  have hexit : ∀ code sig, Move r now .other r.core (r.handleExit code sig {}).1.core
      (r.handleExit code sig {}).2 := by
    intro code sig
    unfold handleExit
    rw [setStatus_fst_core, setStatus_snd]
    exact .exit
  by_cases hl : r.listens = true
  · obtain ⟨hexited, hp⟩ := r.listens_iff.mp hl
    unfold reduce evidence
    rw [if_pos hl, if_neg (by rw [hexited]; exact Bool.false_ne_true)]
    cases signal with
    | processExit code sig => exact hexit code sig
    | claudeHook hook isSubagent =>
      dsimp only
      rw [if_neg hp]
      exact handleClaudeHook_move r hook isSubagent
    | codexTurnComplete =>
      dsimp only
      rw [if_neg hp]
      exact handleStrongIdle_move { r with state := { r.state with lastSignalAt := now } }
    | screen observation =>
      dsimp only
      rw [if_neg hp]
      exact handleScreen_move r rfl hl observation
    | ptyOutputActivity =>
      dsimp only
      rw [if_neg hp]
      exact hold
    | userKeystroke =>
      dsimp only
      rw [if_neg hp]
      split <;> exact hold
    | tick =>
      dsimp only
      rw [if_neg hp]
      exact handleTick_move r
  have hev : r.evidence signal = .other := by
    unfold evidence
    rw [if_neg hl]
  rw [hev]
  rcases reduce_of_not_listens (by simpa using hl) signal now with h | ⟨code, sig, h⟩ | ⟨hp, h⟩
  · rw [h]
    exact hold
  · rw [h]
    exact hexit code sig
  · rw [h]
    exact reduceProcessOnly_move r hp signal

end StatusReducer

end Diri
