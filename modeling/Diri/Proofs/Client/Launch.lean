/-
A deferred launch loses no input, and no size.

Seen from outside the session is a relay of input: what is queued before the launch, and
what is in the launcher's hands after it, waits.  A caller that goes to the holder itself
keeps the order only if nothing waits any more, and the last word on the size only if the
launcher has no size left to apply (`Orderly`).  The session is launched from the moment
the launcher takes over the queue, so that is not a matter of course.
-/
import Diri.Engine.DeferredLaunch
import Diri.Lib.Relay
import Diri.Lib.Run

namespace Diri

open List

namespace Launcher

/-- The input that the launcher has taken over and not yet written. -/
def unwritten : Launcher → List UInt8
  | handingOver handoff => handoff.queuedInput
  | _ => []

/-- The size that the launcher has yet to apply. -/
def late : Launcher → Option TerminalSize
  | handingOver handoff => handoff.lateSize
  | resizing size => some size
  | _ => none

/-- The hand-off is under way or over. -/
def launched : Launcher → Bool
  | handingOver _ | resizing _ | pumping => true
  | _ => false

/-- Nothing that a caller asks of the holder comes before what the launcher still has. -/
def LetsPass (launcher : Launcher) : DirectCall → Prop
  | .write bytes => bytes = [] ∨ launcher.unwritten = []
  | .resize _ => launcher.late = none

instance (launcher : Launcher) : (call : DirectCall) → Decidable (launcher.LetsPass call)
  | .write bytes => inferInstanceAs (Decidable (bytes = [] ∨ launcher.unwritten = []))
  | .resize _ => inferInstanceAs (Decidable (launcher.late = none))

/-- The holder does what the launcher asks of it. -/
def Served (launcher : Launcher) (deferred : DeferredState) (answer : Answer) : Prop :=
  match launcher with
  | launching _ => answer ≠ .lost
  | awaitingHolder _ => answer = .done
  | finishing _ => deferred.cancelled = false → ∀ size ∈ deferred.pending, size.atLeastTwo = size
  | killing | resizing _ => answer ≠ .refused
  | handingOver handoff => handoff.queuedInput ≠ [] → answer ≠ .refused
  | _ => True

instance (deferred : DeferredState) (answer : Answer) :
    (launcher : Launcher) → Decidable (launcher.Served deferred answer)
  | launching _ => inferInstanceAs (Decidable (answer ≠ .lost))
  | awaitingHolder _ => inferInstanceAs (Decidable (answer = .done))
  | finishing _ => inferInstanceAs (Decidable (deferred.cancelled = false →
      ∀ size ∈ deferred.pending, size.atLeastTwo = size))
  | killing | resizing _ => inferInstanceAs (Decidable (answer ≠ .refused))
  | handingOver handoff =>
    inferInstanceAs (Decidable (handoff.queuedInput ≠ [] → answer ≠ .refused))
  | waiting | pumping | returned => .isTrue trivial

/-- The child, as far as the launcher's place tells. -/
def Minds (launcher : Launcher) (child : Option Child) : Prop :=
  match launcher with
  | waiting | launching _ => child = none
  | awaitingHolder chosen | finishing chosen => child = some { size := chosen.atLeastTwo }
  | killing => ∃ c, child = some c ∧ c.written = []
  | handingOver _ | resizing _ | pumping => ∃ c, child = some c
  | returned => ∀ c, child = some c → c.written = [] ∧ c.alive = false

end Launcher

namespace DeferredSession

/-- What the child was sent. -/
def written (s : DeferredSession) : List UInt8 :=
  match s.child with
  | none => []
  | some child => child.written

/-- What is accepted and not sent: queued, or in the launcher's hands. -/
def undelivered (s : DeferredSession) : List UInt8 :=
  s.launcher.unwritten ++ s.deferred.queuedInput

def relay (s : DeferredSession) : Relay UInt8 where
  accepted := s.accepted
  waiting := s.undelivered
  sent := s.written

/-- Callers wait for the hand-off, and nothing fails. -/
def Orderly (s : DeferredSession) : DeferredStep → Prop
  | .perform index answer => ∀ call ∈ s.calls[index]?,
      answer ≠ .lost ∧ (answer = .done → s.launcher.LetsPass call)
  | .launcher _ answer => s.launcher.Served s.deferred answer
  | _ => True

instance (s : DeferredSession) : (step : DeferredStep) → Decidable (s.Orderly step)
  | .perform index answer => inferInstanceAs (Decidable (∀ call ∈ s.calls[index]?,
      answer ≠ .lost ∧ (answer = .done → s.launcher.LetsPass call)))
  | .launcher _ answer => inferInstanceAs (Decidable (s.launcher.Served s.deferred answer))
  | .write _ | .resize _ _ | .cancel => .isTrue trivial

/-- The child has the last size proposed, or the launcher is about to apply it. -/
def Sized (s : DeferredSession) : Prop :=
  match s.launcher.late with
  | none => ∀ size, s.proposed = some size → s.child.map Child.size = some size
  | some late => s.proposed = some late ∧ late.atLeastTwo = late

/-- What is true of a session until the launcher takes over the queue. -/
structure Unlaunched (s : DeferredSession) : Prop where
  launched : s.deferred.launched = false
  proposed : s.proposed = s.deferred.pending
  calls : s.calls = []

/-- What is true of it from then on. -/
structure Launched (s : DeferredSession) : Prop where
  launched : s.deferred.launched = true
  cancelled : s.deferred.cancelled = false
  queuedInput : s.deferred.queuedInput = []
  sized : s.Sized

structure LaunchInv (s : DeferredSession) : Prop where
  lossless : s.relay.Lossless
  minds : s.launcher.Minds s.child
  unlaunched : s.launcher.launched = false → s.Unlaunched
  launched : s.launcher.launched = true → s.Launched

theorem launchInv_start (estimate : TerminalSize) (now : Nat) : LaunchInv (start estimate now) := by
  refine ⟨rfl, rfl, fun _ => ⟨rfl, rfl, rfl⟩, ?_⟩
  intro h
  cases h

/-! ### Callers -/

variable {s : DeferredSession} {answer : Answer}

theorem writeInput_queued (h : s.deferred.launched = false) (bytes : List UInt8) :
    s.writeInput bytes = { s with
      deferred := { s.deferred with queuedInput := s.deferred.queuedInput ++ bytes }
      accepted := s.accepted ++ bytes } := by
  simp [writeInput, DeferredState.queueInput, h]

theorem writeInput_through (h : s.deferred.launched = true) (bytes : List UInt8) :
    s.writeInput bytes = { s with calls := s.calls ++ [.write bytes] } := by
  simp [writeInput, DeferredState.queueInput, h]

theorem resize_proposed (h : s.deferred.launched = false) (size : TerminalSize) (now : Nat) :
    s.resize size now = { s with
      deferred := { s.deferred with
        pending := some size
        deadline := now + launchDebounce }
      proposed := some size } := by
  simp [resize, DeferredState.proposeSize, h]

theorem resize_through (h : s.deferred.launched = true) (size : TerminalSize) (now : Nat) :
    s.resize size now = { s with calls := s.calls ++ [.resize size] } := by
  simp [resize, DeferredState.proposeSize, h]

theorem LaunchInv.of_unlaunched (hlauncher : s.launcher.launched = false)
    (hlossless : s.relay.Lossless) (hminds : s.launcher.Minds s.child)
    (hunlaunched : s.Unlaunched) : LaunchInv s := by
  refine ⟨hlossless, hminds, fun _ => hunlaunched, ?_⟩
  intro hafter
  rw [hlauncher] at hafter
  cases hafter

theorem LaunchInv.of_launched (hlauncher : s.launcher.launched = true)
    (hlossless : s.relay.Lossless) (hminds : s.launcher.Minds s.child)
    (hlaunched : s.Launched) : LaunchInv s := by
  refine ⟨hlossless, hminds, ?_, fun _ => hlaunched⟩
  intro hbefore
  rw [hlauncher] at hbefore
  cases hbefore

theorem LaunchInv.writeInput (h : LaunchInv s) (bytes : List UInt8) :
    LaunchInv (s.writeInput bytes) := by
  cases hlauncher : s.launcher.launched with
  | false =>
    have hbefore := h.unlaunched hlauncher
    rw [writeInput_queued hbefore.launched]
    refine of_unlaunched hlauncher ?_ h.minds ⟨hbefore.launched, hbefore.proposed, hbefore.calls⟩
    show s.written ++ (s.launcher.unwritten ++ (s.deferred.queuedInput ++ bytes)) =
      s.accepted ++ bytes
    rw [← append_assoc s.launcher.unwritten]
    exact h.lossless.hold bytes
  | true =>
    have hafter := h.launched hlauncher
    rw [writeInput_through hafter.launched]
    exact of_launched hlauncher h.lossless h.minds
      ⟨hafter.launched, hafter.cancelled, hafter.queuedInput, hafter.sized⟩

theorem LaunchInv.resize (h : LaunchInv s) (size : TerminalSize)
    (now : Nat) : LaunchInv (s.resize size now) := by
  cases hlauncher : s.launcher.launched with
  | false =>
    have hbefore := h.unlaunched hlauncher
    rw [resize_proposed hbefore.launched]
    exact of_unlaunched hlauncher h.lossless h.minds ⟨hbefore.launched, rfl, hbefore.calls⟩
  | true =>
    have hafter := h.launched hlauncher
    rw [resize_through hafter.launched]
    exact of_launched hlauncher h.lossless h.minds
      ⟨hafter.launched, hafter.cancelled, hafter.queuedInput, hafter.sized⟩

theorem LaunchInv.cancel (h : LaunchInv s) : LaunchInv s.cancel := by
  cases hlauncher : s.launcher.launched with
  | false =>
    have hbefore := h.unlaunched hlauncher
    have hcancel : s.cancel = { s with deferred := { s.deferred with cancelled := true } } := by
      simp [DeferredSession.cancel, DeferredState.cancel, hbefore.launched]
    rw [hcancel]
    exact of_unlaunched hlauncher h.lossless h.minds
      ⟨hbefore.launched, hbefore.proposed, hbefore.calls⟩
  | true =>
    have hcancel : s.cancel = s := by
      simp [DeferredSession.cancel, DeferredState.cancel, (h.launched hlauncher).launched]
    rw [hcancel]
    exact h

theorem Launcher.minds_iff {launcher : Launcher} (h : launcher.launched = true)
    (child : Option Child) : launcher.Minds child ↔ ∃ c, child = some c := by
  cases launcher with
  | handingOver handoff | resizing late | pumping => exact Iff.rfl
  | _ => cases h

section
variable (h : LaunchInv s) (hlauncher : s.launcher.launched = true)
include h hlauncher

theorem LaunchInv.wrote {c : Child} (hchild : s.child = some c)
    {bytes : List UInt8} (hpass : s.launcher.LetsPass (.write bytes)) : LaunchInv { s with
      child := some { c with written := c.written ++ bytes }
      accepted := s.accepted ++ bytes } := by
  have hafter := h.launched hlauncher
  refine of_launched hlauncher ?_ ((Launcher.minds_iff hlauncher _).mpr ⟨_, rfl⟩)
    ⟨hafter.launched, hafter.cancelled, hafter.queuedInput, ?_⟩
  · have hwaiting : bytes = [] ∨ s.relay.waiting = [] := by
      refine Or.imp_right ?_ hpass
      intro hempty
      show s.launcher.unwritten ++ s.deferred.queuedInput = []
      rw [hempty, hafter.queuedInput, append_nil]
    have hlossless := h.lossless.pass hwaiting
    unfold relay written at hlossless
    rw [hchild] at hlossless
    exact hlossless
  have hsized := hafter.sized
  unfold Sized at hsized ⊢
  rw [hchild] at hsized
  exact hsized

theorem LaunchInv.resized {c : Child} (hchild : s.child = some c)
    {size : TerminalSize} (hpass : s.launcher.LetsPass (.resize size)) : LaunchInv { s with
      child := some { c with size := size }
      proposed := some size } := by
  have hafter := h.launched hlauncher
  refine of_launched hlauncher ?_ ((Launcher.minds_iff hlauncher _).mpr ⟨_, rfl⟩)
    ⟨hafter.launched, hafter.cancelled, hafter.queuedInput, ?_⟩
  · have hlossless := h.lossless
    unfold relay written at hlossless
    rw [hchild] at hlossless
    exact hlossless
  have hlate : s.launcher.late = none := hpass
  unfold Sized
  dsimp only
  rw [hlate]
  intro size' hsize'
  exact hsize'

theorem LaunchInv.setCalls (calls : List DirectCall) : LaunchInv { s with calls := calls } := by
  have hafter := h.launched hlauncher
  exact of_launched hlauncher h.lossless h.minds
    ⟨hafter.launched, hafter.cancelled, hafter.queuedInput, hafter.sized⟩

theorem LaunchInv.perform {call : DirectCall}
    (hlost : answer ≠ .lost) (hpass : answer = .done → s.launcher.LetsPass call)
    (calls : List DirectCall) : LaunchInv { s.perform call answer with calls := calls } := by
  obtain ⟨c, hchild⟩ := (Launcher.minds_iff hlauncher _).mp h.minds
  cases answer with
  | lost => exact absurd rfl hlost
  | refused =>
    have hsame : s.perform call .refused = s := by
      cases call <;> rfl
    rw [hsame]
    exact h.setCalls hlauncher calls
  | done =>
    cases call with
    | write bytes =>
      have hwrite : s.perform (.write bytes) .done = { s with
          child := some { c with written := c.written ++ bytes }
          accepted := s.accepted ++ bytes } := by
        simp [DeferredSession.perform, onChild, hchild]
      rw [hwrite]
      exact (h.wrote hlauncher hchild (hpass rfl)).setCalls hlauncher calls
    | resize size =>
      have hresize : s.perform (.resize size) .done = { s with
          child := some { c with size := size }
          proposed := some size } := by
        simp [DeferredSession.perform, onChild, hchild]
      rw [hresize]
      exact (h.resized hlauncher hchild (hpass rfl)).setCalls hlauncher calls

end

/-! ### The launcher -/

theorem LaunchInv.moveTo (h : LaunchInv s) {launcher : Launcher}
    (hfrom : s.launcher.launched = false) (hto : launcher.launched = false)
    (hminds : launcher.Minds s.child) : LaunchInv { s with launcher := launcher } := by
  have hbefore := h.unlaunched hfrom
  have hnothing : ∀ place : Launcher, place.launched = false → place.unwritten = [] := by
    intro place hplace
    cases place with
    | handingOver handoff => cases hplace
    | _ => rfl
  refine of_unlaunched hto ?_ hminds ⟨hbefore.launched, hbefore.proposed, hbefore.calls⟩
  have hlossless := h.lossless
  unfold relay undelivered at hlossless ⊢
  rw [hnothing _ hfrom] at hlossless
  rw [hnothing _ hto]
  exact hlossless

theorem LaunchInv.waitForSize (h : LaunchInv s)
    (hplace : s.launcher = .waiting) (now : Nat) : LaunchInv (s.waitForSize now) := by
  have hfrom : s.launcher.launched = false := by rw [hplace]; rfl
  have hchild : s.child = none := by
    have hminds := h.minds
    rwa [hplace] at hminds
  unfold DeferredSession.waitForSize
  cases s.deferred.waitForLaunchSize s.estimate now with
  | again => exact h
  | cancelled =>
    refine h.moveTo hfrom rfl ?_
    intro c hc
    rw [hchild] at hc
    cases hc
  | size chosen => exact h.moveTo hfrom rfl hchild

theorem LaunchInv.launch (h : LaunchInv s) {chosen : TerminalSize}
    (hplace : s.launcher = .launching chosen) (hlost : answer ≠ .lost) :
    LaunchInv (s.launch chosen answer) := by
  have hfrom : s.launcher.launched = false := by rw [hplace]; rfl
  have hbefore := h.unlaunched hfrom
  have hchild : s.child = none := by
    have hminds := h.minds
    rwa [hplace] at hminds
  have hlossless := h.lossless
  unfold relay undelivered written at hlossless
  rw [hplace, hchild] at hlossless
  cases answer with
  | lost => exact absurd rfl hlost
  | refused =>
    refine of_unlaunched rfl hlossless ?_ ⟨hbefore.launched, hbefore.proposed, hbefore.calls⟩
    intro c hc
    cases hc
  | done =>
    exact of_unlaunched rfl hlossless rfl ⟨hbefore.launched, hbefore.proposed, hbefore.calls⟩

theorem finish_eq (h : s.deferred.cancelled = false) (chosen : TerminalSize) :
    s.finish chosen = { s with
      deferred := { s.deferred with
        launched := true
        queuedInput := [] }
      launcher := .handingOver {
        queuedInput := s.deferred.queuedInput
        lateSize := s.deferred.pending.filter (· ≠ chosen) } } := by
  simp [finish, DeferredState.finishLaunch, h]

/-- A late size is what was proposed last; there is none if that is the size of the launch. -/
theorem lateSize_cases (pending : Option TerminalSize) (chosen : TerminalSize) :
    (pending.filter (· ≠ chosen) = none ∧ ∀ size, pending = some size → size = chosen) ∨
      ∃ late, pending.filter (· ≠ chosen) = some late ∧ pending = some late := by
  cases pending with
  | none => exact .inl ⟨rfl, by simp⟩
  | some size =>
    by_cases hsame : size = chosen
    · refine .inl ⟨by simp [Option.filter, hsame], ?_⟩
      intro size' hsize'
      rw [← Option.some.inj hsize', hsame]
    · exact .inr ⟨size, by simp [Option.filter, hsame], rfl⟩

theorem LaunchInv.finish (h : LaunchInv s) {chosen : TerminalSize}
    (hplace : s.launcher = .finishing chosen) (hsizes : s.deferred.cancelled = false →
      ∀ size, s.deferred.pending = some size → size.atLeastTwo = size) :
    LaunchInv (s.finish chosen) := by
  have hfrom : s.launcher.launched = false := by rw [hplace]; rfl
  have hbefore := h.unlaunched hfrom
  have hchild : s.child = some { size := chosen.atLeastTwo } := by
    have hminds := h.minds
    rwa [hplace] at hminds
  cases hcancelled : s.deferred.cancelled with
  | true =>
    have hkill : s.finish chosen = { s with launcher := .killing } := by
      simp [DeferredSession.finish, DeferredState.finishLaunch, hcancelled]
    rw [hkill]
    exact h.moveTo hfrom rfl ⟨_, hchild, rfl⟩
  | false =>
    rw [finish_eq hcancelled]
    refine of_launched rfl ?_ ⟨_, hchild⟩ ⟨rfl, hcancelled, rfl, ?_⟩
    · have hlossless := h.lossless
      unfold relay undelivered at hlossless
      rw [hplace] at hlossless
      show s.written ++ (s.deferred.queuedInput ++ []) = s.accepted
      rw [append_nil]
      exact hlossless
    obtain ⟨hnone, hchosen⟩ | ⟨late, hlate, hpending⟩ :=
      lateSize_cases s.deferred.pending chosen
    · rw [hnone]
      intro size hproposed
      rw [hbefore.proposed] at hproposed
      rw [hchild, ← hchosen size hproposed]
      exact congrArg some (hsizes hcancelled size hproposed)
    · rw [hlate]
      exact ⟨hbefore.proposed.trans hpending, hsizes hcancelled late hpending⟩

theorem LaunchInv.killTree (h : LaunchInv s) (hplace : s.launcher = .killing)
    (hserved : answer ≠ .refused) : LaunchInv (s.killTree answer) := by
  have hfrom : s.launcher.launched = false := by rw [hplace]; rfl
  have hbefore := h.unlaunched hfrom
  obtain ⟨c, hchild, hwritten⟩ : ∃ c, s.child = some c ∧ c.written = [] := by
    have hminds := h.minds
    rwa [hplace] at hminds
  have hkill : s.killTree answer = { s with
      child := some { c with alive := false }
      launcher := .returned } := by
    simp [DeferredSession.killTree, onChild, hserved, hchild]
  rw [hkill]
  refine of_unlaunched rfl ?_ ?_ ⟨hbefore.launched, hbefore.proposed, hbefore.calls⟩
  · have hlossless := h.lossless
    unfold relay undelivered written at hlossless
    rw [hplace, hchild] at hlossless
    exact hlossless
  intro c' hc'
  obtain ⟨⟩ := hc'
  exact ⟨hwritten, rfl⟩

theorem handOver_eq {c : Child} (hchild : s.child = some c) {handoff : LaunchHandoff}
    (hserved : handoff.queuedInput ≠ [] → answer ≠ .refused) : s.handOver handoff answer = { s with
      child := some { c with written := c.written ++ handoff.queuedInput }
      launcher :=
        match handoff.lateSize with
        | none => .pumping
        | some late => .resizing late } := by
  have hwrite : (if handoff.queuedInput = [] then s
      else s.onChild answer fun child => { child with
        written := child.written ++ handoff.queuedInput }) =
      { s with child := some { c with written := c.written ++ handoff.queuedInput } } := by
    by_cases hempty : handoff.queuedInput = []
    · rw [if_pos hempty, hempty, append_nil, ← hchild]
    · rw [if_neg hempty]
      simp [onChild, hserved hempty, hchild]
  unfold handOver
  rw [hwrite]
  cases handoff.lateSize with
  | none | some late => rfl

theorem LaunchInv.handOver (h : LaunchInv s) {handoff : LaunchHandoff}
    (hplace : s.launcher = .handingOver handoff)
    (hserved : handoff.queuedInput ≠ [] → answer ≠ .refused) :
    LaunchInv (s.handOver handoff answer) := by
  have hfrom : s.launcher.launched = true := by rw [hplace]; rfl
  have hafter := h.launched hfrom
  obtain ⟨c, hchild⟩ := (Launcher.minds_iff hfrom _).mp h.minds
  have hlossless : c.written ++ handoff.queuedInput = s.accepted := by
    have hlossless := h.lossless
    unfold Relay.Lossless relay undelivered written at hlossless
    rw [hplace, hchild, hafter.queuedInput] at hlossless
    simpa [Launcher.unwritten] using hlossless
  have hrelay : c.written ++ handoff.queuedInput ++ ([] ++ s.deferred.queuedInput) =
      s.accepted := by
    rw [hafter.queuedInput]
    simpa using hlossless
  have hsized := hafter.sized
  simp only [Sized, hplace, Launcher.late] at hsized
  rw [handOver_eq hchild hserved]
  cases hlate : handoff.lateSize with
  | none =>
    rw [hlate] at hsized
    refine of_launched rfl hrelay ⟨_, rfl⟩
      ⟨hafter.launched, hafter.cancelled, hafter.queuedInput, ?_⟩
    intro size hproposed
    rw [← hsized size hproposed, hchild]
    rfl
  | some late =>
    rw [hlate] at hsized
    exact of_launched rfl hrelay ⟨_, rfl⟩
      ⟨hafter.launched, hafter.cancelled, hafter.queuedInput, hsized⟩

theorem LaunchInv.resizeLate (h : LaunchInv s) {late : TerminalSize}
    (hplace : s.launcher = .resizing late) (hserved : answer ≠ .refused) :
    LaunchInv (s.resizeLate late answer) := by
  have hfrom : s.launcher.launched = true := by rw [hplace]; rfl
  have hafter := h.launched hfrom
  obtain ⟨c, hchild⟩ := (Launcher.minds_iff hfrom _).mp h.minds
  have hsized := hafter.sized
  simp only [Sized, hplace, Launcher.late] at hsized
  obtain ⟨hproposed, hwide⟩ := hsized
  have hresize : s.resizeLate late answer = { s with
      child := some { c with size := late }
      launcher := .pumping } := by
    simp [DeferredSession.resizeLate, onChild, hserved, hchild, hwide]
  rw [hresize]
  refine of_launched rfl ?_ ⟨_, rfl⟩ ⟨hafter.launched, hafter.cancelled, hafter.queuedInput, ?_⟩
  · have hlossless := h.lossless
    unfold relay undelivered written at hlossless
    rw [hplace, hchild] at hlossless
    exact hlossless
  intro size hsize
  rw [hproposed] at hsize
  exact hsize

/-! ### Runs -/

theorem LaunchInv.launcherStep (h : LaunchInv s) (now : Nat)
    (hserved : s.launcher.Served s.deferred answer) : LaunchInv (s.launcherStep now answer) := by
  unfold DeferredSession.launcherStep
  cases hplace : s.launcher with
  | waiting => exact h.waitForSize hplace now
  | launching chosen =>
    rw [hplace] at hserved
    exact h.launch hplace hserved
  | awaitingHolder chosen =>
    rw [hplace] at hserved
    have hminds := h.minds
    rw [hplace] at hminds
    have hdone : answer = .done := hserved
    dsimp only
    rw [if_pos hdone]
    exact h.moveTo (by rw [hplace]; rfl) rfl hminds
  | finishing chosen =>
    rw [hplace] at hserved
    exact h.finish hplace hserved
  | killing =>
    rw [hplace] at hserved
    exact h.killTree hplace hserved
  | handingOver handoff =>
    rw [hplace] at hserved
    exact h.handOver hplace hserved
  | resizing late =>
    rw [hplace] at hserved
    exact h.resizeLate hplace hserved
  | pumping | returned => exact h

theorem LaunchInv.step {s s' : DeferredSession} {i : DeferredStep} (h : LaunchInv s)
    (horderly : s.Orderly i) (hstep : s.step i = some s') : LaunchInv s' := by
  cases i with
  | write bytes =>
    obtain ⟨⟩ := hstep
    exact h.writeInput bytes
  | resize size now =>
    obtain ⟨⟩ := hstep
    exact h.resize size now
  | perform index answer =>
    obtain ⟨call, hcall, rfl⟩ := Option.map_eq_some_iff.mp hstep
    obtain ⟨hlost, hpass⟩ := horderly call hcall
    have hlauncher : s.launcher.launched = true := by
      by_contra hbefore
      rw [(h.unlaunched (by simpa using hbefore)).calls] at hcall
      cases hcall
    exact h.perform hlauncher hlost hpass _
  | cancel =>
    obtain ⟨⟩ := hstep
    exact h.cancel
  | launcher now answer =>
    obtain ⟨⟩ := hstep
    exact h.launcherStep now horderly

theorem launchInv_run {estimate : TerminalSize} {now : Nat} {steps : List DeferredStep}
    (hmeets : Meets Orderly DeferredSession.step (start estimate now) steps)
    (hrun : partialRun DeferredSession.step (start estimate now) steps = some s) : LaunchInv s := by
  refine hmeets.invariant (P := LaunchInv) ?_ (launchInv_start estimate now) hrun
  intro s i s' h horderly hstep
  exact h.step horderly hstep

theorem LaunchInv.written_eq_nil (h : LaunchInv s)
    (hlauncher : s.launcher.launched = false) : s.written = [] := by
  have hminds := h.minds
  unfold written
  cases hchild : s.child with
  | none => rfl
  | some c =>
    rw [hchild] at hminds
    cases hplace : s.launcher with
    | waiting | launching chosen =>
      rw [hplace] at hminds
      cases hminds
    | awaitingHolder chosen | finishing chosen =>
      rw [hplace] at hminds
      rw [Option.some.inj hminds]
    | killing =>
      rw [hplace] at hminds
      obtain ⟨c', hc', hwritten⟩ := hminds
      rw [Option.some.inj hc']
      exact hwritten
    | returned =>
      rw [hplace] at hminds
      exact (hminds c rfl).1
    | _ =>
      rw [hplace] at hlauncher
      cases hlauncher

end DeferredSession

open DeferredSession

/-- While callers wait for the hand-off and nothing fails, the accepted input is what the
child was sent and then what is still to be sent; once the launcher is through, the child
has all of it, and the last size proposed.  After a cancel nothing is written, and no child
is left when the launcher has returned. -/
theorem deferred_launch (estimate : TerminalSize) (now : Nat) {steps : List DeferredStep}
    {s : DeferredSession} (hmeets : Meets Orderly DeferredSession.step (start estimate now) steps)
    (hrun : partialRun DeferredSession.step (start estimate now) steps = some s) :
    s.written ++ s.undelivered = s.accepted ∧ (s.launcher = .pumping → s.written = s.accepted ∧
        ∀ size, s.proposed = some size → s.child.map Child.size = some size) ∧
      (s.deferred.cancelled = true → s.written = [] ∧ s.deferred.launched = false ∧
        (s.launcher = .returned → ∀ c, s.child = some c → c.alive = false)) := by
  have hinv := launchInv_run hmeets hrun
  refine ⟨hinv.lossless, ?_, ?_⟩
  · intro hpumping
    have hlauncher : s.launcher.launched = true := by rw [hpumping]; rfl
    have hafter := hinv.launched hlauncher
    refine ⟨?_, ?_⟩
    · have hlossless := hinv.lossless
      unfold Relay.Lossless relay undelivered at hlossless
      rw [hpumping, hafter.queuedInput] at hlossless
      simpa [Launcher.unwritten] using hlossless
    · have hsized := hafter.sized
      unfold Sized at hsized
      rw [hpumping] at hsized
      exact hsized
  intro hcancelled
  have hlauncher : s.launcher.launched = false := by
    by_contra hlaunched
    have hafter := hinv.launched (by simpa using hlaunched)
    rw [hafter.cancelled] at hcancelled
    cases hcancelled
  refine ⟨hinv.written_eq_nil hlauncher, (hinv.unlaunched hlauncher).launched, ?_⟩
  intro hreturned c hchild
  have hminds := hinv.minds
  rw [hreturned] at hminds
  exact (hminds c hchild).2

/-! ### Before and after the hand-off -/

/-- Input and a size come before the launch, and more of both when the launcher is through. -/
def launchedInOrder : List DeferredStep :=
  [.write [97], .resize (80, 24) 10, .launcher 200 .done, .resize (100, 30) 210,
    .launcher 220 .done, .launcher 230 .done, .launcher 240 .done, .launcher 250 .done,
    .launcher 260 .done, .write [98], .perform 0 .done]

theorem deferred_launch_inOrder : ∃ s : DeferredSession,
      partialRun DeferredSession.step (start (90, 25) 0) launchedInOrder = some s ∧
      s.launcher = .pumping ∧ s.written = [97, 98] ∧ s.written = s.accepted ∧
      ∀ size, s.proposed = some size → s.child.map Child.size = some size := by
  have hmeets : Meets Orderly DeferredSession.step (start (90, 25) 0) launchedInOrder := by
    decide +kernel
  have hthrough := (deferred_launch (90, 25) 0 hmeets rfl).2.1 rfl
  exact ⟨_, rfl, rfl, by decide +kernel, hthrough⟩

/-- The second byte and a third size come between the end of the launch and the hand-off:
they find the session launched and go to the child at once, and the launcher follows with
the first byte and the second size. -/
def launchedInBetween : List DeferredStep :=
  [.write [97], .resize (80, 24) 10, .launcher 200 .done, .resize (100, 30) 210,
    .launcher 220 .done, .launcher 230 .done, .launcher 240 .done, .write [98],
    .resize (120, 40) 250, .perform 0 .done, .perform 0 .done, .launcher 260 .done,
    .launcher 270 .done]

theorem launchedInBetween_reorders : ∃ s : DeferredSession,
      partialRun DeferredSession.step (start (90, 25) 0) launchedInBetween = some s ∧
      s.launcher = .pumping ∧ s.accepted = [97, 98] ∧ s.written = [98, 97] ∧
      s.proposed = some (120, 40) ∧ s.child.map Child.size = some (100, 30) :=
  ⟨_, rfl, rfl, by decide +kernel, by decide +kernel, by decide +kernel, by decide +kernel⟩

end Diri
