/-
A launch that waits for the first client size.

The launcher thread waits until the size settles, launches the holder, and hands over what
was queued meanwhile.  Callers look at the deferred state under its lock and, once it is
launched, go to the holder themselves; between the look and the request anything may
happen.  Every step here is what one thread does in one go: a section under the lock, or
one request to the holder.

What a request comes to the world decides (`Answer`).  The session is awake all along, and
its own screen, the status and the title are left out.  For the proofs the session
remembers the input that was accepted, which is what was queued and what a caller's own
request was answered for, and the last size proposed likewise.
-/
import Mathlib.Data.List.Basic

namespace Diri

/-- Milliseconds. -/
def launchFallback : Nat := 400

/-- Milliseconds. -/
def launchDebounce : Nat := 120

/-- Columns and rows. -/
abbrev TerminalSize : Type := Nat × Nat

structure DeferredState where
  /-- The latest client-proposed size, if any arrived before launch. -/
  pending : Option TerminalSize := none
  deadline : Nat
  queuedInput : List UInt8 := []
  launched : Bool := false
  cancelled : Bool := false

structure LaunchHandoff where
  queuedInput : List UInt8
  lateSize : Option TerminalSize

namespace DeferredState

def new (now : Nat) : DeferredState where
  deadline := now + launchFallback

/-- False once launched: resize the PTY instead. -/
def proposeSize (size : TerminalSize) (now : Nat) (state : DeferredState) : Bool × DeferredState :=
  if state.launched then (false, state)
  else (true, { state with
    pending := some size
    deadline := now + launchDebounce })

/-- False once launched: write through. -/
def queueInput (bytes : List UInt8) (state : DeferredState) : Bool × DeferredState :=
  if state.launched then (false, state)
  else (true, { state with queuedInput := state.queuedInput ++ bytes })

/-- What one turn of the loop returns with. -/
inductive WaitResult where
  | again
  | cancelled
  | size (chosen : TerminalSize)

def waitForLaunchSize (fallback : TerminalSize) (now : Nat) (state : DeferredState) : WaitResult :=
  if state.cancelled then .cancelled
  else if now ≥ state.deadline then .size (state.pending.getD fallback)
  else .again

/-- `none` when a cancel raced the launch. -/
def finishLaunch (chosen : TerminalSize) (state : DeferredState) :
    Option (LaunchHandoff × DeferredState) :=
  if state.cancelled then none
  else some
    ({ queuedInput := state.queuedInput
       lateSize := state.pending.filter (· ≠ chosen) },
      { state with
        launched := true
        queuedInput := [] })

/-- True when cancellation happened before launch. -/
def cancel (state : DeferredState) : Bool × DeferredState :=
  if state.launched then (false, state) else (true, { state with cancelled := true })

end DeferredState

/-! ### The session -/

/-- What a request to the holder comes to: `lost` took effect and failed all the same. -/
inductive Answer where
  | done
  | refused
  | lost
  deriving DecidableEq

/-- A child, behind its holder. -/
structure Child where
  written : List UInt8 := []
  size : TerminalSize
  alive : Bool := true

/-- Where the launcher thread is. -/
inductive Launcher where
  | waiting
  | launching (chosen : TerminalSize)
  | awaitingHolder (chosen : TerminalSize)
  | finishing (chosen : TerminalSize)
  | killing
  | handingOver (handoff : LaunchHandoff)
  | resizing (late : TerminalSize)
  | pumping
  | returned

/-- What a caller asks of the holder itself. -/
inductive DirectCall where
  | write (bytes : List UInt8)
  | resize (size : TerminalSize)

structure DeferredSession where
  deferred : DeferredState
  /-- The size of the PTY in the spec. -/
  estimate : TerminalSize
  launcher : Launcher := .waiting
  child : Option Child := none
  /-- The callers that found the session launched. -/
  calls : List DirectCall := []
  accepted : List UInt8 := []
  proposed : Option TerminalSize := none

/-- `cols.max(2)` and `rows.max(2)`. -/
def TerminalSize.atLeastTwo (size : TerminalSize) : TerminalSize :=
  (max size.1 2, max size.2 2)

namespace DeferredSession

def start (estimate : TerminalSize) (now : Nat) : DeferredSession where
  deferred := .new now
  estimate := estimate

/-- The child, after a request that took effect. -/
def onChild (answer : Answer) (change : Child → Child) (s : DeferredSession) : DeferredSession :=
  if answer = .refused then s else { s with child := s.child.map change }

/-! ### Callers -/

/-- `write_input` and `write_raw`. -/
def writeInput (bytes : List UInt8) (s : DeferredSession) : DeferredSession :=
  let (queued, deferred) := s.deferred.queueInput bytes
  if queued then { s with
    deferred := deferred
    accepted := s.accepted ++ bytes }
  else { s with calls := s.calls ++ [.write bytes] }

def resize (size : TerminalSize) (now : Nat) (s : DeferredSession) : DeferredSession :=
  let (proposed, deferred) := s.deferred.proposeSize size now
  if proposed then { s with
    deferred := deferred
    proposed := some size }
  else { s with calls := s.calls ++ [.resize size] }

/-- The request of a caller. -/
def perform (call : DirectCall) (answer : Answer) (s : DeferredSession) : DeferredSession :=
  match call with
  | .write bytes =>
    let s := s.onChild answer fun child => { child with written := child.written ++ bytes }
    if answer = .done then { s with accepted := s.accepted ++ bytes } else s
  | .resize size =>
    let s := s.onChild answer fun child => { child with size := size }
    if answer = .done then { s with proposed := some size } else s

def cancel (s : DeferredSession) : DeferredSession :=
  { s with deferred := s.deferred.cancel.2 }

/-! ### The launcher -/

def waitForSize (now : Nat) (s : DeferredSession) : DeferredSession :=
  match s.deferred.waitForLaunchSize s.estimate now with
  | .again => s
  | .cancelled => { s with launcher := .returned }
  | .size chosen => { s with launcher := .launching chosen }

/-- The launch starts a child unless it is refused, and goes on only if it is answered. -/
def launch (chosen : TerminalSize) (answer : Answer) (s : DeferredSession) : DeferredSession :=
  { s with
    child := if answer = .refused then none else some { size := chosen.atLeastTwo }
    launcher := if answer = .done then .awaitingHolder chosen else .returned }

def finish (chosen : TerminalSize) (s : DeferredSession) : DeferredSession :=
  match s.deferred.finishLaunch chosen with
  | none => { s with launcher := .killing }
  | some (handoff, deferred) => { s with
      deferred := deferred
      launcher := .handingOver handoff }

def handOver (handoff : LaunchHandoff) (answer : Answer) (s : DeferredSession) : DeferredSession :=
  let s :=
    if handoff.queuedInput = [] then s
    else s.onChild answer fun child => { child with
      written := child.written ++ handoff.queuedInput }
  match handoff.lateSize with
  | none => { s with launcher := .pumping }
  | some late => { s with launcher := .resizing late }

def resizeLate (late : TerminalSize) (answer : Answer) (s : DeferredSession) : DeferredSession :=
  { s.onChild answer fun child => { child with size := late.atLeastTwo } with
    launcher := .pumping }

def killTree (answer : Answer) (s : DeferredSession) : DeferredSession :=
  { s.onChild answer fun child => { child with alive := false } with launcher := .returned }

/-- The next step of the launcher; the time and the answer matter to some of them. -/
def launcherStep (now : Nat) (answer : Answer) (s : DeferredSession) : DeferredSession :=
  match s.launcher with
  | .waiting => s.waitForSize now
  | .launching chosen => s.launch chosen answer
  | .awaitingHolder chosen =>
    { s with launcher := if answer = .done then .finishing chosen else .returned }
  | .finishing chosen => s.finish chosen
  | .killing => s.killTree answer
  | .handingOver handoff => s.handOver handoff answer
  | .resizing late => s.resizeLate late answer
  | .pumping => s
  | .returned => s

end DeferredSession

inductive DeferredStep where
  | write (bytes : List UInt8)
  | resize (size : TerminalSize) (now : Nat)
  /-- The `index`-th of the callers that wait to make their request makes it. -/
  | perform (index : Nat) (answer : Answer)
  | cancel
  | launcher (now : Nat) (answer : Answer)

/-- `none` is a caller that is not there. -/
def DeferredSession.step (s : DeferredSession) : DeferredStep → Option DeferredSession
  | .write bytes => some (s.writeInput bytes)
  | .resize size now => some (s.resize size now)
  | .perform index answer =>
    (s.calls[index]?).map fun call =>
      { s.perform call answer with calls := s.calls.eraseIdx index }
  | .cancel => some s.cancel
  | .launcher now answer => some (s.launcherStep now answer)

end Diri
