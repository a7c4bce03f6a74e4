/-
One turn of the Holder's event loop after another, and the leader beside it.

`EventLoop` leaves open what `poll` reports and in which order the handlers run.  Here
`poll` looks at one descriptor after the other, the terminal before the exit watcher, and
the leader may write or exit between two looks; then the handlers of what was found ready
run in the loop's order.  What a look at the terminal or at the exit watcher finds is what
is the case at that moment; what the other descriptors say is open.

A `poll` that finds nothing and looks again is a turn in which no handler is due.  An error
ends the Holder, and so does a process guard that exits, which takes no step here.  The
turns of `accept` and of `drain_pty` are steps.
-/
import Diri.Lib.Pty
import Diri.Remote.EventLoop

namespace Diri.Wire

/-- What the loop does next: a look of `poll`, or a handler. -/
inductive LoopStage where
  | lookListener
  | lookPty
  | lookExit
  | lookConnection
  | lookPending
  | acceptConnection
  | drainPty
  | flushInput
  | recordExit
  | readConnection
  | flushConnection
  | readPendingConnection
  | emitGridDelta
  deriving DecidableEq

def LoopStage.next : LoopStage → LoopStage
  | .lookListener => .lookPty
  | .lookPty => .lookExit
  | .lookExit => .lookConnection
  | .lookConnection => .lookPending
  | .lookPending => .acceptConnection
  | .acceptConnection => .drainPty
  | .drainPty => .flushInput
  | .flushInput => .recordExit
  | .recordExit => .readConnection
  | .readConnection => .flushConnection
  | .flushConnection => .readPendingConnection
  | .readPendingConnection => .emitGridDelta
  | .emitGridDelta => .lookListener

/-- What `poll` found: `POLLIN` (or a hang-up), and `POLLOUT` where it is asked for. -/
structure Revents where
  listener : Bool := false
  pty : Bool := false
  ptyOut : Bool := false
  exit : Bool := false
  connection : Bool := false
  connectionOut : Bool := false
  pending : Bool := false
  deriving DecidableEq

structure PolledHolder where
  holder : Holder
  pty : Pty UInt8 := {}
  stage : LoopStage := .lookListener
  revents : Revents := {}
  /-- The connection as it was when the exit was about to be recorded; kept for the proofs. -/
  recorded : Option (Option Connection) := none

inductive PollAction where
  | leader (event : Pty.Event UInt8)
  /-- `poll` is interrupted. -/
  | interrupt
  /-- The next look, with what a descriptor other than the two says. -/
  | look (ready writable : Bool)
  /-- How much a read of the terminal gives. -/
  | drainPty (count : Nat) (painted : Painted)
  | recordExit (exit : ProcessExit)
  /-- A handler other than these. -/
  | handle (action : LoopAction)
  /-- There is nothing to do at this stage, or nothing more. -/
  | pass

namespace PolledHolder

def readSize : Nat := 64 * 1024

def look (ready writable : Bool) (s : PolledHolder) : Option PolledHolder :=
  let found (revents : Revents) : Option PolledHolder :=
    some { s with
      stage := s.stage.next
      revents := revents }
  match s.stage with
  | .lookListener => found { listener := ready }
  | .lookPty => found { s.revents with
      pty := s.holder.reading && s.pty.readable
      ptyOut := s.holder.reading && writable }
  | .lookExit => found { s.revents with exit := s.holder.watching && s.pty.exited }
  | .lookConnection => found { s.revents with
      connection := s.holder.connection.isSome && ready
      connectionOut := s.holder.connection.isSome && writable }
  | .lookPending => found { s.revents with
      pending := s.holder.pendingConnection.isSome && ready }
  | _ => none

variable (host : Host)

/-- A turn of the loop of `drain_pty`; at the end of the terminal the reader is dropped. -/
def drainPty (count : Nat) (painted : Painted) (s : PolledHolder) : Option PolledHolder :=
  if s.stage = .drainPty ∧ s.revents.pty ∧ s.holder.reading then
    match s.pty.read readSize count with
    | (.bytes data, pty) =>
      (loopStep host s.holder (.drainPty data painted)).map fun holder =>
        { s with
          holder := holder
          pty := pty }
    | (.wouldBlock, _) => some { s with stage := s.stage.next }
    | (.eof, _) =>
      (loopStep host s.holder (.drainPty [] painted)).map fun holder =>
        { s with
          holder := holder
          stage := s.stage.next }
  else none

def recordExit (exit : ProcessExit) (s : PolledHolder) : Option PolledHolder :=
  if s.stage = .recordExit ∧ s.revents.exit then
    (loopStep host s.holder (.recordExit exit)).map fun holder =>
      { s with
        holder := holder
        stage := s.stage.next
        recorded := some s.holder.connection }
  else none

/-- Whether a handler is due, and whether the loop stays with it afterwards. -/
def due (s : PolledHolder) : LoopAction → Option Bool
  | .acceptConnection =>
    if s.stage = .acceptConnection ∧ s.revents.listener then some true else none
  | .flushInput _ => if s.stage = .flushInput ∧ s.revents.ptyOut then some false else none
  | .readConnection _ =>
    if s.stage = .readConnection ∧ s.revents.connection then some false else none
  | .flushConnection _ =>
    if s.stage = .flushConnection ∧ s.revents.connectionOut then some false else none
  | .readPendingConnection _ _ =>
    if s.stage = .readPendingConnection ∧ s.revents.pending then some false else none
  | .emitGridDelta => if s.stage = .emitGridDelta then some false else none
  | .drainPty _ _ => none
  | .recordExit _ => none

def handle (action : LoopAction) (s : PolledHolder) : Option PolledHolder :=
  (s.due action).bind fun stays =>
    (loopStep host s.holder action).map fun holder =>
      { s with
        holder := holder
        stage := if stays then s.stage else s.stage.next }

/-- Whether the loop may go on without the handler of its stage. -/
def passes (s : PolledHolder) : Bool :=
  match s.stage with
  | .acceptConnection => true
  | .drainPty => !s.revents.pty || !s.holder.reading
  | .flushInput => !s.revents.ptyOut
  | .recordExit => !s.revents.exit
  | .readConnection => !s.revents.connection
  | .flushConnection => !s.revents.connectionOut
  | .readPendingConnection => !s.revents.pending
  -- it depends on the time whether a grid is due
  | .emitGridDelta => true
  | _ => false

/-- Whether the loop is inside `poll`. -/
def polling (s : PolledHolder) : Bool :=
  match s.stage with
  | .lookListener | .lookPty | .lookExit | .lookConnection | .lookPending => true
  | _ => false

def step (s : PolledHolder) : PollAction → Option PolledHolder
  | .leader event => (s.pty.happen event).map fun pty => { s with pty := pty }
  | .interrupt =>
    if s.polling then some { s with
      stage := .lookListener
      revents := {} }
    else none
  | .look ready writable => s.look ready writable
  | .drainPty count painted => s.drainPty host count painted
  | .recordExit exit => s.recordExit host exit
  | .handle action => s.handle host action
  | .pass => if s.passes then some { s with stage := s.stage.next } else none

end PolledHolder

end Diri.Wire
