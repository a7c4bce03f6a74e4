/-
The receiver's side of a remote terminal stream.

A mirror accepts a full snapshot as a new baseline and then only contiguous sequenced
diffs; a gap forces the caller to request another full snapshot.  Sequences are `u64`.

The calls of a mirror, statement by statement.

`GridMirror.applySnapshot` and `applyDelta` say what a call makes of a mirror that
accepts it.  In the source both write to the mirror in place: they check first, and then
write the cells, the metadata, the sequence and the modes one after another.  Here they
are handlers, so that a check that came too late would leave its writes behind.
-/
import Diri.Lib.Handler
import Diri.Lib.Run
import Diri.Terminal.Screen

namespace Diri

/-- `u64::MAX`. -/
def maxU64 : Nat := 2 ^ 64 - 1

inductive MirrorError where
  | snapshotRequired
  | sequenceGap (expected actual : Nat)
  | sequenceOverflow
  | invalidGrid (detail : String)
  deriving DecidableEq, Repr

def validateGrid (grid : GridUpdate) : Except MirrorError Unit :=
  if grid.cols = 0 ∨ grid.rows = 0 then .error (.invalidGrid "dimensions must be non-zero")
  else if grid.cursorCol ≥ grid.cols ∨ grid.cursorRow ≥ grid.rows then
    .error (.invalidGrid "cursor is outside the grid")
  else if ∃ row ∈ grid.changedRows, row.y ≥ grid.rows ∨ row.cells.length ≠ grid.cols then
    .error (.invalidGrid "changed row is outside the grid or has the wrong width")
  else .ok ()

structure GridMirror where
  cells : List GridCell := []
  cols : Nat := 0
  rows : Nat := 0
  cursorCol : Nat := 0
  cursorRow : Nat := 0
  cursorVisible : Bool := false
  sequence : Option Nat := none
  modes : Modes := (false, false, false)
  deriving DecidableEq, Repr

namespace GridMirror

def updateMetadata (grid : GridUpdate) (mirror : GridMirror) : GridMirror :=
  { mirror with
    cols := grid.cols
    rows := grid.rows
    cursorCol := grid.cursorCol
    cursorRow := grid.cursorRow
    cursorVisible := grid.cursorVisible }

/-- What both kinds of update do once they are accepted. -/
def accept (sequence : Nat) (grid : GridUpdate) (modes : Modes) (mirror : GridMirror) :
    GridMirror :=
  { ({ mirror with cells := grid.apply mirror.cells }).updateMetadata grid with
    sequence := some sequence
    modes := modes }

def applySnapshot (sequence : Nat) (grid : GridUpdate) (modes : Modes) (mirror : GridMirror) :
    Except MirrorError GridMirror :=
  if !grid.isFullSnapshot then .error .snapshotRequired
  else do
    validateGrid grid
    return mirror.accept sequence grid modes

def applyDelta (sequence : Nat) (grid : GridUpdate) (modes : Modes) (mirror : GridMirror) :
    Except MirrorError GridMirror :=
  match mirror.sequence with
  | none => .error .snapshotRequired
  | some previous =>
    -- `checked_add`
    if previous + 1 > maxU64 then .error .sequenceOverflow
    else if sequence ≠ previous + 1 then .error (.sequenceGap (previous + 1) sequence)
    else if grid.isFullSnapshot ∨ grid.cols ≠ mirror.cols ∨ grid.rows ≠ mirror.rows then
      .error .snapshotRequired
    else do
      validateGrid grid
      return mirror.accept sequence grid modes

def size (mirror : GridMirror) : Nat × Nat := (mirror.cols, mirror.rows)

def cursor (mirror : GridMirror) : Nat × Nat × Bool :=
  (mirror.cursorCol, mirror.cursorRow, mirror.cursorVisible)

/-- The mirror's picture as a full update, once there is one. -/
def fullUpdate (mirror : GridMirror) : Option GridUpdate :=
  if mirror.sequence.isNone ∨ mirror.cells.length ≠ mirror.cols * mirror.rows then none
  else some {
    cols := mirror.cols
    rows := mirror.rows
    cursorCol := mirror.cursorCol
    cursorRow := mirror.cursorRow
    cursorVisible := mirror.cursorVisible
    isFullSnapshot := true
    changedRows := (List.range mirror.rows).map fun row =>
      ⟨asU16 row, rowOf mirror.cols row mirror.cells⟩ }

/-- The picture the mirror shows. -/
def view (mirror : GridMirror) : View where
  size := mirror.size
  cells := mirror.cells
  cursor := mirror.cursor
  modes := mirror.modes

end GridMirror

namespace GridMirror

abbrev Call : Type := Handler GridMirror MirrorError Unit

/-- `?` on a check. -/
def check (result : Except MirrorError Unit) : Call :=
  match result with
  | .ok () => pure ()
  | .error error => throw error

/-- The writes both calls end with. -/
def write (sequence : Nat) (grid : GridUpdate) (modes : Modes) : Call := do
  modify fun mirror => { mirror with cells := grid.apply mirror.cells }
  modify (updateMetadata grid)
  modify fun mirror => { mirror with sequence := some sequence }
  modify fun mirror => { mirror with modes := modes }

def applySnapshotCall (sequence : Nat) (grid : GridUpdate) (modes : Modes) : Call :=
  if !grid.isFullSnapshot then throw .snapshotRequired
  else do
    check (validateGrid grid)
    write sequence grid modes

def applyDeltaCall (sequence : Nat) (grid : GridUpdate) (modes : Modes) : Call := do
  let mirror ← get
  match mirror.sequence with
  | none => throw .snapshotRequired
  | some previous =>
    -- `checked_add`
    if previous + 1 > maxU64 then throw .sequenceOverflow
    else if sequence ≠ previous + 1 then throw (.sequenceGap (previous + 1) sequence)
    else if grid.isFullSnapshot ∨ grid.cols ≠ mirror.cols ∨ grid.rows ≠ mirror.rows then
      throw .snapshotRequired
    else do
      check (validateGrid grid)
      write sequence grid modes

end GridMirror

/-- An update whose size fits the fields of the source. -/
structure TypedUpdate where
  grid : GridUpdate
  cols_lt : grid.cols < 2 ^ 16
  rows_lt : grid.rows < 2 ^ 16

/-- A call a receiver may make, with whatever arguments. -/
inductive MirrorCall where
  | snapshot (sequence : UInt64) (update : TypedUpdate) (modes : Modes)
  | delta (sequence : UInt64) (update : TypedUpdate) (modes : Modes)

namespace MirrorCall

def sequence : MirrorCall → Nat
  | snapshot sequence _ _ => sequence.toNat
  | delta sequence _ _ => sequence.toNat

def update : MirrorCall → TypedUpdate
  | snapshot _ update _ => update
  | delta _ update _ => update

def modes : MirrorCall → Modes
  | snapshot _ _ modes => modes
  | delta _ _ modes => modes

def isSnapshot : MirrorCall → Bool
  | snapshot _ _ _ => true
  | delta _ _ _ => false

def handler : MirrorCall → GridMirror.Call
  | snapshot sequence update modes =>
    GridMirror.applySnapshotCall sequence.toNat update.grid modes
  | delta sequence update modes => GridMirror.applyDeltaCall sequence.toNat update.grid modes

/-- The mirror a call leaves, and what it returns. -/
def step (mirror : GridMirror) (call : MirrorCall) : GridMirror × Except MirrorError Unit :=
  (Handler.exec call.handler mirror).swap

end MirrorCall

/-- A call that was made: on what mirror, and what came of it. -/
abbrev MirrorStep : Type := Taken GridMirror MirrorCall (Except MirrorError Unit)

namespace MirrorStep

/-- The call returned `Ok`. -/
def Accepted (step : MirrorStep) : Prop := step.output = .ok ()

instance (step : MirrorStep) : Decidable step.Accepted :=
  match h : step.output with
  | .ok () => .isTrue h
  | .error error => .isFalse fun haccepted => by
      rw [Accepted, h] at haccepted
      cases haccepted

/-- The sequence of the call that was accepted last, the most recent call first. -/
def lastAccepted : List MirrorStep → Option Nat
  | [] => none
  | step :: past => if Accepted step then some step.input.sequence else lastAccepted past

end MirrorStep

end Diri
