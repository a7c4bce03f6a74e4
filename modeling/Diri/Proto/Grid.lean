/-
Terminal grids and their updates.

A `GridUpdate` is a full snapshot or the rows that changed, and `GridUpdate.apply` is
what every receiver does with one.  The fields are `u16` in the source; here they are
natural numbers, and `asU16` stands where the source casts down to them.

Of the codec only the sizes are kept here: whether a row encodes, and into how many
bytes.  The bytes themselves are in `Proto.GridCodec`.
-/
import Diri.Lib.Rows
import Mathlib.Algebra.Order.Ring.Nat

namespace Diri

/-- `as u16`. -/
def asU16 (n : Nat) : Nat := n % 2 ^ 16

inductive TermColor where
  | default
  | defaultInverted
  | ansi (index : UInt8)
  | rgb (r g b : UInt8)
  deriving DecidableEq, Repr

/-- A style's bits, in the order of `CharacterStyle`. -/
abbrev TermStyle := UInt16

structure GridCell where
  /-- Unicode scalar value; zero is rendered as blank by the client. -/
  scalar : UInt32
  fg : TermColor
  bg : TermColor
  style : TermStyle
  deriving DecidableEq, Repr

def GridCell.blank : GridCell := ⟨32, .default, .defaultInverted, 0⟩

structure ChangedRow where
  y : Nat
  cells : List GridCell
  deriving DecidableEq, Repr

/-- Grid geometry, cursor state, and either a full snapshot or changed rows. -/
structure GridUpdate where
  cols : Nat
  rows : Nat
  cursorCol : Nat
  cursorRow : Nat
  cursorVisible : Bool
  isFullSnapshot : Bool
  changedRows : List ChangedRow
  deriving DecidableEq, Repr

namespace GridUpdate

/-- A row padded with blanks, or cut, to the width of the grid. -/
def fitRow (cols : Nat) (cells : List GridCell) : List GridCell :=
  let copied := min cells.length cols
  cells.take copied ++ List.replicate (cols - copied) .blank

def applyRow (cols rows : Nat) (buffer : List GridCell) (changed : ChangedRow) : List GridCell :=
  if changed.y ≥ rows then buffer
  else setRow cols changed.y (fitRow cols changed.cells) buffer

/-- Applies the update to a row-major cell buffer. -/
def apply (update : GridUpdate) (buffer : List GridCell) : List GridCell :=
  let cellCount := update.cols * update.rows
  let buffer :=
    if update.isFullSnapshot ∨ buffer.length ≠ cellCount then List.replicate cellCount .blank
    else buffer
  update.changedRows.foldl (applyRow update.cols update.rows) buffer

end GridUpdate

/-! ### Encoded sizes -/

inductive GridCodecError where
  | unexpectedEnd (offset needed remaining : Nat)
  | tooManyRows (count : Nat)
  | tooManyCells (count : Nat)
  | decodedRowTooLong (count : Nat)
  deriving DecidableEq, Repr

namespace GridRowCodec

/-- The runs of a row from a cell on that was seen `repeated` times; a run counts in a `u16`. -/
def countRuns (cell : GridCell) (repeated : Nat) : List GridCell → Nat
  | [] => 1
  | next :: rest =>
    if next = cell ∧ repeated < 2 ^ 16 - 1 then countRuns cell (repeated + 1) rest
    else 1 + countRuns next 1 rest

/-- How many runs `append_row` writes. -/
def runCount : List GridCell → Nat
  | [] => 0
  | cell :: rest => countRuns cell 1 rest

theorem countRuns_le (cell : GridCell) (repeated : Nat) (cells : List GridCell) :
    countRuns cell repeated cells ≤ cells.length + 1 := by
  induction cells generalizing cell repeated with
  | nil => simp [countRuns]
  | cons next rest ih =>
    rw [countRuns, List.length_cons]
    split
    · exact Nat.le_succ_of_le (ih cell (repeated + 1))
    · have hrest := ih next 1
      omega

theorem runCount_le (cells : List GridCell) : runCount cells ≤ cells.length := by
  cases cells with
  | nil => exact Nat.le_refl 0
  | cons cell rest => exact countRuns_le cell 1 rest

/-- How many bytes `append_row` adds: the run count, and 16 bytes for each run. -/
def rowBytes (cells : List GridCell) : Except GridCodecError Nat :=
  if cells.length > 2 ^ 16 - 1 then .error (.tooManyCells cells.length)
  else .ok (2 + 16 * runCount cells)

end GridRowCodec

namespace GridUpdate

/-- The bytes of the listed rows, each after its `y`. -/
def rowsBytes : List ChangedRow → Except GridCodecError Nat
  | [] => .ok 0
  | row :: rest => do
      let bytes ← GridRowCodec.rowBytes row.cells
      let more ← rowsBytes rest
      return 2 + bytes + more

/-- How many bytes `encode` writes: eleven of header, then the rows. -/
def encodedBytes (update : GridUpdate) : Except GridCodecError Nat :=
  if update.changedRows.length > 2 ^ 16 - 1 then .error (.tooManyRows update.changedRows.length)
  else do
    let bytes ← rowsBytes update.changedRows
    return 11 + bytes

end GridUpdate

end Diri
