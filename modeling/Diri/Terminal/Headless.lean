/-
What the headless screen does beside its emulator.

Progress reports (OSC 9;4) are scanned for in the raw output, as the emulator knows none.
White space is the argument of their parser, the one thing of Unicode that it asks about.

A restore from a checkpoint needs the emulator's rows: the scrollback, which a scroll pushes
rows into, and the visible ones.  What the emulator makes of the bytes that paint a snapshot
with its modes is an argument (`Paint`), as what it makes of output is in `Terminal.Screen`.
-/
import Diri.Lib.Bytes
import Diri.Terminal.Screen

namespace Diri

/-! ### Progress -/

/-- `parse::<i64>`. -/
def parseProgress (text : List Char) : Option Int :=
  let digits := if text.head? = some '+' ∨ text.head? = some '-' then text.tail else text
  let size := (digits.foldl (fun size digit => size * 10 + (digit.toNat - 48)) 0 : Nat)
  let value : Int := if text.head? = some '-' then -size else size
  if digits = [] ∨ digits.any (!·.isDigit) ∨ value < -2 ^ 63 ∨ 2 ^ 63 ≤ value then none
  else some value

/-- What a screen knows of the progress of its child. -/
structure Progress where
  state : Option Int := none
  value : Option Int := none
  /-- The end of the output so far, so that a report split across reads is recognized. -/
  carry : List UInt8 := []
  deriving DecidableEq

namespace Progress

/-- ESC ] 9 ; 4 ; -/
def reportPrefix : List UInt8 := [0x1B, 0x5D, 0x39, 0x3B, 0x34, 0x3B]

/-- BEL, or the ESC of ST. -/
def isTerminator (byte : UInt8) : Bool := byte == 0x07 || byte == 0x1B

def trim (isWhitespace : Char → Bool) (text : List Char) : List Char :=
  ((text.dropWhile isWhitespace).reverse.dropWhile isWhitespace).reverse

def report (isWhitespace : Char → Bool) (payload : List UInt8) (progress : Progress) : Progress :=
  let parts := (toStringLossy payload).toList.splitOn ';'
  let part (i : Nat) : Option Int :=
    parts[i]?.bind fun part => parseProgress (trim isWhitespace part)
  { progress with state := part 0, value := part 1 }

end Progress

/-! ### Restoring -/

def historyCellBudgetBytes : Nat := 4 * 2 ^ 20

/-- `size_of` a cell of the emulator. -/
def cellBytes : Nat := 24

/-- Scrollback is byte-budgeted. -/
def historyLineLimit (cols : Nat) : Nat :=
  max (historyCellBudgetBytes / (max cols 1 * cellBytes)) 64

/-- The emulator has no blinking cells. -/
def emulatorStyles : TermStyle := 0b11111011

def emulatorCell (cell : GridCell) : Cell where
  c := if cell.scalar ≠ 0 ∧ cell.scalar.toNat.isValidChar then Char.ofNat cell.scalar.toNat else ' '
  fg := cell.fg
  bg := cell.bg
  style := cell.style &&& emulatorStyles

@[ext] structure EmulatorGrid where
  /-- The scrollback, oldest first. -/
  history : List (List Cell)
  lines : List (List Cell)
  maxScrollLimit : Nat
  /-- What a new row is made of. -/
  template : Cell
  cursor : Nat × Nat × Bool
  altScreen : Bool
  bracketedPaste : Bool
  mouseReporting : Bool
  deriving DecidableEq

/-- `scroll_up` of all visible rows: the rows that leave the screen are pushed into the history. -/
def EmulatorGrid.scrollUp (geometry : Geometry) (count : Nat) (emulator : EmulatorGrid) : EmulatorGrid :=
  let all := emulator.history ++ emulator.lines
    ++ List.replicate count (List.replicate geometry.cols emulator.template)
  let above := all.take (all.length - geometry.rows)
  { emulator with
    history := above.drop (above.length - emulator.maxScrollLimit)
    lines := all.drop (all.length - geometry.rows) }

/-- What is painted: the rows and the cursor, and whether the alternate screen, bracketed paste
and mouse reporting are on. -/
abbrev Paint := GridUpdate → Bool → Bool → Bool → EmulatorGrid → EmulatorGrid

/-- The screen, as far as `restore` goes. -/
@[ext] structure ReplayScreen where
  emulator : EmulatorGrid
  geometry : Geometry
  lastGridCols : Nat
  lastGridRows : Nat
  deriving DecidableEq

namespace ReplayScreen

/-- What is checked before anything is touched. -/
def accepts (history : List (List GridCell)) (update : GridUpdate) (geometry : Geometry) : Bool :=
  update.isFullSnapshot && update.cols == geometry.cols && update.rows == geometry.rows &&
    update.changedRows.length == geometry.rows &&
    history.length ≤ historyLineLimit geometry.cols &&
    history.all (·.length == geometry.cols)

/-- A row that can be painted. -/
def paints (geometry : Geometry) (row : ChangedRow) : Bool :=
  row.y < geometry.rows && row.cells.length == geometry.cols

/-- The visible grid, once the scrollback is there. -/
def repaint (paint : Paint) (update : GridUpdate) (alt paste mouse : Bool) (screen : ReplayScreen) :
    Bool × ReplayScreen :=
  if update.changedRows.all (paints screen.geometry) then
    (true, { screen with
      emulator := paint update alt paste mouse screen.emulator
      lastGridCols := 0
      lastGridRows := 0 })
  else (false, screen)

def restore (paint : Paint) (history : List (List GridCell)) (update : GridUpdate)
    (alt paste mouse : Bool) (screen : ReplayScreen) : Bool × ReplayScreen :=
  if !accepts history update screen.geometry then (false, screen)
  else if history.isEmpty then screen.repaint paint update alt paste mouse
  else
    let emulator := screen.emulator.scrollUp screen.geometry history.length
    if emulator.history.length ≠ history.length then (false, { screen with emulator := emulator })
    else
      let emulator := { emulator with history := history.map (·.map emulatorCell) }
      repaint paint update alt paste mouse { screen with emulator := emulator }

end ReplayScreen

end Diri
