/-
A selection in a terminal, over the composed window of history and live grid.

Its two ends are absolute rows, which are meant not to change when the view scrolls.  The
text of a selection is read from the rows that have these numbers now, and its spans are
where they stand in the window.

A slice that goes past the end of a row is a panic, and `none` here.  Whether a character
is alphanumeric or white space is for the Unicode tables to say, and a parameter.
-/
import Diri.Term.Buffer
import Diri.Term.Scrollback
import Mathlib.Data.List.DropRight

namespace Diri

/-! ### The rows of a window -/

namespace ScrollbackViewport

def normalizedRow (source : List GridCell) (cols : Nat) : List GridCell :=
  GridUpdate.fitRow cols source

def rowAtAbsolute (buffer : GridBuffer) (absoluteRow : Int64) (viewport : ScrollbackViewport) :
    List GridCell :=
  let source :=
    if absoluteRow ≥ viewport.liveStartRow then
      let row := absoluteRow - viewport.liveStartRow
      -- a difference that has wrapped is no `usize`
      if row < 0 then none else buffer.row row.toInt.toNat
    else viewport.cache.get? absoluteRow
  normalizedRow (source.getD []) buffer.cols

def windowRow (buffer : GridBuffer) (windowRow : Nat) (viewport : ScrollbackViewport) :
    List GridCell :=
  if viewport.viewOffset = 0 then normalizedRow ((buffer.row windowRow).getD []) buffer.cols
  else viewport.rowAtAbsolute buffer (viewport.absoluteRow windowRow)

def compose (buffer : GridBuffer) (visibleRows : Nat) (viewport : ScrollbackViewport) :
    List (List GridCell) :=
  (List.range visibleRows).map fun row => viewport.windowRow buffer row

end ScrollbackViewport

/-! ### Selections -/

structure SelectionPoint where
  row : Int64
  col : Nat
  deriving DecidableEq, Repr

/-- In reading order. -/
def SelectionPoint.le (a b : SelectionPoint) : Bool :=
  a.row < b.row || (a.row = b.row && a.col ≤ b.col)

structure SelectionRange where
  start : SelectionPoint
  /-- Reading-order exclusive endpoint. -/
  stop : SelectionPoint
  deriving DecidableEq, Repr

structure SelectionSpan where
  row : Nat
  startCol : Nat
  endColExclusive : Nat
  deriving DecidableEq, Repr

inductive WordClass where
  | word
  | whitespace
  | punctuation
  deriving DecidableEq, Repr

def cellChar (cell : GridCell) : Char :=
  if cell.scalar = 0 then ' ' else GridBuffer.charOf cell.scalar

def wordClass (isAlphanumeric isWhitespace : Char → Bool) (cell : GridCell) : WordClass :=
  let ch := cellChar cell
  if isAlphanumeric ch || ch = '_' then .word
  else if isWhitespace ch then .whitespace
  else .punctuation

/-- The columns of a row that a range covers, from the first to before the second. -/
def columnsForRow (range : SelectionRange) (row : Int64) (cols : Nat) : Nat × Nat :=
  let start := if row = range.start.row then range.start.col else 0
  let stop := if row = range.stop.row then range.stop.col else cols
  (min start cols, min stop cols)

/-- The rows `first..=last`. -/
def rowsThrough (first last : Int64) : List Int64 :=
  (List.range (last.toInt + 1 - first.toInt).toNat).map fun index : Nat =>
    .ofInt (first.toInt + index)

/-- `&row[start..stop]`. -/
def sliceOf (start stop : Nat) (row : List GridCell) : Option (List GridCell) :=
  if start ≤ stop ∧ stop ≤ row.length then some ((row.take stop).drop start) else none

structure TerminalSelection where
  anchor : Option SelectionPoint := none
  head : Option SelectionPoint := none
  deriving DecidableEq, Repr

namespace TerminalSelection

def clear (_ : TerminalSelection) : TerminalSelection := {}

def begin (point : SelectionPoint) (_ : TerminalSelection) : TerminalSelection :=
  ⟨some point, some point⟩

def dragTo (point : SelectionPoint) (selection : TerminalSelection) : TerminalSelection :=
  if selection.anchor.isSome then { selection with head := some point } else selection

def setFromWindow (viewport : ScrollbackViewport) (anchorCol anchorRow headCol headRow : Nat)
    (_ : TerminalSelection) : TerminalSelection :=
  ⟨some ⟨viewport.absoluteRow anchorRow, anchorCol⟩, some ⟨viewport.absoluteRow headRow, headCol⟩⟩

/-- How far left of a column the cells are of the same class. -/
def wordStart (classOf : Nat → WordClass) (wanted : WordClass) : (col : Nat) → Nat
  | 0 => 0
  | col + 1 => if classOf col = wanted then wordStart classOf wanted col else col + 1

/-- How far right of a column they are, with `room` columns left in the row. -/
def wordEnd (classOf : Nat → WordClass) (wanted : WordClass) (col : Nat) : (room : Nat) → Nat
  | 0 => col
  | room + 1 =>
    if classOf col = wanted then wordEnd classOf wanted (col + 1) room else col

/-- A double click takes the run of word, white space or punctuation it is on. -/
def selectWord (isAlphanumeric isWhitespace : Char → Bool) (viewport : ScrollbackViewport)
    (buffer : GridBuffer) (windowRow col : Nat) (selection : TerminalSelection) :
    TerminalSelection :=
  let row := viewport.windowRow buffer windowRow
  if row.isEmpty then selection.clear
  else
    let col := min col (row.length - 1)
    let classOf := fun col => wordClass isAlphanumeric isWhitespace (row.getD col .blank)
    let start := wordStart classOf (classOf col) col
    let stop := wordEnd classOf (classOf col) (col + 1) (row.length - (col + 1))
    let absoluteRow := viewport.absoluteRow windowRow
    ⟨some ⟨absoluteRow, start⟩, some ⟨absoluteRow, stop⟩⟩

def range (selection : TerminalSelection) : Option SelectionRange :=
  match selection.anchor, selection.head with
  | some anchor, some head =>
    if anchor = head then none
    else if anchor.le head then some ⟨anchor, head⟩
    else some ⟨head, anchor⟩
  | _, _ => none

/-- The span of a row, if the range covers any of it and it is not above the window. -/
def spanOfRow (range : SelectionRange) (windowTop : Int64) (cols : Nat) (absoluteRow : Int64) :
    Option SelectionSpan :=
  let columns := columnsForRow range absoluteRow cols
  let row := absoluteRow - windowTop
  if columns.1 < columns.2 ∧ 0 ≤ row then some ⟨row.toInt.toNat, columns.1, columns.2⟩ else none

def visibleSpans (viewport : ScrollbackViewport) (visibleRows cols : Nat)
    (selection : TerminalSelection) : List SelectionSpan :=
  match selection.range with
  | none => []
  | some range =>
    if cols = 0 then []
    else
      let windowTop := viewport.absoluteRow 0
      let windowBottom := I64.saturatingAdd windowTop (I64.fromUsize visibleRows)
      let lastVisible := I64.saturatingSub windowBottom 1
      let first := if range.start.row < windowTop then windowTop else range.start.row
      let last := if lastVisible < range.stop.row then lastVisible else range.stop.row
      if first > last then []
      else (rowsThrough first last).filterMap (spanOfRow range windowTop cols)

/-- What a row adds to the text: its covered cells, without the blanks at their end. -/
def lineOf (range : SelectionRange) (viewport : ScrollbackViewport) (buffer : GridBuffer)
    (absoluteRow : Int64) : Option (List Char) :=
  let columns := columnsForRow range absoluteRow buffer.cols
  if columns.1 ≥ columns.2 then some []
  else do
    let cells ← sliceOf columns.1 columns.2 (viewport.rowAtAbsolute buffer absoluteRow)
    some ((cells.map cellChar).rdropWhile (· = ' '))

/-- The selected cells for the clipboard, a line for each row. -/
def selectedText (viewport : ScrollbackViewport) (buffer : GridBuffer)
    (selection : TerminalSelection) : Option (List Char) :=
  match selection.range with
  | none => some []
  | some range => do
      let lines ← (rowsThrough range.start.row range.stop.row).mapM (lineOf range viewport buffer)
      some (['\n'].intercalate lines)

end TerminalSelection

end Diri
