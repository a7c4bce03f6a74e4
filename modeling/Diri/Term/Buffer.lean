/-
The client's copy of a terminal grid, and what of it a frame has to draw again.

Every `apply` that changes something takes a new generation and stamps it on the rows it
dirtied.  A renderer keeps the generation of each row it has drawn, and `snapshotDamage`
hands it the rows whose generation is another one.  Generations are `u64` and wrap.

`Renderer` is a buffer with such a renderer beside it: the list of generations it knows,
and its rows, which it resizes and patches as the snapshots say.
-/
import Diri.Lib.Run
import Diri.Proto.Grid

namespace Diri

structure CursorState where
  col : Nat := 0
  row : Nat := 0
  visible : Bool := false
  deriving DecidableEq, Repr

/-- A compact summary of damage caused by applying a grid update. -/
structure ApplySummary where
  changed : Bool
  sizeChanged : Bool
  cursorChanged : Bool
  dirtyRowCount : Nat
  generation : UInt64
  deriving DecidableEq, Repr

structure ChangedRenderRow where
  row : Nat
  generation : UInt64
  cells : List GridCell
  deriving DecidableEq, Repr

structure RenderDamageSnapshot where
  cols : Nat
  rows : Nat
  cursor : CursorState
  changedRows : List ChangedRenderRow
  deriving DecidableEq, Repr

/-- Row-major terminal cells plus damage and cursor bookkeeping. -/
structure GridBuffer where
  cols : Nat := 0
  rows : Nat := 0
  cells : List GridCell := []
  cursor : CursorState := {}
  generation : UInt64 := 0
  rowGenerations : List UInt64 := []
  dirtyRows : List Bool := []
  deriving DecidableEq, Repr

namespace GridBuffer

def new (cols rows : Nat) : GridBuffer where
  cols := cols
  rows := rows
  cells := List.replicate (cols * rows) .blank
  rowGenerations := List.replicate rows 0
  dirtyRows := List.replicate rows true

def row (row : Nat) (buffer : GridBuffer) : Option (List GridCell) :=
  if row ≥ buffer.rows then none else some (rowOf buffer.cols row buffer.cells)

/-- The character of a cell, a space for what is none or breaks the line. -/
def charOf (scalar : UInt32) : Char :=
  if h : scalar.isValidChar then
    let c : Char := ⟨scalar, h⟩
    if c = '\n' ∨ c = '\r' then ' ' else c
  else ' '

/-- Plain text, each character with the column of its cell; continuation cells have none. -/
def textWithColumns (column : Nat) : List GridCell → List (Char × Nat)
  | [] => []
  | cell :: rest =>
    if cell.scalar = 0 then textWithColumns (column + 1) rest
    else (charOf cell.scalar, column) :: textWithColumns (column + 1) rest

def rowTextWithColumns (row : Nat) (buffer : GridBuffer) : Option (List Char × List Nat) :=
  (buffer.row row).map fun cells =>
    let text := textWithColumns 0 cells
    (text.map (·.1), text.map (·.2))

/-! ### Applying an update -/

/-- The storage a full snapshot, or an update of another size, starts from. -/
def reseed (update : GridUpdate) (buffer : GridBuffer) : GridBuffer :=
  { buffer with
    cols := update.cols
    rows := update.rows
    cells := List.replicate (update.cols * update.rows) .blank
    rowGenerations := buffer.rowGenerations.takeD update.rows 0
    dirtyRows := List.replicate update.rows true }

/-- The storage any other update starts from: damage belongs to one update. -/
def undirty (update : GridUpdate) (buffer : GridBuffer) : GridBuffer :=
  if buffer.dirtyRows.length ≠ update.rows then
    { buffer with
      dirtyRows := (List.replicate buffer.dirtyRows.length false).takeD update.rows false
      rowGenerations := buffer.rowGenerations.takeD update.rows 0 }
  else { buffer with dirtyRows := List.replicate buffer.dirtyRows.length false }

/-- Whether a row padded with blanks, or cut, is not the row that is there. -/
def differs (cols : Nat) (target cells : List GridCell) : Bool :=
  let copied := min cells.length cols
  target.take copied != cells.take copied || (target.drop copied).any (· != .blank)

/-- One changed row; `changed` is whether anything has changed so far. -/
def patchRow (cols rows : Nat) : GridBuffer × Bool → ChangedRow → GridBuffer × Bool
  | (buffer, changed), changedRow =>
    if changedRow.y ≥ rows then (buffer, changed)
    else if differs cols (rowOf cols changedRow.y buffer.cells) changedRow.cells then
      ({ buffer with
          cells := setRow cols changedRow.y (GridUpdate.fitRow cols changedRow.cells) buffer.cells
          dirtyRows := buffer.dirtyRows.set changedRow.y true }, true)
    else (buffer, changed)

def markDirtyRow (row : Nat) (buffer : GridBuffer) : GridBuffer :=
  { buffer with dirtyRows := buffer.dirtyRows.set row true }

/-- The rows the cursor leaves and enters are damage too. -/
def moveCursor (cursor : CursorState) (buffer : GridBuffer) : GridBuffer :=
  { (buffer.markDirtyRow buffer.cursor.row).markDirtyRow cursor.row with cursor := cursor }

/-- The generation on every dirty row. -/
def stamp (generation : UInt64) : List Bool → List UInt64 → List UInt64
  | dirty :: dirtyRows, known :: generations =>
    (if dirty then generation else known) :: stamp generation dirtyRows generations
  | _, generations => generations

/-- `wrapping_add(1)`, and the dirty rows of the new generation. -/
def advanceGeneration (buffer : GridBuffer) : GridBuffer :=
  { buffer with
    generation := buffer.generation + 1
    rowGenerations := stamp (buffer.generation + 1) buffer.dirtyRows buffer.rowGenerations }

/-- Applies a full snapshot or patches rows from a diff. -/
def apply (update : GridUpdate) (buffer : GridBuffer) : GridBuffer × ApplySummary :=
  let sizeChanged := buffer.cols != update.cols || buffer.rows != update.rows
  let replace := update.isFullSnapshot || sizeChanged
  let seeded := if replace then buffer.reseed update else buffer.undirty update
  let (patched, rowsChanged) :=
    update.changedRows.foldl (patchRow update.cols update.rows) (seeded, replace)
  let cursor : CursorState := ⟨update.cursorCol, update.cursorRow, update.cursorVisible⟩
  let cursorChanged := patched.cursor != cursor
  let moved := if cursorChanged then patched.moveCursor cursor else patched
  let changed := rowsChanged || cursorChanged
  let buffer := if changed then moved.advanceGeneration else moved
  (buffer,
    { changed := changed
      sizeChanged := sizeChanged
      cursorChanged := cursorChanged
      dirtyRowCount := buffer.dirtyRows.countP id
      generation := buffer.generation })

/-! ### Drawing -/

/-- The loop of `snapshot_damage` from row `row` on: the generations known afterwards. -/
def damageFrom (buffer : GridBuffer) (colCount : Nat) (force : Bool) (row : Nat) :
    List UInt64 → List UInt64 × List ChangedRenderRow
  | [] => ([], [])
  | known :: rest =>
    let generation := buffer.rowGenerations.getD row 0
    let (knownRest, changedRest) := damageFrom buffer colCount force (row + 1) rest
    if force || known != generation then
      let cells := match buffer.row row with
        | none => []
        | some cells => cells.take colCount
      (generation :: knownRest, ⟨row, generation, cells⟩ :: changedRest)
    else (known :: knownRest, changedRest)

/-- The rows whose generation is not the known one, and the generations known from here on. -/
def snapshotDamage (knownGenerations : List UInt64) (visibleRows visibleCols : Nat) (force : Bool)
    (buffer : GridBuffer) : List UInt64 × RenderDamageSnapshot :=
  let rowCount := min visibleRows buffer.rows
  let colCount := min visibleCols buffer.cols
  -- `u64::MAX` for a row that is new to the renderer
  let (known, changedRows) :=
    buffer.damageFrom colCount force 0 (knownGenerations.takeD rowCount (.ofNat (2 ^ 64 - 1)))
  (known, ⟨buffer.cols, buffer.rows, buffer.cursor, changedRows⟩)

/-- What a full drawing of the buffer shows. -/
def fullRows (visibleRows visibleCols : Nat) (buffer : GridBuffer) :
    List (Option (List GridCell)) :=
  (List.range (min visibleRows buffer.rows)).map fun y =>
    (buffer.row y).map (·.take visibleCols)

end GridBuffer

/-! ### A renderer beside the buffer -/

/-- A renderer's rows, resized and then patched; a row that was never drawn is `none`. -/
def patchRows (rowCount : Nat) (changedRows : List ChangedRenderRow)
    (rows : List (Option (List GridCell))) : List (Option (List GridCell)) :=
  changedRows.foldl (fun rows changed => rows.set changed.row (some changed.cells))
    (rows.takeD rowCount none)

structure Renderer where
  buffer : GridBuffer
  known : List UInt64
  rows : List (Option (List GridCell))

inductive RenderCall where
  | apply (update : GridUpdate)
  | draw (visibleRows visibleCols : Nat) (force : Bool)
  deriving DecidableEq, Repr

namespace Renderer

def draw (visibleRows visibleCols : Nat) (force : Bool) (renderer : Renderer) : Renderer :=
  let (known, snapshot) :=
    renderer.buffer.snapshotDamage renderer.known visibleRows visibleCols force
  { renderer with
    known := known
    rows := patchRows (min visibleRows snapshot.rows) snapshot.changedRows renderer.rows }

/-- One call, and the summary an `apply` returns. -/
def step (renderer : Renderer) : RenderCall → Renderer × Option ApplySummary
  | .apply update =>
    let (buffer, summary) := renderer.buffer.apply update
    ({ renderer with buffer := buffer }, some summary)
  | .draw visibleRows visibleCols force => (renderer.draw visibleRows visibleCols force, none)

end Renderer

abbrev RenderStep : Type := Taken Renderer RenderCall (Option ApplySummary)

namespace RenderStep

/-- The width of the drawing before, most recent call first. -/
def lastCols : List RenderStep → Option Nat
  | [] => none
  | step :: past =>
    match step.input with
    | .apply _ => lastCols past
    | .draw _ visibleCols _ => some visibleCols

/-- Every drawing that is the first, or of another width than the one before, is forced. -/
def Forced : List RenderStep → Prop
  | [] => True
  | step :: past =>
    (match step.input with
      | .apply _ => True
      | .draw _ visibleCols force => lastCols past = some visibleCols ∨ force = true) ∧
    Forced past

/-- How many updates changed the buffer. -/
def changes (past : List RenderStep) : Nat :=
  past.countP fun step => step.output.any (·.changed)

end RenderStep

end Diri
