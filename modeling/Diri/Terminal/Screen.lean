/-
The headless screen of a session.

The emulator behind it is not modelled: what it makes of a chunk of output is an
argument (`Painted`), any grid of cells with any cursor, which the emulator keeps
inside the grid.  What the screen adds is modelled: the diff baseline, which
`gridUpdate` advances and `fullSnapshot` leaves alone, and the fingerprint that says
whether the visible content changed.
-/
import Diri.Proto.Grid

namespace Diri

/-- Fixed screen geometry handed to the emulator. -/
structure Geometry where
  cols : Nat
  rows : Nat
  deriving DecidableEq, Repr

def Geometry.new (cols rows : Nat) : Geometry := ⟨max cols 1, max rows 1⟩

/-- A cell of the emulator, its colours and style already in their wire form. -/
structure Cell where
  c : Char
  fg : TermColor
  bg : TermColor
  style : TermStyle
  deriving DecidableEq, Repr

def wireCell (cell : Cell) : GridCell where
  scalar := if cell.c = '\x00' then 32 else cell.c.val
  fg := cell.fg
  bg := cell.bg
  style := cell.style

/-- What the screen reads off the emulator. -/
structure Term where
  grid : Nat → Nat → Cell
  cursorCol : Nat
  cursorLine : Nat
  showCursor : Bool
  altScreen : Bool
  bracketedPaste : Bool
  mouseMode : Bool

/-- An emulator with one cell everywhere. -/
def Term.filled (cell : Cell) : Term where
  grid _ _ := cell
  cursorCol := 0
  cursorLine := 0
  showCursor := true
  altScreen := false
  bracketedPaste := false
  mouseMode := false

/-- The emulator keeps its cursor on its grid. -/
def Term.within (geometry : Geometry) (term : Term) : Term :=
  { term with
    cursorCol := min term.cursorCol (geometry.cols - 1)
    cursorLine := min term.cursorLine (geometry.rows - 1) }

/-- What the emulator makes of a chunk: its new state, its title, and whether it reports damage. -/
structure Painted where
  term : Term
  title : Option String
  damaged : Bool

/-- `DefaultHasher`, over the characters of the grid and the title. -/
abbrev Hasher := List Char → Option String → Nat

structure HeadlessScreen where
  term : Term
  geometry : Geometry
  title : Option String := none
  contentSeq : Nat := 0
  lastDigest : Nat := 0
  /-- Diff baseline for `gridUpdate`: the cells last handed out. -/
  lastCells : List GridCell := []
  lastGridCols : Nat := 0
  lastGridRows : Nat := 0

namespace HeadlessScreen

def new (cols rows : Nat) (term : Term) : HeadlessScreen where
  term := term.within (Geometry.new cols rows)
  geometry := Geometry.new cols rows

def digestCells (hash : Hasher) (screen : HeadlessScreen) : Nat :=
  hash (ofRows screen.geometry.rows fun row =>
    (List.range screen.geometry.cols).map fun column => (screen.term.grid row column).c)
    screen.title

/-- Feeds raw PTY output into the emulator. -/
def feed (hash : Hasher) (painted : Painted) (screen : HeadlessScreen) : HeadlessScreen :=
  let titleBefore := screen.title
  let screen := { screen with
    term := painted.term.within screen.geometry
    title := painted.title }
  if painted.damaged ∨ screen.title ≠ titleBefore then
    let digest := screen.digestCells hash
    if digest ≠ screen.lastDigest then
      { screen with
        lastDigest := digest
        contentSeq := screen.contentSeq + 1 }
    else screen
  else screen

/-- `term` is what the emulator makes of its new size. -/
def resize (cols rows : Nat) (term : Term) (screen : HeadlessScreen) : HeadlessScreen :=
  { screen with
    geometry := Geometry.new cols rows
    term := term.within (Geometry.new cols rows) }

/-- Cursor (col, row, visible) without touching cell data. -/
def cursor (screen : HeadlessScreen) : Nat × Nat × Bool :=
  (asU16 screen.term.cursorCol, asU16 screen.term.cursorLine, screen.term.showCursor)

def row (screen : HeadlessScreen) (y : Nat) : List GridCell :=
  (List.range screen.geometry.cols).map fun x => wireCell (screen.term.grid y x)

/-- One turn of the loop of `grid_update`: the baseline, and the rows to send. -/
def diffRow (forceFull : Bool) (screen : HeadlessScreen)
    (acc : List GridCell × List ChangedRow) (y : Nat) : List GridCell × List ChangedRow :=
  let row := screen.row y
  if forceFull ∨ rowOf screen.geometry.cols y acc.1 ≠ row then
    (setRow screen.geometry.cols y row acc.1, acc.2 ++ [⟨asU16 y, row⟩])
  else acc

/--
Builds a `GridUpdate` from the current screen.  When `full` is true (or the geometry
changed) every row is included and the diff baseline resets; otherwise only rows that
changed since the last call are included.
-/
def gridUpdate (full : Bool) (screen : HeadlessScreen) : GridUpdate × HeadlessScreen :=
  let cols := screen.geometry.cols
  let rows := screen.geometry.rows
  let geometryChanged := screen.lastGridCols ≠ cols ∨ screen.lastGridRows ≠ rows
  let forceFull := decide (full ∨ geometryChanged)
  let baseline :=
    if geometryChanged then List.replicate (cols * rows) .blank else screen.lastCells
  let (lastCells, changed) := (List.range rows).foldl (screen.diffRow forceFull) (baseline, [])
  ({ cols := asU16 cols
     rows := asU16 rows
     cursorCol := asU16 screen.term.cursorCol
     cursorRow := asU16 screen.term.cursorLine
     cursorVisible := screen.term.showCursor
     isFullSnapshot := forceFull
     changedRows := changed },
    { screen with
      lastCells := lastCells
      lastGridCols := cols
      lastGridRows := rows })

/-- A full-screen snapshot that does not disturb the diff baseline. -/
def fullSnapshot (screen : HeadlessScreen) : GridUpdate where
  cols := asU16 screen.geometry.cols
  rows := asU16 screen.geometry.rows
  cursorCol := asU16 screen.term.cursorCol
  cursorRow := asU16 screen.term.cursorLine
  cursorVisible := screen.term.showCursor
  isFullSnapshot := true
  changedRows := (List.range screen.geometry.rows).map fun y => ⟨asU16 y, screen.row y⟩

def cells (screen : HeadlessScreen) : List GridCell := ofRows screen.geometry.rows screen.row

end HeadlessScreen

/-! ### What a viewer sees -/

/-- `(alt_screen, bracketed_paste, mouse_reporting)`. -/
abbrev Modes := Bool × Bool × Bool

/-- A picture of a terminal, whoever holds it. -/
structure View where
  size : Nat × Nat
  cells : List GridCell
  cursor : Nat × Nat × Bool
  modes : Modes
  deriving DecidableEq, Repr

def HeadlessScreen.modes (screen : HeadlessScreen) : Modes :=
  (screen.term.altScreen, screen.term.bracketedPaste, screen.term.mouseMode)

/-- The screen itself, with its size and cursor as the emulator has them. -/
def HeadlessScreen.view (screen : HeadlessScreen) : View where
  size := (screen.geometry.cols, screen.geometry.rows)
  cells := screen.cells
  cursor := (screen.term.cursorCol, screen.term.cursorLine, screen.term.showCursor)
  modes := screen.modes

end Diri
