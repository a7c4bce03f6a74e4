/-
Find in a terminal: its matches, and where they are drawn.

A search reads a text snapshot of the history, whose rows have absolute numbers, and the
live grid.  The model keeps the matches and where the live grid started in that snapshot;
`visibleSpans` places them in the window by that start and the viewport's offset.

How a character folds to lower case is an argument, a table of Unicode in the source.
Queries and lines are lists of characters; times are nanoseconds.
-/
import Diri.Term.Buffer
import Diri.Term.Scrollback

namespace Diri

def maxDuration : Nat := (2 ^ 64 - 1) * 10 ^ 9 + 999999999

def searchDebounce : Nat := 200 * 10 ^ 6

def outputRescanDelay : Nat := 100 * 10 ^ 6

def matchCap : Nat := 500

structure FindMatch where
  absoluteRow : Int64
  startCol : Nat
  endColExclusive : Nat
  text : List Char
  deriving DecidableEq, Repr

structure FindSpan where
  row : Nat
  startCol : Nat
  endColExclusive : Nat
  isCurrent : Bool
  deriving DecidableEq, Repr

structure FindSnapshot where
  lines : List (List Char)
  firstRow : Int64
  visibleStartRow : Int64
  cols : Int64
  rows : Int64
  contentSeq : UInt64
  isAltScreen : Bool
  deriving DecidableEq, Repr

structure SearchRequest where
  query : List Char
  isRescan : Bool
  generation : UInt64
  deriving DecidableEq, Repr

inductive NavigationTarget where
  | live
  | history (absoluteRow : Int64)
  deriving DecidableEq, Repr

/-! ### Matches -/

/-- How a character is folded. -/
abbrev Lowercase : Type := Char → List Char

def charsEqualCi (lower : Lowercase) (haystack needle : List Char) : Bool :=
  (haystack.zip needle).all fun (left, right) => left = right || lower left = lower right

def columnFor (index : Nat) (columns : Option (List Nat)) : Nat :=
  match columns with
  | none => index
  | some columns =>
    (columns[index]? <|> columns.getLast?.map (· + 1)).getD index

/-- The matches of one line from `index` on, which do not overlap, until there are enough. -/
def matchesFrom (lower : Lowercase) (line : List Char) (columns : Option (List Nat))
    (absoluteRow : Int64) (needle : List Char) :
    (fuel index : Nat) → List FindMatch → List FindMatch
  | 0, _, output => output
  | fuel + 1, index, output =>
    if index + needle.length ≤ line.length ∧ output.length < matchCap then
      if charsEqualCi lower ((line.drop index).take needle.length) needle then
        let found : FindMatch :=
          ⟨absoluteRow, columnFor index columns, columnFor (index + needle.length) columns, line⟩
        matchesFrom lower line columns absoluteRow needle fuel (index + needle.length)
          (output ++ [found])
      else matchesFrom lower line columns absoluteRow needle fuel (index + 1) output
    else output

def appendMatches (lower : Lowercase) (line : List Char) (columns : Option (List Nat))
    (absoluteRow : Int64) (needle : List Char) (output : List FindMatch) : List FindMatch :=
  if line.length < needle.length then output
  else matchesFrom lower line columns absoluteRow needle (line.length + 1) 0 output

/-- The matches of the history; `inr` once there are as many as are kept. -/
def historyMatches (lower : Lowercase) (snapshot : FindSnapshot) (needle : List Char) :
    (index : Nat) → List (List Char) → List FindMatch → List FindMatch ⊕ List FindMatch
  | _, [], output => .inl output
  | index, line :: rest, output =>
    let absoluteRow := I64.saturatingAdd snapshot.firstRow (I64.fromUsize index)
    if absoluteRow ≥ snapshot.visibleStartRow then
      historyMatches lower snapshot needle (index + 1) rest output
    else
      let output := appendMatches lower line none absoluteRow needle output
      if output.length ≥ matchCap then .inr (output.take matchCap)
      else historyMatches lower snapshot needle (index + 1) rest output

/-- The matches of the live grid; `inr` once there are as many as are kept. -/
def liveMatches (lower : Lowercase) (snapshot : FindSnapshot) (needle : List Char)
    (live : GridBuffer) : List Nat → List FindMatch → List FindMatch ⊕ List FindMatch
  | [], output => .inl output
  | row :: rest, output =>
    match live.rowTextWithColumns row with
    | none => liveMatches lower snapshot needle live rest output
    | some (line, columns) =>
      let absoluteRow := I64.saturatingAdd snapshot.visibleStartRow (I64.fromUsize row)
      let output := appendMatches lower line (some columns) absoluteRow needle output
      if output.length ≥ matchCap then .inr (output.take matchCap)
      else liveMatches lower snapshot needle live rest output

/-- The order of `(absolute_row, start_col)`. -/
def FindMatch.before (a b : FindMatch) : Bool :=
  a.absoluteRow < b.absoluteRow || (a.absoluteRow = b.absoluteRow && a.startCol ≤ b.startCol)

/-- `usize::try_from(rows.max(0))`. -/
def rowCountOf (rows : Int64) : Nat := rows.toInt.toNat

def buildMatches (lower : Lowercase) (query : List Char) (snapshot : FindSnapshot)
    (live : GridBuffer) : List FindMatch :=
  if query.isEmpty then []
  else
    let history :=
      if snapshot.isAltScreen then .inl []
      else historyMatches lower snapshot query 0 snapshot.lines []
    match history with
    | .inr output => output
    | .inl output =>
      let liveRows := min (rowCountOf snapshot.rows) live.rows
      match liveMatches lower snapshot query live (List.range liveRows) output with
      | .inr output => output
      | .inl output => (output.mergeSort FindMatch.before).take matchCap

/-! ### The model -/

structure TerminalFindModel where
  query : List Char := []
  found : List FindMatch := []
  currentIndex : Nat := 0
  isAltScreen : Bool := false
  cachedVisibleStartRow : Option Int64 := none
  cachedRows : Nat := 0
  cachedContentSeq : Option UInt64 := none
  cachedCols : Option Int64 := none
  generation : UInt64 := 0
  searchDue : Option Nat := none
  rescanDue : Option Nat := none
  deriving DecidableEq, Repr

namespace TerminalFindModel

def setQuery (query : List Char) (now : Nat) (model : TerminalFindModel) : TerminalFindModel :=
  if query = model.query then model
  else
    let model := { model with
      query := query, generation := model.generation + 1, rescanDue := none }
    if query.isEmpty then { model with found := [], currentIndex := 0, searchDue := none }
    else { model with searchDue := some (min (now + searchDebounce) maxDuration) }

def onOutput (now : Nat) (model : TerminalFindModel) : TerminalFindModel × Bool :=
  if model.query.isEmpty ∨ model.rescanDue.isSome then (model, false)
  else ({ model with rescanDue := some (min (now + outputRescanDelay) maxDuration) }, true)

def takeDueSearch (now : Nat) (model : TerminalFindModel) :
    TerminalFindModel × Option SearchRequest :=
  if model.searchDue.any (· ≤ now) then
    ({ model with searchDue := none }, some ⟨model.query, false, model.generation⟩)
  else if model.rescanDue.any (· ≤ now) then
    ({ model with rescanDue := none }, some ⟨model.query, true, model.generation⟩)
  else (model, none)

/-- Takes the matches of a snapshot, unless the request is stale. -/
def applySnapshot (lower : Lowercase) (request : SearchRequest) (snapshot : FindSnapshot)
    (live : GridBuffer) (model : TerminalFindModel) (viewport : ScrollbackViewport) :
    TerminalFindModel × ScrollbackViewport × Bool :=
  if request.generation ≠ model.generation ∨ request.query ≠ model.query then
    (model, viewport, false)
  else
    let sequenceChanged := model.cachedContentSeq ≠ some snapshot.contentSeq ∨
      model.cachedCols ≠ some snapshot.cols
    let found := buildMatches lower request.query snapshot live
    let cachedRows := rowCountOf snapshot.rows
    let viewport := viewport.applyGeometry snapshot.visibleStartRow
      (if snapshot.visibleStartRow < 0 then 0 else snapshot.visibleStartRow) snapshot.contentSeq
      cachedRows
    let currentIndex :=
      if request.isRescan ∧ ¬sequenceChanged then min model.currentIndex (found.length - 1)
      else
        let windowTop := I64.saturatingSub snapshot.visibleStartRow viewport.viewOffset
        (found.findIdx? fun item => item.absoluteRow ≥ windowTop).getD 0
    ({ model with
        found := found
        isAltScreen := snapshot.isAltScreen
        cachedVisibleStartRow := some snapshot.visibleStartRow
        cachedRows := cachedRows
        cachedContentSeq := some snapshot.contentSeq
        cachedCols := some snapshot.cols
        currentIndex := currentIndex }, viewport, true)

/-- Where a match is drawn, if it is in the window that starts at `windowTop`. -/
def spanAt (windowTop : Int64) (model : TerminalFindModel) (item : FindMatch) (index : Nat) :
    Option FindSpan :=
  match I64.checkedSub item.absoluteRow windowTop with
  | none => none
  | some row =>
    -- `usize::try_from`
    if row < 0 then none
    else if row.toInt.toNat < model.cachedRows then
      some ⟨row.toInt.toNat, item.startCol, item.endColExclusive, index = model.currentIndex⟩
    else none

/-- The span of one match, by the start of the live grid that the model has kept. -/
def spanOf (viewport : ScrollbackViewport) (model : TerminalFindModel) (item : FindMatch)
    (index : Nat) : Option FindSpan :=
  match model.cachedVisibleStartRow with
  | none => none
  | some start => model.spanAt (I64.saturatingSub start viewport.viewOffset) item index

def visibleSpans (viewport : ScrollbackViewport) (model : TerminalFindModel) : List FindSpan :=
  model.found.zipIdx.filterMap fun (item, index) => model.spanOf viewport item index

/-- One match forward, or back when `forward` is false; indices are `usize` and wrap. -/
def advance (forward : Bool) (windowRow : Int64) (model : TerminalFindModel)
    (viewport : ScrollbackViewport) :
    TerminalFindModel × ScrollbackViewport × Option NavigationTarget :=
  if model.found.isEmpty then (model, viewport, none)
  else
    let direction := if forward then 1 else 2 ^ 64 - 1
    let currentIndex := (model.currentIndex + direction) % 2 ^ 64 % model.found.length
    let model := { model with currentIndex := currentIndex }
    match model.found[currentIndex]?, model.cachedVisibleStartRow with
    | some item, some visibleStart =>
      if item.absoluteRow ≥ visibleStart then
        (model, viewport.scrollToLive model.cachedRows, some .live)
      else
        (model, viewport.scrollToAbsolute item.absoluteRow windowRow model.cachedRows,
          some (.history item.absoluteRow))
    | _, _ => (model, viewport, none)

end TerminalFindModel

/-! ### The model and its viewport -/

structure FindView where
  model : TerminalFindModel := {}
  viewport : ScrollbackViewport := {}
  deriving DecidableEq, Repr

inductive FindCall where
  | setQuery (query : List Char) (now : Nat)
  | onOutput (now : Nat)
  | takeDueSearch (now : Nat)
  | applySnapshot (request : SearchRequest) (snapshot : FindSnapshot) (live : GridBuffer)
  /-- `next` and `previous`; where they place a row of the history is floating point. -/
  | advance (forward : Bool) (windowRow : Int64)
  | onViewport (call : ViewportCall)
  deriving DecidableEq, Repr

namespace FindCall

def apply (lower : Lowercase) (view : FindView) : FindCall → FindView
  | setQuery query now => { view with model := view.model.setQuery query now }
  | onOutput now => { view with model := (view.model.onOutput now).1 }
  | takeDueSearch now => { view with model := (view.model.takeDueSearch now).1 }
  | applySnapshot request snapshot live =>
    let (model, viewport, _) := view.model.applySnapshot lower request snapshot live view.viewport
    ⟨model, viewport⟩
  | advance forward windowRow =>
    let (model, viewport, _) := view.model.advance forward windowRow view.viewport
    ⟨model, viewport⟩
  | onViewport call => { view with viewport := call.apply view.viewport }

def step (lower : Lowercase) (view : FindView) (call : FindCall) : FindView × Unit :=
  (call.apply lower view, ())

end FindCall

end Diri
