/-
The scrolled view of a client's terminal.

Rows are named by absolute, scroll-invariant numbers; the live grid starts at
`liveStartRow`, and the window shows the rows from `liveStartRow - viewOffset` on.  While
it is scrolled back, the view is pinned to the absolute row at its top (`anchor`), and
`viewOffset` grows as output moves the live edge away.

The cache of fetched rows is a list in the order of its keys.  Where `scroll_to_absolute`
puts the row in the window is floating point in the source, and an argument here.
-/
import Diri.Lib.Run
import Diri.Lib.Saturating
import Diri.Proto.GridCodec

namespace Diri

def maxScrollbackCacheRows : Nat := 512

/-- A `Range<i64>`. -/
structure RowRange where
  start : Int64
  stop : Int64
  deriving DecidableEq, Repr

structure ScrollbackRequest where
  firstRow : Int64
  maxRows : Int64
  deriving DecidableEq, Repr

inductive ScrollbackApplyError where
  | negativeRowCount (count : Int64)
  | rowCountMismatch (declared decoded : Nat)
  | codec (error : GridCodecError)
  deriving DecidableEq, Repr

structure ReadScrollbackCellsResult where
  payload : List UInt8
  firstRow : Int64
  rowCount : Int64
  totalRows : Int64
  liveStartRow : Int64
  contentSeq : UInt64
  deriving DecidableEq, Repr

def mergeRange (target : Option RowRange) (incoming : RowRange) : Option RowRange :=
  if incoming.start ≥ incoming.stop then target
  else match target with
    | some existing =>
      some {
        start := if incoming.start < existing.start then incoming.start else existing.start
        stop := if existing.stop < incoming.stop then incoming.stop else existing.stop }
    | none => some incoming

/-! ### The cache -/

/-- A `BTreeMap` from absolute rows: its entries in the order of their keys. -/
abbrev RowCache : Type := List (Int64 × List GridCell)

namespace RowCache

def get? (row : Int64) (cache : RowCache) : Option (List GridCell) :=
  (cache.find? fun entry => entry.1 = row).map (·.2)

def containsKey (row : Int64) (cache : RowCache) : Bool := cache.any fun entry => entry.1 = row

def insert (row : Int64) (cells : List GridCell) : RowCache → RowCache
  | [] => [(row, cells)]
  | entry :: rest =>
    if row < entry.1 then (row, cells) :: entry :: rest
    else if row = entry.1 then (row, cells) :: rest
    else entry :: insert row cells rest

def absDiff (a b : Int64) : Nat := (a.toInt - b.toInt).natAbs

/-- Drops whichever end is further from the anchor, until few enough rows are left. -/
def capNear (anchor : Int64) : (fuel : Nat) → RowCache → RowCache
  | 0, cache => cache
  | fuel + 1, cache =>
    if cache.length ≤ maxScrollbackCacheRows then cache
    else match cache.head?, cache.getLast? with
      | some first, some last =>
        if absDiff first.1 anchor ≥ absDiff last.1 anchor then
          capNear anchor fuel (cache.drop 1)
        else capNear anchor fuel cache.dropLast
      | _, _ => cache

end RowCache

/-! ### The viewport -/

structure ScrollbackViewport where
  viewOffset : Int64 := 0
  /-- Absolute row pinned to the top of the window while scrolled back. -/
  anchor : Option Int64 := none
  liveStartRow : Int64 := 0
  totalRows : Int64 := 0
  geometryKnown : Bool := false
  cacheSeq : Option UInt64 := none
  cache : RowCache := []
  inFlight : Option RowRange := none
  queued : Option RowRange := none
  deriving DecidableEq, Repr

namespace ScrollbackViewport

def maxOffset (visibleRows : Nat) (viewport : ScrollbackViewport) : Int64 :=
  if viewport.geometryKnown then
    -- the history the daemon retains ends where the live grid starts
    if viewport.liveStartRow < 0 then 0 else viewport.liveStartRow
  else
    let further := I64.saturatingAdd viewport.viewOffset (I64.fromUsize visibleRows)
    if further < 0 then 0 else further

def absoluteRow (windowRow : Nat) (viewport : ScrollbackViewport) : Int64 :=
  I64.saturatingAdd (I64.saturatingSub viewport.liveStartRow viewport.viewOffset)
    (I64.fromUsize windowRow)

def windowRowForAbsolute (absoluteRow : Int64) (viewport : ScrollbackViewport) : Option Int64 :=
  I64.checkedSub absoluteRow (viewport.absoluteRow 0)

/-- Pins the row the window now shows first; at the live edge there is nothing to pin. -/
def syncAnchor (viewport : ScrollbackViewport) : ScrollbackViewport :=
  { viewport with
    anchor :=
      if viewport.viewOffset > 0 then
        some (I64.saturatingSub viewport.liveStartRow viewport.viewOffset)
      else none }

/-- The rows to ask for, once the window misses one, merged into what is queued already. -/
def missingWindow (visibleRows : Nat) (viewport : ScrollbackViewport) : Option RowRange :=
  if viewport.viewOffset ≤ 0 ∨ visibleRows = 0 then viewport.queued
  else
    let visibleRows := I64.fromUsize visibleRows
    let top := I64.saturatingSub viewport.liveStartRow viewport.viewOffset
    let bottom := I64.saturatingAdd top visibleRows
    let neededEnd := if bottom < viewport.liveStartRow then bottom else viewport.liveStartRow
    let held := (List.range (neededEnd.toInt - top.toInt).toNat).all fun row =>
      viewport.cache.containsKey (.ofInt (top.toInt + row))
    if top ≥ neededEnd ∨ held then viewport.queued
    else
      let before := I64.saturatingSub top visibleRows
      let request : RowRange :=
        ⟨if before < 0 then 0 else before, I64.saturatingAdd neededEnd visibleRows⟩
      if viewport.inFlight = some request ∨ viewport.queued = some request then viewport.queued
      else mergeRange viewport.queued request

def queueMissingWindow (visibleRows : Nat) (viewport : ScrollbackViewport) : ScrollbackViewport :=
  { viewport with queued := viewport.missingWindow visibleRows }

def capCacheNearViewport (viewport : ScrollbackViewport) : ScrollbackViewport :=
  { viewport with
    cache := viewport.cache.capNear (I64.saturatingSub viewport.liveStartRow viewport.viewOffset)
      viewport.cache.length }

/-! ### Scrolling -/

def setViewOffset (offset : Int64) (visibleRows : Nat) (viewport : ScrollbackViewport) :
    ScrollbackViewport :=
  let clamped := I64.clampTo 0 (viewport.maxOffset visibleRows) offset
  if clamped = viewport.viewOffset then viewport
  else ({ viewport with viewOffset := clamped }.syncAnchor).queueMissingWindow visibleRows

def scrollBy (lines : Int64) (visibleRows : Nat) (viewport : ScrollbackViewport) :
    ScrollbackViewport :=
  viewport.setViewOffset (I64.saturatingAdd viewport.viewOffset lines) visibleRows

def scrollToLive (visibleRows : Nat) (viewport : ScrollbackViewport) : ScrollbackViewport :=
  viewport.setViewOffset 0 visibleRows

/-- Places an absolute row at `windowRow` of the window, as nearly as it goes. -/
def scrollToAbsolute (absoluteRow windowRow : Int64) (visibleRows : Nat)
    (viewport : ScrollbackViewport) : ScrollbackViewport :=
  viewport.setViewOffset
    (I64.saturatingSub (I64.saturatingAdd viewport.liveStartRow windowRow) absoluteRow) visibleRows

/-- The alternate screen has no history. -/
def enterAltScreen (viewport : ScrollbackViewport) : ScrollbackViewport :=
  if viewport.viewOffset = 0 then viewport
  else { viewport with viewOffset := 0, anchor := none, queued := none }

/-! ### Fetched rows -/

/-- The rows inserted from an absolute row on, the row numbers saturating. -/
def insertRows (firstRow : Int64) (index : Nat) (cache : RowCache) : List (List GridCell) → RowCache
  | [] => cache
  | cells :: rest =>
    insertRows firstRow (index + 1)
      (cache.insert (I64.saturatingAdd firstRow (I64.fromUsize index)) cells) rest

/-- A content sequence that moved invalidates what was fetched before. -/
def invalidate (contentSeq : UInt64) (viewport : ScrollbackViewport) : ScrollbackViewport :=
  if viewport.cacheSeq ≠ some contentSeq then
    { viewport with cache := [], cacheSeq := some contentSeq }
  else viewport

/-- The anchored row stays where it is, and the distance to live grows instead. -/
def holdAnchor (viewport : ScrollbackViewport) : ScrollbackViewport :=
  match viewport.anchor with
  | some anchor => { viewport with viewOffset := I64.saturatingSub viewport.liveStartRow anchor }
  | none => viewport

def clampOffset (visibleRows : Nat) (viewport : ScrollbackViewport) : ScrollbackViewport :=
  { viewport with
    viewOffset := I64.clampTo 0 (viewport.maxOffset visibleRows) viewport.viewOffset }

def applyRows (rows : List (List GridCell)) (firstRow liveStartRow totalRows : Int64)
    (contentSeq : UInt64) (visibleRows : Nat) (viewport : ScrollbackViewport) :
    ScrollbackViewport :=
  let viewport := viewport.invalidate contentSeq
  let viewport := { viewport with
    cache := insertRows firstRow 0 viewport.cache rows
    liveStartRow := liveStartRow
    totalRows := if totalRows < 0 then 0 else totalRows
    geometryKnown := true }
  let viewport := (viewport.holdAnchor.clampOffset visibleRows).syncAnchor.capCacheNearViewport
  { viewport with queued := none }.queueMissingWindow visibleRows

/-- The geometry of a text snapshot used for find. -/
def applyGeometry (liveStartRow totalRows : Int64) (contentSeq : UInt64) (visibleRows : Nat)
    (viewport : ScrollbackViewport) : ScrollbackViewport :=
  viewport.applyRows [] liveStartRow liveStartRow totalRows contentSeq visibleRows

/-- The next coalesced request, which is in flight from then on. -/
def beginFetch (visibleRows : Nat) (viewport : ScrollbackViewport) :
    ScrollbackViewport × Option ScrollbackRequest :=
  let viewport := viewport.queueMissingWindow visibleRows
  if viewport.inFlight.isSome then (viewport, none)
  else match viewport.queued with
    | none => (viewport, none)
    | some range =>
      let viewport := { viewport with queued := none }
      if range.start ≥ range.stop then (viewport, none)
      else ({ viewport with inFlight := some range }, some ⟨range.start, range.stop - range.start⟩)

/-- The rows of a result, if it has as many as it says. -/
def decodedRows (result : ReadScrollbackCellsResult) :
    Except ScrollbackApplyError (List (List GridCell)) :=
  if result.rowCount < 0 then .error (.negativeRowCount result.rowCount)
  else
    let rowCount := result.rowCount.toInt.toNat
    match GridRowCodec.decodeRows rowCount ⟨result.payload, 0⟩ with
    | .error error => .error (.codec error)
    | .ok decoded =>
      if decoded.length ≠ rowCount then .error (.rowCountMismatch rowCount decoded.length)
      else .ok decoded

def completeFetch (result : ReadScrollbackCellsResult) (visibleRows : Nat)
    (viewport : ScrollbackViewport) : ScrollbackViewport × Except ScrollbackApplyError Unit :=
  let viewport := { viewport with inFlight := none }
  match decodedRows result with
  | .error error => (viewport, .error error)
  | .ok decoded =>
    (viewport.applyRows decoded result.firstRow result.liveStartRow result.totalRows
      result.contentSeq visibleRows, .ok ())

def failFetch (viewport : ScrollbackViewport) : ScrollbackViewport :=
  match viewport.inFlight with
  | some range => { viewport with inFlight := none, queued := mergeRange viewport.queued range }
  | none => viewport

end ScrollbackViewport

/-! ### Its calls -/

inductive ViewportCall where
  | setViewOffset (offset : Int64) (visibleRows : Nat)
  | scrollBy (lines : Int64) (visibleRows : Nat)
  | scrollToLive (visibleRows : Nat)
  | scrollToAbsolute (absoluteRow windowRow : Int64) (visibleRows : Nat)
  | applyRows (rows : List (List GridCell)) (firstRow liveStartRow totalRows : Int64)
      (contentSeq : UInt64) (visibleRows : Nat)
  | applyGeometry (liveStartRow totalRows : Int64) (contentSeq : UInt64) (visibleRows : Nat)
  | completeFetch (result : ReadScrollbackCellsResult) (visibleRows : Nat)
  | beginFetch (visibleRows : Nat)
  | failFetch
  | enterAltScreen
  deriving DecidableEq, Repr

namespace ViewportCall

def apply (viewport : ScrollbackViewport) : ViewportCall → ScrollbackViewport
  | setViewOffset offset visibleRows => viewport.setViewOffset offset visibleRows
  | scrollBy lines visibleRows => viewport.scrollBy lines visibleRows
  | scrollToLive visibleRows => viewport.scrollToLive visibleRows
  | scrollToAbsolute absoluteRow windowRow visibleRows =>
    viewport.scrollToAbsolute absoluteRow windowRow visibleRows
  | applyRows rows firstRow liveStartRow totalRows contentSeq visibleRows =>
    viewport.applyRows rows firstRow liveStartRow totalRows contentSeq visibleRows
  | applyGeometry liveStartRow totalRows contentSeq visibleRows =>
    viewport.applyGeometry liveStartRow totalRows contentSeq visibleRows
  | completeFetch result visibleRows => (viewport.completeFetch result visibleRows).1
  | beginFetch visibleRows => (viewport.beginFetch visibleRows).1
  | failFetch => viewport.failFetch
  | enterAltScreen => viewport.enterAltScreen

def step (viewport : ScrollbackViewport) (call : ViewportCall) : ScrollbackViewport × Unit :=
  (call.apply viewport, ())

/-- The live edge the call brings, if it applies rows or a geometry. -/
def liveStartRow? : ViewportCall → Option Int64
  | applyRows _ _ liveStartRow _ _ _ => some liveStartRow
  | applyGeometry liveStartRow _ _ _ => some liveStartRow
  | completeFetch result _ =>
    match ScrollbackViewport.decodedRows result with
    | .ok _ => some result.liveStartRow
    | .error _ => none
  | _ => none

end ViewportCall

end Diri
