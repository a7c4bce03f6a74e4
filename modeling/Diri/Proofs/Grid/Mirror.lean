/-
What the screen hands out.

`gridUpdate` sends the rows that differ from the baseline and leaves the baseline at
the current cells (`gridUpdate_eq`); `fullSnapshot` sends every row.  Applying a full
update gives the screen's cells, whatever the buffer was (`apply_full`).  Applying a
diff does so exactly when the buffer already has every row the diff leaves out
(`apply_diff_iff`): the rows that equal the baseline, which need not be what the
receiver was last sent.

A screen's updates on the wire and at the mirror.

A well-formed screen within the terminal limits never produces an update the codec
refuses: it is valid (`validateGridUpdate_update`) and, since a run costs 16 bytes and a
row has no more runs than cells, it fits a frame (`encodeInto_update`).  A mirror accepts
every full update, and then shows the screen (`applySnapshot_update`); it accepts the
next delta of its own size, and then shows the screen if its cells covered the diff
(`applyDelta_update`).
-/
import Diri.Remote.Holder
import Mathlib.Tactic.Ring

namespace Diri

open GridUpdate List

theorem asU16_of_lt {n : Nat} (h : n < 2 ^ 16) : asU16 n = n := Nat.mod_eq_of_lt h

/-! ### Applying rows of the right width -/

theorem GridUpdate.fitRow_eq {cols : Nat} {cells : List GridCell} (h : cells.length = cols) :
    GridUpdate.fitRow cols cells = cells := by
  simp [GridUpdate.fitRow, h]

theorem foldl_applyRow {cols rows : Nat} (f : Nat → List GridCell)
    (hf : ∀ y, y < rows → (f y).length = cols) (hrows : rows < 2 ^ 16) {ys : List Nat}
    (hys : ∀ y ∈ ys, y < rows) (buffer : List GridCell) :
    (ys.map fun y => ChangedRow.mk (asU16 y) (f y)).foldl (GridUpdate.applyRow cols rows) buffer
      = setRows cols f ys buffer := by
  induction ys using reverseRecOn with
  | nil => rfl
  | append_singleton ys y ih =>
    have hy := hys y (by simp)
    rw [map_append, foldl_append, ih fun z hz => hys z (by simp [hz]), setRows_concat]
    show GridUpdate.applyRow cols rows _ ⟨asU16 y, f y⟩ = _
    rw [asU16_of_lt (Nat.lt_trans hy hrows), GridUpdate.applyRow, if_neg (Nat.not_le.mpr hy),
      fitRow_eq (hf y hy)]

/-! ### Well-formed screens -/

/-- What the screen keeps: a real size that fits a `u16`, the cursor on it, and a whole baseline. -/
structure HeadlessScreen.Formed (screen : HeadlessScreen) : Prop where
  cols_pos : 0 < screen.geometry.cols
  rows_pos : 0 < screen.geometry.rows
  cols_lt : screen.geometry.cols < 2 ^ 16
  rows_lt : screen.geometry.rows < 2 ^ 16
  cursorCol_lt : screen.term.cursorCol < screen.geometry.cols
  cursorLine_lt : screen.term.cursorLine < screen.geometry.rows
  lastCells_length : screen.lastCells.length = screen.lastGridCols * screen.lastGridRows

theorem Geometry.new_eq {cols rows : Nat} (hcols : 0 < cols) (hrows : 0 < rows) :
    Geometry.new cols rows = ⟨cols, rows⟩ := by
  simp [Geometry.new, Nat.max_eq_left hcols, Nat.max_eq_left hrows]

namespace HeadlessScreen

theorem feed_eq (screen : HeadlessScreen) (hash : Hasher) (painted : Painted) :
    (screen.feed hash painted).term = painted.term.within screen.geometry ∧
      (screen.feed hash painted).lastCells = screen.lastCells ∧
      (screen.feed hash painted).lastGridCols = screen.lastGridCols ∧
      (screen.feed hash painted).lastGridRows = screen.lastGridRows := by
  unfold feed
  simp only
  split
  · split <;> exact ⟨rfl, rfl, rfl, rfl⟩
  · exact ⟨rfl, rfl, rfl, rfl⟩

theorem feed_geometry (screen : HeadlessScreen) (hash : Hasher) (painted : Painted) :
    (screen.feed hash painted).geometry = screen.geometry := by
  unfold feed
  simp only
  split
  · split <;> rfl
  · rfl

theorem length_row (screen : HeadlessScreen) (y : Nat) :
    (screen.row y).length = screen.geometry.cols := by
  simp [row]

theorem length_cells (screen : HeadlessScreen) :
    screen.cells.length = screen.geometry.cols * screen.geometry.rows :=
  length_ofRows fun y _ => screen.length_row y

theorem rowOf_cells (screen : HeadlessScreen) {y : Nat} (hy : y < screen.geometry.rows) :
    rowOf screen.geometry.cols y screen.cells = screen.row y :=
  rowOf_ofRows (fun y _ => screen.length_row y) hy

theorem eq_cells {screen : HeadlessScreen} {buffer : List GridCell}
    (hlength : buffer.length = screen.geometry.cols * screen.geometry.rows)
    (h : ∀ y, y < screen.geometry.rows → rowOf screen.geometry.cols y buffer = screen.row y) :
    buffer = screen.cells := by
  refine ext_rowOf hlength screen.length_cells fun y hy => ?_
  rw [h y hy, screen.rowOf_cells hy]

/-! ### The loop of `gridUpdate` -/

/-- The rows a diff against `base` sends. -/
def changedYs (screen : HeadlessScreen) (forceFull : Bool) (base : List GridCell) (n : Nat) :
    List Nat :=
  (List.range n).filter fun y =>
    decide (forceFull ∨ rowOf screen.geometry.cols y base ≠ screen.row y)

theorem mem_changedYs {screen : HeadlessScreen} {forceFull : Bool} {base : List GridCell}
    {n y : Nat} : y ∈ screen.changedYs forceFull base n ↔
      y < n ∧ (forceFull = true ∨ rowOf screen.geometry.cols y base ≠ screen.row y) := by
  simp [changedYs]

theorem changedYs_true (screen : HeadlessScreen) (base : List GridCell) (n : Nat) :
    screen.changedYs true base n = List.range n := by
  simp [changedYs]

theorem length_changedYs_le (screen : HeadlessScreen) (forceFull : Bool) (base : List GridCell)
    (n : Nat) : (screen.changedYs forceFull base n).length ≤ n := by
  simpa [changedYs] using length_filter_le _ (List.range n)

theorem foldl_diffRow (screen : HeadlessScreen) (forceFull : Bool) {base : List GridCell}
    (hbase : base.length = screen.geometry.cols * screen.geometry.rows) {n : Nat}
    (hn : n ≤ screen.geometry.rows) : (List.range n).foldl (screen.diffRow forceFull) (base, [])
      = (setRows screen.geometry.cols screen.row (screen.changedYs forceFull base n) base,
        (screen.changedYs forceFull base n).map fun y => ⟨asU16 y, screen.row y⟩) := by
  induction n with
  | zero => rfl
  | succ n ih =>
    have hnr : n < screen.geometry.rows := hn
    -- the rows written so far are above row `n`, so it is still the baseline's
    have hrow : rowOf screen.geometry.cols n
        (setRows screen.geometry.cols screen.row (screen.changedYs forceFull base n) base)
        = rowOf screen.geometry.cols n base := by
      have habove : ∀ y ∈ screen.changedYs forceFull base n, y < screen.geometry.rows := by
        intro y hy
        exact Nat.lt_trans (mem_changedYs.mp hy).1 hnr
      rw [rowOf_setRows (fun y _ => screen.length_row y) habove hbase hnr]
      refine if_neg fun hmem => ?_
      exact absurd (mem_changedYs.mp hmem).1 (Nat.lt_irrefl n)
    rw [range_succ, foldl_append, ih (Nat.le_of_lt hnr)]
    simp only [foldl_cons, foldl_nil, diffRow, hrow]
    have hsplit : screen.changedYs forceFull base (n + 1) = screen.changedYs forceFull base n ++
          (if forceFull ∨ rowOf screen.geometry.cols n base ≠ screen.row n then [n] else []) := by
      simp [changedYs, range_succ, filter_singleton]
    rw [hsplit]
    split
    · rw [setRows_concat, map_append]
      rfl
    · rw [append_nil]

/-- Whether `gridUpdate` finds the size it last saw. -/
def SameGeometry (screen : HeadlessScreen) : Prop :=
  screen.lastGridCols = screen.geometry.cols ∧ screen.lastGridRows = screen.geometry.rows

instance (screen : HeadlessScreen) : Decidable screen.SameGeometry :=
  inferInstanceAs (Decidable (_ ∧ _))

/-- The baseline a diff is taken against: blanks when the size changed. -/
def baseline (screen : HeadlessScreen) : List GridCell :=
  if screen.SameGeometry then screen.lastCells
  else List.replicate (screen.geometry.cols * screen.geometry.rows) .blank

/-- The update with the given rows, described by the screen. -/
def update (screen : HeadlessScreen) (isFullSnapshot : Bool) (ys : List Nat) : GridUpdate where
  cols := asU16 screen.geometry.cols
  rows := asU16 screen.geometry.rows
  cursorCol := asU16 screen.term.cursorCol
  cursorRow := asU16 screen.term.cursorLine
  cursorVisible := screen.term.showCursor
  isFullSnapshot := isFullSnapshot
  changedRows := ys.map fun y => ⟨asU16 y, screen.row y⟩

namespace Formed

variable {screen : HeadlessScreen}

theorem length_baseline (h : screen.Formed) :
    screen.baseline.length = screen.geometry.cols * screen.geometry.rows := by
  unfold baseline
  split
  · next hsame => rw [h.lastCells_length, hsame.1, hsame.2]
  · exact length_replicate

/-- `gridUpdate` sends what differs from the baseline, and the baseline becomes the screen. -/
theorem gridUpdate_eq (h : screen.Formed) (full : Bool) : screen.gridUpdate full =
      (screen.update (decide (full ∨ ¬screen.SameGeometry)) (screen.changedYs
          (decide (full ∨ ¬screen.SameGeometry)) screen.baseline screen.geometry.rows),
        { screen with
          lastCells := screen.cells
          lastGridCols := screen.geometry.cols
          lastGridRows := screen.geometry.rows }) := by
  have hchanged : (screen.lastGridCols ≠ screen.geometry.cols ∨
      screen.lastGridRows ≠ screen.geometry.rows) ↔ ¬screen.SameGeometry := by
    unfold SameGeometry
    rw [not_and_or]
  have hbaseline : (if ¬screen.SameGeometry then
      List.replicate (screen.geometry.cols * screen.geometry.rows) GridCell.blank
      else screen.lastCells) = screen.baseline := by
    rw [ite_not]
    rfl
  have hwritten : ∀ forceFull, setRows screen.geometry.cols screen.row
      (screen.changedYs forceFull screen.baseline screen.geometry.rows) screen.baseline
        = screen.cells := by
    intro forceFull
    have hys : ∀ y ∈ screen.changedYs forceFull screen.baseline screen.geometry.rows,
        y < screen.geometry.rows := fun y hy => (mem_changedYs.mp hy).1
    refine eq_cells (length_setRows (fun y _ => screen.length_row y) hys h.length_baseline) ?_
    intro y hy
    rw [rowOf_setRows (fun y _ => screen.length_row y) hys h.length_baseline hy]
    split
    · rfl
    next hmem =>
      rw [mem_changedYs] at hmem
      exact not_not.mp fun hne => hmem ⟨hy, .inr hne⟩
  unfold gridUpdate
  simp only [hchanged]
  rw [hbaseline, screen.foldl_diffRow _ h.length_baseline (Nat.le_refl _), hwritten]
  rfl

/-! ### Applying an update -/

/-- The size and the cursor of a screen fit a `u16`, so its updates say what they are. -/
theorem update_eq (h : screen.Formed) (full : Bool) (ys : List Nat) : screen.update full ys = {
      cols := screen.geometry.cols
      rows := screen.geometry.rows
      cursorCol := screen.term.cursorCol
      cursorRow := screen.term.cursorLine
      cursorVisible := screen.term.showCursor
      isFullSnapshot := full
      changedRows := ys.map fun y => ⟨asU16 y, screen.row y⟩ } := by
  have hcursorCol := asU16_of_lt (Nat.lt_trans h.cursorCol_lt h.cols_lt)
  have hcursorLine := asU16_of_lt (Nat.lt_trans h.cursorLine_lt h.rows_lt)
  simp only [update, asU16_of_lt h.cols_lt, asU16_of_lt h.rows_lt, hcursorCol, hcursorLine]

theorem apply_update (h : screen.Formed) (full : Bool) {ys : List Nat}
    (hys : ∀ y ∈ ys, y < screen.geometry.rows) (buffer : List GridCell) :
    (screen.update full ys).apply buffer = setRows screen.geometry.cols screen.row ys
        (if full ∨ buffer.length ≠ screen.geometry.cols * screen.geometry.rows then
          List.replicate (screen.geometry.cols * screen.geometry.rows) .blank else buffer) := by
  rw [h.update_eq]
  exact foldl_applyRow screen.row (fun y _ => screen.length_row y) h.rows_lt hys _

theorem apply_full (h : screen.Formed) (buffer : List GridCell) :
    (screen.update true (List.range screen.geometry.rows)).apply buffer = screen.cells := by
  have hys : ∀ y ∈ List.range screen.geometry.rows, y < screen.geometry.rows :=
    fun y hy => List.mem_range.mp hy
  have hblank : (List.replicate (screen.geometry.cols * screen.geometry.rows)
      GridCell.blank).length = screen.geometry.cols * screen.geometry.rows := length_replicate
  rw [h.apply_update true hys, if_pos (.inl rfl)]
  refine eq_cells (length_setRows (fun y _ => screen.length_row y) hys hblank) fun y hy => ?_
  rw [rowOf_setRows (fun y _ => screen.length_row y) hys hblank hy, if_pos (List.mem_range.mpr hy)]

/--
**A diff gives the screen's cells exactly to the buffers it covers.**  The rows it
leaves out are those that equal the baseline, and the buffer must have them already.
-/
theorem apply_diff_iff (h : screen.Formed) {held : List GridCell}
    (hheld : held.length = screen.geometry.cols * screen.geometry.rows) : (screen.update false
        (screen.changedYs false screen.baseline screen.geometry.rows)).apply held = screen.cells ↔
      Covers (· < screen.geometry.rows) (fun y => rowOf screen.geometry.cols y screen.baseline)
        screen.row (fun y => rowOf screen.geometry.cols y held) := by
  have hys : ∀ y ∈ screen.changedYs false screen.baseline screen.geometry.rows,
      y < screen.geometry.rows := fun y hy => (mem_changedYs.mp hy).1
  have hlength := length_setRows (fun y _ => screen.length_row y) hys hheld
  rw [h.apply_update false hys, if_neg (by simp [hheld]), ← patched_eq_iff]
  -- each row of the result is the patched row
  have hrow : ∀ y, y < screen.geometry.rows → rowOf screen.geometry.cols y
      (setRows screen.geometry.cols screen.row
        (screen.changedYs false screen.baseline screen.geometry.rows) held)
      = patched (fun y => rowOf screen.geometry.cols y screen.baseline) screen.row
          (fun y => rowOf screen.geometry.cols y held) y := by
    intro y hy
    rw [rowOf_setRows (fun y _ => screen.length_row y) hys hheld hy, patched]
    by_cases hsame : screen.row y = rowOf screen.geometry.cols y screen.baseline
    · rw [if_pos hsame, if_neg]
      rw [mem_changedYs]
      simp [hsame]
    rw [if_neg hsame, if_pos]
    rw [mem_changedYs]
    exact ⟨hy, .inr (Ne.symm hsame)⟩
  constructor
  · intro hcells y hy
    rw [← hrow y hy, hcells, screen.rowOf_cells hy]
  · intro hpatched
    exact eq_cells hlength fun y hy => by rw [hrow y hy, hpatched y hy]

/-! ### Screens stay well formed -/

theorem of_within (term : Term) (hterm : screen.term = term.within screen.geometry)
    (hcols : 0 < screen.geometry.cols) (hrows : 0 < screen.geometry.rows)
    (hcolsLt : screen.geometry.cols < 2 ^ 16) (hrowsLt : screen.geometry.rows < 2 ^ 16)
    (hlast : screen.lastCells.length = screen.lastGridCols * screen.lastGridRows) :
    screen.Formed := by
  refine ⟨hcols, hrows, hcolsLt, hrowsLt, ?_, ?_, hlast⟩
  · rw [hterm]
    exact Nat.lt_of_le_of_lt (Nat.min_le_right _ _) (by omega)
  · rw [hterm]
    exact Nat.lt_of_le_of_lt (Nat.min_le_right _ _) (by omega)

theorem new {cols rows : Nat} (hcols : cols < 2 ^ 16) (hrows : rows < 2 ^ 16) (term : Term) :
    (HeadlessScreen.new cols rows term).Formed :=
  of_within term rfl (Nat.le_max_right _ _) (Nat.le_max_right _ _)
    (Nat.max_lt.mpr ⟨hcols, by decide⟩) (Nat.max_lt.mpr ⟨hrows, by decide⟩) rfl

theorem resize (h : screen.Formed) {cols rows : Nat} (hcols : cols < 2 ^ 16)
    (hrows : rows < 2 ^ 16) (term : Term) : (screen.resize cols rows term).Formed :=
  of_within term rfl (Nat.le_max_right _ _) (Nat.le_max_right _ _)
    (Nat.max_lt.mpr ⟨hcols, by decide⟩) (Nat.max_lt.mpr ⟨hrows, by decide⟩) h.lastCells_length

theorem feed (h : screen.Formed) (hash : Hasher) (painted : Painted) :
    (screen.feed hash painted).Formed := by
  have hgeometry := screen.feed_geometry hash painted
  obtain ⟨hterm, hcells, hcols, hrows⟩ := screen.feed_eq hash painted
  refine of_within painted.term ?_ ?_ ?_ ?_ ?_ ?_
  · rw [hterm, hgeometry]
  · rw [hgeometry]
    exact h.cols_pos
  · rw [hgeometry]
    exact h.rows_pos
  · rw [hgeometry]
    exact h.cols_lt
  · rw [hgeometry]
    exact h.rows_lt
  · rw [hcells, hcols, hrows]
    exact h.lastCells_length

theorem rebased (h : screen.Formed) : HeadlessScreen.Formed { screen with
      lastCells := screen.cells
      lastGridCols := screen.geometry.cols
      lastGridRows := screen.geometry.rows } :=
  ⟨h.cols_pos, h.rows_pos, h.cols_lt, h.rows_lt, h.cursorCol_lt, h.cursorLine_lt,
    screen.length_cells⟩

end Formed

end HeadlessScreen

end Diri

namespace Diri

/-! ### Sizes -/

theorem GridUpdate.rowsBytes_le {cols : Nat} (hcols : cols < 2 ^ 16) {rows : List ChangedRow}
    (hrows : ∀ row ∈ rows, row.cells.length = cols) :
    ∃ bytes, GridUpdate.rowsBytes rows = .ok bytes ∧ bytes ≤ rows.length * (4 + 16 * cols) := by
  induction rows with
  | nil => exact ⟨0, rfl, Nat.zero_le _⟩
  | cons row rest ih =>
    obtain ⟨more, hmore, hle⟩ := ih fun r hr => hrows r (List.mem_cons_of_mem _ hr)
    have hlength := hrows row List.mem_cons_self
    have hruns := GridRowCodec.runCount_le row.cells
    have hrow : GridRowCodec.rowBytes row.cells
        = .ok (2 + 16 * GridRowCodec.runCount row.cells) := by
      rw [GridRowCodec.rowBytes, if_neg (by omega)]
    refine ⟨2 + (2 + 16 * GridRowCodec.runCount row.cells) + more, ?_, ?_⟩
    · rw [GridUpdate.rowsBytes, hrow, hmore]
      rfl
    · rw [List.length_cons, Nat.succ_mul rest.length]
      omega

theorem RemoteCodec.encodeInto_pos {message : RemoteMessage} {bytes : Nat}
    (h : RemoteCodec.encodeInto message = .ok bytes) : 0 < bytes := by
  unfold RemoteCodec.encodeInto at h
  cases hpayload : RemoteCodec.payload message with
  | error error =>
    rw [hpayload] at h
    cases h
  | ok length =>
    rw [hpayload] at h
    by_cases hlarge : length > maxFrameBytes
    · simp [hlarge, bind, Except.bind, throw, throwThe, MonadExceptOf.throw] at h
    simp [hlarge, bind, Except.bind, pure, Except.pure] at h
    rw [← h]
    exact Nat.add_pos_left (by decide) length

theorem validateGrid_ok {grid : GridUpdate} (h : validateGrid grid = .ok ()) :
    0 < grid.cols ∧ 0 < grid.rows ∧
      ∀ row ∈ grid.changedRows, row.y < grid.rows ∧ row.cells.length = grid.cols := by
  unfold validateGrid at h
  split at h
  · cases h
  next hdims =>
    split at h
    · cases h
    split at h
    · cases h
    next hrows =>
      refine ⟨by omega, by omega, fun row hrow => ?_⟩
      have hgood : ¬(row.y ≥ grid.rows ∨ row.cells.length ≠ grid.cols) :=
        fun hbad => hrows ⟨row, hrow, hbad⟩
      rw [not_or] at hgood
      exact ⟨Nat.not_le.mp hgood.1, not_not.mp hgood.2⟩

namespace GridMirror

variable {mirror mirror' : GridMirror} {sequence : Nat} {grid : GridUpdate} {modes : Modes}

theorem applySnapshot_cases (h : mirror.applySnapshot sequence grid modes = .ok mirror') :
    grid.isFullSnapshot = true ∧ validateGrid grid = .ok () ∧
      mirror' = mirror.accept sequence grid modes := by
  unfold applySnapshot at h
  split at h
  · cases h
  next hfull =>
    cases hvalid : validateGrid grid with
    | error error =>
      rw [hvalid] at h
      cases h
    | ok _ =>
      rw [hvalid] at h
      exact ⟨by simpa using hfull, rfl, (Except.ok.inj h).symm⟩

/-- A delta that is accepted is the next one, of the mirror's size and valid, and is applied. -/
theorem applyDelta_cases (h : mirror.applyDelta sequence grid modes = .ok mirror') :
    mirror.sequence.map (· + 1) = some sequence ∧ grid.cols = mirror.cols ∧
      grid.rows = mirror.rows ∧ validateGrid grid = .ok () ∧
      mirror' = mirror.accept sequence grid modes := by
  unfold applyDelta at h
  split at h
  · cases h
  next previous hprevious =>
    split at h
    · cases h
    split at h
    · cases h
    next hsequence =>
      split at h
      · cases h
      next hsame =>
        rw [not_or, not_or] at hsame
        cases hvalid : validateGrid grid with
        | error error =>
          rw [hvalid] at h
          cases h
        | ok _ =>
          rw [hvalid] at h
          refine ⟨?_, not_not.mp hsame.2.1, not_not.mp hsame.2.2, rfl, (Except.ok.inj h).symm⟩
          rw [hprevious, not_not.mp hsequence]
          rfl

end GridMirror

/-! ### A screen within the terminal limits -/

/-- A well-formed screen of a size the protocol allows. -/
structure HeadlessScreen.Sized (screen : HeadlessScreen) : Prop where
  formed : screen.Formed
  dimensions : validateTerminalDimensions screen.geometry.cols screen.geometry.rows = .ok ()

namespace HeadlessScreen.Sized

variable {screen : HeadlessScreen}

theorem of_formed {cols rows : Nat} (h : validateTerminalDimensions cols rows = .ok ())
    (hgeometry : screen.geometry = Geometry.new cols rows)
    (hformed : cols < 2 ^ 16 → rows < 2 ^ 16 → screen.Formed) : screen.Sized := by
  obtain ⟨hcols, hrows, hcolsLe, hrowsLe, -⟩ := validateTerminalDimensions_ok.mp h
  simp only [maxTerminalCols, maxTerminalRows] at hcolsLe hrowsLe
  refine ⟨hformed (by omega) (by omega), ?_⟩
  rw [hgeometry, Geometry.new_eq hcols hrows]
  exact h

theorem new {cols rows : Nat} (h : validateTerminalDimensions cols rows = .ok ()) (term : Term) :
    (HeadlessScreen.new cols rows term).Sized :=
  of_formed h rfl fun hcols hrows => Formed.new hcols hrows term

theorem resize (hs : screen.Sized) {cols rows : Nat}
    (h : validateTerminalDimensions cols rows = .ok ()) (term : Term) :
    (screen.resize cols rows term).Sized :=
  of_formed h rfl fun hcols hrows => hs.formed.resize hcols hrows term

theorem feed (hs : screen.Sized) (hash : Hasher) (painted : Painted) :
    (screen.feed hash painted).Sized where
  formed := hs.formed.feed hash painted
  dimensions := by
    rw [feed_geometry]
    exact hs.dimensions

theorem rebased (hs : screen.Sized) : HeadlessScreen.Sized { screen with
      lastCells := screen.cells
      lastGridCols := screen.geometry.cols
      lastGridRows := screen.geometry.rows } where
  formed := hs.formed.rebased
  dimensions := hs.dimensions

end HeadlessScreen.Sized

namespace HeadlessScreen.Sized

variable {screen : HeadlessScreen}

variable {ys : List Nat}

section
variable (h : screen.Sized)
include h

theorem changedRow_ok {full : Bool} (hys : ∀ y ∈ ys, y < screen.geometry.rows) {row : ChangedRow}
    (hrow : row ∈ (screen.update full ys).changedRows) :
    row.y < screen.geometry.rows ∧ row.cells.length = screen.geometry.cols := by
  obtain ⟨y, hy, rfl⟩ := List.mem_map.mp hrow
  have hlt := hys y hy
  refine ⟨?_, screen.length_row y⟩
  show asU16 y < _
  rwa [asU16_of_lt (Nat.lt_trans hlt h.formed.rows_lt)]

theorem no_bad_row (full : Bool) (hys : ∀ y ∈ ys, y < screen.geometry.rows) :
    ¬∃ row ∈ (screen.update full ys).changedRows,
      row.y ≥ screen.geometry.rows ∨ row.cells.length ≠ screen.geometry.cols := by
  rintro ⟨row, hrow, hbad⟩
  obtain ⟨hy, hlength⟩ := h.changedRow_ok hys hrow
  exact hbad.elim (Nat.not_le.mpr hy) (fun hne => hne hlength)

theorem no_bad_cursor : ¬(screen.term.cursorCol ≥ screen.geometry.cols ∨
      screen.term.cursorLine ≥ screen.geometry.rows) :=
  not_or.mpr ⟨Nat.not_le.mpr h.formed.cursorCol_lt, Nat.not_le.mpr h.formed.cursorLine_lt⟩

theorem validateGridUpdate_update (full : Bool) (hys : ∀ y ∈ ys, y < screen.geometry.rows) :
    validateGridUpdate (screen.update full ys) = .ok () := by
  have hchanged := h.no_bad_row full hys
  rw [h.formed.update_eq] at hchanged ⊢
  simp only [validateGridUpdate, h.dimensions, if_neg h.no_bad_cursor]
  rw [if_neg hchanged]
  rfl

theorem gridPayload_update (state : GridState) {full : Bool}
    (hgrid : state.grid = screen.update full ys) (hys : ∀ y ∈ ys, y < screen.geometry.rows)
    (hcount : ys.length ≤ screen.geometry.rows) :
    ∃ bytes, RemoteCodec.gridPayload state = .ok bytes ∧ bytes ≤ maxFrameBytes := by
  obtain ⟨-, -, hcols, hrows, hcells⟩ := validateTerminalDimensions_ok.mp h.dimensions
  have hchanged : (screen.update full ys).changedRows.length = ys.length := List.length_map _
  have hlengths : ∀ row ∈ (screen.update full ys).changedRows,
      row.cells.length = screen.geometry.cols := fun row hrow => (h.changedRow_ok hys hrow).2
  obtain ⟨bytes, hbytes, hle⟩ := GridUpdate.rowsBytes_le h.formed.cols_lt hlengths
  have hencoded : (screen.update full ys).encodedBytes = .ok (11 + bytes) := by
    rw [GridUpdate.encodedBytes, if_neg, hbytes]
    · rfl
    · have hlt := h.formed.rows_lt
      omega
  refine ⟨9 + (11 + bytes), ?_, ?_⟩
  · rw [RemoteCodec.gridPayload, hgrid, hencoded]
  -- at most 4 bytes for each row and 16 for each cell
  have hrowsBytes : ys.length * (4 + 16 * screen.geometry.cols)
      ≤ 4 * screen.geometry.rows + 16 * (screen.geometry.cols * screen.geometry.rows) := by
    calc ys.length * (4 + 16 * screen.geometry.cols)
        ≤ screen.geometry.rows * (4 + 16 * screen.geometry.cols) := Nat.mul_le_mul_right _ hcount
      _ = 4 * screen.geometry.rows + 16 * (screen.geometry.cols * screen.geometry.rows) := by
          ring
  rw [hchanged] at hle
  simp only [maxTerminalRows, maxTerminalCells, maxFrameBytes] at hrows hcells ⊢
  omega

theorem encodeInto_fullSnapshot (state : GridState)
    (hgrid : state.grid = screen.update true (List.range screen.geometry.rows)) :
    ∃ bytes, RemoteCodec.encodeInto (.fullSnapshot state) = .ok bytes := by
  have hys : ∀ y ∈ List.range screen.geometry.rows, y < screen.geometry.rows :=
    fun y hy => List.mem_range.mp hy
  have hvalid := h.validateGridUpdate_update true hys
  obtain ⟨bytes, hbytes, hle⟩ := h.gridPayload_update state hgrid hys (by simp)
  have hfull : state.grid.isFullSnapshot = true := by rw [hgrid]; rfl
  refine ⟨headerBytes + bytes, ?_⟩
  rw [← hgrid] at hvalid
  simp [RemoteCodec.encodeInto, RemoteCodec.payload, hvalid, hfull, hbytes, Nat.not_lt.mpr hle,
    bind, Except.bind, pure, Except.pure]

theorem encodeInto_gridDelta (state : GridState)
    (hgrid : state.grid = screen.update false ys) (hys : ∀ y ∈ ys, y < screen.geometry.rows)
    (hcount : ys.length ≤ screen.geometry.rows) :
    ∃ bytes, RemoteCodec.encodeInto (.gridDelta state) = .ok bytes := by
  have hvalid := h.validateGridUpdate_update false hys
  obtain ⟨bytes, hbytes, hle⟩ := h.gridPayload_update state hgrid hys hcount
  have hdelta : state.grid.isFullSnapshot = false := by rw [hgrid]; rfl
  refine ⟨headerBytes + bytes, ?_⟩
  rw [← hgrid] at hvalid
  simp [RemoteCodec.encodeInto, RemoteCodec.payload, hvalid, hdelta, hbytes, Nat.not_lt.mpr hle,
    bind, Except.bind, pure, Except.pure]

end

/-! ### At the mirror -/

theorem validateGrid_update (h : screen.Sized) (full : Bool)
    (hys : ∀ y ∈ ys, y < screen.geometry.rows) : validateGrid (screen.update full ys) = .ok () := by
  have hchanged := h.no_bad_row full hys
  have hsize : ¬(screen.geometry.cols = 0 ∨ screen.geometry.rows = 0) :=
    not_or.mpr ⟨Nat.ne_of_gt h.formed.cols_pos, Nat.ne_of_gt h.formed.rows_pos⟩
  rw [h.formed.update_eq] at hchanged ⊢
  unfold validateGrid
  rw [if_neg hsize, if_neg h.no_bad_cursor, if_neg hchanged]

/-- A mirror that accepts an update which gives it the screen's cells shows the screen. -/
theorem view_accept (h : screen.Sized) (mirror : GridMirror) (sequence : Nat) (full : Bool)
    (ys : List Nat) (hcells : (screen.update full ys).apply mirror.cells = screen.cells) :
    (mirror.accept sequence (screen.update full ys) screen.modes).view = screen.view := by
  unfold GridMirror.accept GridMirror.view
  rw [hcells, h.formed.update_eq]
  rfl

theorem applySnapshot_update (h : screen.Sized) (mirror : GridMirror) (sequence : Nat) :
    ∃ mirror', mirror.applySnapshot sequence
        (screen.update true (List.range screen.geometry.rows)) screen.modes = .ok mirror' ∧
      mirror'.sequence = some sequence ∧ mirror'.view = screen.view := by
  have hys : ∀ y ∈ List.range screen.geometry.rows, y < screen.geometry.rows :=
    fun y hy => List.mem_range.mp hy
  refine ⟨mirror.accept sequence (screen.update true (List.range screen.geometry.rows))
    screen.modes, ?_, rfl, h.view_accept mirror sequence true _ (h.formed.apply_full _)⟩
  rw [GridMirror.applySnapshot, h.validateGrid_update true hys]
  rfl

/-- A mirror of the screen's size accepts the next delta, and shows the screen if it is covered. -/
theorem applyDelta_update (h : screen.Sized) {mirror : GridMirror} {previous : Nat}
    (hsequence : mirror.sequence = some previous) (hnext : previous + 1 ≤ maxU64)
    (hsize : mirror.size = (screen.geometry.cols, screen.geometry.rows))
    (hlength : mirror.cells.length = screen.geometry.cols * screen.geometry.rows)
    (hcovers : Covers (· < screen.geometry.rows)
      (fun y => rowOf screen.geometry.cols y screen.baseline) screen.row
      (fun y => rowOf screen.geometry.cols y mirror.cells)) :
    ∃ mirror', mirror.applyDelta (previous + 1) (screen.update false
        (screen.changedYs false screen.baseline screen.geometry.rows)) screen.modes = .ok mirror' ∧
      mirror'.sequence = some (previous + 1) ∧ mirror'.view = screen.view := by
  have hys : ∀ y ∈ screen.changedYs false screen.baseline screen.geometry.rows,
      y < screen.geometry.rows := fun y hy => (HeadlessScreen.mem_changedYs.mp hy).1
  obtain ⟨hcols, hrows⟩ := Prod.mk.inj hsize
  refine ⟨mirror.accept (previous + 1) (screen.update false
    (screen.changedYs false screen.baseline screen.geometry.rows)) screen.modes, ?_, rfl, ?_⟩
  · rw [GridMirror.applyDelta, hsequence]
    simp only [h.validateGrid_update false hys]
    rw [if_neg (Nat.not_lt.mpr hnext), if_neg (not_not.mpr rfl), if_neg]
    · rfl
    · simp [h.formed.update_eq, hcols, hrows]
  · exact h.view_accept mirror (previous + 1) false _
      ((h.formed.apply_diff_iff hlength).mpr hcovers)

end HeadlessScreen.Sized

end Diri
