/-
What a selection keeps.

The two ends of a selection are numbers of rows, and a number stays with its row as long
as the first row of the window keeps its own (`Steady`): the live edge that arrives is
the window's first row, or the view is scrolled back from an edge that is known, and the
new one is no earlier than what it shows.  Anything else gives the rows that the window
shows other numbers (`renumber`), and leaves the selection on the old ones.

The rows of the spans are those in the window that the selection covers, but for a window
that goes past the last number.  The text has a character for each cell, so it is the
text of the glyphs where the second cells of wide glyphs stand at the end of a line only.
-/
import Diri.Proofs.Grid.Update
import Diri.Proofs.Term.Anchor
import Diri.Term.Selection

namespace Diri

open I64 Int64 List ScrollbackViewport ViewportStep

/-! ### Steps that renumber -/

namespace ScrollbackViewport

theorem toInt_absoluteRow (windowRow : Nat) (viewport : ScrollbackViewport) :
    (viewport.absoluteRow windowRow).toInt
      = min (2 ^ 63 - 1) ((viewport.absoluteRow 0).toInt + min (2 ^ 63 - 1) windowRow) := by
  have hzero : (I64.fromUsize 0).toInt = 0 := rfl
  have hrow : (I64.fromUsize windowRow).toInt = min (2 ^ 63 - 1) (windowRow : Int) := by
    rw [I64.fromUsize, toInt_saturate]
    omega
  simp only [absoluteRow, toInt_saturatingAdd, toInt_saturatingSub, hzero, hrow]
  omega

theorem pinned_run {viewport : ScrollbackViewport} (h : viewport.Pinned)
    (calls : List ViewportCall) : (run ViewportCall.step viewport calls).1.Pinned ∧
      ∀ step ∈ (run ViewportCall.step viewport calls).2, step.before.Pinned := by
  refine run_induction (P := fun (viewport : ScrollbackViewport) (past : List ViewportStep) =>
    viewport.Pinned ∧ ∀ step ∈ past, step.before.Pinned) ⟨h, by simp⟩ ?_ calls
  intro viewport past call ih
  refine ⟨?_, fun step hstep => ?_⟩
  · rcases call.apply_cases viewport with ⟨_, _, hmoved⟩ | ⟨_, hscrolled⟩
    · exact hmoved.pinned
    · exact ih.1.scrolled hscrolled
  · rcases List.mem_cons.mp hstep with rfl | hearlier
    · exact ih.1
    · exact ih.2 step hearlier

end ScrollbackViewport

namespace ViewportStep

/-- The window's first row keeps its number, by what arrives and the state that finds it. -/
def Steady (step : ViewportStep) : Prop :=
  ∀ liveStartRow, step.input.liveStartRow? = some liveStartRow →
    liveStartRow = step.before.absoluteRow 0 ∨
      step.before.viewOffset > 0 ∧ step.before.geometryKnown = true ∧
        step.before.absoluteRow 0 ≤ liveStartRow

/-- The number a row has after the step.  Rows that are applied change numbers in place: what
the window showed in one line it goes on showing there.  A scroll changes none. -/
def renumber (step : ViewportStep) (row : Int) : Int :=
  match step.input.liveStartRow? with
  | some _ => row + ((step.after.absoluteRow 0).toInt - (step.before.absoluteRow 0).toInt)
  | none => row

theorem renumber_absoluteRow {step : ViewportStep} {liveStartRow : Int64}
    (hlive : step.input.liveStartRow? = some liveStartRow) {windowRow : Nat}
    (hbefore : (step.before.absoluteRow 0).toInt + windowRow < 2 ^ 63)
    (hafter : (step.after.absoluteRow 0).toInt + windowRow < 2 ^ 63) (hfits : windowRow < 2 ^ 63) :
    step.renumber (step.before.absoluteRow windowRow).toInt
      = (step.after.absoluteRow windowRow).toInt := by
  simp only [renumber, hlive]
  rw [ScrollbackViewport.toInt_absoluteRow, ScrollbackViewport.toInt_absoluteRow windowRow]
  omega

theorem steady_iff {viewport : ScrollbackViewport} (h : viewport.Pinned) (call : ViewportCall) :
    Steady (taken ViewportCall.step viewport call) ↔
      ∀ row, renumber (taken ViewportCall.step viewport call) row = row := by
  cases hlive : call.liveStartRow? with
  | none =>
    constructor
    · intro _ row
      simp only [renumber, taken, hlive]
    · intro _ liveStartRow hsome
      cases hlive.symm.trans hsome
  | some liveStartRow =>
    have hmoved : viewport.Moved liveStartRow (call.apply viewport) := moved_of_live hlive
    have hkeeps := hmoved.absoluteRow_eq_iff h
    constructor
    · intro hsteady row
      have htop := hkeeps.mpr (hsteady liveStartRow hlive)
      simp only [renumber, taken, hlive, ViewportCall.step, htop]
      omega
    · intro hrows other hother
      obtain rfl := Option.some.inj (hlive.symm.trans hother)
      have hzero := hrows 0
      simp only [renumber, taken, hlive, ViewportCall.step] at hzero
      exact hkeeps.mp (Int64.toInt_inj.mp (by omega))

/-- The number a row has after the steps, the most recent of which is the first. -/
def renumbered (steps : List ViewportStep) (row : Int) : Int := steps.foldr renumber row

theorem renumbered_eq {steps : List ViewportStep}
    (h : ∀ step ∈ steps, ∀ row, renumber step row = row) (row : Int) :
    renumbered steps row = row := by
  induction steps with
  | nil => rfl
  | cons step past ih =>
    show renumber step (renumbered past row) = row
    rw [ih fun other hother => h other (mem_cons_of_mem _ hother)]
    exact h step mem_cons_self row

theorem steady_iff_of_mem {viewport : ScrollbackViewport} (h : viewport.Pinned)
    {calls : List ViewportCall} {step : ViewportStep}
    (hstep : step ∈ (run ViewportCall.step viewport calls).2) :
    Steady step ↔ ∀ row, renumber step row = row := by
  have hbefore := (pinned_run h calls).2 step hstep
  rw [run_mem hstep]
  exact steady_iff hbefore step.input

end ViewportStep

/-! ### The rows of a range -/

theorem mem_rowsThrough {first last row : Int64} :
    row ∈ rowsThrough first last ↔ first ≤ row ∧ row ≤ last := by
  have hlow := first.le_toInt
  have hhigh := last.toInt_lt
  rw [rowsThrough, mem_map, le_iff_toInt_le, le_iff_toInt_le]
  constructor
  · rintro ⟨index, hindex, rfl⟩
    rw [mem_range] at hindex
    rw [toInt_ofInt_of_le (by omega) (by omega)]
    omega
  · rintro ⟨hfirst, hlast⟩
    refine ⟨(row.toInt - first.toInt).toNat, ?_, ?_⟩
    · rw [mem_range]
      omega
    · rw [Int.toNat_of_nonneg (by omega), Int.add_comm, Int.sub_add_cancel, ofInt_toInt]

theorem ScrollbackViewport.length_rowAtAbsolute (buffer : GridBuffer) (row : Int64)
    (viewport : ScrollbackViewport) : (viewport.rowAtAbsolute buffer row).length = buffer.cols :=
  GridUpdate.length_fitRow _ _

namespace TerminalSelection

variable {selection : TerminalSelection} {range : SelectionRange}
  {viewport other : ScrollbackViewport} {buffer : GridBuffer}

/-- The cells of a row that a range covers. -/
def coveredCells (range : SelectionRange) (viewport : ScrollbackViewport) (buffer : GridBuffer)
    (row : Int64) : List GridCell :=
  let columns := columnsForRow range row buffer.cols
  ((viewport.rowAtAbsolute buffer row).take columns.2).drop columns.1

def trimmed (text : List Char) : List Char := text.rdropWhile (· = ' ')

theorem lineOf_eq (range : SelectionRange) (viewport : ScrollbackViewport) (buffer : GridBuffer)
    (row : Int64) : lineOf range viewport buffer row
      = some (trimmed ((coveredCells range viewport buffer row).map cellChar)) := by
  have hlength := viewport.length_rowAtAbsolute buffer row
  have hcols : (columnsForRow range row buffer.cols).2 ≤ buffer.cols := Nat.min_le_right _ _
  rw [lineOf]
  by_cases hempty :
      (columnsForRow range row buffer.cols).1 ≥ (columnsForRow range row buffer.cols).2
  · have hnone : coveredCells range viewport buffer row = [] := by
      rw [coveredCells]
      refine drop_eq_nil_of_le ?_
      rw [length_take]
      omega
    simp only [if_pos hempty, hnone]
    rfl
  simp only [if_neg hempty, sliceOf]
  rw [if_pos ⟨by omega, by omega⟩]
  rfl

theorem selectedText_eq (hrange : selection.range = some range) :
    selection.selectedText viewport buffer = some (['\n'].intercalate
      ((rowsThrough range.start.row range.stop.row).map fun row =>
        trimmed ((coveredCells range viewport buffer row).map cellChar))) := by
  have hlines : lineOf range viewport buffer = fun row =>
      pure (trimmed ((coveredCells range viewport buffer row).map cellChar)) :=
    funext (lineOf_eq range viewport buffer)
  rw [selectedText, hrange]
  simp only [hlines, mapM_pure]
  rfl

theorem selectedText_congr {shown : GridBuffer} (hcols : shown.cols = buffer.cols)
    (h : ∀ range, selection.range = some range → ∀ row, range.start.row ≤ row →
      row ≤ range.stop.row → other.rowAtAbsolute shown row = viewport.rowAtAbsolute buffer row) :
    selection.selectedText other shown = selection.selectedText viewport buffer := by
  cases hrange : selection.range with
  | none => simp only [selectedText, hrange]
  | some range =>
    rw [selectedText_eq hrange, selectedText_eq hrange]
    refine congrArg (fun lines => some (['\n'].intercalate lines)) ?_
    refine map_congr_left fun row hrow => ?_
    obtain ⟨hfirst, hlast⟩ := mem_rowsThrough.mp hrow
    simp only [coveredCells, h range hrange row hfirst hlast, hcols]

/-! ### Glyphs -/

/-- A character for each glyph, and none for the second cell of a wide one. -/
def glyphs (cells : List GridCell) : List Char :=
  (cells.filter (·.scalar ≠ 0)).map fun cell => GridBuffer.charOf cell.scalar

/-- The text of the glyphs in the cells of a selection. -/
def glyphText (viewport : ScrollbackViewport) (buffer : GridBuffer)
    (selection : TerminalSelection) : List Char :=
  match selection.range with
  | none => []
  | some range => ['\n'].intercalate
      ((rowsThrough range.start.row range.stop.row).map fun row =>
        trimmed (glyphs (coveredCells range viewport buffer row)))

/-- Every cell up to the last that is not blank has a glyph of its own. -/
def Dense (cells : List GridCell) : Prop :=
  ∀ cell ∈ cells.rdropWhile (cellChar · = ' '), cell.scalar ≠ 0

theorem cellChar_eq {cell : GridCell} (h : cell.scalar ≠ 0) :
    GridBuffer.charOf cell.scalar = cellChar cell := by rw [cellChar, if_neg h]

variable (cells : List GridCell)

theorem trimmed_map :
    trimmed (cells.map cellChar) = (cells.rdropWhile (cellChar · = ' ')).map cellChar := by
  rw [trimmed, List.rdropWhile, ← map_reverse, dropWhile_map, ← map_reverse]
  rfl

theorem trimmed_glyphs : trimmed (glyphs cells)
      = ((cells.rdropWhile (cellChar · = ' ')).filter (·.scalar ≠ 0)).map cellChar := by
  have hchars : glyphs cells = (cells.filter (·.scalar ≠ 0)).map cellChar := by
    refine map_congr_left fun cell hcell => cellChar_eq ?_
    simpa using (List.mem_filter.mp hcell).2
  have hblank : (fun cell : GridCell => !decide (cell.scalar ≠ 0) || decide (cellChar cell = ' '))
      = fun cell => decide (cellChar cell = ' ') := by
    funext cell
    by_cases hzero : cell.scalar = 0
    · simp [hzero, cellChar]
    · simp [hzero]
  rw [hchars, trimmed_map, List.rdropWhile, ← filter_reverse, dropWhile_filter, hblank,
    ← filter_reverse, List.rdropWhile]

/-- A line is that of its glyphs exactly if a second cell is followed by blanks only. -/
theorem trimmed_iff : trimmed (cells.map cellChar) = trimmed (glyphs cells) ↔ Dense cells := by
  rw [trimmed_map, trimmed_glyphs]
  constructor
  · intro h
    have hlength := congrArg List.length h
    rw [length_map, length_map] at hlength
    have hall := List.length_filter_eq_length_iff.mp hlength.symm
    intro cell hcell
    simpa using hall cell hcell
  · intro hdense
    rw [List.filter_eq_self.mpr fun cell hcell => decide_eq_true (hdense cell hcell)]

theorem cellChar_ne_newline (cell : GridCell) : cellChar cell ≠ '\n' := by
  unfold cellChar GridBuffer.charOf
  split
  · decide
  split
  · simp only []
    split
    · decide
    · next hbreak => exact fun h => hbreak (.inl h)
  · decide

theorem newline_notMem : '\n' ∉ cells.map cellChar := by
  intro hmem
  obtain ⟨cell, -, hcell⟩ := List.mem_map.mp hmem
  exact cellChar_ne_newline cell hcell

/-- Lines that do not hold the separator are read back from what they are joined to. -/
theorem intercalate_map_inj {rows : List Int64} {f g : Int64 → List Char}
    (hf : ∀ row ∈ rows, '\n' ∉ f row) (hg : ∀ row ∈ rows, '\n' ∉ g row) :
    ['\n'].intercalate (rows.map f) = ['\n'].intercalate (rows.map g) ↔
      ∀ row ∈ rows, f row = g row := by
  constructor
  · intro h
    by_cases hnil : rows = []
    · simp [hnil]
    have hsplit : ∀ lines : Int64 → List Char, (∀ row ∈ rows, '\n' ∉ lines row) →
        (['\n'].intercalate (rows.map lines)).splitOn '\n' = rows.map lines := by
      intro lines hlines
      refine splitOn_intercalate '\n' (fun line hline => ?_) (by simpa using hnil)
      obtain ⟨row, hrow, rfl⟩ := List.mem_map.mp hline
      exact hlines row hrow
    have hmap : rows.map f = rows.map g := by rw [← hsplit f hf, h, hsplit g hg]
    exact List.map_inj_left.mp hmap
  · intro h
    rw [map_congr_left h]

theorem selectedText_eq_iff (viewport : ScrollbackViewport) (buffer : GridBuffer)
    (selection : TerminalSelection) :
    selection.selectedText viewport buffer = some (selection.glyphText viewport buffer) ↔
      ∀ range, selection.range = some range → ∀ row, range.start.row ≤ row →
        row ≤ range.stop.row → Dense (coveredCells range viewport buffer row) := by
  cases hrange : selection.range with
  | none => simp [selectedText, glyphText, hrange]
  | some range =>
    have hglyphs : selection.glyphText viewport buffer = ['\n'].intercalate
        ((rowsThrough range.start.row range.stop.row).map fun row =>
          trimmed (glyphs (coveredCells range viewport buffer row))) := by
      rw [glyphText, hrange]
    rw [selectedText_eq hrange, hglyphs, Option.some.injEq, intercalate_map_inj]
    · constructor
      · intro h other hother row hfirst hlast
        obtain ⟨⟩ := hother
        exact (trimmed_iff _).mp (h row (mem_rowsThrough.mpr ⟨hfirst, hlast⟩))
      · intro h row hrow
        obtain ⟨hfirst, hlast⟩ := mem_rowsThrough.mp hrow
        exact (trimmed_iff _).mpr (h range rfl row hfirst hlast)
    · intro row _
      rw [trimmed_map]
      exact newline_notMem _
    intro row _
    rw [trimmed_glyphs]
    exact newline_notMem _

theorem isSome_selectedText (viewport : ScrollbackViewport) (buffer : GridBuffer)
    (selection : TerminalSelection) : (selection.selectedText viewport buffer).isSome := by
  cases hrange : selection.range with
  | none => simp only [selectedText, hrange, Option.isSome_some]
  | some range => rw [selectedText_eq hrange, Option.isSome_some]

/-! ### Spans -/

/-- The selection covers some of the row. -/
def Covers (cols : Nat) (row : Int64) (selection : TerminalSelection) : Prop :=
  ∃ range, selection.range = some range ∧ range.start.row ≤ row ∧ row ≤ range.stop.row ∧
    (columnsForRow range row cols).1 < (columnsForRow range row cols).2

theorem Covers.cols_ne_zero {cols : Nat} {row : Int64} (h : selection.Covers cols row) :
    cols ≠ 0 := by
  rintro rfl
  obtain ⟨range, -, -, -, hlt⟩ := h
  simp [columnsForRow] at hlt

/-- The rows of the window that the selection covers, each by its place there. -/
def spanRows (viewport : ScrollbackViewport) (visibleRows cols : Nat)
    (selection : TerminalSelection) : List Nat :=
  (selection.visibleSpans viewport visibleRows cols).map (·.row)

/-- The last row that a span is looked for in. -/
def lastVisible (visibleRows : Nat) (viewport : ScrollbackViewport) : Int64 :=
  I64.saturatingSub (I64.saturatingAdd (viewport.absoluteRow 0) (I64.fromUsize visibleRows)) 1

theorem toInt_lastVisible (visibleRows : Nat) (viewport : ScrollbackViewport) :
    (lastVisible visibleRows viewport).toInt = max (-2 ^ 63) (min (2 ^ 63 - 1)
      ((viewport.absoluteRow 0).toInt + min (2 ^ 63 - 1) visibleRows) - 1) := by
  have hfirst := (viewport.absoluteRow 0).le_toInt
  have hone : Int64.toInt 1 = 1 := rfl
  rw [lastVisible, toInt_saturatingSub, toInt_saturatingAdd, I64.fromUsize, toInt_saturate, hone]
  omega

theorem spanOfRow_eq_some {windowTop absoluteRow : Int64} {cols : Nat} {span : SelectionSpan}
    (h : spanOfRow range windowTop cols absoluteRow = some span) :
    (columnsForRow range absoluteRow cols).1 < (columnsForRow range absoluteRow cols).2 ∧
      span.row = (absoluteRow - windowTop).toInt.toNat := by
  simp only [spanOfRow] at h
  split at h <;> obtain ⟨⟩ := h
  next hcovered =>
  exact ⟨hcovered.1, rfl⟩

theorem mem_visibleSpans (hrange : selection.range = some range) {visibleRows cols : Nat}
    (hcols : cols ≠ 0) {span : SelectionSpan} :
    span ∈ selection.visibleSpans viewport visibleRows cols ↔
      ∃ absoluteRow : Int64, (range.start.row ≤ absoluteRow ∧ absoluteRow ≤ range.stop.row) ∧
        (viewport.absoluteRow 0 ≤ absoluteRow ∧ absoluteRow ≤ lastVisible visibleRows viewport) ∧
        spanOfRow range (viewport.absoluteRow 0) cols absoluteRow = some span := by
  rw [visibleSpans, hrange]
  simp only [if_neg hcols]
  rw [← lastVisible]
  have hfirst : ∀ row : Int64,
      (if range.start.row < viewport.absoluteRow 0 then viewport.absoluteRow 0
        else range.start.row) ≤ row ↔ range.start.row ≤ row ∧ viewport.absoluteRow 0 ≤ row := by
    intro row
    split <;> simp only [le_iff_toInt_le, lt_iff_toInt_lt] at * <;> omega
  have hlast : ∀ row : Int64, row ≤ (if lastVisible visibleRows viewport < range.stop.row then
          lastVisible visibleRows viewport
        else range.stop.row) ↔ row ≤ range.stop.row ∧ row ≤ lastVisible visibleRows viewport := by
    intro row
    split <;> simp only [le_iff_toInt_le, lt_iff_toInt_lt] at * <;> omega
  generalize (if range.start.row < viewport.absoluteRow 0 then viewport.absoluteRow 0
    else range.start.row) = first at *
  generalize (if lastVisible visibleRows viewport < range.stop.row then
    lastVisible visibleRows viewport else range.stop.row) = last at *
  split
  · next hempty =>
    constructor
    · intro hmem
      cases hmem
    · rintro ⟨row, ⟨hstart, hstop⟩, ⟨htop, hbottom⟩, -⟩
      have hbelow := (hfirst row).mpr ⟨hstart, htop⟩
      have habove := (hlast row).mpr ⟨hstop, hbottom⟩
      exact absurd (Int64.le_trans hbelow habove) (Int64.not_le.mpr hempty)
  rw [mem_filterMap]
  simp only [mem_rowsThrough, hfirst, hlast]
  constructor
  · rintro ⟨row, ⟨⟨hstart, htop⟩, hstop, hbottom⟩, hspan⟩
    exact ⟨row, ⟨hstart, hstop⟩, ⟨htop, hbottom⟩, hspan⟩
  · rintro ⟨row, ⟨hstart, hstop⟩, ⟨htop, hbottom⟩, hspan⟩
    exact ⟨row, ⟨⟨hstart, htop⟩, hstop, hbottom⟩, hspan⟩

theorem mem_spanRows {visibleRows cols row : Nat} :
    row ∈ selection.spanRows viewport visibleRows cols ↔
      ∃ absoluteRow : Int64, selection.Covers cols absoluteRow ∧
        absoluteRow.toInt ≤ (lastVisible visibleRows viewport).toInt ∧
        absoluteRow.toInt = (viewport.absoluteRow 0).toInt + row := by
  have hbottom := toInt_lastVisible visibleRows viewport
  have hlow := (viewport.absoluteRow 0).le_toInt
  -- the difference of two rows of the window fits
  have hdiff : ∀ absoluteRow : Int64, viewport.absoluteRow 0 ≤ absoluteRow →
      absoluteRow ≤ lastVisible visibleRows viewport → (absoluteRow - viewport.absoluteRow 0).toInt
          = absoluteRow.toInt - (viewport.absoluteRow 0).toInt := by
    intro absoluteRow htop hlast
    rw [le_iff_toInt_le] at htop hlast
    exact toInt_sub_of_fits (by omega) (by omega)
  rw [spanRows, mem_map]
  constructor
  · rintro ⟨span, hspan, rfl⟩
    cases hrange : selection.range with
    | none =>
      rw [visibleSpans, hrange] at hspan
      cases hspan
    | some range =>
      by_cases hcols : cols = 0
      · rw [visibleSpans, hrange] at hspan
        simp [hcols] at hspan
      obtain ⟨absoluteRow, ⟨hstart, hstop⟩, ⟨htop, hlast⟩, hspan⟩ :=
        (mem_visibleSpans hrange hcols).mp hspan
      obtain ⟨hcovered, hrow⟩ := spanOfRow_eq_some hspan
      refine ⟨absoluteRow, ⟨range, hrange, hstart, hstop, hcovered⟩,
        Int64.le_iff_toInt_le.mp hlast, ?_⟩
      rw [hrow, hdiff absoluteRow htop hlast]
      rw [le_iff_toInt_le] at htop
      omega
  rintro ⟨absoluteRow, hcovers, hlast, hplace⟩
  have hcols := hcovers.cols_ne_zero
  obtain ⟨range, hrange, hstart, hstop, hcovered⟩ := hcovers
  have htop : viewport.absoluteRow 0 ≤ absoluteRow := by
    rw [le_iff_toInt_le]
    omega
  have hsub := hdiff absoluteRow htop (Int64.le_iff_toInt_le.mpr hlast)
  refine ⟨_, (mem_visibleSpans hrange hcols).mpr ⟨absoluteRow, ⟨hstart, hstop⟩,
    ⟨htop, Int64.le_iff_toInt_le.mpr hlast⟩, if_pos ⟨hcovered, ?_⟩⟩, ?_⟩
  · show (absoluteRow - viewport.absoluteRow 0).toInt.toNat = row
    rw [hsub]
    omega
  · rw [nonneg_iff, hsub]
    omega

/-- The window goes past the last number there is, and the selection covers that row; or the
window is empty, and its place is the first number there is. -/
def PastEnd (viewport : ScrollbackViewport) (visibleRows cols : Nat)
    (selection : TerminalSelection) : Prop :=
  let bottom := I64.saturatingAdd (viewport.absoluteRow 0) (I64.fromUsize visibleRows)
  (bottom.toInt < (viewport.absoluteRow 0).toInt + visibleRows ∧ selection.Covers cols bottom) ∨
    visibleRows = 0 ∧ (viewport.absoluteRow 0).toInt = -2 ^ 63 ∧
      selection.Covers cols (viewport.absoluteRow 0)

theorem spanRows_iff (viewport : ScrollbackViewport) (visibleRows cols : Nat)
    (selection : TerminalSelection) : (∀ row, row ∈ selection.spanRows viewport visibleRows cols ↔
      row < visibleRows ∧ selection.Covers cols (viewport.absoluteRow row)) ↔
        ¬selection.PastEnd viewport visibleRows cols := by
  have hlow := (viewport.absoluteRow 0).le_toInt
  have hhigh := (viewport.absoluteRow 0).toInt_lt
  have hlast := toInt_lastVisible visibleRows viewport
  have hbottom : (I64.saturatingAdd (viewport.absoluteRow 0) (I64.fromUsize visibleRows)).toInt
      = min (2 ^ 63 - 1) ((viewport.absoluteRow 0).toInt + min (2 ^ 63 - 1) visibleRows) := by
    rw [toInt_saturatingAdd, I64.fromUsize, toInt_saturate]
    omega
  constructor
  · rintro hrows (⟨hpast, hcovers⟩ | ⟨hempty, hfirst, hcovers⟩)
    · -- the row at the end is shown, and no span is looked for in it
      generalize hedge : I64.saturatingAdd (viewport.absoluteRow 0) (I64.fromUsize visibleRows)
        = edge at *
      have hplace : edge = viewport.absoluteRow
          (edge.toInt - (viewport.absoluteRow 0).toInt).toNat := by
        rw [← toInt_inj, ScrollbackViewport.toInt_absoluteRow]
        omega
      have hmem := (hrows (edge.toInt - (viewport.absoluteRow 0).toInt).toNat).mpr
        ⟨by omega, hplace ▸ hcovers⟩
      obtain ⟨absoluteRow, -, hle, heq⟩ := mem_spanRows.mp hmem
      omega
    · have hmem : 0 ∈ selection.spanRows viewport visibleRows cols :=
        mem_spanRows.mpr ⟨viewport.absoluteRow 0, hcovers, by omega, by omega⟩
      have hlt := ((hrows 0).mp hmem).1
      omega
  intro hends row
  have hrow := viewport.toInt_absoluteRow row
  rw [mem_spanRows]
  constructor
  · rintro ⟨absoluteRow, hcovers, hle, hplace⟩
    have hsame : absoluteRow = viewport.absoluteRow row := by
      rw [← toInt_inj]
      omega
    refine ⟨?_, hsame ▸ hcovers⟩
    by_contra hout
    have hfirst : absoluteRow = viewport.absoluteRow 0 := by
      rw [← toInt_inj]
      omega
    exact hends (.inr ⟨by omega, by omega, hfirst ▸ hcovers⟩)
  rintro ⟨hlt, hcovers⟩
  by_cases hshort : (viewport.absoluteRow 0).toInt + row
      < (I64.saturatingAdd (viewport.absoluteRow 0) (I64.fromUsize visibleRows)).toInt
  · exact ⟨_, hcovers, by omega, by omega⟩
  have hedge : viewport.absoluteRow row
      = I64.saturatingAdd (viewport.absoluteRow 0) (I64.fromUsize visibleRows) := by
    rw [← toInt_inj]
    omega
  exact absurd (.inl ⟨by omega, hedge ▸ hcovers⟩) hends

/-! ### Texts that are kept, and one that is lost -/

/-- The selected rows are as they were, each under the number it has now. -/
def Unchanged (buffer : GridBuffer) (number : Int → Int) (before after : ScrollbackViewport)
    (selection : TerminalSelection) : Prop :=
  ∀ range, selection.range = some range → ∀ row, range.start.row ≤ row → row ≤ range.stop.row →
    after.rowAtAbsolute buffer (.ofInt (number row.toInt)) = before.rowAtAbsolute buffer row

theorem selectedText_of_unchanged {number : Int → Int} (hnumber : ∀ row, number row = row)
    (h : selection.Unchanged buffer number viewport other) :
    selection.selectedText other buffer = selection.selectedText viewport buffer := by
  refine selectedText_congr rfl fun range hrange row hfirst hlast => ?_
  rw [← h range hrange row hfirst hlast, hnumber, ofInt_toInt]

def gridOfOne (scalar : UInt32) : GridBuffer :=
  { cols := 1, rows := 1, cells := [⟨scalar, .default, .default, 0⟩] }

def firstCell (row : Int64) : TerminalSelection := ⟨some ⟨row, 0⟩, some ⟨row, 1⟩⟩

theorem range_firstCell (row : Int64) : (firstCell row).range = some ⟨⟨row, 0⟩, ⟨row, 1⟩⟩ := by
  simp [range, firstCell, SelectionPoint.le]

theorem rowAtAbsolute_live (viewport : ScrollbackViewport) (scalar : UInt32) :
    viewport.rowAtAbsolute (gridOfOne scalar) viewport.liveStartRow
      = [⟨scalar, .default, .default, 0⟩] := by
  have hzero : viewport.liveStartRow - viewport.liveStartRow = 0 := Int64.sub_self _
  simp only [ScrollbackViewport.rowAtAbsolute, ge_iff_le, Int64.le_refl, if_true, hzero]
  rfl

theorem rowAtAbsolute_gridOfOne {row : Int64} (hrow : row ≠ viewport.liveStartRow)
    (scalar scalar' : UInt32) : viewport.rowAtAbsolute (gridOfOne scalar) row
      = viewport.rowAtAbsolute (gridOfOne scalar') row := by
  have hnone : ∀ scalar, (if row - viewport.liveStartRow < 0 then none
      else (gridOfOne scalar).row (row - viewport.liveStartRow).toInt.toNat) = none := by
    intro scalar
    split
    · rfl
    next hnonneg =>
      refine if_pos ?_
      have hne : (row - viewport.liveStartRow).toInt ≠ 0 := by
        intro hdiff
        have hsub : row - viewport.liveStartRow = 0 := Int64.toInt_inj.mp hdiff
        rw [Int64.sub_eq_iff_eq_add, Int64.zero_add] at hsub
        exact hrow hsub
      rw [lt_iff_toInt_lt] at hnonneg
      have hzero : Int64.toInt 0 = 0 := rfl
      show (row - viewport.liveStartRow).toInt.toNat ≥ 1
      omega
  simp only [ScrollbackViewport.rowAtAbsolute, hnone]
  rfl

theorem selectedText_firstCell {row : Int64} {scalar : UInt32}
    (hrow : viewport.rowAtAbsolute (gridOfOne scalar) row = [⟨scalar, .default, .default, 0⟩])
    (hchar : cellChar ⟨scalar, .default, .default, 0⟩ ≠ ' ') :
    (firstCell row).selectedText viewport (gridOfOne scalar)
      = some [cellChar ⟨scalar, .default, .default, 0⟩] := by
  have hrows : rowsThrough row row = [row] := by
    simp [rowsThrough]
  have hcells : coveredCells ⟨⟨row, 0⟩, ⟨row, 1⟩⟩ viewport (gridOfOne scalar) row
      = [⟨scalar, .default, .default, 0⟩] := by
    rw [coveredCells, hrow]
    simp [columnsForRow, gridOfOne]
  rw [selectedText_eq (range_firstCell row), hrows, map_singleton, hcells]
  simp [trimmed, rdropWhile_singleton, hchar]

end TerminalSelection

namespace ViewportStep

open TerminalSelection

/-- The step leaves every selection the text it had, if it leaves the selected rows as they
were. -/
def KeepsTexts (step : ViewportStep) : Prop :=
  ∀ (buffer : GridBuffer) (selection : TerminalSelection),
    selection.Unchanged buffer step.renumber step.before step.after →
      selection.selectedText step.after buffer = selection.selectedText step.before buffer

/-- At the live edge the text of the first cell is lost as soon as the edge moves. -/
theorem steady_iff_keepsTexts {viewport : ScrollbackViewport} (h : viewport.Pinned)
    (hlive : viewport.viewOffset = 0) (call : ViewportCall) :
    Steady (taken ViewportCall.step viewport call) ↔
      KeepsTexts (taken ViewportCall.step viewport call) := by
  constructor
  · intro hsteady buffer selection hunchanged
    exact selectedText_of_unchanged ((steady_iff h call).mp hsteady) hunchanged
  intro hkeeps liveStartRow harrives
  have hmoved : viewport.Moved liveStartRow (call.apply viewport) := moved_of_live harrives
  have hoffset := hmoved.toInt_offset
  have hzero : viewport.viewOffset.toInt = 0 := by
    rw [hlive]
    rfl
  rw [h.heldOffset_eq hzero, hzero] at hoffset
  have htop : viewport.absoluteRow 0 = viewport.liveStartRow := by
    rw [← toInt_inj, h.toInt_absoluteRow]
    omega
  have htop' : (call.apply viewport).absoluteRow 0 = liveStartRow := by
    rw [← toInt_inj, hmoved.pinned.toInt_absoluteRow, hmoved.live_eq]
    omega
  left
  show liveStartRow = viewport.absoluteRow 0
  rw [htop]
  by_contra hne
  -- the live row, renumbered, is shown by both views; the selection stays on the old number
  have hunchanged : ∀ scalar, (firstCell viewport.liveStartRow).Unchanged (gridOfOne scalar)
      (renumber (taken ViewportCall.step viewport call)) viewport (call.apply viewport) := by
    intro scalar range hrange row hfirst hlast
    rw [range_firstCell, Option.some.injEq] at hrange
    subst hrange
    obtain rfl : row = viewport.liveStartRow := Int64.le_antisymm hlast hfirst
    have hnumber : renumber (taken ViewportCall.step viewport call) viewport.liveStartRow.toInt
        = liveStartRow.toInt := by
      have hinput : (taken ViewportCall.step viewport call).input.liveStartRow?
          = some liveStartRow := harrives
      simp only [renumber, hinput]
      simp only [taken, ViewportCall.step, htop, htop']
      omega
    rw [hnumber, ofInt_toInt, rowAtAbsolute_live, ← hmoved.live_eq, rowAtAbsolute_live]
  have htext : ∀ scalar, cellChar ⟨scalar, .default, .default, 0⟩ ≠ ' ' →
      (firstCell viewport.liveStartRow).selectedText (call.apply viewport) (gridOfOne scalar)
        = some [cellChar ⟨scalar, .default, .default, 0⟩] := by
    intro scalar hchar
    rw [← selectedText_firstCell (rowAtAbsolute_live viewport scalar) hchar]
    exact hkeeps _ _ (hunchanged scalar)
  have hsame : (firstCell viewport.liveStartRow).selectedText (call.apply viewport) (gridOfOne 97)
      = (firstCell viewport.liveStartRow).selectedText (call.apply viewport) (gridOfOne 98) := by
    refine selectedText_congr rfl fun range hrange row hfirst hlast => ?_
    rw [range_firstCell, Option.some.injEq] at hrange
    subst hrange
    obtain rfl : row = viewport.liveStartRow := Int64.le_antisymm hlast hfirst
    refine rowAtAbsolute_gridOfOne ?_ 97 98
    rw [hmoved.live_eq]
    exact fun hlast => hne hlast.symm
  rw [htext 97 (by decide), htext 98 (by decide)] at hsame
  revert hsame
  decide

end ViewportStep

open TerminalSelection

/--
**A selection keeps its text** over calls that are all steady: the numbers of the rows stay
what they are, and where the rows do, so does the text.  A step is steady exactly if it
changes no number, and at the live edge exactly if it loses no text.  In any state the rows
of the spans are the covered ones unless the window goes past the last number; the text is
that of the glyphs exactly if every line has one in each cell up to its end; and no row is
read outside its cells.
-/
theorem selection_kept (earlier later : List ViewportCall) (buffer : GridBuffer)
    (selection : TerminalSelection) (visibleRows cols : Nat) :
    let held := (run ViewportCall.step {} earlier).1
    let steps := (run ViewportCall.step held later).2
    let now := (run ViewportCall.step held later).1
    ((∀ step ∈ steps, ViewportStep.Steady step) → (∀ row, ViewportStep.renumbered steps row = row) ∧
        (selection.Unchanged buffer (ViewportStep.renumbered steps) held now →
          selection.selectedText now buffer = selection.selectedText held buffer)) ∧
    (∀ step ∈ steps, (ViewportStep.Steady step ↔ ∀ row, ViewportStep.renumber step row = row) ∧
        (step.before.viewOffset = 0 → (ViewportStep.Steady step ↔ ViewportStep.KeepsTexts step))) ∧
    ((∀ row, row ∈ selection.spanRows now visibleRows cols ↔
      row < visibleRows ∧ selection.Covers cols (now.absoluteRow row)) ↔
        ¬selection.PastEnd now visibleRows cols) ∧
    (selection.selectedText now buffer = some (selection.glyphText now buffer) ↔
      ∀ range, selection.range = some range → ∀ row, range.start.row ≤ row →
        row ≤ range.stop.row → Dense (coveredCells range now buffer row)) ∧
    (selection.selectedText now buffer).isSome := by
  intro held steps now
  have hheld : held.Pinned := (pinned_run .new earlier).1
  refine ⟨fun hsteady => ?_, fun step hstep => ⟨?_, fun hlive => ?_⟩,
    spanRows_iff now visibleRows cols selection, selectedText_eq_iff now buffer selection,
    isSome_selectedText now buffer selection⟩
  · have hkept : ∀ row, ViewportStep.renumbered steps row = row :=
      renumbered_eq fun step hstep =>
        (steady_iff_of_mem hheld hstep).mp (hsteady step hstep)
    exact ⟨hkept, selectedText_of_unchanged hkept⟩
  · exact steady_iff_of_mem hheld hstep
  · have hbefore := (pinned_run hheld later).2 step hstep
    rw [run_mem hstep]
    exact steady_iff_keepsTexts hbefore hlive step.input

/-- A word in the first live row, and a wide glyph with another behind it. -/
def helloGrid : GridBuffer where
  cols := 5
  rows := 1
  cells := ([104, 101, 108, 108, 111] : List UInt32).map fun scalar =>
    ⟨scalar, .default, .default, 0⟩

def wideGrid : GridBuffer where
  cols := 3
  rows := 1
  cells := ([30028, 0, 120] : List UInt32).map fun scalar => ⟨scalar, .default, .default, 0⟩

/-- The first geometry leaves the window as it is, and takes the selected word away. -/
theorem selection_lost : let selection := ({} : TerminalSelection).setFromWindow {} 0 0 5 0
    let now := (run ViewportCall.step {} [.applyGeometry 100 100 1 1]).1
    now.compose helloGrid 1 = ({} : ScrollbackViewport).compose helloGrid 1 ∧
      selection.selectedText {} helloGrid = some ['h', 'e', 'l', 'l', 'o'] ∧
      selection.selectedText now helloGrid = some [] ∧
      selection.spanRows {} 1 5 = [0] ∧ selection.spanRows now 1 5 = [] ∧
      selection.selectedText {} wideGrid = some ['界', ' ', 'x'] ∧
      selection.glyphText {} wideGrid = ['界', 'x'] := by
  decide

end Diri
