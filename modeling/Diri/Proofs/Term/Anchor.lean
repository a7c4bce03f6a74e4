/-
What stays under a scrolled window.

The offset and the anchor say the same thing once the geometry is known: the anchor is
the live edge less the offset, and there is none at the live edge (`Placed`).  Every call
keeps that, and rows that are applied then leave the first row of the window where it
was.  Before the geometry is known the live edge counts as zero, and so the anchor of a
view scrolled then is a row that was never there: the first geometry takes it to the
oldest row, unless the view has at most that far to go (`step_anchored_iff`).
-/
import Diri.Term.Scrollback

namespace Diri

open I64 Int64 List

namespace ScrollbackViewport

variable {viewport : ScrollbackViewport}

/-- How the offset, the anchor and the live edge belong together. -/
structure Placed (viewport : ScrollbackViewport) : Prop where
  live_nonneg : 0 ≤ viewport.liveStartRow.toInt
  offset_nonneg : 0 ≤ viewport.viewOffset.toInt
  anchor_eq : viewport.anchor =
    if viewport.viewOffset > 0 then
      some (I64.saturatingSub viewport.liveStartRow viewport.viewOffset)
    else none
  unknown : viewport.geometryKnown = false → viewport.liveStartRow = 0
  offset_le : viewport.geometryKnown = true →
    viewport.viewOffset.toInt ≤ viewport.liveStartRow.toInt

/-- The same, whatever the live edge is: one that is no row has no history behind it. -/
structure Pinned (viewport : ScrollbackViewport) : Prop where
  offset_nonneg : 0 ≤ viewport.viewOffset.toInt
  anchor_eq : viewport.anchor =
    if viewport.viewOffset > 0 then
      some (I64.saturatingSub viewport.liveStartRow viewport.viewOffset)
    else none
  unknown : viewport.geometryKnown = false → viewport.liveStartRow = 0
  offset_le : viewport.geometryKnown = true →
    viewport.viewOffset.toInt ≤ max 0 viewport.liveStartRow.toInt

theorem Pinned.new : Pinned {} where
  offset_nonneg := by decide
  anchor_eq := rfl
  unknown _ := rfl
  offset_le h := Bool.noConfusion h

theorem Placed.pinned (h : viewport.Placed) : viewport.Pinned :=
  ⟨h.offset_nonneg, h.anchor_eq, h.unknown,
    fun hknown => Int.le_trans (h.offset_le hknown) (Int.le_max_right _ _)⟩

theorem Pinned.placed (h : viewport.Pinned) (hlive : 0 ≤ viewport.liveStartRow.toInt) :
    viewport.Placed := by
  refine ⟨hlive, h.offset_nonneg, h.anchor_eq, h.unknown, fun hknown => ?_⟩
  have hle := h.offset_le hknown
  omega

theorem Placed.new : Placed {} := Pinned.new.placed (by decide)

/-! ### Calls that bring no rows -/

/-- Such a call leaves the view as it is, or pins it anew at an offset within the bounds. -/
structure Scrolled (viewport other : ScrollbackViewport) : Prop where
  live_eq : other.liveStartRow = viewport.liveStartRow
  known_eq : other.geometryKnown = viewport.geometryKnown
  view : (other.viewOffset = viewport.viewOffset ∧ other.anchor = viewport.anchor) ∨
    0 ≤ other.viewOffset.toInt ∧
      (viewport.geometryKnown = true → other.viewOffset.toInt ≤ max 0 viewport.liveStartRow.toInt) ∧
      other.anchor =
        if other.viewOffset > 0 then
          some (I64.saturatingSub viewport.liveStartRow other.viewOffset)
        else none

variable {other : ScrollbackViewport}

theorem toInt_maxOffset (visibleRows : Nat) (viewport : ScrollbackViewport) :
    0 ≤ (viewport.maxOffset visibleRows).toInt ∧ (viewport.geometryKnown = true →
        (viewport.maxOffset visibleRows).toInt = max 0 viewport.liveStartRow.toInt) := by
  have hzero : Int64.toInt 0 = 0 := rfl
  unfold maxOffset
  cases viewport.geometryKnown with
  | true =>
    simp only [if_true]
    by_cases hneg : viewport.liveStartRow < 0
    · rw [if_pos hneg]
      rw [lt_iff_toInt_lt] at hneg
      omega
    rw [if_neg hneg]
    rw [lt_iff_toInt_lt] at hneg
    omega
  | false =>
    refine ⟨?_, fun hfalse => Bool.noConfusion hfalse⟩
    simp only [Bool.false_eq_true, if_false]
    by_cases hneg : I64.saturatingAdd viewport.viewOffset (I64.fromUsize visibleRows) < 0
    · rw [if_pos hneg]
      omega
    rw [if_neg hneg]
    rw [lt_iff_toInt_lt] at hneg
    omega

theorem scrolled_setViewOffset (offset : Int64) (visibleRows : Nat)
    (viewport : ScrollbackViewport) :
    viewport.Scrolled (viewport.setViewOffset offset visibleRows) := by
  obtain ⟨hmax, hknown⟩ := toInt_maxOffset visibleRows viewport
  have hclamped : (clampTo 0 (viewport.maxOffset visibleRows) offset).toInt
      = max 0 (min (viewport.maxOffset visibleRows).toInt offset.toInt) :=
    toInt_clampTo (nonneg_iff.mpr hmax) offset
  unfold ScrollbackViewport.setViewOffset
  by_cases hsame : clampTo 0 (viewport.maxOffset visibleRows) offset = viewport.viewOffset
  · simp only [hsame, if_true]
    exact ⟨rfl, rfl, .inl ⟨rfl, rfl⟩⟩
  simp only [hsame, if_false]
  refine ⟨rfl, rfl, .inr ⟨?_, fun hgeometry => ?_, rfl⟩⟩
  · show 0 ≤ (clampTo 0 (viewport.maxOffset visibleRows) offset).toInt
    omega
  · have hle := hknown hgeometry
    show (clampTo 0 (viewport.maxOffset visibleRows) offset).toInt
      ≤ max 0 viewport.liveStartRow.toInt
    omega

theorem scrolled_enterAltScreen (viewport : ScrollbackViewport) :
    viewport.Scrolled viewport.enterAltScreen := by
  unfold ScrollbackViewport.enterAltScreen
  by_cases hzero : viewport.viewOffset = 0
  · rw [if_pos hzero]
    exact ⟨rfl, rfl, .inl ⟨rfl, rfl⟩⟩
  · rw [if_neg hzero]
    exact ⟨rfl, rfl, .inr ⟨Int.le_refl 0, fun _ => Int.le_max_left _ _, rfl⟩⟩

theorem Pinned.scrolled (h : viewport.Pinned) (hscrolled : viewport.Scrolled other) :
    other.Pinned := by
  have hunknown : other.geometryKnown = false → other.liveStartRow = 0 := by
    rw [hscrolled.known_eq, hscrolled.live_eq]
    exact h.unknown
  rcases hscrolled.view with ⟨hoffset, hanchor⟩ | ⟨hnonneg, hle, hanchor⟩
  · refine ⟨hoffset ▸ h.offset_nonneg, ?_, hunknown, ?_⟩
    · rw [hanchor, hoffset, hscrolled.live_eq, h.anchor_eq]
    · rw [hscrolled.known_eq, hoffset, hscrolled.live_eq]
      exact h.offset_le
  refine ⟨hnonneg, ?_, hunknown, ?_⟩
  · rw [hanchor, hscrolled.live_eq]
  · rw [hscrolled.known_eq, hscrolled.live_eq]
    exact hle

theorem Placed.scrolled (h : viewport.Placed) (hscrolled : viewport.Scrolled other) :
    other.Placed := by
  refine (h.pinned.scrolled hscrolled).placed ?_
  rw [hscrolled.live_eq]
  exact h.live_nonneg

/-! ### Rows that are applied -/

/-- The offset a view goes to when a new live edge arrives. -/
def heldOffset (liveStartRow : Int64) (viewport : ScrollbackViewport) : Int64 :=
  match viewport.anchor with
  | some anchor => I64.saturatingSub liveStartRow anchor
  | none => viewport.viewOffset

/-- What applied rows do to the view, whatever they do to the cache. -/
structure Moved (viewport : ScrollbackViewport) (liveStartRow : Int64)
    (moved : ScrollbackViewport) : Prop where
  live_eq : moved.liveStartRow = liveStartRow
  known : moved.geometryKnown = true
  offset_eq : moved.viewOffset =
    clampTo 0 (if liveStartRow < 0 then 0 else liveStartRow) (viewport.heldOffset liveStartRow)
  anchor_eq : moved.anchor =
    if moved.viewOffset > 0 then some (I64.saturatingSub liveStartRow moved.viewOffset) else none

theorem moved_applyRows (rows : List (List GridCell)) (firstRow liveStartRow totalRows : Int64)
    (contentSeq : UInt64) (visibleRows : Nat) (viewport : ScrollbackViewport) :
    viewport.Moved liveStartRow
      (viewport.applyRows rows firstRow liveStartRow totalRows contentSeq visibleRows) := by
  have hanchor : (viewport.invalidate contentSeq).anchor = viewport.anchor := by
    unfold invalidate
    split <;> rfl
  have hoffset : (viewport.invalidate contentSeq).viewOffset = viewport.viewOffset := by
    unfold invalidate
    split <;> rfl
  cases hpinned : viewport.anchor with
  | none =>
    have hheld : viewport.heldOffset liveStartRow = viewport.viewOffset := by
      rw [heldOffset, hpinned]
    rw [hpinned] at hanchor
    simp only [applyRows, holdAnchor, hanchor]
    refine ⟨rfl, rfl, ?_, rfl⟩
    rw [hheld, ← hoffset]
    rfl
  | some anchor =>
    have hheld : viewport.heldOffset liveStartRow = I64.saturatingSub liveStartRow anchor := by
      rw [heldOffset, hpinned]
    rw [hpinned] at hanchor
    simp only [applyRows, holdAnchor, hanchor]
    refine ⟨rfl, rfl, ?_, rfl⟩
    rw [hheld]
    rfl

variable {moved : ScrollbackViewport} {liveStartRow : Int64}

section
variable (h : viewport.Moved liveStartRow moved)
include h

theorem Moved.toInt_offset : moved.viewOffset.toInt
      = max 0 (min (max 0 liveStartRow.toInt) (viewport.heldOffset liveStartRow).toInt) := by
  have hzero : Int64.toInt 0 = 0 := rfl
  rw [h.offset_eq]
  by_cases hneg : liveStartRow < 0
  · rw [if_pos hneg, toInt_clampTo (Int64.le_refl 0)]
    rw [lt_iff_toInt_lt] at hneg
    omega
  rw [if_neg hneg]
  rw [lt_iff_toInt_lt] at hneg
  rw [toInt_clampTo (nonneg_iff.mpr (by omega))]
  omega

theorem Moved.pinned : moved.Pinned := by
  have hoffset := h.toInt_offset
  refine ⟨by omega, ?_, fun hfalse => ?_, fun _ => ?_⟩
  · rw [h.anchor_eq, h.live_eq]
  · rw [h.known] at hfalse
    cases hfalse
  · rw [h.live_eq]
    omega

theorem Moved.placed (hlive : 0 ≤ liveStartRow.toInt) : moved.Placed := by
  refine h.pinned.placed ?_
  rw [h.live_eq]
  exact hlive

end

theorem Pinned.toInt_absoluteRow (h : viewport.Pinned) :
    (viewport.absoluteRow 0).toInt = viewport.liveStartRow.toInt - viewport.viewOffset.toInt := by
  have hoffset := h.offset_nonneg
  have hroom := viewport.viewOffset.toInt_lt
  have hfirst := viewport.liveStartRow.le_toInt
  have hlast := viewport.liveStartRow.toInt_lt
  have hzero : (I64.fromUsize 0).toInt = 0 := rfl
  rw [absoluteRow, toInt_saturatingAdd, toInt_saturatingSub, hzero]
  cases hknown : viewport.geometryKnown with
  | true =>
    have hle := h.offset_le hknown
    omega
  | false =>
    have hlive : viewport.liveStartRow.toInt = 0 := by
      rw [h.unknown hknown]
      rfl
    omega

/-- The offset a scrolled view is held at: the new live edge less the row it was pinned to. -/
theorem Pinned.toInt_heldOffset (h : viewport.Pinned) (hpos : 0 < viewport.viewOffset.toInt)
    (liveStartRow : Int64) :
    (viewport.heldOffset liveStartRow).toInt = max (-2 ^ 63) (min (2 ^ 63 - 1)
      (liveStartRow.toInt - (viewport.liveStartRow.toInt - viewport.viewOffset.toInt))) := by
  have htop := h.toInt_absoluteRow
  have hfirst := (viewport.absoluteRow 0).le_toInt
  have hlast := (viewport.absoluteRow 0).toInt_lt
  have hanchor := h.anchor_eq
  rw [if_pos (pos_iff.mpr hpos)] at hanchor
  rw [heldOffset, hanchor]
  show (I64.saturatingSub liveStartRow
    (I64.saturatingSub viewport.liveStartRow viewport.viewOffset)).toInt = _
  rw [toInt_saturatingSub, toInt_saturatingSub]
  omega

theorem Pinned.heldOffset_eq (h : viewport.Pinned) (hzero : viewport.viewOffset.toInt = 0)
    (liveStartRow : Int64) : viewport.heldOffset liveStartRow = viewport.viewOffset := by
  have hanchor := h.anchor_eq
  rw [if_neg] at hanchor
  · rw [heldOffset, hanchor]
  · rw [gt_iff_lt, pos_iff, hzero]
    exact Int.lt_irrefl 0

section
variable (h : viewport.Moved liveStartRow moved)
include h

/-- The window's first row keeps its number if the live edge is that row, or if the view is
scrolled back from a known live edge and the new one is no earlier than the row. -/
theorem Moved.absoluteRow_eq_iff (hpinned : viewport.Pinned) :
    moved.absoluteRow 0 = viewport.absoluteRow 0 ↔ liveStartRow = viewport.absoluteRow 0 ∨
        viewport.viewOffset > 0 ∧ viewport.geometryKnown = true ∧
          viewport.absoluteRow 0 ≤ liveStartRow := by
  have hoffset := h.toInt_offset
  have hnonneg := hpinned.offset_nonneg
  have htop := hpinned.toInt_absoluteRow
  have hfirst := liveStartRow.le_toInt
  have hlast := liveStartRow.toInt_lt
  rw [← toInt_inj, ← toInt_inj, le_iff_toInt_le, gt_iff_lt, pos_iff,
    h.pinned.toInt_absoluteRow, htop, h.live_eq]
  by_cases hpos : 0 < viewport.viewOffset.toInt
  · have hheld := hpinned.toInt_heldOffset hpos liveStartRow
    cases hknown : viewport.geometryKnown with
    | true =>
      have hle := hpinned.offset_le hknown
      simp only [hpos, true_and]
      omega
    | false =>
      have hlive : viewport.liveStartRow.toInt = 0 := by
        rw [hpinned.unknown hknown]
        rfl
      simp only [Bool.false_eq_true, false_and, and_false, or_false]
      omega
  have hheld := hpinned.heldOffset_eq (by omega) liveStartRow
  rw [hheld] at hoffset
  simp only [hpos, false_and, or_false]
  omega

/-- With the geometry known, a scrolled view stays on its row while the live edge moves away. -/
theorem Moved.absoluteRow_eq (hplaced : viewport.Placed)
    (hrising : viewport.liveStartRow.toInt ≤ liveStartRow.toInt)
    (hknown : viewport.geometryKnown = true) (hpos : 0 < viewport.viewOffset.toInt) :
    moved.absoluteRow 0 = viewport.absoluteRow 0 := by
  refine (h.absoluteRow_eq_iff hplaced.pinned).mpr (.inr ⟨pos_iff.mpr hpos, hknown, ?_⟩)
  rw [le_iff_toInt_le, hplaced.pinned.toInt_absoluteRow]
  omega

/-- Before the geometry is known, a view with somewhere to go ends at the oldest row. -/
theorem Moved.toInt_offset_unknown (hplaced : viewport.Placed) (hlive : 0 ≤ liveStartRow.toInt)
    (hunknown : viewport.geometryKnown = false) :
    moved.viewOffset.toInt = if 0 < viewport.viewOffset.toInt then liveStartRow.toInt else 0 := by
  have hoffset := h.toInt_offset
  have hnonneg := hplaced.offset_nonneg
  have hlast := liveStartRow.toInt_lt
  have hzero : viewport.liveStartRow.toInt = 0 := by
    rw [hplaced.unknown hunknown]
    rfl
  by_cases hpos : 0 < viewport.viewOffset.toInt
  · have hheld := hplaced.pinned.toInt_heldOffset hpos liveStartRow
    rw [if_pos hpos]
    omega
  have hheld := hplaced.pinned.heldOffset_eq (by omega) liveStartRow
  rw [hheld] at hoffset
  rw [if_neg hpos]
  omega

end

end ScrollbackViewport

/-! ### Any order of calls -/

namespace ViewportCall

open ScrollbackViewport

theorem apply_cases (call : ViewportCall) (viewport : ScrollbackViewport) :
    (∃ liveStartRow, call.liveStartRow? = some liveStartRow ∧
      viewport.Moved liveStartRow (call.apply viewport)) ∨
    (call.liveStartRow? = none ∧ viewport.Scrolled (call.apply viewport)) := by
  cases call with
  | setViewOffset offset visibleRows | scrollBy lines visibleRows | scrollToLive visibleRows =>
    exact .inr ⟨rfl, scrolled_setViewOffset _ _ _⟩
  | scrollToAbsolute absoluteRow windowRow visibleRows =>
    exact .inr ⟨rfl, scrolled_setViewOffset _ _ _⟩
  | applyRows rows firstRow liveStartRow totalRows contentSeq visibleRows
  | applyGeometry liveStartRow totalRows contentSeq visibleRows =>
    exact .inl ⟨liveStartRow, rfl, moved_applyRows _ _ _ _ _ _ _⟩
  | completeFetch result visibleRows =>
    simp only [liveStartRow?, apply, ScrollbackViewport.completeFetch]
    cases decodedRows result with
    | error error => exact .inr ⟨rfl, rfl, rfl, .inl ⟨rfl, rfl⟩⟩
    | ok decoded =>
      have hmoved := moved_applyRows decoded result.firstRow result.liveStartRow
        result.totalRows result.contentSeq visibleRows { viewport with inFlight := none }
      exact .inl ⟨result.liveStartRow, rfl, hmoved.live_eq, hmoved.known, hmoved.offset_eq,
        hmoved.anchor_eq⟩
  | beginFetch visibleRows =>
    simp only [apply, ScrollbackViewport.beginFetch]
    split
    · exact .inr ⟨rfl, rfl, rfl, .inl ⟨rfl, rfl⟩⟩
    split
    · exact .inr ⟨rfl, rfl, rfl, .inl ⟨rfl, rfl⟩⟩
    · split <;> exact .inr ⟨rfl, rfl, rfl, .inl ⟨rfl, rfl⟩⟩
  | failFetch =>
    simp only [apply, ScrollbackViewport.failFetch]
    split <;> exact .inr ⟨rfl, rfl, rfl, .inl ⟨rfl, rfl⟩⟩
  | enterAltScreen => exact .inr ⟨rfl, scrolled_enterAltScreen viewport⟩

theorem liveStartRow_apply (call : ViewportCall) (viewport : ScrollbackViewport) :
    (call.apply viewport).liveStartRow = call.liveStartRow?.getD viewport.liveStartRow := by
  rcases call.apply_cases viewport with ⟨liveStartRow, hlive, hmoved⟩ | ⟨hnone, hscrolled⟩
  · rw [hlive, hmoved.live_eq]
    rfl
  · rw [hnone, hscrolled.live_eq]
    rfl

end ViewportCall

/-- A call that was made on a viewport. -/
abbrev ViewportStep : Type := Taken ScrollbackViewport ViewportCall Unit

namespace ViewportStep

/-- A live edge that arrives is a row, and no earlier one than the last. -/
def Rising (step : ViewportStep) : Prop :=
  ∀ liveStartRow, step.input.liveStartRow? = some liveStartRow →
    0 ≤ liveStartRow ∧ step.before.liveStartRow ≤ liveStartRow

/-- The view is anchored after the step, and the step kept it where it was. -/
structure Anchored (step : ViewportStep) : Prop where
  /-- The offset is within the history, and the anchor says the same as the offset. -/
  placed : step.after.geometryKnown = true →
    0 ≤ step.after.viewOffset ∧ step.after.viewOffset ≤ step.after.liveStartRow ∧
      step.after.anchor =
        if step.after.viewOffset > 0 then some (step.after.liveStartRow - step.after.viewOffset)
        else none
  /-- Rows that are applied do not move a scrolled view. -/
  held : step.before.geometryKnown = true →
    ∀ liveStartRow, step.input.liveStartRow? = some liveStartRow →
      step.before.viewOffset > 0 → step.after.absoluteRow 0 = step.before.absoluteRow 0
  /-- The first rows leave a view as far from the live edge as it was scrolled. -/
  first : step.before.geometryKnown = false →
    ∀ liveStartRow, step.input.liveStartRow? = some liveStartRow →
      step.after.viewOffset.toInt = min step.before.viewOffset.toInt liveStartRow.toInt

/-- The first geometry finds the view at the live edge, or scrolled past everything. -/
def Reaches (step : ViewportStep) : Prop :=
  step.before.geometryKnown = false →
    ∀ liveStartRow, step.input.liveStartRow? = some liveStartRow →
      step.before.viewOffset = 0 ∨ liveStartRow ≤ step.before.viewOffset

open ScrollbackViewport

variable {viewport : ScrollbackViewport}

theorem placed_after (h : viewport.Placed) (call : ViewportCall)
    (hrising : Rising (taken ViewportCall.step viewport call)) : (call.apply viewport).Placed := by
  rcases call.apply_cases viewport with ⟨liveStartRow, hlive, hmoved⟩ | ⟨-, hscrolled⟩
  · exact hmoved.placed (I64.nonneg_iff.mp (hrising liveStartRow hlive).1)
  · exact h.scrolled hscrolled

theorem placed_run (calls : List ViewportCall) :
    (∀ step ∈ (run ViewportCall.step {} calls).2, Rising step) →
      (run ViewportCall.step {} calls).1.Placed ∧
        ∀ step ∈ (run ViewportCall.step {} calls).2, step.before.Placed := by
  refine run_induction (P := fun viewport past => (∀ step ∈ past, Rising step) →
    viewport.Placed ∧ ∀ step ∈ past, step.before.Placed) ?_ ?_ calls
  · intro _
    exact ⟨.new, by simp⟩
  intro viewport past call ih hrising
  obtain ⟨hplaced, hpast⟩ := ih fun step hstep => hrising step (mem_cons_of_mem _ hstep)
  refine ⟨placed_after hplaced call (hrising _ mem_cons_self), fun step hstep => ?_⟩
  rcases List.mem_cons.mp hstep with rfl | hearlier
  · exact hplaced
  · exact hpast step hearlier

theorem anchor_of_placed (h : viewport.Placed) (hknown : viewport.geometryKnown = true) :
    0 ≤ viewport.viewOffset ∧ viewport.viewOffset ≤ viewport.liveStartRow ∧ viewport.anchor =
        if viewport.viewOffset > 0 then some (viewport.liveStartRow - viewport.viewOffset)
        else none := by
  have hoffset := h.offset_nonneg
  have hle := h.offset_le hknown
  have hlast := viewport.liveStartRow.toInt_lt
  have hsub : I64.saturatingSub viewport.liveStartRow viewport.viewOffset
      = viewport.liveStartRow - viewport.viewOffset := by
    apply Int64.toInt_inj.mp
    rw [I64.toInt_saturatingSub, I64.toInt_sub_of_le hoffset hle]
    omega
  refine ⟨I64.nonneg_iff.mpr hoffset, Int64.le_iff_toInt_le.mpr hle, ?_⟩
  rw [h.anchor_eq, hsub]

theorem moved_of_live {call : ViewportCall} {liveStartRow : Int64}
    (hlive : call.liveStartRow? = some liveStartRow) :
    viewport.Moved liveStartRow (call.apply viewport) := by
  rcases call.apply_cases viewport with ⟨other, hother, hmoved⟩ | ⟨hnone, -⟩
  · rw [hlive] at hother
    obtain ⟨⟩ := hother
    exact hmoved
  · rw [hlive] at hnone
    cases hnone

/-- The first geometry keeps the distance to the live edge exactly in a view that reaches it. -/
theorem first_iff {viewport moved : ScrollbackViewport} {liveStartRow : Int64}
    (hmoved : viewport.Moved liveStartRow moved) (hplaced : viewport.Placed)
    (hlive : 0 ≤ liveStartRow) (hunknown : viewport.geometryKnown = false) :
    moved.viewOffset.toInt = min viewport.viewOffset.toInt liveStartRow.toInt ↔
      viewport.viewOffset = 0 ∨ liveStartRow ≤ viewport.viewOffset := by
  have hnonneg := I64.nonneg_iff.mp hlive
  have hoffset := hplaced.offset_nonneg
  have hzero : viewport.viewOffset = 0 ↔ viewport.viewOffset.toInt = 0 := Int64.toInt_inj.symm
  rw [hmoved.toInt_offset_unknown hplaced hnonneg hunknown, hzero, le_iff_toInt_le]
  by_cases hpos : 0 < viewport.viewOffset.toInt
  · rw [if_pos hpos]
    omega
  · rw [if_neg hpos]
    omega

theorem anchored_iff (hplaced : viewport.Placed)
    (call : ViewportCall) (hrising : Rising (taken ViewportCall.step viewport call)) :
    Anchored (taken ViewportCall.step viewport call) ↔
      Reaches (taken ViewportCall.step viewport call) := by
  constructor
  · intro hanchored hunknown liveStartRow hlive
    exact (first_iff (moved_of_live hlive) hplaced (hrising _ hlive).1 hunknown).mp
      (hanchored.first hunknown liveStartRow hlive)
  intro hreaches
  refine ⟨anchor_of_placed (placed_after hplaced call hrising),
    fun hknown liveStartRow hlive hpos => ?_, fun hunknown liveStartRow hlive => ?_⟩
  · exact (moved_of_live hlive).absoluteRow_eq hplaced
      (Int64.le_iff_toInt_le.mp (hrising _ hlive).2) hknown (I64.pos_iff.mp hpos)
  · exact (first_iff (moved_of_live hlive) hplaced (hrising _ hlive).1 hunknown).mpr
      (hreaches hunknown liveStartRow hlive)

end ViewportStep

/--
**A scrolled view is anchored**, in every run whose live edge never goes back: after a
step everything is as it should be exactly if the step is not the first geometry of a
view that was scrolled back, but not as far as the history goes.
-/
theorem viewport_anchored_iff (calls : List ViewportCall)
    (hrising : ∀ step ∈ (run ViewportCall.step {} calls).2, ViewportStep.Rising step) :
    ∀ step ∈ (run ViewportCall.step {} calls).2,
      ViewportStep.Anchored step ↔ ViewportStep.Reaches step := by
  intro step hstep
  have hplaced := (ViewportStep.placed_run calls hrising).2 step hstep
  have hlive := hrising step hstep
  rw [run_mem hstep] at hlive ⊢
  exact ViewportStep.anchored_iff hplaced step.input hlive

/-- Ten lines back before the first geometry, then seven lines of history. -/
theorem viewport_anchored_iff_short :
    let calls : List ViewportCall := [.scrollBy 10 40, .applyGeometry 7 7 1 40]
    (run ViewportCall.step {} calls).1.viewOffset = 7 ∧ ∀ step ∈ (run ViewportCall.step {} calls).2,
        ViewportStep.Anchored step ↔ ViewportStep.Reaches step := by
  refine ⟨by decide, viewport_anchored_iff _ fun step hstep liveStartRow hlive => ?_⟩
  simp only [run, advance, foldl_cons, foldl_nil, mem_cons, not_mem_nil, or_false] at hstep
  rcases hstep with rfl | rfl
  · obtain ⟨⟩ := hlive
    decide
  · cases hlive

/-- Ten lines back before the first geometry, then a thousand lines of history. -/
theorem viewport_not_anchored :
    let calls : List ViewportCall := [.scrollBy 10 40, .applyGeometry 1000 1000 1 40]
    (∀ step ∈ (run ViewportCall.step {} calls).2, ViewportStep.Rising step) ∧
      (run ViewportCall.step {} calls).1.viewOffset = 1000 ∧
        ¬∀ step ∈ (run ViewportCall.step {} calls).2, ViewportStep.Anchored step := by
  refine ⟨fun step hstep liveStartRow hlive => ?_, by decide, fun hall => ?_⟩
  · simp only [run, advance, foldl_cons, foldl_nil, mem_cons, not_mem_nil, or_false] at hstep
    rcases hstep with rfl | rfl
    · obtain ⟨⟩ := hlive
      decide
    · cases hlive
  · have hfirst := (hall _ mem_cons_self).first rfl 1000 rfl
    revert hfirst
    decide

end Diri
