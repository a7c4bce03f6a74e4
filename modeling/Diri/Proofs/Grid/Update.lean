/-
Updates that came from elsewhere.

A mirror accepts any valid update, whatever its rows: several of one number, or none.
Applying it twice to different buffers gives the same rows wherever it has one, so it
gives the mirror's cells to every buffer that has the rows it leaves out (`Gives`).
-/
import Diri.Engine.Grid
import Diri.Proofs.Grid.Mirror

namespace Diri

open List

namespace GridUpdate

theorem length_fitRow (cols : Nat) (cells : List GridCell) : (fitRow cols cells).length = cols := by
  simp only [fitRow, length_append, length_take, length_replicate]
  omega

variable {buffer : List GridCell} {cols rows : Nat}

theorem length_applyRow (hbuffer : buffer.length = cols * rows) (changed : ChangedRow) :
    (applyRow cols rows buffer changed).length = cols * rows := by
  unfold applyRow
  split
  · exact hbuffer
  · next hy => exact length_setRow hbuffer (Nat.not_le.mp hy) (length_fitRow _ _)

theorem length_foldl_applyRow (hbuffer : buffer.length = cols * rows) (changed : List ChangedRow) :
    (changed.foldl (applyRow cols rows) buffer).length = cols * rows := by
  induction changed generalizing buffer with
  | nil => exact hbuffer
  | cons row rest ih => exact ih (length_applyRow hbuffer row)

/-- The buffer an update's rows are written to. -/
def ground (update : GridUpdate) (buffer : List GridCell) : List GridCell :=
  if update.isFullSnapshot ∨ buffer.length ≠ update.cols * update.rows then
    List.replicate (update.cols * update.rows) .blank
  else buffer

variable (update : GridUpdate)

theorem apply_eq (buffer : List GridCell) : update.apply buffer
      = update.changedRows.foldl (applyRow update.cols update.rows) (update.ground buffer) := rfl

theorem length_ground (buffer : List GridCell) :
    (update.ground buffer).length = update.cols * update.rows := by
  unfold ground
  split
  · exact length_replicate
  next hlength =>
    rw [not_or] at hlength
    exact not_not.mp hlength.2

theorem length_apply (buffer : List GridCell) :
    (update.apply buffer).length = update.cols * update.rows := by
  rw [apply_eq]
  exact length_foldl_applyRow (update.length_ground buffer) _

section
variable (hbuffer : buffer.length = cols * rows)
include hbuffer

theorem rowOf_applyRow_self {changed : ChangedRow} (hy : changed.y < rows) :
    rowOf cols changed.y (applyRow cols rows buffer changed) = fitRow cols changed.cells := by
  unfold applyRow
  rw [if_neg (Nat.not_le.mpr hy), rowOf_setRow_self hbuffer hy (length_fitRow _ _)]

theorem rowOf_applyRow_ne {changed : ChangedRow} {y : Nat} (hne : changed.y ≠ y) :
    rowOf cols y (applyRow cols rows buffer changed) = rowOf cols y buffer := by
  unfold applyRow
  split
  · rfl
  · next hinside =>
    exact rowOf_setRow_ne hbuffer (Nat.not_le.mp hinside) hne.symm (length_fitRow _ _)

theorem rowOf_foldl_applyRow {y : Nat} {changed : List ChangedRow}
    (hnone : ∀ row ∈ changed, row.y ≠ y) :
    rowOf cols y (changed.foldl (applyRow cols rows) buffer) = rowOf cols y buffer := by
  induction changed generalizing buffer with
  | nil => rfl
  | cons row rest ih =>
    rw [foldl_cons, ih (length_applyRow hbuffer row) fun r hr => hnone r (by simp [hr]),
      rowOf_applyRow_ne hbuffer (hnone row (by simp))]

end

/-- Written to two buffers, the same rows leave no difference that was not there before. -/
theorem foldl_applyRow_agree {buffer other : List GridCell}
    (hbuffer : buffer.length = cols * rows) (hother : other.length = cols * rows) {y : Nat}
    (hy : y < rows) {changed : List ChangedRow}
    (h : (∀ row ∈ changed, row.y ≠ y) → rowOf cols y buffer = rowOf cols y other) :
    rowOf cols y (changed.foldl (applyRow cols rows) buffer)
      = rowOf cols y (changed.foldl (applyRow cols rows) other) := by
  induction changed generalizing buffer other with
  | nil => exact h (by simp)
  | cons row rest ih =>
    rw [foldl_cons, foldl_cons]
    refine ih (length_applyRow hbuffer row) (length_applyRow hother row) fun hrest => ?_
    by_cases hrow : row.y = y
    · subst hrow
      rw [rowOf_applyRow_self hbuffer hy, rowOf_applyRow_self hother hy]
    rw [rowOf_applyRow_ne hbuffer hrow, rowOf_applyRow_ne hother hrow]
    refine h fun r hr => ?_
    rcases List.mem_cons.mp hr with rfl | hmem
    · exact hrow
    · exact hrest r hmem

/-- The update gives these cells to every buffer that has the rows it leaves out. -/
def Gives (update : GridUpdate) (cells : List GridCell) : Prop :=
  ∀ held : List GridCell,
    (update.isFullSnapshot = true ∨ (held.length = update.cols * update.rows ∧
      ∀ y, y < update.rows → (∀ row ∈ update.changedRows, row.y ≠ y) →
        rowOf update.cols y held = rowOf update.cols y cells)) →
    update.apply held = cells

theorem gives_apply
    (hbuffer : update.isFullSnapshot = true ∨ buffer.length = update.cols * update.rows) :
    update.Gives (update.apply buffer) := by
  intro held hheld
  by_cases hfull : update.isFullSnapshot = true
  · have hground : ∀ buffer, update.ground buffer
        = List.replicate (update.cols * update.rows) .blank := fun _ => if_pos (.inl hfull)
    rw [apply_eq, apply_eq, hground, hground]
  obtain ⟨hlength, hrows⟩ := hheld.resolve_left hfull
  have hbuffer := hbuffer.resolve_left hfull
  have hground : ∀ {buffer : List GridCell}, buffer.length = update.cols * update.rows →
      update.ground buffer = buffer := by
    intro buffer hbuffer
    exact if_neg (not_or.mpr ⟨hfull, not_not.mpr hbuffer⟩)
  refine ext_rowOf (update.length_apply held) (update.length_apply buffer) fun y hy => ?_
  rw [apply_eq, apply_eq, hground hlength, hground hbuffer]
  refine foldl_applyRow_agree hlength hbuffer hy fun hnone => ?_
  have hkept := hrows y hy hnone
  rw [apply_eq, hground hbuffer, rowOf_foldl_applyRow hbuffer hnone] at hkept
  exact hkept

/-- An update that came in a frame, with rows of its width, goes into one again. -/
theorem encodedBytes_ok {update : GridUpdate} (hdecoded : update.Decoded)
    (hrows : ∀ row ∈ update.changedRows, row.cells.length = update.cols) :
    ∃ bytes, update.encodedBytes = .ok bytes := by
  obtain ⟨hcols, -, hcount⟩ := hdecoded
  obtain ⟨bytes, hbytes, -⟩ := rowsBytes_le hcols hrows
  refine ⟨11 + bytes, ?_⟩
  rw [encodedBytes, if_neg (by omega), hbytes]
  rfl

end GridUpdate

end Diri
