/-
Row-major buffers, and diffs between them.

A picture `cols` wide and `rows` high is kept as one list of `cols * rows` values, row
after row.  `rowOf` reads a row and `setRow` writes one; a buffer is determined by its
rows (`ext_rowOf`), so a proof about a buffer becomes one about functions from row
numbers to rows.

A diff against a base lists the rows that differ from it.  Whoever applies it must
already hold the rows it leaves out: that is `Covers`, and it is all there is to say
about when a diff lands (`patched_eq_iff`).
-/
import Mathlib.Data.List.Basic
import Mathlib.Data.List.Flatten
import Mathlib.Data.List.Range
import Mathlib.Data.List.TakeDrop

namespace Diri

open List

/-! ### Diffs -/

section Diff

variable {ι ρ : Type}

/-- `held` has every value the diff of `cur` against `base` leaves out. -/
def Covers (s : ι → Prop) (base cur held : ι → ρ) : Prop :=
  ∀ i, s i → cur i = base i → held i = cur i

instance Covers.decidable [DecidableEq ρ] (n : Nat) (base cur held : Nat → ρ) :
    Decidable (Covers (· < n) base cur held) :=
  inferInstanceAs (Decidable (∀ y, y < n → cur y = base y → held y = cur y))

/-- What a diff of `cur` against `base` makes of `held`: the rows that differ are sent. -/
def patched [DecidableEq ρ] (base cur held : ι → ρ) (i : ι) : ρ :=
  if cur i = base i then held i else cur i

/-- A diff lands exactly on the holders that have what it leaves out. -/
theorem patched_eq_iff [DecidableEq ρ] (s : ι → Prop) (base cur held : ι → ρ) :
    (∀ i, s i → patched base cur held i = cur i) ↔ Covers s base cur held := by
  refine ⟨fun h i hi hbase => ?_, fun h i hi => ?_⟩
  · have hpatched := h i hi
    rwa [patched, if_pos hbase] at hpatched
  · by_cases hbase : cur i = base i
    · rw [patched, if_pos hbase]
      exact h i hi hbase
    · rw [patched, if_neg hbase]

end Diff

/-! ### Buffers -/

variable {α : Type}

/-- Row `y` of a buffer that is `cols` wide. -/
def rowOf (cols y : Nat) (buffer : List α) : List α := (buffer.drop (y * cols)).take cols

def setRow (cols y : Nat) (row buffer : List α) : List α :=
  buffer.take (y * cols) ++ row ++ buffer.drop (y * cols + cols)

def ofRows (rows : Nat) (f : Nat → List α) : List α := (List.range rows).flatMap f

section Buffer

variable {cols rows : Nat} {buffer : List α}

theorem row_end_le (cols : Nat) {y : Nat} (hy : y < rows) : y * cols + cols ≤ cols * rows := by
  calc y * cols + cols = (y + 1) * cols := (Nat.succ_mul y cols).symm
    _ ≤ rows * cols := Nat.mul_le_mul_right cols hy
    _ = cols * rows := Nat.mul_comm rows cols

section
variable (hbuffer : buffer.length = cols * rows)
include hbuffer

theorem length_rowOf {y : Nat} (hy : y < rows) : (rowOf cols y buffer).length = cols := by
  have hend := row_end_le cols hy
  rw [rowOf, length_take, length_drop]
  omega

theorem length_setRow {y : Nat} (hy : y < rows) {row : List α} (hrow : row.length = cols) :
    (setRow cols y row buffer).length = cols * rows := by
  have hend := row_end_le cols hy
  simp only [setRow, length_append, length_take, length_drop]
  omega

/-- The row that was written is read back. -/
theorem rowOf_setRow_self {y : Nat} (hy : y < rows)
    {row : List α} (hrow : row.length = cols) : rowOf cols y (setRow cols y row buffer) = row := by
  have hend := row_end_le cols hy
  have htake : (buffer.take (y * cols)).length = y * cols := by
    rw [length_take]
    omega
  rw [rowOf, setRow, append_assoc, drop_left' htake, take_left' hrow]

/-- Writing a row leaves the other rows alone. -/
theorem rowOf_setRow_ne {y z : Nat} (hy : y < rows)
    (hne : z ≠ y) {row : List α} (hrow : row.length = cols) :
    rowOf cols z (setRow cols y row buffer) = rowOf cols z buffer := by
  have hend := row_end_le cols hy
  have htake : (buffer.take (y * cols)).length = y * cols := by
    rw [length_take]
    omega
  rcases Nat.lt_or_gt_of_ne hne with hbefore | hafter
  · -- row `z` ends before row `y` starts
    have hstop := row_end_le cols hbefore
    rw [Nat.mul_comm cols y] at hstop
    have hroom : cols ≤ ((buffer.take (y * cols)).drop (z * cols)).length := by
      rw [length_drop, htake]
      omega
    rw [rowOf, rowOf, setRow, append_assoc, drop_append_of_le_length (by omega),
      take_append_of_le_length hroom, drop_take, take_take]
    congr 1
    omega
  -- row `z` starts after row `y` ends
  have hstart := row_end_le cols hafter
  rw [Nat.mul_comm cols z] at hstart
  have hfront : (buffer.take (y * cols) ++ row).length = y * cols + cols := by
    rw [length_append, htake, hrow]
  rw [rowOf, rowOf, setRow, drop_append, hfront, drop_eq_nil_of_le (by rw [hfront]; exact hstart),
    nil_append, drop_drop, Nat.add_sub_cancel' hstart]

/-- A buffer is its rows. -/
theorem eq_ofRows : buffer = ofRows rows fun y => rowOf cols y buffer := by
  induction rows generalizing buffer with
  | zero => simpa [ofRows] using hbuffer
  | succ rows ih =>
    have hcut : (buffer.take (cols * rows)).length = cols * rows := by
      rw [length_take, hbuffer]
      exact Nat.min_eq_left (Nat.mul_le_mul_left cols (Nat.le_succ rows))
    have hfront : buffer.take (cols * rows) = ofRows rows fun y => rowOf cols y buffer := by
      rw [ih hcut]
      refine flatMap_congr fun y hy => ?_
      have hend := row_end_le cols (mem_range.mp hy)
      rw [rowOf, rowOf, drop_take, take_take]
      congr 1
      omega
    have hlast : rowOf cols rows buffer = buffer.drop (cols * rows) := by
      rw [rowOf, Nat.mul_comm rows cols]
      refine take_of_length_le ?_
      rw [length_drop, hbuffer, Nat.mul_succ]
      omega
    calc buffer = buffer.take (cols * rows) ++ buffer.drop (cols * rows) :=
          (take_append_drop _ _).symm
      _ = ofRows rows (fun y => rowOf cols y buffer) ++ rowOf cols rows buffer := by
          rw [hfront, hlast]
      _ = ofRows (rows + 1) fun y => rowOf cols y buffer := by
          simp [ofRows, range_succ]

end

/-- Two buffers of one size with the same rows are the same. -/
theorem ext_rowOf {other : List α} (hbuffer : buffer.length = cols * rows)
    (hother : other.length = cols * rows)
    (h : ∀ y, y < rows → rowOf cols y buffer = rowOf cols y other) : buffer = other := by
  rw [eq_ofRows hbuffer, eq_ofRows hother]
  exact flatMap_congr fun y hy => h y (mem_range.mp hy)

variable {f : Nat → List α}

theorem length_ofRows (hf : ∀ y, y < rows → (f y).length = cols) :
    (ofRows rows f).length = cols * rows := by
  induction rows with
  | zero => rfl
  | succ rows ih =>
    have hrest := ih fun y hy => hf y (Nat.lt_succ_of_lt hy)
    have hlast := hf rows (Nat.lt_succ_self rows)
    simp only [ofRows, range_succ, flatMap_append, length_append, flatMap_singleton] at hrest ⊢
    rw [hrest, hlast, Nat.mul_succ]

theorem rowOf_ofRows (hf : ∀ y, y < rows → (f y).length = cols) {y : Nat} (hy : y < rows) :
    rowOf cols y (ofRows rows f) = f y := by
  induction rows with
  | zero => exact absurd hy (Nat.not_lt_zero y)
  | succ rows ih =>
    have hfront : ∀ y, y < rows → (f y).length = cols := fun y hy => hf y (Nat.lt_succ_of_lt hy)
    have hlength := length_ofRows hfront
    have hsplit : ofRows (rows + 1) f = ofRows rows f ++ f rows := by
      simp [ofRows, range_succ]
    rw [hsplit]
    rcases Nat.lt_succ_iff_lt_or_eq.mp hy with hbefore | rfl
    · have hend := row_end_le cols hbefore
      rw [← ih hfront hbefore, rowOf, rowOf,
        drop_append_of_le_length (by omega), take_append_of_le_length]
      rw [length_drop]
      omega
    have hlast := hf y (Nat.lt_succ_self y)
    rw [Nat.mul_comm] at hlength
    rw [rowOf, drop_left' hlength, take_of_length_le (Nat.le_of_eq hlast)]

/-! ### Writing several rows -/

/-- Overwrite the listed rows with those of `f`. -/
def setRows (cols : Nat) (f : Nat → List α) (ys : List Nat) (buffer : List α) : List α :=
  ys.foldl (fun buffer y => setRow cols y (f y) buffer) buffer

@[simp] theorem setRows_concat (cols : Nat) (f : Nat → List α) (ys : List Nat) (y : Nat)
    (buffer : List α) :
    setRows cols f (ys ++ [y]) buffer = setRow cols y (f y) (setRows cols f ys buffer) := by
  simp [setRows]

theorem length_setRows (hf : ∀ y, y < rows → (f y).length = cols) {ys : List Nat}
    (hys : ∀ y ∈ ys, y < rows) (hbuffer : buffer.length = cols * rows) :
    (setRows cols f ys buffer).length = cols * rows := by
  induction ys using reverseRecOn with
  | nil => exact hbuffer
  | append_singleton ys y ih =>
    have hy := hys y (by simp)
    rw [setRows_concat]
    exact length_setRow (ih fun z hz => hys z (by simp [hz])) hy (hf y hy)

/-- The listed rows are those of `f`, the others are as they were. -/
theorem rowOf_setRows (hf : ∀ y, y < rows → (f y).length = cols) {ys : List Nat}
    (hys : ∀ y ∈ ys, y < rows) (hbuffer : buffer.length = cols * rows) {z : Nat} (hz : z < rows) :
    rowOf cols z (setRows cols f ys buffer) = if z ∈ ys then f z else rowOf cols z buffer := by
  induction ys using reverseRecOn with
  | nil => rw [if_neg (by simp)]; rfl
  | append_singleton ys y ih =>
    have hy := hys y (by simp)
    have hrest : ∀ w ∈ ys, w < rows := fun w hw => hys w (by simp [hw])
    have hlength := length_setRows hf hrest hbuffer
    rw [setRows_concat]
    by_cases hzy : z = y
    · subst hzy
      rw [rowOf_setRow_self hlength hz (hf z hz), if_pos (by simp)]
    · rw [rowOf_setRow_ne hlength hy hzy (hf y hy), ih hrest]
      simp [hzy]

end Buffer

end Diri
