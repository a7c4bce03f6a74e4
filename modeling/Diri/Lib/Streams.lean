/-
Windows on an append-only stream.

A buffer or a file that keeps the newest part of a growing stream is a `Window`: it
remembers from which offset on it has everything.  Appending to the stream appends to
the window; dropping from its front moves its base.  A `Snapshot` is a window of an
earlier time: what it has is right, but it may have fallen behind.

Streams that arrive in pieces.

A stream is a function of the position.  A piece is a run of it, with the position of its
first item.  `Ascending` says of pieces, in the order they were taken, that each is what the
stream has there and lies beyond all before it, so that no position was taken twice;
`Gapless` that together they are the stream from a position on.
-/
import Mathlib.Data.List.Basic
import Mathlib.Data.List.Infix
import Mathlib.Data.List.Range
import Mathlib.Data.List.TakeDrop

namespace Diri

open List

variable {α : Type}

/-- `kept` is everything of the stream from offset `base` on. -/
structure Window (stream : List α) (base : Nat) (kept : List α) : Prop where
  base_le : base ≤ stream.length
  eq_drop : kept = stream.drop base

/-- `kept` is the stream from offset `base` on, as far as it goes. -/
structure Snapshot (stream : List α) (base : Nat) (kept : List α) : Prop where
  base_le : base ≤ stream.length
  isPrefix : kept <+: stream.drop base

namespace Window

variable {stream kept : List α} {base : Nat}

theorem nil : Window ([] : List α) 0 [] := ⟨Nat.le_refl _, rfl⟩

/-- A window that was just emptied. -/
theorem empty (stream : List α) : Window stream stream.length [] :=
  ⟨Nat.le_refl _, drop_length.symm⟩

section
variable (h : Window stream base kept)
include h

theorem length : base + kept.length = stream.length := by
  have hbase := h.base_le
  rw [h.eq_drop, length_drop]
  omega

theorem append (data : List α) : Window (stream ++ data) base (kept ++ data) := by
  refine ⟨?_, ?_⟩
  · rw [length_append]
    exact Nat.le_add_right_of_le h.base_le
  · rw [drop_append_of_le_length h.base_le, h.eq_drop]

/-- Dropping from the front moves the base. -/
theorem dropFront {n : Nat} (hn : n ≤ kept.length) : Window stream (base + n) (kept.drop n) := by
  have hlength := h.length
  refine ⟨by omega, ?_⟩
  rw [h.eq_drop, drop_drop]

theorem snapshot : Snapshot stream base kept := ⟨h.base_le, by rw [h.eq_drop]⟩

/-- Reading a window is reading the stream. -/
theorem read {offset : Nat} (hoffset : base ≤ offset) (count : Nat) :
    (kept.drop (offset - base)).take count = (stream.drop offset).take count := by
  rw [h.eq_drop, drop_drop, Nat.add_sub_cancel' hoffset]

end

end Window

namespace Snapshot

variable {stream kept : List α} {base : Nat}

/-- A snapshot stays right while the stream grows. -/
theorem grow (h : Snapshot stream base kept) (data : List α) :
    Snapshot (stream ++ data) base kept := by
  refine ⟨?_, ?_⟩
  · rw [length_append]
    exact Nat.le_add_right_of_le h.base_le
  · rw [drop_append_of_le_length h.base_le]
    exact h.isPrefix.trans (prefix_append _ _)

/-- Reading a snapshot gives bytes of the stream, at the offset read from. -/
theorem read (h : Snapshot stream base kept) {offset : Nat} (hoffset : base ≤ offset)
    (count : Nat) : (kept.drop (offset - base)).take count <+: stream.drop offset := by
  refine (List.take_prefix _ _).trans ?_
  have hdrop := h.isPrefix.drop (offset - base)
  rwa [drop_drop, Nat.add_sub_cancel' hoffset] at hdrop

end Snapshot

end Diri

namespace Diri

variable {α : Type}

/-- The `count` items of a stream from `start` on. -/
def slice (S : Nat → α) (start count : Nat) : List α := (List.range' start count).map S

@[simp] theorem length_slice (S : Nat → α) (start count : Nat) :
    (slice S start count).length = count := by
  simp [slice]

@[simp] theorem slice_zero (S : Nat → α) (start : Nat) : slice S start 0 = [] := rfl

theorem slice_append (S : Nat → α) (start m n : Nat) :
    slice S start m ++ slice S (start + m) n = slice S start (m + n) := by
  unfold slice
  rw [← List.map_append, List.range'_append_1]

theorem drop_slice (S : Nat → α) (start count k : Nat) :
    (slice S start count).drop k = slice S (start + k) (count - k) := by
  unfold slice
  rw [← List.map_drop, List.drop_range']
  simp

theorem take_slice (S : Nat → α) (start : Nat) {count k : Nat} (h : k ≤ count) :
    (slice S start count).take k = slice S start k := by
  unfold slice
  rw [← List.map_take, List.take_range'_of_length_ge h]

/-- Where each piece begins, and the piece. -/
abbrev Pieces (α : Type) : Type := List (Nat × List α)

namespace Pieces

def positions (pieces : Pieces α) : List Nat :=
  pieces.flatMap fun piece => List.range' piece.1 piece.2.length

def contents (pieces : Pieces α) : List α := pieces.flatMap Prod.snd

@[simp] theorem positions_concat (pieces : Pieces α) (start : Nat) (items : List α) :
    positions (pieces ++ [(start, items)]) =
      positions pieces ++ List.range' start items.length := by
  simp [positions]

@[simp] theorem contents_concat (pieces : Pieces α) (start : Nat) (items : List α) :
    contents (pieces ++ [(start, items)]) = contents pieces ++ items := by
  simp [contents]

/-- Pieces of the stream, each beyond all before it, and all below `frontier`. -/
structure Ascending (S : Nat → α) (frontier : Nat) (pieces : Pieces α) : Prop where
  increasing : (positions pieces).Pairwise (· < ·)
  below : ∀ p ∈ positions pieces, p < frontier
  contents_eq : contents pieces = (positions pieces).map S

theorem Ascending.nil (S : Nat → α) (frontier : Nat) : Ascending S frontier [] := by
  refine ⟨List.Pairwise.nil, ?_, rfl⟩
  simp [positions]

variable {S : Nat → α} {frontier start : Nat} {pieces : Pieces α} {items : List α}

/-- One more piece, from the frontier or from beyond it. -/
theorem Ascending.concat (h : Ascending S frontier pieces) (hstart : frontier ≤ start)
    (hitems : items = slice S start items.length) :
    Ascending S (start + items.length) (pieces ++ [(start, items)]) := by
  refine ⟨?_, ?_, ?_⟩
  · rw [positions_concat, List.pairwise_append]
    refine ⟨h.increasing, List.pairwise_lt_range', ?_⟩
    intro p hp q hq
    have hbelow := h.below p hp
    have hfrom := (List.mem_range'_1.mp hq).1
    omega
  · intro p hp
    rw [positions_concat, List.mem_append] at hp
    obtain hp | hp := hp
    · have hbelow := h.below p hp
      omega
    · exact (List.mem_range'_1.mp hp).2
  · rw [contents_concat, positions_concat, List.map_append, h.contents_eq]
    exact congrArg (_ ++ ·) hitems

/-- The pieces are the stream between two positions. -/
structure Gapless (S : Nat → α) (first frontier : Nat) (pieces : Pieces α) : Prop where
  first_le : first ≤ frontier
  contents_eq : contents pieces = slice S first (frontier - first)

theorem Gapless.nil (S : Nat → α) (first : Nat) : Gapless S first first [] := by
  refine ⟨Nat.le_refl first, ?_⟩
  simp [contents]

/-- One more piece, from the frontier on. -/
theorem Gapless.concat {first : Nat} (h : Gapless S first frontier pieces)
    (hitems : items = slice S frontier items.length) :
    Gapless S first (frontier + items.length) (pieces ++ [(frontier, items)]) := by
  have hfirst := h.first_le
  refine ⟨Nat.le_add_right_of_le hfirst, ?_⟩
  have hfrontier : slice S frontier items.length =
      slice S (first + (frontier - first)) items.length := by
    rw [Nat.add_sub_cancel' hfirst]
  rw [contents_concat, h.contents_eq, hitems, hfrontier, length_slice, slice_append]
  congr 1
  omega

end Pieces

end Diri
