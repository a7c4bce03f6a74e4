/-
Byte offsets into a text.

A text is its characters, and an offset counts the bytes they are encoded in.  Only an
offset between two characters splits a text; cutting a piece out of a text at any other
offset is an error, which is `none` here.
-/
import Mathlib.Data.List.Basic

namespace Diri

open List

def byteLength : List Char → Nat
  | [] => 0
  | c :: text => c.utf8Size + byteLength text

/-- The text up to an offset and the text from there, if the offset is between characters. -/
def splitBytes : List Char → Nat → Option (List Char × List Char)
  | text, 0 => some ([], text)
  | [], _ + 1 => none
  | c :: rest, n + 1 =>
    if c.utf8Size ≤ n + 1 then
      (splitBytes rest (n + 1 - c.utf8Size)).map fun parts => (c :: parts.1, parts.2)
    else none

/-- The part of a text between two offsets. -/
def sliceBytes (text : List Char) (start stop : Nat) : Option (List Char) := do
  if stop < start then none
  else
    let before ← splitBytes text stop
    let parts ← splitBytes before.1 start
    return parts.2

/-- The text with another one in place of what is between two offsets. -/
def replaceBytes (text : List Char) (start stop : Nat) (other : List Char) :
    Option (List Char) := do
  if stop < start then none
  else
    let before ← splitBytes text stop
    let parts ← splitBytes before.1 start
    return parts.1 ++ other ++ before.2

/-- The last offset between characters that is not after the given one. -/
def floorBoundary (text : List Char) : Nat → Nat
  | 0 => 0
  | n + 1 => if (splitBytes text (n + 1)).isSome then n + 1 else floorBoundary text n

/-- An offset between two characters, or at an end. -/
def IsBoundary (text : List Char) (offset : Nat) : Prop :=
  ∃ before after, text = before ++ after ∧ byteLength before = offset

@[simp] theorem byteLength_nil : byteLength [] = 0 := rfl

@[simp] theorem byteLength_cons (c : Char) (text : List Char) :
    byteLength (c :: text) = c.utf8Size + byteLength text := rfl

@[simp] theorem byteLength_append (text other : List Char) :
    byteLength (text ++ other) = byteLength text + byteLength other := by
  induction text with
  | nil => exact (Nat.zero_add _).symm
  | cons c text ih => rw [cons_append, byteLength_cons, byteLength_cons, ih, Nat.add_assoc]

variable {text : List Char} {offset : Nat}

theorem byteLength_eq_zero : byteLength text = 0 ↔ text = [] := by
  cases text with
  | nil => simp
  | cons c rest =>
    have hsize := c.utf8Size_pos
    simp only [byteLength_cons, cons_ne_nil, iff_false]
    omega

theorem byteLength_ascii (h : ∀ c ∈ text, c.utf8Size = 1) : byteLength text = text.length := by
  induction text with
  | nil => rfl
  | cons c text ih =>
    rw [byteLength_cons, h c mem_cons_self, ih fun d hd => h d (mem_cons_of_mem _ hd),
      length_cons, Nat.add_comm]

theorem utf8Size_of_mem_toDigits {c : Char} {value : Nat} (hc : c ∈ Nat.toDigits 10 value) :
    c.utf8Size = 1 := by
  have hDigit := @Nat.isDigit_of_mem_toDigits 10 value c (by decide) (by decide) hc
  have hNine : c.toNat ≤ 57 := (Char.isDigit_iff_toNat.mp hDigit).2
  refine Char.utf8Size_eq_one_iff.mpr ?_
  show c.val.toNat ≤ 127
  exact Nat.le_trans hNine (by decide)

/-- Splitting gives back two parts of the text, the first one as long as the offset. -/
theorem splitBytes_eq_some {text before after : List Char} :
    splitBytes text offset = some (before, after) ↔
      text = before ++ after ∧ byteLength before = offset := by
  induction text, offset using splitBytes.induct generalizing before after with
  | case1 text =>
    rw [splitBytes, Option.some.injEq, Prod.mk.injEq, byteLength_eq_zero]
    constructor
    · rintro ⟨rfl, rfl⟩
      exact ⟨rfl, rfl⟩
    · rintro ⟨rfl, rfl⟩
      exact ⟨rfl, rfl⟩
  | case2 n =>
    refine iff_of_false (by simp [splitBytes]) ?_
    rintro ⟨hnil, hlength⟩
    obtain ⟨rfl, rfl⟩ := List.append_eq_nil_iff.mp hnil.symm
    simp at hlength
  | case3 c rest n hfits ih =>
    rw [splitBytes, if_pos hfits]
    simp only [Option.map_eq_some_iff, Prod.mk.injEq]
    constructor
    · rintro ⟨⟨first, last⟩, hparts, rfl, rfl⟩
      obtain ⟨rfl, hlength⟩ := ih.mp hparts
      refine ⟨rfl, ?_⟩
      dsimp only at hlength ⊢
      rw [byteLength_cons]
      omega
    rintro ⟨happend, hlength⟩
    cases before with
    | nil => simp at hlength
    | cons d first =>
      obtain ⟨rfl, rfl⟩ := List.cons.inj happend
      rw [byteLength_cons] at hlength
      exact ⟨(first, after), ih.mpr ⟨rfl, by omega⟩, rfl, rfl⟩
  | case4 c rest n hfits =>
    rw [splitBytes, if_neg hfits]
    refine iff_of_false (by simp) ?_
    rintro ⟨happend, hlength⟩
    cases before with
    | nil => simp at hlength
    | cons d first =>
      obtain ⟨rfl, -⟩ := List.cons.inj happend
      rw [byteLength_cons] at hlength
      omega

theorem isBoundary_iff : IsBoundary text offset ↔ (splitBytes text offset).isSome := by
  rw [Option.isSome_iff_exists]
  constructor
  · rintro ⟨before, after, h⟩
    exact ⟨(before, after), splitBytes_eq_some.mpr h⟩
  · rintro ⟨⟨before, after⟩, h⟩
    exact ⟨before, after, splitBytes_eq_some.mp h⟩

theorem isBoundary_zero (text : List Char) : IsBoundary text 0 := ⟨[], text, rfl, rfl⟩

theorem isBoundary_length (text : List Char) : IsBoundary text (byteLength text) :=
  ⟨text, [], (append_nil text).symm, rfl⟩

theorem IsBoundary.le (h : IsBoundary text offset) : offset ≤ byteLength text := by
  obtain ⟨before, after, rfl, rfl⟩ := h
  rw [byteLength_append]
  omega

theorem floorBoundary_isBoundary (text : List Char) (offset : Nat) :
    IsBoundary text (floorBoundary text offset) := by
  induction offset with
  | zero => exact isBoundary_zero text
  | succ n ih =>
    rw [floorBoundary]
    split
    · exact isBoundary_iff.mpr ‹_›
    · exact ih

/-- An offset in the first part of a text. -/
theorem IsBoundary.append_right {before : List Char} (h : IsBoundary before offset)
    (after : List Char) : IsBoundary (before ++ after) offset := by
  obtain ⟨first, last, rfl, hlength⟩ := h
  exact ⟨first, last ++ after, append_assoc _ _ _, hlength⟩

/-- An offset in the second part, counted from its start. -/
theorem IsBoundary.append_left {after : List Char} (h : IsBoundary after offset)
    (before : List Char) : IsBoundary (before ++ after) (byteLength before + offset) := by
  obtain ⟨first, last, rfl, hlength⟩ := h
  exact ⟨before ++ first, last, (append_assoc _ _ _).symm, by simp [hlength]⟩

theorem floorBoundary_le (text : List Char) (offset : Nat) :
    floorBoundary text offset ≤ offset := by
  induction offset with
  | zero => exact Nat.le_refl 0
  | succ n ih =>
    rw [floorBoundary]
    split
    · exact Nat.le_refl _
    · omega

/-- No later offset that is still low enough is between characters. -/
theorem le_floorBoundary {boundary offset : Nat} (h : IsBoundary text boundary)
    (hle : boundary ≤ offset) : boundary ≤ floorBoundary text offset := by
  induction offset with
  | zero => exact hle
  | succ n ih =>
    rw [floorBoundary]
    split
    · exact hle
    rename_i hNot
    have hOther : boundary ≠ n + 1 := by
      rintro rfl
      exact hNot (isBoundary_iff.mp h)
    exact ih (by omega)

/-- A character takes four bytes at most, so there is a boundary among four offsets. -/
theorem exists_isBoundary (h : offset ≤ byteLength text) :
    ∃ boundary, IsBoundary text boundary ∧ boundary ≤ offset ∧ offset < boundary + 4 := by
  induction text generalizing offset with
  | nil =>
    rw [byteLength_nil] at h
    exact ⟨0, isBoundary_zero _, Nat.zero_le _, by omega⟩
  | cons c text ih =>
    rw [byteLength_cons] at h
    have hSize := c.utf8Size_le_four
    by_cases hFirst : offset < c.utf8Size
    · exact ⟨0, isBoundary_zero _, Nat.zero_le _, by omega⟩
    have hRest : offset - c.utf8Size ≤ byteLength text := by omega
    obtain ⟨boundary, hBoundary, hle, hlt⟩ := ih hRest
    refine ⟨c.utf8Size + boundary, ?_, by omega, by omega⟩
    simpa using hBoundary.append_left [c]

theorem lt_floorBoundary (h : offset ≤ byteLength text) :
    offset < floorBoundary text offset + 4 := by
  obtain ⟨boundary, hBoundary, hle, hlt⟩ := exists_isBoundary h
  have hFloor := le_floorBoundary hBoundary hle
  omega

/-- The pieces of a text end at offsets between characters. -/
theorem isBoundary_pieces {pieces parts : List (List Char)} (h : parts <+: pieces) :
    IsBoundary pieces.flatten (byteLength parts.flatten) := by
  obtain ⟨rest, rfl⟩ := h
  exact ⟨parts.flatten, rest.flatten, flatten_append, rfl⟩

/-- Two offsets, in order, cut a text in three. -/
theorem IsBoundary.between {start stop : Nat} (hstart : IsBoundary text start)
    (hstop : IsBoundary text stop) (hle : start ≤ stop) :
    ∃ before middle after, text = before ++ middle ++ after ∧ byteLength before = start ∧
      byteLength (before ++ middle) = stop := by
  obtain ⟨before, rest, rfl, rfl⟩ := hstart
  obtain ⟨long, after, hlong, rfl⟩ := hstop
  rcases List.append_eq_append_iff.mp hlong with ⟨middle, rfl, rfl⟩ | ⟨extra, rfl, rfl⟩
  · exact ⟨before, middle, after, (append_assoc _ _ _).symm, rfl, rfl⟩
  rw [byteLength_append] at hle
  have hextra : extra = [] := byteLength_eq_zero.mp (by omega)
  subst hextra
  exact ⟨long, [], rest, by simp, by simp, by simp⟩

theorem sliceBytes_eq {text before middle after : List Char} {start stop : Nat}
    (htext : text = before ++ middle ++ after) (hstart : byteLength before = start)
    (hstop : byteLength (before ++ middle) = stop) : sliceBytes text start stop = some middle := by
  have hle : ¬stop < start := by
    rw [byteLength_append] at hstop
    omega
  have houter : splitBytes text stop = some (before ++ middle, after) :=
    splitBytes_eq_some.mpr ⟨htext, hstop⟩
  have hinner : splitBytes (before ++ middle) start = some (before, middle) :=
    splitBytes_eq_some.mpr ⟨rfl, hstart⟩
  unfold sliceBytes
  rw [if_neg hle, houter]
  simp [hinner]

theorem replaceBytes_eq {text before middle after : List Char} {start stop : Nat}
    (htext : text = before ++ middle ++ after) (hstart : byteLength before = start)
    (hstop : byteLength (before ++ middle) = stop) (other : List Char) :
    replaceBytes text start stop other = some (before ++ other ++ after) := by
  have hle : ¬stop < start := by
    rw [byteLength_append] at hstop
    omega
  have houter : splitBytes text stop = some (before ++ middle, after) :=
    splitBytes_eq_some.mpr ⟨htext, hstop⟩
  have hinner : splitBytes (before ++ middle) start = some (before, middle) :=
    splitBytes_eq_some.mpr ⟨rfl, hstart⟩
  unfold replaceBytes
  rw [if_neg hle, houter]
  simp [hinner]

end Diri
