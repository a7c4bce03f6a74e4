/-
A text cut at the first place where a character stands, and lists split at each separator and
joined by one.
-/
import Mathlib.Data.List.Infix
import Mathlib.Data.List.TakeDrop

namespace Diri

open List

/-- What stands in front of the first place of a character, and what behind it. -/
def cutAt (c : Char) (text : List Char) : Option (List Char × List Char) :=
  match text.span (· ≠ c) with
  | (_, []) => none
  | (before, _ :: behind) => some (before, behind)

theorem all_ne {c : Char} {text : List Char} (h : c ∉ text) :
    ∀ d ∈ text, decide (d ≠ c) = true := by
  intro d hd
  rw [decide_eq_true_eq]
  rintro rfl
  exact h hd

theorem cutAt_append {c : Char} {before : List Char} (h : c ∉ before) (behind : List Char) :
    cutAt c (before ++ c :: behind) = some (before, behind) := by
  unfold cutAt
  rw [span_eq_takeWhile_dropWhile, takeWhile_append_of_pos (all_ne h),
    dropWhile_append_of_pos (all_ne h)]
  simp

theorem cutAt_none {c : Char} {text : List Char} (h : c ∉ text) : cutAt c text = none := by
  have hDrop : (text ++ []).dropWhile (fun d => decide (d ≠ c)) = [] :=
    dropWhile_append_of_pos (all_ne h)
  rw [append_nil] at hDrop
  unfold cutAt
  rw [span_eq_takeWhile_dropWhile, hDrop]

/-- The character does not stand in the text, or the text is cut at its first place. -/
theorem cutAt_cases (c : Char) (text : List Char) : (cutAt c text = none ∧ c ∉ text)
      ∨ ∃ before behind, cutAt c text = some (before, behind) ∧ text = before ++ c :: behind
          ∧ c ∉ before := by
  by_cases h : c ∈ text
  · obtain ⟨before, behind, hText, hBefore⟩ := eq_append_cons_of_mem h
    refine .inr ⟨before, behind, ?_, hText, hBefore⟩
    rw [hText, cutAt_append hBefore]
  · exact .inl ⟨cutAt_none h, h⟩

/-- What is in front of the first place grows with the text's front. -/
theorem cutAt_prepend {c : Char} {front : List Char} (h : c ∉ front) (text : List Char) :
    cutAt c (front ++ text) = (cutAt c text).map fun parts => (front ++ parts.1, parts.2) := by
  rcases cutAt_cases c text with ⟨hNone, hText⟩ | ⟨before, behind, hSome, hText, hBefore⟩
  · have hBoth : c ∉ front ++ text := by
      rw [mem_append, not_or]
      exact ⟨h, hText⟩
    rw [hNone, cutAt_none hBoth]
    rfl
  have hBoth : c ∉ front ++ before := by
    rw [mem_append, not_or]
    exact ⟨h, hBefore⟩
  rw [hSome, hText, ← append_assoc, cutAt_append hBoth]
  rfl

/-! ### What stands between separators -/

variable {α : Type}

theorem not_prefix_cons {c : α} {pattern : List α} (hc : c ∉ pattern) (hne : pattern ≠ [])
    (text : List α) : ¬pattern <+: c :: text := by
  cases pattern with
  | nil => exact absurd rfl hne
  | cons d rest =>
    intro h
    obtain ⟨rfl, -⟩ := cons_prefix_cons.mp h
    exact hc mem_cons_self

/-- A pattern without a character is on one side of it. -/
theorem infix_append_cons {c : α} {pattern : List α} (hc : c ∉ pattern) (before behind : List α) :
    pattern <:+: before ++ c :: behind ↔ pattern <:+: before ∨ pattern <:+: behind := by
  rw [infix_append_iff_ne_nil]
  constructor
  · rintro (h | h | ⟨left, right, -, hne, rfl, -, hright⟩)
    · exact .inl h
    · rcases infix_cons_iff.mp h with h | h
      · by_cases hne : pattern = []
        · exact .inl (hne ▸ nil_infix)
        · exact absurd h (not_prefix_cons hc hne behind)
      · exact .inr h
    · have hc' : c ∉ right := fun hmem => hc (mem_append_right left hmem)
      exact absurd hright (not_prefix_cons hc' hne behind)
  · rintro (h | h)
    · exact .inl h
    · exact .inr (.inl (infix_cons h))

/-- A pattern without the characters of a separator is in one of the pieces it separates. -/
theorem infix_intercalate {c : α} {separator pattern : List α} (hc : c ∉ pattern)
    (hseparator : ∀ d ∈ separator, d ∉ pattern) (hne : pattern ≠ []) (pieces : List (List α)) :
    pattern <:+: (c :: separator).intercalate pieces ↔ ∃ piece ∈ pieces, pattern <:+: piece := by
  have hskip : ∀ text, pattern <:+: separator ++ text ↔ pattern <:+: text := by
    intro text
    induction separator with
    | nil => rfl
    | cons d rest ih =>
      obtain ⟨hd, hrest⟩ := forall_mem_cons.mp hseparator
      rw [← ih hrest, cons_append, infix_cons_iff]
      exact or_iff_right (not_prefix_cons hd hne _)
  induction pieces with
  | nil => simp [hne]
  | cons piece rest ih =>
    cases rest with
    | nil => simp
    | cons next rest =>
      rw [intercalate_cons_cons, append_assoc, cons_append,
        infix_append_cons hc, hskip, exists_mem_cons_iff]
      exact or_congr_right ih

/-! ### Splitting at each separator -/

variable [BEq α] [LawfulBEq α]

/-- The pieces have no separator. -/
theorem not_mem_of_mem_splitOn {separator : α} {s piece : List α}
    (h : piece ∈ s.splitOn separator) : separator ∉ piece := by
  induction s generalizing piece with
  | nil =>
    rw [splitOn_nil, mem_singleton] at h
    rw [h]
    exact not_mem_nil
  | cons a s ih =>
    rw [splitOn_cons_eq_if_modifyHead] at h
    split at h
    · rcases mem_cons.mp h with rfl | h
      · exact not_mem_nil
      · exact ih h
    rename_i hne
    obtain ⟨first, rest, hsplit⟩ := exists_cons_of_ne_nil (splitOn_ne_nil separator s)
    rw [hsplit, modifyHead_cons] at h
    rcases mem_cons.mp h with rfl | h
    · rw [mem_cons, not_or]
      refine ⟨?_, ih (hsplit ▸ mem_cons_self)⟩
      rintro rfl
      exact hne (beq_self_eq_true _)
    · exact ih (hsplit ▸ mem_cons_of_mem _ h)

/-- There is no separator before the first. -/
theorem not_mem_take_idxOf {separator : α} {s : List α} {position : Nat}
    (h : s.idxOf? separator = some position) : separator ∉ s.take position := by
  rw [idxOf?_eq_some_iff] at h
  obtain ⟨hlt, -, hbefore⟩ := h
  intro hmem
  obtain ⟨i, hi, hget⟩ := mem_take_iff_getElem.mp hmem
  exact hbefore i (by omega) (by simp [hget])

/-- The first separator is where it stands. -/
theorem idxOf?_append_cons {separator : α} {before : List α} (h : separator ∉ before)
    (behind : List α) : (before ++ separator :: behind).idxOf? separator = some before.length := by
  rw [idxOf?_eq_some_iff]
  refine ⟨by simp, by simp, ?_⟩
  intro i hi hequal
  rw [getElem_append_left hi] at hequal
  exact h (hequal ▸ getElem_mem hi)

/-- Pieces that each end in a separator. -/
theorem splitOn_flatMap_terminated {separator : α} {pieces : List (List α)}
    (h : ∀ piece ∈ pieces, separator ∉ piece) :
    (pieces.flatMap (· ++ [separator])).splitOn separator = pieces ++ [[]] := by
  induction pieces with
  | nil => rfl
  | cons piece pieces ih =>
    have hfirst := h piece mem_cons_self
    rw [flatMap_cons, append_assoc, singleton_append, splitOn_append_cons_of_beq _ _
      (beq_self_eq_true _), splitOn_eq_singleton hfirst, ih fun other hother => h other
      (mem_cons_of_mem _ hother)]
    rfl

end Diri
