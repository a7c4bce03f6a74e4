/-
Texts in lower case.

Unicode's tables are a parameter: what each character becomes, and which characters are cased
or ignored when casing is looked for.  They are only assumed to be as they are on ASCII, to
lead to ASCII from outside it in the known two cases alone, and to make nothing that lower
case would change again.  The one rule that looks at a character's surroundings is that of a
sigma, which has another form at the end of a word.

A slash is no part of a word, so the parts that it separates are lowered on their own
(`toLowercase_slash`); what is in lower case stays as it is (`toLowercase_toLowercase`).
-/
import Mathlib.Data.List.Basic

namespace Diri

open List

structure CaseTable where
  /-- `char::to_lowercase`. -/
  lower : Char → List Char
  cased : Char → Bool
  ignorable : Char → Bool
  ascii : ∀ c, c.toNat < 128 → lower c = [c.toLower]
  /-- The Kelvin sign becomes a `k`, and a dotted capital an `i` with a dot above. -/
  other : ∀ c, 128 ≤ c.toNat → lower c = ['k'] ∨
    ((∃ d ∈ lower c, 128 ≤ d.toNat) ∧ ∀ d ∈ lower c, d.toNat < 128 → d = 'i')
  stable : ∀ c, ∀ d ∈ lower c, lower d = [d] ∧ d ≠ 'Σ'
  sigma : lower 'σ' = ['σ'] ∧ lower 'ς' = ['ς']
  slash : cased '/' = false ∧ ignorable '/' = false

/-- A character is its own lower case, or is a capital of ASCII. -/
theorem toLower_cases (c : Char) : c.toLower = c
    ∨ 65 ≤ c.toNat ∧ c.toNat ≤ 90 ∧ c.toLower.toNat = c.toNat + 32 := by
  unfold Char.toLower
  split
  · rename_i hUpper
    have hLow : 65 ≤ c.val.toNat := UInt32.le_iff_toNat_le.mp hUpper.1
    have hHigh : c.val.toNat ≤ 90 := UInt32.le_iff_toNat_le.mp hUpper.2
    refine .inr ⟨hLow, hHigh, ?_⟩
    have hDiff : ('a'.val - 'A'.val).toNat = 32 := rfl
    show (c.val + ('a'.val - 'A'.val)).toNat = c.val.toNat + 32
    rw [UInt32.toNat_add, hDiff]
    omega
  · exact .inl rfl

/-- In ASCII, no character but letters is a letter's lower case. -/
theorem eq_of_toLower {c d : Char} (hd : d.isAlpha = false) (h : c.toLower = d) : c = d := by
  rcases toLower_cases c with hSame | ⟨hLow, hHigh, hVal⟩
  · rw [← hSame, h]
  rw [h] at hVal
  have hFrom : 'a'.val ≤ d.val := by
    apply UInt32.le_iff_toNat_le.mpr
    show 97 ≤ d.toNat
    omega
  have hTo : d.val ≤ 'z'.val := by
    apply UInt32.le_iff_toNat_le.mpr
    show d.toNat ≤ 122
    omega
  have hLower : d.isLower = true := by
    unfold Char.isLower
    rw [decide_eq_true hFrom, decide_eq_true hTo]
    rfl
  have hAlpha : (d.isUpper || d.isLower) = false := hd
  rw [hLower, Bool.or_true] at hAlpha
  cases hAlpha

namespace CaseTable

variable (table : CaseTable)

/-- The next character that is not ignored is a cased one. -/
def nextCased (text : List Char) : Bool :=
  (text.dropWhile table.ignorable).head?.any table.cased

/-- What a character becomes between the text before it, newest first, and that behind it. -/
def lowerAt (before : List Char) (c : Char) (behind : List Char) : List Char :=
  if c = 'Σ' then
    if table.nextCased before && !table.nextCased behind then ['ς'] else ['σ']
  else table.lower c

def lowerFrom (before : List Char) : List Char → List Char
  | [] => []
  | c :: behind => table.lowerAt before c behind ++ lowerFrom (c :: before) behind

def toLowercase (text : List Char) : List Char := table.lowerFrom [] text

/-! ### ASCII -/

theorem lowerAt_ascii {c : Char} (hc : c.toNat < 128) (before behind : List Char) :
    table.lowerAt before c behind = [c.toLower] := by
  have hSigma : c ≠ 'Σ' := by
    rintro rfl
    exact absurd hc (by decide)
  unfold lowerAt
  rw [if_neg hSigma, table.ascii c hc]

theorem lowerFrom_append (before first second : List Char) :
    ∃ front, table.lowerFrom before (first ++ second)
      = front ++ table.lowerFrom (first.reverse ++ before) second := by
  induction first generalizing before with
  | nil => exact ⟨[], rfl⟩
  | cons c first ih =>
    obtain ⟨front, hFront⟩ := ih (c :: before)
    refine ⟨table.lowerAt before c (first ++ second) ++ front, ?_⟩
    rw [cons_append, lowerFrom, hFront]
    simp

variable {text : List Char}

theorem lowerFrom_ascii (h : ∀ c ∈ text, c.toNat < 128) (before : List Char) :
    table.lowerFrom before text = text.map Char.toLower := by
  induction text generalizing before with
  | nil => rfl
  | cons c text ih =>
    rw [lowerFrom, table.lowerAt_ascii (h c mem_cons_self), ih fun d hd =>
      h d (mem_cons_of_mem _ hd)]
    rfl

/-! ### Slashes -/

theorem nextCased_slash (text rest : List Char) :
    table.nextCased (text ++ '/' :: rest) = table.nextCased text := by
  obtain ⟨hCased, hIgnorable⟩ := table.slash
  unfold nextCased
  induction text with
  | nil => simp [hCased, hIgnorable]
  | cons c text ih =>
    rw [cons_append, dropWhile_cons, dropWhile_cons]
    split
    · exact ih
    · rfl

theorem lowerAt_slash (before rest : List Char) (c : Char) (behind : List Char) :
    table.lowerAt before c (behind ++ '/' :: rest) = table.lowerAt before c behind := by
  unfold lowerAt
  rw [nextCased_slash]

theorem lowerAt_slash_before (before rest : List Char) (c : Char) (behind : List Char) :
    table.lowerAt (before ++ '/' :: rest) c behind = table.lowerAt before c behind := by
  unfold lowerAt
  rw [nextCased_slash]

theorem lowerFrom_slash_before (before rest text : List Char) :
    table.lowerFrom (before ++ '/' :: rest) text = table.lowerFrom before text := by
  induction text generalizing before with
  | nil => rfl
  | cons c text ih =>
    rw [lowerFrom, lowerFrom, lowerAt_slash_before, ← cons_append, ih]

theorem lowerFrom_slash (before first second : List Char) :
    table.lowerFrom before (first ++ '/' :: second)
      = table.lowerFrom before first ++ '/' :: table.lowerFrom [] second := by
  induction first generalizing before with
  | nil =>
    have hBefore := table.lowerFrom_slash_before [] before second
    rw [nil_append] at hBefore
    have hHere : table.lowerAt before '/' second = ['/'] := table.lowerAt_ascii (by decide) _ _
    show table.lowerAt before '/' second ++ table.lowerFrom ('/' :: before) second = _
    rw [hHere, hBefore]
    rfl
  | cons c first ih =>
    rw [cons_append, lowerFrom, lowerFrom, ih, lowerAt_slash, append_assoc]

/-- A slash parts a text for lower case. -/
theorem toLowercase_slash (first second : List Char) : table.toLowercase (first ++ '/' :: second)
      = table.toLowercase first ++ '/' :: table.toLowercase second :=
  table.lowerFrom_slash [] first second

/-! ### What is made -/

theorem mem_lowerAt {before behind : List Char} {c d : Char}
    (h : d ∈ table.lowerAt before c behind) : d ∈ table.lower c ∨ d = 'σ' ∨ d = 'ς' := by
  unfold lowerAt at h
  split at h
  · split at h
    · exact .inr (.inr (List.mem_singleton.mp h))
    · exact .inr (.inl (List.mem_singleton.mp h))
  · exact .inl h

theorem mem_lowerFrom {before : List Char} {d : Char} (h : d ∈ table.lowerFrom before text) :
    (∃ c ∈ text, d ∈ table.lower c) ∨ d = 'σ' ∨ d = 'ς' := by
  induction text generalizing before with
  | nil => cases h
  | cons c text ih =>
    rw [lowerFrom, mem_append] at h
    rcases h with hHere | hRest
    · rcases table.mem_lowerAt hHere with hLower | hSigma
      · exact .inl ⟨c, mem_cons_self, hLower⟩
      · exact .inr hSigma
    rcases ih hRest with ⟨c', hc', hd⟩ | hSigma
    · exact .inl ⟨c', mem_cons_of_mem _ hc', hd⟩
    · exact .inr hSigma

theorem lowerFrom_stable (h : ∀ c ∈ text, table.lower c = [c] ∧ c ≠ 'Σ')
    (before : List Char) : table.lowerFrom before text = text := by
  induction text generalizing before with
  | nil => rfl
  | cons c text ih =>
    obtain ⟨hLower, hSigma⟩ := h c mem_cons_self
    rw [lowerFrom, lowerAt, if_neg hSigma, hLower, ih fun d hd => h d (mem_cons_of_mem _ hd)]
    rfl

theorem toLowercase_toLowercase (text : List Char) :
    table.toLowercase (table.toLowercase text) = table.toLowercase text := by
  apply lowerFrom_stable
  intro d hd
  rcases table.mem_lowerFrom hd with ⟨c, -, hLower⟩ | rfl | rfl
  · exact table.stable c d hLower
  · exact ⟨table.sigma.1, by decide⟩
  · exact ⟨table.sigma.2, by decide⟩

/-- An ASCII character other than two letters is made only of itself, or of its capital. -/
theorem of_mem_lower {c d : Char} (h : d ∈ table.lower c) (hAscii : d.toNat < 128)
    (hLetter : d ≠ 'k' ∧ d ≠ 'i') : c.toNat < 128 ∧ d = c.toLower := by
  by_cases hc : c.toNat < 128
  · rw [table.ascii c hc, mem_singleton] at h
    exact ⟨hc, h⟩
  rcases table.other c (by omega) with hKelvin | ⟨-, hOnly⟩
  · rw [hKelvin, mem_singleton] at h
    exact absurd h hLetter.1
  · exact absurd (hOnly d h hAscii) hLetter.2

theorem lowerAt_other {c : Char} (hc : 128 ≤ c.toNat) (before behind : List Char) :
    table.lowerAt before c behind = ['k'] ∨ ((∃ d ∈ table.lowerAt before c behind, 128 ≤ d.toNat)
        ∧ ∀ d ∈ table.lowerAt before c behind, d.toNat < 128 → d = 'i') := by
  unfold lowerAt
  split
  · split
    · exact .inr ⟨⟨'ς', mem_singleton_self _, by decide⟩, by simp⟩
    · exact .inr ⟨⟨'σ', mem_singleton_self _, by decide⟩, by simp⟩
  · exact table.other c hc

/-- Of an ASCII character other than a letter nothing but itself is made. -/
theorem eq_of_mem_lowerAt {before behind : List Char} {c d : Char} (hAscii : d.toNat < 128)
    (hLetter : d.isAlpha = false) (h : d ∈ table.lowerAt before c behind) : c = d := by
  have hOther : d ≠ 'k' ∧ d ≠ 'i' := by
    constructor <;> rintro rfl <;> exact absurd hLetter (by decide)
  rcases table.mem_lowerAt h with hLower | rfl | rfl
  · exact eq_of_toLower hLetter (table.of_mem_lower hLower hAscii hOther).2.symm
  · exact absurd hAscii (by decide)
  · exact absurd hAscii (by decide)

theorem lowerAt_ne_nil (before behind : List Char) (c : Char) :
    table.lowerAt before c behind ≠ [] := by
  by_cases hc : c.toNat < 128
  · rw [table.lowerAt_ascii hc]
    exact cons_ne_nil _ _
  rcases table.lowerAt_other (Nat.le_of_not_lt hc) before behind with
    hKelvin | ⟨⟨d, hd, -⟩, -⟩
  · rw [hKelvin]
    exact cons_ne_nil _ _
  · exact List.ne_nil_of_mem hd

/-- No character but letters is made of another one. -/
theorem not_mem_toLowercase {d : Char} (hAscii : d.toNat < 128) (hLetter : d.isAlpha = false)
    (h : d ∉ text) : d ∉ table.toLowercase text := by
  unfold toLowercase
  generalize ([] : List Char) = before
  induction text generalizing before with
  | nil => exact not_mem_nil
  | cons c text ih =>
    rw [lowerFrom, mem_append, not_or]
    refine ⟨?_, ih (fun hMem => h (mem_cons_of_mem _ hMem)) _⟩
    intro hMem
    rw [table.eq_of_mem_lowerAt hAscii hLetter hMem] at h
    exact h mem_cons_self

/-- The text's first character makes the first ones, and its last the last ones. -/
theorem toLowercase_cons (c : Char) (text : List Char) :
    ∃ rest, table.toLowercase (c :: text) = table.lowerAt [] c text ++ rest :=
  ⟨_, rfl⟩

theorem toLowercase_concat (text : List Char) (c : Char) :
    ∃ front before, table.toLowercase (text ++ [c]) = front ++ table.lowerAt before c [] := by
  obtain ⟨front, hFront⟩ := table.lowerFrom_append [] text [c]
  refine ⟨front, text.reverse ++ [], ?_⟩
  unfold toLowercase
  rw [hFront, lowerFrom, lowerFrom, append_nil]

theorem toLowercase_ne_nil (h : text ≠ []) : table.toLowercase text ≠ [] := by
  cases text with
  | nil => exact absurd rfl h
  | cons c text =>
    obtain ⟨rest, hRest⟩ := table.toLowercase_cons c text
    rw [hRest]
    simp [table.lowerAt_ne_nil]

/-- No character outside ASCII has a part in an ASCII text of lower case that ends in a slash
and has no `k`. -/
theorem not_prefix_other {c : Char} (hc : 128 ≤ c.toNat) {before behind rest : List Char}
    {pattern : List Char} (hPattern : ∀ d ∈ pattern ++ ['/'], d.toNat < 128 ∧ d ≠ 'k') :
    ¬pattern ++ ['/'] <+: table.lowerAt before c behind ++ rest := by
  intro h
  have hSlash : '/' ∈ pattern ++ ['/'] := by simp
  rcases prefix_or_prefix_of_prefix h (prefix_append _ rest) with hShort | hLong
  · rcases table.lowerAt_other hc before behind with hKelvin | ⟨-, hOnly⟩
    · have hMem := hShort.subset hSlash
      rw [hKelvin] at hMem
      exact absurd hMem (by decide)
    · exact absurd (hOnly '/' (hShort.subset hSlash) (by decide)) (by decide)
  rcases table.lowerAt_other hc before behind with hKelvin | ⟨⟨d, hd, hLarge⟩, -⟩
  · have hMem : 'k' ∈ table.lowerAt before c behind := by
      rw [hKelvin]
      exact mem_singleton_self _
    exact (hPattern 'k' (hLong.subset hMem)).2 rfl
  · have hSmall := (hPattern d (hLong.subset hd)).1
    omega

/-- A text that begins with such a pattern in lower case begins with it in some case. -/
theorem of_prefix_lowerFrom {pattern text before : List Char}
    (hPattern : ∀ d ∈ pattern ++ ['/'], d.toNat < 128 ∧ d ≠ 'k')
    (h : pattern ++ ['/'] <+: table.lowerFrom before text) :
    ∃ first rest, text = first ++ rest ∧ first.map Char.toLower = pattern ++ ['/'] := by
  induction text generalizing before pattern with
  | nil =>
    have hNil : pattern ++ ['/'] = [] := List.prefix_nil.mp h
    simp at hNil
  | cons c text ih =>
    by_cases hc : c.toNat < 128
    · rw [lowerFrom, table.lowerAt_ascii hc, singleton_append] at h
      cases pattern with
      | nil =>
        rw [nil_append, cons_prefix_cons] at h
        exact ⟨[c], text, rfl, by rw [h.1]; rfl⟩
      | cons d pattern =>
        rw [cons_append, cons_prefix_cons] at h
        obtain ⟨first, rest, hText, hFirst⟩ := ih
          (fun d' hd' => hPattern d' (mem_cons_of_mem _ hd')) h.2
        refine ⟨c :: first, rest, by rw [hText]; rfl, ?_⟩
        rw [map_cons, hFirst, h.1]
        rfl
    · exact absurd h (table.not_prefix_other (by omega) hPattern)

theorem prefix_toLowercase {pattern text : List Char}
    (hPattern : ∀ d ∈ pattern ++ ['/'], d.toNat < 128 ∧ d ≠ 'k')
    (h : pattern ++ ['/'] <+: table.toLowercase text) :
    ∃ first rest, text = first ++ rest ∧ first.map Char.toLower = pattern ++ ['/'] :=
  table.of_prefix_lowerFrom hPattern h

theorem toLowercase_append_ascii (text : List Char) {last : List Char}
    (h : ∀ c ∈ last, c.toNat < 128) :
    ∃ front, table.toLowercase (text ++ last) = front ++ last.map Char.toLower := by
  obtain ⟨front, hFront⟩ := table.lowerFrom_append [] text last
  refine ⟨front, ?_⟩
  unfold toLowercase
  rw [hFront, table.lowerFrom_ascii h]

/-- ASCII in front of a text is lowered on its own. -/
theorem toLowercase_ascii_append {first : List Char} (h : ∀ c ∈ first, c.toNat < 128)
    (text : List Char) : first.map Char.toLower <+: table.toLowercase (first ++ text) := by
  unfold toLowercase
  generalize ([] : List Char) = before
  induction first generalizing before with
  | nil => exact nil_prefix
  | cons c first ih =>
    rw [cons_append, lowerFrom, table.lowerAt_ascii (h c mem_cons_self), map_cons,
      singleton_append, cons_prefix_cons]
    exact ⟨rfl, ih (fun d hd => h d (mem_cons_of_mem _ hd)) _⟩

end CaseTable

end Diri
