/-
What redaction leaves standing of a text.

A text is cut where a value is masked, and each piece keeps what is no control sequence.  No
control sequence reaches into a mask, so the redacted text is those pieces around the masks.
-/
import Diri.Engine.Status
import Diri.Lib.Cut

namespace Diri

open List

/-- What stands between the places found, each piece with what is kept of the find that ends it. -/
def cutOut (find : List Char → Option (List Char × List Char)) : Nat → List Char → List (List Char)
  | 0, text => [text]
  | _ + 1, [] => [[]]
  | fuel + 1, c :: text =>
    match find (c :: text) with
    | some (kept, rest) => kept :: cutOut find fuel rest
    | none => (cutOut find fuel text).modifyHead (c :: ·)

theorem cutOut_ne_nil (find : List Char → Option (List Char × List Char)) (fuel : Nat)
    (text : List Char) : cutOut find fuel text ≠ [] := by
  induction fuel generalizing text with
  | zero => simp [cutOut]
  | succ fuel ih =>
    cases text with
    | nil => simp [cutOut]
    | cons c text =>
      rw [cutOut]
      split
      · simp
      cases h : cutOut find fuel text with
      | nil => exact absurd h (ih text)
      | cons piece rest => simp

/-! ### Masked values -/

/-- What stands in the place of an assignment's end. -/
def mask : List Char := ['=', '•', '•', '•']

theorem maskSecrets_eq (fuel : Nat) (text : List Char) :
    maskSecrets fuel text = mask.intercalate (cutOut matchSecret fuel text) := by
  induction fuel generalizing text with
  | zero => simp [maskSecrets, cutOut]
  | succ fuel ih =>
    cases text with
    | nil => simp [maskSecrets, cutOut]
    | cons c text =>
      cases hmatch : matchSecret (c :: text) with
      | some found =>
        obtain ⟨keyword, rest⟩ := found
        simp only [maskSecrets, cutOut, hmatch]
        rw [intercalate_cons_of_ne_nil (cutOut_ne_nil _ _ _), ih]
        rfl
      | none =>
        simp only [maskSecrets, cutOut, hmatch]
        rw [ih]
        cases h : cutOut matchSecret fuel text with
        | nil => exact absurd h (cutOut_ne_nil _ fuel text)
        | cons piece rest => simp

/-! ### Control sequences -/

theorem length_dropWhile_le (p : Char → Bool) (text : List Char) :
    (text.dropWhile p).length ≤ text.length :=
  (dropWhile_suffix p).length_le

theorem length_of_matchAnsi {c : Char} {text rest : List Char}
    (h : matchAnsi (c :: text) = some rest) : rest.length ≤ text.length := by
  unfold matchAnsi at h
  split at h
  case h_2 => cases h
  rename_i params htext
  obtain ⟨-, rfl⟩ := cons_eq_cons.mp htext
  have hparams := length_dropWhile_le (fun c => c.isDigit || c == ';' || c == '?') params
  split at h
  · rename_i final behind hfinal
    rw [hfinal] at hparams
    split at h <;> obtain ⟨⟩ := h
    simp only [length_cons] at hparams ⊢
    omega
  · cases h

theorem stripAnsi_fuel {fuel fuel' : Nat} {text : List Char} (h : text.length ≤ fuel)
    (h' : text.length ≤ fuel') : stripAnsi fuel text = stripAnsi fuel' text := by
  induction fuel generalizing fuel' text with
  | zero =>
    obtain rfl := length_eq_zero_iff.mp (Nat.le_zero.mp h)
    cases fuel' <;> rfl
  | succ fuel ih =>
    cases text with
    | nil => cases fuel' <;> rfl
    | cons c text =>
      obtain ⟨fuel', rfl⟩ := Nat.exists_eq_succ_of_ne_zero (Nat.ne_of_gt (Nat.lt_of_lt_of_le
        (Nat.succ_pos _) h'))
      simp only [length_cons, Nat.succ_eq_add_one, Nat.add_le_add_iff_right] at h h'
      rw [stripAnsi, stripAnsi]
      split
      · rename_i rest hrest
        have hlength := length_of_matchAnsi hrest
        exact ih (by omega) (by omega)
      · rw [ih h h']

def unstyled (text : List Char) : List Char := stripAnsi text.length text

@[simp] theorem unstyled_nil : unstyled [] = [] := rfl

theorem unstyled_of_some {text rest : List Char} (h : matchAnsi text = some rest) :
    unstyled text = unstyled rest := by
  cases text with
  | nil => cases h
  | cons c text =>
    have hlength := length_of_matchAnsi h
    rw [unstyled, length_cons, stripAnsi, h]
    exact stripAnsi_fuel hlength (le_refl _)

theorem unstyled_of_none {c : Char} {text : List Char} (h : matchAnsi (c :: text) = none) :
    unstyled (c :: text) = c :: unstyled text := by
  rw [unstyled, length_cons, stripAnsi, h]
  rfl

theorem matchAnsi_of_ne {c : Char} (h : c ≠ '\x1b') (text : List Char) :
    matchAnsi (c :: text) = none := by
  unfold matchAnsi
  split
  · rename_i htext
    exact absurd (cons_eq_cons.mp htext).1 h
  · rfl

/-- A character that neither begins a control sequence nor belongs in one ends what precedes. -/
theorem matchAnsi_append_mask (piece rest : List Char) :
    matchAnsi (piece ++ '=' :: rest) = (matchAnsi piece).map (· ++ '=' :: rest) := by
  match piece with
  | [] => rfl
  | [c] =>
    have hright : matchAnsi [c] = none := by
      unfold matchAnsi
      split
      · rename_i h
        cases (cons_eq_cons.mp h).2
      · rfl
    rw [hright]
    unfold matchAnsi
    split
    · rename_i h
      have hsecond := (cons_eq_cons.mp (cons_eq_cons.mp h).2).1
      exact absurd hsecond (by decide)
    · rfl
  | c :: d :: params =>
    by_cases hhead : c = '\x1b' ∧ d = '['
    · obtain ⟨rfl, rfl⟩ := hhead
      simp only [matchAnsi, cons_append]
      rw [dropWhile_append]
      cases hparams : params.dropWhile fun c => c.isDigit || c == ';' || c == '?' with
      | nil =>
        simp only [isEmpty_nil, if_true]
        rfl
      | cons final behind =>
        simp only [isEmpty_cons, Bool.false_eq_true, if_false, cons_append]
        split <;> rfl
    have hnone : ∀ text, matchAnsi (c :: d :: text) = none := by
      intro text
      unfold matchAnsi
      split
      · rename_i h
        obtain ⟨hc, h⟩ := cons_eq_cons.mp h
        exact absurd ⟨hc, (cons_eq_cons.mp h).1⟩ hhead
      · rfl
    rw [cons_append, cons_append, hnone, hnone]
    rfl

theorem unstyled_append_mask (piece rest : List Char) :
    unstyled (piece ++ '=' :: rest) = unstyled piece ++ '=' :: unstyled rest := by
  induction hlength : piece.length using Nat.strong_induction_on generalizing piece with
  | _ n ih =>
    cases piece with
    | nil => exact unstyled_of_none (matchAnsi_of_ne (by decide) rest)
    | cons c piece =>
      have happend := matchAnsi_append_mask (c :: piece) rest
      cases hmatch : matchAnsi (c :: piece) with
      | none =>
        rw [hmatch] at happend
        rw [cons_append] at happend ⊢
        rw [unstyled_of_none happend, unstyled_of_none hmatch,
          ih _ (by rw [← hlength]; exact Nat.lt_succ_self _) piece rfl]
        rfl
      | some behind =>
        rw [hmatch] at happend
        have hle := length_of_matchAnsi hmatch
        rw [unstyled_of_some happend, unstyled_of_some hmatch]
        exact ih _ (by rw [← hlength, length_cons]; omega) behind rfl

theorem unstyled_intercalate (pieces : List (List Char)) :
    unstyled (mask.intercalate pieces) = mask.intercalate (pieces.map unstyled) := by
  have hdots : ∀ text,
      unstyled ('•' :: '•' :: '•' :: text) = '•' :: '•' :: '•' :: unstyled text := by
    intro text
    rw [unstyled_of_none (matchAnsi_of_ne (by decide) _), unstyled_of_none (matchAnsi_of_ne (by
      decide) _), unstyled_of_none (matchAnsi_of_ne (by decide) _)]
  induction pieces with
  | nil => rfl
  | cons piece rest ih =>
    cases rest with
    | nil => simp
    | cons next rest =>
      rw [intercalate_cons_cons, append_assoc]
      have hmask := unstyled_append_mask piece
        ('•' :: '•' :: '•' :: mask.intercalate (next :: rest))
      rw [hdots, ih] at hmask
      simpa [mask] using hmask

/-! ### Redaction -/

/-- What is left standing between the masks. -/
def standing (text : String) : List (List Char) :=
  (cutOut matchSecret text.toList.length text.toList).map unstyled

theorem toList_redact (text : String) :
    (redact text).toList = mask.intercalate (standing text) := by
  rw [redact, String.toList_ofList, ← unstyled, maskSecrets_eq, unstyled_intercalate]
  rfl

end Diri
