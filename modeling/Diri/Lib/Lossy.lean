/-
The lines of a text that is read as far as it is one.

A byte that is a character of its own is never part of another one, so what is before it and
what is after it are read apart; the lines of what is read are what is read of the lines.
-/
import Diri.Lib.Lines
import Diri.Lib.Bytes

namespace Diri

open List String

variable {byte : UInt8}

/-! ### What is before an ASCII byte -/

theorem firstChar_append (hbyte : byte < 128) (first : UInt8) (bytes rest : List UInt8) :
    firstChar (first :: bytes ++ byte :: rest) = firstChar (first :: bytes) := by
  cases h : firstChar (first :: bytes) with
  | some c =>
    have hbytes := eq_of_firstChar h
    rw [hbytes, List.append_assoc, firstChar_encode]
  | none =>
    cases hlong : firstChar (first :: bytes ++ byte :: rest) with
    | none => rfl
    | some c =>
      exfalso
      have hbytes := eq_of_firstChar hlong
      have hencoded : ∀ more, first :: bytes ≠ String.utf8EncodeChar c ++ more := by
        intro more hmore
        rw [hmore, firstChar_encode] at h
        cases h
      rcases append_eq_append_iff.mp hbytes with ⟨more, hmore, hrest⟩ | ⟨more, hmore, -⟩
      · cases more with
        | nil => exact hencoded [] (by rw [hmore, append_nil, append_nil])
        | cons next more =>
          obtain ⟨rfl, -⟩ := List.cons.inj hrest
          have hmem : byte ∈ String.utf8EncodeChar c := by
            rw [hmore]
            simp
          have hone := congrArg List.length ((encode_eq_of_ascii hbyte hmem).symm.trans hmore)
          simp at hone
      · exact hencoded more hmore

theorem isSecondByte_ascii (hbyte : byte < 128) (first : UInt8) :
    isSecondByte first byte = false := by
  have hlow : ¬(0x80 : UInt8) ≤ byte := UInt8.not_le.mpr hbyte
  have hlow' : ¬(0x90 : UInt8) ≤ byte := fun h => hlow (UInt8.le_trans (by decide) h)
  have hlow'' : ¬(0xA0 : UInt8) ≤ byte := fun h => hlow (UInt8.le_trans (by decide) h)
  unfold isSecondByte
  simp [hlow, hlow', hlow'']

theorem brokenLength_append (hbyte : byte < 128) (first : UInt8) (bytes rest : List UInt8) :
    brokenLength (first :: bytes ++ byte :: rest) = brokenLength (first :: bytes) := by
  have hlow : ¬(0x80 : UInt8) ≤ byte := UInt8.not_le.mpr hbyte
  cases bytes with
  | nil => simp [brokenLength, isSecondByte_ascii hbyte]
  | cons second bytes =>
    cases bytes with
    | nil => simp [brokenLength, hlow]
    | cons third bytes => rfl

theorem brokenLength_pos (bytes : List UInt8) : 0 < brokenLength bytes := by
  unfold brokenLength
  split
  · split
    · split
      · split <;> omega
      · omega
    · omega
  · omega

theorem brokenLength_le (first : UInt8) (bytes : List UInt8) :
    brokenLength (first :: bytes) ≤ (first :: bytes).length := by
  unfold brokenLength
  split
  · rename_i heq
    obtain ⟨rfl, rfl⟩ := List.cons.inj heq
    split
    · split
      · split <;> simp
      · simp
    · simp
  · simp

/-- How many bytes are taken away at the front. -/
def frontLength (bytes : List UInt8) : Nat :=
  match firstChar bytes with
  | some c => c.utf8Size
  | none => brokenLength bytes

theorem readChars_cons (fuel : Nat) (first : UInt8) (bytes : List UInt8) :
    readChars (fuel + 1) (first :: bytes) = firstChar (first :: bytes) ::
      readChars fuel ((first :: bytes).drop (frontLength (first :: bytes))) := by
  unfold frontLength
  cases h : firstChar (first :: bytes) with
  | some c | none =>
    rw [readChars, h]
    simp

theorem frontLength_pos (bytes : List UInt8) : 0 < frontLength bytes := by
  unfold frontLength
  split
  · exact Char.utf8Size_pos _
  · exact brokenLength_pos bytes

theorem frontLength_le (first : UInt8) (bytes : List UInt8) :
    frontLength (first :: bytes) ≤ (first :: bytes).length := by
  unfold frontLength
  split
  · rename_i c h
    have hlength := congrArg List.length (eq_of_firstChar h)
    rw [List.length_append, length_utf8EncodeChar] at hlength
    omega
  · exact brokenLength_le first bytes

theorem frontLength_append (hbyte : byte < 128) (first : UInt8) (bytes rest : List UInt8) :
    frontLength (first :: bytes ++ byte :: rest) = frontLength (first :: bytes) := by
  unfold frontLength
  rw [firstChar_append hbyte, brokenLength_append hbyte]

theorem length_front (first : UInt8) (bytes : List UInt8) :
    ((first :: bytes).drop (frontLength (first :: bytes))).length ≤ bytes.length := by
  have := frontLength_pos (first :: bytes)
  rw [length_drop, length_cons]
  omega

variable {bytes : List UInt8} {c : Char}

/-- More fuel than there are bytes makes no difference. -/
theorem readChars_fuel {fuel more : Nat} (hfuel : bytes.length ≤ fuel)
    (hmore : bytes.length ≤ more) : readChars fuel bytes = readChars more bytes := by
  induction fuel generalizing bytes more with
  | zero =>
    obtain rfl := length_eq_zero_iff.mp (Nat.le_zero.mp hfuel)
    cases more <;> rfl
  | succ fuel ih =>
    cases bytes with
    | nil => cases more <;> rfl
    | cons first bytes =>
      rw [length_cons] at hfuel hmore
      obtain ⟨more, rfl⟩ : ∃ less, more = less + 1 := ⟨more - 1, by omega⟩
      have hfront := length_front first bytes
      rw [readChars_cons, readChars_cons]
      exact congrArg _ (ih (by omega) (by omega))

section
variable (hc : String.utf8EncodeChar c = [byte])
include hc

/-- A character of one byte parts what is read before it from what is read after it. -/
theorem readChars_append (hbyte : byte < 128)
    (bytes rest : List UInt8) {fuel : Nat} (hfuel : (bytes ++ byte :: rest).length ≤ fuel) :
    readChars fuel (bytes ++ byte :: rest) =
      readChars bytes.length bytes ++ some c :: readChars rest.length rest := by
  induction fuel generalizing bytes with
  | zero => simp at hfuel
  | succ fuel ih =>
    rw [List.length_append, length_cons] at hfuel
    cases bytes with
    | nil =>
      have hfirst : firstChar (byte :: rest) = some c := by
        have := firstChar_encode c rest
        rwa [hc] at this
      have hsize : c.utf8Size = 1 := by
        rw [← length_utf8EncodeChar, hc, List.length_singleton]
      rw [nil_append, readChars_cons, frontLength, hfirst]
      dsimp only
      rw [hsize, drop_one, tail_cons, readChars_fuel (by simp at hfuel; omega) (Nat.le_refl _)]
      rfl
    | cons first bytes =>
      have hfront := length_front first bytes
      rw [length_cons] at hfuel
      rw [cons_append, readChars_cons, ← cons_append, firstChar_append hbyte,
        frontLength_append hbyte, drop_append_of_le_length (frontLength_le _ _),
        ih _ (by rw [List.length_append, length_cons]; omega), length_cons,
        readChars_cons, cons_append, readChars_fuel (Nat.le_refl _) hfront]

theorem toStringLossy_append (hbyte : byte < 128) (bytes rest : List UInt8) :
    (toStringLossy (bytes ++ byte :: rest)).toList =
      (toStringLossy bytes).toList ++ c :: (toStringLossy rest).toList := by
  unfold toStringLossy
  rw [readChars_append hc hbyte bytes rest (Nat.le_refl _), map_append, map_cons,
    toList_ofList, toList_ofList, toList_ofList]
  rfl

/-- A character of one byte is read where that byte is. -/
theorem mem_of_mem_readChars {fuel : Nat} (h : some c ∈ readChars fuel bytes) : byte ∈ bytes := by
  induction fuel generalizing bytes with
  | zero => cases h
  | succ fuel ih =>
    cases bytes with
    | nil => cases h
    | cons first bytes =>
      rw [readChars_cons] at h
      rcases mem_cons.mp h with hfirst | hrest
      · rw [eq_of_firstChar hfirst.symm, hc]
        simp
      · exact mem_of_mem_drop (ih hrest)

theorem mem_of_mem_toStringLossy (hbroken : c ≠ '\uFFFD') (h : c ∈ (toStringLossy bytes).toList) :
    byte ∈ bytes := by
  unfold toStringLossy at h
  rw [toList_ofList] at h
  obtain ⟨char, hchar, hgot⟩ := mem_map.mp h
  cases char with
  | none => exact absurd hgot.symm hbroken
  | some d =>
    obtain rfl : d = c := hgot
    exact mem_of_mem_readChars hc hchar

end

theorem toStringLossy_eq_nil : (toStringLossy bytes).toList = [] ↔ bytes = [] := by
  unfold toStringLossy
  rw [toList_ofList, map_eq_nil_iff]
  cases bytes with
  | nil => exact iff_of_true rfl rfl
  | cons first bytes =>
    rw [length_cons, readChars_cons]
    simp

/-! ### Lines -/

/-- The lines of what is read are what is read of the lines. -/
theorem cutLines_toStringLossy (hc : String.utf8EncodeChar c = [byte])
    (hbyte : byte < 128) (hbroken : c ≠ '\uFFFD') (bytes : List UInt8) :
    cutLines c (toStringLossy bytes).toList =
      ((cutLines byte bytes).1.map fun line => (toStringLossy line).toList,
        (toStringLossy (cutLines byte bytes).2).toList) := by
  induction hlength : bytes.length using Nat.strong_induction_on generalizing bytes with
  | _ length ih =>
    by_cases hmem : byte ∈ bytes
    · obtain ⟨line, rest, rfl, hline⟩ := eq_append_cons_of_mem hmem
      have hread : c ∉ (toStringLossy line).toList :=
        fun h => hline (mem_of_mem_toStringLossy hc hbroken h)
      rw [List.length_append, length_cons] at hlength
      rw [toStringLossy_append hc hbyte, cutLines_line hread, cutLines_line hline,
        ih rest.length (by omega) rest rfl]
      rfl
    have hread : c ∉ (toStringLossy bytes).toList :=
      fun h => hmem (mem_of_mem_toStringLossy hc hbroken h)
    rw [cutLines_of_notMem hread, cutLines_of_notMem hmem]
    rfl

end Diri
