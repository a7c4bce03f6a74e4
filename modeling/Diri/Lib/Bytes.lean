/-
Numbers as bytes, most significant byte first; texts as bytes.

Texts and their bytes.

A text is read character by character.  What is no character is taken away as far as it
could have become one, and stands for one replacement character.
-/
import Mathlib.Algebra.Order.Ring.Nat
import Mathlib.Data.List.Basic
import Mathlib.Data.List.Induction
import Mathlib.Tactic.IntervalCases

namespace Diri

open List

/-- The `width` big-endian bytes of a number; higher bytes are cut off. -/
def beBytes : (width : Nat) → Nat → List UInt8
  | 0, _ => []
  | width + 1, value => beBytes width (value / 256) ++ [UInt8.ofNat (value % 256)]

/-- The number big-endian bytes stand for. -/
def beValue (bytes : List UInt8) : Nat :=
  bytes.foldl (fun value byte => value * 256 + byte.toNat) 0

@[simp] theorem length_beBytes (width value : Nat) : (beBytes width value).length = width := by
  induction width generalizing value with
  | zero => rfl
  | succ width ih =>
    show (beBytes width (value / 256) ++ [UInt8.ofNat (value % 256)]).length = width + 1
    rw [length_append, ih]
    rfl

theorem beValue_concat (bytes : List UInt8) (byte : UInt8) :
    beValue (bytes ++ [byte]) = beValue bytes * 256 + byte.toNat := by
  simp [beValue]

theorem beValue_lt (bytes : List UInt8) : beValue bytes < 256 ^ bytes.length := by
  induction bytes using reverseRecOn with
  | nil => simp [beValue]
  | append_singleton bytes byte ih =>
    have hbyte := byte.toNat_lt
    rw [beValue_concat, length_append, length_singleton, Nat.pow_succ]
    omega

/-- Bytes are the digits of their number. -/
theorem beBytes_beValue (bytes : List UInt8) : beBytes bytes.length (beValue bytes) = bytes := by
  induction bytes using reverseRecOn with
  | nil => rfl
  | append_singleton bytes byte ih =>
    have hbyte := byte.toNat_lt
    rw [beValue_concat, length_append, length_singleton, beBytes,
      show (beValue bytes * 256 + byte.toNat) / 256 = beValue bytes by omega, ih,
      show (beValue bytes * 256 + byte.toNat) % 256 = byte.toNat by omega, UInt8.ofNat_toNat]

/-- A number that fits is read back. -/
theorem beValue_beBytes {width value : Nat} (h : value < 256 ^ width) :
    beValue (beBytes width value) = value := by
  induction width generalizing value with
  | zero =>
    have hzero : value = 0 := by simpa using h
    rw [hzero]
    rfl
  | succ width ih =>
    have hhigh : value / 256 < 256 ^ width := by
      exact Nat.div_lt_of_lt_mul (by omega)
    have hlow : (UInt8.ofNat (value % 256)).toNat = value % 256 :=
      UInt8.toNat_ofNat_of_lt' (Nat.mod_lt _ (by decide))
    show beValue (beBytes width (value / 256) ++ [UInt8.ofNat (value % 256)]) = value
    rw [beValue_concat, ih hhigh, hlow]
    omega

/-- `str::as_bytes`. -/
def utf8 (text : String) : List UInt8 := text.toByteArray.data.toList

@[simp] theorem utf8_append (text more : String) :
    utf8 (text ++ more) = utf8 text ++ utf8 more := by
  simp [utf8]

theorem length_utf8 (text : String) : (utf8 text).length = text.utf8ByteSize := rfl

/-- The bytes of a text are those of its characters. -/
theorem utf8ByteSize_ofList (chars : List Char) :
    (String.ofList chars).utf8ByteSize = (chars.map Char.utf8Size).sum := by
  show (String.ofList chars).toByteArray.size = _
  rw [String.toByteArray_ofList]
  induction chars with
  | nil => rfl
  | cons c chars ih =>
    have hone : ([c].utf8Encode).size = c.utf8Size := by
      rw [utf8Encode_singleton, size_toByteArray, String.length_utf8EncodeChar]
    rw [utf8Encode_cons, ByteArray.size_append, ih, hone, map_cons, sum_cons]

/-! ### Hexadecimal digits -/

def hexDigits : List Char :=
  ['0', '1', '2', '3', '4', '5', '6', '7', '8', '9', 'a', 'b', 'c', 'd', 'e', 'f']

theorem hexDigits_ascii {n : Nat} (h : n < 16) : (hexDigits.getD n '0').utf8Size = 1 := by
  interval_cases n <;> rfl

/-- The character that a sequence of bytes begins with. -/
def firstChar (bytes : List UInt8) : Option Char :=
  ByteArray.utf8DecodeChar? ⟨bytes.toArray⟩ 0

/-- Whether a byte can follow the first byte of a character. -/
def isSecondByte (first second : UInt8) : Bool :=
  if first = 0xE0 then 0xA0 ≤ second && second ≤ 0xBF
  else if first = 0xED then 0x80 ≤ second && second ≤ 0x9F
  else if first = 0xF0 then 0x90 ≤ second && second ≤ 0xBF
  else if first = 0xF4 then 0x80 ≤ second && second ≤ 0x8F
  else 0xC2 ≤ first && first ≤ 0xF3 && 0x80 ≤ second && second ≤ 0xBF

/-- How many bytes of a character that is broken off are replaced together. -/
def brokenLength : List UInt8 → Nat
  | first :: second :: rest =>
    if isSecondByte first second then
      match rest with
      | third :: _ => if 0xF0 ≤ first && 0x80 ≤ third && third ≤ 0xBF then 3 else 2
      | [] => 2
    else 1
  | _ => 1

/-- The characters of a sequence of bytes; `none` stands for what is none. -/
def readChars : (fuel : Nat) → List UInt8 → List (Option Char)
  | 0, _ => []
  | _, [] => []
  | fuel + 1, bytes =>
    match firstChar bytes with
    | some c => some c :: readChars fuel (bytes.drop c.utf8Size)
    | none => none :: readChars fuel (bytes.drop (brokenLength bytes))

/-- `String::from_utf8_lossy`. -/
def toStringLossy (bytes : List UInt8) : String :=
  String.ofList ((readChars bytes.length bytes).map (·.getD '\uFFFD'))

/-- `str::from_utf8`. -/
def toStr (bytes : List UInt8) : Option String :=
  if (readChars bytes.length bytes).all Option.isSome then some (toStringLossy bytes) else none

/-! ### Characters -/

theorem utf8_injective : Function.Injective utf8 := by
  intro text other h
  exact String.toByteArray_inj.mp (ByteArray.ext (Array.toList_inj.mp h))

theorem utf8_nil : utf8 "" = [] := rfl

theorem utf8_cons (c : Char) (chars : List Char) :
    utf8 (String.ofList (c :: chars)) = String.utf8EncodeChar c ++ utf8 (String.ofList chars) := by
  have hbytes : (String.ofList (c :: chars)).toByteArray =
      (String.utf8EncodeChar c).toByteArray ++ (String.ofList chars).toByteArray := by
    rw [String.toByteArray_ofList, String.toByteArray_ofList, utf8Encode_cons, utf8Encode_singleton]
  rw [utf8, hbytes]
  simp [utf8]

theorem utf8_singleton (c : Char) : utf8 (String.ofList [c]) = String.utf8EncodeChar c :=
  (utf8_cons c []).trans (append_nil _)

/-- A character is read back from its bytes. -/
theorem firstChar_encode (c : Char) (rest : List UInt8) :
    firstChar (String.utf8EncodeChar c ++ rest) = some c := by
  have hbytes : (⟨(String.utf8EncodeChar c ++ rest).toArray⟩ : ByteArray) =
      (String.utf8EncodeChar c).toByteArray ++ rest.toByteArray := by
    refine ByteArray.ext ?_
    simp
  rw [firstChar, hbytes, ByteArray.utf8DecodeChar?_utf8EncodeChar_append]

variable {bytes : List UInt8}

/-- What a character is read from are its bytes, and some more. -/
theorem eq_of_firstChar {c : Char} (h : firstChar bytes = some c) :
    bytes = String.utf8EncodeChar c ++ bytes.drop c.utf8Size := by
  obtain ⟨rest, hrest⟩ := ByteArray.exists_of_utf8DecodeChar?_eq_some h
  have hlist : bytes = String.utf8EncodeChar c ++ rest.data.toList := by
    simpa using congrArg (fun array : ByteArray => array.data.toList) hrest
  rw [hlist, ← String.length_utf8EncodeChar, drop_left]

/-! ### Texts -/

theorem readChars_utf8 (chars : List Char) {fuel : Nat}
    (hfuel : (utf8 (String.ofList chars)).length ≤ fuel) :
    readChars fuel (utf8 (String.ofList chars)) = chars.map some := by
  induction chars generalizing fuel with
  | nil => cases fuel <;> rfl
  | cons c chars ih =>
    rw [utf8_cons] at hfuel ⊢
    have hsize := c.utf8Size_pos
    rw [length_append, String.length_utf8EncodeChar] at hfuel
    obtain ⟨fuel, rfl⟩ : ∃ more, fuel = more + 1 := ⟨fuel - 1, by omega⟩
    have hne : String.utf8EncodeChar c ++ utf8 (String.ofList chars) ≠ [] := by
      intro hnil
      have := congrArg List.length hnil
      simp only [length_append, String.length_utf8EncodeChar, length_nil] at this
      omega
    rw [readChars]
    · rw [firstChar_encode]
      simp only [map_cons, List.cons.injEq, true_and]
      rw [← String.length_utf8EncodeChar, drop_left]
      exact ih (by omega)
    · exact hne

/-- Bytes that are all read as characters are the bytes of these. -/
theorem eq_of_readChars {fuel : Nat} {chars : List Char}
    (hfuel : bytes.length ≤ fuel) (h : readChars fuel bytes = chars.map some) :
    bytes = utf8 (String.ofList chars) := by
  induction fuel generalizing bytes chars with
  | zero =>
    obtain rfl := length_eq_zero_iff.mp (Nat.le_zero.mp hfuel)
    obtain rfl := map_eq_nil_iff.mp h.symm
    rfl
  | succ fuel ih =>
    cases bytes with
    | nil =>
      obtain rfl := map_eq_nil_iff.mp h.symm
      rfl
    | cons byte rest =>
      cases hfirst : firstChar (byte :: rest) with
      | none =>
        rw [readChars, hfirst] at h
        · cases chars with
          | nil | cons c chars => cases h
        · simp
      | some c =>
        rw [readChars, hfirst] at h
        · cases chars with
          | nil => cases h
          | cons d chars =>
            rw [map_cons, List.cons.injEq, Option.some.injEq] at h
            obtain ⟨rfl, hrest⟩ := h
            have hbytes := eq_of_firstChar hfirst
            rw [utf8_cons, hbytes, append_cancel_left_eq]
            refine ih ?_ hrest
            have hsize := c.utf8Size_pos
            rw [length_drop]
            omega
        · simp

theorem toStringLossy_utf8 (text : String) : toStringLossy (utf8 text) = text := by
  have hread := readChars_utf8 text.toList (Nat.le_refl _)
  rw [String.ofList_toList] at hread
  rw [toStringLossy, hread, map_map]
  simp [Function.comp_def]

theorem toStr_eq_some {text : String} : toStr bytes = some text ↔ bytes = utf8 text := by
  constructor
  · intro h
    unfold toStr at h
    split at h
    case isFalse => cases h
    rename_i hall
    have hchars : readChars bytes.length bytes =
        ((readChars bytes.length bytes).map (·.getD '\uFFFD')).map some := by
      rw [map_map]
      refine (map_id' _).symm.trans (map_congr_left fun char hchar => ?_)
      obtain ⟨c, rfl⟩ := Option.isSome_iff_exists.mp (all_eq_true.mp hall char hchar)
      rfl
    rw [← Option.some.inj h]
    exact eq_of_readChars (Nat.le_refl _) hchars
  · rintro rfl
    have hread := readChars_utf8 text.toList (Nat.le_refl _)
    rw [String.ofList_toList] at hread
    unfold toStr
    rw [hread, if_pos (by simp), toStringLossy_utf8]

/-- The bytes are those of a text. -/
def IsUtf8 (bytes : List UInt8) : Prop := ∃ text, bytes = utf8 text

theorem isUtf8_iff : IsUtf8 bytes ↔ (toStr bytes).isSome := by
  simp only [IsUtf8, Option.isSome_iff_exists, toStr_eq_some]

instance (bytes : List UInt8) : Decidable (IsUtf8 bytes) := decidable_of_iff _ isUtf8_iff.symm

/-- Only the bytes of a text are those of what is read from them. -/
theorem isUtf8_iff_lossy : IsUtf8 bytes ↔ utf8 (toStringLossy bytes) = bytes := by
  constructor
  · rintro ⟨text, rfl⟩
    rw [toStringLossy_utf8]
  · intro h
    exact ⟨_, h.symm⟩

theorem IsUtf8.append {bytes more : List UInt8} (h : IsUtf8 bytes) (hmore : IsUtf8 more) :
    IsUtf8 (bytes ++ more) := by
  obtain ⟨text, rfl⟩ := h
  obtain ⟨rest, rfl⟩ := hmore
  exact ⟨text ++ rest, (utf8_append text rest).symm⟩

/-! ### Cutting a text at an ASCII character -/

/-- An ASCII byte is a character of its own. -/
theorem encode_eq_of_ascii {c : Char} {byte : UInt8} (hbyte : byte < 128)
    (h : byte ∈ String.utf8EncodeChar c) : String.utf8EncodeChar c = [byte] := by
  have hhigh : ∀ n, 128 ≤ n → n < 256 → byte ≠ UInt8.ofNat n := by
    rintro n hn hlt rfl
    rw [UInt8.lt_iff_toNat_lt, UInt8.toNat_ofNat_of_lt' hlt] at hbyte
    exact absurd hbyte (Nat.not_lt.mpr hn)
  simp only [String.utf8EncodeChar] at h ⊢
  split at h
  · rw [if_pos ‹_›, mem_singleton.mp h]
  exfalso
  split at h
  · simp only [mem_cons, not_mem_nil, or_false] at h
    rcases h with h | h
    all_goals exact hhigh _ (by omega) (by omega) h
  split at h
  · simp only [mem_cons, not_mem_nil, or_false] at h
    rcases h with h | h | h
    all_goals exact hhigh _ (by omega) (by omega) h
  simp only [mem_cons, not_mem_nil, or_false] at h
  rcases h with h | h | h | h
  all_goals exact hhigh _ (by omega) (by omega) h

/-- An ASCII byte of a text is one of its characters. -/
theorem mem_of_mem_utf8 {chars : List Char} {byte : UInt8} (hbyte : byte < 128)
    (h : byte ∈ utf8 (String.ofList chars)) : Char.ofNat byte.toNat ∈ chars := by
  induction chars with
  | nil => simp [utf8_nil] at h
  | cons c chars ih =>
    rw [utf8_cons] at h
    rcases mem_append.mp h with h | h
    · have hone := encode_eq_of_ascii hbyte h
      have hc : c.toNat = byte.toNat := by
        simp only [String.utf8EncodeChar] at hone
        split at hone
        · rw [← singleton_inj.mp hone, UInt8.toNat_ofNat_of_lt']
          · rfl
          · show c.val.toNat < 256
            omega
        exfalso
        have hlength := congrArg List.length hone
        split at hlength
        · simp at hlength
        · split at hlength <;> simp at hlength
      rw [← hc, Char.ofNat_toNat]
      exact mem_cons_self
    · exact mem_cons_of_mem _ (ih h)

/-- The two sides of an ASCII byte are texts. -/
theorem IsUtf8.of_split {before after : List UInt8} {byte : UInt8} (hbyte : byte < 128)
    (h : IsUtf8 (before ++ byte :: after)) : IsUtf8 before ∧ IsUtf8 after := by
  obtain ⟨text, htext⟩ := h
  rw [← String.ofList_toList (s := text)] at htext
  generalize text.toList = chars at htext
  induction chars generalizing before with
  | nil => simp [utf8_nil] at htext
  | cons c chars ih =>
    rw [utf8_cons] at htext
    rcases append_eq_append_iff.mp htext with ⟨more, hmore, hrest⟩ | ⟨more, hmore, hrest⟩
    · -- the byte is in the first character, or right after it
      cases more with
      | nil =>
        obtain ⟨-, hafter⟩ := @ih [] hrest
        refine ⟨⟨String.ofList [c], ?_⟩, hafter⟩
        rw [utf8_singleton, hmore, append_nil]
      | cons first more =>
        obtain ⟨rfl, rfl⟩ := hrest
        have hmem : byte ∈ String.utf8EncodeChar c := by
          rw [hmore]
          simp
        rw [encode_eq_of_ascii hbyte hmem] at hmore
        have hnil : before = [] ∧ more = [] := by
          cases before with
          | nil => exact ⟨rfl, by simpa using hmore⟩
          | cons first before => simp at hmore
        obtain ⟨rfl, rfl⟩ := hnil
        exact ⟨⟨"", rfl⟩, ⟨_, rfl⟩⟩
    obtain ⟨hbefore, hafter⟩ := ih hrest.symm
    refine ⟨?_, hafter⟩
    rw [hmore]
    exact IsUtf8.append ⟨String.ofList [c], (utf8_singleton c).symm⟩ hbefore

/-- The end of a stream is found by the end of what was carried of it. -/
theorem drop_carry {α : Type} (n : Nat) (carried more : List α) :
    (carried.drop (carried.length - n) ++ more).drop
        ((carried.drop (carried.length - n) ++ more).length - n)
      = (carried ++ more).drop ((carried ++ more).length - n) := by
  rw [← drop_append_of_le_length (Nat.sub_le _ _), drop_drop, length_drop, length_append]
  congr 1
  omega

end Diri
