/-
JSON values, and how many bytes they are written in.

A value is written compactly: no blanks, members in the order they were put in, and of the
characters of a text only those escaped that have to be.  `size` counts the bytes by the
shape of the value, so that a bound on what is written never looks at what is written.
-/
import Diri.Lib.Bytes
import Diri.Lib.Offsets

namespace Diri

open List

/-- A number that is no integer is a mantissa and a power of ten. -/
inductive Json
  | null
  | bool (value : Bool)
  | number (value : Int)
  | decimal (mantissa exponent : Int)
  | string (text : String)
  | array (items : List Json)
  | object (members : List (String × Json))

namespace Json

/-! ### Reading a value -/

def get (key : String) : Json → Option Json
  | object members => (members.find? fun member => member.1 = key).map Prod.snd
  | _ => none

/-- A member of a member, and so on. -/
def pointer : List String → Json → Option Json
  | [], value => some value
  | key :: keys, value => (value.get key).bind (pointer keys)

def asStr : Json → Option String
  | string text => some text
  | _ => none

def asBool : Json → Option Bool
  | bool value => some value
  | _ => none

/-- A number that is an integer of 64 bits. -/
def asI64 : Json → Option Int
  | number value => if -2 ^ 63 ≤ value ∧ value < 2 ^ 63 then some value else none
  | _ => none

def asU64 : Json → Option Nat
  | number value => if 0 ≤ value ∧ value < 2 ^ 64 then some value.toNat else none
  | _ => none

def isNull : Json → Bool
  | null => true
  | _ => false

def asArray : Json → Option (List Json)
  | array items => some items
  | _ => none

def isObject : Json → Bool
  | object _ => true
  | _ => false

/-! ### Writing -/

/-- A character inside quotes. -/
def escaped (c : Char) : List Char :=
  if c = '"' then ['\\', '"']
  else if c = '\\' then ['\\', '\\']
  else if c.toNat = 0x08 then ['\\', 'b']
  else if c.toNat = 0x09 then ['\\', 't']
  else if c.toNat = 0x0A then ['\\', 'n']
  else if c.toNat = 0x0C then ['\\', 'f']
  else if c.toNat = 0x0D then ['\\', 'r']
  else if c.toNat < 0x20 then
    ['\\', 'u', '0', '0', hexDigits.getD (c.toNat / 16) '0', hexDigits.getD (c.toNat % 16) '0']
  else [c]

def quoted (text : String) : List UInt8 :=
  utf8 (String.ofList (['"'] ++ text.toList.flatMap escaped ++ ['"']))

mutual

def bytes : Json → List UInt8
  | null => utf8 "null"
  | bool value => utf8 (if value then "true" else "false")
  | number value => utf8 (toString value)
  | decimal mantissa exponent => utf8 (toString mantissa ++ "e" ++ toString exponent)
  | string text => quoted text
  | array items => utf8 "[" ++ itemBytes [] items ++ utf8 "]"
  | object members => utf8 "\x7b" ++ memberBytes [] members ++ utf8 "\x7d"

/-- The items, each after the separator, which there is none of before the first. -/
def itemBytes (separator : List UInt8) : List Json → List UInt8
  | [] => []
  | item :: rest => separator ++ item.bytes ++ itemBytes (utf8 ",") rest

def memberBytes (separator : List UInt8) : List (String × Json) → List UInt8
  | [] => []
  | (key, value) :: rest =>
    separator ++ quoted key ++ utf8 ":" ++ value.bytes ++ memberBytes (utf8 ",") rest

end

/-! ### Counting -/

/-- How many bytes a character takes inside quotes. -/
def escapedSize (c : Char) : Nat :=
  if c = '"' ∨ c = '\\' ∨ c.toNat ∈ [0x08, 0x09, 0x0A, 0x0C, 0x0D] then 2
  else if c.toNat < 0x20 then 6
  else c.utf8Size

def quotedSize (text : String) : Nat := 2 + (text.toList.map escapedSize).sum

/-- How many bytes a number is written in. -/
def decimalSize (value : Int) : Nat := (toString value).utf8ByteSize

/-- Sizes, and the separators between them. -/
def listSize (sizes : List Nat) : Nat := sizes.sum + (sizes.length - 1)

def size (value : Json) : Nat := value.bytes.length

theorem size_escaped (c : Char) : ((escaped c).map Char.utf8Size).sum = escapedSize c := by
  have hpair : ∀ d : Char, d.utf8Size = 1 → ((['\\', d]).map Char.utf8Size).sum = 2 := by
    intro d hd
    simp only [List.map_cons, List.map_nil, List.sum_cons, List.sum_nil, hd]
    rfl
  unfold escaped escapedSize
  by_cases hquote : c = '"'
  · rw [if_pos hquote, if_pos (.inl hquote), hpair _ rfl]
  by_cases hslash : c = '\\'
  · rw [if_neg hquote, if_pos hslash, if_pos (.inr (.inl hslash)), hpair _ rfl]
  by_cases hshort : c.toNat ∈ [0x08, 0x09, 0x0A, 0x0C, 0x0D]
  · simp only [mem_cons, not_mem_nil, or_false] at hshort
    rcases hshort with h | h | h | h | h
    all_goals
      have hc := Char.ofNat_toNat c
      rw [h] at hc
      subst hc
      rfl
  have hnone : ¬(c = '"' ∨ c = '\\' ∨ c.toNat ∈ [0x08, 0x09, 0x0A, 0x0C, 0x0D]) := by
    simp [hquote, hslash, hshort]
  simp only [List.mem_cons, List.not_mem_nil, or_false, not_or] at hshort
  obtain ⟨h8, h9, hA, hC, hD⟩ := hshort
  rw [if_neg hnone, if_neg hquote, if_neg hslash, if_neg h8, if_neg h9, if_neg hA, if_neg hC,
    if_neg hD]
  by_cases hcontrol : c.toNat < 0x20
  · rw [if_pos hcontrol, if_pos hcontrol]
    simp only [List.map_cons, List.map_nil, List.sum_cons, List.sum_nil, hexDigits_ascii (show
      c.toNat / 16 < 16 by omega), hexDigits_ascii (show c.toNat % 16 < 16 by omega)]
    rfl
  · rw [if_neg hcontrol, if_neg hcontrol]
    simp

variable (text : String)

theorem length_quoted : (quoted text).length = quotedSize text := by
  rw [quoted, length_utf8, utf8ByteSize_ofList, quotedSize]
  have hchars : ∀ chars : List Char, ((chars.flatMap escaped).map Char.utf8Size).sum =
      (chars.map escapedSize).sum := by
    intro chars
    induction chars with
    | nil => rfl
    | cons c chars ih => simp [ih, size_escaped]
  have hquote : (['"'].map Char.utf8Size).sum = 1 := rfl
  rw [map_append, map_append, sum_append, sum_append, hchars, hquote]
  omega

/-- Items one after the other, the later ones after a separator. -/
theorem length_itemBytes (separator : List UInt8) (items : List Json) :
    (itemBytes separator items).length =
      listSize (items.map size) + if items = [] then 0 else separator.length := by
  induction items generalizing separator with
  | nil => rfl
  | cons item rest ih =>
    have hcomma : (utf8 ",").length = 1 := rfl
    rw [itemBytes, length_append, length_append, ih, hcomma]
    cases rest with
    | nil | cons next rest =>
      simp [listSize, size]
      omega

theorem length_memberBytes (separator : List UInt8) (members : List (String × Json)) :
    (memberBytes separator members).length =
      listSize (members.map fun member => quotedSize member.1 + 1 + member.2.size) +
        if members = [] then 0 else separator.length := by
  induction members generalizing separator with
  | nil => rfl
  | cons member rest ih =>
    have hcomma : (utf8 ",").length = 1 := rfl
    have hcolon : (utf8 ":").length = 1 := rfl
    rw [memberBytes]
    simp only [length_append, ih, hcomma, hcolon, length_quoted]
    cases rest with
    | nil | cons next rest =>
      simp [listSize, size]
      omega

@[simp] theorem size_bool (value : Bool) : (bool value).size = if value then 4 else 5 := by
  cases value <;> rfl

@[simp] theorem size_number (value : Int) : (number value).size = decimalSize value := rfl

@[simp] theorem size_string : (string text).size = quotedSize text :=
  length_quoted text

@[simp] theorem size_array (items : List Json) :
    (array items).size = 2 + listSize (items.map size) := by
  have hopen : (utf8 "[").length = 1 := rfl
  have hclose : (utf8 "]").length = 1 := rfl
  rw [size, bytes, length_append, length_append, length_itemBytes, hopen, hclose]
  simp
  omega

@[simp] theorem size_object (members : List (String × Json)) : (object members).size =
      2 + listSize (members.map fun member => quotedSize member.1 + 1 + member.2.size) := by
  have hopen : (utf8 "\x7b").length = 1 := rfl
  have hclose : (utf8 "\x7d").length = 1 := rfl
  rw [size, bytes, length_append, length_append, length_memberBytes, hopen, hclose]
  simp
  omega

theorem listSize_cons (size : Nat) (rest : List Nat) :
    listSize (size :: rest) = size + (rest.map (1 + ·)).sum := by
  simp only [listSize, sum_cons, length_cons, Nat.add_sub_cancel]
  induction rest with
  | nil => rfl
  | cons next rest ih =>
    simp only [map_cons, sum_cons, length_cons]
    omega

/-- A character that is written as it is, in one byte. -/
def IsPlain (c : Char) : Prop := 0x20 ≤ c.toNat ∧ c.toNat < 0x7F ∧ c ≠ '"' ∧ c ≠ '\\'

instance (c : Char) : Decidable (IsPlain c) := inferInstanceAs (Decidable (_ ∧ _))

theorem quotedSize_plain {text : String} (h : ∀ c ∈ text.toList, IsPlain c) :
    quotedSize text = 2 + text.utf8ByteSize := by
  have hone : ∀ c ∈ text.toList, escapedSize c = c.utf8Size := by
    intro c hc
    obtain ⟨hlow, hhigh, hquote, hslash⟩ := h c hc
    have hnone : ¬(c = '"' ∨ c = '\\' ∨ c.toNat ∈ [0x08, 0x09, 0x0A, 0x0C, 0x0D]) := by
      simp only [hquote, hslash, false_or, mem_cons, not_mem_nil, or_false]
      omega
    rw [escapedSize, if_neg hnone, if_neg (by omega)]
  rw [quotedSize, map_congr_left hone, ← utf8ByteSize_ofList, String.ofList_toList]

/-- How many bytes escaping adds to a text. -/
def growth (text : String) : Nat := (text.toList.map fun c => escapedSize c - c.utf8Size).sum

theorem utf8Size_le_escapedSize (c : Char) :
    c.utf8Size ≤ escapedSize c ∧ escapedSize c ≤ 6 * c.utf8Size := by
  unfold escapedSize
  split
  · rename_i h
    have hone : c.utf8Size = 1 := by
      rcases h with rfl | rfl | h
      · rfl
      · rfl
      simp only [mem_cons, not_mem_nil, or_false] at h
      refine Char.utf8Size_eq_one_iff.mpr ?_
      show c.toNat ≤ 127
      omega
    omega
  split
  · have hone : c.utf8Size = 1 := by
      refine Char.utf8Size_eq_one_iff.mpr ?_
      show c.toNat ≤ 127
      omega
    omega
  · omega

theorem quotedSize_eq : quotedSize text = 2 + text.utf8ByteSize + growth text := by
  have hchars : ∀ chars : List Char, (chars.map escapedSize).sum =
      (chars.map Char.utf8Size).sum + (chars.map fun c => escapedSize c - c.utf8Size).sum := by
    intro chars
    induction chars with
    | nil => rfl
    | cons c chars ih =>
      have hle := (utf8Size_le_escapedSize c).1
      simp only [map_cons, sum_cons, ih]
      omega
  have hsize : text.utf8ByteSize = (text.toList.map Char.utf8Size).sum := by
    rw [← utf8ByteSize_ofList, String.ofList_toList]
  rw [quotedSize, hchars, hsize, growth, Nat.add_assoc]

/-- At worst each byte is written in six. -/
theorem growth_le : growth text ≤ 5 * text.utf8ByteSize := by
  have hchars : ∀ chars : List Char, (chars.map fun c => escapedSize c - c.utf8Size).sum
      ≤ 5 * (chars.map Char.utf8Size).sum := by
    intro chars
    induction chars with
    | nil => exact Nat.le_refl _
    | cons c chars ih =>
      have hle := (utf8Size_le_escapedSize c).2
      simp only [map_cons, sum_cons]
      omega
  have hsize : text.utf8ByteSize = (text.toList.map Char.utf8Size).sum := by
    rw [← utf8ByteSize_ofList, String.ofList_toList]
  rw [growth, hsize]
  exact hchars _

theorem decimalSize_natCast (value : Nat) : decimalSize value = (Nat.toDigits 10 value).length := by
  have hrepr : toString (value : Int) = String.ofList (Nat.toDigits 10 value) :=
    Nat.repr_eq_ofList_toDigits
  have hone : ∀ c ∈ Nat.toDigits 10 value, c.utf8Size = 1 := by
    intro c hc
    exact utf8Size_of_mem_toDigits hc
  rw [decimalSize, hrepr, utf8ByteSize_ofList, map_congr_left hone]
  simp

theorem decimalSize_le {value width : Nat} (hwidth : 0 < width) (h : value < 10 ^ width) :
    decimalSize value ≤ width := by
  rw [decimalSize_natCast]
  exact (Nat.length_toDigits_le_iff (by decide) hwidth).mpr h

/-! ### No line breaks -/

theorem newline_notMem_escaped (c : Char) : '\n' ∉ escaped c := by
  have hdigit : ∀ n, n < 16 → hexDigits.getD n '0' ≠ '\n' := by decide
  unfold escaped
  split_ifs with _ _ _ _ hnewline
  all_goals try decide
  · simp only [mem_cons, not_mem_nil, or_false, not_or]
    refine ⟨by decide, by decide, by decide, by decide, (hdigit _ ?_).symm, (hdigit _ ?_).symm⟩
    · omega
    · omega
  · intro h
    obtain rfl := List.mem_singleton.mp h
    exact hnewline rfl

theorem newline_notMem_quoted : 0x0A ∉ quoted text := by
  intro h
  have hmem := mem_of_mem_utf8 (by decide) h
  simp only [mem_append, mem_flatMap] at hmem
  rcases hmem with (h | ⟨c, -, h⟩) | h
  · revert h
    decide
  · exact newline_notMem_escaped c h
  · revert h
    decide

theorem newline_notMem_number (value : Int) : 0x0A ∉ utf8 (toString value) := by
  have hdigits : ∀ n : Nat, '\n' ∉ (Nat.repr n).toList := by
    intro n h
    rw [Nat.toList_repr] at h
    have hdigit := @Nat.isDigit_of_mem_toDigits 10 n _ (by decide) (by decide) h
    exact absurd hdigit (by decide)
  intro h
  rw [← String.ofList_toList (s := toString value)] at h
  have hmem := mem_of_mem_utf8 (by decide) h
  rw [Int.toString_eq_repr, Int.repr_eq_if] at hmem
  split at hmem
  · exact hdigits _ hmem
  rw [String.toList_append] at hmem
  rcases List.mem_append.mp hmem with h | h
  · revert h
    decide
  · exact hdigits _ h

mutual

/-- A value is written on one line. -/
theorem newline_notMem : (value : Json) → 0x0A ∉ value.bytes
  | null | bool true | bool false => by decide
  | number value => newline_notMem_number value
  | decimal mantissa exponent => by
      rw [bytes, utf8_append, utf8_append]
      simp only [mem_append, not_or]
      exact ⟨⟨newline_notMem_number mantissa, by decide⟩, newline_notMem_number exponent⟩
  | string text => newline_notMem_quoted text
  | array items => by
      rw [bytes]
      simp only [mem_append, not_or]
      exact ⟨⟨by decide, newline_notMem_items [] (by simp) items⟩, by decide⟩
  | object members => by
      rw [bytes]
      simp only [mem_append, not_or]
      exact ⟨⟨by decide, newline_notMem_members [] (by simp) members⟩, by decide⟩

theorem newline_notMem_items (separator : List UInt8) (h : 0x0A ∉ separator) :
    (items : List Json) → 0x0A ∉ itemBytes separator items
  | [] => by simp [itemBytes]
  | item :: rest => by
      rw [itemBytes]
      simp only [mem_append, not_or]
      exact ⟨⟨h, newline_notMem item⟩, newline_notMem_items (utf8 ",") (by decide) rest⟩

theorem newline_notMem_members (separator : List UInt8) (h : 0x0A ∉ separator) :
    (members : List (String × Json)) → 0x0A ∉ memberBytes separator members
  | [] => by simp [memberBytes]
  | (key, value) :: rest => by
      rw [memberBytes]
      simp only [mem_append, not_or]
      exact ⟨⟨⟨⟨h, newline_notMem_quoted key⟩, by decide⟩, newline_notMem value⟩,
        newline_notMem_members (utf8 ",") (by decide) rest⟩

end

end Json

end Diri
