/-
Values read off JSON, the way derived readers do it.

A struct is an object, whose other members are not looked at, or an array of its fields in
order.  An enumeration of texts has a value for the texts it does not know, so that it is
read whatever the text is; what it is written as is read back.
-/
import Diri.Lib.Json
import Mathlib.Data.List.Nodup

namespace Diri

open List

/-- Why a value cannot be read: what a reader says itself, or what a derived one finds. -/
inductive DecodeError
  | custom (message : String)
  | derived
  deriving DecidableEq, Repr

namespace Json

variable {α : Type}

def readString : Json → Except DecodeError String
  | string text => .ok text
  | _ => .error .derived

def readU64 (value : Json) : Except DecodeError Nat :=
  match value.asU64 with
  | some found => .ok found
  | none => .error .derived

def readI64 (value : Json) : Except DecodeError Int64 :=
  match value.asI64 with
  | some found => .ok (.ofInt found)
  | none => .error .derived

def readI32 : Json → Except DecodeError Int32
  | number value =>
    if -2 ^ 31 ≤ value ∧ value < 2 ^ 31 then .ok (.ofInt value) else .error .derived
  | _ => .error .derived

variable (read : Json → Except DecodeError α)

def readList : Json → Except DecodeError (List α)
  | array items => items.mapM read
  | _ => .error .derived

/-- The fields of a struct; the last ones need not be in an array. -/
def readStruct (names : List String) (needed : Nat) : Json → Except DecodeError (List (Option Json))
  | object members => .ok (names.map fun name => (object members).get name)
  | array items =>
    if needed ≤ items.length ∧ items.length ≤ names.length then
      .ok (items.map some ++ List.replicate (names.length - items.length) none)
    else .error .derived
  | _ => .error .derived

def readField : Option Json → Except DecodeError α
  | some value => read value
  | none => .error .derived

/-- A field that need not be there, and may be null. -/
def readOptional : Option Json → Except DecodeError (Option α)
  | none | some .null => .ok none
  | some value => (read value).map some

/-! ### What is written is read -/

theorem readI32_toInt (value : Int32) : (number value.toInt).readI32 = .ok value := by
  rw [readI32, if_pos ⟨value.le_toInt, value.toInt_lt⟩, Int32.ofInt_toInt]

theorem readI64_toInt (value : Int64) : (number value.toInt).readI64 = .ok value := by
  have hrange : (number value.toInt).asI64 = some value.toInt :=
    if_pos ⟨value.le_toInt, value.toInt_lt⟩
  rw [readI64, hrange]
  dsimp only
  rw [Int64.ofInt_toInt]

theorem readU64_natCast {value : Nat} (h : value < 2 ^ 64) :
    (number value).readU64 = .ok value := by
  have hrange : (number (value : Int)).asU64 = some value := by
    rw [asU64, if_pos (by omega)]
    rfl
  rw [readU64, hrange]

theorem readList_map {read : Json → Except DecodeError α} {write : α → Json} {values : List α}
    (h : ∀ value ∈ values, read (write value) = .ok value) :
    (array (values.map write)).readList read = .ok values := by
  rw [readList]
  induction values with
  | nil => rfl
  | cons value values ih =>
    rw [map_cons, mapM_cons, h value mem_cons_self,
      ih fun other hother => h other (mem_cons_of_mem _ hother)]
    rfl

end Json

/-! ### Enumerations of texts -/

/-- The texts, and the value for all others. -/
structure StringEnum (α : Type) where
  wires : List (String × α)
  unknown : α
  nodup : (wires.map Prod.fst).Nodup
  unknown_free : "unknown" ∉ wires.map Prod.fst
  covers : ∀ value, value = unknown ∨ value ∈ wires.map Prod.snd

namespace StringEnum

variable {α : Type} [DecidableEq α] (texts : StringEnum α)

def asStr (value : α) : String :=
  match texts.wires.find? fun wire => wire.2 = value with
  | some wire => wire.1
  | none => "unknown"

def ofStr (text : String) : α :=
  match texts.wires.find? fun wire => wire.1 = text with
  | some wire => wire.2
  | none => texts.unknown

def toJson (value : α) : Json := .string (texts.asStr value)

def fromJson (value : Json) : Except DecodeError α := value.readString.map texts.ofStr

theorem ofStr_asStr (value : α) : texts.ofStr (texts.asStr value) = value := by
  rcases hfound : texts.wires.find? fun wire => wire.2 = value with _ | wire
  · have hnone : ∀ wire ∈ texts.wires, wire.2 ≠ value := by
      simpa using find?_eq_none.mp hfound
    have hunknown : value = texts.unknown := by
      refine (texts.covers value).resolve_right fun hmem => ?_
      obtain ⟨wire, hwire, hvalue⟩ := mem_map.mp hmem
      exact hnone wire hwire hvalue
    have hfree : texts.wires.find? (fun wire => wire.1 = "unknown") = none := by
      refine find?_eq_none.mpr fun wire hwire => ?_
      have hname : wire.1 ≠ "unknown" := fun hname =>
        texts.unknown_free (hname ▸ mem_map_of_mem hwire)
      simpa using hname
    have hname : texts.asStr value = "unknown" := by rw [asStr, hfound]
    rw [hname, ofStr, hfree, hunknown]
  have hmem := mem_of_find?_eq_some hfound
  have hvalue : wire.2 = value := by simpa using find?_some hfound
  rcases hother : texts.wires.find? fun other => other.1 = wire.1 with _ | other
  · have hnone := find?_eq_none.mp hother wire hmem
    simp at hnone
  have hname : other.1 = wire.1 := by simpa using find?_some hother
  have hsame : other = wire := inj_on_of_nodup_map texts.nodup
    (mem_of_find?_eq_some hother) hmem hname
  have hwire : texts.asStr value = wire.1 := by rw [asStr, hfound]
  rw [hwire, ofStr, hother, hsame]
  exact hvalue

theorem fromJson_toJson (value : α) : texts.fromJson (texts.toJson value) = .ok value := by
  show Except.ok (texts.ofStr (texts.asStr value)) = .ok value
  rw [ofStr_asStr]

end StringEnum

end Diri
