/-
Tables of descriptors: a number for each thing that is open.

What is opened next gets the `lowest` number that is free, so a number that was closed
may soon stand for something else.  `entry` is what a number stands for; each way the
table changes has a lemma for its own number and one for the others.
-/
import Mathlib.Data.List.Basic

namespace Diri

open List

variable {α : Type}

abbrev Descriptors (α : Type) : Type := List (Option α)

namespace Descriptors

variable {table : Descriptors α} {number other : Nat} {value : α}

def entry (table : Descriptors α) (number : Nat) : Option α := (table[number]?).join

def lowest (table : Descriptors α) : Nat := table.findIdx (·.isNone)

/-- Something is opened. -/
def put (value : α) (table : Descriptors α) : Descriptors α :=
  if table.lowest < table.length then table.set table.lowest (some value)
  else table ++ [some value]

def close (number : Nat) (table : Descriptors α) : Descriptors α := table.set number none

theorem lowest_le (table : Descriptors α) : table.lowest ≤ table.length := findIdx_le_length

theorem entry_lowest (table : Descriptors α) : table.entry table.lowest = none := by
  unfold entry
  by_cases hlt : table.lowest < table.length
  · have hfree := findIdx_getElem (w := hlt)
    rw [getElem?_eq_getElem hlt, Option.join_some]
    exact Option.isNone_iff_eq_none.mp hfree
  · rw [getElem?_eq_none (Nat.le_of_not_lt hlt)]
    rfl

theorem entry_put_lowest (table : Descriptors α) (value : α) :
    (table.put value).entry table.lowest = some value := by
  unfold put entry
  by_cases hlt : table.lowest < table.length
  · rw [if_pos hlt, getElem?_set_self hlt]
    rfl
  have hlength : table.lowest = table.length :=
    Nat.le_antisymm table.lowest_le (Nat.le_of_not_lt hlt)
  rw [if_neg hlt, hlength, getElem?_append_right (Nat.le_refl _), Nat.sub_self]
  rfl

theorem entry_put_ne (h : other ≠ table.lowest) :
    (table.put value).entry other = table.entry other := by
  unfold put entry
  by_cases hlt : table.lowest < table.length
  · rw [if_pos hlt, getElem?_set_ne (Ne.symm h)]
  have hlength : table.lowest = table.length :=
    Nat.le_antisymm table.lowest_le (Nat.le_of_not_lt hlt)
  rw [if_neg hlt]
  rw [hlength] at h
  rcases Nat.lt_or_gt_of_ne h with hbelow | habove
  · rw [getElem?_append_left hbelow]
  · rw [getElem?_eq_none (by simp; omega), getElem?_eq_none (by omega)]

/-- What is open stays open when something else is opened. -/
theorem entry_put_of_open (h : table.entry other = some value) (opened : α) :
    (table.put opened).entry other = some value := by
  rw [entry_put_ne, h]
  rintro rfl
  rw [entry_lowest] at h
  cases h

theorem entry_close_self (table : Descriptors α) (number : Nat) :
    (table.close number).entry number = none := by
  unfold close entry
  by_cases hlt : number < table.length
  · rw [getElem?_set_self hlt]
    rfl
  · rw [getElem?_eq_none (by simpa using Nat.le_of_not_lt hlt)]
    rfl

theorem entry_close_ne (h : other ≠ number) :
    (table.close number).entry other = table.entry other := by
  unfold close entry
  rw [getElem?_set_ne (Ne.symm h)]

end Descriptors

end Diri
