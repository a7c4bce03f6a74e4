/-
Saturating arithmetic on `i64`.

An operation whose result does not fit goes to the end of the range.  `toInt` takes each
operation to the integers, where `omega` finishes; so a proof about saturating code is
one about `max` and `min`.
-/
import Mathlib.Order.Basic
import Mathlib.Algebra.Order.Ring.Nat

namespace Diri

open Int64

namespace I64

/-- The nearest `i64`. -/
def saturate (n : Int) : Int64 := .ofInt (max (-2 ^ 63) (min (2 ^ 63 - 1) n))

def saturatingAdd (a b : Int64) : Int64 := saturate (a.toInt + b.toInt)

def saturatingSub (a b : Int64) : Int64 := saturate (a.toInt - b.toInt)

/-- A difference that does not fit is none. -/
def checkedSub (a b : Int64) : Option Int64 :=
  if -2 ^ 63 ≤ a.toInt - b.toInt ∧ a.toInt - b.toInt < 2 ^ 63 then some (a - b) else none

/-- `clamp`, whose bounds are in order. -/
def clampTo (low high a : Int64) : Int64 :=
  if a < low then low else if a > high then high else a

/-- A `usize` as an `i64`, or the largest one. -/
def fromUsize (n : Nat) : Int64 := saturate n

@[simp] theorem toInt_saturate (n : Int) :
    (saturate n).toInt = max (-2 ^ 63) (min (2 ^ 63 - 1) n) :=
  toInt_ofInt_of_le (by omega) (by omega)

@[simp] theorem toInt_saturatingAdd (a b : Int64) :
    (saturatingAdd a b).toInt = max (-2 ^ 63) (min (2 ^ 63 - 1) (a.toInt + b.toInt)) :=
  toInt_saturate _

@[simp] theorem toInt_saturatingSub (a b : Int64) :
    (saturatingSub a b).toInt = max (-2 ^ 63) (min (2 ^ 63 - 1) (a.toInt - b.toInt)) :=
  toInt_saturate _

theorem nonneg_iff {a : Int64} : 0 ≤ a ↔ 0 ≤ a.toInt := le_iff_toInt_le

theorem pos_iff {a : Int64} : 0 < a ↔ 0 < a.toInt := lt_iff_toInt_lt

/-- A difference that fits does not wrap. -/
theorem toInt_sub_of_fits {a b : Int64} (hlow : -2 ^ 63 ≤ a.toInt - b.toInt)
    (hhigh : a.toInt - b.toInt < 2 ^ 63) : (a - b).toInt = a.toInt - b.toInt := by
  rw [toInt_sub]
  exact Int.bmod_eq_of_le (by omega) (by omega)

/-- A difference that fits is the difference. -/
theorem checkedSub_eq_some {a b c : Int64} (h : checkedSub a b = some c) :
    c.toInt = a.toInt - b.toInt := by
  unfold checkedSub at h
  by_cases hfits : -2 ^ 63 ≤ a.toInt - b.toInt ∧ a.toInt - b.toInt < 2 ^ 63
  · rw [if_pos hfits, Option.some.injEq] at h
    rw [← h]
    exact toInt_sub_of_fits hfits.1 hfits.2
  · rw [if_neg hfits] at h
    cases h

/-- A value within the bounds is kept, another goes to the bound it is past. -/
theorem toInt_clampTo {low high : Int64} (hle : low ≤ high) (a : Int64) :
    (clampTo low high a).toInt = max low.toInt (min high.toInt a.toInt) := by
  rw [le_iff_toInt_le] at hle
  unfold clampTo
  by_cases hlow : a < low
  · rw [if_pos hlow]
    rw [lt_iff_toInt_lt] at hlow
    omega
  rw [if_neg hlow]
  rw [lt_iff_toInt_lt] at hlow
  by_cases hhigh : a > high
  · rw [if_pos hhigh]
    have hlt := Int64.lt_iff_toInt_lt.mp hhigh
    omega
  rw [if_neg hhigh]
  have hge : ¬high.toInt < a.toInt := fun h => hhigh (Int64.lt_iff_toInt_lt.mpr h)
  omega

/-- The difference of two rows from zero on fits. -/
theorem toInt_sub_of_le {a b : Int64} (hb : 0 ≤ b.toInt) (hle : b.toInt ≤ a.toInt) :
    (a - b).toInt = a.toInt - b.toInt := by
  have hroom := a.toInt_lt
  exact toInt_sub_of_fits (by omega) (by omega)

end I64

end Diri
