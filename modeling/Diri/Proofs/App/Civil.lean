/-
The node and the app count the days of the Gregorian calendar, and the app finds the date
again.

Both go by eras of four hundred years that begin in March.  The app's count has to fit in 32
bits, and so have the steps to it.
-/
import Diri.App.Timestamp
import Diri.Lib.Rfc3339
import Diri.Node.Usage

namespace Diri.App

open Calendar Int

theorem tdiv_floor (value : Int) {divisor : Int} (h : 0 < divisor) :
    (if 0 ≤ value then value else value - (divisor - 1)).tdiv divisor = value / divisor := by
  by_cases hvalue : 0 ≤ value
  · rw [if_pos hvalue, tdiv_eq_ediv_of_nonneg hvalue]
  have hneg : value - (divisor - 1) = -(divisor - 1 - value) := by omega
  have hquotient : (divisor - 1 - value) / divisor = -(value / divisor) := by
    have hrest := emod_lt_of_pos value h
    have hnonneg := emod_nonneg value (by omega : divisor ≠ 0)
    have hsplit := emod_add_mul_ediv value divisor
    refine ((Int.ediv_emod_unique (r := divisor - 1 - value % divisor) h).mpr ⟨?_, ?_, ?_⟩).1
    · rw [Int.mul_neg]
      omega
    · omega
    · omega
  rw [if_neg hvalue, hneg, Int.neg_tdiv, tdiv_eq_ediv_of_nonneg (by omega), hquotient, Int.neg_neg]

/-- The days of an era, by the year that begins in March. -/
def eraDay (date : Date) : Int :=
  365 * (date.marchYear % 400) + date.marchYear % 400 / 4 - date.marchYear % 400 / 100 +
    date.marchDay

variable (date : Date)

theorem unixDay_era : date.unixDay = date.marchYear / 400 * 146097 + eraDay date - 719468 := by
  have h := date.unixDay_march
  unfold eraDay
  omega

theorem eraDay_mem : 0 ≤ eraDay date ∧ eraDay date ≤ 146096 := by
  have hday := date.marchDay_mem
  have hbound : date.marchDay ≤ 364 ∨ date.marchDay = 365 ∧ IsLeap (date.marchYear + 1) := by
    by_cases hleap : IsLeap (date.marchYear + 1)
    · exact (Int.lt_or_le 364 date.marchDay).symm.imp id fun hlast => ⟨by omega, hleap⟩
    · rw [if_neg hleap] at hday
      exact .inl hday.2
  unfold eraDay
  omega

theorem node_daysFromCivil : Diri.daysFromCivil date.year date.month date.day = date.unixDay := by
  have hmonth := date.marchMonth_mem
  have hera := tdiv_floor date.marchYear (by decide : (0 : Int) < 400)
  have hyear : (if date.month ≤ 2 then date.year - 1 else date.year) = date.marchYear := rfl
  have hshifted : date.month + (if 2 < date.month then -3 else 9) = date.marchMonth := by
    unfold Date.marchMonth
    omega
  have hrest : 0 ≤ date.marchYear - date.marchYear / 400 * 400 := by omega
  simp only [Diri.daysFromCivil, hyear, hshifted]
  rw [show (400 : Int) - 1 = 399 from rfl] at hera
  rw [hera, tdiv_eq_ediv_of_nonneg hrest, tdiv_eq_ediv_of_nonneg hrest,
    tdiv_eq_ediv_of_nonneg (by omega), date.unixDay_march]
  unfold Date.marchDay
  omega

theorem bind_i32 {α : Type} (value : Int) (f : Int → Except Overflow α) :
    (i32 value >>= f) = if -2 ^ 31 ≤ value ∧ value < 2 ^ 31 then f value else .error .i32 := by
  by_cases hfits : -2 ^ 31 ≤ value ∧ value < 2 ^ 31
  · rw [if_pos hfits, i32, if_pos hfits]
    rfl
  · rw [if_neg hfits, i32, if_neg hfits]
    rfl

theorem app_daysFromCivil : daysFromCivil date.year date.month date.day =
      if -2 ^ 31 ≤ date.unixDay ∧ date.unixDay + 719468 < 2 ^ 31 then .ok date.unixDay
      else .error .i32 := by
  have hmonth := date.marchMonth_mem
  have hera := tdiv_floor date.marchYear (by decide : (0 : Int) < 400)
  have hyear : date.year - (if date.month ≤ 2 then 1 else 0) = date.marchYear := by
    unfold Date.marchYear
    omega
  have hshifted : date.month + (if 2 < date.month then -3 else 9) = date.marchMonth := by
    unfold Date.marchMonth
    omega
  have hday : (date.marchYear - date.marchYear / 400 * 400) * 365 +
      (date.marchYear - date.marchYear / 400 * 400).tdiv 4 -
      (date.marchYear - date.marchYear / 400 * 400).tdiv 100 +
      ((153 * date.marchMonth + 2).tdiv 5 + date.day - 1) = eraDay date := by
    have hrest : 0 ≤ date.marchYear - date.marchYear / 400 * 400 := by omega
    rw [tdiv_eq_ediv_of_nonneg hrest, tdiv_eq_ediv_of_nonneg hrest,
      tdiv_eq_ediv_of_nonneg (by omega)]
    unfold eraDay Date.marchDay
    omega
  have hunix := unixDay_era date
  have hmem := eraDay_mem date
  rw [show (400 : Int) - 1 = 399 from rfl] at hera
  simp only [daysFromCivil, hyear, hshifted, bind_i32, hera, hday]
  rw [i32, ← hunix]
  by_cases hfits : -2 ^ 31 ≤ date.unixDay ∧ date.unixDay + 719468 < 2 ^ 31
  · have hshifts : -2 ^ 31 ≤ (if 0 ≤ date.marchYear then date.marchYear else date.marchYear - 399) ∧
        (if 0 ≤ date.marchYear then date.marchYear else date.marchYear - 399) < 2 ^ 31 := by
      split <;> omega
    rw [if_pos (by omega), if_pos hshifts, if_pos (by omega), if_pos (by omega), if_pos (by omega),
      if_pos hfits]
  · rw [if_neg hfits]
    split_ifs <;> first | rfl | omega

theorem civilFromDays_unixDay : civilFromDays date.unixDay =
      (max (-2 ^ 31) (min date.year (2 ^ 31 - 1)), date.month, date.day) := by
  have hunix := unixDay_era date
  have hmem := eraDay_mem date
  have hday := date.marchDay_mem
  have hera := tdiv_floor (date.unixDay + 719468) (by decide : (0 : Int) < 146097)
  have hdivided : (date.unixDay + 719468) / 146097 = date.marchYear / 400 := by omega
  have hrest : date.unixDay + 719468 - date.marchYear / 400 * 146097 = eraDay date := by omega
  rw [show (146097 : Int) - 1 = 146096 from rfl, hdivided] at hera
  have hleap : IsLeap (date.marchYear % 400 + 1) ↔ IsLeap (date.marchYear + 1) := by
    unfold IsLeap
    omega
  have hyear : (eraDay date - eraDay date / 1460 + eraDay date / 36524 -
      eraDay date / 146096) / 365 = date.marchYear % 400 :=
    yearOfEra_eq (by omega) hday.1 (by simpa only [hleap] using hday.2)
  have hmonths := date.marchMonth_mem
  have hlast : eraDay date - (365 * (date.marchYear % 400) + date.marchYear % 400 / 4 -
      date.marchYear % 400 / 100) = date.marchDay := by
    unfold eraDay
    omega
  have hfour : (date.marchYear % 400).tdiv 4 = date.marchYear % 400 / 4 :=
    tdiv_eq_ediv_of_nonneg (by omega)
  have hhundred : (date.marchYear % 400).tdiv 100 = date.marchYear % 400 / 100 :=
    tdiv_eq_ediv_of_nonneg (by omega)
  simp only [civilFromDays, hera, hrest]
  rw [tdiv_eq_ediv_of_nonneg hmem.1, tdiv_eq_ediv_of_nonneg hmem.1,
    tdiv_eq_ediv_of_nonneg hmem.1, tdiv_eq_ediv_of_nonneg (by omega), hyear]
  simp only [hfour, hhundred, hlast]
  rw [tdiv_eq_ediv_of_nonneg (by omega), date.marchMonth_eq, tdiv_eq_ediv_of_nonneg (by omega)]
  have hmonth : date.marchMonth + (if date.marchMonth < 10 then 3 else -9) = date.month := by
    have hmem := date.month_mem
    unfold Date.marchMonth
    omega
  have hfirst : date.marchYear % 400 + date.marchYear / 400 * 400 +
      (if date.month ≤ 2 then 1 else 0) = date.year := by
    unfold Date.marchYear
    omega
  have hdays : date.marchDay - (153 * date.marchMonth + 2) / 5 + 1 = date.day := by
    unfold Date.marchDay
    omega
  rw [hmonth, hfirst, hdays]

theorem year_of_fits {date : Date}
    (hfits : -2 ^ 31 ≤ date.unixDay ∧ date.unixDay + 719468 < 2 ^ 31) :
    -2 ^ 31 ≤ date.year ∧ date.year ≤ 2 ^ 31 - 1 := by
  have hunix := unixDay_era date
  have hmem := eraDay_mem date
  unfold Date.marchYear at hunix
  split at hunix <;> omega

/-- Where 32 bits hold the days, a date is made of them again, and nowhere else. -/
theorem civil_round_trip : (daysFromCivil date.year date.month date.day).map civilFromDays =
        .ok (date.year, date.month, date.day) ↔
      -2 ^ 31 ≤ date.unixDay ∧ date.unixDay + 719468 < 2 ^ 31 := by
  rw [app_daysFromCivil]
  split
  case isTrue hfits =>
    have hyear := year_of_fits hfits
    rw [Except.map, civilFromDays_unixDay, min_eq_left hyear.2, max_eq_right hyear.1]
    exact iff_of_true rfl hfits
  case isFalse hfits =>
    exact iff_of_false (by simp [Except.map]) hfits

def firstOfMonth (date : Date) : Date :=
  { date with day := 1, day_mem := ⟨le_refl 1, date.day_mem.1.trans date.day_mem.2⟩ }

/-- **In Universal Time a day starts at its midnight and a month on the first.** -/
theorem utcWindowStarts_eq {now : Int} {date : Date} (hnow : now / 86400 = date.unixDay)
    (hfits : -2 ^ 31 ≤ (firstOfMonth date).unixDay ∧
      (firstOfMonth date).unixDay + 719468 < 2 ^ 31) :
    utcWindowStarts now = .ok (date.unixDay * 86400, (firstOfMonth date).unixDay * 86400) := by
  have hfirst := app_daysFromCivil (firstOfMonth date)
  have hyear := year_of_fits hfits
  rw [if_pos hfits] at hfirst
  have hdays : daysFromCivil date.year date.month 1 = .ok (firstOfMonth date).unixDay := hfirst
  change -2 ^ 31 ≤ date.year ∧ date.year ≤ 2 ^ 31 - 1 at hyear
  simp only [utcWindowStarts, hnow, civilFromDays_unixDay, min_eq_left hyear.2,
    max_eq_right hyear.1, hdays]
  rfl

theorem utcWindowStarts_eq_july :
    utcWindowStarts 1784747400 = .ok (20656 * 86400, 20635 * 86400) :=
  @utcWindowStarts_eq 1784747400 ⟨2026, 7, 22, by decide, by decide⟩ (by decide) (by decide)

end Diri.App
