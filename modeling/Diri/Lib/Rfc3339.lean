/-
The Gregorian calendar, reckoned in both directions.

A date is one of the calendar's: no thirtieth of February can be built.  Dates are counted
from the first of January 1970, and the count is told in two ways: by the lengths of years
and months, which is what it means, and by eras of four hundred years that begin in March,
which is how it is computed and undone.

Timestamps of RFC 3339: what they are written as, and their Unix time.

A timestamp is the tree of the grammar, with every bound on its numbers, so that one that is
written is a valid one.  Years have four digits.  The second a leap adds to a minute has no
Unix time of its own, and is left out.
-/
import Mathlib.Data.Int.Order.Basic
import Mathlib.Data.List.Induction
import Mathlib.Tactic.Common
import Mathlib.Tactic.IntervalCases

namespace Diri.Calendar

/-! ### The calendar -/

def IsLeap (year : Int) : Prop := year % 4 = 0 ∧ (year % 100 ≠ 0 ∨ year % 400 = 0)

instance (year : Int) : Decidable (IsLeap year) := by unfold IsLeap; infer_instance

def daysInYear (year : Int) : Int := if IsLeap year then 366 else 365

def daysInMonth (year month : Int) : Int :=
  if month = 2 then if IsLeap year then 29 else 28
  else if month = 4 ∨ month = 6 ∨ month = 9 ∨ month = 11 then 30
  else 31

structure Date where
  year : Int
  month : Int
  day : Int
  month_mem : 1 ≤ month ∧ month ≤ 12
  day_mem : 1 ≤ day ∧ day ≤ daysInMonth year month
  deriving DecidableEq

/-- The days of the years from 0 on, before this one; the leap years among them are counted. -/
def daysBeforeYear (year : Int) : Int :=
  365 * year + (year + 3) / 4 - (year + 99) / 100 + (year + 399) / 400

/-- The days of the year before a month, whose number is one more than the argument. -/
def daysBeforeMonth (year : Int) : Nat → Int
  | 0 => 0
  | months + 1 => daysBeforeMonth year months + daysInMonth year (months + 1)

theorem daysBeforeYear_zero : daysBeforeYear 0 = 0 := rfl

theorem daysBeforeYear_succ (year : Int) :
    daysBeforeYear (year + 1) = daysBeforeYear year + daysInYear year := by
  unfold daysBeforeYear daysInYear
  by_cases hleap : IsLeap year
  · rw [if_pos hleap]
    unfold IsLeap at hleap
    omega
  rw [if_neg hleap]
  unfold IsLeap at hleap
  omega

/-- The months make up the year. -/
theorem daysBeforeMonth_year (year : Int) : daysBeforeMonth year 12 = daysInYear year := by
  by_cases hleap : IsLeap year
  · simp [daysBeforeMonth, daysInMonth, daysInYear, hleap]
  · simp [daysBeforeMonth, daysInMonth, daysInYear, hleap]

/-- Days since the first of January 1970. -/
def Date.unixDay (date : Date) : Int :=
  daysBeforeYear date.year + daysBeforeMonth date.year (date.month - 1).toNat + date.day - 1 -
    daysBeforeYear 1970

/-! ### Eras -/

/-- The year that began last March. -/
def Date.marchYear (date : Date) : Int := if date.month ≤ 2 then date.year - 1 else date.year

/-- How many months there have been since March. -/
def Date.marchMonth (date : Date) : Int := if date.month ≤ 2 then date.month + 9 else date.month - 3

/-- How many days there have been since the first of March. -/
def Date.marchDay (date : Date) : Int := (153 * date.marchMonth + 2) / 5 + date.day - 1

variable (date : Date)

theorem Date.marchMonth_mem : 0 ≤ date.marchMonth ∧ date.marchMonth ≤ 11 := by
  have hmonth := date.month_mem
  unfold Date.marchMonth
  split <;> omega

/-- No month is longer than its place among those since March allows. -/
theorem Date.day_march :
    date.day ≤ (153 * (date.marchMonth + 1) + 2) / 5 - (153 * date.marchMonth + 2) / 5 := by
  obtain ⟨year, month, day, ⟨hfirst, hlast⟩, -, hday⟩ := date
  refine le_trans hday ?_
  simp only [Date.marchMonth]
  by_cases hleap : IsLeap year
  all_goals interval_cases month <;> simp [daysInMonth, hleap]

theorem Date.marchDay_mem :
    0 ≤ date.marchDay ∧ date.marchDay ≤ 364 + if IsLeap (date.marchYear + 1) then 1 else 0 := by
  have hmarch := date.day_march
  have hmonth := date.marchMonth_mem
  have hfirst := date.day_mem.1
  have hlast := date.day_mem.2
  unfold Date.marchDay
  by_cases hfebruary : date.month = 2
  · have hm : date.marchMonth = 11 := by rw [Date.marchMonth, hfebruary]; rfl
    have hyear : date.marchYear + 1 = date.year := by
      rw [Date.marchYear, hfebruary]
      exact Int.sub_add_cancel _ _
    rw [hm, hyear]
    rw [daysInMonth, if_pos hfebruary] at hlast
    by_cases hleap : IsLeap date.year
    · rw [if_pos hleap] at hlast ⊢
      omega
    · rw [if_neg hleap] at hlast ⊢
      omega
  have hm : date.marchMonth ≤ 10 := by
    have hmem := date.month_mem
    unfold Date.marchMonth
    split <;> omega
  split <;> omega

theorem daysBeforeMonth_march (year : Int) {month : Int} (hfirst : 1 ≤ month) (hlast : month ≤ 12) :
    daysBeforeMonth year (month - 1).toNat = if month ≤ 2 then 31 * (month - 1)
      else (153 * (month - 3) + 2) / 5 + 59 + if IsLeap year then 1 else 0 := by
  by_cases hleap : IsLeap year
  all_goals interval_cases month <;> simp [daysBeforeMonth, daysInMonth, hleap]

theorem Date.unixDay_march :
    date.unixDay = 365 * date.marchYear + date.marchYear / 4 - date.marchYear / 100 +
      date.marchYear / 400 + date.marchDay - 719468 := by
  obtain ⟨year, month, day, ⟨hfirst, hlast⟩, hday⟩ := date
  simp only [Date.unixDay, Date.marchDay, Date.marchMonth, Date.marchYear,
    daysBeforeMonth_march year hfirst hlast, daysBeforeYear]
  clear hday
  by_cases hmarch : month ≤ 2
  · simp only [if_pos hmarch]
    omega
  simp only [if_neg hmarch]
  by_cases hleap : IsLeap year
  · rw [if_pos hleap]
    unfold IsLeap at hleap
    omega
  rw [if_neg hleap]
  unfold IsLeap at hleap
  omega

/-- The month is found by the day. -/
theorem Date.marchMonth_eq : (5 * date.marchDay + 2) / 153 = date.marchMonth := by
  have hmarch := date.day_march
  have hfirst := date.day_mem.1
  unfold Date.marchDay
  omega

/-- The year of an era is found by the day of it, which leap years have moved on. -/
theorem yearOfEra_eq {year day : Int} (hyear : 0 ≤ year ∧ year ≤ 399) (hday : 0 ≤ day)
    (hlast : day ≤ 364 + if IsLeap (year + 1) then 1 else 0) :
    let dayOfEra := 365 * year + year / 4 - year / 100 + day
    (dayOfEra - dayOfEra / 1460 + dayOfEra / 36524 - dayOfEra / 146096) / 365 = year := by
  intro dayOfEra
  have hleap : IsLeap (year + 1) → year % 4 = 3 ∧ (year % 100 ≠ 99 ∨ year / 100 = 3) := by
    unfold IsLeap
    omega
  have hbound : day ≤ 364 ∨ day = 365 ∧ year % 4 = 3 ∧ (year % 100 ≠ 99 ∨ year / 100 = 3) := by
    by_cases h : IsLeap (year + 1)
    · have := hleap h
      omega
    · rw [if_neg h] at hlast
      omega
  -- the leap days before the day: a century has 24 of them, and four years have one
  obtain ⟨century, hc⟩ : ∃ century, century = year / 100 := ⟨_, rfl⟩
  obtain ⟨fours, hq⟩ : ∃ fours, fours = year % 100 / 4 := ⟨_, rfl⟩
  obtain ⟨rest, hr⟩ : ∃ rest, rest = year % 4 := ⟨_, rfl⟩
  have hyear : year = 100 * century + 4 * fours + rest := by omega
  have hday : dayOfEra = 36524 * century + 1461 * fours + 365 * rest + day := by omega
  clear_value dayOfEra
  have h3 : dayOfEra / 146096 = 0 ∨ dayOfEra / 146096 = 1 ∧ dayOfEra = 146096 := by omega
  have h2 : dayOfEra / 36524 = century + dayOfEra / 146096 := by omega
  omega

end Diri.Calendar

namespace Diri.Rfc3339

open Diri.Calendar

/-! ### Digits -/

def digit (n : Nat) : UInt8 := UInt8.ofNat (0x30 + n % 10)

/-- The last digits of a number. -/
def digits : (width : Nat) → Nat → List UInt8
  | 0, _ => []
  | width + 1, n => digits width (n / 10) ++ [digit n]

def isDigit (byte : UInt8) : Bool := 0x30 ≤ byte && byte ≤ 0x39

def number (bytes : List UInt8) : Nat :=
  bytes.foldl (fun value byte => value * 10 + (byte.toNat - 0x30)) 0

theorem toNat_digit (n : Nat) : (digit n).toNat = 0x30 + n % 10 :=
  UInt8.toNat_ofNat_of_lt' (Nat.lt_trans (by omega : _ < 0x3A) (by decide))

theorem isDigit_digit (n : Nat) : isDigit (digit n) := by
  have h := toNat_digit n
  simp only [isDigit, Bool.and_eq_true, decide_eq_true_eq, UInt8.le_iff_toNat_le]
  constructor
  · show 0x30 ≤ (digit n).toNat
    omega
  · show (digit n).toNat ≤ 0x39
    omega

variable {byte : UInt8} {place : Nat} {bytes rest : List UInt8}

theorem isDigit_iff : isDigit byte ↔ 0x30 ≤ byte.toNat ∧ byte.toNat ≤ 0x39 := by
  simp only [isDigit, Bool.and_eq_true, decide_eq_true_eq, UInt8.le_iff_toNat_le]
  rfl

/-- A digit is one of the ten. -/
theorem digit_of_isDigit (h : isDigit byte) : digit (byte.toNat - 0x30) = byte := by
  have hbyte := isDigit_iff.mp h
  apply UInt8.toNat.inj
  rw [toNat_digit]
  omega

@[simp] theorem length_digits (width n : Nat) : (digits width n).length = width := by
  induction width generalizing n with
  | zero => rfl
  | succ width ih => rw [digits, List.length_append, ih, List.length_singleton]

theorem all_digits (width n : Nat) : (digits width n).all isDigit := by
  induction width generalizing n with
  | zero => rfl
  | succ width ih => simp [digits, ih, isDigit_digit]

theorem number_concat (bytes : List UInt8) (byte : UInt8) :
    number (bytes ++ [byte]) = number bytes * 10 + (byte.toNat - 0x30) := by
  simp [number]

theorem foldl_number (bytes : List UInt8) :
    bytes.foldl (fun (value : Int) byte => value * 10 + (byte.toNat - 0x30 : Nat)) 0 =
      (number bytes : Int) := by
  induction bytes using List.reverseRecOn with
  | nil => rfl
  | append_singleton bytes byte ih =>
    rw [List.foldl_append, ih, number_concat]
    simp

theorem number_digits {width n : Nat} (h : n < 10 ^ width) : number (digits width n) = n := by
  induction width generalizing n with
  | zero =>
    have hzero : n = 0 := by simpa using h
    rw [hzero]
    rfl
  | succ width ih =>
    have hhigh : n / 10 < 10 ^ width := by
      omega
    rw [digits, number_concat, ih hhigh, toNat_digit]
    omega

variable {bytes : List UInt8}

/-- Digits are those of the number they stand for. -/
theorem digits_number (h : bytes.all isDigit) : digits bytes.length (number bytes) = bytes := by
  induction bytes using List.reverseRecOn with
  | nil => rfl
  | append_singleton bytes byte ih =>
    rw [List.all_append, Bool.and_eq_true] at h
    have hbyte : isDigit byte := by simpa using h.2
    have hmem := isDigit_iff.mp hbyte
    have hhigh : (number bytes * 10 + (byte.toNat - 0x30)) / 10 = number bytes := by omega
    have hlow : digit (number bytes * 10 + (byte.toNat - 0x30)) = digit (byte.toNat - 0x30) := by
      rw [digit, digit]
      congr 2
      omega
    rw [number_concat, List.length_append, List.length_singleton, digits, hhigh, hlow, ih h.1,
      digit_of_isDigit hbyte]

theorem number_lt (h : bytes.all isDigit) : number bytes < 10 ^ bytes.length := by
  induction bytes using List.reverseRecOn with
  | nil => decide
  | append_singleton bytes byte ih =>
    rw [List.all_append, Bool.and_eq_true] at h
    have hbyte := isDigit_iff.mp (by simpa using h.2)
    have hbytes := ih h.1
    rw [number_concat, List.length_append, List.length_singleton, Nat.pow_succ]
    omega

theorem exists_digits (h : ∀ byte ∈ bytes, isDigit byte) :
    ∃ values : List (Fin 10), bytes = values.map fun value => digit value.val := by
  induction bytes with
  | nil => exact ⟨[], rfl⟩
  | cons byte bytes ih =>
    obtain ⟨values, hvalues⟩ := ih fun b hb => h b (List.mem_cons_of_mem _ hb)
    have hbyte := h byte List.mem_cons_self
    have hmem := isDigit_iff.mp hbyte
    refine ⟨⟨byte.toNat - 0x30, by omega⟩ :: values, ?_⟩
    rw [List.map_cons, digit_of_isDigit hbyte, ← hvalues]

/-! ### Timestamps -/

inductive Zone
  | utc (small : Bool)
  | offset (behind : Bool) (hours : Fin 24) (minutes : Fin 60)
  deriving DecidableEq

/-- By how many seconds a zone's clocks are ahead. -/
def Zone.seconds : Zone → Int
  | utc _ => 0
  | offset behind hours minutes =>
    (if behind then -1 else 1) * ((hours : Nat) * 3600 + (minutes : Nat) * 60 : Int)

def Zone.format : Zone → List UInt8
  | utc small => [if small then 0x7A else 0x5A]
  | offset behind hours minutes =>
    (if behind then 0x2D else 0x2B) :: digits 2 hours ++ 0x3A :: digits 2 minutes

structure Timestamp where
  date : Date
  year_mem : 0 ≤ date.year ∧ date.year ≤ 9999
  /-- The letter between the date and the time is a small one. -/
  small : Bool
  hour : Fin 24
  minute : Fin 60
  second : Fin 60
  /-- There may be none. -/
  fraction : List (Fin 10)
  zone : Zone

def formatFraction (fraction : List (Fin 10)) : List UInt8 :=
  if fraction = [] then [] else 0x2E :: fraction.map fun d => digit d.val

namespace Timestamp

variable (timestamp : Timestamp)

def format : List UInt8 :=
  digits 4 timestamp.date.year.toNat ++ 0x2D :: (digits 2 timestamp.date.month.toNat ++
    0x2D :: (digits 2 timestamp.date.day.toNat ++ (if timestamp.small then 0x74 else 0x54) ::
    (digits 2 timestamp.hour ++ 0x3A :: (digits 2 timestamp.minute ++
    0x3A :: (digits 2 timestamp.second ++
    (formatFraction timestamp.fraction ++ timestamp.zone.format))))))

def unixTime : Int :=
  timestamp.date.unixDay * 86400 + (timestamp.hour : Nat) * 3600 + (timestamp.minute : Nat) * 60 +
    (timestamp.second : Nat) - timestamp.zone.seconds

/-- All letters are capital ones. -/
def Capital : Prop := timestamp.small = false ∧ timestamp.zone ≠ .utc true

end Timestamp

theorem ascii_of_isDigit (h : isDigit byte) : byte < 0x80 := by
  have hmem := isDigit_iff.mp h
  rw [UInt8.lt_iff_toNat_lt]
  show byte.toNat < 0x80
  omega

theorem digits_ascii {width n : Nat} (h : byte ∈ digits width n) : byte < 0x80 :=
  ascii_of_isDigit (List.all_eq_true.mp (all_digits width n) byte h)

theorem Zone.format_ascii (zone : Zone) : ∀ byte ∈ zone.format, byte < 0x80 := by
  intro byte hbyte
  cases zone with
  | utc small =>
    rw [List.mem_singleton.mp hbyte]
    split <;> decide
  | offset behind hours minutes =>
    rcases List.mem_cons.mp hbyte with rfl | hbyte
    · split <;> decide
    rcases List.mem_append.mp hbyte with hbyte | hbyte
    · exact digits_ascii hbyte
    rcases List.mem_cons.mp hbyte with rfl | hbyte
    · decide
    · exact digits_ascii hbyte

/-- Every byte is a character. -/
theorem format_ascii (timestamp : Timestamp) : ∀ byte ∈ timestamp.format, byte < 0x80 := by
  have hfraction : ∀ byte ∈ formatFraction timestamp.fraction, byte < 0x80 := by
    intro byte hbyte
    unfold formatFraction at hbyte
    split at hbyte
    · cases hbyte
    rcases List.mem_cons.mp hbyte with rfl | hbyte
    · decide
    · obtain ⟨value, -, rfl⟩ := List.mem_map.mp hbyte
      exact ascii_of_isDigit (isDigit_digit value.val)
  intro byte hbyte
  simp only [Timestamp.format, List.mem_append, List.mem_cons] at hbyte
  rcases hbyte with h | rfl | h | rfl | h | rfl | h | rfl | h | rfl | h | h | h
  all_goals first
    | exact digits_ascii h
    | decide
    | skip
  · split <;> decide
  · exact hfraction _ h
  · exact timestamp.zone.format_ascii _ h

/-- A zone goes on with no fraction. -/
theorem head_zone (zone : Zone) :
    ∃ byte rest, zone.format = byte :: rest ∧ byte ≠ 0x2E ∧ isDigit byte = false := by
  rcases zone with small | ⟨behind, hours, minutes⟩
  · cases small
    · exact ⟨0x5A, [], rfl, by decide, by decide⟩
    · exact ⟨0x7A, [], rfl, by decide, by decide⟩
  cases behind
  · exact ⟨0x2B, _, rfl, by decide, by decide⟩
  · exact ⟨0x2D, _, rfl, by decide, by decide⟩

/-! ### Places in a text -/

theorem drop_past {bytes piece rest : List UInt8}
    (h : bytes.drop place = piece ++ rest) : bytes.drop (place + piece.length) = rest := by
  rw [← List.drop_drop, h, List.drop_left]

theorem drop_past_byte (h : bytes.drop place = byte :: rest) : bytes.drop (place + 1) = rest := by
  have hpiece : bytes.drop place = [byte] ++ rest := h
  exact drop_past hpiece

/-- What comes after digits is what is left behind them. -/
theorem drop_digits {place width n : Nat} (h : bytes.drop place = digits width n ++ rest) :
    bytes.drop place = digits width n ++ bytes.drop (place + width) := by
  have hrest := drop_past h
  rw [length_digits] at hrest
  rw [hrest, h]

theorem drop_byte
    (h : bytes.drop place = byte :: rest) : bytes.drop place = byte :: bytes.drop (place + 1) := by
  rw [drop_past_byte h, h]

theorem getElem?_of_drop (h : bytes.drop place = byte :: rest) : bytes[place]? = some byte := by
  have hfirst : (bytes.drop place)[0]? = some byte := by rw [h]; rfl
  rwa [List.getElem?_drop] at hfirst

theorem drop_of_getElem?
    (h : bytes[place]? = some byte) : bytes.drop place = byte :: bytes.drop (place + 1) := by
  obtain ⟨hplace, hbyte⟩ := List.getElem?_eq_some_iff.mp h
  rw [← hbyte, List.drop_eq_getElem_cons hplace]

theorem slice_of_drop {bytes piece rest : List UInt8} {first last : Nat}
    (hlast : first + piece.length = last) (h : bytes.drop first = piece ++ rest) :
    (bytes.take last).drop first = piece := by
  rw [List.drop_take, h, ← hlast, Nat.add_sub_cancel_left, List.take_left]

/-- Where the parts of a timestamp stand. -/
structure Laid (timestamp : Timestamp) (bytes : List UInt8) : Prop where
  year : bytes.drop 0 = digits 4 timestamp.date.year.toNat ++ bytes.drop 4
  yearEnd : bytes.drop 4 = 0x2D :: bytes.drop 5
  month : bytes.drop 5 = digits 2 timestamp.date.month.toNat ++ bytes.drop 7
  monthEnd : bytes.drop 7 = 0x2D :: bytes.drop 8
  day : bytes.drop 8 = digits 2 timestamp.date.day.toNat ++ bytes.drop 10
  dayEnd : bytes.drop 10 = (if timestamp.small then 0x74 else 0x54) :: bytes.drop 11
  hour : bytes.drop 11 = digits 2 timestamp.hour ++ bytes.drop 13
  hourEnd : bytes.drop 13 = 0x3A :: bytes.drop 14
  minute : bytes.drop 14 = digits 2 timestamp.minute ++ bytes.drop 16
  minuteEnd : bytes.drop 16 = 0x3A :: bytes.drop 17
  second : bytes.drop 17 = digits 2 timestamp.second ++ bytes.drop 19
  suffix : bytes.drop 19 = formatFraction timestamp.fraction ++ timestamp.zone.format

theorem laid_iff {timestamp : Timestamp} : Laid timestamp bytes ↔ bytes = timestamp.format := by
  constructor
  · intro h
    have hformat := h.year
    rw [h.yearEnd, h.month, h.monthEnd, h.day, h.dayEnd, h.hour, h.hourEnd, h.minute, h.minuteEnd,
      h.second, h.suffix] at hformat
    exact hformat
  intro h
  have hyear : bytes.drop 0 = digits 4 timestamp.date.year.toNat ++ _ := h
  have hyearEnd := drop_past hyear
  have hmonth := drop_past_byte hyearEnd
  have hmonthEnd := drop_past hmonth
  have hday := drop_past_byte hmonthEnd
  have hdayEnd := drop_past hday
  have hhour := drop_past_byte hdayEnd
  have hhourEnd := drop_past hhour
  have hminute := drop_past_byte hhourEnd
  have hminuteEnd := drop_past hminute
  have hsecond := drop_past_byte hminuteEnd
  have hsuffix := drop_past hsecond
  exact {
    year := drop_digits hyear
    yearEnd := drop_byte hyearEnd
    month := drop_digits hmonth
    monthEnd := drop_byte hmonthEnd
    day := drop_digits hday
    dayEnd := drop_byte hdayEnd
    hour := drop_digits hhour
    hourEnd := drop_byte hhourEnd
    minute := drop_digits hminute
    minuteEnd := drop_byte hminuteEnd
    second := drop_digits hsecond
    suffix := hsuffix }

theorem length_format (timestamp : Timestamp) : 20 ≤ timestamp.format.length := by
  have hlaid := laid_iff.mpr (rfl : timestamp.format = timestamp.format)
  obtain ⟨byte, rest, hzone, -⟩ := head_zone timestamp.zone
  have hsuffix := congrArg List.length hlaid.suffix
  rw [hzone, List.length_drop, List.length_append, List.length_cons] at hsuffix
  omega

end Diri.Rfc3339
