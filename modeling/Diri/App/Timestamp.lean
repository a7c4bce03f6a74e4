/-
How the app reads the timestamps of transcripts, and how it finds the days and months that
usage is summed over where the system does not tell them.

A timestamp's fields are checked one by one, and nothing may come before, between or after
them.  Arithmetic on 32 bits panics where a result does not fit.
-/
import Diri.Lib.Bytes
import Diri.Lib.Handler

namespace Diri.App

/-- A panic of the arithmetic. -/
inductive Overflow
  | i32
  deriving DecidableEq

/-- What is parsed may be no timestamp, and the arithmetic may panic. -/
abbrev TimestampParses (α : Type) : Type := OptionT (Except Overflow) α

def isAsciiDigit (byte : UInt8) : Bool := 0x30 ≤ byte && byte ≤ 0x39

/-- Of four digits at most, so that the number fits. -/
def number (bytes : List UInt8) (first last : Nat) : TimestampParses Int :=
  let digits := (bytes.take last).drop first
  if last ≤ bytes.length ∧ digits.all isAsciiDigit then
    return digits.foldl (fun result byte => result * 10 + (byte.toNat - 0x30 : Nat)) 0
  else failure

def daysInMonth (year month : Int) : Int :=
  if month = 2 ∧ year.tmod 4 = 0 ∧ (year.tmod 100 ≠ 0 ∨ year.tmod 400 = 0) then 29
  else if month = 2 then 28
  else if month = 4 ∨ month = 6 ∨ month = 9 ∨ month = 11 then 30
  else 31

/-- What 32 bits hold. -/
def i32 (value : Int) : Except Overflow Int :=
  if -2 ^ 31 ≤ value ∧ value < 2 ^ 31 then .ok value else .error .i32

/-- Days since 1970, of a date of the Gregorian calendar. -/
def daysFromCivil (year month day : Int) : Except Overflow Int := do
  let adjustedYear ← i32 (year - if month ≤ 2 then 1 else 0)
  let shiftedYear ← i32 (if 0 ≤ adjustedYear then adjustedYear else adjustedYear - 399)
  let era := shiftedYear.tdiv 400
  let yearOfEra := adjustedYear - era * 400
  let shiftedMonth := month + if 2 < month then -3 else 9
  let dayOfYear := (153 * shiftedMonth + 2).tdiv 5 + day - 1
  let dayOfEra := yearOfEra * 365 + yearOfEra.tdiv 4 - yearOfEra.tdiv 100 + dayOfYear
  let eraDays ← i32 (era * 146097)
  let days ← i32 (eraDays + dayOfEra)
  i32 (days - 719468)

/-- Where the zone begins, which is after the fraction of a second if there is one. -/
def skipFraction (bytes : List UInt8) (cursor : Nat) : TimestampParses Nat :=
  if bytes[cursor]? = some 0x2E then
    let fraction := (bytes.drop (cursor + 1)).takeWhile isAsciiDigit
    if fraction = [] then failure else return cursor + 1 + fraction.length
  else return cursor

/-- The seconds by which the zone's clocks are ahead. -/
def zoneOffset (bytes : List UInt8) (cursor : Nat) : TimestampParses Int :=
  match bytes[cursor]? with
  | none => failure
  | some byte =>
    if byte = 0x5A ∧ cursor + 1 = bytes.length then return 0
    else if (byte = 0x2B ∨ byte = 0x2D) ∧ cursor + 6 = bytes.length ∧
        bytes[cursor + 3]? = some 0x3A then do
      let hours ← number bytes (cursor + 1) (cursor + 3)
      let minutes ← number bytes (cursor + 4) (cursor + 6)
      if 23 < hours ∨ 59 < minutes then failure
      else
        let seconds := hours * 3600 + minutes * 60
        return if byte = 0x2B then seconds else -seconds
    else failure

/-- Seconds since 1970. -/
def parseTimestamp (bytes : List UInt8) : TimestampParses Int := do
  if bytes.length < 20 ∨ bytes[4]? ≠ some 0x2D ∨ bytes[7]? ≠ some 0x2D ∨
      bytes[10]? ≠ some 0x54 ∨ bytes[13]? ≠ some 0x3A ∨ bytes[16]? ≠ some 0x3A then failure
  else
    let year ← number bytes 0 4
    let month ← number bytes 5 7
    let day ← number bytes 8 10
    let hour ← number bytes 11 13
    let minute ← number bytes 14 16
    let second ← number bytes 17 19
    if ¬(1 ≤ month ∧ month ≤ 12) ∨ day = 0 ∨ daysInMonth year month < day ∨ 23 < hour ∨
        59 < minute ∨ 59 < second then failure
    else
      let cursor ← skipFraction bytes 19
      let offset ← zoneOffset bytes cursor
      let days ← (daysFromCivil year month day : TimestampParses Int)
      return days * 86400 + (hour * 3600 + minute * 60 + second) - offset

/-! ### Days and months -/

/-- A year that 32 bits cannot hold is taken for the last one, or the first. -/
def civilFromDays (days : Int) : Int × Int × Int :=
  let shifted := days + 719468
  let era := (if 0 ≤ shifted then shifted else shifted - 146096).tdiv 146097
  let dayOfEra := shifted - era * 146097
  let yearOfEra := (dayOfEra - dayOfEra.tdiv 1460 + dayOfEra.tdiv 36524 -
    dayOfEra.tdiv 146096).tdiv 365
  let year := yearOfEra + era * 400
  let dayOfYear := dayOfEra - (365 * yearOfEra + yearOfEra.tdiv 4 - yearOfEra.tdiv 100)
  let monthPrime := (5 * dayOfYear + 2).tdiv 153
  let day := dayOfYear - (153 * monthPrime + 2).tdiv 5 + 1
  let month := monthPrime + if monthPrime < 10 then 3 else -9
  let year := year + if month ≤ 2 then 1 else 0
  (max (-2 ^ 31) (min year (2 ^ 31 - 1)), month, day)

/-- Where the day and the month of a time begin, in a place that keeps Universal Time. -/
def utcWindowStarts (now : Int) : Except Overflow (Int × Int) := do
  let day := now / 86400
  let (year, month, _) := civilFromDays day
  return (day * 86400, (← daysFromCivil year month 1) * 86400)

end Diri.App
