/-
When the node and the app read the same time off a text, and the right one.

What the app reads is told by what is left of the text at the place it has come to.
-/
import Diri.Proofs.Node.Timestamps
import Mathlib.Data.List.TakeWhile

namespace Diri.App

open Calendar Rfc3339 Fallible List Except Option

/-! ### Numbers -/

theorem number_some (bytes : List UInt8) (place : Nat) {width : Nat} (hwidth : 0 < width)
    {value : Int} : (number bytes place (place + width)).run = .ok (some value) ↔
      ∃ (n : Nat) (rest : List UInt8), n < 10 ^ width ∧ value = (n : Int) ∧
        bytes.drop place = digits width n ++ rest := by
  constructor
  · intro hread
    simp only [number] at hread
    split at hread
    case isTrue hdigits =>
      obtain ⟨hlast, hall⟩ := hdigits
      have hlength : ((bytes.take (place + width)).drop place).length = width := by
        rw [length_drop, length_take, min_eq_left hlast, Nat.add_sub_cancel_left]
      have hvalue : value = (Rfc3339.number ((bytes.take (place + width)).drop place) : Int) := by
        rw [← foldl_number]
        exact (some.inj (ok.inj hread)).symm
      have hdigits := digits_number hall
      rw [hlength, drop_take, Nat.add_sub_cancel_left] at hdigits
      refine ⟨_, bytes.drop (place + width), ?_, hvalue, ?_⟩
      · have hlt := number_lt hall
        rwa [hlength] at hlt
      · rw [drop_take, Nat.add_sub_cancel_left, hdigits, ← drop_drop, take_append_drop]
    case isFalse => cases hread
  rintro ⟨n, rest, hn, rfl, hdrop⟩
  have hslice : (bytes.take (place + width)).drop place = digits width n :=
    slice_of_drop (by rw [length_digits]) hdrop
  have hlast : place + width ≤ bytes.length := by
    have hlength := congrArg List.length hdrop
    rw [length_drop, length_append, length_digits] at hlength
    omega
  have hread : number bytes place (place + width) = pure (n : Int) := by
    simp only [number, hslice]
    rw [if_pos ⟨hlast, all_digits _ _⟩, foldl_number, number_digits hn]
  rw [hread]
  rfl

theorem returns_number (bytes : List UInt8) (first last : Nat) :
    Returns (number bytes first last) := by
  simp only [number]
  split
  · exact .pure _
  · exact .failure

/-! ### Fractions and zones -/

variable {bytes : List UInt8}

theorem skipFraction_format {place : Nat} {fraction : List (Fin 10)}
    {zone : Zone} (h : bytes.drop place = formatFraction fraction ++ zone.format) :
    (skipFraction bytes place).run = .ok (some (place + (formatFraction fraction).length)) := by
  obtain ⟨byte, rest, hzone, hpoint, hdigit⟩ := head_zone zone
  rw [hzone] at h
  by_cases hempty : fraction = []
  · subst hempty
    have hbyte : bytes[place]? = some byte := getElem?_of_drop h
    rw [skipFraction, hbyte, if_neg (by simpa using hpoint)]
    rfl
  have hformat : formatFraction fraction = 0x2E :: fraction.map fun d => digit d.val :=
    if_neg hempty
  rw [hformat, cons_append] at h
  rw [hformat]
  have hend : isAsciiDigit byte = false := hdigit
  have hdigits : (bytes.drop (place + 1)).takeWhile isAsciiDigit =
      fraction.map fun d => digit d.val := by
    rw [drop_past_byte h, takeWhile_append_of_pos, takeWhile_cons, hend]
    · exact append_nil _
    intro d hd
    obtain ⟨n, _, rfl⟩ := List.mem_map.mp hd
    exact isDigit_digit n
  simp only [skipFraction, getElem?_of_drop h, hdigits]
  rw [if_pos trivial, if_neg (by simpa using hempty), length_cons, Nat.add_assoc, Nat.add_comm 1]
  rfl

theorem skipFraction_some {place cursor : Nat}
    (h : (skipFraction bytes place).run = .ok (some cursor)) :
    ∃ fraction, bytes.drop place = formatFraction fraction ++ bytes.drop cursor := by
  simp only [skipFraction] at h
  split at h
  case isTrue hpoint =>
    split at h
    case isTrue => cases h
    case isFalse hsome =>
      have hcursor := some.inj (ok.inj h)
      have hdigits : ∀ byte ∈ (bytes.drop (place + 1)).takeWhile isAsciiDigit, isDigit byte :=
        fun byte hbyte => mem_takeWhile_imp hbyte
      obtain ⟨fraction, hfraction⟩ := exists_digits hdigits
      have hsplit := (takeWhile_append_dropWhile
        (p := isAsciiDigit) (l := bytes.drop (place + 1))).symm
      have hnonempty : fraction ≠ [] := by
        rintro rfl
        exact hsome hfraction
      refine ⟨fraction, ?_⟩
      rw [formatFraction, if_neg hnonempty, ← hfraction, ← hcursor, drop_past hsplit,
        cons_append, ← hsplit]
      exact drop_of_getElem? hpoint
  case isFalse =>
    have hcursor := some.inj (ok.inj h)
    exact ⟨[], by rw [← hcursor]; rfl⟩

theorem returns_skipFraction (bytes : List UInt8) (cursor : Nat) :
    Returns (skipFraction bytes cursor) := by
  simp only [skipFraction]
  split
  · split
    · exact .failure
    · exact .pure _
  · exact .pure _

theorem zoneOffset_some {cursor : Nat} {offset : Int} :
    (zoneOffset bytes cursor).run = .ok (some offset) ↔
      ∃ zone : Zone, zone ≠ .utc true ∧ bytes.drop cursor = zone.format ∧
        offset = zone.seconds := by
  constructor
  · intro h
    rw [zoneOffset] at h
    rcases hbyte : bytes[cursor]? with _ | byte
    · rw [hbyte] at h
      cases h
    simp only [hbyte] at h
    have hdrop := drop_of_getElem? hbyte
    split at h
    case isTrue hzulu =>
      refine ⟨.utc false, by simp, ?_, (some.inj (ok.inj h)).symm⟩
      rw [hdrop, hzulu.1, hzulu.2, drop_length]
      rfl
    case isFalse =>
      split at h
      case isTrue hsign =>
        obtain ⟨hsign, hend, hcolon⟩ := hsign
        obtain ⟨hours, hhours, h⟩ := run_bind_some.mp h
        obtain ⟨minutes, hminutes, h⟩ := run_bind_some.mp h
        obtain ⟨hh, afterHours, hhlt, rfl, hdropHours⟩ :=
          (number_some bytes (cursor + 1) (by decide : 0 < 2)).mp hhours
        obtain ⟨mm, afterMinutes, hmlt, rfl, hdropMinutes⟩ :=
          (number_some bytes (cursor + 4) (by decide : 0 < 2)).mp hminutes
        split at h
        case isTrue => cases h
        case isFalse hbounds =>
          have hoffset := some.inj (ok.inj h)
          have hafterHours : bytes.drop (cursor + 3) = afterHours := drop_past hdropHours
          have hafterMinutes : bytes.drop (cursor + 6) = afterMinutes := drop_past hdropMinutes
          rw [hend, drop_length] at hafterMinutes
          have hcolon := drop_of_getElem? hcolon
          rw [hafterHours, hdropMinutes, ← hafterMinutes, append_nil] at hcolon
          refine ⟨.offset (byte = 0x2D) ⟨hh, by omega⟩ ⟨mm, by omega⟩, by simp, ?_, ?_⟩
          · rw [hdrop, hdropHours, hcolon]
            rcases hsign with rfl | rfl
            · rfl
            · rfl
          · rw [← hoffset]
            rcases hsign with rfl | rfl
            · simp [Zone.seconds]
            · simp [Zone.seconds]
      case isFalse => cases h
  rintro ⟨zone, hcapital, hdrop, rfl⟩
  have hlength := congrArg List.length hdrop
  rw [length_drop] at hlength
  rcases zone with small | ⟨behind, hours, minutes⟩
  · have hsmall : small = false := by simpa using hcapital
    subst hsmall
    have hend : cursor + 1 = bytes.length := by
      have hone : (Zone.utc false).format.length = 1 := rfl
      omega
    have hbyte : bytes[cursor]? = some 0x5A := getElem?_of_drop hdrop
    simp only [zoneOffset, hbyte]
    rw [if_pos ⟨trivial, hend⟩]
    rfl
  obtain ⟨sign, hsign⟩ : ∃ sign : UInt8, sign = if behind then 0x2D else 0x2B := ⟨_, rfl⟩
  have hformat : bytes.drop cursor = sign :: (digits 2 hours ++ 0x3A :: digits 2 minutes) := by
    rw [hdrop, hsign]
    rfl
  have hend : cursor + 6 = bytes.length := by
    rw [hdrop] at hformat
    rw [hformat] at hlength
    simp only [length_cons, length_append, length_digits] at hlength
    omega
  have hhours := drop_past_byte hformat
  have hcolon := drop_past hhours
  rw [length_digits] at hcolon
  have hminutes : bytes.drop (cursor + 4) = digits 2 minutes ++ [] := by
    rw [append_nil]
    exact drop_past_byte hcolon
  have hreadHours := (number_some bytes (cursor + 1) (by decide : 0 < 2)).mpr
    ⟨hours, _, by omega, rfl, hhours⟩
  have hreadMinutes := (number_some bytes (cursor + 4) (by decide : 0 < 2)).mpr
    ⟨minutes, _, by omega, rfl, hminutes⟩
  have hbyte := getElem?_of_drop hformat
  have hcapital : ¬(sign = 0x5A ∧ cursor + 1 = bytes.length) := by omega
  have hshape : (sign = 0x2B ∨ sign = 0x2D) ∧ cursor + 6 = bytes.length ∧
      bytes[cursor + 3]? = some 0x3A := by
    refine ⟨?_, hend, getElem?_of_drop hcolon⟩
    rw [hsign]
    cases behind
    · exact .inl rfl
    · exact .inr rfl
  simp only [zoneOffset, hbyte]
  rw [if_neg hcapital, if_pos hshape]
  refine run_bind_some.mpr ⟨_, hreadHours, run_bind_some.mpr ⟨_, hreadMinutes, ?_⟩⟩
  rw [if_neg (by omega)]
  refine congrArg (fun seconds => Except.ok (some seconds)) ?_
  rw [hsign]
  cases behind
  · simp [Zone.seconds]
  · simp [Zone.seconds]

theorem returns_zoneOffset (bytes : List UInt8) (cursor : Nat) :
    Returns (zoneOffset bytes cursor) := by
  rw [zoneOffset]
  split
  · exact .failure
  split
  · exact .pure _
  split
  · refine .bind (returns_number ..) fun hours _ => .bind (returns_number ..) fun _ _ => ?_
    split
    · exact .failure
    · exact .pure _
  · exact .failure

/-! ### The app's timestamps -/

theorem daysInMonth_eq {year : Int} (hyear : 0 ≤ year) (month : Int) :
    daysInMonth year month = Calendar.daysInMonth year month := by
  unfold daysInMonth Calendar.daysInMonth IsLeap
  rw [Int.tmod_eq_emod_of_nonneg hyear, Int.tmod_eq_emod_of_nonneg hyear,
    Int.tmod_eq_emod_of_nonneg hyear]
  by_cases hmonth : month = 2
  · simp [hmonth]
  · simp [hmonth]

theorem run_daysFromCivil {date : Date} (hyear : 0 ≤ date.year ∧ date.year ≤ 9999) :
    (liftM (daysFromCivil date.year date.month date.day) : TimestampParses Int).run =
      .ok (some date.unixDay) := by
  have hunix := unixDay_era date
  have hmem := eraDay_mem date
  have hfits : -2 ^ 31 ≤ date.unixDay ∧ date.unixDay + 719468 < 2 ^ 31 := by
    unfold Date.marchYear at hunix
    split at hunix <;> omega
  rw [run_liftM, app_daysFromCivil, if_pos hfits]
  rfl

theorem timestamp_of_parse {time : Int} (h : (parseTimestamp bytes).run = .ok (some time)) :
    ∃ timestamp : Timestamp, timestamp.Capital ∧ bytes = timestamp.format ∧
      time = timestamp.unixTime := by
  rw [parseTimestamp] at h
  split at h
  case isTrue => cases h
  case isFalse hmarks =>
    simp only [not_or, not_lt, not_not] at hmarks
    obtain ⟨-, hdash, hdash', hletter, hcolon, hcolon'⟩ := hmarks
    obtain ⟨year, hyear, h⟩ := run_bind_some.mp h
    obtain ⟨month, hmonth, h⟩ := run_bind_some.mp h
    obtain ⟨day, hday, h⟩ := run_bind_some.mp h
    obtain ⟨hour, hhour, h⟩ := run_bind_some.mp h
    obtain ⟨minute, hminute, h⟩ := run_bind_some.mp h
    obtain ⟨second, hsecond, h⟩ := run_bind_some.mp h
    obtain ⟨y, _, hy, rfl, hdropYear⟩ := (number_some bytes 0 (by decide : 0 < 4)).mp hyear
    obtain ⟨mo, _, hmo, rfl, hdropMonth⟩ := (number_some bytes 5 (by decide : 0 < 2)).mp hmonth
    obtain ⟨d, _, hd, rfl, hdropDay⟩ := (number_some bytes 8 (by decide : 0 < 2)).mp hday
    obtain ⟨hh, _, hhh, rfl, hdropHour⟩ := (number_some bytes 11 (by decide : 0 < 2)).mp hhour
    obtain ⟨mi, _, hmi, rfl, hdropMinute⟩ := (number_some bytes 14 (by decide : 0 < 2)).mp hminute
    obtain ⟨se, _, hse, rfl, hdropSecond⟩ := (number_some bytes 17 (by decide : 0 < 2)).mp hsecond
    split at h
    case isTrue => cases h
    case isFalse hbounds =>
      obtain ⟨cursor, hcursor, h⟩ := run_bind_some.mp h
      obtain ⟨offset, hoffset, h⟩ := run_bind_some.mp h
      obtain ⟨days, hdays, h⟩ := run_bind_some.mp h
      obtain ⟨fraction, hdropFraction⟩ := skipFraction_some hcursor
      obtain ⟨zone, hcapital, hdropZone, rfl⟩ := zoneOffset_some.mp hoffset
      rw [daysInMonth_eq (by omega)] at hbounds
      let timestamp : Timestamp := {
        date := ⟨y, mo, d, by omega, by omega⟩
        year_mem := ⟨by simp, by show (y : Int) ≤ 9999; omega⟩
        small := false
        hour := ⟨hh, by omega⟩
        minute := ⟨mi, by omega⟩
        second := ⟨se, by omega⟩
        fraction := fraction
        zone := zone }
      refine ⟨timestamp, ⟨rfl, hcapital⟩, ?_, ?_⟩
      · exact laid_iff.mp {
          year := drop_digits hdropYear
          yearEnd := drop_of_getElem? hdash
          month := drop_digits hdropMonth
          monthEnd := drop_of_getElem? hdash'
          day := drop_digits hdropDay
          dayEnd := drop_of_getElem? hletter
          hour := drop_digits hdropHour
          hourEnd := drop_of_getElem? hcolon
          minute := drop_digits hdropMinute
          minuteEnd := drop_of_getElem? hcolon'
          second := drop_digits hdropSecond
          suffix := by rw [hdropFraction, hdropZone] }
      have htime := some.inj (ok.inj h)
      have hunix : days = timestamp.date.unixDay := by
        have hread := run_daysFromCivil timestamp.year_mem
        rw [hdays] at hread
        exact some.inj (ok.inj hread)
      rw [← htime, hunix]
      show _ = timestamp.date.unixDay * 86400 + (hh : Int) * 3600 + (mi : Int) * 60 + (se : Int) -
        zone.seconds
      omega

theorem parse_format {timestamp : Timestamp} (h : timestamp.Capital) :
    (parseTimestamp timestamp.format).run = .ok (some timestamp.unixTime) := by
  have hlaid := laid_iff.mpr (rfl : timestamp.format = timestamp.format)
  have hlength := length_format timestamp
  generalize timestamp.format = bytes at hlaid hlength
  have hmonthMem := timestamp.date.month_mem
  have hdayMem := timestamp.date.day_mem
  have hdays := run_daysFromCivil timestamp.year_mem
  have hyearMem := timestamp.year_mem
  have hlast : timestamp.date.day ≤ 31 := by
    refine hdayMem.2.trans ?_
    unfold Calendar.daysInMonth
    split_ifs <;> omega
  have hletter := hlaid.dayEnd
  rw [h.1] at hletter
  rw [parseTimestamp, if_neg (by
    simp only [not_or, not_lt, not_not]
    exact ⟨hlength, getElem?_of_drop hlaid.yearEnd, getElem?_of_drop hlaid.monthEnd,
      getElem?_of_drop hletter, getElem?_of_drop hlaid.hourEnd, getElem?_of_drop hlaid.minuteEnd⟩)]
  have hyear := (number_some bytes 0 (by decide : 0 < 4)).mpr ⟨_, _, by omega, rfl, hlaid.year⟩
  have hmonth := (number_some bytes 5 (by decide : 0 < 2)).mpr ⟨_, _, by omega, rfl, hlaid.month⟩
  have hday := (number_some bytes 8 (by decide : 0 < 2)).mpr ⟨_, _, by omega, rfl, hlaid.day⟩
  have hhour := (number_some bytes 11 (by decide : 0 < 2)).mpr ⟨_, _, by omega, rfl, hlaid.hour⟩
  have hminute := (number_some bytes 14 (by decide : 0 < 2)).mpr ⟨_, _, by omega, rfl, hlaid.minute⟩
  have hsecond := (number_some bytes 17 (by decide : 0 < 2)).mpr ⟨_, _, by omega, rfl, hlaid.second⟩
  have hcursor := skipFraction_format hlaid.suffix
  have hzone := zoneOffset_some.mpr ⟨timestamp.zone, h.2, drop_past hlaid.suffix, rfl⟩
  refine run_bind_some.mpr ⟨_, hyear, run_bind_some.mpr ⟨_, hmonth, run_bind_some.mpr ⟨_, hday,
    run_bind_some.mpr ⟨_, hhour, run_bind_some.mpr ⟨_, hminute, run_bind_some.mpr
    ⟨_, hsecond, ?_⟩⟩⟩⟩⟩⟩
  rw [Int.toNat_of_nonneg hyearMem.1, Int.toNat_of_nonneg (by omega),
    Int.toNat_of_nonneg (by omega), daysInMonth_eq hyearMem.1, if_neg (by omega)]
  refine run_bind_some.mpr ⟨_, hcursor, run_bind_some.mpr ⟨_, hzone, run_bind_some.mpr
    ⟨_, hdays, ?_⟩⟩⟩
  refine congrArg (fun seconds => Except.ok (some seconds)) ?_
  unfold Timestamp.unixTime
  omega

theorem returns_parseTimestamp (bytes : List UInt8) : Returns (parseTimestamp bytes) := by
  rw [parseTimestamp]
  split
  case isTrue => exact .failure
  case isFalse =>
    refine .bind (returns_number ..) fun year hyear => .bind (returns_number ..) fun month hmonth =>
      .bind (returns_number ..) fun day hday => .bind (returns_number ..) fun hour _ =>
      .bind (returns_number ..) fun minute _ => .bind (returns_number ..) fun second _ => ?_
    obtain ⟨y, _, hy, rfl, -⟩ := (number_some bytes 0 (by decide : 0 < 4)).mp hyear
    obtain ⟨mo, _, hmo, rfl, -⟩ := (number_some bytes 5 (by decide : 0 < 2)).mp hmonth
    obtain ⟨d, _, hd, rfl, -⟩ := (number_some bytes 8 (by decide : 0 < 2)).mp hday
    split
    case isTrue => exact .failure
    case isFalse hbounds =>
      rw [daysInMonth_eq (by omega)] at hbounds
      let date : Date := ⟨y, mo, d, by omega, by omega⟩
      have hdate : 0 ≤ date.year ∧ date.year ≤ 9999 :=
        ⟨Int.natCast_nonneg y, by show (y : Int) ≤ 9999; omega⟩
      have hdays := run_daysFromCivil hdate
      exact .bind (returns_skipFraction ..) fun _ _ => .bind (returns_zoneOffset ..) fun _ _ =>
        .bind ⟨_, hdays⟩ fun _ _ => .pure _

/-! ### The node and the app -/

/-- The node and the app read the same off the text, and of a timestamp its time. -/
def ReadAlike (text : String) : Prop :=
  ∃ time, (parseRfc3339Seconds (utf8 text)).run = .ok time ∧
    (parseTimestamp (utf8 text)).run = .ok time ∧
    ∀ timestamp : Timestamp, utf8 text = timestamp.format → time = some timestamp.unixTime

/-- The app makes the date out of its days again. -/
def RoundTrips (date : Date) : Prop :=
  (daysFromCivil date.year date.month date.day).map civilFromDays =
    .ok (date.year, date.month, date.day)

theorem unixTime_unique {timestamp other : Timestamp} (h : timestamp.small = false)
    (hformat : timestamp.format = other.format) : timestamp.unixTime = other.unixTime := by
  have hother : other.small = false := by
    have hletter := (laid_iff.mpr (rfl : timestamp.format = timestamp.format)).dayEnd
    rw [(laid_iff.mpr hformat).dayEnd, h] at hletter
    by_contra hsmall
    rw [Bool.not_eq_false] at hsmall
    rw [hsmall] at hletter
    exact absurd (List.cons.inj hletter).1 (by decide)
  have hread := node_parse_format h
  rw [hformat, node_parse_format hother] at hread
  exact (some.inj (ok.inj hread)).symm

theorem node_none_iff : (parseRfc3339Seconds bytes).run = .ok none ↔
      bytes.length < 20 ∨ EndsCleanly (timestampCuts bytes) := by
  by_cases hshort : bytes.length < 20
  · refine iff_of_true ?_ (.inl hshort)
    rw [parseRfc3339Seconds, if_pos hshort]
    rfl
  · rw [parse_none (by omega)]
    simp [hshort]

/-- The node and the app read alike what is written in capital letters, and what is no timestamp
where it is short, or where the node comes to a piece that is not right before it cuts a character
in two.  A date is found again where the days, and those since the first of March of the year 0,
fit in 32 bits. -/
theorem timestamps_iff (text : String) (date : Date) : (ReadAlike text ↔
      (∃ timestamp : Timestamp, timestamp.Capital ∧ utf8 text = timestamp.format) ∨
      (∀ timestamp : Timestamp, utf8 text ≠ timestamp.format) ∧
        ((utf8 text).length < 20 ∨ EndsCleanly (timestampCuts (utf8 text)))) ∧
    (RoundTrips date ↔ -2 ^ 31 ≤ date.unixDay ∧ date.unixDay + 719468 < 2 ^ 31) := by
  refine ⟨?_, civil_round_trip date⟩
  constructor
  · rintro ⟨time, hnode, happ, htime⟩
    cases time with
    | some time =>
      obtain ⟨timestamp, hcapital, hformat, -⟩ := timestamp_of_parse happ
      exact .inl ⟨timestamp, hcapital, hformat⟩
    | none =>
      refine .inr ⟨?_, node_none_iff.mp hnode⟩
      intro timestamp hformat
      cases htime timestamp hformat
  rintro (⟨timestamp, hcapital, hformat⟩ | ⟨hother, hnode⟩)
  · refine ⟨some timestamp.unixTime, ?_, ?_, ?_⟩
    · rw [hformat]
      exact node_parse_format hcapital.1
    · rw [hformat]
      exact parse_format hcapital
    · intro other hsame
      rw [unixTime_unique hcapital.1 (hformat.symm.trans hsame)]
  · refine ⟨none, node_none_iff.mpr hnode, ?_, fun timestamp hformat => absurd hformat (hother _)⟩
    obtain ⟨time, happ⟩ := returns_parseTimestamp (utf8 text)
    cases time with
    | none => exact happ
    | some time =>
      obtain ⟨timestamp, -, hformat, -⟩ := timestamp_of_parse happ
      exact absurd hformat (hother timestamp)

/-- A character that is cut in two, and a day that February does not have. -/
theorem character_cut_in_two :
    ¬ReadAlike "202é07-22T12:34:56Z" ∧ ¬ReadAlike "2026-02-30T12:00:00Z" := by
  constructor
  · rintro ⟨time, hnode, -⟩
    have hcut : (parseRfc3339Seconds (utf8 "202é07-22T12:34:56Z")).run = .error .panicked := by
      decide
    cases hnode
  rintro ⟨time, hnode, happ, -⟩
  have hread : (parseRfc3339Seconds (utf8 "2026-02-30T12:00:00Z")).run =
      .ok (some 1772452800) := by
    decide
  have hnone : (parseTimestamp (utf8 "2026-02-30T12:00:00Z")).run = .ok none := by decide
  rw [← ok.inj hnode] at happ
  cases happ

end Diri.App
