/-
How the node reads a timestamp.

It cuts the text into pieces, one after another, and looks at little else.  A piece that
would cut a character in two is a panic; one that is not what it has to be ends the reading.
-/
import Diri.Proofs.App.Civil

namespace Diri

open Calendar Rfc3339 Fallible List

/-! ### Timestamps are read -/

theorem isCharBoundary_ascii {text : List UInt8} (h : ∀ byte ∈ text, byte < 0x80) {index : Nat}
    (hindex : index ≤ text.length) : isCharBoundary text index := by
  rw [isCharBoundary]
  rcases hbyte : text[index]? with _ | byte
  · have hlast := List.getElem?_eq_none_iff.mp hbyte
    simp [Nat.le_antisymm hindex hlast]
  · have hsmall := h byte (mem_of_getElem? hbyte)
    simp [hsmall]

theorem sliceText_ascii {text piece rest : List UInt8} (h : ∀ byte ∈ text, byte < 0x80)
    {first : Nat} (hfirst : first ≤ text.length) (hdrop : text.drop first = piece ++ rest) :
    sliceText text first (first + piece.length) = .ok piece := by
  have hlast : first + piece.length ≤ text.length := by
    have hlength := congrArg List.length hdrop
    rw [length_drop, length_append] at hlength
    omega
  rw [sliceText, if_pos ⟨Nat.le_add_right .., isCharBoundary_ascii h hfirst,
    isCharBoundary_ascii h hlast⟩, slice_of_drop rfl hdrop]

theorem digitsValue_digits {width n : Nat} (hwidth : 0 < width) (h : n < 10 ^ width) :
    digitsValue (digits width n) = some (n : Int) := by
  have hnonempty : digits width n ≠ [] := by
    intro hempty
    have hlength := congrArg List.length hempty
    exact absurd hlength (by simp; omega)
  rw [digitsValue, if_pos ⟨hnonempty, all_digits width n⟩, foldl_number, number_digits h]

theorem parseI64_digits {width n : Nat} (hwidth : 0 < width) (h : n < 10 ^ width) :
    parseI64 (digits width n) = some (n : Int) := by
  rw [← digitsValue_digits hwidth h]
  have hall := all_digits width n
  unfold parseI64
  split
  case h_1 rest heq => rw [heq] at hall; cases hall
  case h_2 rest heq => rw [heq] at hall; cases hall
  case h_3 => rfl

theorem run_number {text rest : List UInt8} (h : ∀ byte ∈ text, byte < 0x80)
    (first width : Nat) {n : Nat} (hwidth : 0 < width) (hn : n < 10 ^ width)
    (hdrop : text.drop first = digits width n ++ rest) :
    (Parses.number text first (first + width)).run = .ok (some (n : Int)) := by
  have hfirst : first ≤ text.length := by
    by_contra hpast
    rw [drop_eq_nil_of_le (by omega)] at hdrop
    have hlength := congrArg List.length hdrop
    rw [length_nil, length_append, length_digits] at hlength
    omega
  have hslice := sliceText_ascii h hfirst hdrop
  rw [length_digits] at hslice
  rw [Parses.number]
  refine run_bind_some.mpr ⟨digits width n, ?_, ?_⟩
  · rw [run_liftM, hslice]
    rfl
  · rw [parseI64_digits hwidth hn]
    rfl

def isSign (byte : UInt8) : Bool := byte = 0x2B || byte = 0x2D

theorem not_sign_of_isDigit {byte : UInt8} (h : isDigit byte) : isSign byte = false := by
  have hmem := isDigit_iff.mp h
  unfold isSign
  rw [Bool.or_eq_false_iff, decide_eq_false_iff_not, decide_eq_false_iff_not]
  constructor
  · rintro rfl
    exact absurd hmem.1 (by decide)
  · rintro rfl
    exact absurd hmem.1 (by decide)

theorem not_sign_fraction (fraction : List (Fin 10)) :
    ∀ byte ∈ formatFraction fraction, isSign byte = false := by
  intro byte hbyte
  unfold formatFraction at hbyte
  split at hbyte
  · cases hbyte
  rcases mem_cons.mp hbyte with rfl | hbyte
  · rfl
  · obtain ⟨value, -, rfl⟩ := mem_map.mp hbyte
    exact not_sign_of_isDigit (isDigit_digit value.val)

theorem not_sign_digits {width n : Nat} {byte : UInt8} (h : byte ∈ digits width n) :
    isSign byte = false :=
  not_sign_of_isDigit (all_eq_true.mp (all_digits width n) byte h)

theorem findIdx_sign {before after : List UInt8} {sign : UInt8} (hsign : isSign sign)
    (hafter : ∀ byte ∈ after, isSign byte = false) :
    (before ++ sign :: after).reverse.findIdx? isSign = some after.length := by
  have hnone : after.reverse.findIdx? isSign = none := by
    rw [findIdx?_eq_none_iff]
    intro byte hbyte
    exact hafter byte (mem_reverse.mp hbyte)
  rw [reverse_append, reverse_cons, append_assoc, findIdx?_append, hnone,
    singleton_append, findIdx?_cons, hsign]
  simp

theorem timezone_format {fraction : List (Fin 10)} {zone : Zone} {suffix : List UInt8}
    (hascii : ∀ byte ∈ suffix, byte < 0x80) (h : suffix = formatFraction fraction ++ zone.format) :
    (timezone suffix).run = .ok (some zone.seconds) := by
  cases zone with
  | utc small =>
    have hnone : suffix.reverse.findIdx? isSign = none := by
      rw [findIdx?_eq_none_iff]
      intro byte hbyte
      rw [h, mem_reverse, mem_append] at hbyte
      rcases hbyte with hbyte | hbyte
      · exact not_sign_fraction fraction byte hbyte
      · rw [mem_singleton.mp hbyte]
        split <;> rfl
    unfold isSign at hnone
    simp only [timezone, hnone]
    rfl
  | offset behind hours minutes =>
    obtain ⟨sign, hsign⟩ : ∃ sign : UInt8, sign = if behind then 0x2D else 0x2B := ⟨_, rfl⟩
    obtain ⟨after, hafter⟩ : ∃ after, after = digits 2 hours ++ 0x3A :: digits 2 minutes := ⟨_, rfl⟩
    have hsuffix : suffix = formatFraction fraction ++ sign :: after := by
      rw [h, hsign, hafter]
      rfl
    have hfive : after.length = 5 := by
      rw [hafter, length_append, length_cons, length_digits, length_digits]
    have hlast : suffix.reverse.findIdx? isSign = some 5 := by
      have hfound : (formatFraction fraction ++ sign :: after).reverse.findIdx? isSign =
          some after.length := by
        apply findIdx_sign
        · rw [hsign]
          split <;> rfl
        intro byte hbyte
        rw [hafter, mem_append, mem_cons] at hbyte
        rcases hbyte with hbyte | rfl | hbyte
        · exact not_sign_digits hbyte
        · rfl
        · exact not_sign_digits hbyte
      rw [hsuffix, hfound, hfive]
    have hlength : suffix.length = (formatFraction fraction).length + 6 := by
      rw [hsuffix, length_append, length_cons, hfive]
    have hposition : suffix.length - 1 - 5 = (formatFraction fraction).length := by omega
    have hdrop : suffix.drop (formatFraction fraction).length = sign :: after := by
      rw [hsuffix, drop_left]
    have hzone : sliceText suffix ((formatFraction fraction).length + 1) suffix.length =
        .ok after := by
      have hslice := sliceText_ascii hascii (by omega)
        ((drop_past_byte hdrop).trans (append_nil after).symm)
      rwa [hfive, Nat.add_assoc, ← hlength] at hslice
    have hafterAscii : ∀ byte ∈ after, byte < 0x80 := fun byte hbyte =>
      hascii byte (by rw [hsuffix]; simp [hbyte])
    have hdropHours : after.drop 0 = digits 2 hours ++ 0x3A :: digits 2 minutes := hafter
    have hdropColon := drop_past hdropHours
    have hdropMinutes : after.drop 3 = digits 2 minutes ++ [] :=
      (drop_past_byte hdropColon).trans (append_nil _).symm
    have hhours := run_number hafterAscii 0 2 (by decide) (by omega) hdropHours
    have hminutes := run_number hafterAscii 3 2 (by decide) (by omega) hdropMinutes
    have hsome : (if sign = 0x2B then (1 : Int) else -1) = if behind then -1 else 1 := by
      rw [hsign]
      cases behind <;> rfl
    unfold isSign at hlast
    simp only [timezone, hlast, hposition, getElem?_of_drop hdrop, Option.some.injEq, hsome]
    refine run_bind_some.mpr ⟨after, by rw [run_liftM, hzone]; rfl, ?_⟩
    rw [if_pos (by omega)]
    exact run_bind_some.mpr ⟨_, hhours, run_bind_some.mpr ⟨_, hminutes, rfl⟩⟩

theorem run_sliceText {text rest : List UInt8} {byte : UInt8} (h : ∀ byte ∈ text, byte < 0x80)
    {first : Nat} (hdrop : text.drop first = byte :: rest) :
    (liftM (sliceText text first (first + 1)) : Parses (List UInt8)).run = .ok (some [byte]) := by
  have hfirst : first ≤ text.length := by
    by_contra hpast
    rw [drop_eq_nil_of_le (by omega)] at hdrop
    cases hdrop
  have hpiece : text.drop first = [byte] ++ rest := hdrop
  have hslice := sliceText_ascii h hfirst hpiece
  rw [length_singleton] at hslice
  rw [run_liftM, hslice]
  rfl

theorem node_parse_format {timestamp : Timestamp} (h : timestamp.small = false) :
    (parseRfc3339Seconds timestamp.format).run = .ok (some timestamp.unixTime) := by
  have hlaid := laid_iff.mpr (rfl : timestamp.format = timestamp.format)
  have hlength := length_format timestamp
  have hascii := format_ascii timestamp
  generalize timestamp.format = text at hlaid hlength hascii
  have hmonthMem := timestamp.date.month_mem
  have hdayMem := timestamp.date.day_mem
  have hyearMem := timestamp.year_mem
  have hday31 : timestamp.date.day ≤ 31 := by
    refine hdayMem.2.trans ?_
    unfold daysInMonth
    split_ifs <;> omega
  have hletter := hlaid.dayEnd
  rw [h] at hletter
  have hyear := run_number hascii 0 4 (by decide) (by omega) hlaid.year
  have hmonth := run_number hascii 5 2 (by decide) (by omega) hlaid.month
  have hday := run_number hascii 8 2 (by decide) (by omega) hlaid.day
  have hhour := run_number hascii 11 2 (by decide) (by omega) hlaid.hour
  have hminute := run_number hascii 14 2 (by decide) (by omega) hlaid.minute
  have hsecond := run_number hascii 17 2 (by decide) (by omega) hlaid.second
  have hsuffix : (liftM (sliceText text 19 text.length) : Parses (List UInt8)).run =
      .ok (some (text.drop 19)) := by
    have hslice := sliceText_ascii hascii (by omega : 19 ≤ text.length)
      (append_nil (text.drop 19)).symm
    rw [length_drop, Nat.add_sub_cancel' (by omega)] at hslice
    rw [run_liftM, hslice]
    rfl
  have hzone := timezone_format (fun byte hbyte => hascii byte (mem_of_mem_drop hbyte)) hlaid.suffix
  rw [parseRfc3339Seconds, if_neg (by omega)]
  refine run_bind_some.mpr ⟨_, run_sliceText hascii hlaid.yearEnd, ?_⟩
  rw [if_neg (by decide)]
  refine run_bind_some.mpr ⟨_, run_sliceText hascii hlaid.monthEnd, ?_⟩
  rw [if_neg (by decide)]
  refine run_bind_some.mpr ⟨_, run_sliceText hascii hletter, ?_⟩
  rw [if_neg (by decide)]
  refine run_bind_some.mpr ⟨_, hyear, run_bind_some.mpr ⟨_, hmonth, run_bind_some.mpr ⟨_, hday,
    run_bind_some.mpr ⟨_, hhour, run_bind_some.mpr ⟨_, hminute, run_bind_some.mpr ⟨_, hsecond,
    run_bind_some.mpr ⟨_, hsuffix, run_bind_some.mpr ⟨_, hzone, ?_⟩⟩⟩⟩⟩⟩⟩⟩
  rw [Int.toNat_of_nonneg hyearMem.1, Int.toNat_of_nonneg (by omega),
    Int.toNat_of_nonneg (by omega), App.node_daysFromCivil]
  rfl

/-! ### Anything else -/

/-- A piece that the node cuts out of a text, and what it has to be. -/
structure Cut where
  text : List UInt8
  first : Nat
  last : Nat
  fits : List UInt8 → Bool

/-- No character is cut in two. -/
def Cut.clean (cut : Cut) : Bool :=
  cut.first ≤ cut.last && isCharBoundary cut.text cut.first && isCharBoundary cut.text cut.last

def Cut.right (cut : Cut) : Bool := cut.fits ((cut.text.take cut.last).drop cut.first)

def isNumber (digits : List UInt8) : Bool := (parseI64 digits).isSome

/-- The pieces of a zone, after the last sign. -/
def zoneCuts (suffix : List UInt8) : List Cut :=
  match suffix.reverse.findIdx? isSign with
  | none => []
  | some fromEnd =>
    let start := suffix.length - fromEnd
    let zone := suffix.drop start
    ⟨suffix, start, suffix.length, fun _ => true⟩ ::
      if 5 ≤ zone.length then [⟨zone, 0, 2, isNumber⟩, ⟨zone, 3, 5, isNumber⟩] else []

/-- The pieces of a timestamp, in the order they are cut. -/
def timestampCuts (value : List UInt8) : List Cut :=
  [⟨value, 4, 5, (· = utf8 "-")⟩, ⟨value, 7, 8, (· = utf8 "-")⟩, ⟨value, 10, 11, (· = utf8 "T")⟩,
    ⟨value, 0, 4, isNumber⟩, ⟨value, 5, 7, isNumber⟩, ⟨value, 8, 10, isNumber⟩,
    ⟨value, 11, 13, isNumber⟩, ⟨value, 14, 16, isNumber⟩, ⟨value, 17, 19, isNumber⟩,
    ⟨value, 19, value.length, fun _ => true⟩] ++ zoneCuts (value.drop 19)

/-- Of the pieces that are not right or cannot be cut, there is a first one, and it can be cut. -/
def EndsCleanly (cuts : List Cut) : Prop :=
  ∃ cut, cuts.find? (fun cut => !(cut.clean && cut.right)) = some cut ∧ cut.clean

theorem not_endsCleanly_nil : ¬EndsCleanly [] := by simp [EndsCleanly]

theorem endsCleanly_cons {cut : Cut} {cuts : List Cut} :
    EndsCleanly (cut :: cuts) ↔ cut.clean ∧ (cut.right = false ∨ EndsCleanly cuts) := by
  unfold EndsCleanly
  rw [find?_cons]
  cases hclean : cut.clean
  · simp [hclean]
  · cases hright : cut.right
    · simp [hclean]
    · simp

theorem sliceText_none {α : Type} (cut : Cut) {cuts : List Cut} {next : List UInt8 → Parses α}
    (h : ∀ piece, piece = (cut.text.take cut.last).drop cut.first →
      ((next piece).run = .ok none ↔ cut.fits piece = false ∨ EndsCleanly cuts)) :
    ((liftM (sliceText cut.text cut.first cut.last) : Parses (List UInt8)) >>= next).run =
      .ok none ↔ EndsCleanly (cut :: cuts) := by
  rw [endsCleanly_cons, run_bind_none, run_liftM, sliceText]
  by_cases hclean : cut.clean
  · have hcut := hclean
    simp only [Cut.clean, Bool.and_eq_true, decide_eq_true_eq, and_assoc] at hcut
    rw [if_pos hcut]
    simp only [Except.map, hclean, true_and]
    constructor
    · rintro (hnone | ⟨piece, hpiece, hnone⟩)
      · cases hnone
      · have hslice := (Option.some.inj (Except.ok.inj hpiece)).symm
        have hends := (h piece hslice).mp hnone
        rwa [hslice] at hends
    · intro hends
      exact .inr ⟨_, rfl, (h _ rfl).mpr hends⟩
  have hcut := hclean
  simp only [Cut.clean, Bool.and_eq_true, decide_eq_true_eq, and_assoc] at hcut
  rw [if_neg hcut]
  simp [Except.map, hclean]

theorem number_none {α : Type} {text : List UInt8} {first last : Nat} {cuts : List Cut}
    {next : Int → Parses α} (h : ∀ value, (next value).run = .ok none ↔ EndsCleanly cuts) :
    (Parses.number text first last >>= next).run = .ok none ↔
      EndsCleanly (⟨text, first, last, isNumber⟩ :: cuts) := by
  have hread : Parses.number text first last >>= next =
      (liftM (sliceText text first last) : Parses (List UInt8)) >>= fun digits =>
        OptionT.mk (pure (parseI64 digits)) >>= next := by
    rw [Parses.number, bind_assoc]
  rw [hread]
  apply sliceText_none ⟨text, first, last, isNumber⟩
  rintro piece -
  rw [run_bind_none]
  unfold isNumber
  rcases hvalue : parseI64 piece with _ | value
  · simp [pure, Except.pure, hvalue]
  · simp [pure, Except.pure, hvalue, h]

theorem mark_none {α : Type} {text mark : List UInt8} {first last : Nat} {cuts : List Cut}
    {next : Parses α} (h : next.run = .ok none ↔ EndsCleanly cuts) :
    ((liftM (sliceText text first last) : Parses (List UInt8)) >>= fun piece =>
      if piece ≠ mark then failure else next).run = .ok none ↔
      EndsCleanly (⟨text, first, last, (· = mark)⟩ :: cuts) := by
  apply sliceText_none ⟨text, first, last, (· = mark)⟩
  rintro piece -
  by_cases hmark : piece = mark
  · rw [if_neg (not_not.mpr hmark), h]
    simp [hmark]
  · rw [if_pos hmark]
    simp [hmark, OptionT.run_failure, pure, Except.pure]

theorem timezone_none {α : Type} {suffix : List UInt8} {next : Int → Parses α}
    (h : ∀ offset, (next offset).run ≠ .ok none) :
    (timezone suffix >>= next).run = .ok none ↔ EndsCleanly (zoneCuts suffix) := by
  have hnext : ∀ offset, (next offset).run = .ok none ↔ EndsCleanly [] := fun offset =>
    iff_of_false (h offset) not_endsCleanly_nil
  rcases hfound : suffix.reverse.findIdx? isSign with _ | fromEnd
  · have hcuts : zoneCuts suffix = [] := by rw [zoneCuts, hfound]
    rw [hcuts]
    unfold isSign at hfound
    simp only [timezone, hfound, pure_bind]
    exact hnext 0
  have hlast : fromEnd < suffix.length := by
    have hlt := (findIdx?_eq_some_iff_findIdx_eq.mp hfound).1
    rwa [length_reverse] at hlt
  have hstart : suffix.length - 1 - fromEnd + 1 = suffix.length - fromEnd := by omega
  simp only [zoneCuts, hfound]
  unfold isSign at hfound
  simp only [timezone, hfound, hstart, bind_assoc]
  apply sliceText_none ⟨suffix, suffix.length - fromEnd, suffix.length, fun _ => true⟩
  rintro piece rfl
  rw [take_length]
  by_cases hlong : 5 ≤ (suffix.drop (suffix.length - fromEnd)).length
  · simp only [if_pos hlong, bind_assoc, Bool.true_eq_false, false_or]
    exact number_none fun hours => number_none fun minutes => by
      rw [pure_bind]
      exact hnext _
  · simp only [if_neg hlong, pure_bind, Bool.true_eq_false, false_or]
    exact hnext 0

theorem parse_none {value : List UInt8} (h : 20 ≤ value.length) :
    (parseRfc3339Seconds value).run = .ok none ↔ EndsCleanly (timestampCuts value) := by
  rw [parseRfc3339Seconds, if_neg (by omega)]
  refine mark_none (mark_none (mark_none (number_none fun year => number_none fun month =>
    number_none fun day => number_none fun hour => number_none fun minute => number_none
    fun second => sliceText_none ⟨value, 19, value.length, fun _ => true⟩ ?_)))
  rintro piece rfl
  rw [take_length]
  simp only [Bool.true_eq_false, false_or]
  refine timezone_none fun offset => ?_
  rw [OptionT.run_pure]
  simp [pure, Except.pure]

end Diri
