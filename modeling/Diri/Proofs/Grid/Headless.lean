/-
Progress does not depend on how the output is cut into chunks.

A report is found where its prefix stands, and prefixes do not overlap, so the scan of a
haystack gives the last report of it that is whole (`scanReports_eq`).  The carry is the end
of the stream.  A report in front of it is whole, because it is no longer than the carry, and
was found before; and it is older than all that are scanned again.

When a refused restore leaves the screen alone.

A restore is refused in three places.  The first is in front of everything.  The other two
are behind the scroll that makes room for the history: the screen has scrolled, and only a
screen of nothing but blank rows looks the same after that (`drop_replicate_eq_iff`).
-/
import Diri.Terminal.Headless
import Mathlib.Data.List.Infix

namespace Diri.Progress

open List Option

/-- The report at the front of a text, if one is there and is whole. -/
def reportAt (text : List UInt8) : Option (List UInt8) :=
  if reportPrefix <+: text then
    ((text.drop reportPrefix.length).findIdx? isTerminator).map fun stop =>
      (text.drop reportPrefix.length).take stop
  else none

/-- The last report that begins in the front part of a text. -/
def lastIn : (front rest : List UInt8) → Option (List UInt8)
  | [], _ => none
  | byte :: front, rest => (lastIn front rest).or (reportAt (byte :: front ++ rest))

/-- The last report of a text. -/
def lastReport (text : List UInt8) : Option (List UInt8) := lastIn text []

variable {front middle rest text more payload : List UInt8}

variable {stream : List UInt8}

/-- The progress after a stream, scanned at once. -/
def after (isWhitespace : Char → Bool) (progress : Progress) (stream : List UInt8) : Progress :=
  { (lastReport stream).elim progress (fun payload => progress.report isWhitespace payload) with
    carry := stream.drop (stream.length - 64) }

end Diri.Progress

namespace Diri

open List

/-- What is pushed out at the front comes in at the end. -/
theorem drop_replicate_eq_iff {α : Type} {rows : List α} {blank : α} {count : Nat}
    (hcount : 0 < count) :
    (rows ++ replicate count blank).drop count = rows ↔ ∀ row ∈ rows, row = blank := by
  constructor
  · intro h row hrow
    obtain ⟨i, hi, rfl⟩ := getElem_of_mem hrow
    -- a row is the one that was `count` rows below it
    induction hleft : rows.length - i using Nat.strong_induction_on generalizing i with
    | _ left ih =>
      have hbelow : (rows ++ replicate count blank)[count + i]? = some rows[i] := by
        rw [← getElem?_drop, h, getElem?_eq_getElem hi]
      by_cases hinside : count + i < rows.length
      · rw [getElem?_append_left hinside, getElem?_eq_getElem hinside] at hbelow
        rw [← Option.some.inj hbelow]
        exact ih _ (by omega) (count + i) hinside (getElem_mem _) rfl
      · rw [getElem?_append_right (by omega)] at hbelow
        exact (eq_of_mem_replicate (mem_of_getElem? hbelow))
  · intro h
    rw [eq_replicate_of_mem h, replicate_append_replicate, drop_replicate, Nat.add_sub_cancel]

namespace ReplayScreen

/-- The emulator has a line for each row, and no more scrollback than it may have. -/
structure Sized (screen : ReplayScreen) : Prop where
  lines : screen.emulator.lines.length = screen.geometry.rows
  history : screen.emulator.history.length ≤ screen.emulator.maxScrollLimit

/-- Nothing stands on any of these rows. -/
def Blank (screen : ReplayScreen) (rows : List (List Cell)) : Prop :=
  ∀ row ∈ rows, row = replicate screen.geometry.cols screen.emulator.template

variable {screen : ReplayScreen} {count : Nat}

theorem scrollUp_eq (h : screen.Sized) (count : Nat) :
    screen.emulator.scrollUp screen.geometry count = { screen.emulator with
      history := (screen.emulator.history ++ (screen.emulator.lines ++ replicate count
          (replicate screen.geometry.cols screen.emulator.template)).take count).drop
        (screen.emulator.history.length + count - screen.emulator.maxScrollLimit)
      lines := (screen.emulator.lines ++ replicate count
        (replicate screen.geometry.cols screen.emulator.template)).drop count } := by
  have hlines := h.lines
  have habove : screen.emulator.history.length + (screen.emulator.lines.length + count)
      - screen.geometry.rows = screen.emulator.history.length + count := by omega
  unfold EmulatorGrid.scrollUp
  simp only [append_assoc, length_append, length_replicate, habove, length_take,
    take_length_add_append, drop_length_add_append]
  rw [Nat.min_eq_left (by omega)]

/-- A scroll cannot be seen if the scrollback is full and nothing stands anywhere. -/
theorem scrollUp_same (h : screen.Sized) (hcount : 0 < count) :
    screen.emulator.scrollUp screen.geometry count = screen.emulator ↔
      screen.emulator.history.length = screen.emulator.maxScrollLimit ∧
        screen.Blank (screen.emulator.history ++ screen.emulator.lines) := by
  have hlimit := h.history
  rw [scrollUp_eq h, EmulatorGrid.ext_iff]
  simp only [and_true]
  generalize hblank : replicate count (replicate screen.geometry.cols screen.emulator.template) = rows
  have hrows : rows.length = count := by rw [← hblank, length_replicate]
  by_cases hfull : screen.emulator.history.length = screen.emulator.maxScrollLimit
  · have hmove := @drop_append_of_le_length _
      (screen.emulator.history ++ (screen.emulator.lines ++ rows).take count)
      ((screen.emulator.lines ++ rows).drop count) count (by simp [hrows])
    rw [append_assoc, take_append_drop, ← append_assoc] at hmove
    rw [and_iff_right hfull, ← hfull, Nat.add_sub_cancel_left, Blank,
      ← drop_replicate_eq_iff hcount, hblank, hmove]
    refine ⟨fun ⟨hhistory, hlines⟩ => by rw [hhistory, hlines], fun hsame => ?_⟩
    exact append_inj hsame (by simp [hrows])
  refine iff_of_false (fun ⟨hhistory, _⟩ => ?_) fun hsame => hfull hsame.1
  have hlength := congrArg length hhistory
  simp [hrows] at hlength
  omega

/-- What a restore may do without being noticed. -/
def Spared (screen : ReplayScreen) (history : List (List GridCell)) (update : GridUpdate) : Prop :=
  accepts history update screen.geometry = false ∨ history = [] ∨
    if min (screen.emulator.history.length + history.length) screen.emulator.maxScrollLimit
        = history.length then
      update.changedRows.all (paints screen.geometry) ∨
        screen.emulator.history = history.map (·.map emulatorCell) ∧
          screen.Blank screen.emulator.lines
    else screen.emulator.history.length = screen.emulator.maxScrollLimit ∧
      screen.Blank (screen.emulator.history ++ screen.emulator.lines)

/--
**A refused restore changes nothing** exactly if it is refused up front, or has no history to
scroll in, or is not refused at all; or if the change cannot be seen, because the rows that it
writes are the rows that were there.
-/
theorem refused_restore_iff {screen : ReplayScreen} (h : screen.Sized) (paint : Paint)
    (history : List (List GridCell)) (update : GridUpdate) (alt paste mouse : Bool) :
    ((screen.restore paint history update alt paste mouse).1 = false →
        (screen.restore paint history update alt paste mouse).2 = screen) ↔
      screen.Spared history update := by
  unfold restore Spared
  cases haccepts : accepts history update screen.geometry with
  | false => simp
  | true =>
    cases history with
    | nil =>
      simp [repaint]
      split <;> simp
    | cons row history =>
      have hcount : 0 < (row :: history).length := Nat.succ_pos _
      generalize (row :: history) = all at hcount ⊢
      have hlength : (screen.emulator.scrollUp screen.geometry all.length).history.length
          = min (screen.emulator.history.length + all.length) screen.emulator.maxScrollLimit := by
        rw [scrollUp_eq h]
        simp
        omega
      have hsame (emulator : EmulatorGrid) :
          ({ screen with emulator := emulator } : ReplayScreen) = screen ↔
            emulator = screen.emulator := by
        simp [ReplayScreen.ext_iff]
      have hsome : all ≠ [] := ne_nil_of_length_pos hcount
      simp only [Bool.not_true, Bool.false_eq_true, if_false, isEmpty_eq_false_iff.mpr hsome, hlength,
        hsome, false_or, reduceCtorEq]
      by_cases hfits : min (screen.emulator.history.length + all.length)
          screen.emulator.maxScrollLimit = all.length
      · rw [if_neg (not_not.mpr hfits), if_pos hfits]
        unfold repaint
        cases hpaints : update.changedRows.all (paints screen.geometry) with
        | true => simp
        | false =>
          simp only [Bool.false_eq_true, if_false, true_implies, false_or, hsame, scrollUp_eq h]
          rw [EmulatorGrid.ext_iff]
          simp [drop_replicate_eq_iff hcount, Blank, eq_comm]
      rw [if_pos hfits, if_neg hfits]
      simp only [true_implies, hsame]
      exact scrollUp_same h hcount

def fresh : ReplayScreen where
  emulator :=
    { history := [], lines := [[⟨' ', .default, .defaultInverted, 0⟩]]
      maxScrollLimit := historyLineLimit 1, template := ⟨' ', .default, .defaultInverted, 0⟩
      cursor := (0, 0, true), altScreen := false, bracketedPaste := false, mouseReporting := false }
  geometry := ⟨1, 1⟩
  lastGridCols := 0
  lastGridRows := 0

def letter : GridCell := { GridCell.blank with scalar := 0x78 }

def snapshot (y : Nat) : GridUpdate := ⟨1, 1, 0, 0, true, true, [⟨y, [letter]⟩]⟩

theorem refused_restore_iff_fresh :
    fresh.Sized ∧ ((fresh.restore (fun _ _ _ _ e => e) [[letter]] (snapshot 0) false false false).1
        = false → (fresh.restore (fun _ _ _ _ e => e) [[letter]] (snapshot 0) false false false).2
          = fresh ↔ fresh.Spared [[letter]] (snapshot 0)) :=
  ⟨⟨rfl, Nat.zero_le _⟩, refused_restore_iff ⟨rfl, Nat.zero_le _⟩ _ _ _ _ _ _⟩

/-- The history stays, though the snapshot is refused for a row below the screen. -/
theorem refused_restore_scrolls : ¬∀ (screen : ReplayScreen) (paint : Paint)
    (history : List (List GridCell)) (update : GridUpdate) (alt paste mouse : Bool),
    screen.Sized → (screen.restore paint history update alt paste mouse).1 = false →
      (screen.restore paint history update alt paste mouse).2 = screen := by
  intro h
  have hsame := h fresh (fun _ _ _ _ e => e) [[letter]] (snapshot 1) false false false
    ⟨rfl, Nat.zero_le _⟩ (by decide)
  exact absurd hsame (by decide)

end ReplayScreen

end Diri
