/-
Lines of a stream.

A stream is cut into its lines, each ended by a separator, and a rest that has none.  What
is appended to the stream continues the rest and leaves the lines as they are.

Reading the beginning of a file until it is enough.

Each read gives what the system has at hand, at least one item and at most a chunk, so
reading may stop anywhere within a chunk of the first place where what has been read is
enough.  How much a read gives is a function of where it is made, which covers every way in
which the reads can fall.
-/
import Mathlib.Data.List.Basic

namespace Diri

open List

variable {α : Type} [DecidableEq α]

/-- The lines of a stream, without what ends them, and what comes after the last one. -/
def cutLines (separator : α) : List α → List (List α) × List α
  | [] => ([], [])
  | item :: rest =>
    if item = separator then ([] :: (cutLines separator rest).1, (cutLines separator rest).2)
    else
      match (cutLines separator rest).1 with
      | [] => ([], item :: (cutLines separator rest).2)
      | line :: lines => ((item :: line) :: lines, (cutLines separator rest).2)

variable {separator : α}

theorem cutLines_separator (rest : List α) : cutLines separator (separator :: rest) =
      ([] :: (cutLines separator rest).1, (cutLines separator rest).2) := by
  rw [cutLines, if_pos rfl]

theorem cutLines_of_notMem {stream : List α} (h : separator ∉ stream) :
    cutLines separator stream = ([], stream) := by
  induction stream with
  | nil => rfl
  | cons item rest ih =>
    rw [mem_cons, not_or] at h
    rw [cutLines, if_neg (Ne.symm h.1), ih h.2]

/-- A line that is complete is the first one. -/
theorem cutLines_line {line : List α} (h : separator ∉ line) (rest : List α) :
    cutLines separator (line ++ separator :: rest) =
      (line :: (cutLines separator rest).1, (cutLines separator rest).2) := by
  induction line with
  | nil => exact cutLines_separator rest
  | cons item line ih =>
    rw [mem_cons, not_or] at h
    rw [cons_append, cutLines, if_neg (Ne.symm h.1), ih h.2]

theorem notMem_rest (stream : List α) : separator ∉ (cutLines separator stream).2 := by
  induction stream with
  | nil => simp [cutLines]
  | cons item rest ih =>
    rw [cutLines]
    split
    · exact ih
    split
    · simp only [mem_cons, not_or]
      exact ⟨fun heq => absurd heq.symm ‹_›, ih⟩
    · exact ih

/-- The stream is its lines, each with what ends it, and the rest. -/
theorem joinLines (stream : List α) :
    ((cutLines separator stream).1.flatMap fun line => line ++ [separator]) ++
      (cutLines separator stream).2 = stream := by
  induction stream with
  | nil => rfl
  | cons item rest ih =>
    rw [cutLines]
    split
    · rw [flatMap_cons, append_assoc, ih]
      simp [*]
    split
    · rename_i hlines
      rw [hlines] at ih
      exact congrArg (item :: ·) ih
    rename_i line lines hlines
    rw [hlines] at ih
    exact congrArg (item :: ·) ih

theorem notMem_line {stream line : List α} (h : line ∈ (cutLines separator stream).1) :
    separator ∉ line := by
  induction stream generalizing line with
  | nil => cases h
  | cons item rest ih =>
    rw [cutLines] at h
    split at h
    · rcases mem_cons.mp h with rfl | hrest
      · exact not_mem_nil
      · exact ih hrest
    rename_i hitem
    split at h
    · cases h
    rename_i first lines hlines
    rw [hlines] at ih
    rcases mem_cons.mp h with rfl | hrest
    · rw [mem_cons, not_or]
      exact ⟨Ne.symm hitem, ih mem_cons_self⟩
    · exact ih (mem_cons_of_mem _ hrest)

/-- Lines that are put together are cut apart again. -/
theorem cutLines_joined {lines : List (List α)} (h : ∀ line ∈ lines, separator ∉ line)
    (rest : List α) : cutLines separator ((lines.flatMap fun line => line ++ [separator]) ++ rest) =
      (lines ++ (cutLines separator rest).1, (cutLines separator rest).2) := by
  induction lines with
  | nil => rfl
  | cons line lines ih =>
    obtain ⟨hline, hlines⟩ := forall_mem_cons.mp h
    rw [flatMap_cons, append_assoc, append_assoc, singleton_append, cutLines_line hline, ih hlines]
    rfl

/-- What is appended continues the rest. -/
theorem cutLines_append (stream more : List α) : cutLines separator (stream ++ more) =
      ((cutLines separator stream).1 ++
          (cutLines separator ((cutLines separator stream).2 ++ more)).1,
        (cutLines separator ((cutLines separator stream).2 ++ more)).2) := by
  induction stream with
  | nil => rfl
  | cons item rest ih =>
    by_cases hitem : item = separator
    · subst hitem
      rw [cons_append, cutLines_separator, cutLines_separator, ih]
      rfl
    rw [cons_append, cutLines, if_neg hitem, ih, cutLines, if_neg hitem]
    cases hlines : (cutLines separator rest).1 with
    | nil =>
      rw [nil_append, nil_append, cons_append, cutLines, if_neg hitem]
    | cons line lines => rfl

end Diri

namespace Diri

variable {α : Type} (enough : List α → Bool) (cap chunkSize : Nat) (chunk : Nat → Nat)
  (contents : List α)

/-- How much the read at a position gives; nothing only at the end. -/
def readSize (position : Nat) : Nat :=
  min (max 1 (chunk position)) (min (min chunkSize (cap - position)) (contents.length - position))

/-- How much is read in the end; `fuel` bounds the number of reads. -/
def readUntil : (fuel : Nat) → (position : Nat) → Nat
  | 0, position => position
  | fuel + 1, position =>
    if position < cap then
      let size := readSize cap chunkSize chunk contents position
      if size = 0 then position
      else if enough (contents.take (position + size)) then position + size
      else readUntil fuel (position + size)
    else position

/-- What is read of the beginning. -/
def readHead : List α :=
  contents.take (readUntil enough cap chunkSize chunk contents cap 0)

/-- Reading may stop after so much. -/
def StopsAt (stop : Nat) : Prop :=
  stop ≤ min cap contents.length ∧
    ((enough (contents.take stop) = true ∧
        ∃ before, before < stop ∧ stop ≤ before + chunkSize ∧
          enough (contents.take before) = false) ∨
      (stop = min cap contents.length ∧ enough (contents.take stop) = false))

variable {chunkSize} in
theorem readSize_eq_zero (hchunk : 0 < chunkSize) (position : Nat) :
    readSize cap chunkSize chunk contents position = 0 ↔ min cap contents.length ≤ position := by
  unfold readSize
  omega

variable {enough cap chunkSize contents}

theorem readUntil_stops (hchunk : 0 < chunkSize) (chunk : Nat → Nat) {fuel position : Nat}
    (hfuel : cap ≤ position + fuel) (hposition : position ≤ min cap contents.length)
    (hnot : enough (contents.take position) = false) : StopsAt enough cap chunkSize contents
      (readUntil enough cap chunkSize chunk contents fuel position) := by
  induction fuel generalizing position with
  | zero =>
    rw [readUntil]
    exact ⟨hposition, .inr ⟨by omega, hnot⟩⟩
  | succ fuel ih =>
    rw [readUntil]
    split
    · dsimp only
      have hsize := readSize_eq_zero cap chunk contents hchunk position
      have hle : readSize cap chunkSize chunk contents position ≤
          min chunkSize (min cap contents.length - position) := by
        unfold readSize
        omega
      split
      · rename_i hzero
        exact ⟨hposition, .inr ⟨by omega, hnot⟩⟩
      rename_i hzero
      split
      · rename_i henough
        exact ⟨by omega, .inl ⟨henough, position, by omega, by omega, hnot⟩⟩
      · rename_i henough
        exact ih (by omega) (by omega) (Bool.not_eq_true _ ▸ henough)
    · exact ⟨hposition, .inr ⟨by omega, hnot⟩⟩

/-- More is enough whenever less is. -/
def Lasting (enough : List α → Bool) : Prop :=
  ∀ front more, enough front = true → enough (front ++ more) = true

theorem Lasting.take (hlasting : Lasting enough) {less more : Nat} (hle : less ≤ more)
    (h : enough (contents.take more) = false) : enough (contents.take less) = false := by
  cases hless : enough (contents.take less) with
  | false => rfl
  | true =>
    have hsplit := List.take_append_drop less (contents.take more)
    rw [List.take_take, Nat.min_eq_left hle] at hsplit
    have hmore := hlasting _ ((contents.take more).drop less) hless
    rw [hsplit, h] at hmore
    cases hmore

/-- Item by item up to a place, and then to another one. -/
def upTo (before stop : Nat) (position : Nat) : Nat :=
  if position = before then stop - before else 1

theorem readUntil_upTo (hlasting : Lasting enough) {before stop : Nat}
    (hstop : stop ≤ min cap contents.length) (hbefore : before < stop)
    (hchunk : stop ≤ before + chunkSize) (hnot : enough (contents.take before) = false)
    (henough : enough (contents.take stop) = true) {fuel position : Nat}
    (hfuel : cap ≤ position + fuel) (hposition : position ≤ before) :
    readUntil enough cap chunkSize (upTo before stop) contents fuel position = stop := by
  induction fuel generalizing position with
  | zero => omega
  | succ fuel ih =>
    rw [readUntil, if_pos (by omega)]
    rcases Nat.eq_or_lt_of_le hposition with rfl | hlt
    · have hsize : readSize cap chunkSize (upTo position stop) contents position =
          stop - position := by
        unfold readSize upTo
        rw [if_pos rfl]
        omega
      rw [hsize, if_neg (by omega), Nat.add_sub_cancel' (by omega), if_pos henough]
    have hsize : readSize cap chunkSize (upTo before stop) contents position = 1 := by
      unfold readSize upTo
      rw [if_neg (by omega)]
      omega
    rw [hsize, if_neg (by omega), hlasting.take (Nat.succ_le_of_lt hlt) hnot]
    exact ih (by omega) (by omega)

/-- Where reading may stop, it does if the reads fall so. -/
theorem exists_readUntil (hlasting : Lasting enough) (hempty : enough [] = false)
    (hchunk : 0 < chunkSize) {stop : Nat} (hstops : StopsAt enough cap chunkSize contents stop) :
    ∃ chunk, readUntil enough cap chunkSize chunk contents cap 0 = stop := by
  obtain ⟨hstop, ⟨henough, before, hbefore, hwithin, hnot⟩ | ⟨hend, hnot⟩⟩ := hstops
  · exact ⟨upTo before stop, readUntil_upTo hlasting hstop hbefore hwithin hnot henough
      (Nat.le_add_left _ _) (Nat.zero_le _)⟩
  refine ⟨fun _ => 1, ?_⟩
  obtain ⟨hle, ⟨henough, -⟩ | ⟨hend', -⟩⟩ := readUntil_stops hchunk (fun _ => 1)
    (Nat.le_add_left cap 0) (Nat.zero_le (min cap contents.length)) hempty
  · rw [hend] at hnot
    have := hlasting.take hle hnot
    rw [henough] at this
    cases this
  · rw [hend', hend]

end Diri
