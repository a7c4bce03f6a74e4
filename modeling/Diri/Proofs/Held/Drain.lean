/-
Draining is splitting into bytes and markers.

What stands at the front of a buffer is a marker, a byte that begins none, or too little to
tell: the beginning of a marker, which may be all of one but its terminator.  That is a
framing in which nothing is bad, so a stream splits the same however it arrives, and
`drain`, which looks for the next marker from afar, gives the bytes, the last status and
the rest of that splitting (`drain_eq`).
-/
import Diri.Engine.HolderServer
import Diri.Lib.Framing

namespace Diri

open Framing List Option

namespace HolderExitMarker

/-- A byte to display, or a marker, whatever is in it. -/
inductive Token where
  | text (byte : UInt8)
  | marker (payload : List UInt8)

namespace Token

def bytes : Token → List UInt8
  | text byte => [byte]
  | marker payload => markerPrefix ++ payload ++ [terminator]

def shown : Token → List UInt8
  | text byte => [byte]
  | marker _ => []

def status (decode : StatusDecoder) : Token → Option HolderExitStatus
  | text _ => none
  | marker payload => decode payload

end Token

def shown (tokens : List Token) : List UInt8 := tokens.flatMap Token.shown

theorem markerPrefix_pos : 0 < markerPrefix.length := by decide

theorem terminator_not_mem : terminator ∉ markerPrefix := by decide

def lastStatus (decode : StatusDecoder) (tokens : List Token) : Option HolderExitStatus :=
  tokens.foldl (fun last token => (token.status decode).or last) none

/-- Nothing of a marker begins here. -/
def Plain (buffer : List UInt8) : Prop := ¬markerPrefix <+: buffer ∧ ¬buffer <+: markerPrefix

def front (buffer : List UInt8) : Front Empty Token :=
  if markerPrefix <+: buffer then
    match buffer.findIdx? (· = terminator) with
    | none => .short
    | some stop => .frame (.marker ((buffer.take stop).drop markerPrefix.length)) (stop + 1)
  else if buffer <+: markerPrefix then .short
  else
    match buffer with
    | [] => .short
    | byte :: _ => .frame (.text byte) 1

theorem front_plain {byte : UInt8} {rest : List UInt8} (h : Plain (byte :: rest)) :
    front (byte :: rest) = .frame (.text byte) 1 := by
  unfold front
  rw [if_neg h.1, if_neg h.2]

variable {buffer : List UInt8} {stop : Nat} {d : Drained}

theorem front_unfinished (h : markerPrefix <+: buffer)
    (hstop : buffer.findIdx? (· = terminator) = none) : front buffer = .short := by
  unfold front
  rw [if_pos h, hstop]

theorem front_marker (h : markerPrefix <+: buffer)
    (hstop : buffer.findIdx? (· = terminator) = some stop) :
    front buffer = .frame (.marker ((buffer.take stop).drop markerPrefix.length)) (stop + 1) := by
  unfold front
  rw [if_pos h, hstop]

theorem front_beginning (h : buffer <+: markerPrefix)
    (hlength : buffer.length < markerPrefix.length) : front buffer = .short := by
  unfold front
  have hnot : ¬markerPrefix <+: buffer := by
    intro hmarker
    have hle := hmarker.length_le
    omega
  rw [if_neg hnot, if_pos h]

theorem front_frame {token : Token} {length : Nat} (h : front buffer = .frame token length) :
    (markerPrefix <+: buffer ∧ ∃ stop, buffer.findIdx? (· = terminator) = some stop ∧
      token = .marker ((buffer.take stop).drop markerPrefix.length) ∧ length = stop + 1) ∨
    (Plain buffer ∧ ∃ byte rest, buffer = byte :: rest ∧ token = .text byte ∧ length = 1) := by
  by_cases hmarker : markerPrefix <+: buffer
  · left
    refine ⟨hmarker, ?_⟩
    cases hstop : buffer.findIdx? (· = terminator) with
    | none =>
      rw [front_unfinished hmarker hstop] at h
      cases h
    | some stop =>
      rw [front_marker hmarker hstop] at h
      cases h
      exact ⟨stop, rfl, rfl, rfl⟩
  right
  by_cases hbeginning : buffer <+: markerPrefix
  · unfold front at h
    rw [if_neg hmarker, if_pos hbeginning] at h
    cases h
  refine ⟨⟨hmarker, hbeginning⟩, ?_⟩
  cases buffer with
  | nil => exact absurd nil_prefix hbeginning
  | cons byte rest =>
    rw [front_plain ⟨hmarker, hbeginning⟩] at h
    cases h
    exact ⟨byte, rest, rfl, rfl, rfl⟩

theorem Plain.append (h : Plain buffer) (more : List UInt8) : Plain (buffer ++ more) := by
  refine ⟨?_, ?_⟩
  · intro hmarker
    rcases prefix_or_prefix_of_prefix hmarker (prefix_append buffer more) with hp | hp
    · exact h.1 hp
    · exact h.2 hp
  · intro hmarker
    exact h.2 ((prefix_append buffer more).trans hmarker)

theorem findIdx_append (h : buffer.findIdx? (· = terminator) = some stop) (more : List UInt8) :
    (buffer ++ more).findIdx? (· = terminator) = some stop := by
  rw [findIdx?_append, h]
  rfl

theorem findIdx_lt (h : buffer.findIdx? (· = terminator) = some stop) : stop < buffer.length := by
  obtain ⟨hlt, -⟩ := findIdx?_eq_some_iff_getElem.mp h
  exact hlt

/-- The framing of a stream by bytes and markers. -/
def framing : Framing UInt8 Empty Token where
  front := front
  front_nil := front_beginning nil_prefix markerPrefix_pos
  frame_length := by
    intro buffer token length h
    obtain ⟨-, stop, hstop, -, rfl⟩ | ⟨-, byte, rest, rfl, -, rfl⟩ := front_frame h
    · exact ⟨Nat.succ_pos stop, findIdx_lt hstop⟩
    · exact ⟨Nat.one_pos, Nat.succ_le_succ (Nat.zero_le _)⟩
  frame_append := by
    intro buffer token length h more
    obtain ⟨hmarker, stop, hstop, rfl, rfl⟩ | ⟨hplain, byte, rest, rfl, rfl, rfl⟩ := front_frame h
    · have hlt := findIdx_lt hstop
      rw [front_marker (hmarker.trans (prefix_append buffer more)) (findIdx_append hstop more),
        take_append_of_le_length (Nat.le_of_lt hlt)]
    · exact front_plain (hplain.append more)
  bad_append := by
    intro buffer error
    exact error.elim

theorem framing_front (buffer : List UInt8) : framing.front buffer = front buffer := rfl

/-! ### What the searches find -/

theorem find_some {start : Nat} (h : find buffer markerPrefix = some start) :
    markerPrefix <+: buffer.drop start ∧ ∀ i, i < start → ¬markerPrefix <+: buffer.drop i := by
  unfold find at h
  obtain ⟨hfound, -, hfirst⟩ := find?_range_eq_some.mp h
  refine ⟨?_, ?_⟩
  · rw [prefix_iff_eq_take]
    exact (of_decide_eq_true hfound).symm
  · intro i hi hmarker
    have hnot := hfirst i hi
    rw [prefix_iff_eq_take] at hmarker
    simp [← hmarker] at hnot

theorem find_none (h : find buffer markerPrefix = none) (i : Nat) :
    ¬markerPrefix <+: buffer.drop i := by
  intro hmarker
  have hlength := hmarker.length_le
  rw [length_drop] at hlength
  have hpositive := markerPrefix_pos
  unfold find at h
  have hnot := find?_range_eq_none.mp h i (by omega)
  rw [prefix_iff_eq_take] at hmarker
  simp [← hmarker] at hnot

theorem longestSuffix_spec (data : List UInt8) : (longestSuffixOfPrefix data ≤ data.length ∧
      longestSuffixOfPrefix data < markerPrefix.length ∧
      data.drop (data.length - longestSuffixOfPrefix data) =
        markerPrefix.take (longestSuffixOfPrefix data)) ∧
    ∀ length, 1 ≤ length → length ≤ data.length → length < markerPrefix.length →
      data.drop (data.length - length) = markerPrefix.take length →
        length ≤ longestSuffixOfPrefix data := by
  have hpositive := markerPrefix_pos
  unfold longestSuffixOfPrefix
  dsimp only
  cases hfind : (List.range' 1 (min data.length (markerPrefix.length - 1))).reverse.find?
      fun length => data.drop (data.length - length) = markerPrefix.take length with
  | none =>
    refine ⟨⟨Nat.zero_le _, hpositive, by simp⟩, ?_⟩
    intro length hone hdata hmarker hsame
    have hmem : length ∈ (List.range' 1 (min data.length (markerPrefix.length - 1))).reverse := by
      rw [mem_reverse, List.mem_range'_1]
      omega
    have hnot := find?_eq_none.mp hfind length hmem
    simp [hsame] at hnot
  | some keep =>
    obtain ⟨hfound, before, behind, hsplit, hbefore⟩ := find?_eq_some_iff_append.mp hfind
    have hmem : keep ∈ List.range' 1 (min data.length (markerPrefix.length - 1)) := by
      rw [← mem_reverse, hsplit]
      simp
    rw [List.mem_range'_1] at hmem
    refine ⟨⟨by simp only [getD_some]; omega, by simp only [getD_some]; omega,
      of_decide_eq_true hfound⟩, ?_⟩
    intro length hone hdata hmarker hsame
    have hin : length ∈ before ++ keep :: behind := by
      rw [← hsplit, mem_reverse, List.mem_range'_1]
      omega
    -- the lengths are tried from the longest to the shortest
    have hsorted : (before ++ keep :: behind).Pairwise (· > ·) := by
      rw [← hsplit, pairwise_reverse]
      exact pairwise_lt_range'
    obtain hin | hin := mem_append.mp hin
    · have hnot := hbefore length hin
      simp [hsame] at hnot
    obtain rfl | hin := mem_cons.mp hin
    · exact Nat.le_refl _
    · have hgt := (pairwise_cons.mp (pairwise_append.mp hsorted).2.1).1 length hin
      exact Nat.le_of_lt hgt

/-! ### The splitting, by what was found -/

theorem split_plain {n : Nat} (hn : n ≤ buffer.length) (h : ∀ i, i < n → Plain (buffer.drop i)) :
    framing.split buffer = ((buffer.take n).map Token.text ++ (framing.split (buffer.drop n)).1,
        (framing.split (buffer.drop n)).2) := by
  induction n generalizing buffer with
  | zero => simp
  | succ n ih =>
    cases buffer with
    | nil => simp at hn
    | cons byte rest =>
      have hplain : Plain (byte :: rest) := h 0 (Nat.succ_pos n)
      have hrest : ∀ i, i < n → Plain (rest.drop i) := by
        intro i hi
        exact h (i + 1) (Nat.succ_lt_succ hi)
      have hfront : framing.front (byte :: rest) = .frame (.text byte) 1 := by
        rw [framing_front, front_plain hplain]
      rw [split_frame hfront]
      simp only [drop_succ_cons, drop_zero, take_succ_cons, map_cons]
      rw [ih (Nat.le_of_succ_le_succ hn) hrest]
      rfl

theorem plain_before {start : Nat}
    (h : find buffer markerPrefix = some start) {i : Nat} (hi : i < start) :
    Plain (buffer.drop i) := by
  obtain ⟨hfound, hfirst⟩ := find_some h
  refine ⟨hfirst i hi, ?_⟩
  intro hbeginning
  have hlong := hfound.length_le
  have hshort := hbeginning.length_le
  rw [length_drop] at hlong hshort
  have hpositive := markerPrefix_pos
  omega

theorem plain_without (h : find buffer markerPrefix = none) {i : Nat}
    (hi : i < buffer.length - longestSuffixOfPrefix buffer) : Plain (buffer.drop i) := by
  refine ⟨find_none h i, ?_⟩
  intro hbeginning
  have hlength : (buffer.drop i).length = buffer.length - i := length_drop
  have hle := hbeginning.length_le
  have hproper : buffer.length - i < markerPrefix.length := by
    by_contra hwhole
    have hsame := hbeginning.eq_of_length (by omega)
    exact find_none h i (by rw [hsame])
  have hsuffix : buffer.drop (buffer.length - (buffer.length - i)) =
      markerPrefix.take (buffer.length - i) := by
    have hindex : buffer.length - (buffer.length - i) = i := by omega
    rw [hindex, ← hlength]
    exact prefix_iff_eq_take.mp hbeginning
  have hlongest :=
    (longestSuffix_spec buffer).2 (buffer.length - i) (by omega) (by omega) hproper hsuffix
  omega

/-! ### Draining -/

variable {decode : StatusDecoder}

theorem foldl_status (tokens : List Token) (last : Option HolderExitStatus) :
    tokens.foldl (fun last token => (token.status decode).or last) last =
      (lastStatus decode tokens).or last := by
  induction tokens generalizing last with
  | nil => rfl
  | cons token tokens ih =>
    unfold lastStatus
    rw [foldl_cons, foldl_cons, ih, ih, Option.or_assoc, or_none]

theorem lastStatus_append (first second : List Token) : lastStatus decode (first ++ second) =
      (lastStatus decode second).or (lastStatus decode first) := by
  unfold lastStatus
  rw [foldl_append, foldl_status]
  rfl

theorem lastStatus_text (bytes : List UInt8) : lastStatus decode (bytes.map Token.text) = none := by
  induction bytes with
  | nil => rfl
  | cons byte bytes ih => exact ih

@[simp] theorem shown_append (first second : List Token) :
    shown (first ++ second) = shown first ++ shown second := by
  simp [shown]

@[simp] theorem shown_text (bytes : List UInt8) : shown (bytes.map Token.text) = bytes := by
  induction bytes with
  | nil => rfl
  | cons byte bytes ih => exact congrArg (byte :: ·) ih

/-- What draining comes to, by the splitting. -/
def Drained.finished (decode : StatusDecoder) (d : Drained) : Drained where
  output := d.output ++ shown (framing.split d.buffer).1
  exit := (lastStatus decode (framing.split d.buffer).1).or d.exit
  buffer := (framing.split d.buffer).2

/-- Plain bytes that are displayed make no difference to what draining comes to. -/
theorem finished_plain (decode : StatusDecoder) {n : Nat} (hn : n ≤ d.buffer.length)
    (h : ∀ i, i < n → Plain (d.buffer.drop i)) :
    ({ d with
      output := d.output ++ d.buffer.take n
      buffer := d.buffer.drop n } : Drained).finished decode = d.finished decode := by
  unfold Drained.finished
  rw [split_plain hn h, shown_append, shown_text, lastStatus_append, lastStatus_text, or_none]
  simp [append_assoc]

theorem finished_short (decode : StatusDecoder)
    (h : framing.front d.buffer = .short) : d.finished decode = d := by
  unfold Drained.finished
  rw [split_short h]
  simp [shown, lastStatus]

theorem finished_marker (decode : StatusDecoder) (hmarker : markerPrefix <+: d.buffer)
    (hstop : d.buffer.findIdx? (· = terminator) = some stop) : ({ d with
      exit := (decode ((d.buffer.take stop).drop markerPrefix.length)).or d.exit
      buffer := d.buffer.drop (stop + 1) } : Drained).finished decode = d.finished decode := by
  have hfront : framing.front d.buffer =
      .frame (.marker ((d.buffer.take stop).drop markerPrefix.length)) (stop + 1) := by
    rw [framing_front, front_marker hmarker hstop]
  unfold Drained.finished
  rw [split_frame hfront]
  unfold lastStatus
  rw [foldl_cons, foldl_status, foldl_status, or_none]
  simp [shown, Token.shown, Token.status, Option.or_assoc]

theorem drainStep_without (h : find d.buffer markerPrefix = none) :
    drainStep decode d = (true, { d with
      output := d.output ++ d.buffer.take (d.buffer.length - longestSuffixOfPrefix d.buffer)
      buffer := d.buffer.drop (d.buffer.length - longestSuffixOfPrefix d.buffer) }) := by
  simp only [drainStep, h]

theorem drainStep_unfinished (h : find d.buffer markerPrefix = some 0)
    (hstop : d.buffer.findIdx? (· = terminator) = none) : drainStep decode d = (true, d) := by
  simp [drainStep, h, hstop]

theorem drainStep_marker (h : find d.buffer markerPrefix = some 0)
    (hstop : d.buffer.findIdx? (· = terminator) = some stop) : drainStep decode d = (false, { d with
      exit := (decode ((d.buffer.take stop).drop markerPrefix.length)).or d.exit
      buffer := d.buffer.drop (stop + 1) }) := by
  simp [drainStep, h, hstop]

theorem drainStep_before {start : Nat} (h : find d.buffer markerPrefix = some (start + 1)) :
    drainStep decode d = (false, { d with
      output := d.output ++ d.buffer.take (start + 1)
      buffer := d.buffer.drop (start + 1) }) := by
  simp [drainStep, h]

theorem drainStep_last (h : find d.buffer markerPrefix = none) :
    drainStep decode d = (true, d.finished decode) := by
  have hspec := (longestSuffix_spec d.buffer).1
  have hplain := finished_plain decode (d := d)
    (Nat.sub_le d.buffer.length (longestSuffixOfPrefix d.buffer)) fun i hi => plain_without h hi
  have hshort : framing.front
      (d.buffer.drop (d.buffer.length - longestSuffixOfPrefix d.buffer)) = .short := by
    rw [framing_front, hspec.2.2]
    refine front_beginning (List.take_prefix _ _) ?_
    rw [length_take]
    omega
  rw [drainStep_without h, ← hplain, finished_short decode hshort]

/-- One turn of the loop gets nearer to what draining comes to, or is the last one. -/
theorem drainStep_finished (decode : StatusDecoder) (d : Drained) :
    drainStep decode d = (true, d.finished decode) ∨
      ∃ d', drainStep decode d = (false, d') ∧ d'.finished decode = d.finished decode ∧
        d'.buffer.length < d.buffer.length := by
  cases hfind : find d.buffer markerPrefix with
  | none => exact Or.inl (drainStep_last hfind)
  | some start =>
    obtain ⟨hmarker, -⟩ := find_some hfind
    have hpositive := markerPrefix_pos
    have hlong := hmarker.length_le
    rw [length_drop] at hlong
    cases start with
    | zero =>
      rw [drop_zero] at hmarker
      cases hstop : d.buffer.findIdx? (· = terminator) with
      | none =>
        left
        have hshort : framing.front d.buffer = .short := by
          rw [framing_front, front_unfinished hmarker hstop]
        rw [drainStep_unfinished hfind hstop, finished_short decode hshort]
      | some stop =>
        right
        refine ⟨_, drainStep_marker hfind hstop, finished_marker decode hmarker hstop, ?_⟩
        rw [length_drop]
        omega
    | succ start =>
      right
      refine ⟨_, drainStep_before hfind, ?_, ?_⟩
      · exact finished_plain decode (by omega) fun i hi => plain_before hfind hi
      · rw [length_drop]
        omega

theorem drainLoop_finished (decode : StatusDecoder) {fuel : Nat} (h : d.buffer.length < fuel) :
    drainLoop decode fuel d = d.finished decode := by
  induction fuel generalizing d with
  | zero => omega
  | succ fuel ih =>
    unfold drainLoop
    by_cases hempty : d.buffer = []
    · have hshort : framing.front d.buffer = .short := by
        rw [hempty]
        exact framing.front_nil
      rw [if_pos hempty, finished_short decode hshort]
    rw [if_neg hempty]
    obtain hstep | ⟨d', hstep, hsame, hless⟩ := drainStep_finished decode d
    · rw [hstep]
    · rw [hstep, ← hsame]
      exact ih (by omega)

/-- **Draining is splitting.** -/
theorem drain_eq (decode : StatusDecoder) (buffer : List UInt8) : drain decode buffer = {
      output := shown (framing.split buffer).1
      exit := lastStatus decode (framing.split buffer).1
      buffer := (framing.split buffer).2 } := by
  have hloop := drainLoop_finished decode (d := { buffer := buffer })
    (Nat.lt_succ_self buffer.length)
  unfold drain
  rw [hloop]
  unfold Drained.finished
  rw [nil_append, or_none]

/-! ### Where markers stand -/

theorem bytes_of_front {token : Token} {length : Nat}
    (h : framing.front buffer = .frame token length) : token.bytes = buffer.take length := by
  obtain ⟨hmarker, stop, hstop, rfl, rfl⟩ | ⟨-, byte, rest, rfl, rfl, rfl⟩ := front_frame h
  · obtain ⟨hlt, hterminator, -⟩ := findIdx?_eq_some_iff_getElem.mp hstop
    have hlast : buffer[stop] = terminator := of_decide_eq_true hterminator
    -- the terminator does not occur in the marker's beginning
    have hlong : markerPrefix.length ≤ stop := by
      by_contra hshort
      obtain ⟨rest, rfl⟩ := hmarker
      rw [getElem_append_left (by omega)] at hlast
      exact terminator_not_mem (hlast ▸ getElem_mem _)
    have hbeginning : (buffer.take stop).take markerPrefix.length = markerPrefix := by
      rw [take_take, Nat.min_eq_left hlong]
      exact (prefix_iff_eq_take.mp hmarker).symm
    rw [take_add_one, getElem?_eq_getElem hlt, hlast]
    conv_rhs => rw [← take_append_drop markerPrefix.length (buffer.take stop), hbeginning]
    rfl
  · rfl

theorem bytes_split (buffer : List UInt8) :
    (framing.split buffer).1.flatMap Token.bytes ++ (framing.split buffer).2 = buffer :=
  flatMap_split framing Token.bytes bytes_of_front buffer

/-- The chunks go into one buffer, which is drained after each of them. -/
def drainAll (decode : StatusDecoder) (chunks : List (List UInt8)) : Drained :=
  chunks.foldl (fun d chunk =>
    let drained := drain decode (d.buffer ++ chunk)
    { output := d.output ++ drained.output
      exit := drained.exit.or d.exit
      buffer := drained.buffer }) { buffer := [] }

theorem drainAll_eq (decode : StatusDecoder) (chunks : List (List UInt8)) :
    drainAll decode chunks = drain decode chunks.flatten := by
  induction chunks using reverseRecOn with
  | nil => rfl
  | append_singleton chunks chunk ih =>
    unfold drainAll at ih ⊢
    rw [foldl_concat, ih, flatten_concat]
    simp only [drain_eq, Framing.split_append framing chunks.flatten chunk, shown_append,
      lastStatus_append]

/-- What is left of a stream when each marker that is complete is taken out. -/
inductive Stripped : List UInt8 → List UInt8 → Prop
  | whole {stream : List UInt8}
      (h : ∀ i, markerPrefix <+: stream.drop i → terminator ∉ stream.drop i) :
      Stripped stream stream
  | marker {before payload rest left : List UInt8}
      (hfirst : ∀ i, i < before.length →
        ¬markerPrefix <+: (before ++ (markerPrefix ++ payload ++ terminator :: rest)).drop i)
      (hpayload : terminator ∉ payload) (hrest : Stripped rest left) :
      Stripped (before ++ (markerPrefix ++ payload ++ terminator :: rest)) (before ++ left)

theorem Stripped.cons {byte : UInt8} {rest left : List UInt8} (h : Stripped rest left)
    (hplain : ¬markerPrefix <+: byte :: rest) : Stripped (byte :: rest) (byte :: left) := by
  cases h with
  | whole h =>
    refine .whole ?_
    rintro (_ | i) hi
    · exact absurd hi hplain
    · exact h i hi
  | @marker before payload rest left hfirst hpayload hrest =>
    refine @Stripped.marker (byte :: before) _ _ _ ?_ hpayload hrest
    rintro (_ | i) hi
    · exact hplain
    · exact hfirst i (Nat.lt_of_succ_lt_succ hi)

theorem front_short (h : front buffer = .short) : (markerPrefix <+: buffer ∧ terminator ∉ buffer) ∨
    (¬markerPrefix <+: buffer ∧ buffer <+: markerPrefix) := by
  unfold front at h
  split at h
  · next hmarker =>
    split at h
    · next hstop =>
      refine .inl ⟨hmarker, fun hmem => ?_⟩
      simpa using findIdx?_eq_none_iff.mp hstop _ hmem
    · cases h
  next hmarker =>
  split at h
  · next hbeginning => exact .inr ⟨hmarker, hbeginning⟩
  split at h
  · exact .inr ⟨hmarker, nil_prefix⟩
  · cases h

theorem stripped_split (stream : List UInt8) :
    Stripped stream (shown (framing.split stream).1 ++ (framing.split stream).2) := by
  induction stream using framing.scan_induction with
  | bad _ error _ => exact error.elim
  | short buffer hfront =>
    rw [split_short hfront]
    refine .whole fun i hi => ?_
    rcases front_short hfront with ⟨-, hnone⟩ | ⟨hmarker, hbeginning⟩
    · exact fun hmem => hnone (mem_of_mem_drop hmem)
    have hlong := hi.length_le
    have hshort := hbeginning.length_le
    have hpositive := markerPrefix_pos
    rw [length_drop] at hlong
    obtain rfl : i = 0 := by omega
    exact absurd hi hmarker
  | frame buffer token length hfront ih =>
    rw [split_frame hfront]
    have hbytes := bytes_of_front hfront
    rcases front_frame hfront with ⟨-, stop, hstop, rfl, rfl⟩ | ⟨hplain, byte, rest, rfl, rfl, rfl⟩
    · have hpayload : terminator ∉ (buffer.take stop).drop markerPrefix.length := by
        intro hmem
        obtain ⟨i, hi, hlt⟩ := mem_take_iff_getElem.mp (mem_of_mem_drop hmem)
        have hbefore := (findIdx?_eq_some_iff_getElem.mp hstop).2.2 i (by omega)
        simp [hlt] at hbefore
      have hsplit : buffer = [] ++ (markerPrefix ++ (buffer.take stop).drop markerPrefix.length ++
          terminator :: buffer.drop (stop + 1)) := by
        conv_lhs => rw [← take_append_drop (stop + 1) buffer, ← hbytes]
        simp [Token.bytes]
      have hmarker := @Stripped.marker [] _ _ _ (fun _ hi => by cases hi) hpayload ih
      rwa [← hsplit] at hmarker
    · exact ih.cons hplain.1

/-- Bytes without a marker's beginning are displayed, but for an end that may become one. -/
theorem split_unmarked (h : ∀ i, ¬markerPrefix <+: buffer.drop i) :
    ∃ bytes held, buffer = bytes ++ held ∧ held <+: markerPrefix ∧
      held.length < markerPrefix.length ∧ framing.split buffer = (bytes.map .text, held) := by
  have hfind : find buffer markerPrefix = none := by
    cases hfound : find buffer markerPrefix with
    | none => rfl
    | some start => exact absurd (find_some hfound).1 (h start)
  obtain ⟨hle, hlt, hdrop⟩ := (longestSuffix_spec buffer).1
  have hheld : (markerPrefix.take (longestSuffixOfPrefix buffer)).length < markerPrefix.length := by
    rw [length_take]
    omega
  refine ⟨buffer.take (buffer.length - longestSuffixOfPrefix buffer),
    markerPrefix.take (longestSuffixOfPrefix buffer), ?_, take_prefix _ _, hheld, ?_⟩
  · rw [← hdrop, take_append_drop]
  · rw [split_plain (Nat.sub_le _ _) fun i hi => plain_without hfind hi, hdrop,
      split_short (front_beginning (List.take_prefix _ _) hheld), append_nil]

/-- The beginning of a marker does not begin a marker within it, nor in what is before it. -/
theorem plain_of_unmarked {before rest : List UInt8}
    (h : ∀ i, ¬markerPrefix <+: before.drop i) {i : Nat} (hi : i < before.length) :
    Plain ((before ++ (markerPrefix ++ rest)).drop i) := by
  rw [drop_append_of_le_length (Nat.le_of_lt hi)]
  have hpositive : 0 < (before.drop i).length := by
    rw [length_drop]
    omega
  refine ⟨fun hmarker => ?_, fun hbeginning => ?_⟩
  · rcases Nat.lt_or_ge (before.drop i).length markerPrefix.length with hlt | hge
    · obtain ⟨more, hmore⟩ := hmarker
      have hsame := congrArg (·[(before.drop i).length]?) hmore
      simp only [getElem?_append_left hlt, getElem?_append_right (Nat.le_refl _),
        Nat.sub_self] at hsame
      have honce : ∀ k < markerPrefix.length, 0 < k → markerPrefix[k]? ≠ some 0x1b := by decide
      exact honce _ hlt hpositive hsame
    · exact h i (prefix_of_prefix_length_le hmarker (prefix_append _ _) hge)
  · have hlong := hbeginning.length_le
    simp only [length_append] at hlong
    omega

theorem front_written {payload : List UInt8} (h : terminator ∉ payload) (after : List UInt8) :
    framing.front (markerPrefix ++ (payload ++ terminator :: after)) =
      .frame (.marker payload) (markerPrefix.length + payload.length + 1) := by
  have hstop : (markerPrefix ++ (payload ++ terminator :: after)).findIdx? (· = terminator) =
      some (markerPrefix.length + payload.length) := by
    have hnone : payload.findIdx? (· = terminator) = none := by
      refine findIdx?_eq_none_iff.mpr fun byte hbyte => decide_eq_false ?_
      rintro rfl
      exact h hbyte
    have hprefix : markerPrefix.findIdx? (· = terminator) = none := by decide
    rw [findIdx?_append, findIdx?_append, hprefix, hnone, findIdx?_cons]
    simp [Nat.add_comm]
  rw [framing_front, front_marker (prefix_append _ _) hstop, ← append_assoc,
    take_left' length_append, drop_left]

/--
**Where the stream is cut makes no difference to draining, and draining undoes encoding.**
The output and what stays buffered are the stream without its complete markers; between
bytes that hold no marker's beginning an encoded status is found, and the bytes are left,
the last of them in the buffer if they may begin a marker.
-/
theorem drain_however_cut (decode : StatusDecoder) (encoder : StatusEncoder) :
    (∀ chunks, drainAll decode chunks = drain decode chunks.flatten) ∧
    (∀ stream, Stripped stream ((drain decode stream).output ++ (drain decode stream).buffer)) ∧
    ∀ status payload before after, encoder status = some payload → decode payload = some status →
      terminator ∉ payload → (∀ i, ¬markerPrefix <+: before.drop i) →
      (∀ i, ¬markerPrefix <+: after.drop i) →
      ∃ bytes held, after = bytes ++ held ∧ held <+: markerPrefix ∧
        held.length < markerPrefix.length ∧
        drain decode (before ++ encode encoder status ++ after) =
          { output := before ++ bytes, exit := some status, buffer := held } := by
  refine ⟨drainAll_eq decode, fun stream => ?_, ?_⟩
  · rw [drain_eq]
    exact stripped_split stream
  intro status payload before after hencode hdecode hpayload hbefore hafter
  obtain ⟨bytes, held, hparts, hheld, hshort, hsplit⟩ := split_unmarked hafter
  have hstream : before ++ encode encoder status ++ after =
      before ++ (markerPrefix ++ (payload ++ (terminator :: after))) := by
    simp [encode, hencode]
  refine ⟨bytes, held, hparts, hheld, hshort, ?_⟩
  rw [hstream, drain_eq, split_plain (n := before.length) (by simp) fun i hi => plain_of_unmarked
    hbefore hi, take_left, drop_left, split_frame (front_written hpayload after)]
  have hlength : markerPrefix.length + payload.length = (markerPrefix ++ payload).length :=
    length_append.symm
  have hrest : (markerPrefix ++ (payload ++ terminator :: after)).drop
      (markerPrefix.length + payload.length + 1) = after := by
    rw [← append_assoc, hlength, drop_add_one_eq_tail_drop, drop_left]
    rfl
  have hfound : lastStatus decode (.marker payload :: bytes.map .text) = some status := by
    unfold lastStatus
    rw [foldl_cons, foldl_status, lastStatus_text]
    simp [Token.status, hdecode]
  rw [hrest, hsplit, shown_append, shown_text, lastStatus_append, hfound]
  show Drained.mk (before ++ shown (bytes.map .text)) _ _ = _
  rw [shown_text]
  rfl

end HolderExitMarker

end Diri
