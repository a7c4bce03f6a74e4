/-
What the screen of a held session is fed, and whose exit a run takes for its own.

The stream is split at exit markers from the origin of the screen on, and anew at every
floor a run read up to: there what had begun as a marker is given up.  What the screen was
fed is the rest of that splitting (`stripped`), however the stream came in chunks and
wherever runs left and resumed, since a checkpoint holds the marker that had begun.

The status of a run is the last one in the splitting from its floor on, or from where it
began if that is beyond.  Only a run that resumes beyond its floor may split from below,
with the marker that had begun there; if no marker lies across the floor that one does not
end, and so is not taken for a marker of this run.
-/
import Diri.Engine.HeldPump
import Diri.Proofs.Held.Drain

namespace Diri

open HolderExitMarker List

/-- Bytes and markers of the stream between two positions, and what is unfinished. -/
def splitBetween (S : Nat → UInt8) (start stop : Nat) : List Token × List UInt8 :=
  framing.split (slice S start (stop - start))

/-- The stream without its markers, split from `origin` on and anew at each cut. -/
def stripped (S : Nat → UInt8) (origin : Nat) : (cuts : List Nat) → (stop : Nat) → List UInt8
  | [], stop => HolderExitMarker.shown (splitBetween S origin stop).1
  | cut :: cuts, stop =>
    stripped S origin cuts cut ++ HolderExitMarker.shown (splitBetween S cut stop).1

/-- The marker with a payload stands at a position. -/
def MarkerAt (S : Nat → UInt8) (p : Nat) (payload : List UInt8) : Prop :=
  slice S p (Token.marker payload).bytes.length = (Token.marker payload).bytes

variable {S : Nat → UInt8}

theorem MarkerAt.begins {p : Nat} {payload : List UInt8} (h : MarkerAt S p payload) :
    slice S p markerPrefix.length = markerPrefix := by
  have htake := congrArg (List.take markerPrefix.length) h
  have hle : markerPrefix.length ≤ (Token.marker payload).bytes.length := by
    simp only [Token.bytes, length_append]
    omega
  rw [take_slice S p hle] at htake
  rw [htake]
  simp only [Token.bytes, append_assoc, take_left]

theorem MarkerAt.ends {p : Nat} {payload : List UInt8} (h : MarkerAt S p payload) :
    ∃ q, p ≤ q ∧ S q = terminator := by
  refine ⟨p + (markerPrefix ++ payload).length, Nat.le_add_right _ _, ?_⟩
  have hlast := congrArg (fun bytes => bytes[(markerPrefix ++ payload).length]?) h
  simpa [Token.bytes, slice] using hlast

/-! ### Splitting a stream further -/

theorem splitBetween_of_le {start stop : Nat} (h : stop ≤ start) :
    splitBetween S start stop = ([], []) := by
  unfold splitBetween
  rw [Nat.sub_eq_zero_of_le h, slice_zero]
  exact Framing.split_short framing.front_nil

theorem splitBetween_further {start stop : Nat} (h : start ≤ stop) (n : Nat) :
    splitBetween S start (stop + n) = ((splitBetween S start stop).1 ++
          (framing.split ((splitBetween S start stop).2 ++ slice S stop n)).1,
        (framing.split ((splitBetween S start stop).2 ++ slice S stop n)).2) := by
  unfold splitBetween
  have hslice : slice S start (stop + n - start) =
      slice S start (stop - start) ++ slice S stop n := by
    have hstop : slice S stop n = slice S (start + (stop - start)) n := by
      rw [Nat.add_sub_cancel' h]
    rw [hstop, slice_append]
    congr 1
    omega
  rw [hslice, Framing.split_append]

theorem splitBetween_rest {start stop : Nat} (h : start ≤ stop) :
    (splitBetween S start stop).2.length ≤ stop - start ∧ (splitBetween S start stop).2 =
        slice S (stop - (splitBetween S start stop).2.length)
          (splitBetween S start stop).2.length := by
  have hbytes := bytes_split (slice S start (stop - start))
  have hlength := congrArg List.length hbytes
  rw [length_append, length_slice] at hlength
  have hdrop := congrArg
    (List.drop ((splitBetween S start stop).1.flatMap Token.bytes).length) hbytes
  unfold splitBetween at hdrop ⊢
  rw [drop_left, drop_slice] at hdrop
  refine ⟨by omega, hdrop.trans ?_⟩
  congr 1 <;> omega

theorem not_terminator_of_short {buffer : List UInt8} (h : framing.front buffer = .short)
    {byte : UInt8} (hmem : byte ∈ buffer) : byte ≠ terminator := by
  intro hbyte
  rw [framing_front] at h
  by_cases hmarker : markerPrefix <+: buffer
  · cases hstop : buffer.findIdx? (· = terminator) with
    | none =>
      have hnone := findIdx?_eq_none_iff.mp hstop byte hmem
      simp [hbyte] at hnone
    | some stop =>
      rw [front_marker hmarker hstop] at h
      cases h
  by_cases hbeginning : buffer <+: markerPrefix
  · exact terminator_not_mem (hbyte ▸ hbeginning.subset hmem)
  cases buffer with
  | nil => cases hmem
  | cons first rest =>
    rw [front_plain ⟨hmarker, hbeginning⟩] at h
    cases h

/-- Where the splitting begins that is still going on. -/
def Trace.segment (trace : Trace) : Nat := trace.cuts.headD trace.origin

/-- A screen that was fed up to an offset, with a marker begun. -/
structure Traced (S : Nat → UInt8) (floors : List Nat) (offset : Nat) (buffer : List UInt8)
    (trace : Trace) : Prop where
  fed : trace.fed = stripped S trace.origin trace.cuts offset
  rest : (splitBetween S trace.segment offset).2 = buffer
  segment_le : trace.segment ≤ offset
  descending : (trace.cuts ++ [trace.origin]).Pairwise (· > ·)
  mem : ∀ cut ∈ trace.cuts, cut ∈ floors
  /-- Where there is one floor only, the cut is there, once it is reached. -/
  only : ∀ floor, (∀ f ∈ floors, f = floor) →
    trace.cuts = if trace.origin < floor ∧ floor ≤ offset then [floor] else []

theorem Traced.fresh (floors : List Nat) (offset : Nat) :
    Traced S floors offset [] { origin := offset } := by
  refine ⟨?_, ?_, Nat.le_refl _, pairwise_singleton _ _, ?_, ?_⟩
  · show [] = HolderExitMarker.shown (splitBetween S offset offset).1
    rw [splitBetween_of_le (Nat.le_refl _)]
    rfl
  · show (splitBetween S offset offset).2 = []
    rw [splitBetween_of_le (Nat.le_refl _)]
  · intro cut hcut
    cases hcut
  · intro floor _
    rw [if_neg (by simp only; omega)]

variable {floors : List Nat} {offset floor : Nat} {buffer : List UInt8} {trace : Trace}

section
variable (h : Traced S floors offset buffer trace)
include h

theorem Traced.front_buffer : framing.front buffer = .short := by
  rw [← h.rest]
  exact Framing.front_split framing _

theorem Traced.buffer_eq :
    buffer.length ≤ offset ∧ buffer = slice S (offset - buffer.length) buffer.length := by
  obtain ⟨hlength, hbuffer⟩ := splitBetween_rest (S := S) h.segment_le
  rw [h.rest] at hlength hbuffer
  exact ⟨by omega, hbuffer⟩

theorem Traced.split_buffer : splitBetween S (offset - buffer.length) offset = ([], buffer) := by
  obtain ⟨hlength, hbuffer⟩ := h.buffer_eq
  have hcount : offset - (offset - buffer.length) = buffer.length := by omega
  unfold splitBetween
  rw [hcount, ← hbuffer]
  exact Framing.split_short h.front_buffer

theorem Traced.not_terminator {q : Nat}
    (hfrom : offset - buffer.length ≤ q) (hbelow : q < offset) : S q ≠ terminator := by
  obtain ⟨hlength, hbuffer⟩ := h.buffer_eq
  refine not_terminator_of_short h.front_buffer ?_
  rw [hbuffer]
  refine mem_map_of_mem ?_
  rw [List.mem_range'_1]
  omega

theorem Traced.stripped_further (n : Nat) : stripped S trace.origin trace.cuts (offset + n) =
      trace.fed ++ HolderExitMarker.shown (framing.split (buffer ++ slice S offset n)).1 := by
  have hle := h.segment_le
  rw [h.fed, ← h.rest]
  unfold Trace.segment at hle ⊢
  cases hcuts : trace.cuts with
  | nil =>
    rw [hcuts, headD_nil] at hle
    show HolderExitMarker.shown (splitBetween S trace.origin (offset + n)).1 = _
    rw [splitBetween_further hle, shown_append]
    rfl
  | cons cut cuts =>
    rw [hcuts, headD_cons] at hle
    show _ ++ HolderExitMarker.shown (splitBetween S cut (offset + n)).1 = _
    rw [splitBetween_further hle, shown_append, ← append_assoc]
    rfl

theorem Traced.further {n : Nat}
    (hfloor : floor ∈ floors) (hside : floor ≤ offset ∨ offset + n < floor) :
    Traced S floors (offset + n) (framing.split (buffer ++ slice S offset n)).2 { trace with
        fed := trace.fed ++
          HolderExitMarker.shown (framing.split (buffer ++ slice S offset n)).1 } := by
  refine ⟨(h.stripped_further n).symm, ?_, Nat.le_add_right_of_le h.segment_le, h.descending,
    h.mem, ?_⟩
  · show (splitBetween S trace.segment (offset + n)).2 = _
    rw [splitBetween_further h.segment_le, h.rest]
  intro one hone
  obtain rfl := hone floor hfloor
  have hcuts := h.only floor hone
  simp only at hcuts ⊢
  rw [hcuts]
  by_cases hbehind : floor ≤ offset
  · simp only [hbehind, Nat.le_add_right_of_le hbehind]
  · have hbefore : ¬floor ≤ offset + n := by omega
    simp only [hbehind, hbefore]

theorem Traced.cut {n : Nat} (hfloor : offset + n ∈ floors) (hn : 0 < n) :
    Traced S floors (offset + n) []
      { trace with
        cuts := (offset + n) :: trace.cuts
        fed := trace.fed ++
          HolderExitMarker.shown (framing.split (buffer ++ slice S offset n)).1 } := by
  have hsegment := h.segment_le
  refine ⟨?_, ?_, Nat.le_refl _, ?_, ?_, ?_⟩
  · show _ = stripped S trace.origin trace.cuts (offset + n) ++
      HolderExitMarker.shown (splitBetween S (offset + n) (offset + n)).1
    rw [splitBetween_of_le (Nat.le_refl _), h.stripped_further]
    exact (append_nil _).symm
  · show (splitBetween S (offset + n) (offset + n)).2 = []
    rw [splitBetween_of_le (Nat.le_refl _)]
  · refine pairwise_cons.mpr ⟨?_, h.descending⟩
    intro earlier hearlier
    have hle : earlier ≤ trace.segment := by
      have hdescending := h.descending
      unfold Trace.segment
      cases hcuts : trace.cuts with
      | nil =>
        rw [hcuts] at hearlier
        exact Nat.le_of_eq (mem_singleton.mp hearlier)
      | cons cut cuts =>
        rw [hcuts] at hearlier hdescending
        obtain rfl | hbehind := mem_cons.mp hearlier
        · exact Nat.le_refl _
        · exact Nat.le_of_lt ((pairwise_cons.mp hdescending).1 earlier hbehind)
    omega
  · intro cut hcut
    obtain rfl | hearlier := mem_cons.mp hcut
    · exact hfloor
    · exact h.mem cut hearlier
  intro one hone
  obtain rfl := hone _ hfloor
  have hcuts := h.only _ hone
  have hahead : ¬offset + n ≤ offset := by omega
  simp only [hahead, and_false, if_false] at hcuts
  have horigin : trace.origin < offset + n := by
    unfold Trace.segment at hsegment
    rw [hcuts] at hsegment
    exact Nat.lt_of_le_of_lt hsegment (by omega)
  simp only [hcuts, horigin, Nat.le_refl, and_self, if_true]

end

/-! ### What a chunk does -/

namespace HeldPump

variable {σ : Type} {decode : StatusDecoder} {emulator : Emulator σ} {pump : HeldPump σ}
  {chunk : List UInt8}

theorem takeChunk_stale (hchunk : chunk ≠ [])
    (hstop : pump.offset + chunk.length < pump.exitMarkerFloor) :
    pump.takeChunk decode pump.offset chunk =
      (HolderExitMarker.shown (framing.split (pump.markerBuffer ++ chunk)).1, { pump with
        offset := pump.offset + chunk.length
        markerBuffer := (framing.split (pump.markerBuffer ++ chunk)).2 }) := by
  have hpositive := length_pos_of_ne_nil hchunk
  have hmin : min (pump.exitMarkerFloor - pump.offset) chunk.length = chunk.length := by omega
  have hbefore : ¬pump.offset + chunk.length ≥ pump.exitMarkerFloor := by omega
  simp [takeChunk, drainStale, hmin, hpositive, hbefore, drain_eq]

theorem takeChunk_live (hchunk : chunk ≠ []) (hfloor : pump.exitMarkerFloor ≤ pump.offset) :
    pump.takeChunk decode pump.offset chunk =
      (HolderExitMarker.shown (framing.split (pump.markerBuffer ++ chunk)).1, { pump with
        offset := pump.offset + chunk.length
        markerBuffer := (framing.split (pump.markerBuffer ++ chunk)).2
        exitStatus := (lastStatus decode (framing.split (pump.markerBuffer ++ chunk)).1).or
          pump.exitStatus }) := by
  have hpositive := length_pos_of_ne_nil hchunk
  have hmin : min (pump.exitMarkerFloor - pump.offset) chunk.length = 0 := by omega
  simp [takeChunk, drainLive, hmin, hpositive, drain_eq]

/-- A chunk that reaches the floor: what is before it, and then what is behind it. -/
theorem takeChunk_crossing {n : Nat} (hn : 0 < n) (hle : n ≤ chunk.length)
    (hfloor : pump.exitMarkerFloor = pump.offset + n) : pump.takeChunk decode pump.offset chunk =
      (HolderExitMarker.shown (framing.split (pump.markerBuffer ++ chunk.take n)).1 ++
          HolderExitMarker.shown (framing.split (chunk.drop n)).1, { pump with
        offset := pump.offset + chunk.length
        markerBuffer := (framing.split (chunk.drop n)).2
        exitStatus := (lastStatus decode (framing.split (chunk.drop n)).1).or pump.exitStatus
        trace := { pump.trace with cuts := (pump.offset + n) :: pump.trace.cuts } }) := by
  have hmin : min (pump.exitMarkerFloor - pump.offset) chunk.length = n := by omega
  have hstop : pump.offset + n ≥ pump.exitMarkerFloor := by omega
  by_cases hmore : n < chunk.length
  · simp [takeChunk, drainStale, drainLive, hmin, hn, hstop, hmore, drain_eq]
  have hnil : chunk.drop n = [] := drop_eq_nil_of_le (by omega)
  have hsplit : framing.split ([] : List UInt8) = ([], []) :=
    Framing.split_short framing.front_nil
  simp [takeChunk, drainStale, hmin, hn, hstop, hmore, drain_eq, hnil, hsplit,
    HolderExitMarker.shown, lastStatus]

theorem feed_eq (output : List UInt8) (now : SystemTime) :
    ∃ dirty watch, pump.feed emulator output now = { pump with
      dirty := dirty
      watch := watch
      trace := { pump.trace with fed := pump.trace.fed ++ output } } := by
  unfold feed
  by_cases hempty : output = []
  · rw [if_pos hempty, hempty, append_nil]
    exact ⟨_, _, rfl⟩
  · rw [if_neg hempty]
    exact ⟨_, _, rfl⟩

/-! ### What a run keeps -/

/-- What is known of a pump: its screen and the one on disk, and the run's own status. -/
structure Sound (decode : StatusDecoder) (S : Nat → UInt8) (floors : List Nat)
    (pump : HeldPump σ) : Prop where
  floor_mem : pump.exitMarkerFloor ∈ floors
  traced : Traced S floors pump.offset pump.markerBuffer pump.trace
  stored : ∀ checkpoint ∈ pump.checkpoint,
    Traced S floors checkpoint.logOffset checkpoint.markerBuffer checkpoint.trace
  status : pump.exitStatus = lastStatus decode (splitBetween S pump.honored pump.offset).1
  before : pump.offset < pump.exitMarkerFloor → pump.honored = pump.exitMarkerFloor
  behind : pump.exitMarkerFloor ≤ pump.offset → pump.honored ≤ pump.offset ∧
    (splitBetween S pump.honored pump.offset).2 = pump.markerBuffer
  /-- What had begun below the floor had not ended there. -/
  below : ∀ q, pump.honored ≤ q → q < pump.exitMarkerFloor → S q ≠ terminator

variable {S : Nat → UInt8} {floors : List Nat}

section
variable (h : Sound decode S floors pump)
include h

theorem Sound.exitStatus_before
    (hbefore : pump.offset < pump.exitMarkerFloor) : pump.exitStatus = none := by
  have hhonored := h.before hbefore
  rw [h.status, splitBetween_of_le (by omega)]
  rfl

theorem Sound.stale (hchunk : chunk ≠ []) (hslice : chunk = slice S pump.offset chunk.length)
    (hstop : pump.offset + chunk.length < pump.exitMarkerFloor) (now : SystemTime) :
    Sound decode S floors ((pump.takeChunk decode pump.offset chunk).2.feed emulator
      (pump.takeChunk decode pump.offset chunk).1 now) := by
  have hhonored := h.before (by omega)
  have hnone := h.exitStatus_before (by omega)
  have htraced := h.traced.further h.floor_mem (Or.inr hstop)
  rw [← hslice] at htraced
  rw [takeChunk_stale hchunk hstop]
  obtain ⟨dirty, watch, hfeed⟩ := feed_eq _ now
  rw [hfeed]
  refine ⟨h.floor_mem, htraced, h.stored, ?_, fun _ => hhonored, ?_, h.below⟩
  · show pump.exitStatus =
      lastStatus decode (splitBetween S pump.honored (pump.offset + chunk.length)).1
    rw [hnone, splitBetween_of_le (by omega)]
    rfl
  · intro hfloor
    simp only at hfloor
    omega

theorem Sound.live (hchunk : chunk ≠ []) (hslice : chunk = slice S pump.offset chunk.length)
    (hfloor : pump.exitMarkerFloor ≤ pump.offset) (now : SystemTime) :
    Sound decode S floors ((pump.takeChunk decode pump.offset chunk).2.feed emulator
      (pump.takeChunk decode pump.offset chunk).1 now) := by
  obtain ⟨hhonored, hbuffer⟩ := h.behind hfloor
  have hsplit := splitBetween_further (S := S) hhonored chunk.length
  rw [hbuffer, ← hslice] at hsplit
  have htraced := h.traced.further (n := chunk.length) h.floor_mem (Or.inl hfloor)
  rw [← hslice] at htraced
  rw [takeChunk_live hchunk hfloor]
  obtain ⟨dirty, watch, hfeed⟩ := feed_eq _ now
  rw [hfeed]
  refine ⟨h.floor_mem, htraced, h.stored, ?_, ?_, ?_, h.below⟩
  · show (lastStatus decode (framing.split (pump.markerBuffer ++ chunk)).1).or pump.exitStatus =
      lastStatus decode (splitBetween S pump.honored (pump.offset + chunk.length)).1
    rw [hsplit, lastStatus_append, h.status]
  · intro hbefore
    simp only at hbefore
    omega
  · intro _
    refine ⟨Nat.le_add_right_of_le hhonored, ?_⟩
    show (splitBetween S pump.honored (pump.offset + chunk.length)).2 = _
    rw [hsplit]

theorem Sound.crossing (hslice : chunk = slice S pump.offset chunk.length)
    (hbefore : pump.offset < pump.exitMarkerFloor)
    (hstop : pump.exitMarkerFloor ≤ pump.offset + chunk.length) (now : SystemTime) :
    Sound decode S floors ((pump.takeChunk decode pump.offset chunk).2.feed emulator
      (pump.takeChunk decode pump.offset chunk).1 now) := by
  have hhonored := h.before hbefore
  have hnone := h.exitStatus_before hbefore
  obtain ⟨n, hn⟩ := Nat.exists_eq_add_of_lt hbefore
  have hfloor : pump.exitMarkerFloor = pump.offset + (n + 1) := by omega
  have hle : n + 1 ≤ chunk.length := by omega
  have htake : chunk.take (n + 1) = slice S pump.offset (n + 1) := by
    rw [hslice, take_slice S _ hle]
  have hdrop : chunk.drop (n + 1) = slice S (pump.offset + (n + 1)) (chunk.length - (n + 1)) := by
    conv_lhs => rw [hslice, drop_slice]
  have hsplit : splitBetween S pump.exitMarkerFloor (pump.offset + chunk.length) =
      framing.split (chunk.drop (n + 1)) := by
    unfold splitBetween
    rw [hdrop, hfloor]
    congr 2
    omega
  have hcut := h.traced.cut (hfloor ▸ h.floor_mem) (Nat.succ_pos n)
  have htraced := hcut.further (n := chunk.length - (n + 1)) (hfloor ▸ h.floor_mem)
    (Or.inl (Nat.le_refl _))
  rw [nil_append, ← hdrop, ← htake] at htraced
  have hoffset : pump.offset + (n + 1) + (chunk.length - (n + 1)) = pump.offset + chunk.length := by
    omega
  rw [hoffset, append_assoc] at htraced
  rw [takeChunk_crossing (Nat.succ_pos n) hle hfloor]
  obtain ⟨dirty, watch, hfeed⟩ := feed_eq _ now
  rw [hfeed]
  refine ⟨h.floor_mem, htraced, h.stored, ?_, fun _ => hhonored, ?_, h.below⟩
  · show (lastStatus decode (framing.split (chunk.drop (n + 1))).1).or pump.exitStatus =
      lastStatus decode (splitBetween S pump.honored (pump.offset + chunk.length)).1
    rw [hhonored, hsplit, hnone, Option.or_none]
  intro _
  refine ⟨?_, ?_⟩
  · show pump.honored ≤ pump.offset + chunk.length
    omega
  · show (splitBetween S pump.honored (pump.offset + chunk.length)).2 = _
    rw [hhonored, hsplit]

/-- What stays the same keeps what is known; the checkpoint may be the present one. -/
theorem Sound.persistCheckpoint (written : Bool) :
    Sound decode S floors (pump.persistCheckpoint written) := by
  unfold HeldPump.persistCheckpoint
  by_cases hwritten : written
  · rw [if_pos hwritten]
    refine ⟨h.floor_mem, h.traced, ?_, h.status, h.before, h.behind, h.below⟩
    intro checkpoint hcheckpoint
    obtain ⟨⟩ := hcheckpoint
    exact h.traced
  · rw [if_neg hwritten]
    exact h

theorem Sound.quiet (settled written : Bool) (now : SystemTime) :
    Sound decode S floors (pump.quiet settled written now) := by
  unfold HeldPump.quiet
  by_cases hpersist : pump.dirty ∧ (pump.watch.replaying ∨ settled)
  · have hsound := h.persistCheckpoint written
    simp only [if_pos hpersist]
    exact ⟨hsound.floor_mem, hsound.traced, hsound.stored, hsound.status, hsound.before,
      hsound.behind, hsound.below⟩
  · simp only [if_neg hpersist]
    exact ⟨h.floor_mem, h.traced, h.stored, h.status, h.before, h.behind, h.below⟩

theorem Sound.read (hslice : chunk = slice S pump.offset chunk.length) (settled written : Bool)
    (now : SystemTime) :
    Sound decode S floors (pump.read decode emulator pump.offset chunk settled written now) := by
  unfold HeldPump.read
  by_cases hchunk : chunk = []
  · rw [if_pos hchunk]
    exact h.quiet settled written now
  rw [if_neg hchunk]
  by_cases hfloor : pump.exitMarkerFloor ≤ pump.offset
  · exact h.live hchunk hslice hfloor now
  by_cases hstop : pump.offset + chunk.length < pump.exitMarkerFloor
  · exact h.stale hchunk hslice hstop now
  · exact h.crossing hslice (by omega) (by omega) now

end

/-! ### How a run begins -/

variable (start : HeldStart σ)

theorem Sound.beginFresh {stored : Option (ScreenCheckpoint σ)}
    (hfloor : start.exitMarkerFloor ∈ floors) (hstored : ∀ checkpoint ∈ stored,
      Traced S floors checkpoint.logOffset checkpoint.markerBuffer checkpoint.trace) :
    Sound decode S floors (beginFresh start stored) := by
  refine ⟨hfloor, .fresh floors _, hstored, ?_, ?_, ?_, ?_⟩
  · show none = lastStatus decode
      (splitBetween S (max start.replayStart start.exitMarkerFloor) start.replayStart).1
    rw [splitBetween_of_le (Nat.le_max_left _ _)]
    rfl
  · intro hbefore
    exact Nat.max_eq_right (Nat.le_of_lt hbefore)
  · intro hbehind
    have hmax : max start.replayStart start.exitMarkerFloor = start.replayStart :=
      Nat.max_eq_left hbehind
    refine ⟨Nat.le_of_eq hmax, ?_⟩
    show (splitBetween S (max start.replayStart start.exitMarkerFloor) start.replayStart).2 = []
    rw [splitBetween_of_le (Nat.le_max_left _ _)]
  · intro q hfrom hbelow
    have hle : max start.replayStart start.exitMarkerFloor ≤ q := hfrom
    have hlt : q < start.exitMarkerFloor := hbelow
    omega

theorem Sound.resume_before {checkpoint : ScreenCheckpoint σ}
    (hfloor : start.exitMarkerFloor ∈ floors)
    (hstored : Traced S floors checkpoint.logOffset checkpoint.markerBuffer checkpoint.trace)
    (hbefore : checkpoint.logOffset < start.exitMarkerFloor) :
    Sound decode S floors (resume start checkpoint) := by
  have hhonored : (HeldPump.resume start checkpoint).honored = start.exitMarkerFloor :=
    if_pos hbefore
  refine ⟨hfloor, hstored, ?_, ?_, fun _ => hhonored, ?_, ?_⟩
  · intro other hother
    obtain ⟨⟩ := hother
    exact hstored
  · rw [hhonored]
    show none = lastStatus decode (splitBetween S start.exitMarkerFloor checkpoint.logOffset).1
    rw [splitBetween_of_le (Nat.le_of_lt hbefore)]
    rfl
  · intro hbehind
    exact absurd hbefore (Nat.not_lt.mpr hbehind)
  · intro q hfrom hbelow
    rw [hhonored] at hfrom
    exact absurd hbelow (Nat.not_lt.mpr hfrom)

theorem Sound.resume {checkpoint : ScreenCheckpoint σ} (hfloor : start.exitMarkerFloor ∈ floors)
    (hstored : Traced S floors checkpoint.logOffset checkpoint.markerBuffer checkpoint.trace) :
    Sound decode S floors (resume start checkpoint) := by
  by_cases hbefore : checkpoint.logOffset < start.exitMarkerFloor
  · exact .resume_before start hfloor hstored hbefore
  have hhonored : (HeldPump.resume start checkpoint).honored =
      checkpoint.logOffset - checkpoint.markerBuffer.length := if_neg hbefore
  have hsplit := hstored.split_buffer
  refine ⟨hfloor, hstored, ?_, ?_, fun h => absurd h hbefore, ?_, ?_⟩
  · intro other hother
    obtain ⟨⟩ := hother
    exact hstored
  · rw [hhonored]
    show none = lastStatus decode (splitBetween S _ checkpoint.logOffset).1
    rw [hsplit]
    rfl
  · intro _
    rw [hhonored]
    refine ⟨Nat.sub_le _ _, ?_⟩
    show (splitBetween S _ checkpoint.logOffset).2 = checkpoint.markerBuffer
    rw [hsplit]
  · intro q hfrom hbelow
    rw [hhonored] at hfrom
    have hlt : q < start.exitMarkerFloor := hbelow
    exact hstored.not_terminator hfrom (by omega)

theorem Sound.begin {stored : Option (ScreenCheckpoint σ)}
    (hfloor : start.exitMarkerFloor ∈ floors) (hstored : ∀ checkpoint ∈ stored,
      Traced S floors checkpoint.logOffset checkpoint.markerBuffer checkpoint.trace) :
    Sound decode S floors (begin start stored) := by
  unfold HeldPump.begin
  cases stored with
  | none => exact .beginFresh start hfloor hstored
  | some checkpoint =>
    by_cases husable : start.usable
    · simp only [if_pos husable]
      exact .resume start hfloor (hstored checkpoint rfl)
    · simp only [if_neg husable]
      exact .beginFresh start hfloor hstored

theorem Sound.leave (h : Sound decode S floors pump) (stop written : Bool) (now : SystemTime) :
    ∀ checkpoint ∈ (pump.leave stop written now).checkpoint,
      Traced S floors checkpoint.logOffset checkpoint.markerBuffer checkpoint.trace := by
  have hleft : (pump.leave stop written now).checkpoint =
      (if pump.dirty then pump.persistCheckpoint written else pump).checkpoint := by
    unfold HeldPump.leave
    generalize (if pump.dirty then pump.persistCheckpoint written else pump) = last
    by_cases hdetach : stop ∧ last.exitStatus = none
    · simp only [if_pos hdetach]
    · simp only [if_neg hdetach]
  rw [hleft]
  by_cases hdirty : pump.dirty
  · rw [if_pos hdirty]
    exact (h.persistCheckpoint written).stored
  · rw [if_neg hdirty]
    exact h.stored

/-! ### Every run -/

/-- Reads give what is next in the stream, and every run has one of the floors. -/
def Sequential (S : Nat → UInt8) (floors : List Nat) (pump : HeldPump σ) : HeldStep σ → Prop
  | .read start chunk _ _ _ => start = pump.offset ∧ chunk = slice S start chunk.length
  | .restart _ _ _ start => start.exitMarkerFloor ∈ floors

instance (S : Nat → UInt8) (floors : List Nat) (pump : HeldPump σ) (i : HeldStep σ) :
    Decidable (Sequential S floors pump i) :=
  match i with
  | .read start chunk _ _ _ =>
    inferInstanceAs (Decidable (start = pump.offset ∧ chunk = slice S start chunk.length))
  | .restart _ _ _ start => inferInstanceAs (Decidable (start.exitMarkerFloor ∈ floors))

theorem Sound.step {i : HeldStep σ} {pump' : HeldPump σ} (h : Sound decode S floors pump)
    (hsequential : Sequential S floors pump i) (hstep : pump.step decode emulator i = some pump') :
    Sound decode S floors pump' := by
  cases i with
  | read start chunk settled written now =>
    obtain ⟨rfl, hslice⟩ := hsequential
    simp only [HeldPump.step] at hstep
    by_cases hexit : pump.exitStatus.isSome
    · rw [if_pos hexit] at hstep
      cases hstep
    rw [if_neg hexit] at hstep
    obtain ⟨⟩ := hstep
    exact h.read hslice settled written now
  | restart stop written now start =>
    obtain ⟨⟩ := hstep
    exact .begin start hsequential (h.leave stop written now)

end HeldPump

open HeldPump

/-- `{"reason":"exited","code":0}` in base64. -/
def exitedZero : List UInt8 :=
  [0x65, 0x79, 0x4a, 0x79, 0x5a, 0x57, 0x46, 0x7a, 0x62, 0x32, 0x34, 0x69, 0x4f, 0x69, 0x4a, 0x6c,
    0x65, 0x47, 0x6c, 0x30, 0x5a, 0x57, 0x51, 0x69, 0x4c, 0x43, 0x4a, 0x6a, 0x62, 0x32, 0x52, 0x6c,
    0x49, 0x6a, 0x6f, 0x77, 0x66, 0x51, 0x3d, 0x3d]

/-- A prior incarnation's exit, a byte of this one, and its exit. -/
def twice : List UInt8 :=
  (Token.marker exitedZero).bytes ++ [0x24] ++ (Token.marker exitedZero).bytes

/-- The stream that begins with some bytes. -/
def streamOf (bytes : List UInt8) (p : Nat) : UInt8 := bytes.getD p 0

def heldStart (exitMarkerFloor : Nat) (usable : Bool) : HeldStart Unit where
  exitMarkerFloor := exitMarkerFloor
  usable := usable
  replayStart := 0
  screen := ()
  reducer := .new .screenPrimary .default 0

/-- It reads into the second marker, is left and resumes there, and reads the rest. -/
def resumed : List (HeldStep Unit) := [
  .read 0 (twice.take 70) false true 0,
  .restart true true 0 (heldStart 60 true),
  .read 70 (twice.drop 70) false true 0]

/-- The stream of a marker's first byte, below the floor, and two more that make it none. -/
def escaped : Nat → UInt8 := streamOf [0x1b, 0x5b, 0x6d]

end Diri
