/-
Remote output is applied once.

What the pump appends to the log and feeds to the screen are pieces of the Holder's
stream, each beyond all before it (`Reaches`), whatever frames come in whatever order.
When no frame begins beyond what was reached, nothing is left out.  The counter is a `u64`
and saturates: past a frame that runs over the last offset it stands still, while the
stream goes on.
-/
import Diri.Engine.RemotePump
import Mathlib.Data.UInt

namespace Diri

open List

variable {σ : Type} {emulator : Emulator σ}

def RemoteEvent.output : RemoteEvent → Option (Nat × List UInt8)
  | connected => none
  | frame f _ => f.outputPayload

/-- If the event brings output, it is what the stream has there. -/
def RemoteEvent.Carries (S : Nat → UInt8) (event : RemoteEvent) : Prop :=
  ∀ offset bytes, event.output = some (offset, bytes) → bytes = slice S offset bytes.length

/-- If the event brings output, it begins at the latest where the pump stands. -/
def RemoteEvent.InReach (offset : UInt64) (event : RemoteEvent) : Prop :=
  ∀ start bytes, event.output = some (start, bytes) → start ≤ offset.toNat

/-- If the event brings output, it ends at an offset. -/
def RemoteEvent.Fits (event : RemoteEvent) : Prop :=
  ∀ offset bytes, event.output = some (offset, bytes) → offset + bytes.length ≤ maxU64

theorem toNat_saturatingAdd (a : UInt64) (n : Nat) :
    (saturatingAdd a n).toNat = min (a.toNat + n) maxU64 := by
  refine UInt64.toNat_ofNat_of_lt' (Nat.lt_of_le_of_lt (Nat.min_le_right _ _) ?_)
  simp [maxU64, UInt64.size]

theorem Frame.outputPayload_lt {frame : Frame} {offset : Nat} {bytes : List UInt8}
    (h : frame.outputPayload = some (offset, bytes)) : offset < 2 ^ 64 := by
  unfold outputPayload at h
  split at h
  · cases h
  obtain ⟨rfl, rfl⟩ := Prod.mk.inj (Option.some.inj h)
  have hvalue := beValue_lt (frame.payload.take 8)
  have hlength : (frame.payload.take 8).length ≤ 8 := length_take_le 8 _
  have hpow := Nat.pow_le_pow_right (n := 256) (by decide) hlength
  omega

namespace RemotePump

/-! ### One frame -/

/-- Where the pump stands, and what it applied. -/
def progress (pump : RemotePump σ) : UInt64 × Pieces UInt8 :=
  (pump.remoteOutputOffset, pump.applied)

theorem applyRemoteOutput_cases (emulator : Emulator σ) (offset : UInt64)
    (bytes : List UInt8) (now : SystemTime) (pump : RemotePump σ) :
    (pump.applyRemoteOutput emulator offset bytes now).progress = pump.progress ∨
    (pump.remoteOutputOffset.toNat < min (offset.toNat + bytes.length) maxU64 ∧
      (pump.applyRemoteOutput emulator offset bytes now).progress =
        (saturatingAdd offset bytes.length,
          pump.applied ++ [(max offset.toNat pump.remoteOutputOffset.toNat,
            bytes.drop (pump.remoteOutputOffset.toNat - offset.toNat))])) := by
  unfold applyRemoteOutput
  dsimp only
  by_cases hold : saturatingAdd offset bytes.length ≤ pump.remoteOutputOffset
  · rw [if_pos hold]
    exact .inl rfl
  rw [if_neg hold]
  have hnew : pump.remoteOutputOffset.toNat < min (offset.toNat + bytes.length) maxU64 := by
    rw [← toNat_saturatingAdd]
    exact UInt64.lt_iff_toNat_lt.mp (UInt64.not_le.mp hold)
  -- the bytes to skip do not run past the frame
  have hskip : min (saturatingSub pump.remoteOutputOffset offset) bytes.length =
      pump.remoteOutputOffset.toNat - offset.toNat := by
    unfold saturatingSub
    omega
  rw [hskip]
  split
  · exact .inl rfl
  refine .inr ⟨hnew, ?_⟩
  have hstart : offset.toNat + (pump.remoteOutputOffset.toNat - offset.toNat) =
      max offset.toNat pump.remoteOutputOffset.toNat := by
    omega
  rw [hstart]
  rfl

theorem step_cases (emulator : Emulator σ) (pump : RemotePump σ) (event : RemoteEvent) :
    (pump.step emulator event).1.progress = pump.progress ∨
    ∃ (offset : UInt64) (bytes : List UInt8), event.output = some (offset.toNat, bytes) ∧
      pump.remoteOutputOffset.toNat < min (offset.toNat + bytes.length) maxU64 ∧
      (pump.step emulator event).1.progress = (saturatingAdd offset bytes.length,
          pump.applied ++ [(max offset.toNat pump.remoteOutputOffset.toNat,
            bytes.drop (pump.remoteOutputOffset.toNat - offset.toNat))]) := by
  cases event with
  | connected => exact .inl rfl
  | frame frame now =>
    cases hkind : frame.frameType with
    | output =>
      cases houtput : frame.outputPayload with
      | none =>
        refine .inl ?_
        simp only [step, handleTerminal, hkind, houtput]
      | some payload =>
        obtain ⟨offset, bytes⟩ := payload
        have hoffset : (UInt64.ofNat offset).toNat = offset :=
          UInt64.toNat_ofNat_of_lt' (Frame.outputPayload_lt houtput)
        have hstep : (pump.step emulator (.frame frame now)).1 =
            pump.applyRemoteOutput emulator (.ofNat offset) bytes now := by
          simp only [step, handleTerminal, hkind, houtput]
        rw [hstep]
        obtain hsame | happlied :=
          applyRemoteOutput_cases emulator (.ofNat offset) bytes now pump
        · exact .inl hsame
        · exact .inr ⟨.ofNat offset, bytes, by rw [hoffset]; exact houtput, happlied⟩
    | replayBegin | replayEnd =>
      refine .inl ?_
      simp only [step, handleTerminal, hkind]
      rfl
    | _ =>
      refine .inl ?_
      simp only [step, handleTerminal, hkind]

/-! ### Runs -/

/-- The pump applied pieces of the stream up to `stop`, which its counter stands for. -/
structure Reaches (S : Nat → UInt8) (stop : Nat) (pump : RemotePump σ) : Prop where
  offset_eq : pump.remoteOutputOffset.toNat = min stop maxU64
  ascending : pump.applied.Ascending S stop

/-- A later moment of the same pump, which reaches as far or farther. -/
structure Advances (S : Nat → UInt8) (stop : Nat) (event : RemoteEvent)
    (pump pump' : RemotePump σ) (stop' : Nat) : Prop where
  reaches : Reaches S stop' pump'
  offset_le : pump.remoteOutputOffset ≤ pump'.remoteOutputOffset
  gapless : event.InReach pump.remoteOutputOffset → ∀ first,
    pump.applied.Gapless S first stop → pump'.applied.Gapless S first stop'
  fits : event.Fits → stop ≤ maxU64 → stop' ≤ maxU64

theorem Reaches.step (emulator : Emulator σ) {S : Nat → UInt8} {stop : Nat}
    {pump : RemotePump σ} {event : RemoteEvent}
    (h : Reaches S stop pump) (hcarries : event.Carries S) :
    ∃ stop', Advances S stop event pump (pump.step emulator event).1 stop' := by
  obtain hsame | ⟨offset, bytes, houtput, hnew, hprogress⟩ :=
    step_cases emulator pump event
  · obtain ⟨hoffset, happlied⟩ := Prod.mk.inj hsame
    refine ⟨stop, ⟨?_, ?_⟩, ?_, ?_, fun _ hstop => hstop⟩
    · rw [hoffset]
      exact h.offset_eq
    · rw [happlied]
      exact h.ascending
    · rw [hoffset]
      exact UInt64.le_refl _
    · intro _ first hgapless
      rw [happlied]
      exact hgapless
  obtain ⟨hoffset, happlied⟩ := Prod.mk.inj hprogress
  have hbytes := hcarries _ _ houtput
  -- the counter moved, so it was not saturated
  have hstop : pump.remoteOutputOffset.toNat = stop := by
    have hstands := h.offset_eq
    omega
  rw [hstop] at hnew happlied
  have hpiece : bytes.drop (stop - offset.toNat) =
      slice S (max offset.toNat stop) (bytes.drop (stop - offset.toNat)).length := by
    have hstart : offset.toNat + (stop - offset.toNat) = max offset.toNat stop := by omega
    rw [length_drop, ← hstart, ← drop_slice, ← hbytes]
  have hend : max offset.toNat stop + (bytes.drop (stop - offset.toNat)).length =
      offset.toNat + bytes.length := by
    rw [length_drop]
    omega
  refine ⟨offset.toNat + bytes.length, ⟨?_, ?_⟩, ?_, ?_, ?_⟩
  · rw [hoffset, toNat_saturatingAdd]
  · rw [happlied, ← hend]
    exact h.ascending.concat (Nat.le_max_right _ _) hpiece
  · rw [hoffset, UInt64.le_iff_toNat_le, toNat_saturatingAdd, hstop]
    exact Nat.le_of_lt hnew
  · intro hreach first hgapless
    have hle := hreach _ _ houtput
    have hstart : max offset.toNat stop = stop := by omega
    rw [hstart] at happlied hpiece hend
    rw [happlied, ← hend]
    exact hgapless.concat hpiece
  · intro hfits _
    exact hfits _ _ houtput

def start (offset : UInt64) (screen : σ) (reducer : StatusReducer) : RemotePump σ where
  remoteOutputOffset := offset
  watch := {
    screen := screen
    reducer := reducer
    replaying := false }

abbrev Steps (σ : Type) : Type :=
  List (Taken (RemotePump σ) RemoteEvent RemoteConnectionDisposition)

/-- How far a run got, and under which conditions without a gap and within the counter. -/
structure Reached (S : Nat → UInt8) (first : Nat) (pump : RemotePump σ) (past : Steps σ)
    (stop : Nat) : Prop where
  reaches : Reaches S stop pump
  monotone : ∀ t ∈ past, t.before.remoteOutputOffset ≤ t.after.remoteOutputOffset
  gapless : (∀ t ∈ past, t.input.InReach t.before.remoteOutputOffset) →
    pump.applied.Gapless S first stop
  fits : (∀ t ∈ past, t.input.Fits) → stop ≤ maxU64

theorem Reached.step (emulator : Emulator σ) {S : Nat → UInt8} {first stop : Nat}
    {pump : RemotePump σ}
    {past : Steps σ} (h : Reached S first pump past stop) {event : RemoteEvent}
    (hcarries : event.Carries S) : ∃ stop', Reached S first (pump.step emulator event).1
      (taken (RemotePump.step emulator) pump event :: past) stop' := by
  obtain ⟨stop', hadvances⟩ := h.reaches.step emulator hcarries
  refine ⟨stop', hadvances.reaches, ?_, ?_, ?_⟩
  · intro t ht
    obtain rfl | ht := mem_cons.mp ht
    · exact hadvances.offset_le
    · exact h.monotone t ht
  · intro hreach
    obtain ⟨hlast, hbefore⟩ := forall_mem_cons.mp hreach
    exact hadvances.gapless hlast first (h.gapless hbefore)
  · intro hfits
    obtain ⟨hlast, hbefore⟩ := forall_mem_cons.mp hfits
    exact hadvances.fits hlast (h.fits hbefore)

theorem reached_run (emulator : Emulator σ) {S : Nat → UInt8} (offset : UInt64) (screen : σ)
    (reducer : StatusReducer)
    {events : List RemoteEvent} (hcarries : ∀ event ∈ events, event.Carries S) :
    ∃ stop, Reached S offset.toNat (run (RemotePump.step emulator) (start offset screen reducer)
      events).1 (run (RemotePump.step emulator) (start offset screen reducer) events).2 stop := by
  induction events using reverseRecOn with
  | nil =>
    have hle : offset.toNat ≤ maxU64 := Nat.le_of_lt_succ offset.toNat_lt
    refine ⟨offset.toNat, ⟨?_, .nil S _⟩, ?_, fun _ => .nil S _, fun _ => hle⟩
    · exact (Nat.min_eq_left hle).symm
    · intro t ht
      cases ht
  | append_singleton events event ih =>
    obtain ⟨stop, hreached⟩ := ih fun e he => hcarries e (mem_append_left _ he)
    rw [run_concat]
    exact hreached.step emulator (hcarries event (mem_append_right _ (mem_singleton_self _)))

end RemotePump

open RemotePump

/-- Whatever output frames come, what is applied lies at strictly increasing positions of the
stream, and the counter never decreases.  If no frame begins beyond the counter, what is
applied is the stream from the first offset to some stop; the counter is at the stop, or at
the last offset there is if a frame ran past that. -/
theorem remote_output_once (emulator : Emulator σ) {S : Nat → UInt8} (offset : UInt64)
    (screen : σ) (reducer : StatusReducer) {events : List RemoteEvent}
    (hcarries : ∀ event ∈ events, event.Carries S) {pump : RemotePump σ} {past : Steps σ}
    (hrun : run (RemotePump.step emulator) (start offset screen reducer) events = (pump, past)) :
    pump.applied.positions.Pairwise (· < ·) ∧ pump.applied.contents = pump.applied.positions.map S ∧
      (∀ t ∈ past, t.before.remoteOutputOffset ≤ t.after.remoteOutputOffset) ∧
      ((∀ t ∈ past, t.input.InReach t.before.remoteOutputOffset) →
        ∃ stop, pump.remoteOutputOffset.toNat = min stop maxU64 ∧
          pump.applied.contents = slice S offset.toNat (stop - offset.toNat) ∧
          ((∀ event ∈ events, event.Fits) → pump.remoteOutputOffset.toNat = stop)) := by
  obtain ⟨stop, hreached⟩ := reached_run emulator offset screen reducer hcarries
  have hinputs := run_inputs (RemotePump.step emulator) (start offset screen reducer) events
  rw [hrun] at hreached hinputs
  refine ⟨hreached.reaches.ascending.increasing, hreached.reaches.ascending.contents_eq,
    hreached.monotone, ?_⟩
  intro hreach
  refine ⟨stop, hreached.reaches.offset_eq, (hreached.gapless hreach).contents_eq, ?_⟩
  intro hfits
  have hstop : stop ≤ maxU64 := by
    refine hreached.fits ?_
    intro t ht
    have hmem : t.input ∈ events.reverse := hinputs ▸ mem_map_of_mem ht
    exact hfits _ (mem_reverse.mp hmem)
  rw [hreached.reaches.offset_eq, Nat.min_eq_left hstop]

/-! ### A replay, and the last offset -/

def blankPump (offset : UInt64) : RemotePump Unit :=
  start offset () (.new .screenPrimary .default 0)

/-- The stream whose bytes count their positions. -/
def counting (position : Nat) : UInt8 := .ofNat position

def countingFrame (offset count : Nat) : RemoteEvent :=
  .frame (.output offset (slice counting offset count)) 0

theorem carries_countingFrame {offset : Nat} (h : offset < 2 ^ 64) (count : Nat) :
    (countingFrame offset count).Carries counting := by
  intro start bytes houtput
  have hframe := (Frame.outputPayload_output h (slice counting offset count)).symm.trans houtput
  obtain ⟨rfl, rfl⟩ := Prod.mk.inj (Option.some.inj hframe)
  rw [length_slice]

/-- A frame, and after a reconnect a replay that starts before it and goes on beyond it. -/
def replayed : List RemoteEvent := [countingFrame 3 4, .connected, countingFrame 1 8]

theorem remote_output_once_replayed : ∃ (pump : RemotePump Unit) (past : Steps Unit),
      run (RemotePump.step blankEmulator) (blankPump 3) replayed = (pump, past) ∧
      (∀ event ∈ replayed, event.Carries counting) ∧
      pump.applied = [(3, [3, 4, 5, 6]), (7, [7, 8])] ∧ pump.applied.positions.Pairwise (· < ·) ∧
      pump.applied.contents = pump.applied.positions.map counting := by
  have hcarries : ∀ event ∈ replayed, event.Carries counting := by
    intro event hevent
    simp only [replayed, mem_cons, not_mem_nil, or_false] at hevent
    obtain rfl | rfl | rfl := hevent
    · exact carries_countingFrame (by decide) 4
    · intro start bytes houtput
      cases houtput
    · exact carries_countingFrame (by decide) 8
  refine ⟨_, _, rfl, hcarries, by decide +kernel, ?_⟩
  have honce := remote_output_once blankEmulator 3 () (.new .screenPrimary .default 0) hcarries rfl
  exact ⟨honce.1, honce.2.1⟩

/-- Two bytes at the last offset but one: both are applied, and the counter moves by one. -/
theorem past_the_last_offset : ∃ (pump : RemotePump Unit) (past : Steps Unit),
      run (RemotePump.step blankEmulator) (blankPump (2 ^ 64 - 2))
        [countingFrame (2 ^ 64 - 2) 2] = (pump, past) ∧
      (countingFrame (2 ^ 64 - 2) 2).Carries counting ∧
      (∀ t ∈ past, t.input.InReach t.before.remoteOutputOffset) ∧
      pump.applied.contents = [254, 255] ∧ pump.remoteOutputOffset.toNat = 2 ^ 64 - 1 ∧
      pump.applied.contents ≠
        slice counting (2 ^ 64 - 2) (pump.remoteOutputOffset.toNat - (2 ^ 64 - 2)) := by
  refine ⟨_, _, rfl, carries_countingFrame (by decide) 2, ?_, by decide +kernel,
    by decide +kernel, by decide +kernel⟩
  intro t ht start bytes houtput
  obtain rfl := mem_singleton.mp ht
  have hframe := (Frame.outputPayload_output (by decide) _).symm.trans houtput
  obtain ⟨rfl, rfl⟩ := Prod.mk.inj (Option.some.inj hframe)
  decide +kernel

end Diri
