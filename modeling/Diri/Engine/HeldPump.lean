/-
The pump of a held session: it tails the log that the session's holder writes.

The loop replays a bounded tail, then follows new bytes, stripping exit markers before
the emulator sees them and honoring only markers at or beyond `exitMarkerFloor`: bytes
below it belong to prior incarnations of the session id.  When it is quiet it persists a
checkpoint, from which a later run of the loop may resume.

What `OutputLog::read` returns is an argument, and so is whether a write succeeds.  The
liveness probe, the scan for artifacts and the key that saves writing a checkpoint again are
left out.  For the proofs the pump remembers what the screen was fed (`Trace`), and from
where on its own run honors markers.
-/
import Diri.Engine.HolderServer
import Diri.Engine.RemotePump

namespace Diri

/-- How a screen came to be: fed from `origin` on, the marker buffer cleared at the `cuts`. -/
structure Trace where
  origin : Nat
  /-- The last one first. -/
  cuts : List Nat := []
  fed : List UInt8 := []

structure ScreenCheckpoint (σ : Type) where
  logOffset : Nat
  markerBuffer : List UInt8
  /-- Its history, grid and modes. -/
  screen : σ
  trace : Trace

structure HeldPump (σ : Type) where
  exitMarkerFloor : Nat
  offset : Nat
  markerBuffer : List UInt8
  exitStatus : Option HolderExitStatus := none
  watch : Watch σ
  dirty : Bool := false
  /-- The checkpoint on disk. -/
  checkpoint : Option (ScreenCheckpoint σ)
  trace : Trace
  /-- Markers that begin here or beyond are this run's to honor. -/
  honored : Nat

/-- How a session's child ended. -/
inductive Exit where
  | code (code : Int32)
  | signal (signal : Int32)
  deriving DecidableEq

/-- What a run of the loop finds when it begins, besides the checkpoint. -/
structure HeldStart (σ : Type) where
  exitMarkerFloor : Nat
  /-- Whether the checkpoint is fresh enough and the screen takes it. -/
  usable : Bool
  /-- `preferred_replay_start`. -/
  replayStart : Nat
  screen : σ
  reducer : StatusReducer

namespace HeldPump

variable {σ : Type} (decode : StatusDecoder) (emulator : Emulator σ)

def beginFresh (start : HeldStart σ) (stored : Option (ScreenCheckpoint σ)) : HeldPump σ where
  exitMarkerFloor := start.exitMarkerFloor
  offset := start.replayStart
  markerBuffer := []
  watch := {
    screen := start.screen
    reducer := start.reducer
    replaying := true }
  checkpoint := stored
  trace := { origin := start.replayStart }
  honored := max start.replayStart start.exitMarkerFloor

def resume (start : HeldStart σ) (checkpoint : ScreenCheckpoint σ) : HeldPump σ where
  exitMarkerFloor := start.exitMarkerFloor
  offset := checkpoint.logOffset
  markerBuffer := checkpoint.markerBuffer
  watch := {
    screen := checkpoint.screen
    reducer := start.reducer
    replaying := true }
  checkpoint := some checkpoint
  trace := checkpoint.trace
  honored :=
    if checkpoint.logOffset < start.exitMarkerFloor then start.exitMarkerFloor
    else checkpoint.logOffset - checkpoint.markerBuffer.length

/-- The first part of `pump_held`. -/
def begin (start : HeldStart σ) (stored : Option (ScreenCheckpoint σ)) : HeldPump σ :=
  match stored with
  | some checkpoint => if start.usable then resume start checkpoint else beginFresh start stored
  | none => beginFresh start none

/-- A failed write must not stop the session; the checkpoint is a cache. -/
def persistCheckpoint (written : Bool) (pump : HeldPump σ) : HeldPump σ :=
  if written then { pump with checkpoint := some {
    logOffset := pump.offset
    markerBuffer := pump.markerBuffer
    screen := pump.watch.screen
    trace := pump.trace } }
  else pump

/-! ### One turn of the loop -/

/-- Nothing to read; `settled` is whether the last output is long enough ago. -/
def quiet (settled written : Bool) (now : SystemTime) (pump : HeldPump σ) : HeldPump σ :=
  let pump :=
    if pump.dirty ∧ (pump.watch.replaying ∨ settled) then
      { pump.persistCheckpoint written with dirty := false }
    else pump
  { pump with watch := { pump.watch with replaying := false }.reduce .tick now }

/-- Bytes up to `stop`, which is at most the floor: their markers are stripped and ignored. -/
def drainStale (bytes : List UInt8) (stop : Nat) (pump : HeldPump σ) : List UInt8 × HeldPump σ :=
  let drained := HolderExitMarker.drain decode (pump.markerBuffer ++ bytes)
  (drained.output,
    -- an unfinished stale marker ends at the floor
    if stop ≥ pump.exitMarkerFloor then { pump with
      markerBuffer := []
      trace := { pump.trace with cuts := stop :: pump.trace.cuts } }
    else { pump with markerBuffer := drained.buffer })

/-- Bytes at or beyond the floor. -/
def drainLive (bytes : List UInt8) (pump : HeldPump σ) : List UInt8 × HeldPump σ :=
  let drained := HolderExitMarker.drain decode (pump.markerBuffer ++ bytes)
  (drained.output, { pump with
    markerBuffer := drained.buffer
    exitStatus := drained.exit.or pump.exitStatus })

/-- What the screen is fed, and the pump with its offset behind the chunk. -/
def takeChunk (start : Nat) (chunk : List UInt8) (pump : HeldPump σ) : List UInt8 × HeldPump σ :=
  -- a rotation can move the readable floor past us
  let pump :=
    if start > pump.offset ∧ pump.markerBuffer ≠ [] then { pump with markerBuffer := [] } else pump
  let pump := { pump with offset := start + chunk.length }
  let honoredFrom := min (pump.exitMarkerFloor - start) chunk.length
  let (replayed, pump) :=
    if honoredFrom > 0 then
      pump.drainStale decode (chunk.take honoredFrom) (start + honoredFrom)
    else ([], pump)
  let (live, pump) :=
    if honoredFrom < chunk.length then pump.drainLive decode (chunk.drop honoredFrom)
    else ([], pump)
  (replayed ++ live, pump)

def feed (output : List UInt8) (now : SystemTime) (pump : HeldPump σ) : HeldPump σ :=
  if output = [] then pump
  else { pump with
    dirty := true
    watch := pump.watch.feed emulator output now
    trace := { pump.trace with fed := pump.trace.fed ++ output } }

/-- What `log.read` returned: nothing, or bytes from `start` on. -/
def read (start : Nat) (chunk : List UInt8) (settled written : Bool) (now : SystemTime)
    (pump : HeldPump σ) : HeldPump σ :=
  if chunk = [] then pump.quiet settled written now
  else
    let (output, pump) := pump.takeChunk decode start chunk
    pump.feed emulator output now

/-! ### The end of the loop -/

def exit (pump : HeldPump σ) : Option Exit :=
  pump.exitStatus.map fun status =>
    match status.signal with
    | some signal => .signal signal
    | none => .code (status.code.getD (-1))

/-- What follows the loop; `stop` is whether the session was detached. -/
def leave (stop written : Bool) (now : SystemTime) (pump : HeldPump σ) : HeldPump σ :=
  let pump := if pump.dirty then pump.persistCheckpoint written else pump
  if stop ∧ pump.exitStatus = none then pump
  else
    let (code, signal) :=
      match pump.exit with
      | some (.code code) => (some code, none)
      | some (.signal signal) => (none, some signal)
      | none => (none, none)
    { pump with watch := pump.watch.reduce (.processExit code signal) now }

end HeldPump

inductive HeldStep (σ : Type) where
  /-- `settled` and `written` matter if the chunk is empty. -/
  | read (start : Nat) (chunk : List UInt8) (settled written : Bool) (now : SystemTime)
  /-- The run leaves the loop, and a later one begins on what is on disk. -/
  | restart (stop written : Bool) (now : SystemTime) (start : HeldStart σ)

/-- A run that honored a marker reads no more. -/
def HeldPump.step {σ : Type} (decode : StatusDecoder) (emulator : Emulator σ)
    (pump : HeldPump σ) : HeldStep σ → Option (HeldPump σ)
  | .read start chunk settled written now =>
    if pump.exitStatus.isSome then none
    else some (pump.read decode emulator start chunk settled written now)
  | .restart stop written now start =>
    some (begin start (pump.leave stop written now).checkpoint)

end Diri
