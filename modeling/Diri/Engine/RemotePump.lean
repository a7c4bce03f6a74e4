/-
What every pump does with output: it feeds the screen, and tells the status reducer.

The emulator and the detection engine are not modelled (`Emulator`).  What the reducer's
outcome does to the rest of the session is left out.

The Engine's pump of one remote Holder: what it does with raw output.

A Holder sends output frames, each with the offset of its first byte, and after a
reconnect it replays from anywhere.  The pump keeps how far it got, in a counter that
outlives every connection, and takes of a frame what lies beyond.

For the proofs the pump remembers what it appended to the log and fed to the screen, with
the offset it stands at in the Holder's stream.  Appending is never refused: the source
ignores what the log says of its file.
-/
import Diri.Engine.Status
import Diri.Lib.Streams
import Diri.Remote.Holder

namespace Diri

/-- The screen, and what the manifest makes of it. -/
structure Emulator (σ : Type) where
  feed : List UInt8 → σ → σ
  contentSeq : σ → UInt64
  evaluate : σ → Option ScreenObservation

/-- A screen on which nothing changes. -/
def blankEmulator : Emulator Unit where
  feed _ screen := screen
  contentSeq _ := 0
  evaluate _ := none

structure Watch (σ : Type) where
  screen : σ
  reducer : StatusReducer
  lastEvalSeq : UInt64 := 0
  replaying : Bool

namespace Watch

variable {σ : Type} (emulator : Emulator σ)

def evaluateIfScreenChanged (watch : Watch σ) : Option ScreenObservation × Watch σ :=
  let seq := emulator.contentSeq watch.screen
  if seq = watch.lastEvalSeq then (none, watch)
  else (emulator.evaluate watch.screen, { watch with lastEvalSeq := seq })

def reduce (signal : StatusSignal) (now : SystemTime) (watch : Watch σ) : Watch σ :=
  { watch with reducer := (watch.reducer.reduce signal now).1 }

/-- Replayed output renders, but is no activity. -/
def feed (bytes : List UInt8) (now : SystemTime) (watch : Watch σ) : Watch σ :=
  let watch := { watch with screen := emulator.feed bytes watch.screen }
  let (observation, watch) := watch.evaluateIfScreenChanged emulator
  let watch := if !watch.replaying then watch.reduce .ptyOutputActivity now else watch
  match observation with
  | some observation => watch.reduce (.screen observation) now
  | none => watch

end Watch

end Diri

namespace Diri

/-- `saturating_add` on a `u64`. -/
def saturatingAdd (a : UInt64) (n : Nat) : UInt64 := .ofNat (min (a.toNat + n) maxU64)

/-- `saturating_sub` on a `u64`. -/
def saturatingSub (a b : UInt64) : Nat := a.toNat - b.toNat

structure RemotePump (σ : Type) where
  remoteOutputOffset : UInt64
  watch : Watch σ
  applied : Pieces UInt8 := []

inductive RemoteConnectionDisposition where
  | goOn
  | fatal
  deriving DecidableEq

namespace RemotePump

variable {σ : Type} (emulator : Emulator σ)

def setReplaying (replaying : Bool) (pump : RemotePump σ) : RemotePump σ :=
  { pump with watch := { pump.watch with replaying := replaying } }

def applyRemoteOutput (offset : UInt64) (bytes : List UInt8) (now : SystemTime)
    (pump : RemotePump σ) : RemotePump σ :=
  let expected := pump.remoteOutputOffset
  let finish := saturatingAdd offset bytes.length
  if finish ≤ expected then pump
  else
    let skip := min (saturatingSub expected offset) bytes.length
    let bytes := bytes.drop skip
    if bytes = [] then pump
    else
      { remoteOutputOffset := finish
        applied := pump.applied ++ [(offset.toNat + skip, bytes)]
        watch := pump.watch.feed emulator bytes now }

/-- The part of `handle_remote_message` about terminal frames. -/
def handleTerminal (frame : Frame) (now : SystemTime) (pump : RemotePump σ) :
    RemotePump σ × RemoteConnectionDisposition :=
  match frame.frameType with
  | .replayBegin => (pump.setReplaying true, .goOn)
  | .replayEnd => (pump.setReplaying false, .goOn)
  | .output =>
    match frame.outputPayload with
    | none => (pump, .fatal)
    | some (offset, bytes) =>
      (pump.applyRemoteOutput emulator (.ofNat offset) bytes now, .goOn)
  | _ => (pump, .fatal)

end RemotePump

/-- A new connection, or a frame of the one there is. -/
inductive RemoteEvent where
  | connected
  | frame (frame : Frame) (now : SystemTime)

def RemotePump.step {σ : Type} (emulator : Emulator σ) (pump : RemotePump σ)
    (event : RemoteEvent) : RemotePump σ × RemoteConnectionDisposition :=
  match event with
  | .connected =>
    ({ pump with watch := { pump.watch with
        replaying := false
        lastEvalSeq := 0 } }, .goOn)
  | .frame frame now => pump.handleTerminal emulator frame now

end Diri
