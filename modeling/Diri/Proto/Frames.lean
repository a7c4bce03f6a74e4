/-
Binary data-channel frames.

Each frame is a type, the payload's length in four bytes, and the payload.  `FrameCodec`
reads them from a stream that arrives in chunks.  Offsets are `u64` in the source; here
they are natural numbers, of which eight bytes are written.
-/
import Diri.Lib.Framing

namespace Diri

/-- A single frame larger than this indicates a corrupt stream. -/
def maxFrameBytes : Nat := 16 * 1024 * 1024

inductive FrameType where
  | output
  | input
  | resize
  | replayBegin
  | replayEnd
  | ping
  | pong
  | grid
  | scroll
  | modes
  deriving DecidableEq, Repr

inductive FrameCodecError where
  | unknownFrameType (frameType : UInt8)
  | frameTooLarge (length max : Nat)
  | payloadLengthOverflow (length : Nat)
  deriving DecidableEq, Repr

namespace FrameType

def toByte : FrameType → UInt8
  | output => 1
  | input => 2
  | resize => 3
  | replayBegin => 4
  | replayEnd => 5
  | ping => 6
  | pong => 7
  | grid => 8
  | scroll => 9
  | modes => 10

def tryFrom (value : UInt8) : Except FrameCodecError FrameType :=
  match value.toNat with
  | 1 => .ok output
  | 2 => .ok input
  | 3 => .ok resize
  | 4 => .ok replayBegin
  | 5 => .ok replayEnd
  | 6 => .ok ping
  | 7 => .ok pong
  | 8 => .ok grid
  | 9 => .ok scroll
  | 10 => .ok modes
  | _ => .error (.unknownFrameType value)

@[simp] theorem tryFrom_toByte (frameType : FrameType) :
    tryFrom frameType.toByte = .ok frameType := by
  cases frameType <;> rfl

end FrameType

structure Frame where
  frameType : FrameType
  payload : List UInt8
  deriving DecidableEq, Repr

namespace Frame

def output (offset : Nat) (bytes : List UInt8) : Frame := ⟨.output, beBytes 8 offset ++ bytes⟩

def input (bytes : List UInt8) : Frame := ⟨.input, bytes⟩

def resize (cols rows : Nat) : Frame := ⟨.resize, beBytes 2 cols ++ beBytes 2 rows⟩

def replayBegin (offset : Nat) : Frame := ⟨.replayBegin, beBytes 8 offset⟩

def replayEnd (offset : Nat) : Frame := ⟨.replayEnd, beBytes 8 offset⟩

def ping : Frame := ⟨.ping, []⟩

def pong : Frame := ⟨.pong, []⟩

def outputPayload (frame : Frame) : Option (Nat × List UInt8) :=
  if frame.frameType ≠ .output ∨ frame.payload.length < 8 then none
  else some (beValue (frame.payload.take 8), frame.payload.drop 8)

def resizePayload (frame : Frame) : Option (Nat × Nat) :=
  if frame.frameType ≠ .resize ∨ frame.payload.length < 4 then none
  else some (beValue (frame.payload.take 2), beValue ((frame.payload.drop 2).take 2))

/-- Direction, lines, column and row. -/
def scrollPayload (frame : Frame) : Option (Nat × Nat × Nat × Nat) :=
  if frame.frameType ≠ .scroll ∨ frame.payload.length < 7 then none
  else
    some (beValue (frame.payload.take 1), beValue ((frame.payload.drop 1).take 2),
      beValue ((frame.payload.drop 3).take 2), beValue ((frame.payload.drop 5).take 2))

def offsetPayload (frame : Frame) : Option Nat :=
  if (frame.frameType ≠ .replayBegin ∧ frame.frameType ≠ .replayEnd) ∨
      frame.payload.length < 8 then none
  else some (beValue (frame.payload.take 8))

theorem outputPayload_output {offset : Nat} (h : offset < 2 ^ 64) (bytes : List UInt8) :
    (output offset bytes).outputPayload = some (offset, bytes) := by
  have hlength : (beBytes 8 offset).length = 8 := length_beBytes 8 offset
  unfold outputPayload output
  rw [if_neg (by simp), List.take_left' hlength, List.drop_left' hlength, beValue_beBytes h]

end Frame

namespace FrameCodec

def encode (frame : Frame) : Except FrameCodecError (List UInt8) :=
  let length := frame.payload.length
  if length > maxFrameBytes then .error (.frameTooLarge length maxFrameBytes)
  else if length ≥ 2 ^ 32 then .error (.payloadLengthOverflow length)
  else .ok (Framing.header frame.frameType.toByte length ++ frame.payload)

/-- What `feed` looks at before the payload is there. -/
def accept (kind : UInt8) (length : Nat) : Except FrameCodecError Unit := do
  let _ ← FrameType.tryFrom kind
  if length > maxFrameBytes then throw (.frameTooLarge length maxFrameBytes)

def decode (kind : UInt8) (payload : List UInt8) : Except FrameCodecError Frame := do
  return ⟨← FrameType.tryFrom kind, payload⟩

/-- The codec's buffer is the state; `feed` is `Framing.feed`. -/
def framing : Framing UInt8 FrameCodecError Frame := Framing.prefixed accept decode

end FrameCodec

end Diri
