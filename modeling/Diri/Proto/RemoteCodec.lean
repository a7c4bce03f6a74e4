/-
The wire codec of the remote protocol.

A message is a frame: its kind, the length of its payload, the payload.  Terminal frames
keep their payloads, grids are packed by hand, everything else is JSON.  `serde_json` is
outside this repository; `SerdeJson` is what the codec uses of it.
-/
import Diri.Lib.Handler
import Diri.Proto.GridCodec
import Diri.Proto.Messages

namespace Diri.Wire

/-! ### JSON payloads -/

/-- The messages whose payload is JSON. -/
inductive ControlKind where
  | hello
  | helloAck
  | processExit
  | signal
  | acquireControl
  | controlGranted
  | controlRevoked
  | releaseControl
  | scrollbackRequest
  | scrollbackResponse
  | error
  deriving DecidableEq

def ControlKind.Payload : ControlKind → Type
  | hello => Hello
  | helloAck => HelloAck
  | processExit => ProcessExit
  | signal => Signal
  | acquireControl => AcquireControl
  | controlGranted => ControlGranted
  | controlRevoked => ControlRevoked
  | releaseControl => ReleaseControl
  | scrollbackRequest => ScrollbackRequest
  | scrollbackResponse => ScrollbackResponse
  | error => RemoteError

def ControlKind.toByte : ControlKind → UInt8
  | hello => kindHello
  | helloAck => kindHelloAck
  | processExit => kindProcessExit
  | signal => kindSignal
  | acquireControl => kindAcquireControl
  | controlGranted => kindControlGranted
  | controlRevoked => kindControlRevoked
  | releaseControl => kindReleaseControl
  | scrollbackRequest => kindScrollbackRequest
  | scrollbackResponse => kindScrollbackResponse
  | error => kindError

/-- `serde_json::to_writer` and `serde_json::from_slice`; an error is its text. -/
structure SerdeJson where
  toWriter : (kind : ControlKind) → kind.Payload → Except String (List UInt8)
  fromSlice : (kind : ControlKind) → List UInt8 → Except String kind.Payload

/-- What was written is read back. -/
def SerdeJson.RoundTrips (json : SerdeJson) : Prop :=
  ∀ kind value bytes, json.toWriter kind value = .ok bytes → json.fromSlice kind bytes = .ok value

namespace RemoteCodec

variable (json : SerdeJson)

def appendJson (kind : ControlKind) (value : kind.Payload) :
    Except RemoteCodecError (UInt8 × List UInt8) :=
  match json.toWriter kind value with
  | .ok bytes => .ok (kind.toByte, bytes)
  | .error detail => .error (.invalidControlPayload kind.toByte detail)

def decodeJson (kind : ControlKind) (payload : List UInt8) : Except RemoteCodecError kind.Payload :=
  match json.fromSlice kind payload with
  | .ok value => .ok value
  | .error detail => .error (.invalidControlPayload kind.toByte detail)

/-! ### Encoding -/

def modesByte (value : GridMessage) : UInt8 :=
  value.altScreen.toUInt8 ||| (value.bracketedPaste.toUInt8 <<< 1) |||
    (value.mouseReporting.toUInt8 <<< 2)

/-- The sequence, the modes, and the grid. -/
def gridPayload (value : GridMessage) : Except RemoteCodecError (List UInt8) :=
  match value.grid.encode with
  | .ok bytes => .ok (beBytes 8 value.sequence.toNat ++ ([modesByte value] ++ bytes))
  | .error error => .error (.grid error)

/-- The kind and the payload of a message. -/
def payload : RemoteMessage → Except RemoteCodecError (UInt8 × List UInt8)
  | .terminal frame => .ok (frame.frameType.toByte, frame.payload)
  | .hello value => do
      value.validate
      appendJson json .hello value
  | .helloAck value => do
      value.validate
      appendJson json .helloAck value
  | .fullSnapshot value => do
      validateGridUpdate value.grid
      if !value.grid.isFullSnapshot then
        throw (.invalidFullSnapshot "grid update is not marked as a full snapshot")
      return (kindFullSnapshot, ← gridPayload value)
  | .gridDelta value => do
      validateGridUpdate value.grid
      if value.grid.isFullSnapshot then
        throw (.invalidFullSnapshot "grid delta is marked as a full snapshot")
      return (kindGridDelta, ← gridPayload value)
  | .processExit value => appendJson json .processExit value
  | .signal value => appendJson json .signal value
  | .acquireControl value => do
      validateIdentifier "client nonce" value.clientNonce
      appendJson json .acquireControl value
  | .controlGranted value => appendJson json .controlGranted value
  | .controlRevoked value => appendJson json .controlRevoked value
  | .releaseControl value => appendJson json .releaseControl value
  | .scrollbackRequest value => do
      value.validate
      appendJson json .scrollbackRequest value
  | .scrollbackResponse value => appendJson json .scrollbackResponse value
  | .error value => appendJson json .error value

/-- Whether the payload of a kind is bounded as a control frame. -/
def isControl (kind : UInt8) : Bool :=
  kindHello ≤ kind &&
    !(kind = kindFullSnapshot || kind = kindGridDelta || kind = kindScrollbackResponse)

/-- The two caps, which both sides check. -/
def checkLength (kind : UInt8) (length : Nat) : Except RemoteCodecError Unit := do
  if length > maxFrameBytes then throw (.frameTooLarge length maxFrameBytes)
  if isControl kind ∧ length > maxControlFrameBytes then
    throw (.controlFrameTooLarge length maxControlFrameBytes)

/-- Appends one encoded message to `output`, or leaves `output` as it was. -/
def encodeInto (message : RemoteMessage) (output : List UInt8) :
    Except RemoteCodecError Unit × List UInt8 :=
  let encoded : Except RemoteCodecError (List UInt8) := do
    let (kind, bytes) ← payload json message
    checkLength kind bytes.length
    if bytes.length ≥ 2 ^ 32 then throw (.payloadLengthOverflow bytes.length)
    return Framing.header kind bytes.length ++ bytes
  match encoded with
  | .ok bytes => (.ok (), output ++ bytes)
  | .error error => (.error error, output)

/-- Encodes into a fresh buffer. -/
def encode (message : RemoteMessage) : Except RemoteCodecError (List UInt8) :=
  let (result, output) := encodeInto json message []
  result.map fun () => output

/-! ### Decoding -/

def validateKind (kind : UInt8) : Except RemoteCodecError Unit :=
  if (1 ≤ kind ∧ kind ≤ FrameType.modes.toByte) ∨
      (kindHello ≤ kind ∧ kind ≤ kindScrollbackResponse) then .ok ()
  else .error (.unknownMessageType kind)

/-- What `feed` looks at before the payload is there. -/
def accept (kind : UInt8) (length : Nat) : Except RemoteCodecError Unit := do
  validateKind kind
  checkLength kind length

def decodeGrid (payload : List UInt8) : Except RemoteCodecError GridMessage :=
  match GridUpdate.decode (payload.drop 9) with
  | .error error => .error (.grid error)
  | .ok grid => do
      let modes := payload.getD 8 0
      validateGridUpdate grid
      return {
        sequence := .ofNat (beValue (payload.take 8))
        altScreen := modes &&& 1 ≠ 0
        bracketedPaste := modes &&& 2 ≠ 0
        mouseReporting := modes &&& 4 ≠ 0
        grid := grid }

def decodeTerminal (kind : UInt8) (payload : List UInt8) : Except RemoteCodecError RemoteMessage :=
  match FrameType.tryFrom kind with
  | .ok frameType => .ok (.terminal ⟨frameType, payload⟩)
  | .error _ => .error (.unknownMessageType kind)

def decodeMessage (kind : UInt8) (payload : List UInt8) : Except RemoteCodecError RemoteMessage :=
  if kind ≤ FrameType.modes.toByte then decodeTerminal kind payload
  else
    match kind.toNat with
    | 32 => do
        let value : Hello ← decodeJson json .hello payload
        value.validate
        return .hello value
    | 33 => do
        let value : HelloAck ← decodeJson json .helloAck payload
        value.validate
        return .helloAck value
    | 34 => do
        if payload.length < 9 then
          throw (.invalidFullSnapshot ("need at least 9 bytes, got " ++ toString payload.length))
        let value ← decodeGrid payload
        if !value.grid.isFullSnapshot then
          throw (.invalidFullSnapshot "grid update is not marked as a full snapshot")
        return .fullSnapshot value
    | 42 => do
        if payload.length < 9 then
          throw (.invalidFullSnapshot
            ("grid delta needs at least 8 bytes, got " ++ toString payload.length))
        let value ← decodeGrid payload
        if value.grid.isFullSnapshot then
          throw (.invalidFullSnapshot "grid delta is marked as a full snapshot")
        return .gridDelta value
    | 35 => return .processExit (← decodeJson json .processExit payload)
    | 36 => return .signal (← decodeJson json .signal payload)
    | 37 => do
        let value : AcquireControl ← decodeJson json .acquireControl payload
        validateIdentifier "client nonce" value.clientNonce
        return .acquireControl value
    | 38 => return .controlGranted (← decodeJson json .controlGranted payload)
    | 39 => return .controlRevoked (← decodeJson json .controlRevoked payload)
    | 40 => return .releaseControl (← decodeJson json .releaseControl payload)
    | 43 => do
        let value : ScrollbackRequest ← decodeJson json .scrollbackRequest payload
        value.validate
        return .scrollbackRequest value
    | 44 => return .scrollbackResponse (← decodeJson json .scrollbackResponse payload)
    | 41 => return .error (← decodeJson json .error payload)
    | _ => throw (.unknownMessageType kind)

/-- The codec's buffer is the state; `feed` is `Framing.feed`. -/
def framing : Framing UInt8 RemoteCodecError RemoteMessage :=
  Framing.prefixed accept (decodeMessage json)

/-! ### `encode_into`, step by step in its buffer

A header of zeros is put behind what the buffer holds, the body behind it, and the length into
the header at last.  Whatever fails may have written something before; that is cut off again, in
the branch that fails, behind it, or twice.  `partly` is what `serde_json` has written when it
fails. -/

section

open Handler

/-- What writes to the buffer; what was written before a failure stays. -/
abbrev Buffered := Handler (List UInt8) RemoteCodecError Unit

namespace Buffered

def check (result : Except RemoteCodecError Unit) : Buffered := fun output => (result, output)

def extend (bytes : List UInt8) : Buffered := modify (· ++ bytes)

def putKind (start : Nat) (kind : UInt8) : Buffered := modify (·.set start kind)

def rollback (start : Nat) (error : RemoteCodecError) : Buffered := do
  modify (·.take start)
  throw error

end Buffered

open Buffered

variable (json : SerdeJson) (partly : (kind : ControlKind) → kind.Payload → List UInt8)

/-- `append_json`. -/
def writeJson (kind : ControlKind) (value : kind.Payload) (start : Nat) : Buffered := do
  putKind start kind.toByte
  match json.toWriter kind value with
  | .ok bytes => extend bytes
  | .error detail => do
    extend (partly kind value)
    throw (.invalidControlPayload kind.toByte detail)

/-- The branches of `FullSnapshot` and of `GridDelta`. -/
def writeGrid (kind : UInt8) (refused : Bool) (reason : String) (value : GridMessage)
    (start : Nat) : Buffered := do
  check (validateGridUpdate value.grid)
  putKind start kind
  extend (beBytes 8 value.sequence.toNat)
  extend [modesByte value]
  if refused then rollback start (.invalidFullSnapshot reason)
  else
    match value.grid.encode with
    | .ok bytes => extend bytes
    | .error error => throw (.grid error)

def writeMessage : RemoteMessage → (start : Nat) → Buffered
  | .terminal frame, start => do
    putKind start frame.frameType.toByte
    extend frame.payload
  | .hello value, start => do
    check value.validate
    writeJson json partly .hello value start
  | .helloAck value, start => do
    check value.validate
    writeJson json partly .helloAck value start
  | .fullSnapshot value, start =>
    writeGrid kindFullSnapshot (!value.grid.isFullSnapshot)
      "grid update is not marked as a full snapshot" value start
  | .gridDelta value, start =>
    writeGrid kindGridDelta value.grid.isFullSnapshot
      "grid delta is marked as a full snapshot" value start
  | .processExit value, start => writeJson json partly .processExit value start
  | .signal value, start => writeJson json partly .signal value start
  | .acquireControl value, start => do
    check (validateIdentifier "client nonce" value.clientNonce)
    writeJson json partly .acquireControl value start
  | .controlGranted value, start => writeJson json partly .controlGranted value start
  | .controlRevoked value, start => writeJson json partly .controlRevoked value start
  | .releaseControl value, start => writeJson json partly .releaseControl value start
  | .scrollbackRequest value, start => do
    check value.validate
    writeJson json partly .scrollbackRequest value start
  | .scrollbackResponse value, start => writeJson json partly .scrollbackResponse value start
  | .error value, start => writeJson json partly .error value start

def encodeBuffered (message : RemoteMessage) : Buffered := do
  let start := (← get).length
  extend (List.replicate headerBytes 0)
  tryCatch (writeMessage json partly message start) (rollback start)
  let output ← get
  let payloadLength := output.length - start - headerBytes
  let kind := output.getD start 0
  if payloadLength > maxFrameBytes then rollback start (.frameTooLarge payloadLength maxFrameBytes)
  else if isControl kind ∧ payloadLength > maxControlFrameBytes then
    rollback start (.controlFrameTooLarge payloadLength maxControlFrameBytes)
  else if payloadLength ≥ 2 ^ 32 then throw (.payloadLengthOverflow payloadLength)
  else modify fun output =>
    output.take (start + 1) ++ beBytes 4 payloadLength ++ output.drop (start + headerBytes)

end

end RemoteCodec

end Diri.Wire
