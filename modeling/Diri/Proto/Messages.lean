/-
The messages between the local Engine and a remote PTY Holder, with all they carry.

`Proto.RemotePty` knows every message but a grid by its length alone; here are the
messages themselves, in a namespace of their own, and what is checked of them.  Which
fields a JSON payload has, and that it gives back what was written, is `serde_json`'s
affair (`Proto.RemoteCodec`).
-/
import Diri.Proto.RemotePty

namespace Diri.Wire

def maxControlFrameBytes : Nat := 64 * 1024

/-! ### Kinds -/

def kindHello : UInt8 := 32
def kindHelloAck : UInt8 := 33
def kindFullSnapshot : UInt8 := 34
def kindProcessExit : UInt8 := 35
def kindSignal : UInt8 := 36
def kindAcquireControl : UInt8 := 37
def kindControlGranted : UInt8 := 38
def kindControlRevoked : UInt8 := 39
def kindReleaseControl : UInt8 := 40
def kindError : UInt8 := 41
def kindGridDelta : UInt8 := 42
def kindScrollbackRequest : UInt8 := 43
def kindScrollbackResponse : UInt8 := 44

/-! ### Errors -/

inductive RemoteCodecError where
  | unknownMessageType (kind : UInt8)
  | frameTooLarge (length max : Nat)
  | controlFrameTooLarge (length max : Nat)
  | payloadLengthOverflow (length : Nat)
  | invalidControlPayload (kind : UInt8) (detail : String)
  | invalidFullSnapshot (detail : String)
  | invalidIdentifier (field value : String)
  | invalidSessionToken
  | invalidLaunch (detail : String)
  | grid (error : GridCodecError)
  deriving DecidableEq, Repr

/-- The errors of `Proto.RemotePty` among those of the whole codec. -/
def RemoteCodecError.ofPty : Diri.RemoteCodecError → RemoteCodecError
  | .frameTooLarge length max => .frameTooLarge length max
  | .invalidFullSnapshot detail => .invalidFullSnapshot detail
  | .invalidLaunch detail => .invalidLaunch detail
  | .grid error => .grid error

/-! ### What is checked -/

def identifierByte (byte : UInt8) : Bool :=
  (48 ≤ byte && byte ≤ 57) || (65 ≤ byte && byte ≤ 90) || (97 ≤ byte && byte ≤ 122) ||
    byte = 45 || byte = 95 || byte = 46

def validateIdentifier (field value : String) : Except RemoteCodecError Unit :=
  let bytes := value.toByteArray.data.toList
  if bytes ≠ [] ∧ bytes.length ≤ 128 ∧ bytes.all identifierByte then .ok ()
  else .error (.invalidIdentifier field value)

/-- Authentication bearer shared only by the local Engine and one Holder. -/
structure SessionToken where
  value : String
  deriving DecidableEq

def SessionToken.new (value : String) : Except RemoteCodecError SessionToken :=
  let bytes := value.toByteArray.data.toList
  if bytes.length < 16 ∨ bytes.length > 512 ∨ 0 ∈ bytes then .error .invalidSessionToken
  else .ok ⟨value⟩

structure ProtocolVersion where
  major : UInt16
  minor : UInt16
  deriving DecidableEq, Repr

def ProtocolVersion.current : ProtocolVersion := ⟨1, 2⟩

inductive RemoteRole where
  | controller
  deriving DecidableEq, Repr

inductive RemoteCapability where
  | fullSnapshot
  | incrementalGrid
  | processExit
  | signal
  | controllerLease
  | scrollback
  | sessionManagement
  | environmentCapture
  | directoryList
  | persistenceProbe
  | atomicActivation
  | agentEvents
  | mcpStdio
  | resourceInspect
  | portForward
  | rebootRecovery
  | migration
  /-- A capability introduced by a newer protocol minor. -/
  | unknown
  deriving DecidableEq, Repr

/-- The name that `{:?}` gives. -/
def RemoteCapability.debug : RemoteCapability → String
  | fullSnapshot => "FullSnapshot"
  | incrementalGrid => "IncrementalGrid"
  | processExit => "ProcessExit"
  | signal => "Signal"
  | controllerLease => "ControllerLease"
  | scrollback => "Scrollback"
  | sessionManagement => "SessionManagement"
  | environmentCapture => "EnvironmentCapture"
  | directoryList => "DirectoryList"
  | persistenceProbe => "PersistenceProbe"
  | atomicActivation => "AtomicActivation"
  | agentEvents => "AgentEvents"
  | mcpStdio => "McpStdio"
  | resourceInspect => "ResourceInspect"
  | portForward => "PortForward"
  | rebootRecovery => "RebootRecovery"
  | migration => "Migration"
  | unknown => "Unknown"

/-- Terminal capabilities required by every phase-one Holder attach. -/
def phaseOneHolderCapabilities : List RemoteCapability :=
  [.fullSnapshot, .incrementalGrid, .processExit, .signal, .controllerLease, .scrollback]

structure Hello where
  protocol : ProtocolVersion
  localBuildId : String
  sessionId : String
  sessionToken : SessionToken
  expectedIncarnation : Option String
  requestedRole : RemoteRole
  clientNonce : String
  requiredCapabilities : List RemoteCapability
  lastAcknowledgedOutputOffset : Option UInt64
  lastAcknowledgedGridSequence : Option UInt64
  deriving DecidableEq

def Hello.validate (hello : Hello) : Except RemoteCodecError Unit := do
  validateIdentifier "local build id" hello.localBuildId
  validateIdentifier "session id" hello.sessionId
  match hello.expectedIncarnation with
  | some incarnation => validateIdentifier "expected incarnation" incarnation
  | none => pure ()
  validateIdentifier "client nonce" hello.clientNonce
  let _ ← SessionToken.new hello.sessionToken.value

inductive RemoteProcessState where
  | running (pid : UInt32)
  | exited (code signal : Option Int32)
  deriving DecidableEq

structure HelloAck where
  protocol : ProtocolVersion
  holderBuildId : String
  sessionIncarnation : String
  capabilities : List RemoteCapability
  controllerEpoch : UInt64
  processState : RemoteProcessState
  outputOffset : UInt64
  snapshotSequence : UInt64
  deriving DecidableEq

def HelloAck.validate (ack : HelloAck) : Except RemoteCodecError Unit := do
  validateIdentifier "holder build id" ack.holderBuildId
  validateIdentifier "session incarnation" ack.sessionIncarnation

/-- A `FullSnapshot` or a `GridDelta`: they have the same fields. -/
structure GridMessage where
  sequence : UInt64
  altScreen : Bool
  bracketedPaste : Bool
  mouseReporting : Bool
  grid : GridUpdate
  deriving DecidableEq

structure ProcessExit where
  code : Option Int32
  signal : Option Int32
  deriving DecidableEq

structure Signal where
  controllerEpoch : UInt64
  signal : Int32
  deriving DecidableEq

structure AcquireControl where
  clientNonce : String
  deriving DecidableEq

structure ControlGranted where
  controllerEpoch : UInt64
  deriving DecidableEq

structure ControlRevoked where
  controllerEpoch : UInt64
  reason : String
  deriving DecidableEq

structure ReleaseControl where
  controllerEpoch : UInt64
  deriving DecidableEq

structure RemoteError where
  code : String
  message : String
  fatal : Bool
  deriving DecidableEq

structure ScrollbackRequest where
  requestId : UInt64
  firstRow : Int64
  maxRows : Int64
  deriving DecidableEq

def ScrollbackRequest.validate (request : ScrollbackRequest) : Except RemoteCodecError Unit :=
  if request.requestId = 0 ∨ request.firstRow < 0 ∨ ¬(0 ≤ request.maxRows ∧ request.maxRows ≤ 1024)
  then
    .error (.invalidControlPayload kindScrollbackRequest "scrollback request id/range is invalid")
  else .ok ()

structure ReadScrollbackCellsResult where
  payload : List UInt8
  firstRow : Int64
  rowCount : Int64
  totalRows : Int64
  liveStartRow : Int64
  cols : Int64
  contentSeq : UInt64
  deriving DecidableEq

structure ScrollbackResponse where
  requestId : UInt64
  result : ReadScrollbackCellsResult
  deriving DecidableEq

inductive RemoteMessage where
  | terminal (frame : Frame)
  | hello (value : Hello)
  | helloAck (value : HelloAck)
  | fullSnapshot (value : GridMessage)
  | gridDelta (value : GridMessage)
  | processExit (value : ProcessExit)
  | signal (value : Signal)
  | acquireControl (value : AcquireControl)
  | controlGranted (value : ControlGranted)
  | controlRevoked (value : ControlRevoked)
  | releaseControl (value : ReleaseControl)
  | scrollbackRequest (value : ScrollbackRequest)
  | scrollbackResponse (value : ScrollbackResponse)
  | error (value : RemoteError)
  deriving DecidableEq

/-- The grid checks of `Proto.RemotePty`. -/
def validateGridUpdate (grid : GridUpdate) : Except RemoteCodecError Unit :=
  match Diri.validateGridUpdate grid with
  | .ok () => .ok ()
  | .error error => .error (.ofPty error)

end Diri.Wire
