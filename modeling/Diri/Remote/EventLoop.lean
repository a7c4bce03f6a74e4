/-
The raw output that a Holder keeps on disk.

The file is a window on the PTY's byte stream: `baseOffset` is the offset of its first
byte.  Once it outgrows its capacity its older part is dropped.  Here nothing fails: the
file always takes what is written and gives back what it has.

The Holder's event loop, with the messages it takes.

`Remote.Holder` knows of messages only what they do to grids.  Here connections are byte
streams: a chunk that is read goes through the codec, and every message that comes out of
it is handled in turn.  There is the current connection and at most one that has not
authenticated yet; a new connector takes the place of the latter.

What the world decides is part of an action: which bytes a socket gives, how many it
takes, what the files and the PTY answer while a message is handled (`World`), what the
emulator makes of a chunk.  `none` is a Holder that stopped with an error.  The order in
which `poll` reports is left open.

For the proofs the Holder remembers who was granted which epoch and whose messages did
something (`history`), the PTY's output so far, and the connections that are gone; a
connection remembers what was queued to it and where it attached.
-/
import Diri.Lib.Streams
import Diri.Proto.RemoteCodec
import Diri.Remote.Holder

namespace Diri.Wire

def diskCapacity : Nat := 32 * 2 ^ 20

structure OutputLog where
  baseOffset : Nat := 0
  /-- What the file holds behind its header. -/
  payload : List UInt8 := []

namespace OutputLog

def tailOffset (log : OutputLog) : Nat := log.baseOffset + log.payload.length

def truncateToHalf (log : OutputLog) : OutputLog :=
  let keep := diskCapacity / 2
  let dropBytes := log.payload.length - keep
  { baseOffset := log.baseOffset + dropBytes
    payload := log.payload.drop dropBytes }

/-- The offset of the first byte appended, and the log afterwards. -/
def append (bytes : List UInt8) (log : OutputLog) : Nat × OutputLog :=
  let start := log.tailOffset
  let log := { log with payload := log.payload ++ bytes }
  (start, if log.payload.length > diskCapacity then log.truncateToHalf else log)

/-- At most `maximum` bytes, and the offset of the first of them. -/
def read (requestedOffset maximum : Nat) (log : OutputLog) : Nat × List UInt8 :=
  let start := max requestedOffset log.baseOffset
  let tail := log.tailOffset
  if start ≥ tail ∨ maximum = 0 then (tail, [])
  else (start, (log.payload.drop (start - log.baseOffset)).take (min (tail - start) maximum))

end OutputLog

def maxPendingInputBytes : Nat := 2 ^ 20

def replayBudgetBytes : Nat := 4 * 2 ^ 20

def protocolMajor : UInt16 := 1

/-! ### Connections -/

structure Connection where
  /-- The how-manieth connector this is. -/
  client : Nat
  epoch : Option Nat := none
  /-- What the codec has buffered. -/
  unread : List UInt8 := []
  outbound : List UInt8 := []
  sent : Nat := 0
  queued : List RemoteMessage := []
  /-- What the client had acknowledged, and the tail of the log, when it attached. -/
  attached : Option (Option Nat × Nat) := none

/-- How a loop of nonblocking writes ends, if the bytes do not run out first. -/
inductive WriteEnd where
  | wouldBlock
  /-- `BrokenPipe` or `ConnectionReset`. -/
  | broken
  | failed
  deriving DecidableEq

structure Writes where
  accepted : Nat
  ending : WriteEnd

namespace Connection

def queue (json : SerdeJson) (message : RemoteMessage) (c : Connection) :
    Except RemoteCodecError Connection :=
  match RemoteCodec.encodeInto json message c.outbound with
  | (.ok (), outbound) => .ok { c with
      outbound := outbound
      queued := c.queued ++ [message] }
  | (.error error, _) => .error error

/-- `none` is everything written, or a socket that takes no more now. -/
def flush (writes : Writes) (c : Connection) : Option WriteEnd × Connection :=
  let sent := min (c.sent + writes.accepted) c.outbound.length
  if sent = c.outbound.length then
    (none, { c with
      outbound := []
      sent := 0 })
  else
    (if writes.ending = .wouldBlock then none else some writes.ending, { c with sent := sent })

end Connection

/-! ### The Holder -/

structure SessionState where
  sessionId : String
  sessionIncarnation : String
  processState : RemoteProcessState
  cols : Nat
  rows : Nat
  outputOffset : Nat := 0
  snapshotSequence : Nat := 0
  controllerEpoch : Nat := 0

/-- What a controller brings about. -/
inductive Effect where
  | wrote (bytes : List UInt8)
  | resized (cols rows : Nat)
  | signalled (signal : Int32)
  deriving DecidableEq

inductive Event where
  | granted (client epoch : Nat)
  | took (client epoch : Nat) (effect : Effect)
  deriving DecidableEq

structure Holder where
  state : SessionState
  screen : HeadlessScreen
  log : OutputLog := {}
  connection : Option Connection := none
  pendingConnection : Option Connection := none
  pendingInput : List UInt8 := []
  /-- Whether there is a `pty_reader`. -/
  reading : Bool := true
  /-- Whether there is an `exit_watcher`. -/
  watching : Bool := true
  /-- How many connectors were accepted. -/
  accepted : Nat := 0
  history : List Event := []
  stream : List UInt8 := []
  past : List Connection := []

/-- What the Holder uses that is not in this repository, and its own build id. -/
structure Host where
  json : SerdeJson
  tokenHash : SessionToken → String
  hasher : Hasher
  buildId : String

/-- What the world answers while one message is handled. -/
structure World where
  /-- The auth file, trimmed, or `none` if it cannot be read. -/
  auth : Option String
  /-- Whether the PTY takes a new size, and what the emulator makes of it. -/
  resized : Bool
  reflowed : Term
  sgrMouse : Bool
  /-- What the PTY takes of the pending input. -/
  input : Writes
  killed : Bool
  scrollback : ReadScrollbackCellsResult
  /-- Whether `write_state` succeeds. -/
  stored : Bool

inductive HandleError where
  | io (text : String)
  | codec (error : RemoteCodecError)
  /-- An error of the operating system. -/
  | os

/-- A connection that is read, outside the Holder meanwhile. -/
structure Turn where
  holder : Holder
  connection : Connection

namespace Turn

/-- Change one of the two. -/
def onHolder (change : Holder → Holder) (turn : Turn) : Turn :=
  { turn with holder := change turn.holder }

def onConnection (change : Connection → Connection) (turn : Turn) : Turn :=
  { turn with connection := change turn.connection }

/-- The codec of the connection that is read keeps these bytes. -/
def setUnread (unread : List UInt8) (turn : Turn) : Turn :=
  turn.onConnection fun c => { c with unread := unread }

end Turn

abbrev Turns (α : Type) : Type := Handler Turn HandleError α

namespace Holder

variable (host : Host)

/-- The picture the screen shows, under the last number spent. -/
def gridMessage (grid : GridUpdate) (holder : Holder) : GridMessage where
  sequence := .ofNat holder.state.snapshotSequence
  altScreen := holder.screen.term.altScreen
  bracketedPaste := holder.screen.term.bracketedPaste
  mouseReporting := holder.screen.term.mouseMode
  grid := grid

def bumpSequence (holder : Holder) : Holder :=
  { holder with state := { holder.state with
      snapshotSequence := saturatingSucc holder.state.snapshotSequence } }

def record (event : Event) (holder : Holder) : Holder :=
  { holder with history := holder.history ++ [event] }

/-! ### Handling messages -/

def queueTo (message : RemoteMessage) : Turns Unit := do
  let turn ← get
  match turn.connection.queue host.json message with
  | .ok c => modify (Turn.onConnection fun _ => c)
  | .error error => throw (.codec error)

def queueSnapshot : Turns Unit := do
  let turn ← get
  queueTo host (.fullSnapshot (turn.holder.gridMessage turn.holder.screen.fullSnapshot))

/-- The rest of the pending input, and whether the write failed. -/
def flushPending (writes : Writes) (holder : Holder) : Bool × Holder :=
  let rest := holder.pendingInput.drop writes.accepted
  (rest ≠ [] ∧ writes.ending ≠ .wouldBlock, { holder with pendingInput := rest })

def writeInput (client epoch : Nat) (bytes : List UInt8) (world : World) : Turns Unit := do
  let turn ← get
  if bytes = [] then pure ()
  else if turn.holder.pendingInput.length + bytes.length > maxPendingInputBytes then
    throw (.io "pending input queue is full")
  else
    modify (Turn.onHolder fun holder =>
      { holder.record (.took client epoch (.wrote bytes)) with
        pendingInput := holder.pendingInput ++ bytes })
    let turn ← get
    modify (Turn.onHolder fun holder => (holder.flushPending world.input).2)
    if (turn.holder.flushPending world.input).1 then throw .os

/-- The bytes of one turn of the wheel. -/
def wheelBytes (sgr up : Bool) (x y : Nat) : List UInt8 :=
  let button := if up then 64 else 65
  if sgr then
    ("\x1b[<" ++ toString button ++ ";" ++ toString (x + 1) ++ ";" ++ toString (y + 1)
      ++ "M").toByteArray.data.toList
  else
    [0x1b, 0x5b, 0x4d, .ofNat (32 + button), .ofNat (min (32 + x + 1) 255),
      .ofNat (min (32 + y + 1) 255)]

def mouseWheel (sgr up : Bool) (lines col row : Nat) (screen : HeadlessScreen) : List UInt8 :=
  if !screen.term.mouseMode ∨ lines = 0 then []
  else
    let x := min col (screen.geometry.cols - 1)
    let y := min row (screen.geometry.rows - 1)
    (List.replicate lines (wheelBytes sgr up x y)).flatten

/-- The numbers of `SIGINT`, `SIGTERM`, `SIGKILL`, `SIGSTOP`, `SIGCONT`, `SIGHUP`, `SIGQUIT`. -/
def allowedSignal (signal : Int32) : Bool :=
  signal = 2 || signal = 15 || signal = 9 || signal = 19 || signal = 18 || signal = 1 ||
    signal = 3

def resize (client epoch : Nat) (frame : Frame) (world : World) : Turns Unit :=
  match frame.resizePayload with
  | none => throw (.io "Resize payload must contain exactly two u16 values")
  | some (cols, rows) =>
    if frame.payload.length ≠ 4 ∨ validateTerminalDimensions cols rows ≠ .ok () then
      throw (.io "Resize dimensions are invalid")
    else if !world.resized then throw .os
    else do
      modify (Turn.onHolder fun holder =>
        { holder.record (.took client epoch (.resized cols rows)) with
          screen := holder.screen.resize cols rows world.reflowed
          state := { holder.state with
            cols := cols
            rows := rows
            snapshotSequence := saturatingSucc holder.state.snapshotSequence } })
      if !world.stored then throw .os else queueSnapshot host

/-- What a controller may send in a terminal frame. -/
def handleTerminal (client epoch : Nat) (frame : Frame) (world : World) : Turns Unit :=
  match frame.frameType with
  | .input => writeInput client epoch frame.payload world
  | .resize => resize host client epoch frame world
  | .ping => queueTo host (.terminal .pong)
  | .scroll =>
    match frame.scrollPayload with
    | none => throw (.io "Scroll payload is invalid")
    | some (direction, lines, col, row) => do
        let turn ← get
        writeInput client epoch
          (mouseWheel world.sgrMouse (direction = 0) lines col row turn.holder.screen) world
  | _ => throw (.io "terminal frame is not valid from a controller")

/-- A message of the connection that holds the current epoch. -/
def handleControl (client epoch : Nat) (message : RemoteMessage) (world : World) : Turns Unit :=
  match message with
  | .terminal frame => handleTerminal host client epoch frame world
  | .signal signal =>
    if signal.controllerEpoch.toNat ≠ epoch ∨ !allowedSignal signal.signal then
      throw (.io "signal or controller epoch is invalid")
    else do
      modify (Turn.onHolder (record (.took client epoch (.signalled signal.signal))))
      if !world.killed then throw .os
  | .acquireControl _ => queueTo host (.controlGranted ⟨.ofNat epoch⟩)
  | .scrollbackRequest request =>
    queueTo host (.scrollbackResponse ⟨request.requestId, world.scrollback⟩)
  | .releaseControl release =>
    if release.controllerEpoch.toNat ≠ epoch then
      throw (.io "release uses a stale controller epoch")
    else throw (.io "controller released")
  | _ => throw (.io "message is not valid from a controller")

/-! ### The handshake -/

/-- What a `Hello` must pass before anything changes. -/
def checkHello (hello : Hello) (world : World) (holder : Holder) : Except HandleError Unit :=
  if hello.protocol.major ≠ protocolMajor then .error (.io "protocol major does not match")
  else if hello.sessionId ≠ holder.state.sessionId ∨
      hello.expectedIncarnation.any (· ≠ holder.state.sessionIncarnation) then
    .error (.io "session identity or incarnation does not match")
  else
    match world.auth with
    | none => .error .os
    | some expected =>
      if expected ≠ host.tokenHash hello.sessionToken then
        .error (.io "session authentication failed")
      else
        match hello.requiredCapabilities.find? (· ∉ phaseOneHolderCapabilities) with
        | some missing =>
          .error (.io ("required capability " ++ missing.debug ++ " is unavailable"))
        | none => .ok ()

/-- The loop of `queue_replay`; every turn of it reads at least one byte. -/
def replayLoop (tail : Nat) : (fuel : Nat) → (offset : Nat) → Turns Unit
  | 0, _ => pure ()
  | fuel + 1, offset =>
    if offset < tail then do
      let turn ← get
      let (actual, bytes) := turn.holder.log.read offset (64 * 1024)
      if bytes = [] then pure ()
      else do
        queueTo host (.terminal (.output actual bytes))
        replayLoop tail fuel (actual + bytes.length)
    else pure ()

def queueReplay (acknowledged : Option Nat) : Turns Unit := do
  let turn ← get
  let tail := turn.holder.log.tailOffset
  let requested := acknowledged.getD tail
  if requested ≥ tail then pure ()
  else do
    let start := max requested (tail - replayBudgetBytes)
    queueTo host (.terminal (.replayBegin start))
    replayLoop host tail (tail - start) start
    queueTo host (.terminal (.replayEnd tail))

/-- The connection becomes the holder of a new epoch. -/
def grant (acknowledged : Option Nat) (turn : Turn) : Turn :=
  let epoch := saturatingSucc turn.holder.state.controllerEpoch
  { holder :=
      { turn.holder.record (.granted turn.connection.client epoch) with
        state := { turn.holder.state with controllerEpoch := epoch } }
    connection :=
      { turn.connection with
        epoch := some epoch
        attached := some (acknowledged, turn.holder.log.tailOffset) } }

def helloAck (holder : Holder) : HelloAck where
  protocol := .current
  holderBuildId := host.buildId
  sessionIncarnation := holder.state.sessionIncarnation
  capabilities := phaseOneHolderCapabilities
  controllerEpoch := .ofNat holder.state.controllerEpoch
  processState := holder.state.processState
  outputOffset := .ofNat holder.state.outputOffset
  snapshotSequence := .ofNat holder.state.snapshotSequence

/-- The part of the handshake behind the replay. -/
def finishHandshake (world : World) : Turns Unit := do
  modify (Turn.onHolder bumpSequence)
  queueSnapshot host
  let turn ← get
  queueTo host (.controlGranted ⟨.ofNat turn.holder.state.controllerEpoch⟩)
  if !world.stored then throw .os

def handshake (hello : Hello) (world : World) : Turns Unit := do
  let turn ← get
  match turn.holder.checkHello host hello world with
  | .error error => throw error
  | .ok () => do
      let acknowledged := hello.lastAcknowledgedOutputOffset.map UInt64.toNat
      modify (grant acknowledged)
      let turn ← get
      queueTo host (.helloAck (turn.holder.helloAck host))
      queueReplay host acknowledged
      finishHandshake host world

def handleMessage (message : RemoteMessage) (world : World) : Turns Unit := do
  let turn ← get
  match turn.connection.epoch with
  | none =>
    match message with
    | .hello hello => handshake host hello world
    | _ => throw (.io "Hello must be the first attach message")
  | some epoch =>
    if epoch ≠ turn.holder.state.controllerEpoch then
      throw (.io "controller epoch was revoked")
    else handleControl host turn.connection.client epoch message world

/-! ### Reading -/

/-- What `read` gives; no bytes are the end of the stream. -/
inductive Read where
  | ok (bytes : List UInt8) (world : Nat → World)
  | failed

/-- Why a connection is closed. -/
inductive Ending where
  /-- The client hung up, or its socket failed. -/
  | gone
  /-- An error that `send_fatal` reports. -/
  | fatal (code : String) (error : HandleError)

/-- Message after message, each with the world's next answers. -/
def handleMessages : List RemoteMessage → (Nat → World) → Turns Unit
  | [], _ => pure ()
  | message :: messages, world => do
      handleMessage host message (world 0)
      handleMessages messages fun n => world (n + 1)

/-- Reads until the socket would block; `none` leaves the connection open. -/
def readMessages : List Read → Turn → Turn × Option Ending
  | [], turn => (turn, none)
  | .failed :: _, turn => (turn, some .gone)
  | .ok bytes world :: reads, turn =>
    if bytes = [] then (turn, some .gone)
    else
      match (RemoteCodec.framing host.json).feed turn.connection.unread bytes with
      | (.error error, unread) =>
        (turn.setUnread unread, some (.fatal "invalid_frame" (.codec error)))
      | (.ok messages, unread) =>
        match (handleMessages host messages world).exec (turn.setUnread unread) with
        | (.ok (), turn) => readMessages reads turn
        | (.error error, turn) => (turn, some (.fatal "protocol_error" error))

/-- The connection is gone. -/
def retire (c : Connection) (holder : Holder) : Holder :=
  { holder with past := holder.past ++ [c] }

def readConnection (reads : List Read) (holder : Holder) : Holder :=
  match holder.connection with
  | none => holder
  | some c =>
    match readMessages host reads ⟨{ holder with connection := none }, c⟩ with
    | (turn, none) => { turn.holder with connection := some turn.connection }
    | (turn, some _) => turn.holder.retire turn.connection

/-- The previous controller is told, and given one attempt to take what it is owed. -/
def revoke (flushed : Writes) (holder : Holder) : Holder :=
  match holder.connection with
  | none => holder
  | some previous =>
    let revoked : ControlRevoked :=
      ⟨.ofNat (previous.epoch.getD 0), "superseded by a newer authenticated attach"⟩
    let told := (previous.queue host.json (.controlRevoked revoked)).toOption.getD previous
    { holder with connection := none }.retire (told.flush flushed).2

/-- `flushed` is what the connection that is replaced still takes. -/
def readPendingConnection (reads : List Read) (flushed : Writes) (holder : Holder) : Holder :=
  match holder.pendingConnection with
  | none => holder
  | some c =>
    match readMessages host reads ⟨{ holder with pendingConnection := none }, c⟩ with
    | (turn, some _) => turn.holder.retire turn.connection
    | (turn, none) =>
      if turn.connection.epoch.isSome then
        { turn.holder.revoke host flushed with connection := some turn.connection }
      else { turn.holder with pendingConnection := some turn.connection }

/-! ### The rest of the loop -/

def acceptConnection (holder : Holder) : Holder :=
  { holder with
    pendingConnection := some { client := holder.accepted }
    accepted := holder.accepted + 1 }

/-- A buffer that grew past its bound is discarded for a fresh snapshot. -/
def reseed (c : Connection) (holder : Holder) : Option Holder := do
  let c := { c with
    outbound := []
    sent := 0 }
  let c ← (c.queue host.json (.error {
    code := "slow_client_reseed"
    message := "incremental output was discarded; applying a fresh terminal snapshot"
    fatal := false })).toOption
  let holder := holder.bumpSequence
  let c ← (c.queue host.json
    (.fullSnapshot (holder.gridMessage holder.screen.fullSnapshot))).toOption
  return { holder with connection := some c }

def queue (message : RemoteMessage) (holder : Holder) : Option Holder :=
  match holder.connection with
  | none => some holder
  | some c => do
      let c ← (c.queue host.json message).toOption
      if c.outbound.length > maxOutboundBytes then
        -- bytes of the head frame may have reached the client already
        if c.sent ≠ 0 then return { holder with connection := none }.retire c
        else holder.reseed host c
      else return { holder with connection := some c }

/-- Whether there is a controller that was granted its epoch. -/
def attached (holder : Holder) : Bool :=
  holder.connection.any fun c => c.epoch.isSome

/-- One turn of the loop of `drain_pty`; no bytes are the end of the PTY. -/
def drainPty (bytes : List UInt8) (painted : Painted) (holder : Holder) : Option Holder :=
  if !holder.reading then some holder
  else if bytes = [] then some { holder with reading := false }
  else
    let (offset, log) := holder.log.append bytes
    let holder := { holder with
      log := log
      stream := holder.stream ++ bytes
      state := { holder.state with outputOffset := log.tailOffset }
      screen := holder.screen.feed host.hasher painted }
    if holder.attached then holder.queue host (.terminal (.output offset bytes))
    else some holder

def flushInput (writes : Writes) (holder : Holder) : Option Holder :=
  if (holder.flushPending writes).1 then none else some (holder.flushPending writes).2

def flushConnection (writes : Writes) (holder : Holder) : Option Holder :=
  match holder.connection with
  | none => some holder
  | some c =>
    match c.flush writes with
    | (none, c) => some { holder with connection := some c }
    | (some .broken, c) => some ({ holder with connection := none }.retire c)
    | (some _, _) => none

def emitGridDelta (holder : Holder) : Option Holder :=
  if !holder.attached then some holder
  else
    let (grid, screen) := holder.screen.gridUpdate false
    let holder := { holder with screen := screen }.bumpSequence
    if grid.isFullSnapshot then holder.queue host (.fullSnapshot (holder.gridMessage grid))
    else holder.queue host (.gridDelta (holder.gridMessage grid))

def recordExit (exit : ProcessExit) (holder : Holder) : Option Holder :=
  if !holder.watching then some holder
  else
    let holder := { holder with
      watching := false
      reading := false
      state := { holder.state with
        processState := .exited exit.code exit.signal
        outputOffset := holder.log.tailOffset } }
    holder.queue host (.processExit exit)

/-- A Holder that has just started. -/
def new (sessionId sessionIncarnation : String) (pid : UInt32) (cols rows : Nat) (term : Term) :
    Holder where
  state :=
    { sessionId := sessionId
      sessionIncarnation := sessionIncarnation
      processState := .running pid
      cols := cols
      rows := rows }
  screen := .new cols rows term

end Holder

/-! ### Runs -/

inductive LoopAction where
  | acceptConnection
  | drainPty (bytes : List UInt8) (painted : Painted)
  | flushInput (writes : Writes)
  | recordExit (exit : ProcessExit)
  | readConnection (reads : List Holder.Read)
  | flushConnection (writes : Writes)
  | readPendingConnection (reads : List Holder.Read) (flushed : Writes)
  | emitGridDelta

def loopStep (host : Host) (holder : Holder) : LoopAction → Option Holder
  | .acceptConnection => some holder.acceptConnection
  | .drainPty bytes painted => holder.drainPty host bytes painted
  | .flushInput writes => holder.flushInput writes
  | .recordExit exit => holder.recordExit host exit
  | .readConnection reads => some (holder.readConnection host reads)
  | .flushConnection writes => holder.flushConnection writes
  | .readPendingConnection reads flushed => some (holder.readPendingConnection host reads flushed)
  | .emitGridDelta => holder.emitGridDelta host

/-! ### A host for examples -/

def demoHello (acknowledged : Option UInt64) : Hello where
  protocol := .current
  localBuildId := "b"
  sessionId := "s"
  sessionToken := ⟨"0123456789abcdef"⟩
  expectedIncarnation := none
  requestedRole := .controller
  clientNonce := "n"
  requiredCapabilities := []
  lastAcknowledgedOutputOffset := acknowledged
  lastAcknowledgedGridSequence := none

/-- Its JSON form. -/
def helloText (acknowledged : Option UInt64) : String :=
  "\x7b\"protocol\":\x7b\"major\":1,\"minor\":2\x7d,\"localBuildId\":\"b\",\"sessionId\":\"s\","
    ++ "\"sessionToken\":\"0123456789abcdef\",\"expectedIncarnation\":null,"
    ++ "\"requestedRole\":\"controller\",\"clientNonce\":\"n\",\"requiredCapabilities\":[],"
    ++ "\"lastAcknowledgedOutputOffset\":" ++ (acknowledged.map toString).getD "null"
    ++ ",\"lastAcknowledgedGridSequence\":null\x7d"

/-- A host whose `serde_json` knows two such `Hello`s, and whose hash knows their token. -/
def demoHost : Host where
  json :=
    { toWriter := fun kind value =>
        match kind, value with
        | .controlGranted, granted =>
          .ok ("\x7b\"controllerEpoch\":" ++ toString (ControlGranted.controllerEpoch granted)
            ++ "\x7d").toByteArray.data.toList
        | .helloAck, ack =>
          .ok ("\x7b\"protocol\":\x7b\"major\":1,\"minor\":2\x7d,\"holderBuildId\":\"b\","
            ++ "\"sessionIncarnation\":\"i\",\"capabilities\":[\"full-snapshot\","
            ++ "\"incremental-grid\",\"process-exit\",\"signal\",\"controller-lease\","
            ++ "\"scrollback\"],\"controllerEpoch\":" ++ toString (HelloAck.controllerEpoch ack)
            ++ ",\"processState\":\x7b\"state\":\"running\",\"pid\":7\x7d,\"outputOffset\":"
            ++ toString (HelloAck.outputOffset ack) ++ ",\"snapshotSequence\":"
            ++ toString (HelloAck.snapshotSequence ack) ++ "\x7d").toByteArray.data.toList
        | _, _ => .error "unknown"
      fromSlice := fun kind bytes =>
        match kind with
        | .hello =>
          if bytes = (helloText none).toByteArray.data.toList then .ok (demoHello none)
          else if bytes = (helloText (some 1)).toByteArray.data.toList then
            .ok (demoHello (some 1))
          else .error "unknown"
        | _ => .error "unknown" }
  tokenHash token :=
    if token.value = "0123456789abcdef" then
      "9f9f5111f7b27a781f1f1ddde5ebc2dd2b796bfc7365c9c28b548e564176929f"
    else ""
  hasher _ _ := 0
  buildId := "b"

def blankTerm : Term := .filled ⟨' ', .default, .defaultInverted, 0⟩

/-- Files and a PTY that do what they should. -/
def demoWorld : World where
  auth := some "9f9f5111f7b27a781f1f1ddde5ebc2dd2b796bfc7365c9c28b548e564176929f"
  resized := true
  reflowed := blankTerm
  sgrMouse := false
  input := ⟨0, .wouldBlock⟩
  killed := true
  scrollback := ⟨[], 0, 0, 0, 0, 1, 0⟩
  stored := true

def helloRead (acknowledged : Option UInt64) : Holder.Read :=
  .ok (Framing.header kindHello (helloText acknowledged).toByteArray.data.toList.length
    ++ (helloText acknowledged).toByteArray.data.toList) fun _ => demoWorld

def demoHolder : Holder := .new "s" "i" 7 1 1 blankTerm

end Diri.Wire
