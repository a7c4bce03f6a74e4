/-
The remote Holder and the clients it serves, as far as grids are concerned.

The Holder owns the screen of one session.  It has at most one controlling connection
with a buffer of outbound bytes, and it numbers the grids it queues.  A connection is
replaced by an authenticated attach, which is seeded with a full snapshot; deltas follow
as output flows.  A client reads what was sent to it and applies it to its mirror.

Each queued message carries the picture the screen showed when it was queued: that is
what its receiver should show.  The Holder does not look at it.

What the world decides is part of an action: what the emulator makes of a chunk, how
many bytes a socket takes, whether a file could be written, what a controller sends.
`none` is a Holder that stopped with an error.  What `send_fatal` writes on a connection
that is being closed is left out.
-/
import Diri.Proto.RemotePty

namespace Diri

def maxOutboundBytes : Nat := 20 * 2 ^ 20

/-- `saturating_add(1)` on a `u64`. -/
def saturatingSucc (n : Nat) : Nat := min (n + 1) maxU64

/-! ### Connections -/

/-- A message, its bytes on the wire, and the picture its receiver should show. -/
structure Queued where
  message : RemoteMessage
  bytes : Nat
  shown : View
  deriving DecidableEq, Repr

/-- The client at the other end: what it has not read yet, and its mirror. -/
structure Link where
  wire : List Queued := []
  mirror : GridMirror
  deriving DecidableEq, Repr

/-- The client reads a message; a message its mirror rejects changes nothing. -/
def Link.receive (link : Link) : Link :=
  match link.wire with
  | [] => link
  | queued :: rest =>
    match link.mirror.receive queued.message with
    | .ok mirror => ⟨rest, mirror⟩
    | .error _ => ⟨rest, link.mirror⟩

/-- How many of the messages are complete within the first `sent` bytes. -/
def arrived (sent : Nat) : List Queued → Nat
  | [] => 0
  | queued :: rest => if queued.bytes ≤ sent then arrived (sent - queued.bytes) rest + 1 else 0

structure Connection where
  epoch : Option Nat := none
  outbound : List Queued := []
  sent : Nat := 0
  link : Link
  deriving DecidableEq, Repr

namespace Connection

def outboundLen (c : Connection) : Nat := (c.outbound.map Queued.bytes).sum

def queue (message : RemoteMessage) (shown : View) (c : Connection) :
    Except RemoteCodecError Connection := do
  let bytes ← RemoteCodec.encodeInto message
  return { c with outbound := c.outbound ++ [⟨message, bytes, shown⟩] }

/-- The payload of an `Error`: its JSON, when neither text needs an escape. -/
def errorPayload (code message : String) (fatal : Bool) : Nat :=
  33 + code.utf8ByteSize + message.utf8ByteSize + (if fatal then 4 else 5)

/-- `flush`, up to the point where the socket has taken `accepted` bytes. -/
def flush (accepted : Nat) (c : Connection) : Connection :=
  let sent := min (c.sent + accepted) c.outboundLen
  let complete := (c.outbound.take (arrived sent c.outbound)).drop (arrived c.sent c.outbound)
  let link := { c.link with wire := c.link.wire ++ complete }
  if sent = c.outboundLen then
    { c with
      outbound := []
      sent := 0
      link := link }
  else
    { c with
      sent := sent
      link := link }

end Connection

/-! ### The Holder -/

structure Holder where
  screen : HeadlessScreen
  snapshotSequence : Nat := 0
  controllerEpoch : Nat := 0
  connection : Option Connection := none
  /-- The clients of connections that are gone, with what they have not read yet. -/
  past : List Link := []

/-- A message of a controller, and what comes of it outside the Holder. -/
inductive Control where
  /-- `reflowed` is the emulator at the new size, or `none` if the PTY refuses it. -/
  | resize (cols rows : Nat) (reflowed : Option Term) (stored : Bool)
  /-- Ping, AcquireControl and ScrollbackRequest get one message back. -/
  | answered (payloadLength : Nat)
  /-- Input, Scroll and Signal get none. -/
  | taken
  /-- A message that ends the connection. -/
  | refused

/-- An authenticated attach: what its `Hello` brings about, and what came along with it. -/
structure Attach where
  /-- What the client shows when it connects. -/
  mirror : GridMirror
  helloAck : Nat
  /-- The frames of the replay, or `none` if the log could not be read. -/
  replay : Option (List Nat)
  controlGranted : Nat
  stored : Bool
  /-- What the client sent along with its `Hello`. -/
  rest : List Control
  /-- Whether the client was gone by then. -/
  closed : Bool
  controlRevoked : Nat
  /-- How many bytes the connection that is replaced still takes. -/
  flushed : Nat

namespace Holder

/-- The connection is dropped; its client keeps what was sent to it in full. -/
def dropConnection (c : Connection) (holder : Holder) : Holder :=
  { holder with
    connection := none
    past := holder.past ++ [c.link] }

def gridState (holder : Holder) (grid : GridUpdate) : GridState where
  sequence := holder.snapshotSequence
  altScreen := holder.screen.term.altScreen
  bracketedPaste := holder.screen.term.bracketedPaste
  mouseReporting := holder.screen.term.mouseMode
  grid := grid

def queueSnapshot (c : Connection) (holder : Holder) : Except RemoteCodecError Connection :=
  c.queue (.fullSnapshot (holder.gridState holder.screen.fullSnapshot)) holder.screen.view

/-- A buffer that grew past its bound is discarded for a fresh snapshot. -/
def reseed (c : Connection) (holder : Holder) : Option Holder := do
  let c := { c with
    outbound := []
    sent := 0 }
  let c ← (c.queue (.other (Connection.errorPayload "slow_client_reseed"
    "incremental output was discarded; applying a fresh terminal snapshot" false))
    holder.screen.view).toOption
  let holder := { holder with snapshotSequence := saturatingSucc holder.snapshotSequence }
  let c ← (holder.queueSnapshot c).toOption
  return { holder with connection := some c }

def queue (message : RemoteMessage) (holder : Holder) : Option Holder :=
  match holder.connection with
  | none => some holder
  | some c => do
      let c ← (c.queue message holder.screen.view).toOption
      if c.outboundLen > maxOutboundBytes then
        -- bytes of the head frame may have reached the client already
        if c.sent ≠ 0 then return holder.dropConnection c
        else holder.reseed c
      else return { holder with connection := some c }

/-- Whether there is a controller that was granted its epoch. -/
def attached (holder : Holder) : Bool :=
  holder.connection.any fun c => c.epoch.isSome

/-- One chunk of PTY output, framed in `payloadLength` bytes. -/
def drainPty (hash : Hasher) (painted : Painted) (payloadLength : Nat) (holder : Holder) :
    Option Holder :=
  let holder := { holder with screen := holder.screen.feed hash painted }
  if holder.attached then holder.queue (.other payloadLength) else some holder

def emitGridDelta (holder : Holder) : Option Holder :=
  if !holder.attached then some holder
  else
    let (grid, screen) := holder.screen.gridUpdate false
    let holder := { holder with
      screen := screen
      snapshotSequence := saturatingSucc holder.snapshotSequence }
    if grid.isFullSnapshot then holder.queue (.fullSnapshot (holder.gridState grid))
    else holder.queue (.gridDelta (holder.gridState grid))

/-- What a controller's message does; no connection is left when it fails. -/
def handleMessage (message : Control) (c : Connection) (holder : Holder) :
    Holder × Option Connection :=
  if c.epoch ≠ some holder.controllerEpoch then (holder, none)
  else
    match message with
    | .resize cols rows reflowed stored =>
      match validateTerminalDimensions cols rows, reflowed with
      | .ok (), some term =>
        let holder := { holder with
          screen := holder.screen.resize cols rows term
          snapshotSequence := saturatingSucc holder.snapshotSequence }
        (holder, if stored then (holder.queueSnapshot c).toOption else none)
      | _, _ => (holder, none)
    | .answered payloadLength =>
      (holder, (c.queue (.other payloadLength) holder.screen.view).toOption)
    | .taken => (holder, some c)
    | .refused => (holder, none)

def handleMessages : List Control → Connection → Holder → Holder × Option Connection
  | [], c, holder => (holder, some c)
  | message :: rest, c, holder =>
    match holder.handleMessage message c with
    | (holder, some c) => holder.handleMessages rest c
    | (holder, none) => (holder, none)

/-- A message of the controller; the connection is out of the Holder meanwhile. -/
def readConnection (message : Control) (holder : Holder) : Holder :=
  match holder.connection with
  | none => holder
  | some c =>
    match { holder with connection := none }.handleMessage message c with
    | (holder, some c) => { holder with connection := some c }
    | (holder, none) => holder.dropConnection c

/-- Queue messages of the given payload lengths. -/
def queueAll (payloadLengths : List Nat) (c : Connection) (holder : Holder) :
    Except RemoteCodecError Connection :=
  payloadLengths.foldlM (fun c payloadLength => c.queue (.other payloadLength) holder.screen.view) c

/-- The part of the handshake that follows the checks. -/
def handshake (attach : Attach) (c : Connection) (holder : Holder) : Holder × Option Connection :=
  let holder := { holder with controllerEpoch := saturatingSucc holder.controllerEpoch }
  let c := { c with epoch := some holder.controllerEpoch }
  match attach.replay.bind fun replay => (holder.queueAll (attach.helloAck :: replay) c).toOption with
  | none => (holder, none)
  | some c =>
    let holder := { holder with snapshotSequence := saturatingSucc holder.snapshotSequence }
    (holder, do
      let c ← (holder.queueSnapshot c).toOption
      let c ← (c.queue (.other attach.controlGranted) holder.screen.view).toOption
      if attach.stored then some c else none)

/-- The previous controller is told, and given one attempt to take what it is owed. -/
def revoke (attach : Attach) (holder : Holder) : Holder :=
  match holder.connection with
  | none => holder
  | some previous =>
    let told := (previous.queue (.other attach.controlRevoked) holder.screen.view).toOption
    holder.dropConnection ((told.getD previous).flush attach.flushed)

/--
A pending connection that authenticates becomes the controller.  If it fails after its
handshake, the sequence and the epoch have moved, but the old connection stays.
-/
def readPendingConnection (attach : Attach) (holder : Holder) : Holder :=
  match holder.handshake attach { link := { mirror := attach.mirror } } with
  | (holder, none) => holder
  | (holder, some c) =>
    match holder.handleMessages attach.rest c with
    | (holder, none) => holder
    | (holder, some c) =>
      if attach.closed then holder
      else { holder.revoke attach with connection := some c }

def disconnect (holder : Holder) : Holder :=
  match holder.connection with
  | none => holder
  | some c => holder.dropConnection c

end Holder

/-! ### Runs -/

inductive HolderAction where
  | output (painted : Painted) (payloadLength : Nat)
  | emitGridDelta
  | control (message : Control)
  | attach (attach : Attach)
  | disconnect
  | flush (accepted : Nat)
  | processExit (payloadLength : Nat)
  /-- The controller's client reads a message. -/
  | receive
  /-- The client of a connection that is gone reads a message. -/
  | receivePast (index : Nat)

def Holder.onConnection (change : Connection → Connection) (holder : Holder) : Holder :=
  { holder with connection := holder.connection.map change }

def holderStep (hash : Hasher) (holder : Holder) : HolderAction → Option Holder
  | .output painted payloadLength => holder.drainPty hash painted payloadLength
  | .emitGridDelta => holder.emitGridDelta
  | .control message => some (holder.readConnection message)
  | .attach attach => some (holder.readPendingConnection attach)
  | .disconnect => some holder.disconnect
  | .flush accepted => some (holder.onConnection (Connection.flush accepted))
  | .processExit payloadLength => holder.queue (.other payloadLength)
  | .receive => some (holder.onConnection fun c => { c with link := c.link.receive })
  | .receivePast index => some { holder with past := holder.past.modify index Link.receive }

end Diri
