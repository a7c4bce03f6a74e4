/-
The Engine's controller of one remote Holder.

Callers and the pump share the writer under one lock; every call here is what happens
while the lock is held.  A call may write to the channel, and what such a write returns
the world decides: `answers` are the returns of the next ones.  A write that fails may
leave part of a frame in the channel, which the other side never decodes.

The channel and the child behind it are handles.  For the proofs the client remembers
every message that a channel took whole, with the channel, oldest first.
-/
import Diri.Proto.RemoteCodec
import Diri.Remote.Holder

namespace Diri.Wire

def maxQueuedInput : Nat := 1024 * 1024

/-- What `RemoteManager::attach` returns, once the `Hello` is written to it. -/
structure RemoteChannel where
  child : Nat
  input : Nat

structure WriterState where
  child : Option Nat := none
  input : Option Nat := none
  generation : Nat := 0
  controllerEpoch : Option UInt64 := none
  queuedInput : List UInt8 := []
  queuedResize : Option (Nat × Nat) := none

structure RemoteSessionClient where
  writer : WriterState := {}
  answers : List Bool := []
  taken : List (Nat × RemoteMessage) := []

inductive ErrorKind where
  | notConnected
  | permissionDenied
  | wouldBlock
  deriving DecidableEq

inductive ClientError where
  | io (kind : ErrorKind) (text : String)
  | codec (error : RemoteCodecError)
  /-- The dimensions of a resize. -/
  | dimensions (error : Diri.RemoteCodecError)
  /-- An error of the operating system. -/
  | os

abbrev Calls (α : Type) : Type := Handler RemoteSessionClient ClientError α

namespace RemoteSessionClient

def onWriter (change : WriterState → WriterState) (client : RemoteSessionClient) :
    RemoteSessionClient :=
  { client with writer := change client.writer }

/-- The channel takes a message, or does not. -/
def answer (input : Nat) (message : RemoteMessage) (client : RemoteSessionClient) :
    RemoteSessionClient :=
  { client with
    answers := client.answers.drop 1
    taken :=
      if client.answers.headD false then client.taken ++ [(input, message)] else client.taken }

variable (json : SerdeJson)

def writeMessage (message : RemoteMessage) : Calls Unit := do
  let client ← get
  match RemoteCodec.encode json message with
  | .error error => throw (.codec error)
  | .ok _ =>
    match client.writer.input with
    | none => throw (.io .notConnected "SSH channel is closed")
    | some input => do
        modify (answer input message)
        if !client.answers.headD false then throw .os

def queueInput (bytes : List UInt8) : Calls Unit := do
  let client ← get
  if client.writer.queuedInput.length + bytes.length > maxQueuedInput then
    throw (.io .wouldBlock "remote reconnect input queue is full")
  else modify (onWriter fun writer => { writer with queuedInput := writer.queuedInput ++ bytes })

def requireGeneration (generation : Nat) : Calls Unit := do
  let client ← get
  if client.writer.generation ≠ generation ∨ client.writer.input = none then
    throw (.io .notConnected "SSH channel was superseded")

def terminateCurrent : Calls Unit :=
  modify (onWriter fun writer => { writer with
    input := none
    child := none })

def clearEpoch : Calls Unit :=
  modify (onWriter fun writer => { writer with controllerEpoch := none })

/-! ### The calls -/

/-- `none` is a channel that could not be attached or greeted, before the lock. -/
def connect (attached : Option RemoteChannel) : Calls Unit :=
  match attached with
  | none => throw .os
  | some channel => do
      terminateCurrent
      modify (onWriter fun writer => { writer with
        generation := saturatingSucc writer.generation
        controllerEpoch := none
        child := some channel.child
        input := some channel.input })

def acceptHello (generation : Nat) (epoch : UInt64) : Calls Unit := do
  requireGeneration generation
  modify (onWriter fun writer => { writer with controllerEpoch := some epoch })

def sendQueuedResize : Calls Unit := do
  let client ← get
  match client.writer.queuedResize with
  | none => pure ()
  | some (cols, rows) => do
      modify (onWriter fun writer => { writer with queuedResize := none })
      writeMessage json (.terminal (.resize cols rows))

def sendQueuedInput : Calls Unit := do
  let client ← get
  if client.writer.queuedInput = [] then pure ()
  else do
    modify (onWriter fun writer => { writer with queuedInput := [] })
    writeMessage json (.terminal (.input client.writer.queuedInput))

def grantControl (generation : Nat) (epoch : UInt64) : Calls Unit := do
  requireGeneration generation
  let client ← get
  if client.writer.controllerEpoch ≠ some epoch then
    throw (.io .permissionDenied "remote controller epoch does not match HelloAck")
  else do
    sendQueuedResize json
    sendQueuedInput json

def write (bytes : List UInt8) : Calls Unit := do
  let client ← get
  if bytes = [] then pure ()
  else if client.writer.controllerEpoch = none ∨ client.writer.input = none then queueInput bytes
  else
    tryCatch (writeMessage json (.terminal (.input bytes))) fun _ => do
      queueInput bytes
      terminateCurrent
      clearEpoch

def resize (cols rows : Nat) : Calls Unit := do
  let client ← get
  match validateTerminalDimensions cols rows with
  | .error error => throw (.dimensions error)
  | .ok () =>
    if client.writer.controllerEpoch = none ∨ client.writer.input = none then
      modify (onWriter fun writer => { writer with queuedResize := some (cols, rows) })
    else
      tryCatch (writeMessage json (.terminal (.resize cols rows))) fun _ => do
        modify (onWriter fun writer => { writer with queuedResize := some (cols, rows) })
        terminateCurrent
        clearEpoch

def signal (signal : Int32) : Calls Unit := do
  let client ← get
  match client.writer.controllerEpoch with
  | none => throw (.io .notConnected "remote controller is reconnecting")
  | some epoch => writeMessage json (.signal ⟨epoch, signal⟩)

/-- The part of `read_scrollback_cells` that holds the lock. -/
def readScrollbackCells (request : ScrollbackRequest) : Calls Unit := do
  let client ← get
  if client.writer.controllerEpoch = none then
    throw (.io .notConnected "remote controller is reconnecting")
  else writeMessage json (.scrollbackRequest request)

def disconnect (generation : Nat) : Calls Unit := do
  let client ← get
  if client.writer.generation = generation then do
    terminateCurrent
    clearEpoch

def close : Calls Unit := do
  terminateCurrent
  clearEpoch

end RemoteSessionClient

/-! ### Runs -/

inductive ClientCall where
  | connect (attached : Option RemoteChannel)
  | acceptHello (generation : Nat) (epoch : UInt64)
  | grantControl (generation : Nat) (epoch : UInt64)
  | write (bytes : List UInt8)
  | resize (cols rows : Nat)
  | signal (signal : Int32)
  | readScrollbackCells (request : ScrollbackRequest)
  | disconnect (generation : Nat)
  | close

def ClientCall.calls (json : SerdeJson) : ClientCall → Calls Unit
  | connect attached => RemoteSessionClient.connect attached
  | acceptHello generation epoch => RemoteSessionClient.acceptHello generation epoch
  | grantControl generation epoch => RemoteSessionClient.grantControl json generation epoch
  | write bytes => RemoteSessionClient.write json bytes
  | resize cols rows => RemoteSessionClient.resize json cols rows
  | signal number => RemoteSessionClient.signal json number
  | readScrollbackCells request => RemoteSessionClient.readScrollbackCells json request
  | disconnect generation => RemoteSessionClient.disconnect generation
  | close => RemoteSessionClient.close

/-- The client, and the bytes of every `write` that returned `Ok`. -/
structure ClientRun where
  client : RemoteSessionClient := {}
  accepted : List UInt8 := []

/-- One call, and what the writes of it return. -/
structure ClientStep where
  call : ClientCall
  answers : List Bool := []

/-- What a call adds to the accepted bytes when it returns. -/
def ClientCall.accepts (call : ClientCall) (result : Except ClientError Unit) : List UInt8 :=
  match call, result with
  | write bytes, .ok () => bytes
  | _, _ => []

/-- The client takes the lock for any call at any time. -/
def ClientRun.step (json : SerdeJson) (r : ClientRun) (s : ClientStep) : Option ClientRun :=
  let returned := (s.call.calls json).exec { r.client with answers := s.answers }
  some {
    client := returned.2
    accepted := r.accepted ++ s.call.accepts returned.1 }

def RemoteMessage.inputBytes : RemoteMessage → List UInt8
  | .terminal frame => if frame.frameType = .input then frame.payload else []
  | _ => []

/-- The input that the channels took, one channel after the other. -/
def RemoteSessionClient.sentInput (client : RemoteSessionClient) : List UInt8 :=
  client.taken.flatMap fun sent => sent.2.inputBytes

end Diri.Wire
