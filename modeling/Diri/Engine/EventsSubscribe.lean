/-
`events.subscribe`, which turns a control connection into an event sink.

Two kinds of thread write to a connection: the one that serves its requests, and a
forwarder for each subscription.  A frame is written as a whole, under the writer's lock.
A forwarder looks at its stop flag before each receive and nowhere else.

The serving thread answers `events.subscribe` in three parts that other threads can come
between: it stops the previous forwarder, subscribes and spawns the next one, and writes
the response.  Both the stream and its forwarder go by the stream's id.
-/
import Diri.Engine.EventBus

namespace Diri

variable {P : Type}

/-- Where a forwarder is in its loop. -/
inductive Forwarding (P : Type)
  /-- `while !stop.load(..)`. -/
  | check
  | recv
  /-- It holds a frame to write. -/
  | write (event : Event P)
  /-- Out of the loop, with the stream to drop: its queue first, then its place on the bus. -/
  | drop
  | closed
  | ended
  deriving DecidableEq, Repr

structure Forwarder (P : Type) where
  stop : Bool := false
  stands : Forwarding P := .check
  deriving DecidableEq, Repr

namespace Forwarder

def holds (forwarder : Forwarder P) : Option (Event P) :=
  match forwarder.stands with
  | .write event => some event
  | _ => none

def receives (forwarder : Forwarder P) : Bool :=
  match forwarder.stands with
  | .recv => true
  | _ => false

/-- What its next step writes, if it can. -/
def sends (writes : Bool) (forwarder : Forwarder P) : List (Event P) :=
  if writes then forwarder.holds.toList else []

/-- Its next step, with what `recv` returns and whether the frame can be written. -/
def step (received : Option (Event P)) (writes : Bool) (forwarder : Forwarder P) : Forwarder P :=
  { forwarder with
    stands :=
      match forwarder.stands with
      | .check => if forwarder.stop then .drop else .recv
      | .recv =>
        match received with
        | some event => .write event
        | none => .check
      | .write _ => if writes then .check else .drop
      | .drop => .closed
      | .closed | .ended => .ended }

end Forwarder

/-- Where the serving thread is. -/
inductive ServePhase
  /-- It reads the next request. -/
  | reading
  /-- The previous subscription is stopped. -/
  | replacing (sinceSeq : Option Nat) (filter : Filter)
  | answering (subscribed : Bool)
  /-- The connection is over, and whether the last request was answered before. -/
  | over (answered : Bool)

/-- Whether every `events.subscribe` so far has its response. -/
def ServePhase.answered : ServePhase → Bool
  | .reading => true
  | .replacing _ _ | .answering _ => false
  | .over answered => answered

/-- A frame on the wire; for an event, also whose it is. -/
inductive SentFrame (P : Type)
  | event (stream : Nat) (event : Event P)
  | response (subscribed : Bool)
  deriving DecidableEq, Repr

/-- One control connection.  `asked` is a note: the filter last asked for. -/
structure ControlConnection (P : Type) where
  forwarders : Nat → Option (Forwarder P) := fun _ => none
  /-- The `SubscriptionHandle`. -/
  subscription : Option Nat := none
  serving : ServePhase := .reading
  written : List (SentFrame P) := []
  asked : Filter := .all

namespace ControlConnection

def holding (c : ControlConnection P) (stream : Nat) : Option (Event P) :=
  (c.forwarders stream).bind Forwarder.holds

/-- Stop the forwarder of the subscription there is. -/
def stopped (c : ControlConnection P) : Nat → Option (Forwarder P) :=
  match c.subscription with
  | some stream =>
    Function.update c.forwarders stream
      ((c.forwarders stream).map fun forwarder => { forwarder with stop := true })
  | none => c.forwarders

/-- The params are decoded, and the previous subscription is taken and stopped. -/
def request (sinceSeq : Option Nat) (sessions kinds : Option (List String))
    (c : ControlConnection P) : Option (ControlConnection P) :=
  match c.serving with
  | .reading =>
    some { c with
      forwarders := c.stopped
      subscription := none
      serving := .replacing sinceSeq (.new sessions kinds)
      asked := .new sessions kinds }
  | _ => none

def spawn (stream : Nat) (c : ControlConnection P) : ControlConnection P :=
  { c with
    forwarders := Function.update c.forwarders stream (some {})
    subscription := some stream
    serving := .answering true }

/-- No thread could be made; the stream goes with the closure. -/
def spawnFailed (c : ControlConnection P) : ControlConnection P :=
  { c with serving := .answering false }

/-- The response; a connection that it cannot be written to is over, and its handle dropped. -/
def respond (writes : Bool) (c : ControlConnection P) : Option (ControlConnection P) :=
  match c.serving with
  | .answering subscribed =>
    some (if writes then
      { c with serving := .reading, written := c.written ++ [.response subscribed] }
    else { c with serving := .over false, forwarders := c.stopped })
  | _ => none

/-- The peer has no more requests. -/
def hangUp (c : ControlConnection P) : Option (ControlConnection P) :=
  match c.serving with
  | .reading => some { c with serving := .over true, forwarders := c.stopped }
  | _ => none

/-- One step of a forwarder, and what it writes. -/
def forward (stream : Nat) (forwarder : Forwarder P) (received : Option (Event P))
    (writes : Bool) (c : ControlConnection P) : ControlConnection P :=
  { c with
    forwarders := Function.update c.forwarders stream (some (forwarder.step received writes))
    written := c.written ++ (forwarder.sends writes).map (SentFrame.event stream) }

end ControlConnection

end Diri
