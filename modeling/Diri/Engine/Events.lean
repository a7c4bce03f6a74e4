/-
The bounded queue between the event bus and one subscriber.

`push` never blocks the publisher: on overflow the oldest queued event is evicted
and the hole remembered, and the next push that finds room first enqueues an
`events.dropped` marker that summarises the hole.

What an event carries is opaque to the queue, so it is a parameter.  Sequence
numbers and the dropped counter are natural numbers: each grows by one for one
published event, far from the end of a `u64`.
-/
import Mathlib.Data.Finset.Basic
import Mathlib.Data.Finset.Insert
import Mathlib.Data.List.Basic

namespace Diri

variable {P : Type}

/-- The synthetic hole marker's name. -/
def eventsDropped : String := "events.dropped"

/-- What a hole marker says: how many events were dropped, and between which. -/
structure Hole where
  dropped : Nat
  fromSeq : Nat
  toSeq : Nat
  deriving DecidableEq, Repr

/-- The params of an event: a published value, or the marker's own object. -/
inductive EventParams (P : Type)
  | published (value : P)
  | hole (hole : Hole)
  deriving DecidableEq, Repr

/-- One published event, as a subscriber receives it. -/
structure Event (P : Type) where
  name : String
  seq : Nat
  sessionId : Option String
  params : EventParams P
  deriving DecidableEq, Repr

/-- Server-side subscription filter. -/
structure Filter where
  sessions : Option (Finset String) := none
  kinds : Option (Finset String) := none

namespace Filter

def all : Filter := {}

/-- An empty list asks for nothing in particular, like no list. -/
def normalize (list : Option (List String)) : Option (Finset String) :=
  (list.map List.toFinset).filter fun set => set ≠ ∅

def new (sessions kinds : Option (List String)) : Filter where
  sessions := normalize sessions
  kinds := normalize kinds

def admitsKind (filter : Filter) (event : Event P) : Bool :=
  match filter.kinds with
  | some kinds => event.name ∈ kinds
  | none => true

def admitsSession (filter : Filter) (event : Event P) : Bool :=
  match filter.sessions with
  | some sessions =>
    match event.sessionId with
    | some id => id ∈ sessions
    | none => false
  | none => true

/-- The drop marker is the one thing a filter can never hide. -/
def admits (filter : Filter) (event : Event P) : Bool :=
  if event.name = eventsDropped then true
  else filter.admitsKind event && filter.admitsSession event

end Filter

/-- One live subscription's queue, oldest event first. -/
structure QueueState (P : Type) where
  queue : List (Event P)
  filter : Filter
  capacity : Nat
  dropped : Nat
  firstDroppedSeq : Nat
  lastDroppedSeq : Nat
  closed : Bool

namespace QueueState

def new (filter : Filter) (capacity : Nat) : QueueState P where
  queue := []
  filter := filter
  capacity := capacity
  dropped := 0
  firstDroppedSeq := 0
  lastDroppedSeq := 0
  closed := false

/-- Whether a pushed event gets into the queue. -/
def takes (q : QueueState P) (event : Event P) : Bool :=
  !q.closed && q.filter.admits event

/-- Evict the oldest event and remember the hole. -/
def evict (q : QueueState P) : QueueState P :=
  match q.queue with
  | evicted :: rest =>
    { q with
      queue := rest
      firstDroppedSeq := if q.dropped = 0 then evicted.seq else q.firstDroppedSeq
      lastDroppedSeq := evicted.seq
      dropped := q.dropped + 1 }
  | [] => q

def hole (q : QueueState P) : Hole :=
  ⟨q.dropped, q.firstDroppedSeq, q.lastDroppedSeq⟩

def marker (q : QueueState P) : Event P where
  name := eventsDropped
  seq := 0
  sessionId := none
  params := .hole q.hole

/-- Enqueue the marker of the remembered hole. -/
def mark (q : QueueState P) : QueueState P :=
  { q with dropped := 0, queue := q.queue ++ [q.marker] }

/-- Make room, or tell of the room made before. -/
def makeRoom (q : QueueState P) : QueueState P :=
  if q.capacity ≤ q.queue.length then q.evict
  else if 0 < q.dropped then q.mark
  else q

/-- Enqueues without ever blocking the publisher. -/
def push (event : Event P) (q : QueueState P) : QueueState P :=
  if q.takes event then
    { q.makeRoom with queue := q.makeRoom.queue ++ [event] }
  else q

/-- An event already queued, without waiting; `recv` ends with the same `pop_front`. -/
def tryRecv (q : QueueState P) : Option (Event P) × QueueState P :=
  match q.queue with
  | event :: rest => (some event, { q with queue := rest })
  | [] => (none, q)

end QueueState

end Diri
