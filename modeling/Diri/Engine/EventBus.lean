/-
The event bus: seq-stamped pub/sub with a bounded replay ring.

`publish` has two halves.  Under the bus lock it takes the next seq, archives the
event and copies the list of subscribers; without the lock it then pushes the event to
each of the copied queues.  `inFlight` holds the pushes that are still to be made, so
the halves of several publishers can interleave.  `subscribe` runs under the bus lock
as a whole.

`serde_json` is outside this repository: how params are encoded is an argument.  The
subtraction from `ring_bytes` is checked, so that it never underflows is a theorem.
-/
import Diri.Engine.Events
import Mathlib.Algebra.BigOperators.Group.List.Basic
import Mathlib.Logic.Function.Basic

namespace Diri

variable {P : Type}

/-- `serde_json::to_vec`, `serde_json::from_slice` and `JsonValue::Null`. -/
structure JsonCodec (P : Type) where
  toVec : P → Option (List UInt8)
  fromSlice : List UInt8 → Option P
  null : P

/-- A replay entry: an event with its params encoded. -/
structure Archived where
  name : String
  seq : Nat
  sessionId : Option String
  params : List UInt8
  deriving DecidableEq, Repr

namespace Archived

def storageBytes (archived : Archived) : Nat :=
  archived.name.utf8ByteSize + archived.params.length + 16

def event (json : JsonCodec P) (archived : Archived) : Event P where
  name := archived.name
  seq := archived.seq
  sessionId := archived.sessionId
  params := .published ((json.fromSlice archived.params).getD json.null)

end Archived

/-- What a bus is made with. -/
structure EventBus where
  ringCapacity : Nat
  ringByteCapacity : Nat
  subscriberCapacity : Nat
  /-- A bus with room for no event at all cannot be made. -/
  room : 1 ≤ subscriberCapacity

namespace EventBus

/-- The default is twice the ring, so a full replay cannot itself trigger a drop. -/
def withCapacities (ringCapacity ringByteCapacity : Nat) (subscriberCapacity : Option Nat) :
    EventBus where
  ringCapacity := ringCapacity
  ringByteCapacity := ringByteCapacity
  subscriberCapacity := max (subscriberCapacity.getD (max ringCapacity 1 * 2)) 1
  room := Nat.le_max_right _ _

def new : EventBus := withCapacities 4096 (8 <<< 20) none

end EventBus

/-- What the bus lock guards. -/
structure BusInner where
  nextSeq : Nat := 1
  ring : List Archived := []
  ringBytes : Nat := 0
  subscribers : List Nat := []
  nextSubscriber : Nat := 0

namespace BusInner

/-- Pop archived events until both bounds hold; `none` is a subtraction that underflows. -/
def evictRing (bus : EventBus) : List Archived → Nat → Option (List Archived × Nat)
  | [], bytes => some ([], bytes)
  | oldest :: rest, bytes =>
    if bus.ringCapacity < (oldest :: rest).length ∨ bus.ringByteCapacity < bytes then
      if oldest.storageBytes ≤ bytes then evictRing bus rest (bytes - oldest.storageBytes)
      else none
    else some (oldest :: rest, bytes)

/-- The entry `publish` archives, if it archives one. -/
def archived? (bus : EventBus) (json : JsonCodec P) (name : String) (seq : Nat)
    (sessionId : Option String) (params : P) : Option Archived :=
  if 0 < bus.ringCapacity ∧ 0 < bus.ringByteCapacity then
    (json.toVec params).map fun encoded => ⟨name, seq, sessionId, encoded⟩
  else none

def archive (bus : EventBus) (inner : BusInner) : Option Archived → Option BusInner
  | some archived =>
    (evictRing bus (inner.ring ++ [archived]) (inner.ringBytes + archived.storageBytes)).map
      fun (ring, bytes) => { inner with ring := ring, ringBytes := bytes }
  | none => some inner

/-- The archived events a new subscription is given first. -/
def replay (json : JsonCodec P) (inner : BusInner) : Option Nat → List (Event P)
  | some since => (inner.ring.filter fun archived => since < archived.seq).map (·.event json)
  | none => []

end BusInner

/-- The bus, the queues it shares with its streams, and the pushes still to be made. -/
structure BusState (P : Type) where
  inner : BusInner := {}
  queues : Nat → QueueState P := fun _ => .new .all 1
  inFlight : List (Event P × Nat) := []

namespace BusState

/-- The half of `publish` under the bus lock. -/
def publish (bus : EventBus) (json : JsonCodec P) (name : String) (params : P)
    (sessionId : Option String) (s : BusState P) : Option (BusState P) :=
  let event : Event P := ⟨name, s.inner.nextSeq, sessionId, .published params⟩
  let archived := BusInner.archived? bus json name s.inner.nextSeq sessionId params
  ({ s.inner with nextSeq := s.inner.nextSeq + 1 }.archive bus archived).map fun inner =>
    { s with
      inner := inner
      inFlight := s.inFlight ++ inner.subscribers.map fun id => (event, id) }

/-- One push of the half of `publish` without the lock: the `k`th of those outstanding. -/
def push (k : Nat) (s : BusState P) : Option (BusState P) :=
  s.inFlight[k]?.map fun (event, id) =>
    { s with
      queues := Function.update s.queues id ((s.queues id).push event)
      inFlight := s.inFlight.eraseIdx k }

def subscribe (bus : EventBus) (json : JsonCodec P) (sinceSeq : Option Nat) (filter : Filter)
    (s : BusState P) : BusState P :=
  let queue := (s.inner.replay json sinceSeq).foldl (fun queue event => queue.push event)
    (.new filter bus.subscriberCapacity)
  { s with
    inner := { s.inner with
      subscribers := s.inner.subscribers ++ [s.inner.nextSubscriber]
      nextSubscriber := s.inner.nextSubscriber + 1 }
    queues := Function.update s.queues s.inner.nextSubscriber queue }

/-- `try_recv` of a stream, and the end of its `recv`. -/
def receive (id : Nat) (s : BusState P) : Option (Event P) × BusState P :=
  let (event, queue) := (s.queues id).tryRecv
  (event, { s with queues := Function.update s.queues id queue })

/-- Dropping a stream first closes its queue. -/
def close (id : Nat) (s : BusState P) : BusState P :=
  { s with queues := Function.update s.queues id { s.queues id with closed := true } }

/-- Then, under the bus lock, it goes off the list. -/
def unsubscribe (id : Nat) (s : BusState P) : BusState P :=
  { s with inner := { s.inner with
      subscribers := s.inner.subscribers.filter fun other => other ≠ id } }

end BusState

end Diri
