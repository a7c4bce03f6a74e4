/-
The replay ring.

Eviction pops from the front only, so the ring is always a suffix of everything that
was ever archived.  `evictRing_spec` is the one induction; it also says that the checked
subtraction never fails, because the byte count is the sum it is subtracted from.

Runs of the bus, with what an observer notes down.

The observer adds four notes to the state of the bus: every event published so far, and
for each subscription the seq it started at, what it was replayed, which events its
queue took, and what was received from it.  No step of the bus looks at a note.

`owed` is what a subscription is for: the replay, then every later event its filter
admits.  `Took` ties a queue to the events it took, whatever order they came in.
-/
import Diri.Engine.EventBus
import Diri.Proofs.Events

namespace Diri

open List Option

variable {P : Type}

def storedBytes (ring : List Archived) : Nat := (ring.map Archived.storageBytes).sum

@[simp] theorem storedBytes_cons (oldest : Archived) (rest : List Archived) :
    storedBytes (oldest :: rest) = oldest.storageBytes + storedBytes rest := rfl

@[simp] theorem storedBytes_append (a b : List Archived) :
    storedBytes (a ++ b) = storedBytes a + storedBytes b := by
  simp [storedBytes]

structure RingBounded (bus : EventBus) (ring : List Archived) (bytes : Nat) : Prop where
  counted : bytes = storedBytes ring
  length_le : ring.length ≤ bus.ringCapacity
  bytes_le : bytes ≤ bus.ringByteCapacity

theorem evictRing_spec (bus : EventBus) (ring : List Archived) :
    ∃ kept, BusInner.evictRing bus ring (storedBytes ring) = some (kept, storedBytes kept) ∧
      kept <:+ ring ∧ RingBounded bus kept (storedBytes kept) := by
  induction ring with
  | nil => exact ⟨[], rfl, suffix_rfl, rfl, Nat.zero_le _, Nat.zero_le _⟩
  | cons oldest rest ih =>
    unfold BusInner.evictRing
    split
    · have hle : oldest.storageBytes ≤ storedBytes (oldest :: rest) := by
        rw [storedBytes_cons]
        exact Nat.le_add_right _ _
      have hsub : storedBytes (oldest :: rest) - oldest.storageBytes = storedBytes rest := by
        rw [storedBytes_cons, Nat.add_sub_cancel_left]
      obtain ⟨kept, hkept, hsuffix, hbounded⟩ := ih
      refine ⟨kept, ?_, hsuffix.trans (suffix_cons _ _), hbounded⟩
      rw [if_pos hle, hsub, hkept]
    · rename_i hfits
      refine ⟨oldest :: rest, rfl, suffix_rfl, rfl, ?_, ?_⟩ <;> omega

/-- Nothing of the ring but the oldest entries is ever missing. -/
structure RingKept (bus : EventBus) (archived : List Archived) (inner : BusInner) : Prop where
  suffix : inner.ring <:+ archived
  bounded : RingBounded bus inner.ring inner.ringBytes

theorem RingKept.empty (bus : EventBus) : RingKept bus [] {} where
  suffix := suffix_rfl
  bounded := ⟨rfl, Nat.zero_le _, Nat.zero_le _⟩

/-- What archiving does not touch. -/
def BusInner.listed (inner : BusInner) : Nat × List Nat × Nat :=
  (inner.nextSeq, inner.subscribers, inner.nextSubscriber)

theorem RingKept.archive {bus : EventBus} {archived : List Archived} {inner : BusInner}
    (h : RingKept bus archived inner) (entry : Option Archived) :
    ∃ inner', inner.archive bus entry = some inner' ∧ inner'.listed = inner.listed ∧
      inner'.ring <:+ inner.ring ++ entry.toList ∧
      RingKept bus (archived ++ entry.toList) inner' := by
  obtain ⟨hsuffix, hbounded⟩ := h
  cases entry with
  | none =>
    rw [toList_none, List.append_nil, List.append_nil]
    exact ⟨inner, rfl, rfl, suffix_rfl, hsuffix, hbounded⟩
  | some entry =>
    obtain ⟨kept, hkept, hkeptSuffix, hkeptBounded⟩ := evictRing_spec bus (inner.ring ++ [entry])
    have hbytes : inner.ringBytes + entry.storageBytes
        = storedBytes (inner.ring ++ [entry]) := by
      rw [storedBytes_append, ← hbounded.counted]
      rfl
    refine ⟨{ inner with ring := kept, ringBytes := storedBytes kept }, ?_, rfl, hkeptSuffix, ?_⟩
    · simp only [BusInner.archive, hbytes, hkept, map_some]
    · refine ⟨hkeptSuffix.trans ?_, hkeptBounded⟩
      obtain ⟨front, hfront⟩ := hsuffix
      exact ⟨front, by rw [← List.append_assoc, hfront]; rfl⟩

def archivedOf (bus : EventBus) (json : JsonCodec P) (event : Event P) : Option Archived :=
  match event.params with
  | .published params =>
    BusInner.archived? bus json event.name event.seq event.sessionId params
  | .hole _ => none

theorem archivedOf_eq {bus : EventBus} {json : JsonCodec P} {event : Event P}
    {archived : Archived} (h : archivedOf bus json event = some archived) :
    archived.name = event.name ∧ archived.seq = event.seq ∧
      archived.sessionId = event.sessionId := by
  unfold archivedOf BusInner.archived? at h
  cases hparams : event.params with
  | hole hole => simp [hparams] at h
  | published params =>
    simp only [hparams] at h
    split at h
    · obtain ⟨encoded, -, rfl⟩ := map_eq_some_iff.mp h
      exact ⟨rfl, rfl, rfl⟩
    · cases h

theorem archived_seqs (bus : EventBus) (json : JsonCodec P) (events : List (Event P)) :
    ((events.filterMap (archivedOf bus json)).map Archived.seq).Sublist (events.map Event.seq) := by
  induction events with
  | nil => exact List.Sublist.slnil
  | cons event events ih =>
    cases h : archivedOf bus json event with
    | none =>
      rw [filterMap_cons_none h]
      exact ih.cons _
    | some archived =>
      rw [filterMap_cons_some h, map_cons, (archivedOf_eq h).2.1]
      exact ih.cons_cons _

end Diri

namespace Diri

variable {P : Type}

/-! ### The machine -/

inductive BusStep (P : Type)
  | publish (name : String) (params : P) (sessionId : Option String)
  | push (k : Nat)
  | subscribe (sinceSeq : Option Nat) (filter : Filter)
  | receive (id : Nat)
  | close (id : Nat)
  | unsubscribe (id : Nat)

/-- A bus and the observer's notes. -/
structure Observed (P : Type) where
  bus : BusState P := {}
  published : List (Event P) := []
  joined : Nat → Nat := fun _ => 1
  replayed : Nat → List (Event P) := fun _ => []
  taken : Nat → List (Event P) := fun _ => []
  received : Nat → List (Event P) := fun _ => []

namespace Observed

/-- The event a publisher is about to stamp. -/
def next (o : Observed P) (name : String) (params : P) (sessionId : Option String) : Event P :=
  ⟨name, o.bus.inner.nextSeq, sessionId, .published params⟩

def publish (bus : EventBus) (json : JsonCodec P) (name : String) (params : P)
    (sessionId : Option String) (o : Observed P) : Option (Observed P) :=
  (o.bus.publish bus json name params sessionId).map fun after =>
    { o with bus := after, published := o.published ++ [o.next name params sessionId] }

def push (k : Nat) (o : Observed P) : Option (Observed P) :=
  (o.bus.inFlight[k]?.bind fun (event, id) => (o.bus.push k).map fun after =>
    { o with
      bus := after
      taken := if (o.bus.queues id).takes event then
          Function.update o.taken id (o.taken id ++ [event])
        else o.taken })

/-- The replay, as far as the filter admits it. -/
def replayFor (json : JsonCodec P) (sinceSeq : Option Nat) (filter : Filter) (o : Observed P) :
    List (Event P) :=
  (o.bus.inner.replay json sinceSeq).filter fun event => filter.admits event

def subscribe (bus : EventBus) (json : JsonCodec P) (sinceSeq : Option Nat) (filter : Filter)
    (o : Observed P) : Observed P :=
  let id := o.bus.inner.nextSubscriber
  { o with
    bus := o.bus.subscribe bus json sinceSeq filter
    joined := Function.update o.joined id o.bus.inner.nextSeq
    replayed := Function.update o.replayed id (o.replayFor json sinceSeq filter)
    taken := Function.update o.taken id (o.replayFor json sinceSeq filter)
    received := Function.update o.received id [] }

def receive (id : Nat) (o : Observed P) : Observed P :=
  { o with
    bus := (o.bus.receive id).2
    received := Function.update o.received id (o.received id ++ (o.bus.receive id).1.toList) }

def close (id : Nat) (o : Observed P) : Observed P := { o with bus := o.bus.close id }

/-- A stream is taken off the list once its queue is closed. -/
def unsubscribe (id : Nat) (o : Observed P) : Option (Observed P) :=
  if (o.bus.queues id).closed then some { o with bus := o.bus.unsubscribe id } else none

/-- One step; `none` is a step that is not possible now. -/
def step (bus : EventBus) (json : JsonCodec P) (o : Observed P) : BusStep P → Option (Observed P)
  | .publish name params sessionId => o.publish bus json name params sessionId
  | .push k => o.push k
  | .subscribe sinceSeq filter => some (o.subscribe bus json sinceSeq filter)
  | .receive id => some (o.receive id)
  | .close id => some (o.close id)
  | .unsubscribe id => o.unsubscribe id

/-- What subscription `id` is for: its replay, and every later event its filter admits. -/
def owed (o : Observed P) (id : Nat) : List (Event P) :=
  o.replayed id ++ o.published.filter fun event =>
    decide (o.joined id ≤ event.seq) && (o.bus.queues id).filter.admits event

/-- What was received from a subscription, and what it has queued. -/
def delivered (o : Observed P) (id : Nat) : List (Event P) :=
  o.received id ++ (o.bus.queues id).queue

/-- No push to the subscription ever evicted an event: no hole was told of, and none is pending. -/
def Unbroken (o : Observed P) (id : Nat) : Prop :=
  (o.bus.queues id).dropped = 0 ∧ holes (o.delivered id) = []

end Observed

/-! ### What a queue does with the events it takes -/

/-- What is left of the events a queue took, and that all of it is left if nothing was dropped. -/
structure Took (taken received : List (Event P)) (q : QueueState P) : Prop where
  allReal : ∀ event ∈ taken, event.isReal = true
  once : (real (received ++ q.queue)).Sublist taken
  whole : q.dropped = 0 → holes (received ++ q.queue) = [] → received ++ q.queue = taken

theorem Took.new (filter : Filter) (capacity : Nat) :
    Took ([] : List (Event P)) [] (.new filter capacity) where
  allReal := fun _ h => absurd h List.not_mem_nil
  once := List.Sublist.slnil
  whole := fun _ _ => rfl

variable {q : QueueState P} {taken received : List (Event P)}

section
variable (h : Took taken received q)
include h

theorem Took.enqueue {event : Event P} (hreal : event.isReal = true) :
    Took (taken ++ [event]) received { q with queue := q.queue ++ [event] } := by
  have hone : real [event] = [event] := real_cons_of_isReal hreal []
  have hnone : holes [event] = [] := holes_cons_of_isReal hreal []
  refine ⟨?_, ?_, ?_⟩
  · intro e he
    rcases List.mem_append.mp he with he | he
    · exact h.allReal e he
    · rw [List.mem_singleton.mp he]
      exact hreal
  · show (real (received ++ (q.queue ++ [event]))).Sublist (taken ++ [event])
    rw [← List.append_assoc, real_append, hone]
    exact h.once.append (List.Sublist.refl _)
  · intro hdropped hholes
    show received ++ (q.queue ++ [event]) = taken ++ [event]
    replace hholes : holes (received ++ (q.queue ++ [event])) = [] := hholes
    rw [← List.append_assoc, holes_append, hnone, List.append_nil] at hholes
    rw [← List.append_assoc, h.whole hdropped hholes]

/-- Making room loses at most the oldest event, and then the queue knows of a hole. -/
theorem Took.makeRoom : Took taken received q.makeRoom := by
  unfold QueueState.makeRoom
  split
  · cases hq : q.queue with
    | nil =>
      have hsame : q.evict = q := by
        unfold QueueState.evict
        rw [hq]
      rw [hsame]
      exact h
    | cons evicted rest =>
      have hrest : q.evict.queue = rest := by
        unfold QueueState.evict
        rw [hq]
      have hpos : q.evict.dropped = q.dropped + 1 := by
        unfold QueueState.evict
        rw [hq]
      refine ⟨h.allReal, ?_, ?_⟩
      · have hsub : (real (received ++ rest)).Sublist (real (received ++ q.queue)) := by
          rw [hq]
          exact ((List.Sublist.refl _).append (List.sublist_cons_self _ _)).filter _
        rw [hrest]
        exact hsub.trans h.once
      · intro hdropped
        omega
  split
  · refine ⟨h.allReal, ?_, ?_⟩
    · show (real (received ++ (q.queue ++ [q.marker]))).Sublist taken
      rw [← List.append_assoc, real_append]
      have hnone : real [q.marker] = [] := rfl
      rw [hnone, List.append_nil]
      exact h.once
    · intro _ hholes
      replace hholes : holes (received ++ (q.queue ++ [q.marker])) = [] := hholes
      have hone : holes [q.marker] = [q.hole] := rfl
      rw [← List.append_assoc, holes_append, hone] at hholes
      simp at hholes
  · exact h

theorem Took.push {event : Event P} (hreal : event.isReal = true) :
    Took (if q.takes event then taken ++ [event] else taken) received (q.push event) := by
  unfold QueueState.push
  split
  · exact h.makeRoom.enqueue hreal
  · exact h

theorem Took.receive : Took taken (received ++ q.tryRecv.1.toList) q.tryRecv.2 := by
  unfold QueueState.tryRecv
  cases hq : q.queue with
  | nil =>
    show Took taken (received ++ []) q
    rw [List.append_nil]
    exact h
  | cons event rest =>
    have hmove : received ++ q.queue = (received ++ [event]) ++ rest := by
      rw [hq, List.append_assoc]
      rfl
    obtain ⟨allReal, once, whole⟩ := h
    rw [hmove] at once whole
    exact ⟨allReal, once, whole⟩

end

theorem takes_of_fixed {q q' : QueueState P} (h : q'.fixed = q.fixed) (event : Event P) :
    q'.takes event = q.takes event := by
  simp only [QueueState.fixed, Prod.mk.injEq] at h
  unfold QueueState.takes
  rw [h.1, h.2.2]

theorem Took.pushAll {events taken received : List (Event P)}
    (h : Took taken received q) (hreal : ∀ event ∈ events, event.isReal = true) :
    Took (taken ++ events.filter q.takes) received
      (events.foldl (fun queue event => queue.push event) q) := by
  induction events generalizing taken q with
  | nil => simpa using h
  | cons event events ih =>
    have hpush := h.push (hreal event List.mem_cons_self)
    have htakes : (q.push event).takes = q.takes := by
      funext e
      exact takes_of_fixed (q.push_fixed event) e
    have hrest := ih hpush fun e he => hreal e (List.mem_cons_of_mem _ he)
    rw [htakes] at hrest
    rw [List.foldl_cons]
    by_cases htake : q.takes event = true
    · simpa [htake] using hrest
    · simpa [htake] using hrest

theorem pushAll_fixed (events : List (Event P)) (q : QueueState P) :
    (events.foldl (fun queue event => queue.push event) q).fixed = q.fixed := by
  induction events generalizing q with
  | nil => rfl
  | cons event events ih => exact (ih _).trans (q.push_fixed event)

/-! ### What holds of the bus in every order of steps -/

/-- One event, params apart: what a filter looks at, and the seq. -/
def Event.Same (a b : Event P) : Prop := a.name = b.name ∧ a.seq = b.seq ∧ a.sessionId = b.sessionId

theorem Event.Same.admits {a b : Event P} (h : a.Same b) (filter : Filter) :
    filter.admits a = filter.admits b := by
  unfold Filter.admits Filter.admitsKind Filter.admitsSession
  rw [h.1, h.2.2]

/-- What the replay of subscription `id` is of the events published before it. -/
structure Replayed (json : JsonCodec P) (o : Observed P) (id : Nat) : Prop where
  ordered : (o.replayed id).Pairwise fun a b => a.seq < b.seq
  earlier : ∀ event ∈ o.replayed id, event.seq < o.joined id
  admitted : ∀ event ∈ o.replayed id, (o.bus.queues id).filter.admits event = true
  allReal : ∀ event ∈ o.replayed id, event.isReal = true
  source : ∀ event ∈ o.replayed id, ∃ origin ∈ o.published, event.Same origin
  /-- From its first event on, it has everything the ring still has. -/
  kept : ∀ archived ∈ o.bus.inner.ring, ∀ first ∈ o.replayed id, first.seq ≤ archived.seq →
    archived.seq < o.joined id →
      (o.bus.queues id).filter.admits (archived.event json) = true →
        archived.event json ∈ o.replayed id

structure BusInv (bus : EventBus) (json : JsonCodec P) (o : Observed P) : Prop where
  ring : RingKept bus (o.published.filterMap (archivedOf bus json)) o.bus.inner
  stamped : o.published.map Event.seq = List.range' 1 o.published.length
  next : o.bus.inner.nextSeq = o.published.length + 1
  allReal : ∀ event ∈ o.published, event.isReal = true
  inFlight : ∀ outstanding ∈ o.bus.inFlight, outstanding.1 ∈ o.published ∧
    outstanding.2 < o.bus.inner.nextSubscriber ∧ o.joined outstanding.2 ≤ outstanding.1.seq
  nodup : o.bus.inner.subscribers.Nodup
  known : ∀ id ∈ o.bus.inner.subscribers, id < o.bus.inner.nextSubscriber
  listed : ∀ id < o.bus.inner.nextSubscriber, (o.bus.queues id).closed = false →
    id ∈ o.bus.inner.subscribers
  joined : ∀ id < o.bus.inner.nextSubscriber, o.joined id ≤ o.bus.inner.nextSeq
  replayed : ∀ id < o.bus.inner.nextSubscriber, Replayed json o id
  took : ∀ id, Took (o.taken id) (o.received id) (o.bus.queues id)

theorem BusInv.start (bus : EventBus) (json : JsonCodec P) : BusInv bus json {} where
  ring := .empty bus
  stamped := rfl
  next := rfl
  allReal := fun _ h => absurd h List.not_mem_nil
  inFlight := fun _ h => absurd h List.not_mem_nil
  nodup := List.nodup_nil
  known := fun _ h => absurd h List.not_mem_nil
  listed := fun _ h => absurd h (Nat.not_lt_zero _)
  joined := fun _ h => absurd h (Nat.not_lt_zero _)
  replayed := fun _ h => absurd h (Nat.not_lt_zero _)
  took := fun _ => .new .all 1

section Steps

variable {bus : EventBus} {json : JsonCodec P} {o o' : Observed P}

section
variable (h : BusInv bus json o)
include h

theorem BusInv.seq_lt {event : Event P} (hmem : event ∈ o.published) :
    1 ≤ event.seq ∧ event.seq < o.bus.inner.nextSeq := by
  have hseq : event.seq ∈ o.published.map Event.seq := List.mem_map_of_mem hmem
  rw [h.stamped, List.mem_range'_1] at hseq
  rw [h.next]
  omega

theorem BusInv.published_ordered : o.published.Pairwise fun a b => a.seq < b.seq := by
  have hseqs : (o.published.map Event.seq).Pairwise (· < ·) := by
    rw [h.stamped]
    exact List.pairwise_lt_range'
  exact List.pairwise_map.mp hseqs

theorem BusInv.of_ring {archived : Archived} (hmem : archived ∈ o.bus.inner.ring) :
    ∃ event ∈ o.published, (archived.event json).Same event := by
  obtain ⟨event, hevent, harchived⟩ := List.mem_filterMap.mp (h.ring.suffix.subset hmem)
  exact ⟨event, hevent, archivedOf_eq harchived⟩

theorem BusInv.ring_ordered : o.bus.inner.ring.Pairwise fun a b => a.seq < b.seq := by
  have hseqs := List.pairwise_map.mpr h.published_ordered
  have hring := (h.ring.suffix.sublist.map Archived.seq).trans (archived_seqs bus json o.published)
  exact List.pairwise_map.mp (hseqs.sublist hring)

theorem publish_eq (name : String) (params : P) (sessionId : Option String) :
    ∃ inner, o.publish bus json name params sessionId = some
        { o with
          bus := { o.bus with
            inner := inner
            inFlight := o.bus.inFlight ++
              o.bus.inner.subscribers.map fun id => (o.next name params sessionId, id) }
          published := o.published ++ [o.next name params sessionId] } ∧
      inner.listed = (o.bus.inner.nextSeq + 1, o.bus.inner.subscribers,
        o.bus.inner.nextSubscriber) ∧
      inner.ring <:+ o.bus.inner.ring ++
        (archivedOf bus json (o.next name params sessionId)).toList ∧
      RingKept bus ((o.published ++ [o.next name params sessionId]).filterMap
        (archivedOf bus json)) inner := by
  have hstamped : RingKept bus (o.published.filterMap (archivedOf bus json))
      { o.bus.inner with nextSeq := o.bus.inner.nextSeq + 1 } := ⟨h.ring.suffix, h.ring.bounded⟩
  obtain ⟨inner, hinner, hlisted, hring, hkept⟩ :=
    hstamped.archive (archivedOf bus json (o.next name params sessionId))
  have hsubscribers : inner.subscribers = o.bus.inner.subscribers :=
    congrArg (fun listed => listed.2.1) hlisted
  refine ⟨inner, ?_, hlisted, hring, ?_⟩
  · have hpublish : o.bus.publish bus json name params sessionId = some { o.bus with
        inner := inner
        inFlight := o.bus.inFlight ++
          inner.subscribers.map fun id => (o.next name params sessionId, id) } := by
      exact congrArg (Option.map fun inner : BusInner => ({ o.bus with
        inner := inner
        inFlight := o.bus.inFlight ++
          inner.subscribers.map fun id => (o.next name params sessionId, id) } : BusState P))
        hinner
    unfold Observed.publish
    rw [hpublish, hsubscribers]
    rfl
  · rw [List.filterMap_append]
    cases hentry : archivedOf bus json (o.next name params sessionId) with
    | none | some entry => simpa [hentry] using hkept

theorem BusInv.publish {name : String} {params : P}
    {sessionId : Option String} (hstep : o.publish bus json name params sessionId = some o') :
    BusInv bus json o' := by
  obtain ⟨inner, hpublish, hlisted, hring, hkept⟩ := publish_eq h name params sessionId
  rw [hpublish] at hstep
  obtain ⟨⟩ := hstep
  simp only [BusInner.listed, Prod.mk.injEq] at hlisted
  obtain ⟨hnext, hsubscribers, hsubscriber⟩ := hlisted
  refine ⟨hkept, ?_, ?_, ?_, ?_, ?_, ?_, ?_, ?_, ?_, h.took⟩
  · show (o.published ++ [o.next name params sessionId]).map Event.seq = _
    rw [List.map_append, h.stamped, List.length_append, List.length_singleton, List.range'_concat]
    simp [Observed.next, h.next, Nat.add_comm]
  · show inner.nextSeq = (o.published ++ [o.next name params sessionId]).length + 1
    rw [hnext, h.next, List.length_append, List.length_singleton]
  · intro event hmem
    rcases List.mem_append.mp hmem with hmem | hmem
    · exact h.allReal event hmem
    · rw [List.mem_singleton.mp hmem]
      rfl
  · intro outstanding hmem
    show outstanding.1 ∈ o.published ++ [o.next name params sessionId] ∧
      outstanding.2 < inner.nextSubscriber ∧ o.joined outstanding.2 ≤ outstanding.1.seq
    rw [hsubscriber]
    rcases List.mem_append.mp hmem with hmem | hmem
    · obtain ⟨hevent, hid, hjoined⟩ := h.inFlight outstanding hmem
      exact ⟨List.mem_append_left _ hevent, hid, hjoined⟩
    obtain ⟨id, hid, rfl⟩ := List.mem_map.mp hmem
    have hknown := h.known id hid
    exact ⟨List.mem_append_right _ List.mem_cons_self, hknown, h.joined id hknown⟩
  · show inner.subscribers.Nodup
    rw [hsubscribers]
    exact h.nodup
  · show ∀ id ∈ inner.subscribers, id < inner.nextSubscriber
    rw [hsubscribers, hsubscriber]
    exact h.known
  · show ∀ id < inner.nextSubscriber, (o.bus.queues id).closed = false → id ∈ inner.subscribers
    rw [hsubscribers, hsubscriber]
    exact h.listed
  · intro id hid
    have hjoined := h.joined id (hsubscriber ▸ hid)
    show o.joined id ≤ inner.nextSeq
    omega
  intro id hid
  have hid : id < o.bus.inner.nextSubscriber := hsubscriber ▸ hid
  obtain ⟨ordered, earlier, admitted, allReal, source, kept⟩ := h.replayed id hid
  refine ⟨ordered, earlier, admitted, allReal, ?_, ?_⟩
  · intro event hmem
    obtain ⟨origin, horigin, hsame⟩ := source event hmem
    exact ⟨origin, List.mem_append_left _ horigin, hsame⟩
  intro archived hmem first hfirst hle hlt hadmits
  rcases List.mem_append.mp (hring.subset hmem) with hold | hnew
  · exact kept archived hold first hfirst hle hlt hadmits
  have hseq := (archivedOf_eq (Option.mem_toList.mp hnew)).2.1
  have hjoined := h.joined id hid
  replace hlt : archived.seq < o.joined id := hlt
  have hstamp : (o.next name params sessionId).seq = o.bus.inner.nextSeq := rfl
  omega

/-- Work on one queue: it keeps its filter, it is not opened again, nothing new is in flight. -/
theorem BusInv.withQueue (id : Nat) {q : QueueState P}
    {taken received : List (Event P)} {inFlight : List (Event P × Nat)}
    (hfilter : q.filter = (o.bus.queues id).filter)
    (hclosed : q.closed = false → (o.bus.queues id).closed = false)
    (hinFlight : inFlight ⊆ o.bus.inFlight) (htook : Took taken received q) :
    BusInv bus json { o with
      bus := { o.bus with
        queues := Function.update o.bus.queues id q
        inFlight := inFlight }
      taken := Function.update o.taken id taken
      received := Function.update o.received id received } := by
  have hsame : ∀ other, (Function.update o.bus.queues id q other).filter
      = (o.bus.queues other).filter := by
    intro other
    by_cases hother : other = id
    · rw [hother, Function.update_self, hfilter]
    · rw [Function.update_of_ne hother]
  refine ⟨h.ring, h.stamped, h.next, h.allReal, ?_, h.nodup, h.known, ?_, h.joined, ?_, ?_⟩
  · intro outstanding hmem
    exact h.inFlight outstanding (hinFlight hmem)
  · intro other hknown hopen
    refine h.listed other hknown ?_
    by_cases hother : other = id
    · simp only [hother, Function.update_self] at hopen
      exact hother ▸ hclosed hopen
    · simpa only [Function.update_of_ne hother] using hopen
  · intro other hknown
    obtain ⟨ordered, earlier, admitted, allReal, source, kept⟩ := h.replayed other hknown
    refine ⟨ordered, earlier, ?_, allReal, source, ?_⟩
    · simpa only [hsame] using admitted
    · simpa only [hsame] using kept
  · intro other
    by_cases hother : other = id
    · simpa only [hother, Function.update_self] using htook
    · simpa only [Function.update_of_ne hother] using h.took other

end

theorem push_eq {k : Nat} (h : o.push k = some o') :
    ∃ event id, o.bus.inFlight[k]? = some (event, id) ∧
      o' = { o with
        bus := { o.bus with
          queues := Function.update o.bus.queues id ((o.bus.queues id).push event)
          inFlight := o.bus.inFlight.eraseIdx k }
        taken := Function.update o.taken id (if (o.bus.queues id).takes event then
            o.taken id ++ [event]
          else o.taken id)
        received := Function.update o.received id (o.received id) } := by
  unfold Observed.push at h
  obtain ⟨⟨event, id⟩, hk, hpush⟩ := Option.bind_eq_some_iff.mp h
  refine ⟨event, id, hk, ?_⟩
  unfold BusState.push at hpush
  rw [hk] at hpush
  rw [← Option.some.inj hpush]
  split
  · simp
  · simp

section
variable (h : BusInv bus json o)
include h

theorem BusInv.push {k : Nat} (hstep : o.push k = some o') : BusInv bus json o' := by
  obtain ⟨event, id, hk, rfl⟩ := push_eq hstep
  have hfixed := (o.bus.queues id).push_fixed event
  simp only [QueueState.fixed, Prod.mk.injEq] at hfixed
  have hevent := (h.inFlight _ (List.mem_of_getElem? hk)).1
  exact h.withQueue id hfixed.1 (fun hopen => hfixed.2.2 ▸ hopen) (List.eraseIdx_subset)
    ((h.took id).push (h.allReal event hevent))

theorem BusInv.receive (id : Nat) : BusInv bus json (o.receive id) := by
  have hfixed := (o.bus.queues id).tryRecv_fixed
  simp only [QueueState.fixed, Prod.mk.injEq] at hfixed
  have hnext := h.withQueue id hfixed.1
    (fun hopen => hfixed.2.2 ▸ hopen) (List.Subset.refl _) (h.took id).receive
  rw [Function.update_eq_self] at hnext
  exact hnext

theorem BusInv.close (id : Nat) : BusInv bus json (o.close id) := by
  have htook : Took (o.taken id) (o.received id) { o.bus.queues id with closed := true } :=
    ⟨(h.took id).allReal, (h.took id).once, (h.took id).whole⟩
  have hfilter : ({ o.bus.queues id with closed := true } : QueueState P).filter
      = (o.bus.queues id).filter := rfl
  have hnext := h.withQueue id hfilter (fun hopen => by cases hopen) (List.Subset.refl _) htook
  rw [Function.update_eq_self, Function.update_eq_self] at hnext
  exact hnext

theorem BusInv.unsubscribe {id : Nat}
    (hstep : o.unsubscribe id = some o') : BusInv bus json o' := by
  unfold Observed.unsubscribe at hstep
  split at hstep
  case isFalse => cases hstep
  rename_i hclosed
  obtain ⟨⟩ := hstep
  refine ⟨⟨h.ring.suffix, h.ring.bounded⟩, h.stamped, h.next, h.allReal, h.inFlight,
    h.nodup.filter _, ?_, ?_, h.joined, ?_, h.took⟩
  · intro other hmem
    exact h.known other (List.mem_of_mem_filter hmem)
  · intro other hknown hopen
    replace hopen : (o.bus.queues other).closed = false := hopen
    refine List.mem_filter.mpr ⟨h.listed other hknown hopen, ?_⟩
    have hne : other ≠ id := by
      rintro rfl
      rw [hopen] at hclosed
      cases hclosed
    simpa using hne
  · intro other hknown
    obtain ⟨ordered, earlier, admitted, allReal, source, kept⟩ := h.replayed other hknown
    exact ⟨ordered, earlier, admitted, allReal, source, kept⟩

end

theorem replay_eq (json : JsonCodec P) (inner : BusInner) (sinceSeq : Option Nat) :
    ∃ entries : List Archived, entries.Sublist inner.ring ∧
      inner.replay json sinceSeq = entries.map (Archived.event json) ∧
      ∀ first ∈ entries, ∀ archived ∈ inner.ring, first.seq ≤ archived.seq →
        archived ∈ entries := by
  cases sinceSeq with
  | none => exact ⟨[], List.nil_sublist _, rfl, fun _ h => absurd h List.not_mem_nil⟩
  | some since =>
    refine ⟨_, List.filter_sublist, rfl, ?_⟩
    intro first hfirst archived hmem hle
    have hsince := (List.mem_filter.mp hfirst).2
    refine List.mem_filter.mpr ⟨hmem, ?_⟩
    simp only [decide_eq_true_eq] at hsince ⊢
    omega

theorem BusInv.replayed_new (h : BusInv bus json o) (sinceSeq : Option Nat) (filter : Filter) :
    Replayed json (o.subscribe bus json sinceSeq filter) o.bus.inner.nextSubscriber := by
  obtain ⟨entries, hsub, hreplay, hupward⟩ := replay_eq json o.bus.inner sinceSeq
  have hlist : (o.subscribe bus json sinceSeq filter).replayed o.bus.inner.nextSubscriber
      = (entries.map (Archived.event json)).filter fun event => filter.admits event := by
    show Function.update o.replayed _ (o.replayFor json sinceSeq filter) _ = _
    rw [Function.update_self]
    unfold Observed.replayFor
    rw [hreplay]
  have hjoined : (o.subscribe bus json sinceSeq filter).joined o.bus.inner.nextSubscriber
      = o.bus.inner.nextSeq := Function.update_self ..
  have hfilter : ((o.subscribe bus json sinceSeq filter).bus.queues
      o.bus.inner.nextSubscriber).filter = filter := by
    have hfixed := pushAll_fixed (o.bus.inner.replay json sinceSeq)
      (.new filter bus.subscriberCapacity)
    simp only [QueueState.fixed, Prod.mk.injEq] at hfixed
    show (Function.update o.bus.queues _ _ _).filter = _
    rw [Function.update_self]
    exact hfixed.1
  refine ⟨?_, ?_, ?_, ?_, ?_, ?_⟩
  · rw [hlist]
    have hordered : (entries.map (Archived.event json)).Pairwise fun a b => a.seq < b.seq :=
      List.pairwise_map.mpr (h.ring_ordered.sublist hsub)
    exact hordered.filter _
  · intro event hmem
    rw [hlist, List.mem_filter, List.mem_map] at hmem
    obtain ⟨⟨archived, harchived, rfl⟩, -⟩ := hmem
    obtain ⟨event, hevent, hsame⟩ := h.of_ring (hsub.subset harchived)
    rw [hjoined, hsame.2.1]
    exact (h.seq_lt hevent).2
  · intro event hmem
    rw [hlist, List.mem_filter] at hmem
    rw [hfilter]
    exact hmem.2
  · intro event hmem
    rw [hlist, List.mem_filter, List.mem_map] at hmem
    obtain ⟨⟨archived, -, rfl⟩, -⟩ := hmem
    rfl
  · intro event hmem
    rw [hlist, List.mem_filter, List.mem_map] at hmem
    obtain ⟨⟨archived, harchived, rfl⟩, -⟩ := hmem
    exact h.of_ring (hsub.subset harchived)
  intro archived hmem first hfirst hle _ hadmits
  rw [hlist, List.mem_filter, List.mem_map] at hfirst
  obtain ⟨⟨entry, hentry, rfl⟩, -⟩ := hfirst
  rw [hfilter] at hadmits
  rw [hlist]
  exact List.mem_filter.mpr ⟨List.mem_map_of_mem (hupward entry hentry archived hmem hle), hadmits⟩

theorem Replayed.subscribe {id : Nat} (h : Replayed json o id) (sinceSeq : Option Nat)
    (filter : Filter) (hid : id ≠ o.bus.inner.nextSubscriber) :
    Replayed json (o.subscribe bus json sinceSeq filter) id := by
  obtain ⟨ordered, earlier, admitted, allReal, source, kept⟩ := h
  refine ⟨?_, ?_, ?_, ?_, ?_, ?_⟩ <;>
    simp only [Observed.subscribe, BusState.subscribe, Function.update_of_ne hid]
  · exact ordered
  · exact earlier
  · exact admitted
  · exact allReal
  · exact source
  · exact kept

theorem took_new (bus : EventBus) (json : JsonCodec P) (inner : BusInner)
    (sinceSeq : Option Nat) (filter : Filter) : Took
      ((inner.replay json sinceSeq).filter (QueueState.new filter bus.subscriberCapacity).takes) []
      ((inner.replay json sinceSeq).foldl (fun queue event => queue.push event)
        (.new filter bus.subscriberCapacity)) := by
  have hnew : Took ([] : List (Event P)) [] (.new filter bus.subscriberCapacity) :=
    .new filter bus.subscriberCapacity
  obtain ⟨entries, -, hreplay, -⟩ := replay_eq json inner sinceSeq
  have hreal : ∀ event ∈ inner.replay json sinceSeq, event.isReal = true := by
    intro event hmem
    rw [hreplay, List.mem_map] at hmem
    obtain ⟨archived, -, rfl⟩ := hmem
    rfl
  exact hnew.pushAll hreal

theorem BusInv.subscribe (h : BusInv bus json o) (sinceSeq : Option Nat) (filter : Filter) :
    BusInv bus json (o.subscribe bus json sinceSeq filter) := by
  have hother : ∀ {β : Type} (f : Nat → β) (x : β) {id : Nat}, id < o.bus.inner.nextSubscriber →
        Function.update f o.bus.inner.nextSubscriber x id = f id := by
    intro β f x id hid
    exact Function.update_of_ne (by omega) _ _
  refine ⟨⟨h.ring.suffix, h.ring.bounded⟩, h.stamped, h.next, h.allReal, ?_, ?_, ?_, ?_, ?_, ?_, ?_⟩
  · intro outstanding hmem
    obtain ⟨hevent, hid, hjoined⟩ := h.inFlight outstanding hmem
    refine ⟨hevent, Nat.lt_succ_of_lt hid, ?_⟩
    show Function.update o.joined _ _ _ ≤ _
    rw [hother _ _ hid]
    exact hjoined
  · refine List.nodup_append.mpr ⟨h.nodup, List.nodup_singleton _, ?_⟩
    intro id hid other hnew
    have hlt := h.known id hid
    rw [List.mem_singleton.mp hnew]
    omega
  · intro id hid
    show id < o.bus.inner.nextSubscriber + 1
    rcases List.mem_append.mp hid with hid | hid
    · exact Nat.lt_succ_of_lt (h.known id hid)
    · rw [List.mem_singleton.mp hid]
      exact Nat.lt_succ_self _
  · intro id hid hopen
    show id ∈ o.bus.inner.subscribers ++ [o.bus.inner.nextSubscriber]
    rcases Nat.lt_succ_iff_lt_or_eq.mp hid with hid | rfl
    · replace hopen : (Function.update o.bus.queues _ _ id).closed = false := hopen
      rw [hother _ _ hid] at hopen
      exact List.mem_append_left _ (h.listed id hid hopen)
    · exact List.mem_append_right _ List.mem_cons_self
  · intro id hid
    show Function.update o.joined _ _ _ ≤ o.bus.inner.nextSeq
    rcases Nat.lt_succ_iff_lt_or_eq.mp hid with hid | rfl
    · rw [hother _ _ hid]
      exact h.joined id hid
    · rw [Function.update_self]
  · intro id hid
    rcases Nat.lt_succ_iff_lt_or_eq.mp hid with hid | rfl
    · exact (h.replayed id hid).subscribe sinceSeq filter (Nat.ne_of_lt hid)
    · exact h.replayed_new sinceSeq filter
  intro id
  by_cases hid : id = o.bus.inner.nextSubscriber
  · subst hid
    simp only [Observed.subscribe, BusState.subscribe, Function.update_self]
    exact took_new bus json o.bus.inner sinceSeq filter
  · simp only [Observed.subscribe, BusState.subscribe, Function.update_of_ne hid]
    exact h.took id

theorem BusInv.step (h : BusInv bus json o) {i : BusStep P} (hstep : o.step bus json i = some o') :
    BusInv bus json o' := by
  cases i with
  | publish name params sessionId => exact h.publish hstep
  | push k => exact h.push hstep
  | subscribe sinceSeq filter =>
    obtain ⟨⟩ := hstep
    exact h.subscribe sinceSeq filter
  | receive id =>
    obtain ⟨⟩ := hstep
    exact h.receive id
  | close id =>
    obtain ⟨⟩ := hstep
    exact h.close id
  | unsubscribe id => exact h.unsubscribe hstep

end Steps

end Diri
