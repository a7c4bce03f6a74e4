/-
Subscribing again on one control connection.

The serving thread, the forwarders it has left behind, the publishers and everyone else
with a stream on the bus take their steps in any order.  A stream gives its forwarder each
published event once, whatever the order of the pushes (`Once`).  So what matters is who
writes: a forwarder that is stopped while it is waiting in `recv`, or while it holds an
event, writes once more before it looks at its flag.
-/
import Diri.Engine.EventsSubscribe
import Diri.Proofs.Bus.Delivery
import Mathlib.Data.List.Perm.Basic

namespace Diri

open ControlConnection Function List

variable {P : Type}

/-! ### Each event once -/

/-- The events on their way to a stream. -/
def Observed.flying (o : Observed P) (id : Nat) : List Nat :=
  (o.bus.inFlight.filter fun outstanding => outstanding.2 = id).map fun outstanding =>
    outstanding.1.seq

/-- The seqs that stream `id` was given, or is about to be given. -/
def Observed.given (o : Observed P) (id : Nat) : List Nat :=
  (o.taken id).map Event.seq ++ o.flying id

/-- A stream is given each seq once, and nothing that its filter does not admit. -/
structure Once (o : Observed P) (id : Nat) : Prop where
  admitted : ∀ event ∈ o.delivered id, (o.bus.queues id).filter.admits event = true
  distinct : (o.given id).Nodup
  earlier : ∀ seq ∈ o.given id, seq < o.bus.inner.nextSeq

theorem Once.start (id : Nat) : Once ({} : Observed P) id where
  admitted := fun _ h => absurd h not_mem_nil
  distinct := nodup_nil
  earlier := fun _ h => absurd h not_mem_nil

theorem Filter.admits_marker (filter : Filter) (q : QueueState P) :
    filter.admits q.marker = true := rfl

theorem QueueState.mem_makeRoom {q : QueueState P} {event : Event P}
    (h : event ∈ q.makeRoom.queue) : event ∈ q.queue ∨ event = q.marker := by
  unfold QueueState.makeRoom at h
  split at h
  · left
    unfold QueueState.evict at h
    split at h
    · rename_i hq
      rw [hq]
      exact mem_cons_of_mem _ h
    · exact h
  split at h
  · rcases List.mem_append.mp h with h | h
    · exact .inl h
    · exact .inr (List.mem_singleton.mp h)
  · exact .inl h

theorem QueueState.mem_push {q : QueueState P} {event other : Event P}
    (h : other ∈ (q.push event).queue) : other ∈ q.queue ∨ q.filter.admits other = true := by
  unfold QueueState.push at h
  split at h
  · rename_i htakes
    rcases List.mem_append.mp h with h | h
    · rcases mem_makeRoom h with h | rfl
      · exact .inl h
      · exact .inr (q.filter.admits_marker q)
    · rw [List.mem_singleton.mp h]
      exact .inr (Bool.and_eq_true_iff.mp htakes).2
  · exact .inl h

theorem QueueState.mem_pushAll {events : List (Event P)} {q : QueueState P} {other : Event P}
    (h : other ∈ (events.foldl (fun queue event => queue.push event) q).queue) :
    other ∈ q.queue ∨ q.filter.admits other = true := by
  induction events generalizing q with
  | nil => exact .inl h
  | cons event events ih =>
    have hfilter : (q.push event).filter = q.filter := congrArg Prod.fst (q.push_fixed event)
    rcases ih h with h | h
    · exact mem_push h
    · rw [hfilter] at h
      exact .inr h

section Steps

variable {bus : EventBus} {json : JsonCodec P} {o o' : Observed P}

theorem Once.congr {id : Nat} (h : Once o id) (hqueue : o'.bus.queues id = o.bus.queues id)
    (hreceived : o'.received id = o.received id) (htaken : o'.taken id = o.taken id)
    (hflying : (o'.flying id).Perm (o.flying id))
    (hnext : o.bus.inner.nextSeq ≤ o'.bus.inner.nextSeq) : Once o' id := by
  have hgiven : (o'.given id).Perm (o.given id) := by
    unfold Observed.given
    rw [htaken]
    exact hflying.append_left _
  refine ⟨?_, hgiven.nodup_iff.mpr h.distinct, ?_⟩
  · unfold Observed.delivered
    rw [hqueue, hreceived]
    exact h.admitted
  · intro seq hseq
    exact Nat.lt_of_lt_of_le (h.earlier seq (hgiven.subset hseq)) hnext

theorem Once.publish (hbus : BusInv bus json o) {id : Nat} (h : Once o id) {name : String}
    {params : P} {sessionId : Option String}
    (hstep : o.publish bus json name params sessionId = some o') : Once o' id := by
  obtain ⟨inner, hpublish, hlisted, -, -⟩ := publish_eq hbus name params sessionId
  obtain rfl := Option.some.inj (hpublish.symm.trans hstep)
  have hnext : inner.nextSeq = o.bus.inner.nextSeq + 1 := congrArg Prod.fst hlisted
  have hgiven : (o.taken id).map Event.seq ++ (((o.bus.inFlight ++
        o.bus.inner.subscribers.map fun id => (o.next name params sessionId, id)).filter
          fun outstanding => outstanding.2 = id).map fun outstanding => outstanding.1.seq)
      = o.given id ++ List.replicate (o.bus.inner.subscribers.count id) o.bus.inner.nextSeq := by
    rw [filter_append, map_append, ← append_assoc, filter_map, map_map]
    have hone : o.bus.inner.subscribers.filter (fun other => decide (other = id))
        = List.replicate (o.bus.inner.subscribers.count id) id := by rw [filter_eq]
    simp only [comp_def, hone, map_replicate]
    rfl
  refine ⟨h.admitted, ?_, ?_⟩
  · show (List.map Event.seq (o.taken id) ++ _).Nodup
    unfold Observed.flying
    rw [hgiven]
    refine List.nodup_append.mpr ⟨h.distinct, ?_, ?_⟩
    · exact List.nodup_replicate.mpr (List.nodup_iff_count_le_one.mp hbus.nodup id)
    intro seq hseq other hother
    have hlt := h.earlier seq hseq
    rw [eq_of_mem_replicate hother]
    exact Nat.ne_of_lt hlt
  intro seq hseq
  show seq < inner.nextSeq
  replace hseq : seq ∈ List.map Event.seq (o.taken id) ++ _ := hseq
  unfold Observed.flying at hseq
  rw [hgiven] at hseq
  rw [hnext]
  rcases List.mem_append.mp hseq with hseq | hseq
  · exact Nat.lt_succ_of_lt (h.earlier seq hseq)
  · rw [eq_of_mem_replicate hseq]
    exact Nat.lt_succ_self _

theorem flying_push {k : Nat} {event : Event P} {target : Nat}
    (hk : o.bus.inFlight[k]? = some (event, target)) (id : Nat) :
    (o.flying id).Perm ((if target = id then [event.seq] else []) ++
      ((o.bus.inFlight.eraseIdx k).filter fun outstanding => outstanding.2 = id).map
        fun outstanding => outstanding.1.seq) := by
  obtain ⟨hlt, hget⟩ := List.getElem?_eq_some_iff.mp hk
  have hperm := getElem_cons_eraseIdx_perm hlt
  rw [hget] at hperm
  have hmapped := (hperm.symm.filter fun outstanding => decide (outstanding.2 = id)).map
    fun outstanding => outstanding.1.seq
  unfold Observed.flying
  refine hmapped.trans (List.Perm.of_eq ?_)
  by_cases htarget : target = id
  · simp [htarget]
  · simp [htarget]

theorem Once.push {id : Nat} (h : Once o id) {k : Nat} (hstep : o.push k = some o') :
    Once o' id := by
  obtain ⟨event, target, hk, rfl⟩ := push_eq hstep
  have hflying := flying_push hk id
  by_cases htarget : target = id
  · subst htarget
    simp only [if_true] at hflying
    have hgiven : (o.given target).Perm (((o.taken target) ++ [event]).map Event.seq ++
        ((o.bus.inFlight.eraseIdx k).filter fun outstanding => outstanding.2 = target).map
          fun outstanding => outstanding.1.seq) := by
      rw [map_append, append_assoc]
      exact hflying.append_left _
    have hsub : ((Function.update o.taken target (if (o.bus.queues target).takes event then
          o.taken target ++ [event] else o.taken target) target).map Event.seq).Sublist
        ((o.taken target ++ [event]).map Event.seq) := by
      rw [update_self]
      split
      · exact List.Sublist.refl _
      · exact (sublist_append_left _ _).map _
    have hgivenSub := hsub.append (List.Sublist.refl (((o.bus.inFlight.eraseIdx k).filter fun
      outstanding => outstanding.2 = target).map fun outstanding => outstanding.1.seq))
    refine ⟨?_, (hgiven.nodup_iff.mp h.distinct).sublist hgivenSub, ?_⟩
    · intro other hother
      have hfilter : ((o.bus.queues target).push event).filter = (o.bus.queues target).filter :=
        congrArg Prod.fst ((o.bus.queues target).push_fixed event)
      simp only [Observed.delivered, update_self] at hother ⊢
      rw [hfilter]
      rcases List.mem_append.mp hother with hother | hother
      · exact h.admitted other (mem_append_left _ hother)
      rcases QueueState.mem_push hother with hother | hother
      · exact h.admitted other (mem_append_right _ hother)
      · exact hother
    · intro seq hseq
      exact h.earlier seq (hgiven.symm.subset (hgivenSub.subset hseq))
  rw [if_neg htarget, nil_append] at hflying
  have hne : id ≠ target := Ne.symm htarget
  exact h.congr (update_of_ne hne _ _) (update_of_ne hne _ _)
    (update_of_ne hne _ _) hflying.symm (Nat.le_refl _)

theorem Once.receive {id : Nat} (h : Once o id) (stream : Nat) : Once (o.receive stream) id := by
  by_cases hid : id = stream
  · subst hid
    refine ⟨?_, h.distinct, h.earlier⟩
    have hfilter : (o.bus.queues id).tryRecv.2.filter = (o.bus.queues id).filter :=
      congrArg Prod.fst (o.bus.queues id).tryRecv_fixed
    have hmove : o.received id ++ (o.bus.queues id).tryRecv.1.toList ++
        (o.bus.queues id).tryRecv.2.queue = o.delivered id := by
      unfold Observed.delivered QueueState.tryRecv
      split
      · rename_i hq
        rw [hq, append_assoc]
        rfl
      rename_i hq
      rw [hq]
      simp
    simp only [Observed.delivered, Observed.receive, BusState.receive, update_self]
    rw [hmove, hfilter]
    exact h.admitted
  · exact h.congr (update_of_ne hid _ _) (update_of_ne hid _ _) rfl
      (List.Perm.refl _) (Nat.le_refl _)

theorem Once.close {id : Nat} (h : Once o id) (stream : Nat) : Once (o.close stream) id := by
  by_cases hid : id = stream
  · subst hid
    refine ⟨?_, h.distinct, h.earlier⟩
    simp only [Observed.delivered, Observed.close, BusState.close, update_self]
    exact h.admitted
  · exact h.congr (update_of_ne hid _ _) rfl rfl (List.Perm.refl _) (Nat.le_refl _)

theorem Once.unsubscribe {id stream : Nat} (h : Once o id)
    (hstep : o.unsubscribe stream = some o') : Once o' id := by
  unfold Observed.unsubscribe at hstep
  split at hstep <;> obtain ⟨⟩ := hstep
  exact h.congr rfl rfl rfl (List.Perm.refl _) (Nat.le_refl _)

section
variable (hbus : BusInv bus json o)
include hbus

theorem Once.subscribe_new (sinceSeq : Option Nat) (filter : Filter) :
    Once (o.subscribe bus json sinceSeq filter) o.bus.inner.nextSubscriber := by
  have hreplayed := hbus.replayed_new sinceSeq filter
  have hlist : (o.subscribe bus json sinceSeq filter).replayed o.bus.inner.nextSubscriber
      = o.replayFor json sinceSeq filter := update_self ..
  have hjoined : (o.subscribe bus json sinceSeq filter).joined o.bus.inner.nextSubscriber
      = o.bus.inner.nextSeq := update_self ..
  have hflying : (o.subscribe bus json sinceSeq filter).flying o.bus.inner.nextSubscriber
      = [] := by
    show ((o.bus.inFlight.filter _).map _) = []
    rw [map_eq_nil_iff, filter_eq_nil_iff]
    intro outstanding hmem
    have hlt := (hbus.inFlight outstanding hmem).2.1
    simp only [decide_eq_true_eq]
    exact Nat.ne_of_lt hlt
  have hgiven : (o.subscribe bus json sinceSeq filter).given o.bus.inner.nextSubscriber
      = (o.replayFor json sinceSeq filter).map Event.seq := by
    unfold Observed.given
    rw [hflying, append_nil]
    exact congrArg (List.map Event.seq) (update_self ..)
  refine ⟨?_, ?_, ?_⟩
  · intro event hevent
    simp only [Observed.delivered, Observed.subscribe, BusState.subscribe,
      update_self, nil_append] at hevent ⊢
    have hfilter : ((o.bus.inner.replay json sinceSeq).foldl
        (fun (queue : QueueState P) event => queue.push event)
        (.new filter bus.subscriberCapacity)).filter = filter :=
      congrArg Prod.fst (pushAll_fixed _ _)
    rw [hfilter]
    rcases QueueState.mem_pushAll hevent with hevent | hevent
    · exact absurd hevent not_mem_nil
    · exact hevent
  · rw [hgiven]
    have hordered := hreplayed.ordered
    rw [hlist] at hordered
    exact (List.pairwise_map.mpr hordered).imp Nat.ne_of_lt
  intro seq hseq
  rw [hgiven] at hseq
  obtain ⟨event, hevent, rfl⟩ := List.mem_map.mp hseq
  have hlt := hreplayed.earlier event (hlist ▸ hevent)
  rw [hjoined] at hlt
  exact hlt

theorem Once.subscribe {id : Nat} (h : Once o id)
    (sinceSeq : Option Nat) (filter : Filter) : Once (o.subscribe bus json sinceSeq filter) id := by
  by_cases hid : id = o.bus.inner.nextSubscriber
  · subst hid
    exact .subscribe_new hbus sinceSeq filter
  · exact h.congr (update_of_ne hid _ _) (update_of_ne hid _ _)
      (update_of_ne hid _ _) (List.Perm.refl _) (Nat.le_refl _)

theorem Once.step {id : Nat} (h : Once o id) {i : BusStep P}
    (hstep : o.step bus json i = some o') : Once o' id := by
  cases i with
  | publish name params sessionId => exact h.publish hbus hstep
  | push k => exact h.push hstep
  | subscribe sinceSeq filter =>
    obtain ⟨⟩ := hstep
    exact h.subscribe hbus sinceSeq filter
  | receive stream =>
    obtain ⟨⟩ := hstep
    exact h.receive stream
  | close stream =>
    obtain ⟨⟩ := hstep
    exact h.close stream
  | unsubscribe stream => exact h.unsubscribe hstep

theorem Once.received_distinct {id : Nat} (h : Once o id)
    {events : List (Event P)} (hsub : events.Sublist (o.received id)) :
    ((real events).map Event.seq).Nodup := by
  have hdelivered : (real events).Sublist (real (o.delivered id)) :=
    (hsub.trans (sublist_append_left _ _)).filter _
  have htaken := hdelivered.trans (hbus.took id).once
  exact h.distinct.sublist ((htaken.map Event.seq).trans (sublist_append_left _ _))

end

end Steps

/-! ### The machine -/

/-- The stream whose owner alone takes the step. -/
def BusStep.stream? : BusStep P → Option Nat
  | .receive id | .close id | .unsubscribe id => some id
  | .publish _ _ _ | .push _ | .subscribe _ _ => none

/-- What a forwarder's next step asks of the bus. -/
def Forwarder.calls (stream : Nat) (forwarder : Forwarder P) : Option (BusStep P) :=
  match forwarder.stands with
  | .recv => some (.receive stream)
  | .drop => some (.close stream)
  | .closed => some (.unsubscribe stream)
  | .check | .write _ | .ended => none

inductive ConnectionStep (P : Type)
  /-- A publisher, or whoever else has a stream. -/
  | bus (i : BusStep P)
  | request (sinceSeq : Option Nat) (sessions kinds : Option (List String))
  | subscribe (spawned : Bool)
  | respond (writes : Bool)
  | hangUp
  | forward (stream : Nat) (writes : Bool)

structure Connected (P : Type) where
  seen : Observed P := {}
  connection : ControlConnection P := {}

namespace Connected

variable (bus : EventBus) (json : JsonCodec P)

def subscribe (spawned : Bool) (r : Connected P) : Option (Connected P) :=
  match r.connection.serving with
  | .replacing sinceSeq filter =>
    let stream := r.seen.bus.inner.nextSubscriber
    let seen := r.seen.subscribe bus json sinceSeq filter
    if spawned then some ⟨seen, r.connection.spawn stream⟩
    else ((seen.close stream).unsubscribe stream).map fun seen =>
      ⟨seen, r.connection.spawnFailed⟩
  | _ => none

def forward (stream : Nat) (writes : Bool) (r : Connected P) : Option (Connected P) :=
  (r.connection.forwarders stream).bind fun forwarder =>
    (((forwarder.calls stream).elim (some r.seen) (r.seen.step bus json)).map fun seen =>
      ⟨seen, r.connection.forward stream forwarder (r.seen.bus.queues stream).tryRecv.1 writes⟩)

/-- One step; `none` is a step that is not possible now. -/
def step (r : Connected P) : ConnectionStep P → Option (Connected P)
  | .bus i =>
    if (i.stream?.bind r.connection.forwarders).isNone then
      (r.seen.step bus json i).map fun seen => { r with seen := seen }
    else none
  | .request sinceSeq sessions kinds =>
    (r.connection.request sinceSeq sessions kinds).map fun c => { r with connection := c }
  | .subscribe spawned => r.subscribe bus json spawned
  | .respond writes => (r.connection.respond writes).map fun c => { r with connection := c }
  | .hangUp => r.connection.hangUp.map fun c => { r with connection := c }
  | .forward stream writes => r.forward bus json stream writes

/--
No forwarder that was replaced gets hold of one more event: when the response is written
it holds none, and if it is waiting in `recv` after that it finds its queue empty, so that
it comes back to its flag.
-/
def LetsGo (r : Connected P) : ConnectionStep P → Prop
  | .respond _ => ∀ id < r.seen.bus.inner.nextSubscriber,
      r.connection.subscription ≠ some id → (r.connection.holding id).isNone = true
  | .forward id _ => r.connection.serving.answered = true → r.connection.subscription ≠ some id →
      (r.connection.forwarders id).any Forwarder.receives = true →
        (r.seen.bus.queues id).queue.isEmpty = true
  | _ => True

instance LetsGo.decidable (r : Connected P) : (i : ConnectionStep P) → Decidable (r.LetsGo i)
  | .respond _ => inferInstanceAs (Decidable (∀ id < r.seen.bus.inner.nextSubscriber, _ → _))
  | .forward _ _ => inferInstanceAs (Decidable (_ → _ → _ → _))
  | .bus _ | .request _ _ _ | .subscribe _ | .hangUp => .isTrue trivial

end Connected

/-! ### What is on the wire -/

namespace ControlConnection

/-- The event of a frame, and whose it is. -/
def sent? : SentFrame P → Option (Nat × Event P)
  | .event stream event => some (stream, event)
  | .response _ => none

def sentBy (written : List (SentFrame P)) (id : Nat) : List (Event P) :=
  ((written.filterMap sent?).filter fun sent => sent.1 = id).map Prod.snd

/-- The events written after the last response, and whose they are. -/
def sinceResponse (written : List (SentFrame P)) : List (Nat × Event P) :=
  written.foldl (fun since frame =>
    match frame with
    | .event stream event => since ++ [(stream, event)]
    | .response _ => []) []

/-- After the response, each seq is written once, and nothing that was not asked for.
A marker has no seq of its own. -/
structure Replaced (c : ControlConnection P) : Prop where
  once : ((real ((sinceResponse c.written).map Prod.snd)).map Event.seq).Nodup
  admitted : ∀ event ∈ (sinceResponse c.written).map Prod.snd, c.asked.admits event = true

variable (written : List (SentFrame P))

theorem sinceResponse_events (stream : Nat)
    (events : List (Event P)) : sinceResponse (written ++ events.map (SentFrame.event stream))
      = sinceResponse written ++ events.map (Prod.mk stream) := by
  induction events generalizing written with
  | nil => simp
  | cons event events ih =>
    have hone : sinceResponse (written ++ [.event stream event])
        = sinceResponse written ++ [(stream, event)] := by
      unfold sinceResponse
      rw [foldl_append]
      rfl
    rw [map_cons, append_cons, ih, hone, append_assoc]
    rfl

theorem sinceResponse_response (subscribed : Bool) :
    sinceResponse (written ++ [.response subscribed]) = [] := by
  unfold sinceResponse
  rw [foldl_append]
  rfl

theorem sinceResponse_sublist : (sinceResponse written).Sublist (written.filterMap sent?) := by
  induction written using List.reverseRecOn with
  | nil => exact List.Sublist.slnil
  | append_singleton written frame ih =>
    rw [filterMap_append]
    cases frame with
    | event stream event =>
      have hone := sinceResponse_events written stream [event]
      rw [map_singleton, map_singleton] at hone
      rw [hone]
      exact ih.append (List.Sublist.refl _)
    | response subscribed =>
      rw [sinceResponse_response]
      exact nil_sublist _

theorem sentBy_events (stream : Nat) (events : List (Event P))
    (id : Nat) : sentBy (written ++ events.map (SentFrame.event stream)) id
      = sentBy written id ++ if stream = id then events else [] := by
  have hevents : (events.map (SentFrame.event stream)).filterMap sent?
      = events.map (Prod.mk stream) := by
    rw [filterMap_map]
    exact congrFun filterMap_eq_map events
  unfold sentBy
  rw [filterMap_append, hevents, filter_append, map_append]
  split
  · rename_i hid
    simp [hid, List.filter_eq_self.mpr]
  · rename_i hid
    simp [hid]

theorem sentBy_response (subscribed : Bool) (id : Nat) :
    sentBy (written ++ [.response subscribed]) id = sentBy written id := by
  unfold sentBy
  rw [filterMap_append]
  simp [sent?]

theorem sinceResponse_sentBy {written : List (SentFrame P)} {id : Nat}
    (h : ∀ sent ∈ sinceResponse written, sent.1 = id) :
    ((sinceResponse written).map Prod.snd).Sublist (sentBy written id) := by
  have hall : (sinceResponse written).filter (fun sent => sent.1 = id)
      = sinceResponse written := by
    rw [filter_eq_self]
    intro sent hsent
    exact decide_eq_true (h sent hsent)
  rw [← hall]
  exact ((sinceResponse_sublist written).filter _).map _

variable (c : ControlConnection P)

theorem stopped_apply (id : Nat) :
    c.stopped id = (c.forwarders id).map fun forwarder =>
      if c.subscription = some id then { forwarder with stop := true } else forwarder := by
  unfold stopped
  cases c.subscription with
  | none => simp
  | some stream =>
    by_cases hid : id = stream
    · subst hid
      simp
    · have hne : stream ≠ id := Ne.symm hid
      simp [update_of_ne hid, hne]

theorem stopped_holds (id : Nat) : (c.stopped id).bind Forwarder.holds = c.holding id := by
  rw [stopped_apply]
  unfold holding
  cases c.forwarders id with
  | none => rfl
  | some forwarder =>
    simp only [Option.map_some, Option.bind_some]
    split <;> rfl

theorem stopped_eq_none (id : Nat) : c.stopped id = none ↔ c.forwarders id = none := by
  rw [stopped_apply, Option.map_eq_none_iff]

end ControlConnection

theorem Forwarder.step_holds (forwarder : Forwarder P) (received : Option (Event P))
    (writes : Bool) :
    (forwarder.sends writes ++ (forwarder.step received writes).holds.toList).Sublist
      (forwarder.holds.toList ++ if forwarder.receives then received.toList else []) := by
  unfold sends holds receives step
  cases hstands : forwarder.stands with
  | write event | drop | closed | ended => cases writes <;> simp
  | recv => cases received <;> cases writes <;> simp
  | check => cases forwarder.stop <;> cases writes <;> simp

theorem Forwarder.step_holds_none {forwarder : Forwarder P} {received : Option (Event P)}
    (h : forwarder.holds = none) (hreceived : forwarder.receives = true → received = none)
    (writes : Bool) : (forwarder.step received writes).holds = none := by
  have hsub := forwarder.step_holds received writes
  rw [h] at hsub
  have hnone : (if forwarder.receives = true then received.toList else []) = [] := by
    split
    · rename_i hreceives
      rw [hreceived hreceives]
      rfl
    · rfl
  rw [hnone] at hsub
  have hboth := List.append_eq_nil_iff.mp (List.sublist_nil.mp hsub)
  exact Option.toList_eq_nil_iff.mp hboth.2

/-! ### What holds of a connection -/

section Steps

variable {bus : EventBus} {json : JsonCodec P} {o o' : Observed P}

/-- A step leaves the filters, and what was received of the streams that it does not own. -/
theorem step_kept (hbus : BusInv bus json o) {i : BusStep P} (hstep : o.step bus json i = some o') :
    o.bus.inner.nextSubscriber ≤ o'.bus.inner.nextSubscriber ∧ ∀ id < o.bus.inner.nextSubscriber,
        (o'.bus.queues id).filter = (o.bus.queues id).filter ∧
          (i.stream? ≠ some id → o'.received id = o.received id) := by
  cases i with
  | publish name params sessionId =>
    obtain ⟨inner, hpublish, hlisted, -, -⟩ := publish_eq hbus name params sessionId
    obtain rfl := Option.some.inj (hpublish.symm.trans hstep)
    have hnext : inner.nextSubscriber = o.bus.inner.nextSubscriber :=
      congrArg (fun listed => listed.2.2) hlisted
    exact ⟨Nat.le_of_eq hnext.symm, fun id _ => ⟨rfl, fun _ => rfl⟩⟩
  | push k =>
    obtain ⟨event, target, hk, rfl⟩ := push_eq hstep
    refine ⟨Nat.le_refl _, fun id _ => ⟨?_, fun _ => ?_⟩⟩
    · by_cases hid : id = target
      · subst hid
        simp only [update_self]
        exact congrArg Prod.fst ((o.bus.queues id).push_fixed event)
      · simp only [update_of_ne hid]
    · simp only [update_eq_self]
  | subscribe sinceSeq filter =>
    obtain ⟨⟩ := hstep
    refine ⟨Nat.le_succ _, fun id hid => ?_⟩
    have hne : id ≠ o.bus.inner.nextSubscriber := Nat.ne_of_lt hid
    exact ⟨congrArg _ (update_of_ne hne _ _), fun _ => update_of_ne hne _ _⟩
  | receive stream =>
    obtain ⟨⟩ := hstep
    refine ⟨Nat.le_refl _, fun id _ => ⟨?_, fun hstream => ?_⟩⟩
    · show (Function.update o.bus.queues stream _ id).filter = _
      by_cases hid : id = stream
      · subst hid
        rw [update_self]
        exact congrArg Prod.fst (o.bus.queues id).tryRecv_fixed
      · rw [update_of_ne hid]
    · have hne : id ≠ stream := fun hid => hstream (congrArg some hid.symm)
      exact update_of_ne hne _ _
  | close stream =>
    obtain ⟨⟩ := hstep
    refine ⟨Nat.le_refl _, fun id _ => ⟨?_, fun _ => rfl⟩⟩
    show (Function.update o.bus.queues stream _ id).filter = _
    by_cases hid : id = stream
    · subst hid
      rw [update_self]
    · rw [update_of_ne hid]
  | unsubscribe stream =>
    replace hstep : o.unsubscribe stream = some o' := hstep
    unfold Observed.unsubscribe at hstep
    split at hstep <;> obtain ⟨⟩ := hstep
    exact ⟨Nat.le_refl _, fun id _ => ⟨rfl, fun _ => rfl⟩⟩

/-- What holds of a connection in every order of steps, as long as replaced forwarders let go. -/
structure Tended (bus : EventBus) (json : JsonCodec P) (r : Connected P) : Prop where
  seen : BusInv bus json r.seen
  once : ∀ id, Once r.seen id
  known : ∀ id, r.seen.bus.inner.nextSubscriber ≤ id → r.connection.forwarders id = none
  unused : ∀ id, r.connection.forwarders id = none →
    ControlConnection.sentBy r.connection.written id = []
  /-- What a forwarder has written, and holds, it has received. -/
  out : ∀ id, (ControlConnection.sentBy r.connection.written id ++
    (r.connection.holding id).toList).Sublist (r.seen.received id)
  handle : ∀ id, r.connection.subscription = some id →
    id < r.seen.bus.inner.nextSubscriber ∧ (r.seen.bus.queues id).filter = r.connection.asked
  asked : ∀ sinceSeq filter, r.connection.serving = .replacing sinceSeq filter →
    r.connection.asked = filter
  /-- Only the current forwarder writes. -/
  current : r.connection.serving.answered = true →
    ∀ sent ∈ ControlConnection.sinceResponse r.connection.written,
      r.connection.subscription = some sent.1
  idle : r.connection.serving.answered = true → ∀ id, r.connection.subscription ≠ some id →
    r.connection.holding id = none

theorem Tended.start (bus : EventBus) (json : JsonCodec P) : Tended bus json {} where
  seen := .start bus json
  once := .start
  known := fun _ _ => rfl
  unused := fun _ _ => rfl
  out := fun _ => List.Sublist.slnil
  handle := fun _ h => by cases h
  asked := fun _ _ h => by cases h
  current := fun _ _ h => absurd h not_mem_nil
  idle := fun _ _ _ => rfl

theorem Tended.move {r : Connected P} (h : Tended bus json r) {i : BusStep P} {seen : Observed P}
    (hfree : i.stream?.bind r.connection.forwarders = none)
    (hstep : r.seen.step bus json i = some seen) : Tended bus json ⟨seen, r.connection⟩ := by
  obtain ⟨hnext, hkept⟩ := step_kept h.seen hstep
  refine ⟨h.seen.step hstep, fun id => (h.once id).step h.seen hstep, ?_, h.unused, ?_, ?_,
    h.asked, h.current, h.idle⟩
  · intro id hid
    exact h.known id (Nat.le_trans hnext hid)
  · intro id
    cases hforwarder : r.connection.forwarders id with
    | none =>
      have hnone : r.connection.holding id = none := by
        unfold ControlConnection.holding
        rw [hforwarder]
        rfl
      rw [h.unused id hforwarder, hnone]
      exact nil_sublist _
    | some forwarder =>
      have hid : id < r.seen.bus.inner.nextSubscriber := by
        refine Nat.lt_of_not_le fun hle => ?_
        rw [h.known id hle] at hforwarder
        cases hforwarder
      have hstream : i.stream? ≠ some id := by
        intro hstream
        rw [hstream, Option.bind_some, hforwarder] at hfree
        cases hfree
      show List.Sublist _ (seen.received id)
      rw [(hkept id hid).2 hstream]
      exact h.out id
  · intro id hid
    obtain ⟨hlt, hfilter⟩ := h.handle id hid
    exact ⟨Nat.lt_of_lt_of_le hlt hnext, (hkept id hlt).1.trans hfilter⟩

variable {r r' : Connected P}

variable {c : ControlConnection P}

section
variable (h : Tended bus json r)
include h

theorem Tended.stop (hforwarders : c.forwarders = r.connection.stopped)
    (hwritten : c.written = r.connection.written) (hhandle : ∀ id, c.subscription = some id →
      r.connection.subscription = some id ∧ c.asked = r.connection.asked)
    (hasked : ∀ sinceSeq filter, c.serving = .replacing sinceSeq filter → c.asked = filter)
    (hanswered : c.serving.answered = true →
      r.connection.serving.answered = true ∧ c.subscription = r.connection.subscription) :
    Tended bus json ⟨r.seen, c⟩ := by
  have hnone : ∀ id, c.forwarders id = none ↔ r.connection.forwarders id = none := by
    intro id
    rw [hforwarders]
    exact r.connection.stopped_eq_none id
  have hholding : ∀ id, c.holding id = r.connection.holding id := by
    intro id
    unfold ControlConnection.holding
    rw [hforwarders]
    exact r.connection.stopped_holds id
  refine ⟨h.seen, h.once, ?_, ?_, ?_, ?_, hasked, ?_, ?_⟩
  · intro id hid
    exact (hnone id).mpr (h.known id hid)
  · intro id hid
    show ControlConnection.sentBy c.written id = []
    rw [hwritten]
    exact h.unused id ((hnone id).mp hid)
  · intro id
    show (ControlConnection.sentBy c.written id ++ (c.holding id).toList).Sublist _
    rw [hwritten, hholding]
    exact h.out id
  · intro id hid
    obtain ⟨hsubscription, hsame⟩ := hhandle id hid
    obtain ⟨hlt, hfilter⟩ := h.handle id hsubscription
    exact ⟨hlt, hfilter.trans hsame.symm⟩
  · intro hdone sent hsent
    obtain ⟨hbefore, hsame⟩ := hanswered hdone
    replace hsent : sent ∈ ControlConnection.sinceResponse c.written := hsent
    rw [hwritten] at hsent
    exact hsame.trans (h.current hbefore sent hsent)
  · intro hdone id hid
    obtain ⟨hbefore, hsame⟩ := hanswered hdone
    exact (hholding id).trans (h.idle hbefore id (hsame ▸ hid))

theorem Tended.request {sinceSeq : Option Nat} {sessions kinds : Option (List String)}
    (hstep : r.connection.request sinceSeq sessions kinds = some c) :
    Tended bus json ⟨r.seen, c⟩ := by
  unfold ControlConnection.request at hstep
  split at hstep <;> obtain ⟨⟩ := hstep
  refine h.stop rfl rfl ?_ ?_ ?_
  · intro id hid
    cases hid
  · intro sinceSeq filter hserving
    cases hserving
    rfl
  · intro hdone
    cases hdone

theorem Tended.hangUp (hstep : r.connection.hangUp = some c) : Tended bus json ⟨r.seen, c⟩ := by
  unfold ControlConnection.hangUp at hstep
  split at hstep
  · rename_i hserving
    obtain ⟨⟩ := hstep
    refine h.stop rfl rfl (fun id hid => ⟨hid, rfl⟩) ?_ fun _ => ⟨?_, rfl⟩
    · intro sinceSeq filter hreplacing
      cases hreplacing
    · rw [hserving]
      rfl
  · cases hstep

theorem Tended.respond {writes : Bool}
    (hletsGo : r.LetsGo (.respond writes)) (hstep : r.connection.respond writes = some c) :
    Tended bus json ⟨r.seen, c⟩ := by
  unfold ControlConnection.respond at hstep
  split at hstep
  case h_2 => cases hstep
  rename_i subscribed hserving
  obtain ⟨⟩ := hstep
  cases writes with
  | true =>
    refine ⟨h.seen, h.once, h.known, ?_, ?_, h.handle, ?_, ?_, ?_⟩
    · intro id hid
      exact (sentBy_response _ _ _).trans (h.unused id hid)
    · intro id
      show (ControlConnection.sentBy (r.connection.written ++ _) id ++ _).Sublist _
      rw [sentBy_response]
      exact h.out id
    · intro sinceSeq filter hreplacing
      cases hreplacing
    · intro _ sent hsent
      replace hsent : sent ∈ ControlConnection.sinceResponse (r.connection.written ++ _) := hsent
      rw [sinceResponse_response] at hsent
      exact absurd hsent not_mem_nil
    intro _ id hid
    by_cases hknown : id < r.seen.bus.inner.nextSubscriber
    · exact Option.isNone_iff_eq_none.mp (hletsGo id hknown hid)
    have hnone := h.known id (Nat.le_of_not_lt hknown)
    show (r.connection.forwarders id).bind Forwarder.holds = none
    rw [hnone]
    rfl
  | false =>
    refine h.stop rfl rfl (fun id hid => ⟨hid, rfl⟩) ?_ ?_
    · intro sinceSeq filter hreplacing
      cases hreplacing
    · intro hdone
      cases hdone

theorem Tended.subscribe {spawned : Bool}
    (hstep : r.subscribe bus json spawned = some r') : Tended bus json r' := by
  unfold Connected.subscribe at hstep
  split at hstep
  case h_2 => cases hstep
  rename_i sinceSeq filter hserving
  have hsubscribe : r.seen.step bus json (.subscribe sinceSeq filter)
      = some (r.seen.subscribe bus json sinceSeq filter) := rfl
  have hmoved := h.move (i := .subscribe sinceSeq filter) rfl hsubscribe
  have hnew := h.known r.seen.bus.inner.nextSubscriber (Nat.le_refl _)
  cases spawned with
  | true =>
    obtain ⟨⟩ := hstep
    refine ⟨hmoved.seen, hmoved.once, ?_, ?_, ?_, ?_, ?_, ?_, ?_⟩
    · intro id hid
      have hne : id ≠ r.seen.bus.inner.nextSubscriber := Nat.ne_of_gt hid
      show Function.update r.connection.forwarders _ _ id = none
      rw [update_of_ne hne]
      exact hmoved.known id hid
    · intro id hid
      replace hid : Function.update r.connection.forwarders _ _ id = none := hid
      by_cases hne : id = r.seen.bus.inner.nextSubscriber
      · subst hne
        rw [update_self] at hid
        cases hid
      · rw [update_of_ne hne] at hid
        exact h.unused id hid
    · intro id
      by_cases hne : id = r.seen.bus.inner.nextSubscriber
      · subst hne
        have hnothing := h.unused _ hnew
        simp only [ControlConnection.spawn, ControlConnection.holding, update_self, hnothing]
        exact nil_sublist _
      · simp only [ControlConnection.spawn, ControlConnection.holding, update_of_ne hne]
        exact hmoved.out id
    · intro id hid
      obtain ⟨⟩ := hid
      refine ⟨Nat.lt_succ_self _, ?_⟩
      show (Function.update r.seen.bus.queues _ _ _).filter = r.connection.asked
      rw [update_self, h.asked sinceSeq filter hserving]
      exact congrArg Prod.fst (pushAll_fixed _ _)
    · intro sinceSeq filter hreplacing
      cases hreplacing
    · intro hdone
      cases hdone
    · intro hdone
      cases hdone
  | false =>
    obtain ⟨seen, hunsubscribe, rfl⟩ := Option.map_eq_some_iff.mp hstep
    have hclosed := hmoved.move (i := .close r.seen.bus.inner.nextSubscriber) hnew rfl
    have hgone := hclosed.move (i := .unsubscribe r.seen.bus.inner.nextSubscriber) hnew hunsubscribe
    refine ⟨hgone.seen, hgone.once, hgone.known, hgone.unused, hgone.out, hgone.handle, ?_, ?_, ?_⟩
    · intro sinceSeq filter hreplacing
      cases hreplacing
    · intro hdone
      cases hdone
    · intro hdone
      cases hdone

end

/-- What a forwarder's step does to the bus, and that it receives in `recv` only. -/
theorem calls_received {stream : Nat} {forwarder : Forwarder P}
    (hstep : (forwarder.calls stream).elim (some o) (o.step bus json) = some o') :
    o'.received stream = o.received stream ++
      if forwarder.receives then (o.bus.queues stream).tryRecv.1.toList else [] := by
  unfold Forwarder.calls at hstep
  unfold Forwarder.receives
  cases hstands : forwarder.stands with
  | recv =>
    rw [hstands] at hstep
    obtain ⟨⟩ := hstep
    exact update_self ..
  | drop =>
    rw [hstands] at hstep
    obtain ⟨⟩ := hstep
    exact (append_nil _).symm
  | closed =>
    rw [hstands] at hstep
    replace hstep : o.unsubscribe stream = some o' := hstep
    unfold Observed.unsubscribe at hstep
    split at hstep <;> obtain ⟨⟩ := hstep
    exact (append_nil _).symm
  | check | write _ | ended =>
    rw [hstands] at hstep
    obtain ⟨⟩ := hstep
    exact (append_nil _).symm

theorem calls_kept (hbus : BusInv bus json o) {stream : Nat} {forwarder : Forwarder P}
    (hstep : (forwarder.calls stream).elim (some o) (o.step bus json) = some o') :
    BusInv bus json o' ∧ (∀ id, Once o id → Once o' id) ∧
      o.bus.inner.nextSubscriber ≤ o'.bus.inner.nextSubscriber ∧
      ∀ id < o.bus.inner.nextSubscriber, (o'.bus.queues id).filter = (o.bus.queues id).filter ∧
          (id ≠ stream → o'.received id = o.received id) := by
  have hown : ∀ i ∈ forwarder.calls stream, i.stream? = some stream := by
    intro i hi
    unfold Forwarder.calls at hi
    split at hi
    · obtain ⟨⟩ := hi
      rfl
    · obtain ⟨⟩ := hi
      rfl
    · obtain ⟨⟩ := hi
      rfl
    · cases hi
    · cases hi
    · cases hi
  cases hcalls : forwarder.calls stream with
  | none =>
    rw [hcalls] at hstep
    obtain ⟨⟩ := hstep
    exact ⟨hbus, fun _ h => h, Nat.le_refl _, fun id _ => ⟨rfl, fun _ => rfl⟩⟩
  | some i =>
    rw [hcalls] at hstep
    obtain ⟨hnext, hkept⟩ := step_kept hbus hstep
    refine ⟨hbus.step hstep, fun id h => h.step hbus hstep, hnext, fun id hid => ?_⟩
    obtain ⟨hfilter, hreceived⟩ := hkept id hid
    refine ⟨hfilter, fun hne => hreceived fun hstream => hne ?_⟩
    rw [hown i hcalls] at hstream
    exact (Option.some.inj hstream).symm

theorem Tended.forward (h : Tended bus json r) {stream : Nat} {writes : Bool}
    (hletsGo : r.LetsGo (.forward stream writes))
    (hstep : r.forward bus json stream writes = some r') : Tended bus json r' := by
  obtain ⟨forwarder, hforwarder, hstep⟩ := Option.bind_eq_some_iff.mp hstep
  obtain ⟨seen, hcalls, rfl⟩ := Option.map_eq_some_iff.mp hstep
  obtain ⟨hseen, honce, hnext, hkept⟩ := calls_kept h.seen hcalls
  have hreceived := calls_received hcalls
  have hheld : r.connection.holding stream = forwarder.holds := by
    unfold ControlConnection.holding
    rw [hforwarder]
    rfl
  have hlt : stream < r.seen.bus.inner.nextSubscriber := by
    refine Nat.lt_of_not_le fun hle => ?_
    rw [h.known stream hle] at hforwarder
    cases hforwarder
  -- When the subscription has been replaced, the forwarder holds nothing before or after.
  have hnothing : r.connection.serving.answered = true → r.connection.subscription ≠ some stream →
      forwarder.holds = none ∧
        (forwarder.step (r.seen.bus.queues stream).tryRecv.1 writes).holds = none := by
    intro hanswered hreplaced
    have hnone : forwarder.holds = none := hheld ▸ h.idle hanswered stream hreplaced
    refine ⟨hnone, Forwarder.step_holds_none hnone ?_ writes⟩
    intro hreceives
    have hany : (r.connection.forwarders stream).any Forwarder.receives = true := by
      rw [hforwarder]
      exact hreceives
    have hempty := List.isEmpty_iff.mp (hletsGo hanswered hreplaced hany)
    unfold QueueState.tryRecv
    rw [hempty]
  have hsent : ∀ id, ControlConnection.sentBy (r.connection.written ++
      (forwarder.sends writes).map (SentFrame.event stream)) id
        = ControlConnection.sentBy r.connection.written id ++
          if stream = id then forwarder.sends writes else [] :=
    sentBy_events r.connection.written stream _
  refine ⟨hseen, fun id => honce id (h.once id), ?_, ?_, ?_, ?_, h.asked, ?_, ?_⟩
  · intro id hid
    have hne : id ≠ stream := Nat.ne_of_gt (Nat.lt_of_lt_of_le (Nat.lt_of_lt_of_le hlt hnext) hid)
    show Function.update r.connection.forwarders stream _ id = none
    rw [update_of_ne hne]
    exact h.known id (Nat.le_trans hnext hid)
  · intro id hid
    replace hid : Function.update r.connection.forwarders stream _ id = none := hid
    by_cases hne : id = stream
    · subst hne
      rw [update_self] at hid
      cases hid
    rw [update_of_ne hne] at hid
    refine (hsent id).trans ?_
    rw [h.unused id hid, if_neg (Ne.symm hne)]
    rfl
  · intro id
    simp only [ControlConnection.forward, ControlConnection.holding, hsent id]
    by_cases hne : id = stream
    · subst hne
      rw [update_self, if_pos rfl, hreceived, append_assoc]
      have hbefore := h.out id
      rw [hheld] at hbefore
      calc (ControlConnection.sentBy r.connection.written id ++ (forwarder.sends writes ++
              (forwarder.step (r.seen.bus.queues id).tryRecv.1 writes).holds.toList)).Sublist
            (ControlConnection.sentBy r.connection.written id ++ (forwarder.holds.toList ++
              if forwarder.receives then (r.seen.bus.queues id).tryRecv.1.toList else [])) :=
            (List.Sublist.refl _).append (forwarder.step_holds _ writes)
        _ = (ControlConnection.sentBy r.connection.written id ++ forwarder.holds.toList) ++
              if forwarder.receives then (r.seen.bus.queues id).tryRecv.1.toList else [] :=
            (append_assoc _ _ _).symm
        List.Sublist _ _ := hbefore.append (List.Sublist.refl _)
    rw [update_of_ne hne, if_neg (Ne.symm hne), append_nil]
    by_cases hid : id < r.seen.bus.inner.nextSubscriber
    · rw [(hkept id hid).2 hne]
      exact h.out id
    have hnone := h.known id (Nat.le_of_not_lt hid)
    rw [h.unused id hnone, hnone]
    exact nil_sublist _
  · intro id hid
    obtain ⟨hbefore, hfilter⟩ := h.handle id hid
    exact ⟨Nat.lt_of_lt_of_le hbefore hnext, (hkept id hbefore).1.trans hfilter⟩
  · intro hanswered sent hmem
    replace hmem : sent ∈ ControlConnection.sinceResponse (r.connection.written ++
      (forwarder.sends writes).map (SentFrame.event stream)) := hmem
    rw [sinceResponse_events] at hmem
    rcases List.mem_append.mp hmem with hmem | hmem
    · exact h.current hanswered sent hmem
    obtain ⟨event, hevent, rfl⟩ := List.mem_map.mp hmem
    by_contra hreplaced
    have hnone := (hnothing hanswered hreplaced).1
    unfold Forwarder.sends at hevent
    rw [hnone] at hevent
    cases writes <;> cases hevent
  intro hanswered id hreplaced
  show (Function.update r.connection.forwarders stream _ id).bind Forwarder.holds = none
  by_cases hne : id = stream
  · subst hne
    rw [update_self]
    exact (hnothing hanswered hreplaced).2
  · rw [update_of_ne hne]
    exact h.idle hanswered id hreplaced

theorem Tended.step (h : Tended bus json r) {i : ConnectionStep P} (hletsGo : r.LetsGo i)
    (hstep : r.step bus json i = some r') : Tended bus json r' := by
  cases i with
  | bus i =>
    replace hstep : (if (i.stream?.bind r.connection.forwarders).isNone = true then _ else none)
      = some r' := hstep
    split at hstep
    · rename_i hfree
      obtain ⟨seen, hseen, rfl⟩ := Option.map_eq_some_iff.mp hstep
      exact h.move (Option.isNone_iff_eq_none.mp hfree) hseen
    · cases hstep
  | request sinceSeq sessions kinds =>
    obtain ⟨c, hc, rfl⟩ := Option.map_eq_some_iff.mp hstep
    exact h.request hc
  | subscribe spawned => exact h.subscribe hstep
  | respond writes =>
    obtain ⟨c, hc, rfl⟩ := Option.map_eq_some_iff.mp hstep
    exact h.respond hletsGo hc
  | hangUp =>
    obtain ⟨c, hc, rfl⟩ := Option.map_eq_some_iff.mp hstep
    exact h.hangUp hc
  | forward stream writes => exact h.forward hletsGo hstep

/-- When every request has its response, the last one's subscription is the only one. -/
theorem Tended.replaced (h : Tended bus json r)
    (hanswered : r.connection.serving.answered = true) : r.connection.Replaced := by
  cases hsubscription : r.connection.subscription with
  | none =>
    have hnil : ControlConnection.sinceResponse r.connection.written = [] := by
      rw [eq_nil_iff_forall_not_mem]
      intro sent hsent
      have hcurrent := h.current hanswered sent hsent
      rw [hsubscription] at hcurrent
      cases hcurrent
    refine ⟨?_, ?_⟩
    · rw [hnil]
      exact nodup_nil
    · intro event hevent
      rw [hnil] at hevent
      cases hevent
  | some id =>
    have hown : ∀ sent ∈ ControlConnection.sinceResponse r.connection.written, sent.1 = id := by
      intro sent hsent
      have hcurrent := h.current hanswered sent hsent
      rw [hsubscription] at hcurrent
      exact (Option.some.inj hcurrent).symm
    have hsub := (sinceResponse_sentBy hown).trans ((sublist_append_left _ _).trans (h.out id))
    refine ⟨(h.once id).received_distinct h.seen hsub, ?_⟩
    intro event hevent
    have hadmits := (h.once id).admitted event (mem_append_left _ (hsub.subset hevent))
    rw [(h.handle id hsubscription).2] at hadmits
    exact hadmits

end Steps

/--
**A subscription that is replaced stays replaced, as long as its forwarder lets go.**
The publishers, the other streams on the bus, the serving thread and all the forwarders it
ever spawned take their steps in any order.  Whenever every `events.subscribe` so far has
its response, the events written since have different seqs, and the filter that was asked
for last admits them.
-/
theorem resubscribe_replaces (bus : EventBus) (json : JsonCodec P)
    (steps : List (ConnectionStep P)) (r : Connected P)
    (hletsGo : Meets Connected.LetsGo (Connected.step bus json) {} steps)
    (hrun : partialRun (Connected.step bus json) {} steps = some r)
    (hanswered : r.connection.serving.answered = true) : r.connection.Replaced := by
  have hsound : Tended bus json r :=
    Meets.invariant (fun _ _ _ h hletsGo hstep => h.step hletsGo hstep) hletsGo
      (.start bus json) hrun
  exact hsound.replaced hanswered

/-- One subscription, and an event that its forwarder has received. -/
def oneHeld : List (ConnectionStep Unit) :=
  [.request none none none, .subscribe true, .respond true, .forward 0 true,
    .bus (.publish "first" () none), .bus (.push 0), .forward 0 true]

/-- It writes the event, and the other subscription replays it. -/
def writtenBefore : List (ConnectionStep Unit) :=
  oneHeld ++ [.forward 0 true, .request (some 0) none none, .subscribe true, .respond true,
    .forward 0 true, .forward 1 true, .forward 1 true, .forward 1 true]

theorem resubscribe_replaces_written_before :
    ∃ r, partialRun (Connected.step .new nullJson) {} writtenBefore = some r ∧
      (ControlConnection.sinceResponse r.connection.written).map (fun sent => sent.2.seq) = [1] ∧
      r.connection.Replaced :=
  ⟨_, rfl, rfl, resubscribe_replaces .new nullJson writtenBefore _ (by decide +kernel) rfl rfl⟩

/--
**A forwarder that is stopped with an event in its hand still writes it.**  The second
subscription replays the event, and both write it; or the second does not want it, and it
is written all the same.
-/
theorem resubscribe_overlaps : (∃ r, partialRun (Connected.step .new nullJson) {} (oneHeld ++
        [.request (some 0) none none, .subscribe true, .respond true, .forward 0 true,
          .forward 1 true, .forward 1 true, .forward 1 true]) = some r ∧
      r.connection.serving.answered = true ∧
      (ControlConnection.sinceResponse r.connection.written).map (fun sent => sent.2.seq)
        = [1, 1] ∧ ¬r.connection.Replaced) ∧
    ∃ r, partialRun (Connected.step .new nullJson) {} (oneHeld ++
        [.request none none (some ["second"]), .subscribe true, .respond true,
          .forward 0 true]) = some r ∧ r.connection.serving.answered = true ∧
      (ControlConnection.sinceResponse r.connection.written).map (fun sent => sent.2.name)
        = ["first"] ∧ ¬r.connection.Replaced := by
  refine ⟨⟨_, rfl, rfl, rfl, ?_⟩, ⟨_, rfl, rfl, rfl, ?_⟩⟩
  · intro h
    exact absurd h.once (by decide +kernel)
  · intro h
    exact absurd h.admitted (by decide +kernel)

end Diri
