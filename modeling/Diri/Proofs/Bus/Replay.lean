/-
Replay and live tail, one operation at a time.

Here nobody interrupts an operation: a publisher makes its pushes at once.  Such a run
is a run of the machine in which the order of `Proofs.Bus.Delivery` cannot be broken, so
a subscription's queue takes exactly what it is owed (`Streams`).  What the queue does
with it is the accounting of `Proofs.Events`.

The ring forgets, and a replay can overflow the queue it goes through; neither is told
of before the events that come behind (`replay_gaps`).
-/
import Diri.Proofs.Bus.Delivery

namespace Diri

open Function List

variable {P : Type}

/-! ### Operations -/

inductive BusOp (P : Type)
  | publish (name : String) (params : P) (sessionId : Option String)
  | subscribe (sinceSeq : Option Nat) (filter : Filter)
  | receive (id : Nat)
  | drop (id : Nat)

/-- The steps of an operation nobody interrupts. -/
def Observed.stepsOf (o : Observed P) : BusOp P → List (BusStep P)
  | .publish name params sessionId =>
    .publish name params sessionId :: List.replicate o.bus.inner.subscribers.length (.push 0)
  | .subscribe sinceSeq filter => [.subscribe sinceSeq filter]
  | .receive id => [.receive id]
  | .drop id => [.close id, .unsubscribe id]

def Observed.perform (bus : EventBus) (json : JsonCodec P) (o : Observed P) (op : BusOp P) :
    Option (Observed P) :=
  partialRun (Observed.step bus json) o (o.stepsOf op)

theorem BusInv.perform {bus : EventBus} {json : JsonCodec P} {o o' : Observed P}
    (h : BusInv bus json o) {op : BusOp P} (hop : o.perform bus json op = some o') :
    BusInv bus json o' := by
  refine partialRun_induction (P := fun _ o => BusInv bus json o) h ?_ hop
  intro _ r i r' hr hstep
  exact hr.step hstep

/-! ### Publishing -/

/-- `o'` is `o` with the outstanding pushes of `event` to `ids` made. -/
structure PushedTo (event : Event P) (ids : List Nat) (o o' : Observed P) : Prop where
  inner : o'.bus.inner = o.bus.inner
  inFlight : o'.bus.inFlight = []
  published : o'.published = o.published
  joined : o'.joined = o.joined
  replayed : o'.replayed = o.replayed
  received : o'.received = o.received
  queues : ∀ id, o'.bus.queues id =
    if id ∈ ids then (o.bus.queues id).push event else o.bus.queues id
  taken : ∀ id, o'.taken id =
    if id ∈ ids ∧ (o.bus.queues id).takes event = true then o.taken id ++ [event] else o.taken id

theorem pushes_eq (bus : EventBus) (json : JsonCodec P) (event : Event P) (ids : List Nat)
    (hnodup : ids.Nodup) (o : Observed P)
    (hinFlight : o.bus.inFlight = ids.map fun id => (event, id)) :
    ∃ o', partialRun (Observed.step bus json) o (List.replicate ids.length (.push 0)) = some o' ∧
      PushedTo event ids o o' := by
  induction ids generalizing o with
  | nil => exact ⟨o, rfl, rfl, hinFlight, rfl, rfl, rfl, rfl, by simp, by simp⟩
  | cons first rest ih =>
    obtain ⟨hfirst, hrest⟩ := nodup_cons.mp hnodup
    obtain ⟨o₁, hpush, ho₁⟩ : ∃ o₁, o.push 0 = some o₁ ∧ o₁ = { o with
        bus := { o.bus with
          queues := Function.update o.bus.queues first ((o.bus.queues first).push event)
          inFlight := rest.map fun id => (event, id) }
        taken := if (o.bus.queues first).takes event then
            Function.update o.taken first (o.taken first ++ [event])
          else o.taken } :=
      ⟨_, by simp [Observed.push, BusState.push, hinFlight], rfl⟩
    obtain ⟨o', hrun, hpushed⟩ := ih hrest o₁ (by rw [ho₁])
    refine ⟨o', ?_, ?_⟩
    · rw [length_cons, replicate_succ, partialRun_cons]
      show (o.push 0).bind _ = _
      rw [hpush]
      exact hrun
    rw [ho₁] at hpushed
    refine ⟨hpushed.inner, hpushed.inFlight, hpushed.published, hpushed.joined,
      hpushed.replayed, hpushed.received, ?_, ?_⟩
    · intro id
      rw [hpushed.queues]
      by_cases hid : id = first
      · subst hid
        simp [hfirst]
      · simp [hid]
    intro id
    rw [hpushed.taken]
    by_cases hid : id = first
    · subst hid
      by_cases htakes : (o.bus.queues id).takes event = true
      · simp [hfirst, htakes]
      · simp [hfirst, htakes]
    by_cases htakes : (o.bus.queues first).takes event = true
    · simp [hid, htakes]
    · simp [hid, htakes]

section Operations

variable {bus : EventBus} {json : JsonCodec P} {o o' : Observed P}

/-- What an uninterrupted `publish` does: it never fails, and every subscriber gets its push. -/
theorem perform_publish (h : BusInv bus json o) (hidle : o.bus.inFlight = []) (name : String)
    (params : P) (sessionId : Option String) :
    ∃ o₁ o₂, o.publish bus json name params sessionId = some o₁ ∧
      o.perform bus json (.publish name params sessionId) = some o₂ ∧
      PushedTo (o.next name params sessionId) o.bus.inner.subscribers o₁ o₂ := by
  obtain ⟨inner, hpublish, -, -, -⟩ := publish_eq h name params sessionId
  rw [hidle, nil_append] at hpublish
  obtain ⟨o₁, hpublish, ho₁⟩ : ∃ o₁, o.publish bus json name params sessionId = some o₁ ∧
      o₁.bus.inFlight = o.bus.inner.subscribers.map fun id => (o.next name params sessionId, id) :=
    ⟨_, hpublish, rfl⟩
  obtain ⟨o₂, hrun, hpushed⟩ := pushes_eq bus json _ _ h.nodup o₁ ho₁
  refine ⟨o₁, o₂, hpublish, ?_, hpushed⟩
  show partialRun (Observed.step bus json) o (_ :: _) = some o₂
  rw [partialRun_cons]
  show (o.publish bus json name params sessionId).bind _ = _
  rw [hpublish]
  exact hrun

theorem perform_drop (id : Nat) : o.perform bus json (.drop id)
    = some { o with bus := (o.bus.close id).unsubscribe id } := by
  simp [Observed.perform, Observed.stepsOf, partialRun, Observed.step, Observed.close,
    Observed.unsubscribe, BusState.close]

variable {op : BusOp P}

theorem perform_idle (h : BusInv bus json o) (hidle : o.bus.inFlight = [])
    (hop : o.perform bus json op = some o') : o'.bus.inFlight = [] := by
  cases op with
  | publish name params sessionId =>
    obtain ⟨_, o₂, -, hperform, hpushed⟩ := perform_publish h hidle name params sessionId
    rw [hperform] at hop
    rw [← Option.some.inj hop]
    exact hpushed.inFlight
  | subscribe sinceSeq filter | receive id =>
    obtain ⟨⟩ := hop
    exact hidle
  | drop id =>
    rw [perform_drop] at hop
    obtain ⟨⟩ := hop
    exact hidle

theorem receive_stream (o : Observed P) (id : Nat) :
    (o.receive id).stream id = (o.taken id, o.received id ++ (o.bus.queues id).tryRecv.1.toList,
      (o.bus.queues id).tryRecv.2, o.owed id) := by
  have hfixed := (o.bus.queues id).tryRecv_fixed
  simp only [QueueState.fixed, Prod.mk.injEq] at hfixed
  have hqueue : (o.receive id).bus.queues id = (o.bus.queues id).tryRecv.2 :=
    update_self ..
  have hreceived : (o.receive id).received id
      = o.received id ++ (o.bus.queues id).tryRecv.1.toList := update_self ..
  have howed : (o.receive id).owed id = o.owed id :=
    owed_congr o rfl rfl rfl (by rw [hqueue]; exact hfixed.1)
  unfold Observed.stream
  rw [hqueue, hreceived, howed]
  rfl

theorem receive_stream_of_ne (o : Observed P) {id other : Nat} (h : id ≠ other) :
    (o.receive other).stream id = o.stream id := by
  have hqueue : (o.receive other).bus.queues id = o.bus.queues id := update_of_ne h ..
  have hreceived : (o.receive other).received id = o.received id := update_of_ne h ..
  have howed : (o.receive other).owed id = o.owed id := owed_congr o rfl rfl rfl (congrArg _ hqueue)
  unfold Observed.stream
  rw [hqueue, hreceived, howed]
  rfl

theorem drop_stream_of_ne (o : Observed P) {id other : Nat} (h : id ≠ other) :
    Observed.stream { o with bus := (o.bus.close other).unsubscribe other } id = o.stream id := by
  have hqueue : (o.bus.close other).queues id = o.bus.queues id := update_of_ne h ..
  have howed : Observed.owed { o with bus := (o.bus.close other).unsubscribe other } id
      = o.owed id := owed_congr o rfl rfl rfl (congrArg _ hqueue)
  unfold Observed.stream
  rw [howed]
  exact congrArg (fun queue => (o.taken id, o.received id, queue, o.owed id)) hqueue

theorem perform_stream (h : BusInv bus json o) (hidle : o.bus.inFlight = []) {id : Nat}
    (hid : id < o.bus.inner.nextSubscriber) (hopen : (o.bus.queues id).closed = false)
    (hdrop : op ≠ .drop id) (hop : o.perform bus json op = some o') :
    id < o'.bus.inner.nextSubscriber ∧
    ((∃ name params sessionId, op = .publish name params sessionId ∧ o'.stream id =
          (if (o.bus.queues id).takes (o.next name params sessionId) then
              o.taken id ++ [o.next name params sessionId] else o.taken id,
          o.received id, (o.bus.queues id).push (o.next name params sessionId),
          o.owed id ++ if (o.bus.queues id).filter.admits (o.next name params sessionId) then
              [o.next name params sessionId] else [])) ∨
      o'.stream id = (o.taken id, o.received id ++ (o.bus.queues id).tryRecv.1.toList,
        (o.bus.queues id).tryRecv.2, o.owed id) ∨ o'.stream id = o.stream id) := by
  cases op with
  | publish name params sessionId =>
    obtain ⟨o₁, o₂, hpublish, hperform, hpushed⟩ := perform_publish h hidle name params sessionId
    rw [hperform] at hop
    obtain rfl := Option.some.inj hop
    obtain ⟨inner, hpublish', hlisted, -, -⟩ := publish_eq h name params sessionId
    obtain rfl := Option.some.inj (hpublish.symm.trans hpublish')
    simp only [BusInner.listed, Prod.mk.injEq] at hlisted
    have hmem := h.listed id hid hopen
    refine ⟨?_, Or.inl ⟨name, params, sessionId, rfl, ?_⟩⟩
    · rw [hpushed.inner]
      show id < inner.nextSubscriber
      rw [hlisted.2.2]
      exact hid
    have hfilter : (o₂.bus.queues id).filter = (o.bus.queues id).filter := by
      have hfixed := (o.bus.queues id).push_fixed (o.next name params sessionId)
      simp only [QueueState.fixed, Prod.mk.injEq] at hfixed
      rw [hpushed.queues, if_pos hmem]
      exact hfixed.1
    unfold Observed.stream
    rw [owed_congr _ hpushed.published (congrFun hpushed.joined id) (congrFun hpushed.replayed id)
      (by rw [hfilter]), hpushed.taken, hpushed.received, hpushed.queues, if_pos hmem]
    simp only [hmem, true_and]
    exact congrArg _ (congrArg _ (congrArg _ (owed_publish h hid name params sessionId)))
  | subscribe sinceSeq filter =>
    obtain ⟨⟩ := hop
    exact ⟨Nat.lt_succ_of_lt hid, Or.inr (Or.inr (subscribe_stream bus json _ _ hid))⟩
  | receive other =>
    obtain ⟨⟩ := hop
    refine ⟨hid, Or.inr ?_⟩
    by_cases hother : id = other
    · left
      subst hother
      exact receive_stream o id
    · right
      exact receive_stream_of_ne o hother
  | drop other =>
    have hother : id ≠ other := by
      rintro rfl
      exact hdrop rfl
    rw [perform_drop] at hop
    obtain ⟨⟩ := hop
    exact ⟨hid, Or.inr (Or.inr (drop_stream_of_ne o hother))⟩

/-- A subscription nobody dropped: its queue has taken what it is owed. -/
structure Streams (bus : EventBus) (json : JsonCodec P) (filter : Filter) (o : Observed P)
    (id : Nat) : Prop where
  inv : BusInv bus json o
  idle : o.bus.inFlight = []
  known : id < o.bus.inner.nextSubscriber
  fixed : (o.bus.queues id).fixed = (filter, bus.subscriberCapacity, false)
  caughtUp : o.taken id = o.owed id

variable {filter : Filter} {id : Nat}

theorem Streams.open (h : Streams bus json filter o id) : (o.bus.queues id).closed = false :=
  congrArg (fun fixed => fixed.2.2) h.fixed

theorem Streams.takes (h : Streams bus json filter o id) (event : Event P) :
    (o.bus.queues id).takes event = filter.admits event := by
  have hfilter : (o.bus.queues id).filter = filter := congrArg Prod.fst h.fixed
  unfold QueueState.takes
  rw [h.open, hfilter]
  rfl

theorem Streams.subscribe (h : BusInv bus json o) (hidle : o.bus.inFlight = [])
    (sinceSeq : Option Nat) (filter : Filter) :
    Streams bus json filter (o.subscribe bus json sinceSeq filter) o.bus.inner.nextSubscriber := by
  have hnew := subscribe_stream_new h sinceSeq filter
  simp only [Observed.stream, Prod.mk.injEq] at hnew
  obtain ⟨htaken, -, hqueue, howed⟩ := hnew
  refine ⟨h.subscribe sinceSeq filter, hidle, Nat.lt_succ_self _, ?_, ?_⟩
  · rw [hqueue, pushAll_fixed]
    rfl
  · rw [htaken, howed]

theorem Streams.perform (h : Streams bus json filter o id)
    (hdrop : op ≠ .drop id) (hop : o.perform bus json op = some o') :
    Streams bus json filter o' id := by
  obtain ⟨hknown, heffect⟩ := perform_stream h.inv h.idle h.known h.open hdrop hop
  have hinv := h.inv.perform hop
  have hidle := perform_idle h.inv h.idle hop
  simp only [Observed.stream, Prod.mk.injEq] at heffect
  rcases heffect with ⟨name, params, sessionId, -, htaken, -, hqueue, howed⟩ |
    ⟨htaken, -, hqueue, howed⟩ | ⟨htaken, -, hqueue, howed⟩
  · refine ⟨hinv, hidle, hknown, ?_, ?_⟩
    · rw [hqueue, QueueState.push_fixed]
      exact h.fixed
    · rw [htaken, howed, h.takes, h.caughtUp]
      have hfilter : (o.bus.queues id).filter = filter := congrArg Prod.fst h.fixed
      rw [hfilter]
      split
      · rfl
      · rw [append_nil]
  · refine ⟨hinv, hidle, hknown, ?_, ?_⟩
    · rw [hqueue, QueueState.tryRecv_fixed]
      exact h.fixed
    · rw [htaken, howed, h.caughtUp]
  refine ⟨hinv, hidle, hknown, ?_, ?_⟩
  · rw [hqueue]
    exact h.fixed
  · rw [htaken, howed, h.caughtUp]

/-! ### Holes -/

/-- The operations that keep the accounting of subscription `id`: see `Accountable`. -/
def AccountableAt (id : Nat) (o : Observed P) : BusOp P → Prop
  | .publish name params sessionId =>
    Accountable (o.bus.queues id) (.push name o.bus.inner.nextSeq sessionId params)
  | .drop other => other ≠ id
  | _ => True

instance AccountableAt.decidable (id : Nat) (o : Observed P) :
    (op : BusOp P) → Decidable (AccountableAt id o op)
  | .publish name params sessionId => inferInstanceAs (Decidable (Accountable
      (o.bus.queues id) (.push name o.bus.inner.nextSeq sessionId params)))
  | .drop _ => inferInstanceAs (Decidable (_ ≠ _))
  | .subscribe _ _ | .receive _ => .isTrue trivial

/-- What a subscription took is received, queued, or in a hole. -/
structure StreamAccounted (o : Observed P) (id : Nat) : Prop where
  accounted : Accounted (o.taken id) (o.received id) (o.bus.queues id)
  bounded : (o.bus.queues id).queue.length ≤ (o.bus.queues id).capacity

theorem QueueState.length_tryRecv_le (q : QueueState P) :
    q.tryRecv.2.queue.length ≤ q.queue.length := by
  unfold QueueState.tryRecv
  split
  · rename_i event rest hq
    rw [hq]
    exact Nat.le_succ _
  · exact Nat.le_refl _

theorem StreamAccounted.perform (h : StreamAccounted o id) (hs : Streams bus json filter o id)
    (hok : AccountableAt id o op) (hop : o.perform bus json op = some o') :
    StreamAccounted o' id := by
  have hdrop : op ≠ .drop id := by
    rintro rfl
    exact hok rfl
  obtain ⟨-, heffect⟩ := perform_stream hs.inv hs.idle hs.known hs.open hdrop hop
  have hcapacity : (o.bus.queues id).capacity = bus.subscriberCapacity :=
    congrArg (fun fixed => fixed.2.1) hs.fixed
  have hroom := bus.room
  simp only [Observed.stream, Prod.mk.injEq] at heffect
  rcases heffect with ⟨name, params, sessionId, rfl, htaken, hreceived, hqueue, -⟩ |
    ⟨htaken, hreceived, hqueue, -⟩ | ⟨htaken, hreceived, hqueue, -⟩
  · have hfixed := (o.bus.queues id).push_fixed (o.next name params sessionId)
    simp only [QueueState.fixed, Prod.mk.injEq] at hfixed
    by_cases htakes : (o.bus.queues id).takes (o.next name params sessionId) = true
    · rw [if_pos htakes] at htaken
      have hnew : ∀ earlier ∈ o.taken id, earlier.seq < o.bus.inner.nextSeq := by
        intro earlier hmem
        rw [hs.caughtUp] at hmem
        obtain ⟨origin, horigin, hsame⟩ := hs.inv.owed_source hs.known hmem
        rw [hsame.2.1]
        exact (hs.inv.seq_lt horigin).2
      obtain ⟨haccounted, hlength⟩ := h.accounted.push (hcapacity ▸ hroom) h.bounded hok htakes hnew
      refine ⟨?_, ?_⟩
      · rw [htaken, hreceived, hqueue]
        exact haccounted
      · rw [hqueue, hfixed.2.1]
        exact hlength
    have hsame : (o.bus.queues id).push (o.next name params sessionId) = o.bus.queues id :=
      if_neg htakes
    rw [if_neg htakes] at htaken
    rw [hsame] at hqueue
    refine ⟨?_, ?_⟩
    · rw [htaken, hreceived, hqueue]
      exact h.accounted
    · rw [hqueue]
      exact h.bounded
  · have hfixed := (o.bus.queues id).tryRecv_fixed
    simp only [QueueState.fixed, Prod.mk.injEq] at hfixed
    refine ⟨?_, ?_⟩
    · rw [htaken, hreceived, hqueue]
      exact h.accounted.receive
    · rw [hqueue, hfixed.2.1]
      exact Nat.le_trans (QueueState.length_tryRecv_le _) h.bounded
  refine ⟨?_, ?_⟩
  · rw [htaken, hreceived, hqueue]
    exact h.accounted
  · rw [hqueue]
    exact h.bounded

end Operations

/-! ### The replay itself -/

/-- A queue that a replay is being pushed to: it holds no marker, and has a hole only if full. -/
structure Replaying (q : QueueState P) : Prop where
  room : 1 ≤ q.capacity
  bounded : q.queue.length ≤ q.capacity
  allReal : ∀ event ∈ q.queue, event.isReal = true
  full : 0 < q.dropped → q.queue.length = q.capacity

variable {q : QueueState P}

theorem Replaying.accountable (h : Replaying q) (name : String) (seq : Nat)
    (sessionId : Option String) (value : P) : Accountable q (.push name seq sessionId value) := by
  intro _
  refine ⟨?_, ?_⟩
  · intro _ evicted hevicted
    exact h.allReal evicted (mem_of_mem_head? hevicted)
  · intro hlt hpos
    have hfull := h.full hpos
    omega

theorem Replaying.push (h : Replaying q) {event : Event P}
    (hreal : event.isReal = true) : Replaying (q.push event) := by
  have hfixed := q.push_fixed event
  obtain ⟨room, bounded, allReal, full⟩ := h
  unfold QueueState.push at hfixed ⊢
  split at hfixed
  · rename_i htakes
    rw [if_pos htakes]
    unfold QueueState.makeRoom
    split
    · rename_i hfull
      cases hq : q.queue with
      | nil =>
        rw [hq, length_nil] at hfull
        omega
      | cons evicted rest =>
        rw [hq, length_cons] at bounded hfull
        have hevict : q.evict = { q with
            queue := rest
            firstDroppedSeq := if q.dropped = 0 then evicted.seq else q.firstDroppedSeq
            lastDroppedSeq := evicted.seq
            dropped := q.dropped + 1 } := by
          unfold QueueState.evict
          rw [hq]
        rw [hevict]
        refine ⟨room, ?_, ?_, ?_⟩
        · simp only [length_append, length_singleton]
          omega
        · intro e he
          rcases mem_append.mp he with he | he
          · exact allReal e (hq ▸ mem_cons_of_mem _ he)
          · rw [mem_singleton.mp he]
            exact hreal
        · intro _
          simp only [length_append, length_singleton]
          omega
    have hnone : ¬0 < q.dropped := by
      intro hpos
      omega
    rw [if_neg hnone]
    refine ⟨room, ?_, ?_, fun hpos => absurd hpos hnone⟩
    · simp only [length_append, length_singleton]
      omega
    · intro e he
      rcases mem_append.mp he with he | he
      · exact allReal e he
      · rw [mem_singleton.mp he]
        exact hreal
  rename_i hnot
  rw [if_neg hnot]
  exact ⟨room, bounded, allReal, full⟩

theorem Accounted.replay (json : JsonCodec P) {entries : List Archived} {adm : List (Event P)}
    (h : Accounted adm [] q) (hq : Replaying q)
    (hordered : entries.Pairwise fun a b => a.seq < b.seq)
    (hnew : ∀ earlier ∈ adm, ∀ entry ∈ entries, earlier.seq < entry.seq) :
    Accounted (adm ++ (entries.map (Archived.event json)).filter q.takes) []
        ((entries.map (Archived.event json)).foldl (fun queue event => queue.push event) q) ∧
      Replaying
        ((entries.map (Archived.event json)).foldl (fun queue event => queue.push event) q) := by
  induction entries generalizing adm q with
  | nil => exact ⟨by simpa using h, hq⟩
  | cons entry entries ih =>
    obtain ⟨hfirst, hrest⟩ := pairwise_cons.mp hordered
    have htakes : (q.push (entry.event json)).takes = q.takes := by
      funext e
      exact takes_of_fixed (q.push_fixed _) e
    rw [map_cons, foldl_cons]
    by_cases htake : q.takes (entry.event json) = true
    · have hpush : Accounted (adm ++ [entry.event json]) [] (q.push (entry.event json)) :=
        (h.push hq.room hq.bounded (hq.accountable _ _ _ _) htake
          fun earlier he => hnew earlier he entry mem_cons_self).1
      have hstep := ih hpush (hq.push rfl) hrest (by
        intro earlier he later hlater
        rcases mem_append.mp he with he | he
        · exact hnew earlier he later (mem_cons_of_mem _ hlater)
        · rw [mem_singleton.mp he]
          exact hfirst later hlater)
      rw [htakes] at hstep
      rw [filter_cons_of_pos htake]
      simpa using hstep
    have hsame : q.push (entry.event json) = q := if_neg htake
    rw [hsame, filter_cons_of_neg htake]
    exact ih h hq hrest fun earlier he later hlater =>
      hnew earlier he later (mem_cons_of_mem _ hlater)

theorem pushAll_fits (events : List (Event P)) (hdropped : q.dropped = 0)
    (hfits : q.queue.length + (events.filter q.takes).length ≤ q.capacity) :
    (events.foldl (fun queue event => queue.push event) q).dropped = 0 ∧
      (events.foldl (fun queue event => queue.push event) q).queue
        = q.queue ++ events.filter q.takes := by
  induction events generalizing q with
  | nil => simp [hdropped]
  | cons event events ih =>
    have htakes : (q.push event).takes = q.takes := by
      funext e
      exact takes_of_fixed (q.push_fixed _) e
    rw [foldl_cons]
    by_cases htake : q.takes event = true
    · rw [filter_cons_of_pos htake, length_cons] at hfits
      rw [filter_cons_of_pos htake]
      have hroom : q.makeRoom = q := by
        unfold QueueState.makeRoom
        rw [if_neg (by omega), if_neg (by omega)]
      have hpush : q.push event = { q with queue := q.queue ++ [event] } := by
        unfold QueueState.push
        rw [if_pos htake, hroom]
      have hdropped' : (q.push event).dropped = 0 := by
        rw [hpush]
        exact hdropped
      have hqueue : (q.push event).queue = q.queue ++ [event] := by rw [hpush]
      have hcapacity : (q.push event).capacity = q.capacity := by rw [hpush]
      have hrest := ih hdropped' (by
        rw [htakes, hqueue, hcapacity, length_append, length_singleton]
        omega)
      rw [htakes, hqueue, append_assoc] at hrest
      exact hrest
    have hsame : q.push event = q := if_neg htake
    rw [filter_cons_of_neg htake] at hfits ⊢
    rw [hsame]
    exact ih hdropped hfits

/-! ### From the subscription on -/

section Recovery

variable {bus : EventBus} {json : JsonCodec P} {o o' : Observed P}

theorem StreamAccounted.subscribe (h : BusInv bus json o) (sinceSeq : Option Nat)
    (filter : Filter) :
    StreamAccounted (o.subscribe bus json sinceSeq filter) o.bus.inner.nextSubscriber := by
  obtain ⟨entries, hsub, hreplay, -⟩ := replay_eq json o.bus.inner sinceSeq
  have hnew := subscribe_stream_new h sinceSeq filter
  simp only [Observed.stream, Prod.mk.injEq] at hnew
  obtain ⟨htaken, hreceived, hqueue, -⟩ := hnew
  have hempty : Replaying (QueueState.new (P := P) filter bus.subscriberCapacity) :=
    ⟨bus.room, Nat.zero_le _, fun _ h => absurd h not_mem_nil,
      fun h => absurd h (Nat.lt_irrefl 0)⟩
  have hall := (Accounted.new filter bus.subscriberCapacity).replay json hempty
    (h.ring_ordered.sublist hsub) fun _ h => absurd h not_mem_nil
  refine ⟨?_, ?_⟩
  · rw [htaken, hreceived, hqueue]
    unfold Observed.replayFor
    rw [hreplay]
    exact hall.1
  · rw [hqueue, hreplay]
    exact hall.2.bounded

variable {filter : Filter}

theorem holes_eq_nil {events : List (Event P)} (h : ∀ event ∈ events, event.isReal = true) :
    holes events = [] := by
  induction events with
  | nil => rfl
  | cons event events ih =>
    rw [holes_cons_of_isReal (h event mem_cons_self)]
    exact ih fun e he => h e (mem_cons_of_mem _ he)

theorem BusInv.fits (h : BusInv bus json o) {since : Nat}
    (hfits : (o.replayFor json (some since) filter).length ≤ bus.subscriberCapacity) :
    (o.subscribe bus json (some since) filter).Unbroken o.bus.inner.nextSubscriber := by
  have hnew := subscribe_stream_new h (some since) filter
  simp only [Observed.stream, Prod.mk.injEq] at hnew
  obtain ⟨-, hreceived, hqueue, -⟩ := hnew
  have htakes : (QueueState.new (P := P) filter bus.subscriberCapacity).takes
      = fun event => filter.admits event := rfl
  have hfits' : (QueueState.new (P := P) filter bus.subscriberCapacity).queue.length +
      ((o.bus.inner.replay json (some since)).filter
        (QueueState.new (P := P) filter bus.subscriberCapacity).takes).length
      ≤ bus.subscriberCapacity := by
    rw [htakes]
    show 0 + (o.replayFor json (some since) filter).length ≤ _
    omega
  obtain ⟨hdropped, hwhole⟩ := pushAll_fits (o.bus.inner.replay json (some since))
    (q := .new filter bus.subscriberCapacity) rfl hfits'
  refine ⟨?_, ?_⟩
  · rw [hqueue]
    exact hdropped
  unfold Observed.delivered
  rw [hreceived, hqueue, hwhole]
  refine holes_eq_nil ?_
  intro event hmem
  obtain ⟨archived, -, rfl⟩ := mem_map.mp (mem_of_mem_filter hmem)
  rfl

theorem Streams.told {id : Nat} (h : Streams bus json filter o id)
    (hpending : 0 < (o.bus.queues id).dropped)
    (hroom : (o.bus.queues id).queue.length < (o.bus.queues id).capacity) (name : String)
    (params : P) (sessionId : Option String)
    (hadmits : filter.admits (o.next name params sessionId) = true) :
    ∃ after, o.perform bus json (.publish name params sessionId) = some after ∧
      (after.bus.queues id).queue = (o.bus.queues id).queue ++
        [(o.bus.queues id).marker, o.next name params sessionId] := by
  obtain ⟨o₁, o₂, hpublish, hperform, hpushed⟩ := perform_publish h.inv h.idle name params sessionId
  obtain ⟨inner, hpublish', -⟩ := publish_eq h.inv name params sessionId
  obtain rfl := Option.some.inj (hpublish.symm.trans hpublish')
  refine ⟨o₂, hperform, ?_⟩
  have hmarked : (o.bus.queues id).makeRoom = (o.bus.queues id).mark := by
    unfold QueueState.makeRoom
    rw [if_neg (by omega), if_pos hpending]
  rw [hpushed.queues, if_pos (h.inv.listed id h.known h.open)]
  show ((o.bus.queues id).push (o.next name params sessionId)).queue = _
  unfold QueueState.push
  rw [if_pos (by rw [h.takes]; exact hadmits), hmarked]
  unfold QueueState.mark
  simp

end Recovery

end Diri
