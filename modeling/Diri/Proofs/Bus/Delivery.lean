/-
Delivery order under concurrent publishers.

The seq is taken under the bus lock and the push is made after it, so two publishers can
push to one queue in the wrong order (`overtaking` is such a run).  What the code does
keep is stated under `InOrder`: a push that a queue takes is the oldest of those still
outstanding for it.  Then the events a queue has taken are a first part of what the
subscription is owed, and what is outstanding is the rest (`Flows`).  Everything else
about order and loss is read off from that.
-/
import Diri.Proofs.Bus.Observed

namespace Diri

open Function List

variable {P : Type}

/-! ### The condition and the invariant -/

/-- No push overtakes an older one that the same queue would take. -/
def InOrder (o : Observed P) : BusStep P → Prop
  | .push k => ∀ pushed ∈ o.bus.inFlight[k]?, (o.bus.queues pushed.2).takes pushed.1 = true →
      ∀ other ∈ o.bus.inFlight, other.2 = pushed.2 →
        (o.bus.queues other.2).takes other.1 = true → pushed.1.seq ≤ other.1.seq
  | _ => True

instance InOrder.decidable (o : Observed P) : (i : BusStep P) → Decidable (InOrder o i)
  | .push k => inferInstanceAs (Decidable (∀ pushed ∈ o.bus.inFlight[k]?, _ → _))
  | .publish _ _ _ | .subscribe _ _ | .receive _ | .close _ | .unsubscribe _ => .isTrue trivial

/-- An outstanding push to queue `id` of an event its filter admits. -/
def Observed.awaited (o : Observed P) (id : Nat) (outstanding : Event P × Nat) : Bool :=
  decide (outstanding.2 = id) && (o.bus.queues id).filter.admits outstanding.1

/-- The admitted events still outstanding for queue `id`. -/
def Observed.waiting (o : Observed P) (id : Nat) : List (Event P) :=
  (o.bus.inFlight.filter (o.awaited id)).map Prod.fst

/-- What a queue has taken is a first part of what it is owed, and the rest is on its way. -/
structure Flows (o : Observed P) : Prop where
  taken : ∀ id < o.bus.inner.nextSubscriber, o.taken id <+: o.owed id
  rest : ∀ id < o.bus.inner.nextSubscriber, (o.bus.queues id).closed = false →
    o.owed id = o.taken id ++ o.waiting id

theorem Flows.start : Flows ({} : Observed P) where
  taken := fun _ h => absurd h (Nat.not_lt_zero _)
  rest := fun _ h => absurd h (Nat.not_lt_zero _)

section Steps

variable {bus : EventBus} {json : JsonCodec P} {o o' : Observed P}

theorem BusInv.owed_ordered (h : BusInv bus json o) {id : Nat}
    (hid : id < o.bus.inner.nextSubscriber) : (o.owed id).Pairwise fun a b => a.seq < b.seq := by
  refine pairwise_append.mpr ⟨(h.replayed id hid).ordered, h.published_ordered.filter _, ?_⟩
  intro earlier hearlier later hlater
  have hbefore := (h.replayed id hid).earlier earlier hearlier
  have hafter := (mem_filter.mp hlater).2
  simp only [Bool.and_eq_true, decide_eq_true_eq] at hafter
  omega

theorem awaited_new (event : Event P) (filter : Filter) {subscribers : List Nat}
    (hnodup : subscribers.Nodup) {id : Nat} (hmem : id ∈ subscribers) :
    ((subscribers.map fun other => (event, other)).filter
        fun outstanding => decide (outstanding.2 = id) && filter.admits outstanding.1).map Prod.fst
      = if filter.admits event then [event] else [] := by
  have hone : subscribers.filter (fun other => decide (other = id)) = [id] := by
    rw [filter_eq, count_eq_one_of_mem hnodup hmem]
    rfl
  rw [filter_map, map_map]
  simp only [comp_def]
  by_cases hadmits : filter.admits event = true
  · simp [hadmits, hone]
  · simp [hadmits]

theorem owed_congr (o : Observed P) {id : Nat} (hpublished : o'.published = o.published)
    (hjoined : o'.joined id = o.joined id) (hreplayed : o'.replayed id = o.replayed id)
    (hfilter : (o'.bus.queues id).filter = (o.bus.queues id).filter) : o'.owed id = o.owed id := by
  unfold Observed.owed
  rw [hpublished, hjoined, hreplayed, hfilter]

theorem awaited_congr {id : Nat} (hfilter : (o'.bus.queues id).filter = (o.bus.queues id).filter) :
    o'.awaited id = o.awaited id := by
  unfold Observed.awaited
  rw [hfilter]

theorem owed_publish (h : BusInv bus json o) {id : Nat} (hid : id < o.bus.inner.nextSubscriber)
    (name : String) (params : P) (sessionId : Option String) :
    o.replayed id ++ (o.published ++ [o.next name params sessionId]).filter (fun event =>
        decide (o.joined id ≤ event.seq) && (o.bus.queues id).filter.admits event)
      = o.owed id ++ if (o.bus.queues id).filter.admits (o.next name params sessionId)
          then [o.next name params sessionId] else [] := by
  have hjoined : o.joined id ≤ (o.next name params sessionId).seq := h.joined id hid
  rw [filter_append, ← append_assoc]
  unfold Observed.owed
  simp [filter_singleton, hjoined, Bool.cond_eq_ite]

/-- What concerns one subscription: what it took and received, its queue, what it is owed. -/
def Observed.stream (o : Observed P) (id : Nat) :
    List (Event P) × List (Event P) × QueueState P × List (Event P) :=
  (o.taken id, o.received id, o.bus.queues id, o.owed id)

theorem subscribe_stream (bus : EventBus) (json : JsonCodec P) (sinceSeq : Option Nat)
    (filter : Filter) {id : Nat} (hid : id < o.bus.inner.nextSubscriber) :
    (o.subscribe bus json sinceSeq filter).stream id = o.stream id := by
  have hother : ∀ {β : Type} (f : Nat → β) (x : β),
      Function.update f o.bus.inner.nextSubscriber x id = f id := by
    intro β f x
    exact update_of_ne (by omega) _ _
  have howed : (o.subscribe bus json sinceSeq filter).owed id = o.owed id :=
    owed_congr o rfl (hother _ _) (hother _ _) (congrArg _ (hother _ _))
  unfold Observed.stream
  rw [howed]
  simp only [Observed.subscribe, BusState.subscribe, hother]

theorem subscribe_stream_new (h : BusInv bus json o) (sinceSeq : Option Nat) (filter : Filter) :
    (o.subscribe bus json sinceSeq filter).stream o.bus.inner.nextSubscriber
      = (o.replayFor json sinceSeq filter, [],
        (o.bus.inner.replay json sinceSeq).foldl (fun queue event => queue.push event)
          (.new filter bus.subscriberCapacity), o.replayFor json sinceSeq filter) := by
  have hnone : o.published.filter (fun event => decide (o.bus.inner.nextSeq ≤ event.seq) &&
      ((o.subscribe bus json sinceSeq filter).bus.queues
        o.bus.inner.nextSubscriber).filter.admits event) = [] := by
    refine filter_eq_nil_iff.mpr ?_
    intro event hmem
    have hlt := (h.seq_lt hmem).2
    simp only [Bool.and_eq_true, decide_eq_true_eq, not_and]
    omega
  unfold Observed.stream Observed.owed
  simp only [Observed.subscribe, BusState.subscribe, update_self] at hnone ⊢
  rw [hnone, append_nil]

theorem Flows.publish (hflows : Flows o) (h : BusInv bus json o) {name : String} {params : P}
    {sessionId : Option String} (hstep : o.publish bus json name params sessionId = some o') :
    Flows o' := by
  obtain ⟨inner, hpublish, hlisted, -, -⟩ := publish_eq h name params sessionId
  rw [hpublish] at hstep
  obtain ⟨⟩ := hstep
  simp only [BusInner.listed, Prod.mk.injEq] at hlisted
  obtain ⟨-, -, hsubscriber⟩ := hlisted
  refine ⟨?_, ?_⟩
  · intro id hid
    have hgrown := (hflows.taken id (hsubscriber ▸ hid)).trans (prefix_append (o.owed id)
      (if (o.bus.queues id).filter.admits (o.next name params sessionId)
        then [o.next name params sessionId] else []))
    rw [← owed_publish h (hsubscriber ▸ hid)] at hgrown
    exact hgrown
  intro id hid hopen
  have hlisted := h.listed id (hsubscriber ▸ hid) hopen
  refine (owed_publish h (hsubscriber ▸ hid) _ _ _).trans ?_
  rw [hflows.rest id (hsubscriber ▸ hid) hopen, append_assoc]
  congr 1
  refine Eq.trans ?_ (congrArg _ (filter_append ..)).symm
  rw [map_append]
  exact congrArg _ (awaited_new _ _ h.nodup hlisted).symm

theorem filter_eraseIdx_oldest {p : Event P × Nat → Bool} :
    ∀ {inFlight : List (Event P × Nat)} {k : Nat} {oldest : Event P × Nat},
      inFlight[k]? = some oldest → p oldest = true →
        ((inFlight.filter p).map Prod.fst).Pairwise (fun a b => a.seq < b.seq) →
          (∀ other ∈ inFlight, p other = true → oldest.1.seq ≤ other.1.seq) →
            inFlight.filter p = oldest :: (inFlight.eraseIdx k).filter p
  | [], _, _, hk, _, _, _ => by simp at hk
  | first :: rest, 0, oldest, hk, hp, _, _ => by
      obtain rfl : first = oldest := by simpa using hk
      simp [hp]
  | first :: rest, k + 1, oldest, hk, hp, hordered, hleast => by
      have hrest : rest[k]? = some oldest := by simpa using hk
      have hmem : oldest ∈ rest.filter p := mem_filter.mpr ⟨mem_of_getElem? hrest, hp⟩
      by_cases hfirst : p first = true
      · rw [filter_cons_of_pos hfirst, map_cons, pairwise_cons] at hordered
        have hlt := hordered.1 oldest.1 (mem_map_of_mem hmem)
        have hle := hleast first mem_cons_self hfirst
        omega
      rw [filter_cons_of_neg hfirst] at hordered
      have htail := filter_eraseIdx_oldest hrest hp hordered
        fun other hother => hleast other (mem_cons_of_mem _ hother)
      rw [eraseIdx_cons_succ, filter_cons_of_neg hfirst, filter_cons_of_neg hfirst]
      exact htail

theorem filter_eraseIdx_other {α : Type} {p : α → Bool} :
    ∀ {l : List α} {k : Nat} {x : α}, l[k]? = some x → p x = false →
      (l.eraseIdx k).filter p = l.filter p
  | [], _, _, hk, _ => by simp at hk
  | first :: rest, 0, x, hk, hp => by
      obtain rfl : first = x := by simpa using hk
      simp [hp]
  | first :: rest, k + 1, x, hk, hp => by
      have hrest : rest[k]? = some x := by simpa using hk
      rw [eraseIdx_cons_succ, filter_cons, filter_cons, filter_eraseIdx_other hrest hp]

theorem Flows.push_takes (hflows : Flows o) (h : BusInv bus json o) {k : Nat} {event : Event P}
    {id : Nat} (hk : o.bus.inFlight[k]? = some (event, id)) (hcond : InOrder o (.push k))
    (htakes : (o.bus.queues id).takes event = true) : o.owed id = (o.taken id ++ [event])
      ++ ((o.bus.inFlight.eraseIdx k).filter (o.awaited id)).map Prod.fst := by
  have hid := (h.inFlight _ (mem_of_getElem? hk)).2.1
  have htook := htakes
  simp only [QueueState.takes, Bool.and_eq_true, Bool.not_eq_true'] at htook
  have hrest := hflows.rest id hid htook.1
  have hordered := h.owed_ordered hid
  rw [hrest] at hordered
  have hawaited : o.awaited id (event, id) = true := by simp [Observed.awaited, htook.2]
  have hleast : ∀ other ∈ o.bus.inFlight, o.awaited id other = true →
      event.seq ≤ other.1.seq := by
    intro other hother hwaits
    simp only [Observed.awaited, Bool.and_eq_true, decide_eq_true_eq] at hwaits
    refine hcond (event, id) hk htakes other hother hwaits.1 ?_
    simp [QueueState.takes, hwaits.1, htook.1, hwaits.2]
  have hfirst := filter_eraseIdx_oldest hk hawaited (pairwise_append.mp hordered).2.1 hleast
  rw [hrest]
  unfold Observed.waiting
  rw [hfirst]
  simp

theorem waiting_push_other {k : Nat} {event : Event P} {id other : Nat}
    (hk : o.bus.inFlight[k]? = some (event, id)) (hnot : o.awaited other (event, id) = false) :
    ((o.bus.inFlight.eraseIdx k).filter (o.awaited other)).map Prod.fst = o.waiting other := by
  rw [filter_eraseIdx_other hk hnot]
  rfl

section
variable (hflows : Flows o)
include hflows

theorem Flows.push (h : BusInv bus json o) {k : Nat}
    (hcond : InOrder o (.push k)) (hstep : o.push k = some o') : Flows o' := by
  obtain ⟨event, id, hk, ho⟩ := push_eq hstep
  have hfixed := (o.bus.queues id).push_fixed event
  simp only [QueueState.fixed, Prod.mk.injEq] at hfixed
  have hqueue : ∀ other, (o'.bus.queues other).filter = (o.bus.queues other).filter ∧
      (o'.bus.queues other).closed = (o.bus.queues other).closed := by
    intro other
    rw [ho]
    by_cases hother : other = id
    · simp only [hother, update_self]
      exact ⟨hfixed.1, hfixed.2.2⟩
    · simp [update_of_ne hother]
  have hknown : o'.bus.inner = o.bus.inner := by rw [ho]
  have htaken : o'.taken = Function.update o.taken id (if (o.bus.queues id).takes event then
      o.taken id ++ [event] else o.taken id) := by rw [ho]
  have howed : ∀ other, o'.owed other = o.owed other := by
    intro other
    exact owed_congr o (by rw [ho]) (by rw [ho]) (by rw [ho]) (hqueue other).1
  have hwaiting : ∀ other, o'.waiting other
      = ((o.bus.inFlight.eraseIdx k).filter (o.awaited other)).map Prod.fst := by
    intro other
    unfold Observed.waiting
    rw [awaited_congr (hqueue other).1, ho]
  refine ⟨?_, ?_⟩ <;> intro other hid <;> rw [hknown] at hid <;> rw [howed, htaken]
  · by_cases hother : other = id
    · subst hother
      rw [update_self]
      split
      · rename_i htakes
        rw [hflows.push_takes h hk hcond htakes]
        exact prefix_append _ _
      · exact hflows.taken other hid
    · rw [update_of_ne hother]
      exact hflows.taken other hid
  intro hopen
  rw [(hqueue other).2] at hopen
  rw [hwaiting]
  by_cases hother : other = id
  · subst hother
    rw [update_self]
    split
    · rename_i htakes
      exact hflows.push_takes h hk hcond htakes
    rename_i hnot
    have hadmits : (o.bus.queues other).filter.admits event = false := by
      simpa [QueueState.takes, hopen] using hnot
    rw [waiting_push_other hk (by simp [Observed.awaited, hadmits])]
    exact hflows.rest other hid hopen
  rw [update_of_ne hother, waiting_push_other hk (by simp [Observed.awaited, Ne.symm hother])]
  exact hflows.rest other hid hopen

/-- A step that leaves alone what was taken and what is outstanding, and opens no queue. -/
theorem Flows.congr (hknown : o'.bus.inner.nextSubscriber = o.bus.inner.nextSubscriber)
    (hinFlight : o'.bus.inFlight = o.bus.inFlight) (hpublished : o'.published = o.published)
    (hjoined : o'.joined = o.joined) (hreplayed : o'.replayed = o.replayed)
    (htaken : o'.taken = o.taken)
    (hfilter : ∀ id, (o'.bus.queues id).filter = (o.bus.queues id).filter)
    (hclosed : ∀ id, (o'.bus.queues id).closed = false → (o.bus.queues id).closed = false) :
    Flows o' := by
  have howed : ∀ id, o'.owed id = o.owed id := by
    intro id
    exact owed_congr o hpublished (congrFun hjoined id) (congrFun hreplayed id) (hfilter id)
  refine ⟨?_, ?_⟩
  · intro id hid
    rw [howed, htaken]
    exact hflows.taken id (hknown ▸ hid)
  · intro id hid hopen
    rw [howed, htaken, hflows.rest id (hknown ▸ hid) (hclosed id hopen)]
    unfold Observed.waiting
    rw [awaited_congr (hfilter id), hinFlight]

theorem Flows.receive (id : Nat) : Flows (o.receive id) := by
  have hfixed := (o.bus.queues id).tryRecv_fixed
  simp only [QueueState.fixed, Prod.mk.injEq] at hfixed
  have hqueue : ∀ other, ((o.receive id).bus.queues other).filter = (o.bus.queues other).filter ∧
      ((o.receive id).bus.queues other).closed = (o.bus.queues other).closed := by
    intro other
    show (Function.update o.bus.queues id (o.bus.queues id).tryRecv.2 other).filter = _ ∧
      (Function.update o.bus.queues id (o.bus.queues id).tryRecv.2 other).closed = _
    by_cases hother : other = id
    · rw [hother, update_self]
      exact ⟨hfixed.1, hfixed.2.2⟩
    · rw [update_of_ne hother]
      exact ⟨rfl, rfl⟩
  refine hflows.congr rfl rfl rfl rfl rfl rfl (fun other => (hqueue other).1) ?_
  intro other hopen
  rw [(hqueue other).2] at hopen
  exact hopen

theorem Flows.close (id : Nat) : Flows (o.close id) := by
  have hqueue : ∀ other, (o.close id).bus.queues other = Function.update o.bus.queues id
      { o.bus.queues id with closed := true } other := fun _ => rfl
  refine hflows.congr rfl rfl rfl rfl rfl rfl ?_ ?_
  · intro other
    rw [hqueue]
    by_cases hother : other = id
    · rw [hother, update_self]
    · rw [update_of_ne hother]
  intro other hopen
  rw [hqueue] at hopen
  by_cases hother : other = id
  · rw [hother, update_self] at hopen
    cases hopen
  · rwa [update_of_ne hother] at hopen

theorem Flows.unsubscribe {id : Nat} (hstep : o.unsubscribe id = some o') : Flows o' := by
  unfold Observed.unsubscribe at hstep
  split at hstep <;> obtain ⟨⟩ := hstep
  exact hflows.congr rfl rfl rfl rfl rfl rfl (fun _ => rfl) (fun _ hopen => hopen)

theorem Flows.subscribe (h : BusInv bus json o) (sinceSeq : Option Nat)
    (filter : Filter) : Flows (o.subscribe bus json sinceSeq filter) := by
  have hnew := subscribe_stream_new h sinceSeq filter
  simp only [Observed.stream, Prod.mk.injEq] at hnew
  obtain ⟨htaken, -, -, howed⟩ := hnew
  have hwaiting : (o.subscribe bus json sinceSeq filter).waiting o.bus.inner.nextSubscriber
      = [] := by
    refine map_eq_nil_iff.mpr (filter_eq_nil_iff.mpr ?_)
    intro outstanding hmem
    have hlt := (h.inFlight outstanding hmem).2.1
    simp only [Observed.awaited, Bool.and_eq_true, decide_eq_true_eq, not_and]
    omega
  refine ⟨?_, ?_⟩
  · intro id hid
    rcases Nat.lt_succ_iff_lt_or_eq.mp hid with hid | rfl
    · have hsame := subscribe_stream bus json sinceSeq filter hid
      simp only [Observed.stream, Prod.mk.injEq] at hsame
      rw [hsame.1, hsame.2.2.2]
      exact hflows.taken id hid
    · rw [howed, htaken]
  intro id hid hopen
  rcases Nat.lt_succ_iff_lt_or_eq.mp hid with hid | rfl
  · have hsame := subscribe_stream bus json sinceSeq filter hid
    simp only [Observed.stream, Prod.mk.injEq] at hsame
    rw [hsame.2.2.1] at hopen
    rw [hsame.1, hsame.2.2.2, hflows.rest id hid hopen]
    unfold Observed.waiting
    rw [awaited_congr (congrArg _ hsame.2.2.1)]
    rfl
  · rw [howed, htaken, hwaiting, append_nil]

theorem Flows.step (h : BusInv bus json o) {i : BusStep P}
    (hcond : InOrder o i) (hstep : o.step bus json i = some o') : Flows o' := by
  cases i with
  | publish name params sessionId => exact hflows.publish h hstep
  | push k => exact hflows.push h hcond hstep
  | subscribe sinceSeq filter =>
    obtain ⟨⟩ := hstep
    exact hflows.subscribe h sinceSeq filter
  | receive id =>
    obtain ⟨⟩ := hstep
    exact hflows.receive id
  | close id =>
    obtain ⟨⟩ := hstep
    exact hflows.close id
  | unsubscribe id => exact hflows.unsubscribe hstep

end

end Steps

/-! ### What a subscriber receives -/

section Reads

variable {bus : EventBus} {json : JsonCodec P} {o : Observed P}

theorem BusInv.unique (h : BusInv bus json o) {a b : Event P} (ha : a ∈ o.published)
    (hb : b ∈ o.published) (hseq : a.seq = b.seq) : a = b := by
  have hnodup : (o.published.map Event.seq).Nodup := by
    rw [h.stamped]
    exact nodup_range'
  exact inj_on_of_nodup_map hnodup ha hb hseq

theorem BusInv.owed_source (h : BusInv bus json o) {id : Nat}
    (hid : id < o.bus.inner.nextSubscriber) {event : Event P} (hmem : event ∈ o.owed id) :
    ∃ origin ∈ o.published, event.Same origin := by
  rcases mem_append.mp hmem with hreplayed | hpublished
  · exact (h.replayed id hid).source event hreplayed
  · exact ⟨event, (mem_filter.mp hpublished).1, rfl, rfl, rfl⟩

theorem BusInv.owed_admitted (h : BusInv bus json o) {id : Nat}
    (hid : id < o.bus.inner.nextSubscriber) {event : Event P} (hmem : event ∈ o.owed id) :
    (o.bus.queues id).filter.admits event = true := by
  rcases mem_append.mp hmem with hreplayed | hpublished
  · exact (h.replayed id hid).admitted event hreplayed
  have hadmits := (mem_filter.mp hpublished).2
  simp only [Bool.and_eq_true] at hadmits
  exact hadmits.2

theorem Flows.received (hflows : Flows o) (h : BusInv bus json o) {id : Nat}
    (hid : id < o.bus.inner.nextSubscriber) (hunbroken : o.Unbroken id) :
    o.received id <+: o.owed id := by
  have hwhole := (h.took id).whole hunbroken.1 hunbroken.2
  have htaken := hflows.taken id hid
  rw [← hwhole] at htaken
  exact (prefix_append _ _).trans htaken

theorem mem_of_earlier {received owed : List (Event P)}
    (hordered : owed.Pairwise fun a b => a.seq < b.seq) (hfirst : received <+: owed)
    {latest event : Event P} (hlatest : latest ∈ received) (hevent : event ∈ owed)
    (hlt : event.seq < latest.seq) : event ∈ received := by
  obtain ⟨tail, rfl⟩ := hfirst
  rcases mem_append.mp hevent with hin | hout
  · exact hin
  · have hafter := (pairwise_append.mp hordered).2.2 latest hlatest event hout
    omega

theorem after_last {received tail : List (Event P)}
    (hordered : (received ++ tail).Pairwise fun a b => a.seq < b.seq) {latest : Event P}
    (hlatest : latest ∈ received.getLast?) {event : Event P} (hmem : event ∈ received ++ tail) :
    latest.seq < event.seq ↔ event ∈ tail := by
  obtain ⟨front, rfl⟩ := getLast?_eq_some_iff.mp hlatest
  constructor
  · intro hlt
    rcases mem_append.mp hmem with hin | hout
    · rcases mem_append.mp hin with hin | hin
      · have hbefore := (pairwise_append.mp (pairwise_append.mp hordered).1).2.2
          event hin latest mem_cons_self
        omega
      · rw [mem_singleton.mp hin] at hlt
        omega
    · exact hout
  · intro hout
    exact (pairwise_append.mp hordered).2.2 latest (mem_append_right _ mem_cons_self) event hout

theorem eq_of_increasing {a b : List Nat} (ha : a.Pairwise (· < ·)) (hb : b.Pairwise (· < ·))
    (hmem : ∀ n, n ∈ a ↔ n ∈ b) : a = b := by
  have hperm : a.Perm b := (perm_ext_iff_of_nodup (ha.imp Nat.ne_of_lt)
    (hb.imp Nat.ne_of_lt)).mpr hmem
  refine hperm.eq_of_pairwise ?_ ha hb
  intro m n _ _ hmn hnm
  omega

/-- Ring entries newer than the last event received are owed, and the other way round. -/
theorem Flows.owed_after (hflows : Flows o) (h : BusInv bus json o) {id : Nat}
    (hid : id < o.bus.inner.nextSubscriber) (hunbroken : o.Unbroken id) {latest : Event P}
    (hlatest : latest ∈ (o.received id).getLast?) {archived : Archived}
    (hmem : archived ∈ o.bus.inner.ring) (hlt : latest.seq < archived.seq)
    (hadmits : (o.bus.queues id).filter.admits (archived.event json) = true) :
    ∃ event ∈ o.owed id, event.seq = archived.seq := by
  obtain ⟨origin, horigin, hsame⟩ := h.of_ring hmem
  by_cases hjoined : o.joined id ≤ origin.seq
  · refine ⟨origin, mem_append_right _ (mem_filter.mpr ⟨horigin, ?_⟩), hsame.2.1.symm⟩
    rw [hsame.admits] at hadmits
    simp [hjoined, hadmits]
  -- the entry is older than the subscription, so what was received last was replayed
  have hseq : archived.seq = origin.seq := hsame.2.1
  have howed := (hflows.received h hid hunbroken).subset (mem_of_getLast? hlatest)
  rcases mem_append.mp howed with hreplayed | hlater
  · refine ⟨archived.event json, mem_append_left _ ?_, rfl⟩
    exact (h.replayed id hid).kept archived hmem latest hreplayed (by omega) (by omega) hadmits
  have hafter := (mem_filter.mp hlater).2
  simp only [Bool.and_eq_true, decide_eq_true_eq] at hafter
  omega

theorem BusInv.same_of_ring (h : BusInv bus json o) {archived : Archived}
    (hmem : archived ∈ o.bus.inner.ring) {event : Event P} (hevent : event ∈ o.published)
    (hseq : archived.seq = event.seq) : (archived.event json).Same event := by
  obtain ⟨other, hother, hsame⟩ := h.of_ring hmem
  have hother_seq : archived.seq = other.seq := hsame.2.1
  rwa [h.unique hother hevent (by omega)] at hsame

/-- While the ring reaches back far enough, a replay is every admitted event since. -/
theorem BusInv.replay_complete (h : BusInv bus json o) {since : Nat} (filter : Filter)
    (hring : ∀ event ∈ o.published, since < event.seq →
      ∃ archived ∈ o.bus.inner.ring, archived.seq = event.seq) :
    (o.replayFor json (some since) filter).map Event.seq = (o.published.filter fun event =>
          decide (since < event.seq) && filter.admits event).map Event.seq := by
  refine eq_of_increasing ?_ ?_ ?_
  · refine pairwise_map.mpr (List.Pairwise.filter _ (pairwise_map.mpr ?_))
    exact h.ring_ordered.filter _
  · exact pairwise_map.mpr (h.published_ordered.filter _)
  intro seq
  simp only [Observed.replayFor, BusInner.replay, mem_map, mem_filter,
    decide_eq_true_eq, Bool.and_eq_true]
  constructor
  · rintro ⟨_, ⟨⟨archived, ⟨hmem, hlt⟩, rfl⟩, hadmits⟩, rfl⟩
    obtain ⟨origin, horigin, hsame⟩ := h.of_ring hmem
    have hseq : archived.seq = origin.seq := hsame.2.1
    exact ⟨origin, ⟨horigin, by omega, hsame.admits filter ▸ hadmits⟩, hseq.symm⟩
  rintro ⟨origin, ⟨horigin, hlt, hadmits⟩, rfl⟩
  obtain ⟨archived, harchived, hseq⟩ := hring origin horigin hlt
  have hsame := h.same_of_ring harchived horigin hseq
  refine ⟨archived.event json, ⟨⟨archived, ⟨harchived, by omega⟩, rfl⟩, ?_⟩, hseq⟩
  rw [hsame.admits]
  exact hadmits

/--
A subscriber that was sent everything, and the bus asked for what came after the last
event received: the two together are what the subscription is owed.
-/
theorem Flows.resumes (hflows : Flows o) (h : BusInv bus json o) {id : Nat}
    (hid : id < o.bus.inner.nextSubscriber) (hunbroken : o.Unbroken id) {latest : Event P}
    (hlatest : latest ∈ (o.received id).getLast?)
    (hring : ∀ event ∈ o.published, latest.seq < event.seq →
      ∃ archived ∈ o.bus.inner.ring, archived.seq = event.seq) : (o.received id).map Event.seq ++
        (o.replayFor json (some latest.seq) (o.bus.queues id).filter).map Event.seq
      = (o.owed id).map Event.seq := by
  have hordered := h.owed_ordered hid
  obtain ⟨tail, htail⟩ := hflows.received h hid hunbroken
  rw [← htail] at hordered
  rw [h.replay_complete _ hring, ← htail, map_append]
  congr 1
  refine eq_of_increasing ?_ ?_ ?_
  · exact pairwise_map.mpr (h.published_ordered.filter _)
  · exact pairwise_map.mpr (pairwise_append.mp hordered).2.1
  intro seq
  simp only [mem_map, mem_filter, decide_eq_true_eq, Bool.and_eq_true]
  constructor
  · rintro ⟨origin, ⟨horigin, hlt, hadmits⟩, rfl⟩
    obtain ⟨archived, harchived, hseq⟩ := hring origin horigin hlt
    have hsame := h.same_of_ring harchived horigin hseq
    obtain ⟨event, hevent, hevseq⟩ := hflows.owed_after h hid hunbroken hlatest harchived
      (by omega) (by rw [hsame.admits]; exact hadmits)
    rw [← htail] at hevent
    exact ⟨event, (after_last hordered hlatest hevent).mp (by omega), by omega⟩
  rintro ⟨event, hevent, rfl⟩
  have hin := mem_append_right (o.received id) hevent
  have hlt := (after_last hordered hlatest hin).mpr hevent
  rw [htail] at hin
  obtain ⟨origin, horigin, hsame⟩ := h.owed_source hid hin
  have hseq : event.seq = origin.seq := hsame.2.1
  refine ⟨origin, ⟨horigin, by omega, ?_⟩, hseq.symm⟩
  rw [← hsame.admits]
  exact h.owed_admitted hid hin

end Reads

/-! ### Every run -/

def busRun (bus : EventBus) (json : JsonCodec P) (steps : List (BusStep P)) : Option (Observed P) :=
  partialRun (Observed.step bus json) {} steps

/-- Order and completeness of what the subscribers were given. -/
structure DeliversInOrder (json : JsonCodec P) (o : Observed P) : Prop where
  ordered : ∀ id < o.bus.inner.nextSubscriber,
    (real (o.received id)).Pairwise fun a b => a.seq < b.seq
  /-- Absent overflow, nothing published since the subscription is missing before `latest`. -/
  complete : ∀ id < o.bus.inner.nextSubscriber, o.Unbroken id → ∀ latest ∈ o.received id,
    ∀ event ∈ o.published, o.joined id ≤ event.seq →
      (o.bus.queues id).filter.admits event = true → event.seq < latest.seq → event ∈ o.received id
  /-- Absent overflow, asking for what came after the last event received loses nothing. -/
  resumes : ∀ id < o.bus.inner.nextSubscriber, o.Unbroken id →
    ∀ latest ∈ (o.received id).getLast?,
      (∀ event ∈ o.published, latest.seq < event.seq →
        ∃ archived ∈ o.bus.inner.ring, archived.seq = event.seq) →
      (o.received id).map Event.seq ++
          (o.replayFor json (some latest.seq) (o.bus.queues id).filter).map Event.seq
        = (o.owed id).map Event.seq

theorem Flows.deliversInOrder {bus : EventBus} {json : JsonCodec P} {o : Observed P}
    (hflows : Flows o) (h : BusInv bus json o) : DeliversInOrder json o where
  ordered := by
    intro id hid
    have hsub := (sublist_append_left (o.received id) (o.bus.queues id).queue).filter Event.isReal
    have htaken := (hsub.trans (h.took id).once).trans (hflows.taken id hid).sublist
    exact (h.owed_ordered hid).sublist htaken
  complete := by
    intro id hid hunbroken latest hlatest event hevent hjoined hadmits hlt
    refine mem_of_earlier (h.owed_ordered hid) (hflows.received h hid hunbroken) hlatest ?_ hlt
    refine mem_append_right _ (List.mem_filter.mpr ⟨hevent, ?_⟩)
    simp [hjoined, hadmits]
  resumes := fun id hid hunbroken latest hlatest hring =>
    hflows.resumes h hid hunbroken hlatest hring

/--
**Delivery order.**  In every run of publishers, subscribers and receives, if no push
overtakes an older one that its queue would take, then every subscriber receives real
events in increasing order; and one that was dropped nothing has everything before the
last event it received, and loses nothing by resuming from there.
-/
theorem delivers_in_order (bus : EventBus) (json : JsonCodec P) (steps : List (BusStep P))
    (hinOrder : Meets InOrder (Observed.step bus json) {} steps) (o : Observed P)
    (hrun : busRun bus json steps = some o) : DeliversInOrder json o := by
  have hboth : BusInv bus json o ∧ Flows o := by
    refine hinOrder.invariant (P := fun o => BusInv bus json o ∧ Flows o) ?_
      ⟨.start bus json, .start⟩ hrun
    intro o i o' h hcond hstep
    exact ⟨h.1.step hstep, h.2.step h.1 hcond hstep⟩
  exact hboth.2.deliversInOrder hboth.1

/-- `JsonValue::Null`, for events whose params do not matter. -/
def nullJson : JsonCodec Unit where
  toVec := fun _ => some [110, 117, 108, 108]
  fromSlice := fun bytes => if bytes = [110, 117, 108, 108] then some () else none
  null := ()

/-- Two publishers in order, with a resubscription while the second still has to push. -/
def twoPublishers : List (BusStep Unit) :=
  [.subscribe none .all, .publish "first" () none, .publish "second" () none, .push 0,
    .receive 0, .subscribe (some 1) .all, .push 0, .receive 0, .receive 1]

theorem delivers_in_order_two_publishers : ∃ o, busRun .new nullJson twoPublishers = some o ∧
      (o.received 0).map Event.seq = [1, 2] ∧ (o.received 1).map Event.seq = [2] ∧
        DeliversInOrder nullJson o :=
  ⟨_, rfl, rfl, rfl, delivers_in_order .new nullJson twoPublishers (by decide +kernel) _ rfl⟩

/-- Two publishers, and the second one's push is made first. -/
def overtaking : List (BusStep Unit) :=
  [.subscribe none .all, .publish "first" () none, .publish "second" () none, .push 1, .receive 0]

/--
**A publisher can be overtaken between its two halves.**  The subscriber then has event
2 and not event 1, and resuming from 2 it is never given event 1; if it goes on reading
it gets 2 before 1.
-/
theorem overtaking_fails : (∃ o, busRun .new nullJson overtaking = some o ∧
      (o.received 0).map Event.seq = [2] ∧ o.replayFor nullJson (some 2) .all = [] ∧
      ¬DeliversInOrder nullJson o) ∧
    ∃ o, busRun .new nullJson (overtaking ++ [.push 0, .receive 0]) = some o ∧
      (o.received 0).map Event.seq = [2, 1] ∧ ¬DeliversInOrder nullJson o := by
  refine ⟨⟨_, rfl, rfl, rfl, ?_⟩, ⟨_, rfl, rfl, ?_⟩⟩
  · intro h
    have hmissing := h.complete 0 (by decide) ⟨rfl, rfl⟩
      ⟨"second", 2, none, .published ()⟩ (by decide) ⟨"first", 1, none, .published ()⟩
      (by decide) (by decide) (by decide) (by decide)
    exact absurd hmissing (by decide)
  · intro h
    exact absurd (h.ordered 0 (by decide)) (by decide)

end Diri
