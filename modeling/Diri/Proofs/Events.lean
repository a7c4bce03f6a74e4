/-
Event accounting for one subscriber.

Events come in at the back of a bounded queue, leave at the front to the consumer,
and are evicted at the front when the queue is full.  Markers travel in the same
queue.  What was received and what is still queued, taken together, is the
`delivered` list: receiving does not change it, evicting takes one event out of the
middle of it, and a mark adds the remembered hole to it.

The accounting holds as long as no marker is evicted and a marker and its event
both fit: see `Accountable`.  `hole_accounting_fails` shows what happens otherwise.
-/
import Diri.Engine.Events
import Diri.Lib.Run
import Mathlib.Algebra.BigOperators.Group.List.Basic
import Mathlib.Algebra.Order.Ring.Nat

namespace Diri

open List

variable {P : Type}

/-! ### Real events and holes -/

namespace Event

def isReal (event : Event P) : Bool :=
  match event.params with
  | .published _ => true
  | .hole _ => false

def hole? (event : Event P) : Option Hole :=
  match event.params with
  | .published _ => none
  | .hole hole => some hole

end Event

def real (events : List (Event P)) : List (Event P) := events.filter Event.isReal

/-- What the markers of a list say. -/
def holes (events : List (Event P)) : List Hole := events.filterMap Event.hole?

/-- How many events a list of holes accounts for. -/
def droppedIn (hs : List Hole) : Nat := (hs.map Hole.dropped).sum

def Hole.Covers (hole : Hole) (seq : Nat) : Prop := hole.fromSeq ≤ seq ∧ seq ≤ hole.toSeq

/-- The hole no marker has told of yet. -/
def QueueState.pending (q : QueueState P) : List Hole :=
  if 0 < q.dropped then [q.hole] else []

/-- The admitted events that are no longer anywhere. -/
def lost (admitted delivered : List (Event P)) : List (Event P) :=
  admitted.filter fun event => event.seq ∉ (real delivered).map Event.seq

@[simp] theorem real_append (a b : List (Event P)) : real (a ++ b) = real a ++ real b :=
  filter_append ..

@[simp] theorem holes_append (a b : List (Event P)) : holes (a ++ b) = holes a ++ holes b :=
  filterMap_append ..

@[simp] theorem droppedIn_append (a b : List Hole) :
    droppedIn (a ++ b) = droppedIn a + droppedIn b := by
  simp [droppedIn]

theorem droppedIn_pending (q : QueueState P) : droppedIn q.pending = q.dropped := by
  unfold QueueState.pending
  split
  · simp [droppedIn, QueueState.hole]
  · simp only [droppedIn, map_nil, sum_nil]
    omega

variable {event : Event P} {evicted : Event P} {q : QueueState P}

theorem real_cons_of_isReal (h : event.isReal = true)
    (events : List (Event P)) : real (event :: events) = event :: real events :=
  filter_cons_of_pos h

theorem holes_cons_of_isReal (h : event.isReal = true)
    (events : List (Event P)) : holes (event :: events) = holes events := by
  refine filterMap_cons_none ?_
  unfold Event.hole?
  unfold Event.isReal at h
  cases hparams : event.params with
  | published value => rfl
  | hole hole => simp [hparams] at h

/-! ### The accounting invariant -/

/-- Every event is in place, or in a hole. -/
structure Accounted (admitted received : List (Event P)) (q : QueueState P) : Prop where
  inOrder : admitted.Pairwise fun a b => a.seq < b.seq
  once : (real (received ++ q.queue)).Sublist admitted
  counted : admitted.length = (real (received ++ q.queue)).length
    + droppedIn (holes (received ++ q.queue) ++ q.pending)
  covered : ∀ event ∈ admitted, event ∈ received ++ q.queue ∨
    ∃ hole ∈ holes (received ++ q.queue) ++ q.pending, hole.Covers event.seq
  /-- The pending hole lies before everything still queued. -/
  span : 0 < q.dropped → q.firstDroppedSeq ≤ q.lastDroppedSeq ∧
    ∀ event ∈ real q.queue, q.lastDroppedSeq < event.seq
  seen : 0 < q.dropped → ∃ event ∈ admitted, event.seq = q.lastDroppedSeq

theorem Accounted.new (filter : Filter) (capacity : Nat) :
    Accounted ([] : List (Event P)) [] (.new filter capacity) where
  inOrder := List.Pairwise.nil
  once := List.Sublist.slnil
  counted := rfl
  covered := fun _ h => absurd h not_mem_nil
  span := fun h => absurd h (Nat.lt_irrefl 0)
  seen := fun h => absurd h (Nat.lt_irrefl 0)

/-- The pending hole, once `evicted` has gone into it. -/
def QueueState.grown (q : QueueState P) (evicted : Event P) : Hole :=
  ⟨q.dropped + 1, if q.dropped = 0 then evicted.seq else q.firstDroppedSeq, evicted.seq⟩

theorem Accounted.grown_covers {admitted received : List (Event P)}
    (h : Accounted admitted received q) (hmem : evicted ∈ real q.queue)
    {hole : Hole} (hhole : hole ∈ q.pending) {seq : Nat} (hcovers : hole.Covers seq) :
    (q.grown evicted).Covers seq := by
  unfold QueueState.pending at hhole
  split at hhole
  · rename_i hpos
    obtain rfl := mem_singleton.mp hhole
    have hbehind := (h.span hpos).2 evicted hmem
    obtain ⟨hfrom, hto⟩ := hcovers
    refine ⟨?_, Nat.le_of_lt (Nat.lt_of_le_of_lt hto hbehind)⟩
    show (if q.dropped = 0 then evicted.seq else q.firstDroppedSeq) ≤ seq
    rw [if_neg (Nat.pos_iff_ne_zero.mp hpos)]
    exact hfrom
  · exact absurd hhole not_mem_nil

theorem Accounted.grown_covers_evicted {admitted received : List (Event P)}
    (h : Accounted admitted received q) (hmem : evicted ∈ real q.queue) :
    (q.grown evicted).Covers evicted.seq := by
  refine ⟨?_, Nat.le_refl _⟩
  show (if q.dropped = 0 then evicted.seq else q.firstDroppedSeq) ≤ evicted.seq
  split
  · exact Nat.le_refl _
  rename_i hpos
  obtain ⟨hle, hlt⟩ := h.span (Nat.pos_of_ne_zero hpos)
  have hbehind := hlt evicted hmem
  omega

theorem Accounted.evict {admitted received : List (Event P)}
    (h : Accounted admitted received q) {rest : List (Event P)}
    (hq : q.queue = evicted :: rest) (hreal : evicted.isReal = true) :
    Accounted admitted received q.evict := by
  have hevict : q.evict = { q with
      queue := rest
      firstDroppedSeq := if q.dropped = 0 then evicted.seq else q.firstDroppedSeq
      lastDroppedSeq := evicted.seq
      dropped := q.dropped + 1 } := by
    unfold QueueState.evict
    rw [hq]
  have hmem : evicted ∈ real q.queue := by
    rw [hq, real_cons_of_isReal hreal]
    exact mem_cons_self
  have hreals : real (received ++ q.queue) = real received ++ evicted :: real rest := by
    rw [hq, real_append, real_cons_of_isReal hreal]
  have hholes : holes (received ++ q.queue) = holes received ++ holes rest := by
    rw [hq, holes_append, holes_cons_of_isReal hreal]
  have hspan := h.grown_covers_evicted hmem
  -- everything behind the evicted event came after it
  have hahead : ∀ event ∈ real rest, evicted.seq < event.seq := by
    have hsorted := h.inOrder.sublist h.once
    rw [hreals] at hsorted
    exact (pairwise_cons.mp (pairwise_append.mp hsorted).2.1).1
  rw [hevict]
  refine ⟨h.inOrder, ?_, ?_, ?_, fun _ => ⟨hspan.1, hahead⟩, fun _ => ⟨evicted, ?_, rfl⟩⟩
  · refine List.Sublist.trans ?_ h.once
    rw [hreals, real_append]
    exact List.Sublist.append (List.Sublist.refl _) (sublist_cons_self _ _)
  · have counted := h.counted
    rw [hreals, hholes] at counted
    simp only [droppedIn_append, droppedIn_pending, length_append, length_cons,
      real_append, holes_append] at counted ⊢
    omega
  · intro event hadmitted
    have hgrown : ∀ seq, (q.grown evicted).Covers seq →
        ∃ hole ∈ holes (received ++ rest) ++ [q.grown evicted], hole.Covers seq :=
      fun seq hcovers => ⟨_, mem_append_right _ (mem_singleton.mpr rfl), hcovers⟩
    rcases h.covered event hadmitted with hin | ⟨hole, hhole, hcovers⟩
    · rw [hq, mem_append, mem_cons] at hin
      rcases hin with hin | rfl | hin
      · exact Or.inl (mem_append_left _ hin)
      · exact Or.inr (hgrown _ hspan)
      · exact Or.inl (mem_append_right _ hin)
    right
    rcases mem_append.mp hhole with hold | hnew
    · refine ⟨hole, mem_append_left _ ?_, hcovers⟩
      rw [holes_append, ← hholes]
      exact hold
    · exact hgrown _ (h.grown_covers hmem hnew hcovers)
  · refine h.once.subset ?_
    rw [hreals]
    exact mem_append_right _ mem_cons_self

theorem Accounted.mark {admitted received : List (Event P)}
    (h : Accounted admitted received q) (hpos : 0 < q.dropped) :
    Accounted admitted received q.mark := by
  obtain ⟨inOrder, once, counted, covered, -, -⟩ := h
  have hreals : real (received ++ q.mark.queue) = real (received ++ q.queue) := by
    show real (received ++ (q.queue ++ [q.marker])) = _
    rw [← append_assoc, real_append]
    exact append_nil _
  have hholes : holes (received ++ q.mark.queue) ++ q.mark.pending
      = holes (received ++ q.queue) ++ q.pending := by
    have hpending : q.pending = [q.hole] := if_pos hpos
    have hnone : q.mark.pending = [] := if_neg (Nat.lt_irrefl 0)
    rw [hpending, hnone, append_nil]
    show holes (received ++ (q.queue ++ [q.marker])) = _
    rw [← append_assoc, holes_append]
    rfl
  refine ⟨inOrder, ?_, ?_, ?_, fun h => absurd h (Nat.lt_irrefl 0),
    fun h => absurd h (Nat.lt_irrefl 0)⟩
  · rw [hreals]
    exact once
  · rw [hreals, hholes]
    exact counted
  intro event hmem
  rw [hholes]
  rcases covered event hmem with hin | hcovered
  · left
    show event ∈ received ++ (q.queue ++ [q.marker])
    rw [← append_assoc]
    exact mem_append_left _ hin
  · exact Or.inr hcovered

theorem Accounted.enqueue {admitted received : List (Event P)}
    (h : Accounted admitted received q) (hreal : event.isReal = true)
    (hnew : ∀ earlier ∈ admitted, earlier.seq < event.seq) :
    Accounted (admitted ++ [event]) received { q with queue := q.queue ++ [event] } := by
  obtain ⟨inOrder, once, counted, covered, span, seen⟩ := h
  have hone : real [event] = [event] := real_cons_of_isReal hreal []
  have hnone : holes [event] = [] := holes_cons_of_isReal hreal []
  have hreals : real (received ++ (q.queue ++ [event]))
      = real (received ++ q.queue) ++ [event] := by
    rw [← append_assoc, real_append, hone]
  have hholes : holes (received ++ (q.queue ++ [event])) = holes (received ++ q.queue) := by
    rw [← append_assoc, holes_append, hnone, append_nil]
  refine ⟨?_, ?_, ?_, ?_, ?_, ?_⟩
  · refine pairwise_append.mpr ⟨inOrder, pairwise_singleton _ _, ?_⟩
    intro earlier hmem later hlater
    obtain rfl := mem_singleton.mp hlater
    exact hnew earlier hmem
  · show (real (received ++ (q.queue ++ [event]))).Sublist _
    rw [hreals]
    exact once.append (List.Sublist.refl _)
  · show _ = (real (received ++ (q.queue ++ [event]))).length
      + droppedIn (holes (received ++ (q.queue ++ [event])) ++ q.pending)
    rw [hreals, hholes, length_append, length_append, counted]
    omega
  · intro e hmem
    show e ∈ received ++ (q.queue ++ [event]) ∨
      ∃ hole ∈ holes (received ++ (q.queue ++ [event])) ++ q.pending, hole.Covers e.seq
    rw [hholes, ← append_assoc]
    rcases mem_append.mp hmem with hold | hlast
    · rcases covered e hold with hin | hcovered
      · exact Or.inl (mem_append_left _ hin)
      · exact Or.inr hcovered
    · exact Or.inl (mem_append_right _ hlast)
  · intro hpos
    refine ⟨(span hpos).1, ?_⟩
    intro e hmem
    rw [real_append, hone, mem_append, mem_singleton] at hmem
    rcases hmem with hmem | rfl
    · exact (span hpos).2 e hmem
    · obtain ⟨last, hlast, hseq⟩ := seen hpos
      exact hseq ▸ hnew last hlast
  · intro hpos
    obtain ⟨last, hlast, hseq⟩ := seen hpos
    exact ⟨last, mem_append_left _ hlast, hseq⟩

theorem Accounted.receive {admitted received : List (Event P)} (h : Accounted admitted received q) :
    Accounted admitted (received ++ q.tryRecv.1.toList) q.tryRecv.2 := by
  unfold QueueState.tryRecv
  cases hq : q.queue with
  | nil =>
    show Accounted admitted (received ++ []) q
    rw [append_nil]
    exact h
  | cons event rest =>
    obtain ⟨inOrder, once, counted, covered, span, seen⟩ := h
    have hmove : received ++ q.queue = (received ++ [event]) ++ rest := by
      rw [hq, append_assoc]
      rfl
    rw [hmove] at once counted covered
    refine ⟨inOrder, once, counted, covered, ?_, seen⟩
    intro hpos
    refine ⟨(span hpos).1, fun e hmem => (span hpos).2 e ?_⟩
    rw [hq]
    exact ((sublist_cons_self event rest).filter _).subset hmem

/-! ### Runs of pushes and receives -/

/-- What happens to one subscriber's queue. -/
inductive QueueInput (P : Type)
  | push (name : String) (seq : Nat) (sessionId : Option String) (value : P)
  | receive

def QueueInput.event? : QueueInput P → Option (Event P)
  | .push name seq sessionId value => some ⟨name, seq, sessionId, .published value⟩
  | .receive => none

def queueStep (q : QueueState P) : QueueInput P → QueueState P × Option (Event P)
  | .push name seq sessionId value =>
    (q.push ⟨name, seq, sessionId, .published value⟩, none)
  | .receive => (q.tryRecv.2, q.tryRecv.1)

/-- A new subscriber's queue, run on `inputs`. -/
def queueRun (filter : Filter) (capacity : Nat) (inputs : List (QueueInput P)) :
    QueueState P × List (Taken (QueueState P) (QueueInput P) (Option (Event P))) :=
  run queueStep (.new filter capacity) inputs

def admitted (filter : Filter) (inputs : List (QueueInput P)) : List (Event P) :=
  (inputs.filterMap QueueInput.event?).filter fun event => filter.admits event

def received (history : List (Taken (QueueState P) (QueueInput P) (Option (Event P)))) :
    List (Event P) :=
  (history.filterMap Taken.output).reverse

/--
The steps that keep the accounting: a push evicts no marker, and leaves room for
the marker it enqueues and for the event behind it.
-/
def Accountable (q : QueueState P) : QueueInput P → Prop
  | .push name seq sessionId value => q.takes ⟨name, seq, sessionId, .published value⟩ →
      (q.capacity ≤ q.queue.length → ∀ evicted ∈ q.queue.head?, evicted.isReal = true) ∧
        (q.queue.length < q.capacity → 0 < q.dropped → q.queue.length + 2 ≤ q.capacity)
  | .receive => True

instance (q : QueueState P) : (i : QueueInput P) → Decidable (Accountable q i)
  | .push _ _ _ _ => inferInstanceAs (Decidable (_ → _ ∧ _))
  | .receive => .isTrue trivial

/-- What no step changes. -/
def QueueState.fixed (q : QueueState P) : Filter × Nat × Bool := (q.filter, q.capacity, q.closed)

theorem QueueState.evict_fixed (q : QueueState P) : q.evict.fixed = q.fixed := by
  unfold QueueState.evict
  split <;> rfl

theorem QueueState.makeRoom_fixed (q : QueueState P) : q.makeRoom.fixed = q.fixed := by
  unfold QueueState.makeRoom
  split
  · exact q.evict_fixed
  · split <;> rfl

theorem QueueState.push_fixed (q : QueueState P) (event : Event P) :
    (q.push event).fixed = q.fixed := by
  unfold QueueState.push
  split
  · exact q.makeRoom_fixed
  · rfl

theorem QueueState.tryRecv_fixed (q : QueueState P) : q.tryRecv.2.fixed = q.fixed := by
  unfold QueueState.tryRecv
  split <;> rfl

theorem queueStep_fixed (q : QueueState P) (i : QueueInput P) :
    (queueStep q i).1.fixed = q.fixed := by
  cases i with
  | push name seq sessionId value => exact q.push_fixed _
  | receive => exact q.tryRecv_fixed

theorem Accounted.makeRoom {adm rec : List (Event P)}
    (h : Accounted adm rec q) (hcap : 1 ≤ q.capacity) (hlen : q.queue.length ≤ q.capacity)
    (hreal : q.capacity ≤ q.queue.length → ∀ evicted ∈ q.queue.head?, evicted.isReal = true)
    (hroom : q.queue.length < q.capacity → 0 < q.dropped → q.queue.length + 2 ≤ q.capacity) :
    Accounted adm rec q.makeRoom ∧ q.makeRoom.queue.length + 1 ≤ q.capacity := by
  unfold QueueState.makeRoom
  by_cases hfull : q.capacity ≤ q.queue.length
  · rw [if_pos hfull]
    cases hq : q.queue with
    | nil =>
      rw [hq] at hfull
      exact absurd (Nat.le_trans hcap hfull) (Nat.not_succ_le_zero 0)
    | cons evicted rest =>
      refine ⟨h.evict hq (hreal hfull evicted (by rw [hq]; rfl)), ?_⟩
      have hqueue : q.evict.queue = rest := by
        unfold QueueState.evict
        rw [hq]
      rw [hqueue]
      rw [hq, length_cons] at hlen
      exact hlen
  rw [if_neg hfull]
  have hlt := Nat.lt_of_not_le hfull
  by_cases hpos : 0 < q.dropped
  · rw [if_pos hpos]
    refine ⟨h.mark hpos, ?_⟩
    have hmarked : q.mark.queue.length = q.queue.length + 1 := length_append
    rw [hmarked]
    exact hroom hlt hpos
  · rw [if_neg hpos]
    exact ⟨h, hlt⟩

theorem Accounted.push {adm rec : List (Event P)}
    (h : Accounted adm rec q) (hcap : 1 ≤ q.capacity) (hlen : q.queue.length ≤ q.capacity)
    {name : String} {seq : Nat} {sessionId : Option String} {value : P}
    (hok : Accountable q (.push name seq sessionId value))
    (htakes : q.takes ⟨name, seq, sessionId, .published value⟩ = true)
    (hnew : ∀ earlier ∈ adm, earlier.seq < seq) :
    Accounted (adm ++ [⟨name, seq, sessionId, .published value⟩]) rec
        (q.push ⟨name, seq, sessionId, .published value⟩) ∧
      (q.push ⟨name, seq, sessionId, .published value⟩).queue.length ≤ q.capacity := by
  obtain ⟨hreal, hroom⟩ := hok htakes
  obtain ⟨hmade, hfits⟩ := h.makeRoom hcap hlen hreal hroom
  unfold QueueState.push
  rw [if_pos htakes]
  refine ⟨hmade.enqueue rfl hnew, ?_⟩
  rw [length_append]
  exact hfits

/-- The accounting, as one step after the other leaves it. -/
structure QueueInv (filter : Filter) (capacity : Nat) (inputs : List (QueueInput P))
    (history : List (Taken (QueueState P) (QueueInput P) (Option (Event P))))
    (q : QueueState P) : Prop where
  fixed : q.fixed = (filter, capacity, false)
  accounted : Accounted (admitted filter inputs) (received history) q
  bounded : q.queue.length ≤ capacity

theorem admitted_concat (filter : Filter) (inputs : List (QueueInput P)) (i : QueueInput P) :
    admitted filter (inputs ++ [i]) = admitted filter inputs ++
      i.event?.toList.filter fun event => filter.admits event := by
  unfold admitted
  rw [filterMap_append, filter_append]
  cases i <;> rfl

theorem received_cons (e : Taken (QueueState P) (QueueInput P) (Option (Event P)))
    (history : List (Taken (QueueState P) (QueueInput P) (Option (Event P)))) :
    received (e :: history) = received history ++ e.output.toList := by
  unfold received
  cases h : e.output with
  | none => simp [h]
  | some event => simp [h]

variable {filter : Filter} {capacity : Nat} {inputs : List (QueueInput P)}
  {history : List (Taken (QueueState P) (QueueInput P) (Option (Event P)))} {q : QueueState P}

section
variable (h : QueueInv filter capacity inputs history q)
include h

theorem QueueInv.receive :
    QueueInv filter capacity (inputs ++ [.receive]) (taken queueStep q .receive :: history)
      (queueStep q .receive).1 where
  fixed := (queueStep_fixed q .receive).trans h.fixed
  accounted := by
    rw [admitted_concat, received_cons]
    show Accounted (admitted filter inputs ++ []) _ _
    rw [append_nil]
    exact h.accounted.receive
  bounded := by
    refine Nat.le_trans ?_ h.bounded
    show q.tryRecv.2.queue.length ≤ q.queue.length
    unfold QueueState.tryRecv
    split
    · rename_i event rest hq
      rw [hq]
      exact Nat.le_succ _
    · exact Nat.le_refl _

theorem QueueInv.push (hcap : 1 ≤ capacity)
    {name : String} {seq : Nat} {sessionId : Option String} {value : P}
    (hok : Accountable q (.push name seq sessionId value))
    (hnew : ∀ earlier ∈ inputs.filterMap QueueInput.event?, earlier.seq < seq) :
    QueueInv filter capacity (inputs ++ [.push name seq sessionId value])
      (taken queueStep q (.push name seq sessionId value) :: history)
      (queueStep q (.push name seq sessionId value)).1 := by
  obtain ⟨fixed, accounted, bounded⟩ := h
  have hfilter : q.filter = filter := congrArg Prod.fst fixed
  have hcapacity : q.capacity = capacity := congrArg (fun f => f.2.1) fixed
  have hopen : q.closed = false := congrArg (fun f => f.2.2) fixed
  have hfixed := (queueStep_fixed q (.push name seq sessionId value)).trans fixed
  have hreceived : received (taken queueStep q (.push name seq sessionId value) :: history)
      = received history := by
    rw [received_cons]
    exact append_nil _
  have hstep : (queueStep q (.push name seq sessionId value)).1
      = q.push ⟨name, seq, sessionId, .published value⟩ := rfl
  have hadmitted : admitted filter (inputs ++ [.push name seq sessionId value])
      = admitted filter inputs ++ if filter.admits ⟨name, seq, sessionId, .published value⟩
        then [⟨name, seq, sessionId, .published value⟩] else [] := by
    rw [admitted_concat]
    refine congrArg _ ((filter_singleton ..).trans ?_)
    exact Bool.cond_eq_ite _ _ _
  have htakes_iff : q.takes ⟨name, seq, sessionId, .published value⟩
      = filter.admits ⟨name, seq, sessionId, .published value⟩ := by
    unfold QueueState.takes
    rw [hopen, hfilter]
    rfl
  by_cases htakes : q.takes ⟨name, seq, sessionId, .published value⟩ = true
  · obtain ⟨hacc, hlen⟩ := accounted.push (hcapacity ▸ hcap) (hcapacity ▸ bounded) hok htakes
      (fun earlier hmem => hnew earlier (mem_of_mem_filter hmem))
    refine ⟨hfixed, ?_, ?_⟩
    · rw [hadmitted, hreceived, hstep, if_pos (htakes_iff ▸ htakes)]
      exact hacc
    · rw [hstep, ← hcapacity]
      exact hlen
  have hsame : q.push ⟨name, seq, sessionId, .published value⟩ = q := if_neg htakes
  refine ⟨hfixed, ?_, ?_⟩
  · rw [hadmitted, hreceived, hstep, hsame, if_neg (htakes_iff ▸ htakes), append_nil]
    exact accounted
  · rw [hstep, hsame]
    exact bounded

theorem QueueInv.step (hcap : 1 ≤ capacity) {i : QueueInput P} (hok : Accountable q i)
    (hnew : ∀ event ∈ i.event?, ∀ earlier ∈ inputs.filterMap QueueInput.event?,
      earlier.seq < event.seq) :
    QueueInv filter capacity (inputs ++ [i]) (taken queueStep q i :: history)
      (queueStep q i).1 := by
  cases i with
  | receive => exact h.receive
  | push name seq sessionId value => exact h.push hcap hok (hnew _ rfl)

end

theorem queueRun_inv {filter : Filter} {capacity : Nat} (hcap : 1 ≤ capacity)
    (inputs : List (QueueInput P))
    (hpublished : (inputs.filterMap QueueInput.event?).Pairwise fun a b => a.seq < b.seq)
    (hok : ∀ e ∈ (queueRun filter capacity inputs).2, Accountable e.before e.input) :
    QueueInv filter capacity inputs (queueRun filter capacity inputs).2
      (queueRun filter capacity inputs).1 := by
  unfold queueRun at *
  induction inputs using reverseRecOn with
  | nil => exact ⟨rfl, .new filter capacity, Nat.zero_le _⟩
  | append_singleton inputs i ih =>
    rw [run_concat] at hok ⊢
    rw [filterMap_append] at hpublished
    obtain ⟨hearlier, -, hlast⟩ := pairwise_append.mp hpublished
    have hinv := ih hearlier (fun e he => hok e (mem_cons_of_mem _ he))
    refine hinv.step hcap (hok _ mem_cons_self) ?_
    intro event hevent earlier hmem
    refine hlast earlier hmem event ?_
    rw [mem_filterMap]
    exact ⟨i, mem_singleton.mpr rfl, hevent⟩

/-! ### A whole run -/

/-- What the queue owes a subscriber that has `received` this much. -/
structure EventsAccounted (filter : Filter) (capacity : Nat) (admitted received : List (Event P))
    (q : QueueState P) : Prop where
  /-- An admitted event was received, or is queued, or is in a hole: exactly one of these. -/
  partition : ∀ event ∈ admitted,
    (event ∈ received ∧ event ∉ q.queue) ∨ (event ∉ received ∧ event ∈ q.queue) ∨
      (event ∉ received ∧ event ∉ q.queue ∧
        ∃ hole ∈ holes received ++ holes q.queue ++ q.pending, hole.Covers event.seq)
  /-- Nothing is received or queued twice, or without having been admitted. -/
  once : (real received ++ real q.queue).Sublist admitted
  /-- The markers and the pending counter count the events that are in neither place. -/
  counted : (lost admitted (received ++ q.queue)).length =
    droppedIn (holes received ++ holes q.queue ++ q.pending)
  ordered : (real received).Pairwise fun a b => a.seq < b.seq
  bounded : q.queue.length ≤ capacity

theorem length_lost {adm delivered : List (Event P)}
    (hsorted : adm.Pairwise fun a b => a.seq < b.seq) (hsub : (real delivered).Sublist adm) :
    (lost adm delivered).length + (real delivered).length = adm.length := by
  unfold lost
  generalize real delivered = kept at hsub
  induction hsub with
  | slnil => rfl
  | @cons kept adm event hsub ih =>
    obtain ⟨hahead, hsorted⟩ := pairwise_cons.mp hsorted
    have hnot : event.seq ∉ kept.map Event.seq := by
      intro hmem
      obtain ⟨other, hother, hseq⟩ := mem_map.mp hmem
      have hlt := hahead other (hsub.subset hother)
      omega
    rw [filter_cons_of_pos (by simpa using hnot), length_cons, length_cons, ← ih hsorted]
    omega
  | @cons_cons kept adm event hsub ih =>
    obtain ⟨hahead, hsorted⟩ := pairwise_cons.mp hsorted
    have hrest : adm.filter (fun e => e.seq ∉ (event :: kept).map Event.seq)
        = adm.filter fun e => e.seq ∉ kept.map Event.seq := by
      refine filter_congr ?_
      intro other hother
      have hlt := hahead other hother
      have hne : other.seq ≠ event.seq := by omega
      simp [hne]
    rw [filter_cons_of_neg (by simp), hrest, length_cons, length_cons, ← ih hsorted]
    omega

theorem isReal_of_admitted {filter : Filter} {inputs : List (QueueInput P)}
    (h : event ∈ admitted filter inputs) : event.isReal = true := by
  obtain ⟨i, -, hi⟩ := mem_filterMap.mp (mem_of_mem_filter h)
  cases i with
  | push name seq sessionId value =>
    obtain ⟨⟩ := hi
    rfl
  | receive => exact absurd hi (by simp [QueueInput.event?])

theorem QueueInv.eventsAccounted {filter : Filter} {capacity : Nat} {inputs : List (QueueInput P)}
    {history : List (Taken (QueueState P) (QueueInput P) (Option (Event P)))}
    (h : QueueInv filter capacity inputs history q) :
    EventsAccounted filter capacity (admitted filter inputs) (received history) q := by
  obtain ⟨-, ⟨inOrder, once, counted, covered, -, -⟩, bounded⟩ := h
  have hsorted := inOrder.sublist once
  rw [real_append] at hsorted
  obtain ⟨hreceived, -, hacross⟩ := pairwise_append.mp hsorted
  refine
    { partition := ?_
      once := by rw [← real_append]; exact once
      counted := ?_
      ordered := hreceived
      bounded := bounded }
  · intro event hmem
    have hreal := isReal_of_admitted hmem
    rw [holes_append] at covered
    have hnotboth : event ∈ received history → event ∉ q.queue := by
      intro hrec hqueue
      have hlt := hacross event (mem_filter.mpr ⟨hrec, hreal⟩) event
        (mem_filter.mpr ⟨hqueue, hreal⟩)
      exact Nat.lt_irrefl _ hlt
    by_cases hrec : event ∈ received history
    · exact Or.inl ⟨hrec, hnotboth hrec⟩
    by_cases hqueue : event ∈ q.queue
    · exact Or.inr (Or.inl ⟨hrec, hqueue⟩)
    refine Or.inr (Or.inr ⟨hrec, hqueue, ?_⟩)
    rcases covered event hmem with hin | hcovered
    · rcases mem_append.mp hin with hin | hin
      · exact absurd hin hrec
      · exact absurd hin hqueue
    · exact hcovered
  have hlost := length_lost inOrder once
  rw [counted, holes_append] at hlost
  omega

/--
**Event accounting.**  Take any run of pushes, in the order the bus stamped them, and
of receives.  If no push evicts a marker, and every push that enqueues one has room
for it and for its event, then at the end of the run every admitted event is
received, queued, or counted in a hole that covers it, received events are in order,
and the queue is within its capacity.
-/
theorem event_accounting (filter : Filter) (capacity : Nat) (hcap : 1 ≤ capacity)
    (inputs : List (QueueInput P))
    (hpublished : (inputs.filterMap QueueInput.event?).Pairwise fun a b => a.seq < b.seq)
    (hok : ∀ e ∈ (queueRun filter capacity inputs).2, Accountable e.before e.input) :
    EventsAccounted filter capacity (admitted filter inputs)
      (received (queueRun filter capacity inputs).2) (queueRun filter capacity inputs).1 :=
  (queueRun_inv hcap inputs hpublished hok).eventsAccounted

/-- Four events into a queue of two, all of it read, and one more. -/
def burst : List (QueueInput Unit) :=
  [.push "burst" 1 none (), .push "burst" 2 none (), .push "burst" 3 none (),
    .push "burst" 4 none (), .receive, .receive, .push "after" 5 none ()]

theorem event_accounting_burst :
    EventsAccounted .all 2 (admitted .all burst) (received (queueRun .all 2 burst).2)
      (queueRun .all 2 burst).1 :=
  event_accounting .all 2 (by decide) burst (by decide) (by decide)

/-- The same burst, read down to one event. -/
def halfReadBurst : List (QueueInput Unit) :=
  [.push "burst" 1 none (), .push "burst" 2 none (), .push "burst" 3 none (),
    .push "burst" 4 none (), .receive, .push "after" 5 none ()]

/-- The same burst, with two more events before anyone reads the marker. -/
def evictedMarker : List (QueueInput Unit) := burst ++ [.push "after" 6 none ()]

/--
**The accounting fails without those two conditions.**  A marker that is enqueued
next to a last free place takes the queue over its capacity, and an evicted marker
takes its count with it: two events are lost and only one is accounted for.
-/
theorem hole_accounting_fails :
    ((halfReadBurst.filterMap QueueInput.event?).Pairwise fun a b => a.seq < b.seq) ∧
    ((evictedMarker.filterMap QueueInput.event?).Pairwise fun a b => a.seq < b.seq) ∧
    ¬EventsAccounted .all 2 (admitted .all halfReadBurst)
      (received (queueRun .all 2 halfReadBurst).2) (queueRun .all 2 halfReadBurst).1 ∧
    ¬EventsAccounted .all 2 (admitted .all evictedMarker)
      (received (queueRun .all 2 evictedMarker).2) (queueRun .all 2 evictedMarker).1 := by
  refine ⟨by decide, by decide, ?_, ?_⟩
  · intro h
    have hlen : (queueRun .all 2 halfReadBurst).1.queue.length = 3 := by decide
    have hbounded := h.bounded
    omega
  intro h
  have hlost : (lost (admitted .all evictedMarker) (received (queueRun .all 2 evictedMarker).2
      ++ (queueRun .all 2 evictedMarker).1.queue)).length = 2 := by decide
  have hdropped : droppedIn (holes (received (queueRun .all 2 evictedMarker).2)
      ++ holes (queueRun .all 2 evictedMarker).1.queue
      ++ (queueRun .all 2 evictedMarker).1.pending) = 1 := by decide
  have hcounted := h.counted
  omega

end Diri
