/-
Runs of a wait, beside everything else that happens on the bus and in the registry.

A wait that times out has missed nothing as long as three things hold (`Timely`): whenever
it reads the record again, the record is still as the event that woke it said; when its time
is up, no match is still on its way to it; and no match is evicted from its queue.  The
invariant says where a match can be: on its way, in the queue, in the hand of the call, or
in the record it looks at next.
-/
import Diri.Engine.EventsWait
import Diri.Proofs.Bus.Observed

namespace Diri

open Function List Option

variable {P : Type}

def BusState.step (bus : EventBus) (json : JsonCodec P) (s : BusState P) :
    BusStep P → Option (BusState P)
  | .publish name params sessionId => s.publish bus json name params sessionId
  | .push k => s.push k
  | .subscribe sinceSeq filter => some (s.subscribe bus json sinceSeq filter)
  | .receive id => some (s.receive id).2
  | .close id => some (s.close id)
  | .unsubscribe id => some (s.unsubscribe id)

/-- The step is not one that only the owner of the stream takes. -/
def BusStep.Spares (stream : Nat) : BusStep P → Prop
  | .receive id | .close id | .unsubscribe id => id ≠ stream
  | _ => True

instance (stream : Nat) : (i : BusStep P) → Decidable (i.Spares stream)
  | .receive _ | .close _ | .unsubscribe _ => inferInstanceAs (Decidable (_ ≠ _))
  | .publish _ _ _ | .push _ | .subscribe _ _ => .isTrue trivial

/-! ### The machine -/

inductive WaitStep (P : Type)
  | bus (i : BusStep P)
  /-- The registry has changed, in whatever way. -/
  | change (registry : Registry)
  | tick (ms : Nat)
  /-- The call takes its next step. -/
  | call

/-- The call among the others.  `first` and `due` are notes: the record that was read first,
and the events for the call that were published in its time. -/
structure WaitRun (P : Type) where
  bus : BusState P := {}
  registry : Registry := {}
  now : Nat := 0
  phase : WaitPhase P := .start
  first : Option SessionRecord := none
  due : List (Event P) := []

/-- What a wait is made with. -/
structure WaitSetting (P : Type) where
  bus : EventBus
  json : JsonCodec P
  chars : CharClass
  resumes : String → String → Bool
  params : EventsWaitParams
  /-- The record that the params of a `session.updated` are. -/
  record : P → Option SessionRecord

namespace WaitPhase

/-- The stream and the deadline of a call that is under way. -/
def stream? : WaitPhase P → Option (Nat × Nat)
  | subscribed stream deadline | looking stream deadline _ | receiving stream deadline _
  | woken stream deadline _ _ => some (stream, deadline)
  | start | replied _ => none

end WaitPhase

namespace WaitRun

variable (w : WaitSetting P)

/-- The events that a step publishes for the call in its time. -/
def dueNow (run : WaitRun P) : BusStep P → List (Event P)
  | .publish name params sessionId =>
    let event : Event P := ⟨name, run.bus.inner.nextSeq, sessionId, .published params⟩
    match run.phase.stream? with
    | some (_, deadline) =>
      if run.now ≤ deadline ∧ name = sessionUpdated ∧
        sessionId = some w.params.sessionId then [event] else []
    | none => []
  | _ => []

/-- One step; `none` is a step that is not possible now. -/
def step (run : WaitRun P) : WaitStep P → Option (WaitRun P)
  | .bus i =>
    if (run.phase.stream?.all fun (stream, _) => i.Spares stream) = true then
      (run.bus.step w.bus w.json i).map fun bus =>
        { run with bus := bus, due := run.due ++ run.dueNow w i }
    else none
  | .change registry => some { run with registry := registry }
  | .tick ms => some { run with now := run.now + ms }
  | .call =>
    let (bus, phase) := EventsWait.step w.bus w.json w.chars w.resumes w.params run.bus
      run.registry run.now run.phase
    some { run with
      bus := bus
      phase := phase
      first := match run.phase, phase with
        | .subscribed _ _, .looking _ _ record => some record
        | _, _ => run.first }

/-- The event says that the session is as asked. -/
def Tells (event : Event P) : Prop :=
  match event.params with
  | .published value => ∃ record ∈ w.record value, EventsWait.isMatch w.params record = true
  | .hole _ => False

instance (event : Event P) : Decidable (Tells w event) :=
  match hparams : event.params with
  | .published value =>
    decidable_of_iff ((w.record value).any fun record => EventsWait.isMatch w.params record) (by
      simp [Tells, hparams, Option.any_eq_true])
  | .hole _ => .isFalse (by simp [Tells, hparams])

/-- The event is on its way to the call, or in its queue. -/
def Unread (run : WaitRun P) (stream : Nat) (event : Event P) : Prop :=
  (event, stream) ∈ run.bus.inFlight ∨ event ∈ (run.bus.queues stream).queue

/-- What the call does next makes it miss no match: the record it reads is as the event said
that woke it, and what it gives up on has nothing more on the way. -/
def TimelyCall (run : WaitRun P) : WaitPhase P → Prop
  | .woken _ _ _ event => Tells w event →
      ∃ record ∈ EventsWait.current w.chars w.resumes w.params run.registry,
        EventsWait.isMatch w.params record = true
  | .looking stream deadline latest =>
    EventsWait.isMatch w.params latest = false → deadline < run.now →
      ∀ event ∈ run.due, Tells w event → ¬run.Unread stream event
  | _ => True

/-- The step makes the call miss no match. -/
def Timely (run : WaitRun P) : WaitStep P → Prop
  | .bus (.push k) =>
    -- a match is not evicted from the call's queue
    ∀ pushed ∈ run.bus.inFlight[k]?, ∀ evicted ∈ (run.bus.queues pushed.2).queue.head?,
      (run.bus.queues pushed.2).capacity ≤ (run.bus.queues pushed.2).queue.length →
        Tells w evicted → ∀ own ∈ run.phase.stream?, pushed.2 ≠ own.1
  | .call => run.TimelyCall w run.phase
  | _ => True

instance (run : WaitRun P) (stream : Nat) (event : Event P) [DecidableEq P] :
    Decidable (run.Unread stream event) :=
  inferInstanceAs (Decidable (_ ∨ _))

instance (run : WaitRun P) [DecidableEq P] :
    (phase : WaitPhase P) → Decidable (run.TimelyCall w phase)
  | .woken _ _ _ _ => inferInstanceAs (Decidable (_ → ∃ record ∈ (_ : Option _), _))
  | .looking _ _ _ => inferInstanceAs (Decidable (_ → _ → ∀ event ∈ run.due, _))
  | .start | .subscribed _ _ | .receiving _ _ _ | .replied _ => .isTrue trivial

instance (run : WaitRun P) [DecidableEq P] : (i : WaitStep P) → Decidable (run.Timely w i)
  | .bus (.push _) => inferInstanceAs (Decidable (∀ pushed ∈ (_ : Option _), _))
  | .bus (.publish _ _ _) | .bus (.subscribe _ _) | .bus (.receive _) | .bus (.close _)
  | .bus (.unsubscribe _) | .change _ | .tick _ => .isTrue trivial
  | .call => inferInstanceAs (Decidable (run.TimelyCall w run.phase))

/-- A match was read first, or published in time. -/
def Matched (run : WaitRun P) : Prop :=
  (∃ record ∈ run.first, EventsWait.isMatch w.params record = true) ∨
    ∃ event ∈ run.due, Tells w event

/-- A call that was given a match does not answer that it timed out. -/
def Hears (run : WaitRun P) : Prop :=
  ∀ result, run.phase = .replied (.ok result) → run.Matched w → result.timedOut = false

/-! ### Events on their way -/

/-- The stream is one of the bus's, and takes the session's events. -/
structure Listens (bus : BusState P) (stream : Nat) : Prop where
  listed : stream ∈ bus.inner.subscribers
  known : stream < bus.inner.nextSubscriber
  filter : (bus.queues stream).filter = EventsWait.filter w.params
  opened : (bus.queues stream).closed = false

/-- The event is of the kind, and of the session, that the call subscribes to. -/
def Wanted (event : Event P) : Prop :=
  event.name = sessionUpdated ∧ event.sessionId = some w.params.sessionId

theorem normalize_singleton (name : String) : Filter.normalize (some [name]) = some {name} := by
  simp [Filter.normalize, Option.filter]

theorem takes_wanted {w : WaitSetting P} {q : QueueState P} {event : Event P}
    (hfilter : q.filter = EventsWait.filter w.params) (hopen : q.closed = false)
    (h : Wanted w event) : q.takes event = true := by
  have hname : sessionUpdated ≠ eventsDropped := by decide
  simp [QueueState.takes, hopen, hfilter, Filter.admits, Filter.admitsKind,
    Filter.admitsSession, EventsWait.filter, Filter.new, normalize_singleton, h.1, h.2, hname]

section BusSteps

variable {w : WaitSetting P} {b b' : BusState P} {i : BusStep P} {stream : Nat} {event : Event P}

/-- What a queue that is pushed to still holds, if it did not have to give it up. -/
theorem mem_push {q : QueueState P} {pushed : Event P} (hmem : event ∈ q.queue)
    (hkept : q.capacity ≤ q.queue.length → q.queue.head? ≠ some event) :
    event ∈ (q.push pushed).queue := by
  unfold QueueState.push
  split
  · refine mem_append_left _ ?_
    unfold QueueState.makeRoom
    split
    · next hfull =>
      unfold QueueState.evict
      cases hq : q.queue with
      | nil => rwa [hq] at hmem ⊢
      | cons oldest rest =>
        rw [hq] at hmem
        have hne : oldest ≠ event := by
          intro heq
          exact hkept hfull (by rw [hq, heq]; rfl)
        exact (List.mem_cons.mp hmem).resolve_left fun heq => hne heq.symm
    split
    · exact mem_append_left _ hmem
    · exact hmem
  · exact hmem

theorem archive_keeps {bus : EventBus} {inner inner' : BusInner} {archived : Option Archived}
    (h : inner.archive bus archived = some inner') :
    inner'.subscribers = inner.subscribers ∧ inner'.nextSubscriber = inner.nextSubscriber := by
  cases archived with
  | none =>
    obtain ⟨⟩ := h
    exact ⟨rfl, rfl⟩
  | some archived =>
    obtain ⟨_, -, rfl⟩ := map_eq_some_iff.mp h
    exact ⟨rfl, rfl⟩

theorem Listens.congr (h : Listens w b stream)
    (hlisted : stream ∈ b.inner.subscribers → stream ∈ b'.inner.subscribers)
    (hknown : b.inner.nextSubscriber ≤ b'.inner.nextSubscriber)
    (hfixed : (b'.queues stream).fixed = (b.queues stream).fixed) : Listens w b' stream := by
  simp only [QueueState.fixed, Prod.mk.injEq] at hfixed
  exact ⟨hlisted h.listed, lt_of_lt_of_le h.known hknown, hfixed.1.trans h.filter,
    hfixed.2.2.trans h.opened⟩

theorem Listens.step (h : Listens w b stream) (hspares : i.Spares stream)
    (hstep : b.step w.bus w.json i = some b') : Listens w b' stream := by
  cases i with
  | publish name params sessionId =>
    obtain ⟨inner, harchive, rfl⟩ := map_eq_some_iff.mp hstep
    obtain ⟨hsubscribers, hnext⟩ := archive_keeps harchive
    exact h.congr (fun hlisted => hsubscribers ▸ hlisted) (le_of_eq hnext.symm) rfl
  | push k =>
    obtain ⟨⟨pushed, id⟩, -, rfl⟩ := map_eq_some_iff.mp hstep
    refine h.congr (fun hlisted => hlisted) le_rfl ?_
    by_cases hid : stream = id
    · subst hid
      show (Function.update b.queues stream _ stream).fixed = _
      rw [update_self]
      exact QueueState.push_fixed _ _
    · show (Function.update b.queues id _ stream).fixed = _
      rw [update_of_ne hid]
  | subscribe sinceSeq filter =>
    obtain ⟨⟩ := hstep
    refine h.congr (fun hlisted => mem_append_left _ hlisted) (Nat.le_succ _) ?_
    show (Function.update b.queues b.inner.nextSubscriber _ stream).fixed = _
    rw [update_of_ne (Nat.ne_of_lt h.known)]
  | receive id | close id =>
    obtain ⟨⟩ := hstep
    refine h.congr (fun hlisted => hlisted) le_rfl ?_
    show (Function.update b.queues id _ stream).fixed = _
    rw [update_of_ne (Ne.symm hspares)]
  | unsubscribe id =>
    obtain ⟨⟩ := hstep
    refine h.congr (fun hlisted => ?_) le_rfl rfl
    exact mem_filter.mpr ⟨hlisted, by simpa using Ne.symm hspares⟩

theorem unread_step {run : WaitRun P} (hlistens : Listens w run.bus stream)
    (hspares : i.Spares stream) (hstep : run.bus.step w.bus w.json i = some b')
    (hwanted : Wanted w event) (h : run.Unread stream event)
    (hkept : ∀ k, i = .push k → ∀ pushed ∈ run.bus.inFlight[k]?, pushed.2 = stream →
      (run.bus.queues stream).capacity ≤ (run.bus.queues stream).queue.length →
        (run.bus.queues stream).queue.head? ≠ some event) :
    (event, stream) ∈ b'.inFlight ∨ event ∈ (b'.queues stream).queue := by
  cases i with
  | publish name params sessionId =>
    obtain ⟨inner, -, rfl⟩ := map_eq_some_iff.mp hstep
    exact h.imp_left fun hflight => mem_append_left _ hflight
  | push k =>
    obtain ⟨⟨pushed, id⟩, hk, rfl⟩ := map_eq_some_iff.mp hstep
    show (event, stream) ∈ run.bus.inFlight.eraseIdx k ∨
      event ∈ (Function.update run.bus.queues id _ stream).queue
    by_cases hid : id = stream
    · subst hid
      rw [update_self]
      rcases h with hflight | hqueue
      · obtain ⟨j, hj⟩ := mem_iff_getElem?.mp hflight
        by_cases hjk : j = k
        · subst hjk
          rw [hk] at hj
          obtain ⟨rfl, -⟩ := Prod.mk.inj (some.inj hj)
          have htakes := takes_wanted hlistens.filter hlistens.opened hwanted
          refine .inr ?_
          rw [QueueState.push, if_pos htakes]
          exact mem_append_right _ (mem_singleton_self _)
        · exact .inl (mem_eraseIdx_iff_getElem?.mpr ⟨j, hjk, hj⟩)
      · exact .inr (mem_push hqueue (hkept k rfl _ hk rfl))
    rw [update_of_ne (Ne.symm hid)]
    refine h.imp_left fun hflight => ?_
    obtain ⟨j, hj⟩ := mem_iff_getElem?.mp hflight
    refine mem_eraseIdx_iff_getElem?.mpr ⟨j, ?_, hj⟩
    rintro rfl
    rw [hk] at hj
    exact hid (Prod.mk.inj (some.inj hj)).2
  | subscribe sinceSeq filter =>
    obtain ⟨⟩ := hstep
    refine h.imp_right fun hqueue => ?_
    show event ∈ (Function.update run.bus.queues run.bus.inner.nextSubscriber _ stream).queue
    rwa [update_of_ne (Nat.ne_of_lt hlistens.known)]
  | receive id | close id =>
    obtain ⟨⟩ := hstep
    refine h.imp_right fun hqueue => ?_
    show event ∈ (Function.update run.bus.queues id _ stream).queue
    rwa [update_of_ne (Ne.symm hspares)]
  | unsubscribe id =>
    obtain ⟨⟩ := hstep
    exact h

theorem dueNow_eq_nil {run : WaitRun P} (h : run.phase.stream? = none) : run.dueNow w i = [] := by
  cases i with
  | publish name params sessionId => simp [dueNow, h]
  | _ => rfl

theorem due_unread {run : WaitRun P} (hlistens : Listens w run.bus stream)
    (hstep : run.bus.step w.bus w.json i = some b') (h : event ∈ run.dueNow w i) :
    (event, stream) ∈ b'.inFlight ∧ Wanted w event := by
  cases i with
  | publish name params sessionId =>
    obtain ⟨inner, harchive, rfl⟩ := map_eq_some_iff.mp hstep
    obtain ⟨hsubscribers, -⟩ := archive_keeps harchive
    simp only [dueNow] at h
    cases hstream : run.phase.stream? with
    | none =>
      rw [hstream] at h
      cases h
    | some found =>
      rw [hstream] at h
      dsimp only at h
      split at h
      case isFalse => cases h
      next hdue =>
      rw [mem_singleton] at h
      subst h
      refine ⟨mem_append_right _ (mem_map.mpr ⟨stream, ?_, rfl⟩), hdue.2⟩
      rw [hsubscribers]
      exact hlistens.listed
  | _ => cases h

end BusSteps

/-! ### The invariant -/

/-- What the call does next is to answer that it has found a match. -/
def Found (run : WaitRun P) : Prop :=
  ∃ stream deadline latest, run.phase = .looking stream deadline latest ∧
    EventsWait.isMatch w.params latest = true

structure WaitInv (run : WaitRun P) : Prop where
  listens : ∀ stream deadline, run.phase.stream? = some (stream, deadline) →
    Listens w run.bus stream
  wanted : ∀ event ∈ run.due, Wanted w event
  early : run.phase = .start → run.due = [] ∧ run.first = none
  unseen : ∀ stream deadline, run.phase = .subscribed stream deadline → run.first = none
  first : ∀ pair, run.phase.stream? = some pair →
    (∃ record ∈ run.first, EventsWait.isMatch w.params record = true) → run.Found w
  due : ∀ stream deadline, run.phase.stream? = some (stream, deadline) →
    ∀ event ∈ run.due, Tells w event → run.Unread stream event ∨ run.Found w ∨
      ∃ latest, run.phase = .woken stream deadline latest event
  hears : run.Hears w

section Steps

variable {w : WaitSetting P} {run run' : WaitRun P}

theorem WaitInv.start (registry : Registry) (now : Nat) :
    WaitInv w { registry := registry, now := now } where
  listens := by intro _ _ h; cases h
  wanted := by intro _ h; cases h
  early := fun _ => ⟨rfl, rfl⟩
  unseen := by intro _ _ h; cases h
  first := by intro _ h; cases h
  due := by intro _ _ h; cases h
  hears := by intro _ h; cases h

theorem not_found (h : ∀ stream deadline latest, run.phase ≠ .looking stream deadline latest) :
    ¬run.Found w := by
  rintro ⟨stream, deadline, latest, hphase, -⟩
  exact h stream deadline latest hphase

theorem WaitInv.busStep (h : WaitInv w run) {i : BusStep P} {b' : BusState P}
    (hspares : ∀ stream deadline, run.phase.stream? = some (stream, deadline) → i.Spares stream)
    (hstep : run.bus.step w.bus w.json i = some b') (htimely : run.Timely w (.bus i)) :
    WaitInv w { run with bus := b', due := run.due ++ run.dueNow w i } where
  listens stream deadline hphase :=
    (h.listens stream deadline hphase).step (hspares stream deadline hphase) hstep
  wanted event hevent := by
    rcases List.mem_append.mp hevent with hold | hnew
    · exact h.wanted event hold
    cases hstream : run.phase.stream? with
    | none =>
      rw [dueNow_eq_nil hstream] at hnew
      cases hnew
    | some found => exact (due_unread (h.listens found.1 found.2 hstream) hstep hnew).2
  early hphase := by
    obtain ⟨hdue, hfirst⟩ := h.early hphase
    have hnone : run.dueNow w i = [] := dueNow_eq_nil (by rw [show run.phase = _ from hphase]; rfl)
    exact ⟨by rw [hdue, hnone]; rfl, hfirst⟩
  unseen := h.unseen
  first := h.first
  due stream deadline hphase event hevent htells := by
    have hlistens := h.listens stream deadline hphase
    rcases List.mem_append.mp hevent with hold | hnew
    · rcases h.due stream deadline hphase event hold htells with hunread | hrest
      · refine .inl (unread_step hlistens (hspares stream deadline hphase) hstep
          (h.wanted event hold) hunread ?_)
        rintro k rfl pushed hpushed rfl hfull hhead
        exact htimely pushed hpushed event hhead hfull htells (pushed.2, deadline) hphase rfl
      · exact .inr hrest
    · exact .inl (.inl (due_unread hlistens hstep hnew).1)
  hears := by
    intro result hphase hmatched
    have hnone : run.dueNow w i = [] := dueNow_eq_nil (by rw [show run.phase = _ from hphase]; rfl)
    refine h.hears result hphase ?_
    rcases hmatched with hfirst | ⟨event, hevent, htells⟩
    · exact .inl hfirst
    · rw [show run.due ++ run.dueNow w i = run.due by rw [hnone, append_nil]] at hevent
      exact .inr ⟨event, hevent, htells⟩

theorem WaitInv.replied (h : WaitInv w run) {b' : BusState P}
    {answer : Except WaitError EventsWaitResult}
    (hhears : ∀ result, answer = .ok result → run.Matched w → result.timedOut = false) :
    WaitInv w { run with bus := b', phase := .replied answer } where
  listens := by intro _ _ h; cases h
  wanted := h.wanted
  early := by intro h; cases h
  unseen := by intro _ _ h; cases h
  first := by intro _ h; cases h
  due := by intro _ _ h; cases h
  hears := by
    intro result hphase
    exact hhears result (WaitPhase.replied.inj hphase)

theorem WaitInv.subscribed (h : WaitInv w run) (hphase : run.phase = .start) (deadline : Nat) :
    WaitInv w { run with
      bus := run.bus.subscribe w.bus w.json none (EventsWait.filter w.params)
      phase := .subscribed run.bus.inner.nextSubscriber deadline } where
  listens stream _ hstream := by
    obtain ⟨rfl, -⟩ := Prod.mk.inj (Option.some.inj hstream)
    refine ⟨mem_append_right _ (mem_singleton_self _), Nat.lt_succ_self _, ?_, ?_⟩
    · show (Function.update run.bus.queues _ _ _).filter = _
      rw [update_self]
      rfl
    · show (Function.update run.bus.queues _ _ _).closed = _
      rw [update_self]
      rfl
  wanted := h.wanted
  early := by intro h; cases h
  unseen _ _ _ := (h.early hphase).2
  first := by
    rintro _ - ⟨record, hrecord, -⟩
    rw [show run.first = none from (h.early hphase).2] at hrecord
    cases hrecord
  due := by
    intro _ _ _ event hevent
    rw [show run.due = [] from (h.early hphase).1] at hevent
    cases hevent
  hears := by intro _ h; cases h

variable {stream deadline : Nat} {latest : SessionRecord}

section
variable (h : WaitInv w run)
include h

theorem WaitInv.reads (hphase : run.phase = .subscribed stream deadline) (record : SessionRecord) :
    WaitInv w { run with
      phase := .looking stream deadline record
      first := some record } where
  listens stream' deadline' hstream := by
    obtain ⟨rfl, rfl⟩ := Prod.mk.inj (Option.some.inj hstream)
    exact h.listens stream deadline (by rw [hphase]; rfl)
  wanted := h.wanted
  early := by intro h; cases h
  unseen := by intro _ _ h; cases h
  first := by
    rintro _ - ⟨found, hfound, hmatch⟩
    obtain ⟨⟩ := hfound
    exact ⟨stream, deadline, record, rfl, hmatch⟩
  due stream' deadline' hstream event hevent htells := by
    obtain ⟨rfl, rfl⟩ := Prod.mk.inj (Option.some.inj hstream)
    rcases h.due stream deadline (by rw [hphase]; rfl) event hevent htells with
      hunread | hfound | ⟨latest, hwoken⟩
    · exact .inl hunread
    · exact absurd hfound (not_found (by simp [hphase]))
    · rw [hphase] at hwoken
      cases hwoken
  hears := by intro _ h; cases h

theorem WaitInv.continues {phase : WaitPhase P} (hstream' : phase.stream? = some (stream, deadline))
    (hsubscribed : ∀ stream deadline, phase ≠ .subscribed stream deadline)
    (hfirst : ¬∃ record ∈ run.first, EventsWait.isMatch w.params record = true)
    {b' : BusState P} (hlistens : Listens w b' stream) (hdue : ∀ event ∈ run.due, Tells w event →
      ((event, stream) ∈ b'.inFlight ∨ event ∈ (b'.queues stream).queue) ∨
      (∃ latest, phase = .looking stream deadline latest ∧
        EventsWait.isMatch w.params latest = true) ∨
      ∃ latest, phase = .woken stream deadline latest event) :
    WaitInv w { run with bus := b', phase := phase } where
  listens stream'' deadline'' h'' := by
    obtain ⟨rfl, rfl⟩ := Prod.mk.inj (Option.some.inj (hstream'.symm.trans h''))
    exact hlistens
  wanted := h.wanted
  early h'' := by
    rw [show phase = .start from h''] at hstream'
    cases hstream'
  unseen _ _ h'' := absurd h'' (hsubscribed _ _)
  first _ _ hmatch := absurd hmatch hfirst
  due stream'' deadline'' h'' event hevent htells := by
    obtain ⟨rfl, rfl⟩ := Prod.mk.inj (Option.some.inj (hstream'.symm.trans h''))
    rcases hdue event hevent htells with hunread | ⟨latest, hlooking, hmatch⟩ | hwoken
    · exact .inl hunread
    · exact .inr (.inl ⟨stream, deadline, latest, hlooking, hmatch⟩)
    · exact .inr (.inr hwoken)
  hears _ h'' := by
    rw [show phase = .replied _ from h''] at hstream'
    cases hstream'

theorem WaitInv.waits (hstream : run.phase.stream? = some (stream, deadline))
    (hfound : ¬run.Found w) : (¬∃ record ∈ run.first, EventsWait.isMatch w.params record = true) ∧
      ∀ event ∈ run.due, Tells w event → run.Unread stream event ∨
        ∃ latest, run.phase = .woken stream deadline latest event := by
  refine ⟨fun hfirst => hfound (h.first _ hstream hfirst), fun event hevent htells => ?_⟩
  exact (h.due stream deadline hstream event hevent htells).imp_right fun hrest =>
    hrest.resolve_left hfound

theorem WaitInv.looks
    (hphase : run.phase = .looking stream deadline latest) (htimely : run.Timely w .call)
    (hstep : run.step w .call = some run') : WaitInv w run' := by
  have hstream : run.phase.stream? = some (stream, deadline) := by rw [hphase]; rfl
  obtain ⟨⟩ := hstep
  simp only [hphase]
  by_cases hmatch : EventsWait.isMatch w.params latest = true
  · rw [if_pos hmatch]
    refine h.replied ?_
    intro _ hanswer _
    cases hanswer
    rfl
  rw [if_neg hmatch]
  have hnot : ¬run.Found w := by
    rintro ⟨_, _, other, hother, hmatch'⟩
    rw [hphase] at hother
    cases hother
    exact hmatch hmatch'
  obtain ⟨hfirst, hdue⟩ := h.waits hstream hnot
  have hunread : ∀ event ∈ run.due, Tells w event → run.Unread stream event := by
    intro event hevent htells
    refine (hdue event hevent htells).resolve_right ?_
    rintro ⟨other, hwoken⟩
    rw [hphase] at hwoken
    cases hwoken
  by_cases hover : deadline < run.now
  · rw [if_pos hover]
    refine h.replied ?_
    rintro _ - (hread | ⟨event, hevent, htells⟩)
    · exact absurd hread hfirst
    · rw [Timely, hphase] at htimely
      exact absurd (hunread event hevent htells)
        (htimely (by simpa using hmatch) hover event hevent htells)
  rw [if_neg hover]
  refine h.continues rfl (by simp) hfirst (h.listens _ _ hstream) ?_
  exact fun event hevent htells => .inl (hunread event hevent htells)

theorem WaitInv.receives (hphase : run.phase = .receiving stream deadline latest)
    (hstep : run.step w .call = some run') : WaitInv w run' := by
  have hstream : run.phase.stream? = some (stream, deadline) := by rw [hphase]; rfl
  obtain ⟨hfirst, hdue⟩ := h.waits hstream (not_found (by simp [hphase]))
  have hlistens := h.listens _ _ hstream
  have hunread : ∀ event ∈ run.due, Tells w event → run.Unread stream event := by
    intro event hevent htells
    refine (hdue event hevent htells).resolve_right ?_
    rintro ⟨other, hwoken⟩
    rw [hphase] at hwoken
    cases hwoken
  obtain ⟨⟩ := hstep
  simp only [hphase, BusState.receive]
  cases hqueue : (run.bus.queues stream).queue with
  | nil =>
    have hnone : (run.bus.queues stream).tryRecv = (none, run.bus.queues stream) := by
      rw [QueueState.tryRecv, hqueue]
    simp only [hnone]
    split
    · refine h.continues rfl (by simp) hfirst hlistens ?_
      exact fun event hevent htells => .inl (hunread event hevent htells)
    · refine h.continues rfl (by simp) hfirst hlistens ?_
      exact fun event hevent htells => .inl (hunread event hevent htells)
  | cons front rest =>
    have hsome : (run.bus.queues stream).tryRecv =
        (some front, { run.bus.queues stream with queue := rest }) := by
      rw [QueueState.tryRecv, hqueue]
    simp only [hsome]
    refine h.continues rfl (by simp) hfirst (hlistens.congr (fun hlisted => hlisted) le_rfl ?_)
      fun event hevent htells => ?_
    · show (Function.update run.bus.queues stream _ stream).fixed = _
      rw [update_self]
      rfl
    show ((event, stream) ∈ run.bus.inFlight ∨
      event ∈ (Function.update run.bus.queues stream _ stream).queue) ∨ _
    rw [update_self]
    rcases hunread event hevent htells with hflight | hread
    · exact .inl (.inl hflight)
    rw [hqueue] at hread
    rcases mem_cons.mp hread with rfl | hrest
    · exact .inr (.inr ⟨latest, rfl⟩)
    · exact .inl (.inr hrest)

theorem WaitInv.wakes {event : Event P} (hphase : run.phase = .woken stream deadline latest event)
    (htimely : run.Timely w .call) (hstep : run.step w .call = some run') : WaitInv w run' := by
  have hstream : run.phase.stream? = some (stream, deadline) := by rw [hphase]; rfl
  obtain ⟨hfirst, hdue⟩ := h.waits hstream (not_found (by simp [hphase]))
  obtain ⟨⟩ := hstep
  simp only [hphase]
  refine h.continues rfl (by simp) hfirst (h.listens _ _ hstream) fun other hother htells => ?_
  rcases hdue other hother htells with hunread | ⟨latest', hwoken⟩
  · exact .inl hunread
  -- the record that is read now is still as this event said
  rw [hphase] at hwoken
  cases hwoken
  rw [Timely, hphase] at htimely
  obtain ⟨record, hrecord, hmatch⟩ := htimely htells
  refine .inr (.inl ⟨record, ?_, hmatch⟩)
  rw [show EventsWait.current w.chars w.resumes w.params run.registry = some record from hrecord]
  rfl

theorem WaitInv.call (htimely : run.Timely w .call)
    (hstep : run.step w .call = some run') : WaitInv w run' := by
  cases hphase : run.phase with
  | start =>
    obtain ⟨⟩ := hstep
    simp only [hphase]
    by_cases htargets : w.params.targets = []
    · simp only [if_pos htargets]
      refine h.replied ?_
      intro _ hanswer
      cases hanswer
    · simp only [if_neg htargets]
      exact h.subscribed hphase _
  | subscribed stream deadline =>
    obtain ⟨⟩ := hstep
    simp only [hphase]
    cases hcurrent : EventsWait.current w.chars w.resumes w.params run.registry with
    | none =>
      refine h.replied ?_
      intro _ hanswer
      cases hanswer
    | some record => exact h.reads hphase record
  | looking stream deadline latest => exact h.looks hphase htimely hstep
  | receiving stream deadline latest => exact h.receives hphase hstep
  | woken stream deadline latest event => exact h.wakes hphase htimely hstep
  | replied answer =>
    obtain ⟨⟩ := hstep
    simp only [hphase]
    refine h.replied fun result hanswer => ?_
    rw [hanswer] at hphase
    exact h.hears result hphase

theorem WaitInv.step {i : WaitStep P} (htimely : run.Timely w i)
    (hstep : run.step w i = some run') : WaitInv w run' := by
  cases i with
  | bus i =>
    simp only [WaitRun.step] at hstep
    split at hstep
    · next hguard =>
      obtain ⟨b', hb', rfl⟩ := map_eq_some_iff.mp hstep
      refine h.busStep (fun stream deadline hstream => ?_) hb' htimely
      simpa [hstream] using hguard
    · cases hstep
  | change registry | tick ms =>
    obtain ⟨⟩ := hstep
    exact ⟨h.listens, h.wanted, h.early, h.unseen, h.first, h.due, h.hears⟩
  | call => exact h.call htimely hstep

end

end Steps

/-- In every run whose steps are timely, a wait that was given a match, in the record it read
first or in an event published in its time, does not answer that it timed out. -/
theorem wait_hears (w : WaitSetting P) (registry : Registry) (now : Nat)
    (steps : List (WaitStep P)) (run : WaitRun P)
    (htimely : Meets (Timely w) (step w) { registry := registry, now := now } steps)
    (hrun : partialRun (step w) { registry := registry, now := now } steps = some run) :
    run.Hears w :=
  (htimely.invariant (fun _ _ _ h ht hs => WaitInv.step h ht hs) (WaitInv.start registry now)
    hrun).hears

/-! ### A match that is over again -/

def sampleSession (status : SessionStatus) : SessionRecord where
  id := "s1"
  kind := "codex"
  cwd := "/w"
  title := "one"
  titleSource := .placeholder
  status := status
  resumability := .live
  createdAt := ⟨0⟩
  updatedAt := ⟨0⟩

def sampleRegistry (status : SessionStatus) : Registry :=
  ({} : Registry).insertRecord (sampleSession status)

def sampleSetting : WaitSetting SessionRecord where
  bus := .new
  json := ⟨fun _ => some [], fun _ => none, sampleSession .unknown⟩
  chars := ⟨fun _ => false, fun _ => false, fun _ => false⟩
  resumes := fun _ _ => false
  params := ⟨"s1", ["idle"], 100⟩
  record := some

/-- The session changes, and the change is published and reaches the call's queue. -/
def sampleChange (status : SessionStatus) : List (WaitStep SessionRecord) :=
  [.change (sampleRegistry status),
    .bus (.publish sessionUpdated (sampleSession status) (some "s1")), .bus (.push 0)]

/-- The session is idle and then works again before the call reads its record. -/
def sampleBlink : List (WaitStep SessionRecord) :=
  List.replicate 3 .call ++ sampleChange .idle ++ sampleChange .working ++
    List.replicate 6 .call ++ [.tick 101] ++ List.replicate 2 .call

/-- Whether the call timed out, and whether an event in its time said what it waits for. -/
def sampleAnswer (steps : List (WaitStep SessionRecord)) : Option (Option Bool × Bool) :=
  (partialRun (step sampleSetting) { registry := sampleRegistry .working } steps).map fun run =>
    (match run.phase with
      | .replied (.ok result) => some result.timedOut
      | _ => none,
      run.due.any fun event => Tells sampleSetting event)

/-- The session was idle in the call's time and the idle event was received, and yet the call
answers that it timed out: it looked at the record that came after. -/
theorem blink_missed : sampleAnswer sampleBlink = some (some true, true) ∧
    ¬∀ (w : WaitSetting SessionRecord) registry now steps run,
      partialRun (step w) { registry := registry, now := now } steps = some run → run.Hears w := by
  have hanswer : sampleAnswer sampleBlink = some (some true, true) := by decide +kernel
  refine ⟨hanswer, fun hhears => ?_⟩
  obtain ⟨run, hrun, hpair⟩ := map_eq_some_iff.mp hanswer
  obtain ⟨hreply, hdue⟩ := Prod.mk.inj hpair
  have hmatched : run.Matched sampleSetting := by
    obtain ⟨event, hevent, htells⟩ := List.any_eq_true.mp hdue
    exact .inr ⟨event, hevent, of_decide_eq_true htells⟩
  cases hphase : run.phase with
  | replied reply =>
    rw [hphase] at hreply
    cases reply with
    | ok result =>
      have htrue := some.inj hreply
      rw [hhears sampleSetting _ _ sampleBlink run hrun result hphase hmatched] at htrue
      cases htrue
    | error e => cases hreply
  | _ =>
    rw [hphase] at hreply
    cases hreply

/-- The session is still idle when the call reads its record. -/
def sampleIdle : List (WaitStep SessionRecord) :=
  List.replicate 3 .call ++ sampleChange .idle ++ List.replicate 3 .call

theorem wait_hears_idle : sampleAnswer sampleIdle = some (some false, true) ∧
    ∀ run, partialRun (step sampleSetting) { registry := sampleRegistry .working, now := 0 }
      sampleIdle = some run → run.Hears sampleSetting := by
  refine ⟨by decide +kernel, fun run hrun => ?_⟩
  exact wait_hears sampleSetting (sampleRegistry .working) 0 sampleIdle run (by decide +kernel) hrun

end WaitRun

end Diri
