/-
Input crosses a hibernation whole and in order.

Input to a hibernated session is queued, and the wake that continues the session flushes
the queue.  So a session's child was sent, and has yet to be sent, what its callers were
told was sent, and an awake session has nothing queued (`InOrder`).  A wake takes the
queue before the write that may fail and drops the failure; as long as every wake that
has something to flush gets it written (`Flushes`), each step keeps that
(`Ordered.step`), and so does every run (`input_in_order`).
-/
import Diri.Proofs.Registry.Orphans

namespace Diri

open List

/-! ### What callers were told -/

/-- The call puts a session of its own under the id. -/
def RegistryCall.startsAt (id : SessionId) : RegistryCall → Bool
  | .spawn record _ => record.id = id
  | .adoptRemote other _ => other = id
  | .respawn other _ _ => other = id
  | _ => false

/-- What the call types into the session of the id. -/
def RegistryCall.types (id : SessionId) : RegistryCall → List UInt8
  | .writeInput other bytes _ => if other = id then bytes else []
  | _ => []

/-- Whatever session the id has after the step, it does not have it from before. -/
def RegistryStep.begins (id : SessionId) (step : RegistryStep) : Bool :=
  !decide (id ∈ step.before.sessions) || (step.input.startsAt id && step.output.result.isOk)

/-- What was typed into the session of the id since it began, where the call said that it was. -/
def typed (id : SessionId) : List RegistryStep → List UInt8
  | [] => []
  | step :: past =>
    if RegistryStep.begins id step then []
    else typed id past ++ if step.output.result.isOk then step.input.types id else []

variable {past : List RegistryStep}

theorem typed_begun {id : SessionId} {step : RegistryStep}
    (h : RegistryStep.begins id step = true) : typed id (step :: past) = [] := by
  rw [typed, if_pos h]

theorem typed_kept {id : SessionId} {step : RegistryStep}
    (hmem : id ∈ step.before.sessions) (hstarts : step.input.startsAt id = false)
    (htypes : step.input.types id = []) : typed id (step :: past) = typed id past := by
  simp [typed, RegistryStep.begins, hmem, hstarts, htypes]

theorem typed_failed {id : SessionId} {step : RegistryStep}
    (hmem : id ∈ step.before.sessions) (hfailed : step.output.result.isOk = false) :
    typed id (step :: past) = typed id past := by
  simp [typed, RegistryStep.begins, hmem, hfailed]

/-! ### One session -/

namespace LiveSession

/-- A session nothing was typed into yet. -/
structure Unused (session : LiveSession) : Prop where
  awake : session.hibernated = false
  queued : session.queuedInput = []
  delivered : session.delivered = []

/-- What was typed was sent to the child or is queued, and is queued only while hibernated. -/
structure InOrder (session : LiveSession) (typed : List UInt8) : Prop where
  whole : session.delivered ++ session.queuedInput = typed
  flushed : session.hibernated = false → session.queuedInput = []

variable {session : LiveSession} {typed : List UInt8}

theorem Unused.inOrder (h : session.Unused) : session.InOrder [] where
  whole := by rw [h.delivered, h.queued, append_nil]
  flushed _ := h.queued

section
variable (h : session.InOrder typed)
include h

theorem InOrder.observe (view : SessionView) :
    (session.observe view).InOrder typed := ⟨h.whole, h.flushed⟩

theorem InOrder.hibernate : (session.setHibernated true false).1.InOrder typed where
  whole := h.whole
  flushed hawake := by cases hawake

theorem InOrder.wake {written : Bool} (hwritten : session.queuedInput ≠ [] → written = true) :
    (session.setHibernated false written).1.InOrder typed := by
  simp only [setHibernated, Bool.false_eq_true, if_false]
  by_cases hempty : session.queuedInput = []
  · have hwhole := h.whole
    rw [hempty] at hwhole ⊢
    exact ⟨hwhole, fun _ => rfl⟩
  rw [if_neg (by simpa using hempty), hwritten hempty]
  simp only [writeRaw, Bool.false_eq_true, if_false, if_true]
  exact ⟨by simpa using h.whole, fun _ => rfl⟩

theorem InOrder.writeInput (bytes : List UInt8) (written : Bool) :
    (session.writeInput bytes written).1.InOrder
      (typed ++ if (session.writeInput bytes written).2.isOk then bytes else []) := by
  have hwhole := h.whole
  unfold LiveSession.writeInput
  by_cases hfrozen : session.hibernated = true
  · rw [if_pos hfrozen]
    refine ⟨?_, fun hawake => ?_⟩
    · rw [← hwhole]
      simp [Except.isOk, Except.toBool]
    · simp [hfrozen] at hawake
  rw [if_neg hfrozen]
  have hnone := h.flushed (by simpa using hfrozen)
  cases written with
  | true =>
    refine ⟨?_, fun _ => hnone⟩
    rw [← hwhole, hnone]
    simp [Except.isOk, Except.toBool]
  | false =>
    refine ⟨?_, fun _ => hnone⟩
    simpa [Except.isOk, Except.toBool] using hwhole

end

end LiveSession

/-! ### The sessions of a registry -/

namespace Registry

variable {chars : CharClass} {registry : Registry} {typed typed' : SessionId → List UInt8}
  {sessions : Table SessionId LiveSession}

/-- Every session has its input in order. -/
def Ordered (typed : SessionId → List UInt8) (sessions : Table SessionId LiveSession) : Prop :=
  sessions.All fun id session => session.InOrder (typed id)

section
variable (h : Ordered typed sessions)
include h

theorem Ordered.congr (htyped : ∀ id ∈ sessions, typed' id = typed id) :
    Ordered typed' sessions := by
  intro id session hsession
  rw [htyped id (Table.mem_of_lookup hsession)]
  exact h id session hsession

theorem Ordered.insert {id : SessionId} {session : LiveSession}
    (hothers : ∀ other ∈ sessions, other ≠ id → typed' other = typed other)
    (hnew : session.InOrder (typed' id)) : Ordered typed' (sessions.insert id session) := by
  intro other found hfound
  rcases Table.lookup_insert_cases hfound with ⟨rfl, rfl⟩ | ⟨hne, hold⟩
  · exact hnew
  · rw [hothers other (Table.mem_of_lookup hold) hne]
    exact h other found hold

theorem Ordered.hibernate (id : SessionId) :
    Ordered typed (sessions.adjust id fun session => (session.setHibernated true false).1) :=
  h.adjust fun session hsession => (h id session hsession).hibernate

theorem Ordered.wake {id : SessionId} {written : Bool}
    (hwritten : ∀ session, sessions.lookup id = some session → session.queuedInput ≠ [] →
      written = true) :
    Ordered typed (sessions.adjust id fun session => (session.setHibernated false written).1) :=
  h.adjust fun session hsession => (h id session hsession).wake (hwritten session hsession)

end

def BringsUnused : RegistryCall → Prop
  | .spawn _ (.ok session) => session.Unused
  | .adoptRemote _ (.ok session) => session.Unused
  | .respawn _ (.ok session) _ => session.Unused
  | .restore holders => ∀ holder ∈ holders, ∀ session, holder.2 = some session → session.Unused
  | _ => True

/-- A wake that continues a session gets what it has queued written. -/
def Flushes (registry : Registry) : RegistryCall → Prop
  | .wakeSession id (.ok _) written _ => ∀ session, registry.sessions.lookup id = some session →
      session.queuedInput ≠ [] → written = true
  | .ensureSessionAwake id (.ok _) written _ => ∀ session,
      registry.sessions.lookup id = some session → session.queuedInput ≠ [] → written = true
  | _ => True

theorem Ordered.adoptHolder (h : Ordered typed registry.sessions)
    (holder : SessionId × Option LiveSession)
    (hunused : ∀ session, holder.2 = some session → session.Unused)
    (hnew : holder.1 ∉ registry.sessions → typed holder.1 = []) :
    Ordered typed (registry.adoptHolder holder).sessions := by
  unfold Registry.adoptHolder
  split
  · next record session _ hnone hsession =>
    refine h.insert (fun _ _ _ => rfl) ?_
    rw [hnew (AList.lookup_eq_none.mp hnone)]
    have hbegun := (hunused session hsession).inOrder
    split
    · exact hbegun.hibernate
    · exact hbegun
  · exact h

theorem Ordered.adoptLiveHolders (h : Ordered typed registry.sessions)
    (holders : List (SessionId × Option LiveSession))
    (hunused : ∀ holder ∈ holders, ∀ session, holder.2 = some session → session.Unused)
    (hnew : ∀ id, id ∉ registry.sessions → typed id = []) :
    Ordered typed (registry.adoptLiveHolders holders).sessions := by
  unfold Registry.adoptLiveHolders
  induction holders generalizing registry with
  | nil => exact h
  | cons holder rest ih =>
    rw [foldl_cons]
    have hfirst := h.adoptHolder holder (hunused holder mem_cons_self) (hnew holder.1)
    refine ih hfirst (fun other hother => hunused other (mem_cons_of_mem _ hother)) ?_
    intro id hnot
    refine hnew id fun hmem => hnot ?_
    unfold Registry.adoptHolder
    split
    · exact mem_insert_of_mem id hmem
    · exact hmem

/-! ### Steps and runs -/

variable {past : List RegistryStep} {call : RegistryCall}

/-- Every session of a run's last registry has its input in order. -/
abbrev OrderedSince (past : List RegistryStep) (sessions : Table SessionId LiveSession) : Prop :=
  Ordered (fun id => Diri.typed id past) sessions

section
variable (h : OrderedSince past registry.sessions)
include h

theorem Ordered.kept (chars : CharClass)
    (call : RegistryCall) (hstarts : ∀ id, call.startsAt id = false)
    (htypes : ∀ id, call.types id = []) :
    OrderedSince (taken (RegistryCall.step chars) registry call :: past) registry.sessions :=
  h.congr fun id hmem => typed_kept hmem (hstarts id) (htypes id)

theorem Ordered.failed (hfailed : (RegistryCall.step chars registry call).2.result.isOk = false) :
    OrderedSince (taken (RegistryCall.step chars) registry call :: past) registry.sessions :=
  h.congr fun _ hmem => typed_failed hmem hfailed

theorem Ordered.started {id : SessionId} {session : LiveSession} (hunused : session.Unused)
    (hstarts : ∀ other, call.startsAt other = decide (id = other))
    (htypes : ∀ other, call.types other = [])
    (hok : (RegistryCall.step chars registry call).2.result.isOk = true) :
    OrderedSince (taken (RegistryCall.step chars) registry call :: past)
      (registry.sessions.insert id session) := by
  refine h.insert (fun other hmem hne => ?_) ?_
  · refine typed_kept hmem ?_ (htypes other)
    simpa [taken, hstarts] using fun heq => hne heq.symm
  rw [typed_begun]
  · exact hunused.inOrder
  · simp [RegistryStep.begins, taken, hstarts, hok]

end

section
variable (h : Ordered typed registry.sessions)
include h

theorem Ordered.terminate (id : SessionId)
    (result : Except IoError Exit) : Ordered typed (registry.terminate id result).1.sessions := by
  rcases registry.terminate_cases id result with ⟨-, hsame⟩ | ⟨-, -, hfailed⟩ | ⟨-, exit, -, hended⟩
  · rw [hsame]
    exact h
  · rw [hfailed]
    exact h.erase id
  · rw [hended]
    exact h.erase id

theorem Ordered.ensureSessionAwake {id : SessionId}
    {continued : Except IoError Unit} {written : Bool} (now : DateMillis)
    (hflushes : registry.Flushes (.ensureSessionAwake id continued written now)) :
    Ordered typed (registry.ensureSessionAwake id continued written now).1.sessions := by
  have hwake : ∀ {registry : Registry} (known : Bool),
      (if known then registry.setHibernation id none now else registry).sessions
        = registry.sessions := by
    intro registry known
    cases known <;> rfl
  simp only [Registry.ensureSessionAwake]
  split
  · rw [hwake]
    exact h
  cases continued with
  | error error => exact h
  | ok _ =>
    rw [hwake]
    exact h.wake hflushes

theorem Ordered.wakeSession {id : SessionId}
    {continued : Except IoError Unit} {written : Bool} (now : DateMillis)
    (hflushes : registry.Flushes (.wakeSession id continued written now)) :
    Ordered typed (registry.wakeSession id continued written now).1.sessions := by
  unfold Registry.wakeSession
  split
  · refine h.ensureSessionAwake now ?_
    cases continued with
    | error error => trivial
    | ok _ => exact hflushes
  · exact h

theorem Ordered.remove (id : SessionId)
    (result : Except IoError Exit) : Ordered typed (registry.remove id result).1.sessions := by
  have hended := h.terminate id result
  simp only [Registry.remove]
  split
  · exact hended
  · exact hended.erase id

theorem Ordered.archive (id : SessionId) (result : Except IoError Exit) (now : DateMillis) :
    Ordered typed (registry.archive id result now).1.sessions := by
  unfold Registry.archive
  split
  · exact h
  · exact h.terminate id result

end

theorem Ordered.writeInput (h : OrderedSince past registry.sessions) {id : SessionId}
    (bytes : List UInt8) (written : Bool) :
    OrderedSince (taken (RegistryCall.step chars) registry (.writeInput id bytes written) :: past)
      (registry.writeInput id bytes written).1.sessions := by
  cases hsession : registry.sessions.lookup id with
  | none =>
    have hfailed : registry.writeInput id bytes written = (registry, .error (notFound id)) := by
      simp only [Registry.writeInput, hsession]
    rw [hfailed]
    refine h.failed ?_
    simp only [RegistryCall.step, hfailed]
    rfl
  | some session =>
    have hwrote : registry.writeInput id bytes written
        = ({ registry with
              sessions := registry.sessions.adjust id fun session =>
                (session.writeInput bytes written).1 },
            (session.writeInput bytes written).2) := by
      simp only [Registry.writeInput, hsession]
    rw [hwrote]
    intro other found hfound
    rcases Table.lookup_adjust hfound with ⟨hne, hold⟩ | ⟨rfl, old, hold, rfl⟩
    · simp only []
      rw [typed_kept (Table.mem_of_lookup hold) rfl]
      · exact h other found hold
      · simp [taken, RegistryCall.types, hne.symm]
    obtain rfl : session = old := Option.some.inj (hsession.symm.trans hold)
    have hmem : other ∈ registry.sessions := Table.mem_of_lookup hold
    have hresult : (RegistryCall.step chars registry
        (.writeInput other bytes written)).2.result.isOk
          = (session.writeInput bytes written).2.isOk := by
      simp only [RegistryCall.step, RegistryCall.reply, hwrote]
      cases (session.writeInput bytes written).2 <;> rfl
    have htyped : Diri.typed other
        (taken (RegistryCall.step chars) registry (.writeInput other bytes written) :: past)
          = Diri.typed other past
            ++ if (session.writeInput bytes written).2.isOk then bytes else [] := by
      simp [Diri.typed, RegistryStep.begins, taken, hmem, RegistryCall.startsAt,
        RegistryCall.types, hresult]
    simp only [htyped]
    exact (h other session hold).writeInput bytes written

/-- Every call keeps the input of every session in order, if each wake flushes. -/
theorem Ordered.step (h : OrderedSince past registry.sessions) (hunused : BringsUnused call)
    (hflushes : registry.Flushes call) :
    OrderedSince (taken (RegistryCall.step chars) registry call :: past)
      (RegistryCall.step chars registry call).1.sessions := by
  have hkept := fun hstarts htypes => h.kept chars call hstarts htypes
  cases call with
  | spawn record spawned =>
    cases spawned with
    | error error => exact h.failed rfl
    | ok session => exact h.started hunused (fun _ => rfl) (fun _ => rfl) rfl
  | adoptRemote id adopted =>
    rcases registry.adoptRemote_cases id adopted with ⟨error, hfailed⟩ | ⟨session, rfl, hadopted⟩
    · simp only [RegistryCall.step, hfailed]
      refine h.failed ?_
      simp only [RegistryCall.step, hfailed]
      rfl
    simp only [RegistryCall.step, hadopted]
    refine h.started hunused (fun _ => rfl) (fun _ => rfl) ?_
    simp only [RegistryCall.step, hadopted]
    rfl
  | respawn id spawned now =>
    rcases registry.respawn_cases id spawned now with ⟨error, hfailed⟩ | ⟨session, rfl, hstarted⟩
    · simp only [RegistryCall.step, hfailed]
      refine h.failed ?_
      simp only [RegistryCall.step, hfailed]
      rfl
    simp only [RegistryCall.step, hstarted]
    refine h.started hunused (fun _ => rfl) (fun _ => rfl) ?_
    simp only [RegistryCall.step, hstarted]
    rfl
  | restore holders =>
    refine (hkept (fun _ => rfl) fun _ => rfl).adoptLiveHolders holders hunused ?_
    intro id hnot
    refine typed_begun ?_
    simp [RegistryStep.begins, taken, hnot]
  | terminate id result => exact (hkept (fun _ => rfl) fun _ => rfl).terminate id result
  | remove id result => exact (hkept (fun _ => rfl) fun _ => rfl).remove id result
  | reopenLastClosed folderExists =>
    simp only [RegistryCall.step, sessions_reopenLastClosed]
    exact hkept (fun _ => rfl) fun _ => rfl
  | archive id result now => exact (hkept (fun _ => rfl) fun _ => rfl).archive id result now
  | unarchive id now =>
    have hquiet := hkept (fun _ => rfl) fun _ => rfl
    rcases registry.unarchive_cases id now with ⟨result, hsame⟩ | hlisted
    · simp only [RegistryCall.step, RegistryCall.reply, hsame]
      exact hquiet
    · simp only [RegistryCall.step, RegistryCall.reply, hlisted]
      exact hquiet
  | changedSince published now => exact hkept (fun _ => rfl) fun _ => rfl
  | hibernate id reason stopped now =>
    have hquiet := hkept (fun _ => rfl) fun _ => rfl
    rcases registry.hibernate_cases id reason stopped now with
      ⟨error, hfailed⟩ | ⟨info, hstopped⟩
    · simp only [RegistryCall.step, RegistryCall.reply, hfailed]
      exact hquiet
    · simp only [RegistryCall.step, RegistryCall.reply, hstopped]
      exact hquiet.hibernate id
  | wakeSession id continued written now =>
    exact (hkept (fun _ => rfl) fun _ => rfl).wakeSession now hflushes
  | ensureSessionAwake id continued written now =>
    exact (hkept (fun _ => rfl) fun _ => rfl).ensureSessionAwake now hflushes
  | writeInput id bytes written => exact h.writeInput bytes written
  | observe id view =>
    have hquiet := hkept (fun _ => rfl) fun _ => rfl
    exact hquiet.adjust fun session hsession => (hquiet id session hsession).observe view

end Registry

/-- The sessions of a run that flushes at every wake have their input in order. -/
theorem RegistryStep.ordered (chars : CharClass) (records : List SessionRecord)
    (calls : List RegistryCall) : (∀ call ∈ calls, Registry.BringsUnused call) →
    (∀ step ∈ (run (RegistryCall.step chars) (.loaded records) calls).2,
      step.before.Flushes step.input) →
    Registry.OrderedSince (run (RegistryCall.step chars) (.loaded records) calls).2
      (run (RegistryCall.step chars) (.loaded records) calls).1.sessions := by
  induction calls using List.reverseRecOn with
  | nil =>
    intro _ _
    simp only [run_nil]
    rw [Registry.loaded_sessions]
    exact .empty
  | append_singleton calls call ih =>
    rw [run_concat]
    intro hunused hflushes
    have hbefore := ih (fun other hother => hunused other (mem_append_left _ hother))
      fun step hstep => hflushes step (mem_cons_of_mem _ hstep)
    exact hbefore.step (hunused call (by simp)) (hflushes _ mem_cons_self)

/--
**Input crosses a hibernation whole and in order**, whatever calls are made: as long as
every wake that has something to flush gets it written.  What a session's child was sent,
then what is queued for it, is what was typed into the session and accepted; and nothing
is queued for a session that is awake.
-/
theorem input_in_order (chars : CharClass) (records : List SessionRecord)
    (calls : List RegistryCall) (hunused : ∀ call ∈ calls, Registry.BringsUnused call)
    (hflushes : ∀ step ∈ (run (RegistryCall.step chars) (.loaded records) calls).2,
      step.before.Flushes step.input) (id : SessionId) (session : LiveSession)
    (hsession : (run (RegistryCall.step chars) (.loaded records) calls).1.sessions.lookup id
      = some session) : session.delivered ++ session.queuedInput
        = typed id (run (RegistryCall.step chars) (.loaded records) calls).2 ∧
      (session.hibernated = false → session.queuedInput = [] ∧
          session.delivered = typed id (run (RegistryCall.step chars) (.loaded records) calls).2) := by
  obtain ⟨hwhole, hflushed⟩ :=
    RegistryStep.ordered chars records calls hunused hflushes id session hsession
  refine ⟨hwhole, fun hawake => ⟨hflushed hawake, ?_⟩⟩
  rw [hflushed hawake, append_nil] at hwhole
  exact hwhole

/-! ### A wake that cannot write -/

/-- What is typed while the session is hibernated is flushed by the wake. -/
theorem input_in_order_woken : ∃ session, (run (RegistryCall.step asciiChars) (.loaded [])
        [.spawn workingRecord (.ok workingSession), .hibernate "s_1" .manual (.ok []) ⟨1⟩,
          .writeInput "s_1" [120] true, .wakeSession "s_1" (.ok ()) true ⟨2⟩]).1.sessions.lookup
            "s_1" = some session ∧ session.delivered = [120] ∧
      session.delivered = typed "s_1" (run (RegistryCall.step asciiChars) (.loaded [])
        [.spawn workingRecord (.ok workingSession), .hibernate "s_1" .manual (.ok []) ⟨1⟩,
          .writeInput "s_1" [120] true, .wakeSession "s_1" (.ok ()) true ⟨2⟩]).2 := by
  refine ⟨{ workingSession with delivered := [120] }, by decide +kernel, rfl, ?_⟩
  refine ((input_in_order _ _ _ ?_ ?_ "s_1" _ (by decide +kernel)).2 rfl).2
  · simp only [mem_cons, not_mem_nil, or_false]
    rintro call (rfl | rfl | rfl | rfl)
    · exact ⟨rfl, rfl, rfl⟩
    · trivial
    · trivial
    · trivial
  intro step hstep
  simp only [run, advance, foldl_cons, foldl_nil, mem_cons, not_mem_nil, or_false] at hstep
  rcases hstep with rfl | rfl | rfl | rfl
  · exact fun _ _ _ => rfl
  · trivial
  · trivial
  · trivial

/-- The wake continues the session, and the write of its queue is lost. -/
theorem input_lost : ∃ session, (run (RegistryCall.step asciiChars) (.loaded [])
        [.spawn workingRecord (.ok workingSession), .hibernate "s_1" .manual (.ok []) ⟨1⟩,
          .writeInput "s_1" [120] true, .wakeSession "s_1" (.ok ()) false ⟨2⟩]).1.sessions.lookup
            "s_1" = some session ∧ session.hibernated = false ∧ session.delivered = [] ∧
      typed "s_1" (run (RegistryCall.step asciiChars) (.loaded [])
        [.spawn workingRecord (.ok workingSession), .hibernate "s_1" .manual (.ok []) ⟨1⟩,
          .writeInput "s_1" [120] true, .wakeSession "s_1" (.ok ()) false ⟨2⟩]).2 = [120] := by
  refine ⟨workingSession, ?_⟩
  decide +kernel

end Diri
