/-
The holder manager exits only when it hosts no session.

Once it has decided to stop, `active` is empty and no launch is being accepted (`Settled`):
that is what the exit needs.  Four steps can break it.  A launch may find the manager not
shutting down, or its session alive, after the watchdog has found the grace period over;
the watchdog may find it over between a launch's own test and its answer; and `accept` may
fail while sessions are hosted.  `Allows` leaves these out, and nothing else.
-/
import Diri.Lib.Run
import Diri.Engine.HolderManager

namespace Diri

open Option Finset

namespace ServeStage

/-- A launch has passed its test, or is to be answered with success. -/
def Admitting : ServeStage → Prop
  | .inserting _ | .inserted _ | .spawning _ => True
  | .answering op response => op = some .launch ∧ response.ok = true
  | _ => False

/-- The accept loop takes no further client. -/
def Over : ServeStage → Prop
  | .leaving _ | .joining _ | .returned _ => True
  | _ => False

/-- The loop is over, or on its way to stop. -/
def Stops : ServeStage → Prop
  | .stopping _ | .closing _ _ | .leaving _ | .joining _ | .returned _ => True
  | _ => False

/-- A session is in `active` although the manager may still count as idle. -/
def Inserted : ServeStage → Prop
  | .inserted _ => True
  | _ => False

/-- The session that is in `active` and has no thread yet. -/
def launching : ServeStage → Option String
  | .inserted spec | .spawning spec => some spec.sessionId
  | _ => none

instance (stage : ServeStage) : Decidable stage.Admitting := by
  unfold Admitting
  split <;> infer_instance

instance (stage : ServeStage) : Decidable stage.Over := by
  unfold Over
  split <;> infer_instance

theorem Over.stops {stage : ServeStage} (h : stage.Over) : stage.Stops := by
  cases stage with
  | leaving _ | joining _ | returned _ => trivial
  | _ => exact h.elim

theorem Inserted.admitting {stage : ServeStage} (h : stage.Inserted) : stage.Admitting := by
  cases stage with
  | inserted _ => trivial
  | _ => exact h.elim

end ServeStage

namespace HolderManager

variable {server : HolderManagerServer}

/-- The watchdog has found the grace period over, and stops the listener. -/
def WatchDecided (s : HolderManager) : Prop :=
  match s.watching with
  | .stopping _ => True
  | _ => False

/-- The manager is going to exit. -/
def Decided (s : HolderManager) : Prop := s.shuttingDown = true ∨ s.WatchDecided

instance (s : HolderManager) : Decidable s.WatchDecided := by
  unfold WatchDecided
  split <;> infer_instance

instance (s : HolderManager) : Decidable s.Decided := inferInstanceAs (Decidable (_ ∨ _))

/-! ### The condition -/

/-- A launch is admitted only where nothing has been decided, the grace period is not found
over while one is admitted, and `accept` fails by itself only where no session is hosted. -/
def Allows (server : HolderManagerServer) (s : HolderManager) (event : HolderManagerEvent) : Prop :=
  match event, s.serving with
  | .probes alive, _ => alive = true → ¬s.Decided
  | .serves, .testing _ => s.shuttingDown = false → ¬s.WatchDecided
  | .serves, .failed _ => s.shuttingDown = false → s.active = ∅
  | .watches, stage => s.watching = .testingIdle → s.expired server = true → ¬stage.Admitting
  | _, _ => True

instance (s : HolderManager) (event : HolderManagerEvent) : Decidable (s.Allows server event) := by
  unfold Allows
  split <;> infer_instance

/-! ### What is kept -/

structure Settled (s : HolderManager) : Prop where
  hosted : s.threads ⊆ s.active
  launching : ∀ sessionId, s.serving.launching = some sessionId →
    sessionId ∈ s.active ∧ sessionId ∉ s.threads
  /-- It counts as idle only where nothing is hosted, or a launch is about to end that. -/
  idle : s.idleSince.isSome = true → s.active = ∅ ∨ s.serving.Inserted
  decided : s.Decided → s.active = ∅ ∧ ¬s.serving.Admitting
  stops : s.serving.Stops → s.active = ∅

theorem settled_initial (now : Nat) : (initial now).Settled := by
  refine ⟨Finset.Subset.refl _, (fun _ h => nomatch h), fun _ => .inl rfl, ?_, fun _ => rfl⟩
  rintro (h | h)
  · cases h
  · exact h.elim

/-! ### Changes of one field -/

theorem Settled.serving_to {s : HolderManager} {stage : ServeStage} (h : s.Settled)
    (hserving : ¬s.serving.Inserted) (hlaunching : stage.launching = none)
    (hadmits : stage.Admitting → ¬s.Decided) (hstops : stage.Stops → s.active = ∅) :
    Settled { s with serving := stage } := by
  refine ⟨h.hosted, fun _ hin => by simp [hlaunching] at hin, fun hidle => ?_, fun hdecided => ?_,
    hstops⟩
  · exact .inl ((h.idle hidle).resolve_right hserving)
  · exact ⟨(h.decided hdecided).1, fun hstage => hadmits hstage hdecided⟩

theorem Settled.watching_to {s : HolderManager} {stage : WatchStage} (h : s.Settled)
    (hstage : ∀ stop, stage = .stopping stop → s.active = ∅ ∧ ¬s.serving.Admitting) :
    Settled { s with watching := stage } := by
  refine ⟨h.hosted, h.launching, h.idle, ?_, h.stops⟩
  rintro (hflag | hwatch)
  · exact h.decided (.inl hflag)
  · cases stage with
    | stopping stop => exact hstage stop rfl
    | _ => exact hwatch.elim

theorem Settled.stopListener {s : HolderManager} (h : s.Settled) (hactive : s.active = ∅)
    (hadmits : ¬s.serving.Admitting) (stage : StopStage) :
    (s.stopListener stage).1.Settled ∧ (s.stopListener stage).1.active = ∅ ∧
      (s.stopListener stage).1.serving = s.serving := by
  cases stage with
  | flag =>
    by_cases hflag : s.shuttingDown = true
    · simp only [HolderManager.stopListener, hflag, if_true]
      exact ⟨h, hactive, trivial⟩
    · simp only [HolderManager.stopListener, hflag, Bool.false_eq_true, if_false]
      exact ⟨⟨h.hosted, h.launching, h.idle, fun _ => ⟨hactive, hadmits⟩, h.stops⟩, hactive, trivial⟩
  | fd | close => exact ⟨⟨h.hosted, h.launching, h.idle, h.decided, h.stops⟩, hactive, rfl⟩

/-- The loop goes from one step of `stop_listener` to the next, or on from the last one. -/
theorem Settled.stopping {s : HolderManager} (h : s.Settled) (hstops : s.serving.Stops)
    (stage : StopStage) (next : Option StopStage → ServeStage)
    (hlaunching : ∀ stage, (next stage).launching = none)
    (hnext : ∀ stage, ¬(next stage).Admitting) :
    Settled { (s.stopListener stage).1 with serving := next (s.stopListener stage).2 } := by
  have hactive := h.stops hstops
  have hserving : ¬s.serving.Inserted ∧ ¬s.serving.Admitting := by
    cases hs : s.serving <;> simp_all [ServeStage.Stops, ServeStage.Inserted, ServeStage.Admitting]
  obtain ⟨hsettled, hactive', hserving'⟩ := h.stopListener hactive hserving.2 stage
  refine hsettled.serving_to ?_ (hlaunching _) (fun hadmits => absurd hadmits (hnext _)) fun _ => hactive'
  rw [hserving']
  exact hserving.1

/-! ### The steps of the accept loop -/

theorem handle_quiet (server : HolderManagerServer) (request : HolderManagerRequest) :
    (handle server request).launching = none ∧ ¬(handle server request).Admitting ∧
      ¬(handle server request).Stops := by
  unfold handle
  split
  · exact ⟨rfl, fun h => Bool.noConfusion h.2, id⟩
  split
  · exact ⟨rfl, id, id⟩
  · split
    · exact ⟨rfl, fun h => Bool.noConfusion h.2, id⟩
    · split
      · exact ⟨rfl, fun h => Bool.noConfusion h.2, id⟩
      · exact ⟨rfl, id, id⟩
  · exact ⟨rfl, id, id⟩

theorem Settled.serve {s s' : HolderManager} (h : s.Settled) (hallows : s.Allows server .serves)
    (hserve : s.serve server = some s') : s'.Settled := by
  unfold HolderManager.serve at hserve
  cases hstage : s.serving with
  | pinging =>
    simp only [hstage, some.injEq] at hserve
    subst hserve
    refine ⟨h.hosted, (fun _ hin => nomatch hin), fun hidle => .inl ?_, fun hdecided => ?_, False.elim⟩
    · have hbefore : s.idleSince.isSome = true := by
        by_contra hnone
        simp [hnone] at hidle
      exact (h.idle hbefore).resolve_right (by simp [hstage, ServeStage.Inserted])
    · exact ⟨(h.decided hdecided).1, fun hping => by simp [ServeStage.Admitting] at hping⟩
  | testing spec =>
    have hserving : ¬s.serving.Inserted := by simp [hstage, ServeStage.Inserted]
    simp only [hstage] at hserve
    split at hserve
    · obtain ⟨⟩ := hserve
      exact h.serving_to hserving rfl (fun hadmits => Bool.noConfusion hadmits.2) False.elim
    obtain ⟨⟩ := hserve
    have hflag : s.shuttingDown = false := by simpa using ‹¬s.shuttingDown = true›
    have hwatch : ¬s.WatchDecided := by
      simp only [Allows, hstage] at hallows
      exact hallows hflag
    refine h.serving_to hserving rfl (fun _ hdecided => ?_) False.elim
    rcases hdecided with hdown | hdecided
    · simp [hflag] at hdown
    · exact hwatch hdecided
  | inserting spec =>
    have hserving : ¬s.serving.Inserted := by simp [hstage, ServeStage.Inserted]
    have hundecided : ¬s.Decided := fun hdecided =>
      (h.decided hdecided).2 (by simp [hstage, ServeStage.Admitting])
    simp only [hstage] at hserve
    split at hserve
    · cases hserve
    split at hserve
    · obtain ⟨⟩ := hserve
      exact h.serving_to hserving rfl (fun _ => hundecided) False.elim
    obtain ⟨⟩ := hserve
    refine ⟨h.hosted.trans (subset_insert _ _), ?_, fun _ => .inr trivial,
      fun hdecided => absurd hdecided hundecided, False.elim⟩
    intro sessionId hin
    obtain ⟨⟩ := hin
    exact ⟨mem_insert_self _ _, fun hthread => ‹_ ∉ s.active› (h.hosted hthread)⟩
  | inserted spec =>
    have hundecided : ¬s.Decided := fun hdecided =>
      (h.decided hdecided).2 (by simp [hstage, ServeStage.Admitting])
    simp only [hstage, some.injEq] at hserve
    subst hserve
    refine ⟨h.hosted, fun sessionId hin => h.launching sessionId (hstage ▸ hin), fun hidle => ?_,
      fun hdecided => absurd hdecided hundecided, False.elim⟩
    cases hidle
  | testingActive =>
    have hserving : ¬s.serving.Inserted := by simp [hstage, ServeStage.Inserted]
    simp only [hstage] at hserve
    split at hserve
    · cases hserve
    split at hserve
    · obtain ⟨⟩ := hserve
      exact h.serving_to hserving rfl False.elim fun _ => ‹s.active = ∅›
    · obtain ⟨⟩ := hserve
      exact h.serving_to hserving rfl (fun hadmits => Bool.noConfusion hadmits.2) False.elim
  | stopping stage =>
    have hnext := h.stopping (by simp [hstage, ServeStage.Stops]) stage (fun next => next.elim
        (.answering (some .shutdownIfIdle) (.success server.processId)) .stopping)
      (by rintro (_ | stop) <;> rfl) (by rintro (_ | stop) <;> simp [ServeStage.Admitting])
    simp only [hstage] at hserve
    split at hserve <;> rename_i heq <;> obtain ⟨⟩ := hserve
    · simpa [heq] using hnext
    · simpa [heq] using hnext
  | answering op response =>
    simp only [hstage, some.injEq] at hserve
    subst hserve
    exact h.serving_to (by simp [hstage, ServeStage.Inserted]) rfl False.elim False.elim
  | failed error =>
    have hserving : ¬s.serving.Inserted := by simp [hstage, ServeStage.Inserted]
    have hactive : s.active = ∅ := by
      by_cases hflag : s.shuttingDown = true
      · exact (h.decided (.inl hflag)).1
      · simp only [Allows, hstage] at hallows
        exact hallows (by simpa using hflag)
    simp only [hstage, some.injEq] at hserve
    subst hserve
    refine h.serving_to hserving ?_ ?_ fun _ => hactive
    · split <;> rfl
    split
    · exact False.elim
    · exact False.elim
  | closing error stage =>
    have hnext := h.stopping (by simp [hstage, ServeStage.Stops]) stage
      (fun next => next.elim (.leaving (.error error)) (.closing error))
      (by rintro (_ | stop) <;> rfl) (by rintro (_ | stop) <;> simp [ServeStage.Admitting])
    simp only [hstage] at hserve
    split at hserve <;> rename_i heq <;> obtain ⟨⟩ := hserve
    · simpa [heq] using hnext
    · simpa [heq] using hnext
  | leaving result =>
    have hactive : s.active = ∅ := h.stops (by simp [hstage, ServeStage.Stops])
    simp only [hstage, some.injEq] at hserve
    subst hserve
    exact ⟨h.hosted, (fun _ hin => nomatch hin), fun _ => .inl hactive, fun _ => ⟨hactive, id⟩,
      fun _ => hactive⟩
  | joining result =>
    have hactive : s.active = ∅ := h.stops (by simp [hstage, ServeStage.Stops])
    simp only [hstage] at hserve
    split at hserve <;> obtain ⟨⟩ := hserve
    exact h.serving_to (by simp [hstage, ServeStage.Inserted]) rfl False.elim fun _ => hactive
  | accepting | reading | probing _ | spawning _ | returned _ => simp [hstage] at hserve

/-! ### The steps of the watchdog -/

theorem Settled.watch {s s' : HolderManager} (h : s.Settled) (hallows : s.Allows server .watches)
    (hwatch : s.watch server = some s') : s'.Settled := by
  unfold HolderManager.watch at hwatch
  cases hstage : s.watching with
  | sleeping =>
    simp only [hstage, some.injEq] at hwatch
    subst hwatch
    exact h.watching_to fun _ hstop => by cases hstop
  | testing =>
    simp only [hstage, some.injEq] at hwatch
    subst hwatch
    refine h.watching_to fun _ hstop => ?_
    split at hstop <;> cases hstop
  | testingIdle =>
    simp only [hstage, some.injEq] at hwatch
    subst hwatch
    refine h.watching_to fun _ hstop => ?_
    split at hstop
    · rename_i hexpired
      have hadmits : ¬s.serving.Admitting := hallows hstage hexpired
      have hidle : s.idleSince.isSome = true := by
        cases hsince : s.idleSince with
        | none => simp [expired, hsince] at hexpired
        | some since => rfl
      exact ⟨(h.idle hidle).resolve_right fun hins => hadmits hins.admitting, hadmits⟩
    · cases hstop
  | stopping stage =>
    obtain ⟨hactive, hadmits⟩ := h.decided (.inr (by simp [WatchDecided, hstage]))
    obtain ⟨hsettled, hactive', hserving'⟩ := h.stopListener hactive hadmits stage
    simp only [hstage] at hwatch
    split at hwatch <;> rename_i heq <;> obtain rfl := some.inj hwatch <;>
      rw [heq] at hsettled hactive' hserving'
    · exact hsettled.watching_to fun _ _ => ⟨hactive', hserving' ▸ hadmits⟩
    · exact hsettled.watching_to fun _ hstop => by cases hstop
  | returned => simp [hstage] at hwatch

/-! ### Every step -/

theorem Settled.step {s s' : HolderManager} {event : HolderManagerEvent} (h : s.Settled)
    (hallows : s.Allows server event) (hstep : s.step server event = some s') : s'.Settled := by
  cases event with
  | elapses time =>
    obtain ⟨⟩ := hstep
    exact ⟨h.hosted, h.launching, h.idle, h.decided, h.stops⟩
  | accepts =>
    cases hstage : s.serving with
    | accepting =>
      simp only [HolderManager.step, hstage] at hstep
      split at hstep <;> obtain ⟨⟩ := hstep
      exact h.serving_to (by simp [hstage, ServeStage.Inserted]) rfl False.elim False.elim
    | _ => simp [HolderManager.step, hstage] at hstep
  | acceptFails error =>
    cases hstage : s.serving with
    | accepting =>
      simp only [HolderManager.step, hstage, some.injEq] at hstep
      subst hstep
      exact h.serving_to (by simp [hstage, ServeStage.Inserted]) rfl False.elim False.elim
    | _ => simp [HolderManager.step, hstage] at hstep
  | reads request =>
    cases hstage : s.serving with
    | reading =>
      have hserving : ¬s.serving.Inserted := by simp [hstage, ServeStage.Inserted]
      simp only [HolderManager.step, hstage] at hstep
      cases request with
      | ok request =>
        obtain ⟨⟩ := hstep
        obtain ⟨hlaunching, hadmits, hstops⟩ := handle_quiet server request
        exact h.serving_to hserving hlaunching (fun h => absurd h hadmits) fun h => absurd h hstops
      | error error =>
        obtain ⟨⟩ := hstep
        exact h.serving_to hserving rfl (fun hadmits => Bool.noConfusion hadmits.2) False.elim
    | _ => simp [HolderManager.step, hstage] at hstep
  | probes alive =>
    cases hstage : s.serving with
    | probing spec =>
      have hserving : ¬s.serving.Inserted := by simp [hstage, ServeStage.Inserted]
      simp only [HolderManager.step, hstage, some.injEq] at hstep
      subst hstep
      cases alive with
      | true => exact h.serving_to hserving rfl (fun _ => hallows rfl) False.elim
      | false => exact h.serving_to hserving rfl False.elim False.elim
    | _ => simp [HolderManager.step, hstage] at hstep
  | spawns error =>
    cases hstage : s.serving with
    | spawning spec =>
      cases error with
      | none =>
        simp only [HolderManager.step, hstage, some.injEq] at hstep
        subst hstep
        have hundecided : ¬s.Decided := fun hdecided =>
          (h.decided hdecided).2 (by simp [hstage, ServeStage.Admitting])
        have hin : spec.sessionId ∈ s.active :=
          (h.launching _ (by simp [hstage, ServeStage.launching])).1
        have hidle : ¬s.serving.Inserted := by simp [hstage, ServeStage.Inserted]
        refine ⟨insert_subset hin h.hosted, (fun _ hin => nomatch hin),
          fun hsince => ?_, fun hdecided => absurd hdecided hundecided, False.elim⟩
        exact .inl ((h.idle hsince).resolve_right hidle)
      | some error =>
        simp only [HolderManager.step, hstage, some.injEq] at hstep
        subst hstep
        exact h.serving_to (by simp [hstage, ServeStage.Inserted]) rfl
          (fun hadmits => Bool.noConfusion hadmits.2) False.elim
    | _ => cases error <;> simp [HolderManager.step, hstage] at hstep
  | serves => exact h.serve hallows hstep
  | watches => exact h.watch hallows hstep
  | ends sessionId =>
    simp only [HolderManager.step] at hstep
    split at hstep <;> obtain ⟨⟩ := hstep
    have hempty : s.active = ∅ → s.active.erase sessionId = ∅ := fun hactive => by
      rw [hactive, erase_empty]
    refine ⟨erase_subset_erase _ h.hosted, fun other hin => ?_, fun hidle => ?_,
      fun hdecided => ?_, fun hstops => hempty (h.stops hstops)⟩
    · obtain ⟨hactive, hthread⟩ := h.launching other hin
      have hother : other ≠ sessionId := fun heq => hthread (heq ▸ ‹_ ∧ _›.1)
      exact ⟨mem_erase.mpr ⟨hother, hactive⟩,
        fun hin => hthread (mem_of_mem_erase hin)⟩
    · exact (h.idle hidle).imp_left hempty
    · exact (h.decided hdecided).imp_left hempty
  | leaves =>
    simp only [HolderManager.step] at hstep
    split at hstep <;> obtain ⟨⟩ := hstep
    refine ⟨h.hosted, h.launching, fun hidle => ?_, h.decided, h.stops⟩
    by_cases hactive : s.active = ∅
    · exact .inl hactive
    · simp only [hactive, if_false] at hidle
      exact h.idle hidle

/-! ### Every run -/

/--
**The manager exits only when it hosts no session.**  In every state that a run of allowed
steps reaches: where the accept loop is over, no session is hosted; and where a launch is
to be answered with success, the manager has not decided to stop.
-/
theorem exits_empty {now : Nat} {events : List HolderManagerEvent} {s : HolderManager}
    (hmeets : Meets (Allows server) (step server) (initial now) events)
    (hrun : partialRun (step server) (initial now) events = some s) :
    (s.serving.Over → s.active = ∅ ∧ s.threads = ∅) ∧
      ∀ response, s.serving = .answering (some .launch) response → response.ok = true →
        ¬s.Decided := by
  have hsettled : s.Settled :=
    Meets.invariant (fun _ _ _ h hallows hstep => h.step hallows hstep) hmeets
      (settled_initial now) hrun
  constructor
  · intro hover
    have hactive : s.active = ∅ := hsettled.stops hover.stops
    exact ⟨hactive, subset_empty.mp (hactive ▸ hsettled.hosted)⟩
  · intro response hanswer hok hdecided
    have hadmits : s.serving.Admitting := by
      rw [hanswer]
      exact ⟨rfl, hok⟩
    exact (hsettled.decided hdecided).2 hadmits

/-! ### One run that is allowed, and one that is not -/

def sampleManager : HolderManagerServer := .new "/h" 100 7

def sampleSpec : HolderLaunchSpec := ⟨"s", "/h/s.sock", "/h/s.pid"⟩

def launchRequest : HolderManagerEvent :=
  .reads (.ok ⟨managerProtocolVersion, .launch, some sampleSpec⟩)

/-- A session is launched and ends; when the grace period is over, the manager exits. -/
def hostedRun : List HolderManagerEvent :=
  [.accepts, launchRequest, .probes false, .serves, .serves, .serves, .spawns none, .serves,
    .watches, .watches, .watches, .ends "s", .leaves, .elapses 100, .watches, .watches, .watches,
    .watches, .watches, .watches, .acceptFails (.transport "accept"), .serves, .serves, .serves]

theorem exits_empty_hosted :
    ∃ s, partialRun (step sampleManager) (initial 0) hostedRun = some s ∧ s.serving.Over ∧
      s.active = ∅ := by
  have hmeets : Meets (Allows sampleManager) (step sampleManager) (initial 0) hostedRun := by
    decide
  exact ⟨_, rfl, trivial, ((exits_empty hmeets rfl).1 trivial).1⟩

/-- A launch comes between the watchdog's finding and its stop of the listener. -/
def lostRun : List HolderManagerEvent :=
  [.elapses 100, .watches, .watches, .watches, .accepts, launchRequest, .probes false, .serves,
    .serves, .serves, .spawns none, .serves, .watches, .watches, .watches,
    .acceptFails (.transport "accept"), .serves]

/-- A session may be accepted by a manager that exits. -/
theorem exits_with_a_session :
    ¬∀ (server : HolderManagerServer) (now : Nat) (events : List HolderManagerEvent)
      (s : HolderManager), partialRun (step server) (initial now) events = some s →
        s.serving.Over → s.active = ∅ := by
  intro h
  have hlost := h sampleManager 0 lostRun _ rfl trivial
  revert hlost
  decide

end HolderManager

end Diri
