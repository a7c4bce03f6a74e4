/-
A successful launch is really hosted, and only once.

At most one run of a session is a thread of the manager's, because a session leaves
`active` only when its run has ended (`Hosting.Kept`).  A run that has passed its own check
claims its session until it has neither a child nor anything to write; two that claim one
session would be two threads, or one of them a holder of another process that the check
missed.  And where a launch is answered with success, a run of its session is not over.

That needs more than the code ensures.  `active` may hold a session whose run is over, or
that never had a thread; a child may exit, and a run fail, while a launch relies on it; a
child that has exited counts as alive until it is waited for; and a run that fails behind
its listener leaves one that nobody closes.  `Allows` leaves these out.
-/
import Diri.Proofs.Held.Manager
import Diri.Proofs.Held.Runs

namespace Diri

open Option

/-! ### The manager's steps -/

/-- The session of a launch that is not decided. -/
def ServeStage.launches : ServeStage → Option String
  | .probing spec | .testing spec | .inserting spec | .inserted spec | .spawning spec =>
    some spec.sessionId
  | _ => none

/-- A launch is to be answered with success. -/
def ServeStage.accepted : ServeStage → Bool
  | .answering (some .launch) response => response.ok
  | _ => false

def ServeStage.isProbing : ServeStage → Bool
  | .probing _ => true
  | _ => false

theorem ServeStage.launches_of_launching {stage : ServeStage} {sessionId : String}
    (h : stage.launching = some sessionId) : stage.launches = some sessionId := by
  cases stage with
  | inserted _ | spawning _ => exact h
  | _ => cases h

namespace HolderManager

variable {server : HolderManagerServer} {s s' : HolderManager}

/-- What `active` and the threads have to do with each other, in every run. -/
structure Listed (s : HolderManager) : Prop where
  hosted : s.threads ⊆ s.active
  launching : ∀ sessionId, s.serving.launching = some sessionId →
    sessionId ∈ s.active ∧ sessionId ∉ s.threads

/-- A step that leaves the sessions alone, and takes no launch a step further. -/
structure Frame (s s' : HolderManager) : Prop where
  active : s'.active = s.active
  threads : s'.threads = s.threads
  launches : ∀ sessionId, s'.serving.launches = some sessionId → s.serving.launches = some sessionId
  launching : ∀ sessionId, s'.serving.launching = some sessionId →
    s.serving.launching = some sessionId
  probing : s'.serving.isProbing = true → s.serving.isProbing = true
  accepted : s'.serving.accepted = true → s.serving.accepted = true

theorem Frame.quiet (hactive : s'.active = s.active) (hthreads : s'.threads = s.threads)
    (hlaunches : s'.serving.launches = none) (haccepted : s'.serving.accepted = false) :
    Frame s s' where
  active := hactive
  threads := hthreads
  launches sessionId h := by rw [hlaunches] at h; cases h
  launching sessionId h := by
    have hsome := ServeStage.launches_of_launching h
    rw [hlaunches] at hsome
    cases hsome
  probing h := by
    cases hstage : s'.serving with
    | probing spec => rw [hstage] at hlaunches; cases hlaunches
    | _ => rw [hstage] at h; cases h
  accepted h := by rw [haccepted] at h; cases h

theorem stopListener_frame (s : HolderManager) (stage : StopStage) :
    (s.stopListener stage).1.active = s.active ∧ (s.stopListener stage).1.threads = s.threads ∧
      (s.stopListener stage).1.serving = s.serving := by
  cases stage with
  | flag => cases hflag : s.shuttingDown <;> simp [stopListener, hflag]
  | fd | close => exact ⟨rfl, rfl, rfl⟩

theorem serve_cases (h : s.serve server = some s') :
    Frame s s' ∨ ∃ spec, s.serving = .inserting spec ∧ ((spec.sessionId ∈ s.active ∧ s' = { s with
          serving := .answering (some .launch) (.success server.processId) }) ∨
        (spec.sessionId ∉ s.active ∧ s' = { s with
          active := insert spec.sessionId s.active
          serving := .inserted spec })) := by
  unfold serve at h
  cases hstage : s.serving with
  | pinging | failed _ | leaving _ =>
    simp only [hstage, some.injEq] at h
    subst h
    refine .inl (.quiet rfl rfl ?_ ?_) <;> dsimp only <;> first | rfl | (split <;> rfl)
  | answering _ _ =>
    simp only [hstage, some.injEq] at h
    subst h
    exact .inl (.quiet rfl rfl rfl rfl)
  | testing spec =>
    simp only [hstage] at h
    split at h <;> obtain ⟨⟩ := h
    · exact .inl (.quiet rfl rfl rfl rfl)
    · exact .inl ⟨rfl, rfl, fun _ hl => by rw [hstage]; exact hl, nofun, nofun, nofun⟩
  | inserting spec =>
    simp only [hstage] at h
    split at h
    · cases h
    split at h <;> obtain ⟨⟩ := h
    · exact .inr ⟨spec, rfl, .inl ⟨‹_›, rfl⟩⟩
    · exact .inr ⟨spec, rfl, .inr ⟨‹_›, rfl⟩⟩
  | inserted spec =>
    simp only [hstage, some.injEq] at h
    subst h
    exact .inl ⟨rfl, rfl, fun _ hl => by rw [hstage]; exact hl,
      fun _ hl => by rw [hstage]; exact hl, nofun, nofun⟩
  | testingActive =>
    simp only [hstage] at h
    split at h
    · cases h
    · split at h <;> obtain rfl := some.inj h <;> exact .inl (.quiet rfl rfl rfl rfl)
  | stopping stage | closing error stage =>
    obtain ⟨hactive, hthreads, -⟩ := s.stopListener_frame stage
    simp only [hstage] at h
    split at h <;> rename_i heq <;> obtain rfl := some.inj h <;>
      rw [heq] at hactive hthreads <;> exact .inl (.quiet hactive hthreads rfl rfl)
  | joining result =>
    simp only [hstage] at h
    split at h <;> obtain ⟨⟩ := h
    exact .inl (.quiet rfl rfl rfl rfl)
  | accepting | reading | probing _ | spawning _ | returned _ => simp [hstage] at h

theorem watch_frame (h : s.watch server = some s') : Frame s s' := by
  have hsame : s'.active = s.active ∧ s'.threads = s.threads ∧ s'.serving = s.serving := by
    unfold watch at h
    cases hstage : s.watching with
    | sleeping | testing | testingIdle =>
      simp only [hstage, some.injEq] at h
      subst h
      exact ⟨rfl, rfl, rfl⟩
    | stopping stage =>
      have hframe := s.stopListener_frame stage
      simp only [hstage] at h
      split at h <;> rename_i heq <;> obtain rfl := some.inj h <;>
        rw [heq] at hframe <;> exact hframe
    | returned => simp [hstage] at h
  obtain ⟨hactive, hthreads, hserving⟩ := hsame
  exact ⟨hactive, hthreads, fun _ hl => hserving ▸ hl, fun _ hl => hserving ▸ hl,
    fun hp => hserving ▸ hp, fun ha => hserving ▸ ha⟩

theorem alone_cases {event : HolderManagerEvent} (halone : event.alone = true)
    (h : s.step server event = some s') :
    Frame s s' ∨ event = .serves ∧ ∃ spec, s.serving = .inserting spec ∧
      ((spec.sessionId ∈ s.active ∧ s' = { s with
          serving := .answering (some .launch) (.success server.processId) }) ∨
        (spec.sessionId ∉ s.active ∧ s' = { s with
          active := insert spec.sessionId s.active
          serving := .inserted spec })) := by
  cases event with
  | elapses time =>
    obtain ⟨⟩ := h
    exact .inl ⟨rfl, rfl, fun _ h => h, fun _ h => h, id, id⟩
  | accepts =>
    cases hstage : s.serving with
    | accepting =>
      simp only [step, hstage] at h
      split at h <;> obtain ⟨⟩ := h
      exact .inl (.quiet rfl rfl rfl rfl)
    | _ => simp [step, hstage] at h
  | acceptFails error =>
    cases hstage : s.serving with
    | accepting =>
      simp only [step, hstage, some.injEq] at h
      subst h
      exact .inl (.quiet rfl rfl rfl rfl)
    | _ => simp [step, hstage] at h
  | spawns error =>
    cases error with
    | none => cases halone
    | some error =>
      cases hstage : s.serving with
      | spawning spec =>
        simp only [step, hstage, some.injEq] at h
        subst h
        exact .inl (.quiet rfl rfl rfl rfl)
      | _ => simp [step, hstage] at h
  | serves => exact (serve_cases h).imp_right fun hcases => ⟨rfl, hcases⟩
  | watches => exact .inl (watch_frame h)
  | leaves =>
    simp only [step] at h
    split at h <;> obtain ⟨⟩ := h
    exact .inl ⟨rfl, rfl, fun _ h => h, fun _ h => h, id, id⟩
  | reads _ | probes _ | ends _ => cases halone

theorem Listed.frame (h : s.Listed) (hframe : Frame s s') : s'.Listed where
  hosted := by rw [hframe.active, hframe.threads]; exact h.hosted
  launching sessionId hl := by
    rw [hframe.active, hframe.threads]
    exact h.launching sessionId (hframe.launching sessionId hl)

theorem Listed.inserted (h : s.Listed) {spec : HolderLaunchSpec}
    (hnew : spec.sessionId ∉ s.active) :
    Listed { s with active := insert spec.sessionId s.active, serving := .inserted spec } where
  hosted := h.hosted.trans (Finset.subset_insert _ _)
  launching sessionId hl := by
    obtain ⟨⟩ := hl
    exact ⟨Finset.mem_insert_self _ _, fun hthread => hnew (h.hosted hthread)⟩

end HolderManager

/-! ### The condition -/

namespace Hosting

variable {server : HolderManagerServer} {s s' : Hosting} {sessionId : String}

/-- A launch counts on a run of the session: one that it was told is alive, or the one that
it is to be answered for. -/
def relies (s : Hosting) (sessionId : String) : Bool :=
  s.launch.any fun launch => launch.sessionId = sessionId &&
    (s.manager.serving.accepted || s.manager.serving.isProbing && launch.stat = some true)

/-- A holder of another process, of the same session, that has a child or writes. -/
def rivals (s : Hosting) (sessionId : String) : Bool :=
  s.runs.values.any fun run =>
    run.sessionId = sessionId && !run.hosted && (run.hasChild || run.writes)

/-- A launch finds in `active` only a session with a run that is not over.  A holder that
answers a launch has no child that has exited.  No child exits and no run fails that a
launch counts on, and a run fails only where it does not listen and returns only when its
listener is closed.  A check finds no holder only where there is none. -/
def Allows (s : Hosting) (event : HostingEvent) : Prop :=
  match event, s.manager.serving with
  | .manager .serves, .inserting spec =>
    spec.sessionId ∈ s.manager.active → s.lives spec.sessionId = true
  | .stat id, _ => ∀ run ∈ s.runs.lookup id, run.child ≠ .exited
  | .check id true, _ => ∀ run ∈ s.runs.lookup id, s.relies run.sessionId = false
  | .check id false, _ => ∀ run ∈ s.runs.lookup id, s.rivals run.sessionId = false
  | .proceed id, _ => ∀ run ∈ s.runs.lookup id, run.stage = .accepting → run.listening = false
  | .fail id, _ => ∀ run ∈ s.runs.lookup id, run.listening = false ∧ s.relies run.sessionId = false
  | .exit id, _ => ∀ run ∈ s.runs.lookup id, s.relies run.sessionId = false
  | _, _ => True

instance (s : Hosting) (event : HostingEvent) : Decidable (s.Allows event) := by
  unfold Allows
  split <;> infer_instance

/-! ### What is kept -/

theorem lives_iff : s.lives sessionId = true ↔
    ∃ id run, s.runs.lookup id = some run ∧ run.sessionId = sessionId ∧ run.ended = false := by
  simp only [lives, List.any_eq_true, Table.mem_values, Bool.and_eq_true, decide_eq_true_eq,
    Bool.not_eq_true']
  constructor
  · rintro ⟨run, ⟨id, hlookup⟩, hsession, hended⟩
    exact ⟨id, run, hlookup, hsession, hended⟩
  · rintro ⟨id, run, hlookup, hsession, hended⟩
    exact ⟨run, ⟨id, hlookup⟩, hsession, hended⟩

structure Kept (s : Hosting) : Prop where
  listed : s.manager.Listed
  orderly : s.runs.All fun _ run => run.Orderly
  threads : s.runs.All fun _ run => run.hosted = true → run.sessionId ∈ s.manager.threads
  hosted : AtMostOne (·.hosted) s.runs
  claims : AtMostOne (·.claims) s.runs
  launches : ∀ sessionId, s.manager.serving.launches = some sessionId →
    ∃ launch, s.launch = some launch ∧ launch.sessionId = sessionId
  accepted : s.manager.serving.accepted = true → s.launch.isSome = true
  relies : ∀ sessionId, s.relies sessionId = true → s.lives sessionId = true
  found : ∀ launch, s.launch = some launch → launch.found = true → launch.started = false →
    s.lives launch.sessionId = false

/-- Runs of other processes, one a session. -/
structure Standing (runs : Table Nat HolderRun) : Prop where
  standing : ∀ id run, runs.lookup id = some run → run = .standing run.sessionId
  one : ∀ id id' run run', runs.lookup id = some run → runs.lookup id' = some run' →
    run.sessionId = run'.sessionId → id = id'

theorem kept_initial {now : Nat} {standing : Table Nat HolderRun} (h : Standing standing) :
    (initial now standing).Kept where
  listed := ⟨Finset.Subset.refl _, fun _ hl => by cases hl⟩
  orderly id run hlookup := by
    rw [h.standing id run hlookup]
    exact HolderRun.orderly_standing _
  threads id run hlookup hhosted := by
    rw [h.standing id run hlookup] at hhosted
    cases hhosted
  hosted id id' run run' hrun hrun' hsame _ _ := h.one id id' run run' hrun hrun' hsame
  claims id id' run run' hrun hrun' hsame _ _ := h.one id id' run run' hrun hrun' hsame
  launches _ hl := by cases hl
  accepted ha := by cases ha
  relies _ hr := by cases hr
  found _ hl := by cases hl

/-! ### The steps of a run -/

theorem changeRun_eq {id : Nat} {run : HolderRun} (hlookup : s.runs.lookup id = some run)
    (f : HolderRun → HolderRun) : s.changeRun id f = s.changeRun id fun _ => f run := by
  unfold changeRun
  congr 1
  refine Table.adjust_congr fun found hfound => ?_
  obtain rfl := some.inj (hlookup.symm.trans hfound)
  rfl

variable {run next : HolderRun}

theorem lives_changeRun_of {id : Nat} (hlookup : s.runs.lookup id = some run)
    (hsession : next.sessionId = run.sessionId)
    (hended : next.ended = true → run.ended = true ∨ run.sessionId ≠ sessionId)
    (h : s.lives sessionId = true) : (s.changeRun id fun _ => next).lives sessionId = true := by
  rw [lives_iff] at h ⊢
  obtain ⟨other, found, hfound, hsame, hlive⟩ := h
  by_cases hid : other = id
  · subst hid
    obtain rfl := some.inj (hlookup.symm.trans hfound)
    refine ⟨other, next, ?_, hsession.trans hsame, ?_⟩
    · rw [changeRun, Table.lookup_adjust_self, hlookup]
      rfl
    · by_contra hnext
      rcases hended (by simpa using hnext) with hrun | hne
      · rw [hlive] at hrun
        cases hrun
      · exact hne hsame
  refine ⟨other, found, ?_, hsame, hlive⟩
  rw [changeRun, Table.lookup_adjust_ne hid]
  exact hfound

theorem not_lives_changeRun {id : Nat}
    (hlookup : s.runs.lookup id = some run) (hsession : next.sessionId = run.sessionId)
    (hended : run.ended = true → next.ended = true) (h : s.lives sessionId = false) :
    (s.changeRun id fun _ => next).lives sessionId = false := by
  by_contra hlives
  obtain ⟨other, found, hfound, hsame, hlive⟩ := lives_iff.mp (by simpa using hlives)
  have hbefore : s.lives sessionId = true := by
    rw [lives_iff]
    rcases Table.lookup_adjust hfound with ⟨-, hold⟩ | ⟨rfl, -, -, rfl⟩
    · exact ⟨other, found, hold, hsame, hlive⟩
    refine ⟨other, run, hlookup, hsession.symm.trans hsame, ?_⟩
    by_contra hrun
    rw [hended (by simpa using hrun)] at hlive
    cases hlive
  rw [h] at hbefore
  cases hbefore

/-- One run takes a step: it claims no session that another claims, and becomes over only
where no launch counts on it. -/
theorem Kept.changeRun (h : s.Kept) {id : Nat}
    (hlookup : s.runs.lookup id = some run) (hfollows : HolderRun.Follows run next)
    (hclaims : next.claims = true → run.claims = true ∨ Alone (·.claims) s.runs id run)
    (hended : next.ended = true → run.ended = true ∨ s.relies run.sessionId = false) :
    (s.changeRun id fun _ => next).Kept where
  listed := h.listed
  orderly := h.orderly.adjust fun _ _ => hfollows.orderly
  threads := h.threads.adjust fun _ _ hhosted => by
    rw [hfollows.sessionId]
    exact h.threads id run hlookup (hfollows.hosted.symm.trans hhosted)
  hosted := h.hosted.adjust hlookup hfollows.sessionId fun hhosted =>
    .inl (hfollows.hosted.symm.trans hhosted)
  claims := h.claims.adjust hlookup hfollows.sessionId hclaims
  launches := h.launches
  accepted := h.accepted
  relies sessionId hrelies := by
    have hlives := h.relies sessionId hrelies
    refine lives_changeRun_of hlookup hfollows.sessionId (fun hnext => ?_) hlives
    refine (hended hnext).imp_right fun hfree => ?_
    rintro rfl
    rw [show s.relies run.sessionId = true from hrelies] at hfree
    cases hfree
  found launch hlaunch hfound hstarted :=
    not_lives_changeRun hlookup hfollows.sessionId hfollows.ended
      (h.found launch hlaunch hfound hstarted)

theorem stepRun_cases {id : Nat} {f : HolderRun → Option HolderRun} (h : s.stepRun id f = some s') :
    ∃ run next, s.runs.lookup id = some run ∧ f run = some next ∧
      s' = s.changeRun id fun _ => next := by
  obtain ⟨run, hlookup, hmap⟩ := bind_eq_some_iff.mp h
  obtain ⟨next, hnext, rfl⟩ := map_eq_some_iff.mp hmap
  exact ⟨run, next, hlookup, hnext, rfl⟩

theorem Kept.alone_of_check (h : s.Kept) {id : Nat} {run : HolderRun}
    (hlookup : s.runs.lookup id = some run) (hstage : run.stage = .probing)
    (hrivals : s.rivals run.sessionId = false) : Alone (·.claims) s.runs id run := by
  intro other found hfound hsession hclaims
  have hhosted : run.hosted = true :=
    (h.orderly id run hlookup).hosted (by simp [hstage]) (by simp [hstage])
  cases hforeign : found.hosted with
  | true => exact h.hosted other id found run hfound hlookup hsession hforeign hhosted
  | false =>
    have hstarts : found.stage.starts = false := by
      rcases (h.orderly other found hfound).foreign hforeign with hother | hother <;>
        rw [hother] <;> rfl
    have hrival : s.rivals run.sessionId = true := by
      simp only [rivals, List.any_eq_true, Table.mem_values]
      refine ⟨found, ⟨other, hfound⟩, ?_⟩
      simpa [hsession, hforeign, HolderRun.claims, hstarts] using hclaims
    rw [hrivals] at hrival
    cases hrival

theorem Kept.check (h : s.Kept) {id : Nat} {alive : Bool} (hallows : s.Allows (.check id alive))
    (hstep : s.stepRun id (·.check alive) = some s') : s'.Kept := by
  obtain ⟨run, next, hlookup, hcheck, rfl⟩ := stepRun_cases hstep
  have hstage : run.stage = .probing := by
    by_contra hother
    simp [HolderRun.check, hother] at hcheck
  have hunclaimed : next.ended = true → run.ended = true ∨ alive = true := by
    intro hended
    cases alive with
    | true => exact .inr rfl
    | false =>
      simp only [HolderRun.check, hstage, if_true, Bool.false_eq_true, if_false,
        some.injEq] at hcheck
      subst hcheck
      exact .inl (by simpa [HolderRun.ended, hstage] using hended)
  refine h.changeRun hlookup (.check (h.orderly id run hlookup) hcheck) (fun hclaims => ?_)
    fun hended => (hunclaimed hended).imp_right ?_
  · cases alive with
    | false => exact .inr (h.alone_of_check hlookup hstage (hallows run hlookup))
    | true =>
      have hreturned : next.stage = .returned := by
        simp only [HolderRun.check, hstage, if_true] at hcheck
        split at hcheck <;> obtain ⟨⟩ := hcheck
        rfl
      have horderly := (HolderRun.Follows.check (h.orderly id run hlookup) hcheck).orderly
      rw [horderly.unclaimed hreturned] at hclaims
      cases hclaims
  · rintro rfl
    exact hallows run hlookup

/-! ### The steps of the manager -/

theorem Kept.frame (h : s.Kept) {manager : HolderManager}
    (hframe : HolderManager.Frame s.manager manager) : Kept { s with manager := manager } where
  listed := h.listed.frame hframe
  orderly := h.orderly
  threads id run hlookup hhosted := by
    rw [hframe.threads]
    exact h.threads id run hlookup hhosted
  hosted := h.hosted
  claims := h.claims
  launches sessionId hl := h.launches sessionId (hframe.launches sessionId hl)
  accepted ha := h.accepted (hframe.accepted ha)
  relies sessionId hrelies := by
    refine h.relies sessionId ?_
    simp only [Hosting.relies, Option.any_eq_true, Bool.and_eq_true, Bool.or_eq_true] at hrelies ⊢
    obtain ⟨launch, hlaunch, hsession, hcounts⟩ := hrelies
    refine ⟨launch, hlaunch, hsession, hcounts.imp hframe.accepted fun hp => ?_⟩
    exact ⟨hframe.probing hp.1, hp.2⟩
  found := h.found

theorem Kept.manager (h : s.Kept) {event : HolderManagerEvent} {manager : HolderManager}
    (hallows : s.Allows (.manager event)) (halone : event.alone = true)
    (hstep : s.manager.step server event = some manager) : Kept { s with manager := manager } := by
  rcases HolderManager.alone_cases halone hstep with hframe | ⟨rfl, spec, hstage, hcases⟩
  · exact h.frame hframe
  obtain ⟨launch, hlaunch, hsession⟩ := h.launches spec.sessionId (by rw [hstage]; rfl)
  have hsame : ∀ sessionId, ∀ manager : HolderManager,
      Hosting.relies { s with manager := manager } sessionId = true →
        sessionId = spec.sessionId := by
    intro sessionId manager hrelies
    simp only [Hosting.relies, hlaunch, any_some, Bool.and_eq_true, decide_eq_true_eq] at hrelies
    exact hrelies.1.symm.trans hsession
  rcases hcases with ⟨hin, rfl⟩ | ⟨hnew, rfl⟩
  · refine ⟨⟨h.listed.hosted, nofun⟩, h.orderly, h.threads, h.hosted, h.claims, nofun,
      fun _ => ?_, fun sessionId hrelies => ?_, h.found⟩
    · rw [hlaunch]
      rfl
    · rw [hsame _ _ hrelies]
      simp only [Allows, hstage] at hallows
      exact hallows hin
  refine ⟨h.listed.inserted hnew, h.orderly, h.threads, h.hosted, h.claims,
    fun sessionId hl => ?_, nofun, fun sessionId hrelies => ?_, h.found⟩
  · obtain ⟨⟩ := hl
    exact ⟨launch, hlaunch, hsession⟩
  · simp [Hosting.relies, ServeStage.accepted, ServeStage.isProbing] at hrelies

theorem handle_cases (server : HolderManagerServer) (request : HolderManagerRequest) :
    (∃ spec, HolderManager.handle server request = .probing spec) ∨
      (HolderManager.handle server request).launches = none ∧
        (HolderManager.handle server request).accepted = false := by
  unfold HolderManager.handle
  split
  · exact .inr ⟨rfl, by cases request.op <;> rfl⟩
  split
  · exact .inr ⟨rfl, rfl⟩
  · split
    · exact .inr ⟨rfl, rfl⟩
    · split
      · exact .inr ⟨rfl, rfl⟩
      · exact .inl ⟨_, rfl⟩
  · exact .inr ⟨rfl, rfl⟩

theorem read_cases {request : Except HolderError HolderManagerRequest}
    {manager manager' : HolderManager}
    (hstep : manager.step server (.reads request) = some manager') :
    (∃ spec, manager' = { manager with serving := .probing spec }) ∨
      HolderManager.Frame manager manager' ∧ manager'.serving.isProbing = false := by
  have hquiet : ∀ stage : ServeStage, stage.launches = none → stage.accepted = false →
      HolderManager.Frame manager { manager with serving := stage } ∧ stage.isProbing = false := by
    intro stage hlaunches haccepted
    refine ⟨.quiet rfl rfl hlaunches haccepted, ?_⟩
    cases stage with
    | probing spec => cases hlaunches
    | _ => rfl
  cases hstage : manager.serving with
  | reading =>
    simp only [HolderManager.step, hstage] at hstep
    split at hstep
    · obtain ⟨⟩ := hstep
      rcases handle_cases server ‹_› with ⟨spec, hspec⟩ | ⟨hlaunches, haccepted⟩
      · exact .inl ⟨spec, by rw [hspec]⟩
      · exact .inr (hquiet _ hlaunches haccepted)
    · obtain ⟨⟩ := hstep
      exact .inr (hquiet _ rfl rfl)
  | _ => simp [HolderManager.step, hstage] at hstep

theorem Kept.read (h : s.Kept) {request : Except HolderError HolderManagerRequest}
    {manager : HolderManager} (hstep : s.manager.step server (.reads request) = some manager) :
    (s.takeUp manager).Kept := by
  rcases read_cases hstep with ⟨spec, rfl⟩ | ⟨hframe, hprobing⟩
  · refine ⟨⟨h.listed.hosted, nofun⟩, h.orderly, h.threads, h.hosted, h.claims, fun sessionId hl =>
      ⟨_, rfl, some.inj hl⟩, nofun, fun sessionId hrelies => ?_, fun launch hlaunch hfound _ => ?_⟩
    · simp [takeUp, Hosting.relies, ServeStage.accepted] at hrelies
    · obtain ⟨⟩ := hlaunch
      have hnone : s.lives spec.sessionId = false := by simpa using hfound
      exact hnone
  have hsame : s.takeUp manager = { s with manager := manager } := by
    unfold takeUp
    split
    · rw [‹manager.serving = _›] at hprobing
      cases hprobing
    · rfl
  rw [hsame]
  exact h.frame hframe

theorem Kept.stat (h : s.Kept) {id : Nat} (hallows : s.Allows (.stat id))
    (hstep : s.step server (.stat id) = some s') : s'.Kept := by
  obtain ⟨run, hlookup, hrest⟩ := bind_eq_some_iff.mp hstep
  split at hrest
  case h_2 => cases hrest
  rename_i spec hstage
  split at hrest
  case isFalse => cases hrest
  obtain ⟨hsession, hserving⟩ := ‹_ ∧ _›
  obtain ⟨⟩ := hrest
  obtain ⟨launch, hlaunch, hspec⟩ := h.launches spec.sessionId (by rw [hstage]; rfl)
  refine ⟨h.listed, h.orderly, h.threads, h.hosted, h.claims, fun sessionId hl => ?_,
    fun _ => ?_, fun sessionId hrelies => ?_, fun other hother hfound hstarted => ?_⟩
  · obtain ⟨found, hfound, hsame⟩ := h.launches sessionId hl
    exact ⟨_, congrArg (Option.map _) hfound, hsame⟩
  · simp [changeLaunch, hlaunch]
  · have hcounts : launch.sessionId = sessionId ∧ run.alive = true := by
      simpa [Hosting.relies, changeLaunch, hlaunch, hstage, ServeStage.accepted,
        ServeStage.isProbing] using hrelies
    have hchild : run.child = .live := by
      have halive := hcounts.2
      simp only [HolderRun.alive, Bool.and_eq_true, Bool.or_eq_true, decide_eq_true_eq] at halive
      exact halive.2.resolve_right (hallows run hlookup)
    have hstage' : run.stage = .accepting := by
      simp only [HolderRun.serving, Bool.and_eq_true, decide_eq_true_eq] at hserving
      exact hserving.1
    refine lives_iff.mpr ⟨id, run, hlookup, ?_, ?_⟩
    · rw [hsession, ← hspec, hcounts.1]
    · simp [HolderRun.ended, hchild, hstage']
  · obtain ⟨found, hlaunch', rfl⟩ := map_eq_some_iff.mp hother
    exact h.found found hlaunch' hfound hstarted

theorem Kept.probe (h : s.Kept) {alive : Bool} {manager : HolderManager}
    (hstat : alive = false ∨ s.launch.bind (·.stat) = some true)
    (hstep : s.manager.step server (.probes alive) = some manager) :
    Kept { s with manager := manager } := by
  cases hstage : s.manager.serving with
  | probing spec =>
    obtain ⟨launch, hlaunch, hspec⟩ := h.launches spec.sessionId (by rw [hstage]; rfl)
    simp only [HolderManager.step, hstage, some.injEq] at hstep
    subst hstep
    cases alive with
    | false =>
      exact h.frame ⟨rfl, rfl, fun _ hl => by rw [hstage]; exact hl,
        (fun _ hl => by cases hl), (fun hp => by cases hp), (fun ha => by cases ha)⟩
    | true =>
      refine ⟨⟨h.listed.hosted, fun _ hl => by cases hl⟩, h.orderly, h.threads, h.hosted,
        h.claims, (fun _ hl => by cases hl), fun _ => by rw [hlaunch]; rfl,
        fun sessionId hrelies => h.relies sessionId ?_, h.found⟩
      simp only [hlaunch, bind_some, Bool.true_eq_false, false_or] at hstat
      simp only [Hosting.relies, hlaunch, any_some, Bool.and_eq_true, decide_eq_true_eq] at hrelies
      simp [Hosting.relies, hlaunch, hrelies.1, hstage, ServeStage.isProbing, hstat]
  | _ => simp [HolderManager.step, hstage] at hstep

theorem Kept.spawn (h : s.Kept) {id : Nat} (hstep : s.step server (.spawn id) = some s') :
    s'.Kept := by
  simp only [Hosting.step] at hstep
  split at hstep
  · cases hstep
  rename_i hnew
  split at hstep
  case h_2 => cases hstep
  rename_i spec hstage
  obtain ⟨manager, hmanager, rfl⟩ := map_eq_some_iff.mp hstep
  simp only [HolderManager.step, hstage, some.injEq] at hmanager
  subst hmanager
  obtain ⟨launch, hlaunch, hspec⟩ := h.launches spec.sessionId (by rw [hstage]; rfl)
  obtain ⟨hactive, hthreads⟩ := h.listed.launching spec.sessionId (by rw [hstage]; rfl)
  refine ⟨⟨Finset.insert_subset hactive h.listed.hosted, fun _ hl => by cases hl⟩,
    h.orderly.insert (HolderRun.orderly_new _),
    (h.threads.mono fun _ _ hthread hhosted =>
      Finset.mem_insert_of_mem (hthread hhosted)).insert fun _ => Finset.mem_insert_self _ _,
    h.hosted.insert fun _ other found hfound hsession hhosted => ?_,
    h.claims.insert (fun hclaims => by cases hclaims), (fun _ hl => by cases hl), fun _ => ?_,
    fun sessionId hrelies => ?_, fun other hother _ hstarted => ?_⟩
  · have hthread := h.threads other found hfound hhosted
    rw [hsession] at hthread
    exact absurd hthread hthreads
  · simp [changeLaunch, hlaunch]
  · have hsame : spec.sessionId = sessionId := by
      simp only [Hosting.relies, changeLaunch, hlaunch, map_some, any_some,
        Bool.and_eq_true, decide_eq_true_eq] at hrelies
      exact hspec.symm.trans hrelies.1
    exact lives_iff.mpr ⟨id, _, AList.lookup_insert _, hsame, rfl⟩
  · obtain ⟨found, -, rfl⟩ := map_eq_some_iff.mp hother
    cases hstarted

/-- The session of a run that has returned leaves `active`, and no other run of it is there. -/
theorem Kept.leave (h : s.Kept) {id : Nat} (hstep : s.step server (.leave id) = some s') :
    s'.Kept := by
  obtain ⟨run, hlookup, hrest⟩ := bind_eq_some_iff.mp hstep
  split at hrest
  case isFalse => cases hrest
  obtain ⟨hhosted, hstage⟩ := ‹_ ∧ _›
  obtain ⟨manager, hmanager, rfl⟩ := map_eq_some_iff.mp hrest
  have horderly := h.orderly id run hlookup
  rw [changeRun_eq hlookup]
  simp only [HolderManager.step] at hmanager
  split at hmanager <;> obtain ⟨⟩ := hmanager
  refine ⟨⟨Finset.erase_subset_erase _ h.listed.hosted, fun sessionId hl => ?_⟩,
    h.orderly.adjust fun _ _ => { horderly with foreign := fun _ => .inr hstage },
    ?_, h.hosted.adjust hlookup rfl (fun hstill => by cases hstill),
    h.claims.adjust hlookup rfl .inl, h.launches,
    h.accepted, fun sessionId hrelies => ?_, fun launch hlaunch hfound hstarted => ?_⟩
  · obtain ⟨hactive, hthreads⟩ := h.listed.launching sessionId hl
    have hother : sessionId ≠ run.sessionId := by
      rintro rfl
      exact hthreads ‹_ ∧ _›.1
    exact ⟨Finset.mem_erase.mpr ⟨hother, hactive⟩,
      fun hin => hthreads (Finset.mem_of_mem_erase hin)⟩
  · intro other found hfound hstill
    rcases Table.lookup_adjust hfound with ⟨hother, hold⟩ | ⟨-, -, -, rfl⟩
    · refine Finset.mem_erase.mpr ⟨fun hsession => hother ?_, h.threads other found hold hstill⟩
      exact h.hosted other id found run hold hlookup hsession hstill hhosted
    · cases hstill
  · exact lives_changeRun_of hlookup rfl .inl (h.relies sessionId hrelies)
  · exact not_lives_changeRun hlookup rfl (fun hended => hended)
      (h.found launch hlaunch hfound hstarted)

/-! ### Every step, and every run -/

theorem Kept.step {event : HostingEvent} (h : s.Kept) (hallows : s.Allows event)
    (hstep : s.step server event = some s') : s'.Kept := by
  cases event with
  | manager event =>
    simp only [Hosting.step] at hstep
    split at hstep
    · obtain ⟨manager, hmanager, rfl⟩ := map_eq_some_iff.mp hstep
      exact h.manager hallows ‹_› hmanager
    · cases hstep
  | read request =>
    obtain ⟨manager, hmanager, rfl⟩ := map_eq_some_iff.mp hstep
    exact h.read hmanager
  | stat id => exact h.stat hallows hstep
  | probe alive =>
    simp only [Hosting.step] at hstep
    split at hstep
    · obtain ⟨manager, hmanager, rfl⟩ := map_eq_some_iff.mp hstep
      exact h.probe ‹_› hmanager
    · cases hstep
  | spawn id => exact h.spawn hstep
  | leave id => exact h.leave hstep
  | ask id holder =>
    obtain ⟨run, hlookup, hrest⟩ := bind_eq_some_iff.mp hstep
    obtain ⟨other, hother, hrest⟩ := bind_eq_some_iff.mp hrest
    split at hrest <;> obtain ⟨⟩ := hrest
    have horderly := h.orderly id run hlookup
    rw [changeRun_eq hlookup]
    refine h.changeRun hlookup ⟨rfl, rfl, ?_, fun hended => hended⟩ .inl .inl
    exact ⟨horderly.listens, horderly.closed, horderly.watches, horderly.early,
      horderly.finished, horderly.foreign⟩
  | check id alive => exact h.check hallows hstep
  | proceed id =>
    obtain ⟨run, next, hlookup, hnext, rfl⟩ := stepRun_cases hstep
    have horderly := h.orderly id run hlookup
    exact h.changeRun hlookup (.proceed horderly (hallows run hlookup) hnext)
      (fun hclaims => .inl (HolderRun.claims_of_proceed hnext hclaims))
      fun hended => .inl (HolderRun.ended_of_proceed horderly hnext hended)
  | fail id =>
    obtain ⟨run, next, hlookup, hnext, rfl⟩ := stepRun_cases hstep
    obtain ⟨hclosed, hfree⟩ := hallows run hlookup
    exact h.changeRun hlookup (.fail (h.orderly id run hlookup) hclosed hnext)
      (fun hclaims => .inl (HolderRun.claims_of_fail hnext hclaims)) fun _ => .inr hfree
  | exit id =>
    obtain ⟨run, next, hlookup, hnext, rfl⟩ := stepRun_cases hstep
    exact h.changeRun hlookup (.exit (h.orderly id run hlookup) hnext) (fun hclaims => .inl
      (HolderRun.claims_of_exit hnext hclaims)) fun _ => .inr (hallows run hlookup)
  | endPump id =>
    obtain ⟨run, next, hlookup, hnext, rfl⟩ := stepRun_cases hstep
    exact h.changeRun hlookup (.endPump (h.orderly id run hlookup) hnext)
      (fun _ => .inl (HolderRun.claims_of_endPump hnext))
      fun hended => .inl (HolderRun.ended_of_endPump hnext hended)
  | watch id =>
    obtain ⟨run, next, hlookup, hnext, rfl⟩ := stepRun_cases hstep
    exact h.changeRun hlookup (.watch (h.orderly id run hlookup) hnext)
      (fun hclaims => .inl (HolderRun.claims_of_watch hnext hclaims))
      fun hended => .inl (HolderRun.ended_of_watch hnext hended)

/-- A session whose run is still to have a child, has one or writes, has no second one. -/
theorem claims_of_child {run : HolderRun} (h : run.hasChild = true ∨ run.writes = true) :
    run.claims = true := by
  rcases h with h | h <;> simp [HolderRun.claims, h]

/--
**A successful launch is really hosted, and only once.**  In every state that a run of
allowed steps reaches: two runs of a session that have a child, or may still append to its
log, are one; where a launch is to be answered with success, some run of its session has
not ended and nor has its child, and if it found none it has started one; and a run that
has returned leaves no listener behind, on which a question about its session would wait.
-/
theorem launches_hosted_once {now : Nat} {standing : Table Nat HolderRun}
    {events : List HostingEvent} (hstanding : Standing standing)
    (hmeets : Meets Allows (step server) (initial now standing) events)
    (hrun : partialRun (step server) (initial now standing) events = some s) :
    (∀ id id' run run', s.runs.lookup id = some run → s.runs.lookup id' = some run' →
        run.sessionId = run'.sessionId → run.hasChild = true ∨ run.writes = true →
        run'.hasChild = true ∨ run'.writes = true → id = id') ∧ (s.manager.serving.accepted = true →
        ∃ launch, s.launch = some launch ∧ s.lives launch.sessionId = true ∧
          (launch.found = true → launch.started = true)) ∧
      ∀ id run, s.runs.lookup id = some run → run.stage = .returned → run.listening = false := by
  have hkept : s.Kept :=
    Meets.invariant (fun _ _ _ h hallows hstep => h.step hallows hstep) hmeets
      (kept_initial hstanding) hrun
  refine ⟨?_, ?_, ?_⟩
  · intro id id' run run' hlookup hlookup' hsame hrun hrun'
    exact hkept.claims id id' run run' hlookup hlookup' hsame (claims_of_child hrun)
      (claims_of_child hrun')
  · intro haccepted
    obtain ⟨launch, hlaunch⟩ := Option.isSome_iff_exists.mp (hkept.accepted haccepted)
    have hlives : s.lives launch.sessionId = true :=
      hkept.relies _ (by simp [relies, hlaunch, haccepted])
    refine ⟨launch, hlaunch, hlives, fun hfound => ?_⟩
    by_contra hstarted
    have hnone := hkept.found launch hlaunch hfound (by simpa using hstarted)
    rw [hlives] at hnone
    cases hnone
  · intro id run hlookup hreturned
    exact (hkept.orderly id run hlookup).listens false (by rw [hreturned]; rfl)

/-! ### One run that is allowed, and one that is not -/

open HolderManager (sampleManager sampleSpec)

/-- The manager reads a launch of the session, and finds no holder that is alive. -/
def launchNew : List HostingEvent :=
  [.manager .accepts, .read (.ok ⟨managerProtocolVersion, .launch, some sampleSpec⟩), .probe false,
    .manager .serves, .manager .serves]

/-- A session is launched; its child exits, and when its holder has ended it is launched again. -/
def hostedTwice : List HostingEvent :=
  launchNew ++ [.manager .serves, .spawn 1, .manager .serves, .check 1 false, .proceed 1,
    .proceed 1, .proceed 1, .proceed 1, .proceed 1, .proceed 1, .proceed 1, .proceed 1, .exit 1,
    .watch 1, .watch 1, .endPump 1, .watch 1, .watch 1, .watch 1, .watch 1, .watch 1, .proceed 1,
    .leave 1, .manager .leaves] ++ launchNew ++ [.manager .serves, .spawn 2]

/-- Another session has a holder from before the manager. -/
def sampleStanding : Table Nat HolderRun := AList.insert 0 (.standing "t") ∅

theorem standing_sample : Standing sampleStanding where
  standing id run h := by
    rcases Table.lookup_insert_cases h with ⟨-, rfl⟩ | ⟨-, h⟩
    · rfl
    · cases h
  one id id' run run' h h' _ := by
    rcases Table.lookup_insert_cases h with ⟨rfl, -⟩ | ⟨-, h⟩
    · rcases Table.lookup_insert_cases h' with ⟨rfl, -⟩ | ⟨-, h'⟩
      · rfl
      · cases h'
    · cases h

theorem launches_hosted_once_again :
    ∃ s, partialRun (step sampleManager) (initial 0 sampleStanding) hostedTwice = some s ∧
      s.launch = some ⟨"s", true, true, none⟩ ∧ s.lives "s" = true := by
  have hmeets : Meets Allows (step sampleManager) (initial 0 sampleStanding) hostedTwice := by
    decide +kernel
  have hend : (partialRun (step sampleManager) (initial 0 sampleStanding) hostedTwice).map
      (fun s => (s.launch, s.manager.serving.accepted))
        = some (some ⟨"s", true, true, none⟩, true) := by
    decide +kernel
  obtain ⟨s, hrun, hs⟩ := map_eq_some_iff.mp hend
  obtain ⟨hlaunch, haccepted⟩ := Prod.mk.inj hs
  obtain ⟨launch, hlaunch', hlives, -⟩ :=
    (launches_hosted_once standing_sample hmeets hrun).2.1 haccepted
  obtain rfl := some.inj (hlaunch.symm.trans hlaunch')
  exact ⟨s, hrun, hlaunch, hlives⟩

/-- The thread of the first launch cannot be made, and the session stays in `active`. -/
def unhostedRun : List HostingEvent :=
  launchNew ++ [.manager .serves, .manager (.spawns (some (.launch "spawn session holder"))),
    .manager .serves] ++ launchNew

/-- A launch may be answered with success although nothing hosts its session. -/
theorem answers_unhosted :
    ¬∀ (server : HolderManagerServer) (now : Nat) (standing : Table Nat HolderRun)
      (events : List HostingEvent) (s : Hosting), Standing standing →
        partialRun (step server) (initial now standing) events = some s →
        s.manager.serving.accepted = true →
          ∃ launch, s.launch = some launch ∧ s.lives launch.sessionId = true := by
  intro h
  have hend : (partialRun (step sampleManager) (initial 0 sampleStanding) unhostedRun).map
      (fun s => (s.manager.serving.accepted, s.lives "s", s.launch.map (·.sessionId)))
        = some (true, false, some "s") := by
    decide +kernel
  obtain ⟨s, hrun, hs⟩ := map_eq_some_iff.mp hend
  simp only [Prod.mk.injEq] at hs
  obtain ⟨haccepted, hnone, hsession⟩ := hs
  obtain ⟨launch, hlaunch, hlives⟩ :=
    h sampleManager 0 sampleStanding unhostedRun s standing_sample hrun haccepted
  rw [hlaunch] at hsession
  have hname : launch.sessionId = "s" := some.inj hsession
  rw [hname, hnone] at hlives
  cases hlives

end Hosting

end Diri
