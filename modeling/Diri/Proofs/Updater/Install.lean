/-
An update never loses the app.

At every command of the helper a whole bundle is at the target or at the backup (`Held`),
and which of the two it is follows from the command.  That goes wrong in four places: where
a helper is started although the target is not whole, it begins by deleting the backup;
where the backup is still there, the installed bundle is moved into it; where the staged
bundle is not whole, its copy takes the place of the installed one; and where the old
bundle is not put back, none is at the target in the end.  `Allows` leaves these out, and
nothing else.
-/
import Diri.Lib.Run
import Diri.Updater.Install

namespace Diri

namespace Bundle

theorem IsComplete.ne_missing {bundle : Bundle} (h : bundle.IsComplete) : bundle ≠ .missing := by
  obtain ⟨build, rfl⟩ := h
  rintro ⟨⟩

/-! No command makes a whole bundle of anything but a whole bundle. -/

theorem of_remove {bundle : Bundle} {extent : Extent} {build : String}
    (h : bundle.remove extent = .complete build) : bundle = .complete build := by
  cases bundle with
  | missing => cases h
  | broken => cases extent <;> cases h
  | complete _ =>
    cases extent with
    | nothing => exact h
    | part | all => cases h

theorem of_takeIn {destination source : Bundle} {build : String}
    (h : destination.takeIn source = .complete build) : source = .complete build := by
  unfold takeIn at h
  split at h
  · exact h
  · cases h

theorem of_unpack {destination staged : Bundle} {extent : Extent} {build : String}
    (h : destination.unpack staged extent = .complete build) :
    destination = .complete build ∨ staged = .complete build := by
  cases extent with
  | nothing => exact .inl h
  | part =>
    simp only [unpack] at h
    split at h
    · exact .inl h
    · cases h
  | all =>
    simp only [unpack] at h
    split at h
    · exact .inl h
    · exact .inr (of_takeIn h)

end Bundle

namespace Install

/-! ### What is to be kept -/

/-- A whole bundle is there, and at the target once the helper has ended. -/
structure Sound (s : Install) : Prop where
  somewhere : s.target.IsComplete ∨ s.backup.IsComplete
  ended : ∀ status, s.stage = .ended status → s.target.IsComplete

/-- No whole bundle is deleted while the other path has none. -/
def Spares (s : Install) (event : InstallEvent) : Prop :=
  match s.stage, event with
  | .discardBackup, .runs extent | .discardBackup, .cut extent
  | .discardPrevious, .runs extent | .discardPrevious, .cut extent =>
    extent ≠ .nothing → s.backup.IsComplete → s.target.IsComplete
  | .clearTarget, .runs extent | .clearTarget, .cut extent =>
    extent ≠ .nothing → s.target.IsComplete → s.backup.IsComplete
  | _, _ => True

/-! ### The condition -/

/-- A helper is started where the target is whole, nothing is in the way of the bundle that
is moved aside, what is copied is not a broken bundle, and the old bundle is put back. -/
def Allows (s : Install) (event : InstallEvent) : Prop :=
  match s.stage, event with
  | .ended _, .launch _ | .cutOff, .launch _ => s.target.IsComplete
  | .moveAside, .runs .all | .moveAside, .cut .all => s.backup = .missing
  | .unpack, .runs .all | .unpack, .cut .all => s.staged ≠ .broken
  | .moveBack, .runs extent => extent = .all ∧ s.target = .missing
  | .moveBack, .cut .all => s.target = .missing
  | _, _ => True

instance (s : Install) (event : InstallEvent) : Decidable (s.Allows event) := by
  unfold Allows
  split <;> infer_instance

/-! ### Each command -/

/-- Where a whole bundle is, by the command that comes next. -/
def Held (s : Install) : Prop :=
  match s.stage with
  | .unpack => s.target = .missing ∧ s.backup.IsComplete
  | .clearTarget | .testBackup | .moveBack => s.backup.IsComplete
  | .cutOff => s.target.IsComplete ∨ s.backup.IsComplete
  | _ => s.target.IsComplete

theorem Held.sound {s : Install} (h : s.Held) : s.Sound := by
  unfold Held at h
  constructor
  · split at h
    · exact .inr h.2
    · exact .inr h
    · exact .inr h
    · exact .inr h
    · exact h
    · exact .inl h
  · intro status hended
    rw [hended] at h
    exact h

theorem Held.spares {s : Install} (h : s.Held) (event : InstallEvent) : s.Spares event := by
  obtain ⟨target, backup, staged, stage⟩ := s
  cases stage with
  | discardBackup | discardPrevious | clearTarget =>
    cases event with
    | runs _ | cut _ => exact fun _ _ => h
    | launch _ | running | exited => trivial
  | _ => trivial

theorem Held.runs {s : Install} {extent : Extent} (h : s.Held)
    (hcommand : atCommand s.stage = true) (hallows : s.Allows (.runs extent)) :
    Held { s.effect extent with stage := s.next extent } := by
  obtain ⟨target, backup, staged, stage⟩ := s
  cases stage with
  | waiting _ | ended _ | cutOff => cases hcommand
  | discardBackup | discardPrevious | relaunch | reopen => exact h
  | testTarget =>
    have htarget : target ≠ .missing := Bundle.IsComplete.ne_missing h
    simpa [Held, next, effect, htarget] using h
  | moveAside =>
    cases extent with
    | nothing | part => exact h
    | all =>
      have hbackup : backup = .missing := hallows
      subst hbackup
      exact ⟨rfl, h⟩
  | unpack =>
    obtain ⟨htarget, hbackup⟩ := h
    have htarget : target = .missing := htarget
    subst htarget
    cases extent with
    | nothing | part => exact hbackup
    | all =>
      have hstaged : staged ≠ .broken := hallows
      cases staged with
      | missing => exact hbackup
      | broken => exact absurd rfl hstaged
      | complete build => exact ⟨build, rfl⟩
  | clearTarget => exact h
  | testBackup =>
    have hbackup : backup ≠ .missing := Bundle.IsComplete.ne_missing h
    simpa [Held, next, effect, hbackup] using h
  | moveBack =>
    obtain ⟨hall, htarget⟩ := hallows
    have htarget : target = .missing := htarget
    subst hall htarget
    exact h

theorem Held.cut {s : Install} {extent : Extent} (h : s.Held) (hallows : s.Allows (.cut extent)) :
    Held { s.effect extent with stage := .cutOff } := by
  obtain ⟨target, backup, staged, stage⟩ := s
  cases stage with
  | waiting _ | ended _ | relaunch | reopen | testTarget | discardBackup | discardPrevious =>
    exact .inl h
  | cutOff => exact h
  | moveAside =>
    cases extent with
    | nothing | part => exact .inl h
    | all =>
      have hbackup : backup = .missing := hallows
      subst hbackup
      exact .inr h
  | unpack => exact .inr h.2
  | clearTarget | testBackup => exact .inr h
  | moveBack =>
    cases extent with
    | nothing | part => exact .inr h
    | all =>
      have htarget : target = .missing := hallows
      subst htarget
      exact .inl h

theorem Held.step {s s' : Install} {event : InstallEvent} (h : s.Held) (hallows : s.Allows event)
    (hstep : s.step event = some s') : s'.Held := by
  cases event with
  | launch staged =>
    obtain ⟨target, backup, staged', stage⟩ := s
    cases stage with
    | ended _ | cutOff =>
      obtain ⟨⟩ := hstep
      exact hallows
    | _ => cases hstep
  | running =>
    obtain ⟨target, backup, staged', stage⟩ := s
    cases stage with
    | waiting waited =>
      obtain ⟨⟩ := hstep
      show Held ⟨target, backup, staged', if attempts < waited + 1 then _ else _⟩
      split
      · exact h
      · exact h
    | _ => cases hstep
  | exited =>
    obtain ⟨target, backup, staged', stage⟩ := s
    cases stage with
    | waiting _ =>
      obtain ⟨⟩ := hstep
      exact h
    | _ => cases hstep
  | runs extent =>
    simp only [Install.step] at hstep
    split at hstep <;> obtain ⟨⟩ := hstep
    exact h.runs ‹_› hallows
  | cut extent =>
    simp only [Install.step] at hstep
    split at hstep
    · cases hstep
    · cases hstep
    · obtain ⟨⟩ := hstep
      exact h.cut hallows

/-! ### Which bundles there are -/

/-- The bundle is at one of the two paths, or is to be copied. -/
def Has (build : String) (s : Install) : Prop :=
  s.target = .complete build ∨ s.backup = .complete build ∨ s.staged = .complete build

theorem Has.of_effect {s : Install} {extent : Extent} {build : String}
    (h : Has build (s.effect extent)) : s.Has build := by
  obtain ⟨target, backup, staged, stage⟩ := s
  cases stage with
  | discardBackup | discardPrevious => exact h.imp_right (.imp_left Bundle.of_remove)
  | moveAside =>
    cases extent with
    | nothing | part => exact h
    | all =>
      rcases h with h | h | h
      · cases h
      · exact .inl (Bundle.of_takeIn h)
      · exact .inr (.inr h)
  | unpack =>
    rcases h with h | h | h
    · exact (Bundle.of_unpack h).imp_right .inr
    · exact .inr (.inl h)
    · exact .inr (.inr h)
  | clearTarget => exact h.imp_left Bundle.of_remove
  | moveBack =>
    cases extent with
    | nothing | part => exact h
    | all =>
      rcases h with h | h | h
      · exact .inr (.inl (Bundle.of_takeIn h))
      · cases h
      · exact .inr (.inr h)
  | _ => exact h

theorem Has.of_step {s s' : Install} {event : InstallEvent} {build : String}
    (hstep : s.step event = some s') (h : s'.Has build) :
    s.Has build ∨ event = .launch (.complete build) := by
  cases event with
  | launch staged =>
    simp only [Install.step] at hstep
    split at hstep
    · obtain ⟨⟩ := hstep
      rcases h with h | h | h
      · exact .inl (.inl h)
      · exact .inl (.inr (.inl h))
      · exact .inr (congrArg InstallEvent.launch h)
    · obtain ⟨⟩ := hstep
      rcases h with h | h | h
      · exact .inl (.inl h)
      · exact .inl (.inr (.inl h))
      · exact .inr (congrArg InstallEvent.launch h)
    · cases hstep
  | running | exited =>
    simp only [Install.step] at hstep
    split at hstep <;> obtain ⟨⟩ := hstep
    exact .inl h
  | runs extent =>
    simp only [Install.step] at hstep
    split at hstep <;> obtain ⟨⟩ := hstep
    exact .inl (Has.of_effect h)
  | cut extent =>
    simp only [Install.step] at hstep
    split at hstep
    · cases hstep
    · cases hstep
    · obtain ⟨⟩ := hstep
      exact .inl (Has.of_effect h)

/-- Whatever whole bundle is there was there at the start, or was staged for a helper. -/
theorem has_run {start s : Install} {events : List InstallEvent}
    (hrun : partialRun step start events = some s) {build : String} (h : s.Has build) :
    start.Has build ∨ .launch (.complete build) ∈ events := by
  refine partialRun_induction
    (P := fun events s => s.Has build → start.Has build ∨ .launch (.complete build) ∈ events)
    .inl ?_ hrun h
  intro earlier s event s' ih hstep h
  rcases Has.of_step hstep h with hbefore | rfl
  · exact (ih hbefore).imp_right (List.mem_append_left _)
  · exact .inr (List.mem_append_right _ (List.mem_singleton.mpr rfl))

/-! ### Every run -/

/--
**An update never loses the app.**  From an installed bundle on, through any runs of the
helper whose steps are allowed, each with any commands that fail and cut off anywhere: a
whole bundle is at the target or at the backup, at the target where the helper has ended;
none is deleted that is the only one; and what is there was installed before or is new.
-/
theorem update_keeps_the_app {start s : Install} {events : List InstallEvent} {status : Nat}
    (hended : start.stage = .ended status) (hinstalled : start.target.IsComplete)
    (hmeets : Meets Allows step start events) (hrun : partialRun step start events = some s) :
    s.Sound ∧ (∀ event, s.Spares event) ∧
      ∀ build, s.target = .complete build ∨ s.backup = .complete build →
        start.Has build ∨ .launch (.complete build) ∈ events := by
  have hstart : start.Held := by
    unfold Held
    rw [hended]
    exact hinstalled
  have hheld : s.Held :=
    Meets.invariant (fun _ _ _ h hallows hstep => h.step hallows hstep) hmeets hstart hrun
  refine ⟨hheld.sound, hheld.spares, fun build hthere => has_run hrun ?_⟩
  exact hthere.imp_right .inl

/-! ### One run that is allowed, and one that is not -/

def sampleInstall : Install := ⟨.complete "1", .missing, .missing, .ended 0⟩

/-- The copy fails half way, and the old bundle is put back; the next helper succeeds. -/
def sampleUpdates : List InstallEvent :=
  [.launch (.complete "2"), .running, .exited, .runs .all, .runs .all, .runs .all, .runs .part,
    .runs .all, .runs .all, .runs .all, .runs .all, .launch (.complete "2"), .exited, .runs .all,
    .runs .all, .runs .all, .runs .all, .runs .all]

theorem update_keeps_the_app_restored :
    ∃ s, partialRun step sampleInstall sampleUpdates = some s ∧ s.target = .complete "2" ∧
      s.Sound := by
  have hmeets : Meets Allows step sampleInstall sampleUpdates := by decide
  have hended : sampleInstall.stage = .ended 0 := rfl
  exact ⟨_, rfl, rfl, (update_keeps_the_app hended ⟨"1", rfl⟩ hmeets rfl).1⟩

/-- The copy is cut off half way, and the next helper deletes the bundle that was moved aside. -/
def interruptedUpdate : List InstallEvent :=
  [.launch (.complete "2"), .exited, .runs .all, .runs .all, .runs .all, .cut .part,
    .launch (.complete "2"), .exited, .runs .all]

/-- An interrupted update may lose the app. -/
theorem interrupted_update_loses_the_app :
    ¬∀ start s : Install, ∀ events : List InstallEvent, start.stage = .ended 0 →
      start.target.IsComplete → partialRun step start events = some s →
        s.target.IsComplete ∨ s.backup.IsComplete := by
  intro h
  have hlost := h sampleInstall _ interruptedUpdate rfl ⟨"1", rfl⟩ rfl
  revert hlost
  decide

end Install

end Diri
