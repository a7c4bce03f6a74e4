/-
Garbage collection never removes a Helper that is in use.

A build in use is covered by a collection that may still remove builds: it was collected,
or the session where it is used is still to be visited (`GcRun.Covers`).  A live Holder
keeps its session's lock and its own build in the state file, so that a visit that takes the
launch lock collects it.  What else is in use when a session is visited, or begins to be
used behind the walk, the collection has no means to see: `Allows` has it of builds that
are collected already.
-/
import Diri.Lib.Run
import Diri.Remote.Builds

namespace Diri

open List Table Option

/-- A Holder that has written its first state. -/
def BuildProcess.live : BuildProcess → Bool
  | .holder _ _ .running => true
  | _ => false

/-- A session whose live Holder is about to be looked at. -/
def GcRun.looksAt (run : GcRun) (sessionId : String) : Bool :=
  match run.phase with
  | .testing other | .reading other => other = sessionId
  | _ => false

/-- What a process uses the collection has collected, or will come across. -/
def GcRun.Covers (run : GcRun) (process : BuildProcess) : Prop :=
  ∀ use ∈ process.use, use.1 ∈ run.referenced ∨ use.2 ∈ run.todo ∨
    (process.live = true ∧ run.looksAt use.2 = true)

namespace HelperHost

variable {s s' : HelperHost} {run : GcRun} {pid : Nat} {build sessionId : String}
  {process : BuildProcess}

/-! ### The condition -/

/-- A launch by a build that is not collected begins only ahead of the walk, and a collection
begins where every session in use has its directory.  Where a session is visited, no launch
and no starting Holder there is of a build that is not collected, nor, if its launch lock is
not taken, a live Holder.  No build is unlinked between the probe of an activation and its
return. -/
def Allows (s : HelperHost) : BuildStep → Prop
  | .launch _ build sessionId =>
    ∀ run ∈ s.gc, build ∈ run.referenced ∨ sessionId ∈ run.todo
  | .beginGc build =>
    s.processes.All fun _ process => ∀ use ∈ process.use, use.1 = build ∨ use.2 ∈ s.directories
  | .visit sessionId taken =>
    ∀ run ∈ s.gc, s.processes.All fun _ process => ∀ use ∈ process.use,
      use.2 = sessionId → use.1 ∈ run.referenced ∨ (taken = true ∧ process.live = true)
  | .unlink build =>
    s.processes.All fun _ process => ∀ link ∈ s.links.lookup build,
      process ≠ .activate build (.probed link)
  | _ => True

instance (s : HelperHost) (step : BuildStep) : Decidable (s.Allows step) := by
  unfold Allows
  split <;> infer_instance

/-! ### What is kept -/

/-- A Holder that has the lock of its session, and one that has written its state. -/
structure Holds (s : HelperHost) (pid : Nat) (process : BuildProcess) : Prop where
  locked : ∀ build sessionId phase, process = .holder build sessionId phase → phase ≠ .starting →
    (s.slot sessionId).holderLock = some pid
  state : ∀ build sessionId, process = .holder build sessionId .running →
    ∀ other ∈ (s.slot sessionId).state, other = build
  /-- What an activation has probed is still linked. -/
  probed : ∀ build link, process = .activate build (.probed link) → (build, link) ∉ s.unlinked

/-- What a collection that may still remove builds has to know. -/
structure Collects (s : HelperHost) (run : GcRun) : Prop where
  covers : run.safe = true → s.processes.All fun _ process => run.Covers process
  todo : ∀ sessionId ∈ run.todo, sessionId ∈ s.directories
  visits : ∀ sessionId, run.visits = some sessionId → sessionId ∉ run.todo
  scanning : run.phase = .scanning → run.safe = true ∧ run.todo = []

structure Kept (s : HelperHost) : Prop where
  holds : s.processes.All (Holds s)
  collects : ∀ run, s.gc = some run → Collects s run
  linked : ∀ build link, s.links.lookup build = some link →
    link < s.nextLink ∧ (build, link) ∉ s.unlinked
  unlinked : ∀ entry ∈ s.unlinked, entry.2 < s.nextLink
  misused : s.misused = []
  deceived : s.deceived = []

theorem kept_empty : Kept {} where
  holds := .empty
  collects _ h := by cases h
  linked build link h := by
    cases h
  unlinked _ h := by cases h
  misused := rfl
  deceived := rfl

/-! ### Slots -/

theorem slot_setSlot (s : HelperHost) (sessionId other : String) (slot : SessionSlot) :
    (s.setSlot sessionId slot).slot other = if other = sessionId then slot else s.slot other := by
  unfold HelperHost.slot setSlot
  split
  · subst other
    rw [AList.lookup_insert]
    rfl
  · rw [AList.lookup_insert_ne ‹_›]

theorem slot_finish (s : HelperHost) (pid : Nat) (sessionId : String) :
    (s.finish pid).slot sessionId = release pid (s.slot sessionId) := by
  unfold HelperHost.slot finish
  rw [lookup_mapValues]
  cases s.slots.lookup sessionId <;> rfl

/-- Whoever has the lock of a session keeps it, and no other build gets into its state. -/
theorem Holds.frame (h : Holds s pid process)
    (hslot : ∀ sessionId, (s.slot sessionId).holderLock = some pid →
      (s'.slot sessionId).holderLock = some pid ∧
        ∀ build ∈ (s'.slot sessionId).state, build ∈ (s.slot sessionId).state)
    (hunlinked : s'.unlinked = s.unlinked) : Holds s' pid process where
  locked build sessionId phase hp hphase := (hslot sessionId (h.locked _ _ _ hp hphase)).1
  state build sessionId hp other hother := by
    have hlock := h.locked build sessionId .running hp nofun
    exact h.state build sessionId hp other ((hslot sessionId hlock).2 other hother)
  probed build link hp := by
    rw [hunlinked]
    exact h.probed build link hp

theorem Holds.same (h : Holds s pid process) (hslots : s'.slots = s.slots)
    (hunlinked : s'.unlinked = s.unlinked) : Holds s' pid process := by
  refine h.frame (fun sessionId hlock => ?_) hunlinked
  rw [show s'.slot sessionId = s.slot sessionId by rw [HelperHost.slot, hslots]; rfl]
  exact ⟨hlock, fun _ hin => hin⟩

/-- Nothing changes but locks, states and processes, and there are more directories. -/
structure Aside (s s' : HelperHost) : Prop where
  gc : s'.gc = s.gc
  links : s'.links = s.links
  nextLink : s'.nextLink = s.nextLink
  unlinked : s'.unlinked = s.unlinked
  misused : s'.misused = s.misused
  deceived : s'.deceived = s.deceived
  directories : ∀ sessionId ∈ s.directories, sessionId ∈ s'.directories

theorem Collects.frame (h : Collects s run) (haside : Aside s s')
    (hcovers : run.safe = true → s'.processes.All fun _ process => run.Covers process) :
    Collects s' run where
  covers := hcovers
  todo sessionId hin := haside.directories sessionId (h.todo sessionId hin)
  visits := h.visits
  scanning := h.scanning

theorem Kept.aside (h : s.Kept) (haside : Aside s s') (hholds : s'.processes.All (Holds s'))
    (hcovers : ∀ run, s.gc = some run → run.safe = true →
      s'.processes.All fun _ process => run.Covers process) : s'.Kept where
  holds := hholds
  collects run hrun := by
    rw [haside.gc] at hrun
    exact (h.collects run hrun).frame haside (hcovers run hrun)
  linked build link hlink := by
    rw [haside.links] at hlink
    rw [haside.nextLink, haside.unlinked]
    exact h.linked build link hlink
  unlinked := by
    rw [haside.nextLink, haside.unlinked]
    exact h.unlinked
  misused := haside.misused.trans h.misused
  deceived := haside.deceived.trans h.deceived

theorem Kept.covers (h : s.Kept) (hrun : s.gc = some run) (hsafe : run.safe = true)
    (hlookup : s.processes.lookup pid = some process) : run.Covers process :=
  (h.collects run hrun).covers hsafe pid process hlookup

theorem Kept.moves (h : s.Kept) {next : BuildProcess} (haside : Aside s s')
    (hprocesses : s'.processes = s.processes.insert pid next)
    (hothers : ∀ other found, other ≠ pid → Holds s other found → Holds s' other found)
    (hown : Holds s' pid next)
    (hcovers : ∀ run, s.gc = some run → run.safe = true → run.Covers next) : s'.Kept := by
  refine h.aside haside ?_ fun run hrun hsafe => ?_
  · intro other found hfound
    rw [hprocesses] at hfound
    rcases lookup_insert_cases hfound with ⟨rfl, rfl⟩ | ⟨hother, hold⟩
    · exact hown
    · exact hothers other found hother (h.holds other found hold)
  intro other found hfound
  rw [hprocesses] at hfound
  rcases lookup_insert_cases hfound with ⟨-, rfl⟩ | ⟨-, hold⟩
  · exact hcovers run hrun hsafe
  · exact h.covers hrun hsafe hold

theorem aside_refl (s : HelperHost) (slots : Table String SessionSlot)
    (processes : Table Nat BuildProcess) :
    Aside s { s with slots := slots, processes := processes } :=
  ⟨rfl, rfl, rfl, rfl, rfl, rfl, fun _ hin => hin⟩

theorem holds_quiet (hholder : ∀ build sessionId phase, process = .holder build sessionId phase →
      phase = .starting)
    (hprobed : ∀ build link, process ≠ .activate build (.probed link)) : Holds s pid process where
  locked build sessionId phase hp hphase := absurd (hholder build sessionId phase hp) hphase
  state build sessionId hp := by cases hholder build sessionId .running hp
  probed build link hp := absurd hp (hprobed build link)

theorem Kept.goTo (h : s.Kept) {next : BuildProcess} (hown : Holds s pid next)
    (hcovers : ∀ run, s.gc = some run → run.safe = true → run.Covers next) :
    (s.goTo pid next).Kept :=
  h.moves (aside_refl s s.slots _) rfl (fun _ _ _ hold => hold.same rfl rfl) (hown.same rfl rfl)
    hcovers

theorem covers_of_use {old next : BuildProcess} (h : run.Covers old) (huse : next.use = old.use)
    (hlive : old.live = true → next.live = true) : run.Covers next := by
  intro use hin
  rw [huse] at hin
  exact (h use hin).imp_right (.imp_right fun hlooks => ⟨hlive hlooks.1, hlooks.2⟩)

theorem Kept.setSlot (h : s.Kept) {next : BuildProcess} {slot : SessionSlot}
    (hslot : ∀ other, other ≠ pid → (s.slot sessionId).holderLock = some other →
      slot.holderLock = some other ∧ ∀ build ∈ slot.state, build ∈ (s.slot sessionId).state)
    (hown : Holds (s.setSlot sessionId slot) pid next)
    (hcovers : ∀ run, s.gc = some run → run.safe = true → run.Covers next) :
    ((s.setSlot sessionId slot).goTo pid next).Kept := by
  refine h.moves (aside_refl s _ _) rfl (fun other found hother hold => hold.frame ?_ rfl)
    (hown.same rfl rfl) hcovers
  intro place hlock
  have hplace : ((s.setSlot sessionId slot).goTo pid next).slot place
      = if place = sessionId then slot else s.slot place := slot_setSlot s sessionId place slot
  rw [hplace]
  split
  · subst place
    exact hslot other hother hlock
  · exact ⟨hlock, fun _ hin => hin⟩

theorem Kept.finish (h : s.Kept) (pid : Nat) : (s.finish pid).Kept := by
  refine h.aside (aside_refl s _ _) (fun other found hfound => ?_) fun run hrun hsafe => ?_
  · obtain ⟨hother, hold⟩ := lookup_erase_cases hfound
    refine (h.holds other found hold).frame (fun place hlock => ?_) rfl
    rw [slot_finish]
    have hkept : (release pid (s.slot place)).holderLock = some other := by
      rw [release, hlock]
      exact if_neg fun heq => hother (some.inj heq)
    exact ⟨hkept, fun _ hin => hin⟩
  · intro other found hfound
    exact h.covers hrun hsafe (lookup_erase_cases hfound).2

/-! ### The steps of the processes -/

theorem Kept.ensure (h : s.Kept) (sessionId : String) : (s.ensure sessionId).Kept := by
  have haside : Aside s (s.ensure sessionId) :=
    ⟨rfl, rfl, rfl, rfl, rfl, rfl, fun _ hin => List.mem_insert_of_mem hin⟩
  refine h.aside haside (fun other found hfound => ?_) fun run hrun hsafe other found hfound => ?_
  · exact (h.holds other found hfound).same rfl rfl
  · exact h.covers hrun hsafe hfound

theorem Kept.launch (h : s.Kept) {phase : LaunchPhase}
    (hlookup : s.processes.lookup pid = some (.launch build sessionId phase))
    (hstep : s.launch pid build sessionId phase = some s') : s'.Kept := by
  have hcovers : ∀ phase, ∀ run, s.gc = some run → run.safe = true →
      run.Covers (.launch build sessionId phase) := fun phase run hrun hsafe =>
    covers_of_use (h.covers hrun hsafe hlookup) rfl nofun
  cases phase with
  | ensuring =>
    obtain ⟨⟩ := hstep
    exact (h.ensure sessionId).goTo (holds_quiet nofun nofun) (hcovers _)
  | locking =>
    simp only [HelperHost.launch] at hstep
    split at hstep <;> obtain ⟨⟩ := hstep
    · exact h.setSlot (fun _ _ hlock => ⟨hlock, fun _ hin => hin⟩) (holds_quiet nofun nofun)
        (hcovers _)
    · exact h.finish pid
  | deciding | spawning => cases hstep
  | waiting =>
    obtain ⟨⟩ := hstep
    exact h.finish pid

theorem Kept.holder (h : s.Kept) {phase : HolderPhase}
    (hlookup : s.processes.lookup pid = some (.holder build sessionId phase))
    (hstep : s.holder pid build sessionId phase = some s') : s'.Kept := by
  have hpublish : phase ≠ .starting →
      ((s.setSlot sessionId { s.slot sessionId with state := some build }).goTo pid
        (.holder build sessionId .running)).Kept := by
    intro hphase
    have hlock := (h.holds pid _ hlookup).locked build sessionId phase rfl hphase
    refine h.setSlot (fun other hother hheld => ?_) ?_ fun run hrun hsafe =>
      covers_of_use (h.covers hrun hsafe hlookup) rfl fun _ => rfl
    · rw [hlock] at hheld
      exact absurd (some.inj hheld).symm hother
    exact {
      locked := fun other place phase hp _ => by
        obtain ⟨rfl, rfl, rfl⟩ := BuildProcess.holder.inj hp
        rw [slot_setSlot, if_pos rfl]
        exact hlock
      state := fun other place hp found hfound => by
        obtain ⟨rfl, rfl, -⟩ := BuildProcess.holder.inj hp
        rw [slot_setSlot, if_pos rfl] at hfound
        exact (some.inj hfound).symm
      probed := nofun }
  cases phase with
  | starting =>
    simp only [HelperHost.holder] at hstep
    split at hstep <;> obtain ⟨⟩ := hstep
    · have hfree : ((s.ensure sessionId).slot sessionId).holderLock = none := ‹_›
      refine (h.ensure sessionId).setSlot (fun other _ hheld => ?_) ?_ fun run hrun hsafe =>
        covers_of_use (h.covers hrun hsafe hlookup) rfl nofun
      · rw [hfree] at hheld
        cases hheld
      exact {
        locked := fun other place phase hp _ => by
          obtain ⟨rfl, rfl, -⟩ := BuildProcess.holder.inj hp
          rw [slot_setSlot, if_pos rfl]
        state := nofun
        probed := nofun }
    · exact (h.ensure sessionId).finish pid
  | locked | running =>
    obtain ⟨⟩ := hstep
    exact hpublish nofun

theorem covers_activate (run : GcRun) (build : String) (phase : ActivatePhase) :
    run.Covers (.activate build phase) := by
  intro use hin
  cases hin

theorem Kept.activate (h : s.Kept) {phase : ActivatePhase}
    (hlookup : s.processes.lookup pid = some (.activate build phase))
    (hstep : s.activate pid build phase = some s') : s'.Kept := by
  have hcovers : ∀ phase, ∀ run, s.gc = some run → run.safe = true →
      run.Covers (.activate build phase) := fun phase run _ _ => covers_activate run build phase
  cases phase with
  | uploaded =>
    have hnext : (s.goTo pid (.activate build .linked)).Kept :=
      h.goTo (holds_quiet nofun nofun) (hcovers _)
    simp only [HelperHost.activate] at hstep
    split at hstep <;> obtain ⟨⟩ := hstep
    · exact hnext
    refine ⟨fun other found hfound => ?_, fun run hrun => ?_, fun other link hlink => ?_, fun entry
      hentry => Nat.lt_succ_of_lt (h.unlinked entry hentry), h.misused, h.deceived⟩
    · exact (hnext.holds other found hfound).same rfl rfl
    · have hold := hnext.collects run hrun
      exact ⟨hold.covers, hold.todo, hold.visits, hold.scanning⟩
    · rcases lookup_insert_cases hlink with ⟨rfl, rfl⟩ | ⟨-, hold⟩
      · refine ⟨Nat.lt_succ_self _, fun hin => ?_⟩
        exact absurd (h.unlinked _ hin) (Nat.lt_irrefl _)
      · exact ⟨Nat.lt_succ_of_lt (h.linked other link hold).1, (h.linked other link hold).2⟩
  | linked =>
    simp only [HelperHost.activate] at hstep
    split at hstep <;> obtain ⟨⟩ := hstep
    · rename_i link hlink
      refine h.goTo ?_ (hcovers _)
      exact {
        locked := nofun
        state := nofun
        probed := fun other found hp => by
          obtain ⟨rfl, hphase⟩ := BuildProcess.activate.inj hp
          obtain rfl := ActivatePhase.probed.inj hphase
          exact (h.linked build link hlink).2 }
    · exact h.finish pid
  | probed link =>
    obtain ⟨⟩ := hstep
    have hlinked : (build, link) ∉ s.unlinked := (h.holds pid _ hlookup).probed build link rfl
    have hnext := h.finish pid
    simp only [hlinked, if_false]
    exact hnext

theorem Kept.decide (h : s.Kept) {live : Bool} (hstep : s.step (.decide pid live) = some s') :
    s'.Kept := by
  obtain ⟨process, hlookup, hrest⟩ := bind_eq_some_iff.mp hstep
  split at hrest
  case h_2 => cases hrest
  rename_i build sessionId
  dsimp only at hrest
  split at hrest
  · split at hrest <;> obtain ⟨⟩ := hrest
    exact h.finish pid
  obtain ⟨⟩ := hrest
  refine h.setSlot (fun _ _ hlock => ⟨hlock, nofun⟩) (holds_quiet nofun nofun)
    fun run hrun hsafe => covers_of_use (h.covers hrun hsafe hlookup) rfl nofun

theorem Kept.spawn (h : s.Kept) {child : Nat} (hstep : s.step (.spawn pid child) = some s') :
    s'.Kept := by
  obtain ⟨process, hlookup, hrest⟩ := bind_eq_some_iff.mp hstep
  split at hrest
  case h_2 => cases hrest
  rename_i build sessionId
  split at hrest <;> obtain ⟨⟩ := hrest
  have hwaits : (s.goTo pid (.launch build sessionId .waiting)).Kept :=
    h.goTo (holds_quiet nofun nofun) fun run hrun hsafe =>
      covers_of_use (h.covers hrun hsafe hlookup) rfl nofun
  refine hwaits.goTo (holds_quiet ?_ nofun) fun run hrun hsafe =>
    covers_of_use (h.covers hrun hsafe hlookup) rfl nofun
  intro other place phase hp
  exact (BuildProcess.holder.inj hp).2.2.symm

/-! ### The steps of a collection -/

theorem Kept.setGc (h : s.Kept) (hcollects : Collects s run) : (s.setGc run).Kept where
  holds other found hfound := (h.holds other found hfound).same rfl rfl
  collects other hother := by
    obtain ⟨⟩ := hother
    exact ⟨hcollects.covers, hcollects.todo, hcollects.visits, hcollects.scanning⟩
  linked := h.linked
  unlinked := h.unlinked
  misused := h.misused
  deceived := h.deceived

theorem Kept.noGc (h : s.Kept) : Kept { s with gc := none } where
  holds other found hfound := (h.holds other found hfound).same rfl rfl
  collects _ hother := by cases hother
  linked := h.linked
  unlinked := h.unlinked
  misused := h.misused
  deceived := h.deceived

theorem collects_begin (hknown : s.processes.All fun _ process => ∀ use ∈ process.use,
      use.1 = build ∨ use.2 ∈ s.directories) :
    Collects s { build := build, todo := s.directories, referenced := [build] } where
  covers _ other found hfound use hin :=
    (hknown other found hfound use hin).imp List.mem_singleton.mpr .inl
  todo _ hin := hin
  visits _ hv := by cases hv
  scanning hscan := by cases hscan

theorem Collects.visit (h : Collects s run) (hwalking : run.phase = .walking) {taken : Bool}
    (hknown : s.processes.All fun _ process => ∀ use ∈ process.use, use.2 = sessionId →
      use.1 ∈ run.referenced ∨ (taken = true ∧ process.live = true)) : Collects s { run with
      phase := if taken then .testing sessionId else .walking
      todo := run.todo.filter (· ≠ sessionId) } where
  covers hsafe other found hfound use hin := by
    by_cases hplace : use.2 = sessionId
    · rcases hknown other found hfound use hin hplace with hin | ⟨rfl, hlive⟩
      · exact .inl hin
      · exact .inr (.inr ⟨hlive, by simp [GcRun.looksAt, hplace]⟩)
    rcases h.covers hsafe other found hfound use hin with hin | hin | ⟨-, hlooks⟩
    · exact .inl hin
    · exact .inr (.inl (List.mem_filter.mpr ⟨hin, by simpa using hplace⟩))
    · simp [GcRun.looksAt, hwalking] at hlooks
  todo place hin := h.todo place (mem_of_mem_filter hin)
  visits place hv := by
    intro hin
    have hne := (List.mem_filter.mp hin).2
    cases taken with
    | true =>
      obtain ⟨⟩ := hv
      simp at hne
    | false => cases hv
  scanning hscan := by cases taken <;> cases hscan

theorem Kept.unlived (h : s.Kept) (hfree : (s.slot sessionId).holderLock = none)
    (hlookup : s.processes.lookup pid = some process) (hlive : process.live = true) :
    ∀ use ∈ process.use, use.2 ≠ sessionId := by
  intro use hin
  cases process with
  | holder build place phase =>
    cases phase with
    | running =>
      obtain ⟨⟩ := hin
      rintro rfl
      have hlock := (h.holds pid _ hlookup).locked build _ .running rfl nofun
      rw [hfree] at hlock
      cases hlock
    | _ => cases hlive
  | _ => cases hlive

theorem Kept.state_of_live (h : s.Kept) (hlookup : s.processes.lookup pid = some process)
    (hlive : process.live = true) :
    ∀ use ∈ process.use, ∀ other ∈ (s.slot use.2).state, other = use.1 := by
  intro use hin
  cases process with
  | holder build place phase =>
    cases phase with
    | running =>
      obtain ⟨⟩ := hin
      exact (h.holds pid _ hlookup).state build place rfl
    | _ => cases hlive
  | _ => cases hlive

theorem Kept.stepGc (h : s.Kept) (hrun : s.gc = some run) (hstep : s.stepGc run = some s') :
    s'.Kept := by
  have hcollects := h.collects run hrun
  unfold HelperHost.stepGc at hstep
  cases hphase : run.phase with
  | walking | scanning => simp [hphase] at hstep
  | testing sessionId =>
    simp only [hphase, some.injEq] at hstep
    subst hstep
    have hvisits := hcollects.visits sessionId (by simp [GcRun.visits, hphase])
    refine h.setGc ⟨fun hsafe other found hfound use hin => ?_, hcollects.todo,
      fun place hv => ?_, fun hscan => ?_⟩
    · rcases hcollects.covers hsafe other found hfound use hin with hin | hin | ⟨hlive, hlooks⟩
      · exact .inl hin
      · exact .inr (.inl hin)
      · have hplace : sessionId = use.2 := by simpa [GcRun.looksAt, hphase] using hlooks
        cases hheld : (s.slot sessionId).holderLock with
        | some holder => exact .inr (.inr ⟨hlive, by simp [GcRun.looksAt, hplace]⟩)
        | none => exact absurd hplace.symm (h.unlived hheld hfound hlive use hin)
    · have hplace : sessionId = place := by
        cases hheld : (s.slot sessionId).holderLock <;> simpa [GcRun.visits, hheld] using hv
      exact hplace ▸ hvisits
    · cases hheld : (s.slot sessionId).holderLock <;> simp [hheld] at hscan
  | reading sessionId =>
    simp only [hphase] at hstep
    split at hstep <;> obtain ⟨⟩ := hstep
    · rename_i found hstate
      refine h.setGc ⟨fun hsafe other process hprocess use hin => ?_, hcollects.todo,
        (fun _ hv => by cases hv), fun hscan => by cases hscan⟩
      rcases hcollects.covers hsafe other process hprocess use hin with
        hin | hin | ⟨hlive, hlooks⟩
      · exact .inl (mem_cons_of_mem _ hin)
      · exact .inr (.inl hin)
      obtain rfl : sessionId = use.2 := by simpa [GcRun.looksAt, hphase] using hlooks
      have hown := h.state_of_live hprocess hlive use hin found hstate
      exact .inl (hown ▸ mem_cons_self)
    · exact h.setGc ⟨(fun hsafe => by cases hsafe), hcollects.todo, (fun _ hv => by cases hv),
        fun hscan => by cases hscan⟩
  | removing sessionId =>
    simp only [hphase, some.injEq] at hstep
    subst hstep
    have hvisits := hcollects.visits sessionId (by simp [GcRun.visits, hphase])
    refine ⟨fun other found hfound => ?_, fun other hother => ?_, h.linked, h.unlinked, h.misused,
      h.deceived⟩
    · refine (h.holds other found hfound).frame (fun place hlock => ?_) rfl
      let cleared := s.setSlot sessionId { s.slot sessionId with state := none }
      have hcleared : (cleared.slot place).holderLock = some other ∧
          ∀ build ∈ (cleared.slot place).state, build ∈ (s.slot place).state := by
        rw [slot_setSlot]
        split
        · subst place
          exact ⟨hlock, fun _ hin => by cases hin⟩
        · exact ⟨hlock, fun _ hin => hin⟩
      exact hcleared
    obtain ⟨⟩ := hother
    refine ⟨fun hsafe third found hfound use hin => ?_, fun place hin => ?_,
      (fun _ hv => by cases hv), fun hscan => by cases hscan⟩
    · rcases hcollects.covers hsafe third found hfound use hin with hin | hin | ⟨-, hlooks⟩
      · exact .inl hin
      · exact .inr (.inl hin)
      · simp [GcRun.looksAt, hphase] at hlooks
    · have hne : place ≠ sessionId := by
        rintro rfl
        exact hvisits hin
      exact (mem_erase_of_ne hne).mpr (hcollects.todo place hin)

theorem Collects.scan (h : Collects s run) (hwalking : run.phase = .walking)
    (hsafe : run.safe = true) (hover : run.todo.all (· ∉ s.directories) = true) :
    Collects s { run with phase := .scanning } := by
  have hempty : run.todo = [] := by
    refine eq_nil_iff_forall_not_mem.mpr fun place hin => ?_
    have hgone := all_eq_true.mp hover place hin
    exact absurd (h.todo place hin) (by simpa using hgone)
  refine ⟨fun _ other found hfound use hin => ?_, h.todo, (fun _ hv => by cases hv),
    fun _ => ⟨hsafe, hempty⟩⟩
  rcases h.covers hsafe other found hfound use hin with hin | hin | ⟨-, hlooks⟩
  · exact .inl hin
  · exact .inr (.inl hin)
  · simp [GcRun.looksAt, hwalking] at hlooks

section
variable (h : s.Kept) (hrun : s.gc = some run)
include h hrun

theorem Kept.referenced (hscan : run.phase = .scanning)
    (hlookup : s.processes.lookup pid = some process) :
    ∀ use ∈ process.use, use.1 ∈ run.referenced := by
  intro use hin
  obtain ⟨hsafe, hempty⟩ := (h.collects run hrun).scanning hscan
  rcases h.covers hrun hsafe hlookup use hin with hin | hin | ⟨-, hlooks⟩
  · exact hin
  · rw [hempty] at hin
    cases hin
  · simp [GcRun.looksAt, hscan] at hlooks

theorem Kept.unused (hscan : run.phase = .scanning)
    (hbuild : build ∉ run.referenced) : s.uses build = false := by
  by_contra huses
  rw [Bool.not_eq_false, uses, List.any_eq_true] at huses
  obtain ⟨process, hprocess, hany⟩ := huses
  obtain ⟨pid, hlookup⟩ := Table.mem_values.mp hprocess
  obtain ⟨use, hin, hsame⟩ := (any_eq_true _ _).mp hany
  have hreferenced := h.referenced hrun hscan hlookup use hin
  rw [of_decide_eq_true hsame] at hreferenced
  exact hbuild hreferenced

theorem Kept.unlink (hallows : s.Allows (.unlink build))
    (hstep : s.unlink run build = some s') : s'.Kept := by
  unfold HelperHost.unlink at hstep
  split at hstep
  · cases hstep
  rename_i link hlink
  split at hstep
  case isFalse => cases hstep
  obtain ⟨hscan, hbuild⟩ := ‹_ ∧ _›
  obtain ⟨⟩ := hstep
  refine ⟨fun other found hfound => ?_, fun other hother => ?_, fun other found hfound => ?_,
    fun entry hentry => ?_, ?_, h.deceived⟩
  · have hold := h.holds other found hfound
    refine ⟨hold.locked, hold.state, fun name probed hp hin => ?_⟩
    rcases mem_cons.mp hin with heq | hin
    · obtain ⟨rfl, rfl⟩ := Prod.mk.inj heq
      exact hallows other found hfound _ hlink hp
    · exact hold.probed name probed hp hin
  · have hold := h.collects other hother
    exact ⟨hold.covers, hold.todo, hold.visits, hold.scanning⟩
  · obtain ⟨hne, hold⟩ := lookup_erase_cases hfound
    refine ⟨(h.linked other found hold).1, fun hin => ?_⟩
    rcases mem_cons.mp hin with heq | hin
    · exact hne (Prod.mk.inj heq).1
    · exact (h.linked other found hold).2 hin
  · rcases mem_cons.mp hentry with rfl | hin
    · exact (h.linked build link hlink).1
    · exact h.unlinked entry hin
  · rw [h.unused hrun hscan hbuild]
    exact h.misused

end

/-! ### Every step, and every run -/

theorem Kept.step {step : BuildStep} (h : s.Kept) (hallows : s.Allows step)
    (hstep : s.step step = some s') : s'.Kept := by
  cases step with
  | launch pid build sessionId =>
    simp only [HelperHost.step] at hstep
    split at hstep <;> obtain ⟨⟩ := hstep
    refine h.goTo (holds_quiet nofun nofun) fun run hrun _ use hin => ?_
    obtain ⟨⟩ := hin
    exact (hallows run hrun).imp_right .inl
  | upload pid build =>
    simp only [HelperHost.step] at hstep
    split at hstep <;> obtain ⟨⟩ := hstep
    exact h.goTo (holds_quiet nofun nofun) fun run _ _ => covers_activate run build _
  | step pid =>
    obtain ⟨process, hlookup, hrest⟩ := bind_eq_some_iff.mp hstep
    cases process with
    | launch build sessionId phase => exact h.launch hlookup hrest
    | holder build sessionId phase => exact h.holder hlookup hrest
    | activate build phase => exact h.activate hlookup hrest
  | decide pid live => exact h.decide hstep
  | spawn pid child => exact h.spawn hstep
  | finish pid =>
    simp only [HelperHost.step] at hstep
    split at hstep <;> obtain ⟨⟩ := hstep
    exact h.finish pid
  | beginGc build =>
    simp only [HelperHost.step] at hstep
    split at hstep <;> obtain ⟨⟩ := hstep
    exact h.setGc (collects_begin hallows)
  | visit sessionId taken =>
    obtain ⟨run, hrun, hrest⟩ := bind_eq_some_iff.mp hstep
    split at hrest <;> obtain ⟨⟩ := hrest
    exact h.setGc ((h.collects run hrun).visit ‹_ ∧ _›.1 (hallows run hrun))
  | stepGc =>
    obtain ⟨run, hrun, hrest⟩ := bind_eq_some_iff.mp hstep
    exact h.stepGc hrun hrest
  | scan =>
    obtain ⟨run, hrun, hrest⟩ := bind_eq_some_iff.mp hstep
    split at hrest
    · obtain ⟨hwalking, hover⟩ := ‹_ ∧ _›
      split at hrest <;> obtain ⟨⟩ := hrest
      · exact h.setGc ((h.collects run hrun).scan hwalking ‹_› hover)
      · exact h.noGc
    · cases hrest
  | unlink build =>
    obtain ⟨run, hrun, hrest⟩ := bind_eq_some_iff.mp hstep
    exact h.unlink hrun hallows hrest
  | endGc =>
    simp only [HelperHost.step] at hstep
    split at hstep <;> obtain ⟨⟩ := hstep
    exact h.noGc

/--
**Garbage collection never removes a Helper that is in use.**  In every state that a run of
allowed steps reaches: no build was unlinked that a launch, a Holder that started or one that
ran was of; no activation has returned success for a link that had been unlinked; and a
collection that removes builds has collected every build that is in use.
-/
theorem gc_spares_builds_in_use {steps : List BuildStep}
    (hmeets : Meets Allows HelperHost.step {} steps)
    (hrun : partialRun HelperHost.step {} steps = some s) :
    s.misused = [] ∧ s.deceived = [] ∧ ∀ run, s.gc = some run → run.phase = .scanning →
        ∀ pid process, s.processes.lookup pid = some process →
          ∀ use ∈ process.use, use.1 ∈ run.referenced := by
  have hkept : s.Kept :=
    Meets.invariant (fun _ _ _ h hallows hstep => h.step hallows hstep) hmeets kept_empty hrun
  exact ⟨hkept.misused, hkept.deceived,
    fun run hgc hscan pid process hlookup => hkept.referenced hgc hscan hlookup⟩

/-! ### One run that is allowed, and one that is not -/

/-- A build is uploaded and activated. -/
def install (pid : Nat) (build : String) : List BuildStep :=
  [.upload pid build, .step pid, .step pid, .step pid]

/-- A launch starts a Holder, which writes its state. -/
def launchBuild (pid child : Nat) (build sessionId : String) : List BuildStep :=
  [.launch pid build sessionId, .step pid, .step pid, .decide pid false, .spawn pid child,
    .step child, .step child, .step pid]

/-- A newer build collects the builds: the one of the live Holder stays, one that nothing uses
goes. -/
def collected : List BuildStep :=
  install 1 "a" ++ launchBuild 2 3 "a" "s" ++ install 4 "unused" ++ install 5 "b" ++
    [.beginGc "b", .visit "s" true, .stepGc, .stepGc, .scan, .unlink "unused"]

theorem gc_spares_builds_in_use_held : ∃ s, partialRun HelperHost.step {} collected = some s ∧
      s.installed "a" = true ∧ s.installed "unused" = false ∧ s.misused = [] := by
  have hmeets : Meets Allows HelperHost.step {} collected := by decide +kernel
  have hend : (partialRun HelperHost.step {} collected).map
      (fun s => (s.installed "a", s.installed "unused")) = some (true, false) := by
    decide +kernel
  obtain ⟨s, hrun, hs⟩ := map_eq_some_iff.mp hend
  obtain ⟨hused, hunused⟩ := Prod.mk.inj hs
  exact ⟨s, hrun, hused, hunused, (gc_spares_builds_in_use hmeets hrun).1⟩

/-- While the session of a live Holder is launched again, it is passed over. -/
def passedOver : List BuildStep :=
  install 1 "a" ++ launchBuild 2 3 "a" "s" ++ install 4 "b" ++
    [.launch 5 "a" "s", .step 5, .step 5, .beginGc "b", .visit "s" false, .scan, .unlink "a"]

/-- The build of a live Holder may be removed. -/
theorem removes_live_build : ¬∀ (steps : List BuildStep) (s : HelperHost),
      partialRun HelperHost.step {} steps = some s → s.misused = [] := by
  intro h
  have hend : (partialRun HelperHost.step {} passedOver).map (·.misused) = some ["a"] := by
    decide +kernel
  obtain ⟨s, hrun, hmisused⟩ := map_eq_some_iff.mp hend
  rw [h passedOver s hrun] at hmisused
  cases hmisused

end HelperHost

end Diri
