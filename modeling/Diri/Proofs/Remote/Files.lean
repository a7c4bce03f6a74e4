/-
A live Holder keeps its files.

What matters of a process is its part in the session (`Part`).  Two processes whose parts
exclude each other never meet: who clears the session's files is the only one there with
the launch lock, and no Holder is alive; who decides whether to clear them meets no Holder
that is still starting; and there is one Holder.  A Holder that has written its first state
holds the lock on the file that everyone opens, so that a test of it cannot miss it.

The code ensures this as long as each Holder is started under its launch's lock to the end,
`launch` looks at a session whose state can be read and whose socket is there, and a state
that `inspect` or `kill` writes back replaces one of the incarnation that they read
(`Allows`).
-/
import Diri.Lib.Run
import Diri.Remote.Commands

namespace Diri

open HelperProcess List

/-! ### The parts that processes have -/

/-- A process's part in the session, with the inode that it has opened to test or to lock. -/
inductive Part where
  | idle
  /-- With the launch lock, it decides whether the session is dead. -/
  | deciding (opened : Option Nat)
  /-- With the launch lock, it found no Holder. -/
  | clearing
  | waiting
  | starting (opened : Option Nat) (locked : Bool)
  | established (incarnation : Nat)
  deriving DecidableEq

namespace Part

def hasLaunchLock : Part → Bool
  | deciding _ | clearing | waiting => true
  | _ => false

def opened : Part → Option Nat
  | deciding opened | starting opened _ => opened
  | _ => none

/-- It holds the Holder lock for as long as it lives. -/
def locked : Part → Bool
  | starting _ locked => locked
  | established _ => true
  | _ => false

/-- The two may meet. -/
def agrees : Part → Part → Bool
  | starting _ _, idle | starting _ _, waiting => true
  | starting _ _, _ => false
  | established _, idle | established _, waiting | established _, deciding _ => true
  | established _, _ => false
  | clearing, starting _ _ | clearing, established _ | deciding _, starting _ _ => false
  | _, _ => true

theorem agrees_comm (part other : Part) : part.agrees other = other.agrees part := by
  cases part <;> cases other <;> rfl

@[simp] theorem idle_agrees (part : Part) : idle.agrees part = true := by
  cases part <;> rfl

@[simp] theorem waiting_agrees (part : Part) : waiting.agrees part = true := by
  cases part <;> rfl

/-- Who decides may decide to clear the session where no Holder is established. -/
theorem clearing_agrees {part : Part} {opened : Option Nat}
    (h : (deciding opened).agrees part = true)
    (hestablished : ∀ incarnation, part ≠ established incarnation) :
    clearing.agrees part = true := by
  cases part with
  | starting _ _ => cases h
  | established incarnation => exact absurd rfl (hestablished incarnation)
  | _ => rfl

theorem established_agrees {part : Part} {opened : Option Nat} {locked : Bool} {incarnation : Nat}
    (h : (starting opened locked).agrees part = true) :
    (established incarnation).agrees part = true := by
  cases part with
  | idle | waiting => rfl
  | _ => cases h

end Part

/-- The part of who tests the Holder lock under the launch lock. -/
def LockTest.part : LockTest → Part
  | .closed => .deciding none
  | .opened inode => .deciding (some inode)
  | .taken => .clearing

def LaunchStage.part : LaunchStage → Part
  | .locking => .idle
  | .reading | .looking => .deciding none
  | .testing test => test.part
  | .resetting _ | .initializing | .spawning => .clearing
  | .waiting _ _ => .waiting

def GcStage.part : GcStage → Part
  | .locking => .idle
  | .testing test => test.part
  | .removing _ => .clearing

def HolderStage.part (incarnation : Nat) : HolderStage → Part
  | .initializing | .opening => .starting none false
  | .locking inode => .starting (some inode) false
  | .clearing | .binding | .logging | .publishing => .starting none true
  | .running _ => .established incarnation

def HelperProcess.part : HelperProcess → Part
  | .launch _ stage => stage.part
  | .gc stage => stage.part
  | .holder incarnation _ stage => stage.part incarnation
  | .inspect _ _ | .kill _ _ | .ended => .idle

variable {process : HelperProcess}

theorem HelperProcess.holder_of_established (h : process.established = true) :
    ∃ incarnation token exited, process = .holder incarnation token (.running exited) := by
  cases process with
  | holder incarnation token stage =>
    cases stage with
    | running exited => exact ⟨incarnation, token, exited, rfl⟩
    | _ => cases h
  | _ => cases h

theorem HelperProcess.established_of_part {incarnation : Nat}
    (h : process.part = .established incarnation) : process.established = true := by
  cases process with
  | launch token stage | gc stage =>
    cases stage with
    | testing test => cases test <;> cases h
    | _ => cases h
  | holder incarnation token stage =>
    cases stage with
    | running exited => rfl
    | _ => cases h
  | _ => cases h

theorem HelperProcess.starting_of_part {opened : Option Nat}
    {locked : Bool} (h : process.part = .starting opened locked) : process.starting = true := by
  cases process with
  | launch token stage | gc stage =>
    cases stage with
    | testing test => cases test <;> cases h
    | _ => cases h
  | holder incarnation token stage =>
    cases stage with
    | running exited => cases h
    | _ => rfl
  | _ => cases h

/-! ### What each process needs -/

namespace RemoteSession

variable {s s' : RemoteSession} {pid : Nat} {process : HelperProcess} {part : Part}

/-- A process may have this part: what it needs of the session, and of the other processes. -/
structure Fits (s : RemoteSession) (pid : Nat) (part : Part) : Prop where
  launchLock : part.hasLaunchLock = true → s.launchLock = some pid
  agrees : ∀ other process, s.processes.lookup other = some process → other ≠ pid →
    part.agrees process.part = true
  state : ∀ incarnation, part = .established incarnation →
    ∃ state, s.files.state = some state ∧ state.incarnation = incarnation
  locked : part.locked = true → ∃ inode, s.files.lock = some inode ∧ (inode, pid) ∈ s.locks
  opened : ∀ inode, part.opened = some inode → s.files.lock = some inode

structure Kept (s : RemoteSession) : Prop where
  fits : s.processes.All fun pid process => Fits s pid process.part
  harm : s.harm = []

theorem fits_idle (s : RemoteSession) (pid : Nat) : Fits s pid .idle where
  launchLock h := by cases h
  agrees _ _ _ _ := Part.idle_agrees _
  state _ h := by cases h
  locked h := by cases h
  opened _ h := by cases h

theorem Fits.frame (h : Fits s pid part) (hprocesses : s'.processes = s.processes)
    (hlaunch : part.hasLaunchLock = true → s'.launchLock = s.launchLock)
    (hstate : ∀ incarnation, part = .established incarnation →
      (∃ state, s.files.state = some state ∧ state.incarnation = incarnation) →
      ∃ state, s'.files.state = some state ∧ state.incarnation = incarnation)
    (hlock : ∀ inode, part.locked = true ∨ part.opened = some inode → s.files.lock = some inode →
      s'.files.lock = some inode)
    (hlocks : part.locked = true → ∀ inode, (inode, pid) ∈ s.locks → (inode, pid) ∈ s'.locks) :
    Fits s' pid part where
  launchLock hp := (hlaunch hp).trans (h.launchLock hp)
  agrees other process hother := by
    rw [hprocesses] at hother
    exact h.agrees other process hother
  state incarnation hp := hstate incarnation hp (h.state incarnation hp)
  locked hp := by
    obtain ⟨inode, hinode, hheld⟩ := h.locked hp
    exact ⟨inode, hlock inode (.inl hp) hinode, hlocks hp inode hheld⟩
  opened inode hp := hlock inode (.inr hp) (h.opened inode hp)

theorem Kept.goTo (h : s.Kept) (hfits : Fits s pid process.part) : (s.goTo pid process).Kept where
  fits other found hfound := by
    rcases Table.lookup_insert_cases hfound with ⟨rfl, rfl⟩ | ⟨hother, hold⟩
    · refine ⟨hfits.launchLock, fun third third' hthird hne => ?_, hfits.state, hfits.locked,
        hfits.opened⟩
      rcases Table.lookup_insert_cases hthird with ⟨heq, -⟩ | ⟨-, hthird⟩
      · exact absurd heq hne
      · exact hfits.agrees third third' hthird hne
    have hown := h.fits other found hold
    refine ⟨hown.launchLock, fun third third' hthird hne => ?_, hown.state, hown.locked,
      hown.opened⟩
    rcases Table.lookup_insert_cases hthird with ⟨rfl, rfl⟩ | ⟨-, hthird⟩
    · rw [Part.agrees_comm]
      exact hfits.agrees other found hold hother
    · exact hown.agrees third third' hthird hne
  harm := h.harm

theorem Kept.idle (h : s.Kept) (hidle : process.part = .idle) : (s.goTo pid process).Kept :=
  h.goTo (hidle ▸ fits_idle s pid)

theorem Kept.stays (h : s.Kept) {old : HelperProcess} (hlookup : s.processes.lookup pid = some old)
    (hpart : process.part = old.part) : (s.goTo pid process).Kept :=
  h.goTo (hpart ▸ h.fits pid old hlookup)

theorem Kept.finish (h : s.Kept) (pid : Nat) : (s.finish pid).Kept where
  fits other found hfound := by
    rcases Table.lookup_insert_cases hfound with ⟨rfl, rfl⟩ | ⟨hother, hold⟩
    · exact fits_idle _ _
    have hown := h.fits other found hold
    refine ⟨fun hp => ?_, fun third third' hthird hne => ?_, hown.state, fun hp => ?_, hown.opened⟩
    · have hlock := hown.launchLock hp
      have hne : s.launchLock ≠ some pid := by
        rw [hlock]
        exact fun heq => hother (Option.some.inj heq)
      exact (if_neg hne).trans hlock
    · rcases Table.lookup_insert_cases hthird with ⟨rfl, rfl⟩ | ⟨-, hthird⟩
      · rw [Part.agrees_comm]
        exact Part.idle_agrees _
      · exact hown.agrees third third' hthird hne
    · obtain ⟨inode, hinode, hheld⟩ := hown.locked hp
      exact ⟨inode, hinode, List.mem_filter.mpr ⟨hheld, by simpa using hother⟩⟩
  harm := h.harm

/-! ### What the processes do to the session -/

theorem Kept.frame (h : s.Kept) (hprocesses : s'.processes = s.processes) (hharm : s'.harm = s.harm)
    (hfits : ∀ pid process, s.processes.lookup pid = some process → Fits s pid process.part →
      Fits s' pid process.part) : s'.Kept where
  fits pid process hlookup := by
    rw [hprocesses] at hlookup
    exact hfits pid process hlookup (h.fits pid process hlookup)
  harm := hharm.trans h.harm

theorem Kept.aside (h : s.Kept) {files : SessionFiles} (hstate : files.state = s.files.state)
    (hlock : files.lock = s.files.lock) : Kept { s with files := files } :=
  h.frame rfl rfl fun _ _ _ hfits => hfits.frame rfl (fun _ => rfl)
    (fun _ _ hsome => by rw [hstate]; exact hsome) (fun _ _ hsome => hlock.trans hsome)
    fun _ _ hheld => hheld

variable {token : String} {state : StoredState} {incarnation : Nat} {opened : Option Nat}

section
variable (h : s.Kept)
include h

theorem Kept.initializeAuth (hstep : s.initializeAuth token = some s') :
    s'.Kept ∧ s'.processes = s.processes := by
  unfold RemoteSession.initializeAuth at hstep
  split at hstep
  · obtain ⟨⟩ := hstep
    exact ⟨h.aside rfl rfl, rfl⟩
  split at hstep <;> obtain ⟨⟩ := hstep
  exact ⟨h, rfl⟩

theorem Kept.openLock : s.openLock.2.Kept ∧
    s.openLock.2.processes = s.processes ∧ s.openLock.2.files.lock = some s.openLock.1 := by
  unfold RemoteSession.openLock
  split
  · exact ⟨h, rfl, ‹_›⟩
  have hnone : s.files.lock = none := ‹_›
  refine ⟨h.frame rfl rfl fun _ _ _ hfits => hfits.frame rfl (fun _ => rfl)
    (fun _ _ hsome => hsome) (fun inode _ hsome => ?_) fun _ _ hheld => hheld, rfl, rfl⟩
  rw [hnone] at hsome
  cases hsome

theorem Kept.take (inode pid : Nat) : (s.take inode pid).Kept :=
  h.frame rfl rfl fun _ _ _ hfits => hfits.frame rfl (fun _ => rfl) (fun _ _ hsome => hsome)
    (fun _ _ hsome => hsome) fun _ _ hheld => mem_cons_of_mem _ hheld

theorem Kept.release (hlookup : s.processes.lookup pid = some process)
    (hpart : process.part.locked = false) : (s.release pid).Kept := by
  refine h.frame rfl rfl fun other found hfound hfits => hfits.frame rfl (fun _ => rfl)
    (fun _ _ hsome => hsome) (fun _ _ hsome => hsome) fun hp inode hheld => ?_
  refine List.mem_filter.mpr ⟨hheld, ?_⟩
  have hother : other ≠ pid := by
    rintro rfl
    obtain rfl := Option.some.inj (hlookup.symm.trans hfound)
    rw [hpart] at hp
    cases hp
  simpa using hother

theorem Kept.testLock (hlookup : s.processes.lookup pid = some process)
    (hpart : process.part.locked = false) (test : LockTest) :
    (s.testLock pid test).2.Kept ∧ (s.testLock pid test).2.processes = s.processes := by
  cases test with
  | closed => exact ⟨h.openLock.1, h.openLock.2.1⟩
  | opened inode =>
    unfold RemoteSession.testLock
    dsimp only
    split
    · exact ⟨h.take inode pid, rfl⟩
    · exact ⟨h, rfl⟩
  | taken => exact ⟨h.release hlookup hpart, rfl⟩

theorem Kept.writeState (hown : ∀ pid process incarnation, s.processes.lookup pid = some process →
      process.part = .established incarnation → state.incarnation = incarnation) :
    (s.writeState state).Kept :=
  h.frame rfl rfl fun pid process hlookup hfits => hfits.frame rfl (fun _ => rfl)
    (fun incarnation hp _ => ⟨state, rfl, hown pid process incarnation hlookup hp⟩)
    (fun _ _ hsome => hsome) fun _ _ hheld => hheld

end

theorem heldByOther_false (h : ∀ other process, s.processes.lookup other = some process →
    other ≠ pid → process.established = false) : s.heldByOther pid = false := by
  by_contra hheld
  rw [Bool.not_eq_false, heldByOther, any_eq_true] at hheld
  obtain ⟨entry, hentry, hother⟩ := hheld
  simp only [Bool.and_eq_true, decide_eq_true_eq] at hother
  rw [h entry.1 entry.2 (AList.mem_lookup_iff.mpr hentry) hother.1] at hother
  cases hother.2

section
variable (hfits : Fits s pid part)
  (hpart : part = .clearing ∨ ∃ opened locked, part = .starting opened locked)
include hfits hpart

theorem Fits.alone : ∀ other process, s.processes.lookup other = some process → other ≠ pid →
      process.part ≠ .established incarnation := by
  intro other process hlookup hother hestablished
  have hagrees := hfits.agrees other process hlookup hother
  rw [hestablished] at hagrees
  rcases hpart with rfl | ⟨opened, locked, rfl⟩ <;> cases hagrees

theorem Fits.unheld : s.heldByOther pid = false := by
  refine heldByOther_false fun other process hlookup hother => ?_
  by_contra hestablished
  obtain ⟨incarnation, token, exited, rfl⟩ :=
    holder_of_established (by simpa using hestablished)
  exact hfits.alone hpart other _ hlookup hother rfl

end

theorem Kept.removeSocket (h : s.Kept) (hlookup : s.processes.lookup pid = some process)
    {locked : Bool} (hpart : process.part = .starting opened locked) :
    (s.remove pid .socket).Kept := by
  have hunheld := (h.fits pid process hlookup).unheld (.inr ⟨opened, locked, hpart⟩)
  refine h.frame rfl (by simp [RemoteSession.remove, hunheld]) fun other found hfound hfits => ?_
  exact hfits.frame rfl (fun _ => rfl) (fun _ _ hsome => hsome) (fun _ _ hsome => hsome)
    fun _ _ hheld => hheld

theorem Kept.remove (h : s.Kept) {file : SessionFile}
    (hlookup : s.processes.lookup pid = some process) (hpart : process.part = .clearing) :
    (s.remove pid file).Kept := by
  have hown := h.fits pid process hlookup
  refine h.frame rfl (by simp [RemoteSession.remove, hown.unheld (.inl hpart)])
    fun other found hfound hfits => ?_
  have hcareless : found.part = .idle ∨ found.part = .waiting ∨ found.part = .clearing := by
    by_cases hother : other = pid
    · subst hother
      obtain rfl := Option.some.inj (hlookup.symm.trans hfound)
      exact .inr (.inr hpart)
    have hagrees := hown.agrees other found hfound hother
    rw [hpart] at hagrees
    cases hfoundPart : found.part with
    | idle => exact .inl rfl
    | waiting => exact .inr (.inl rfl)
    | clearing => exact .inr (.inr rfl)
    | deciding opened =>
      have hlock := hfits.launchLock (by rw [hfoundPart]; rfl)
      rw [hown.launchLock (by rw [hpart]; rfl)] at hlock
      exact absurd (Option.some.inj hlock).symm hother
    | starting _ _ | established _ =>
      rw [hfoundPart] at hagrees
      cases hagrees
  refine hfits.frame rfl (fun _ => rfl) (fun incarnation hp => ?_) (fun inode hp => ?_) fun hp => ?_
  · rcases hcareless with hc | hc | hc <;> rw [hc] at hp <;> cases hp
  · rcases hcareless with hc | hc | hc <;> rw [hc] at hp <;>
      rcases hp with hp | hp <;> cases hp
  · rcases hcareless with hc | hc | hc <;> rw [hc] at hp <;> cases hp

/-! ### The condition -/

/-- The launch lock is taken while no Holder is starting.  `launch` finds the socket of an
established Holder there, and can read its state.  The state that `inspect` or `kill` writes
back replaces one of the same incarnation. -/
def Allows (s : RemoteSession) : RemoteStep → Prop
  | .step pid =>
    match s.processes.lookup pid with
    | some (.launch _ .locking) | some (.gc .locking) =>
      s.launchLock = none → s.processes.All fun _ process => process.starting = false
    | some (.launch _ .looking) =>
      s.files.socket = false → s.processes.All fun _ process => process.established = false
    | some (.inspect _ (.writing state)) | some (.kill _ (.writing state)) =>
      ∀ current ∈ s.files.state, current.incarnation = state.incarnation
    | _ => True
  | .misread _ => s.processes.All fun _ process => process.established = false
  | _ => True

instance (s : RemoteSession) (step : RemoteStep) : Decidable (s.Allows step) := by
  unfold Allows
  split
  · split <;> infer_instance
  all_goals infer_instance

/-! ### The steps of the commands -/

theorem Fits.clears (hfits : Fits s pid (.deciding opened))
    (hnone : s.processes.All fun _ process => process.established = false) :
    Fits s pid .clearing where
  launchLock _ := hfits.launchLock rfl
  agrees other process hlookup hother := by
    refine Part.clearing_agrees (hfits.agrees other process hlookup hother) fun incarnation hp => ?_
    have hestablished := established_of_part hp
    rw [hnone other process hlookup] at hestablished
    cases hestablished
  state _ h := by cases h
  locked h := by cases h
  opened _ h := by cases h

/-- Where the lock is free on the file that everyone opens, no Holder is established. -/
theorem Kept.unestablished (h : s.Kept) {inode : Nat} (hlock : s.files.lock = some inode)
    (hfree : s.free inode = true) :
    s.processes.All fun _ process => process.established = false := by
  intro pid process hlookup
  by_contra hestablished
  obtain ⟨incarnation, token, exited, rfl⟩ :=
    holder_of_established (by simpa using hestablished)
  obtain ⟨held, hheld, hmem⟩ := (h.fits pid _ hlookup).locked rfl
  obtain rfl := Option.some.inj (hlock.symm.trans hheld)
  rw [free, all_eq_true] at hfree
  simpa using hfree _ hmem

theorem Kept.unestablished_of_state (h : s.Kept) (hstate : s.files.state = none) :
    s.processes.All fun _ process => process.established = false := by
  intro pid process hlookup
  by_contra hestablished
  obtain ⟨incarnation, token, exited, rfl⟩ :=
    holder_of_established (by simpa using hestablished)
  obtain ⟨state, hsome, -⟩ := (h.fits pid _ hlookup).state incarnation rfl
  rw [hstate] at hsome
  cases hsome

theorem Kept.lock (h : s.Kept) (hlaunch : s.launchLock = none)
    (hnone : s.processes.All fun _ process => process.starting = false)
    {next : HelperProcess} (hnext : next.part = .deciding none) :
    Kept { s.goTo pid next with launchLock := some pid } := by
  have hlocked : Kept { s with launchLock := some pid } := by
    refine h.frame rfl rfl fun other found hfound hfits => hfits.frame rfl (fun hp => ?_)
      (fun _ _ hsome => hsome) (fun _ _ hsome => hsome) fun _ _ hheld => hheld
    have hlock := hfits.launchLock hp
    rw [hlaunch] at hlock
    cases hlock
  refine hlocked.goTo ?_
  rw [hnext]
  exact {
    launchLock := fun _ => rfl
    agrees := fun other found hfound hother => by
      cases hfoundPart : found.part with
      | starting _ _ =>
        have hstarting := starting_of_part hfoundPart
        rw [hnone other found hfound] at hstarting
        cases hstarting
      | _ => rfl
    state := fun _ hp => by cases hp
    locked := fun hp => by cases hp
    opened := fun _ hp => by cases hp }

theorem Fits.deciding (hfits : Fits s pid (.deciding opened))
    {other : Option Nat} (hother : ∀ inode, other = some inode → s.files.lock = some inode) :
    Fits s pid (.deciding other) where
  launchLock := hfits.launchLock
  agrees found process hlookup hne := by
    have hagrees := hfits.agrees found process hlookup hne
    cases hpart : process.part with
    | starting _ _ =>
      rw [hpart] at hagrees
      cases hagrees
    | _ => rfl
  state _ hp := by cases hp
  locked hp := by cases hp
  opened := hother

theorem Kept.fits_of (h : s.Kept) (hlookup : s.processes.lookup pid = some process)
    (hpart : process.part = part) : Fits s pid part :=
  hpart ▸ h.fits pid process hlookup

section
variable (h : s.Kept)
include h

/-- Under the launch lock the test goes on, and finds the lock free only where no Holder is
established. -/
theorem Kept.tests (hlookup : s.processes.lookup pid = some process)
    {test next : LockTest} (hpart : process.part = test.part)
    (htest : s.testLock pid test = (.inl next, s')) : s'.Kept ∧ Fits s' pid next.part := by
  cases test with
  | closed =>
    obtain ⟨hkept, hprocesses, hlock⟩ := h.openLock
    obtain ⟨rfl, rfl⟩ := htest
    refine ⟨hkept, (hkept.fits_of (hprocesses ▸ hlookup) hpart).deciding fun inode hinode => ?_⟩
    obtain ⟨⟩ := hinode
    exact hlock
  | opened inode =>
    have hfits := h.fits_of hlookup hpart
    simp only [RemoteSession.testLock] at htest
    split at htest
    · obtain ⟨rfl, rfl⟩ := htest
      have hnone := h.unestablished (hfits.opened inode rfl) ‹_›
      have hkept := h.take inode pid
      exact ⟨hkept, (hkept.fits_of hlookup hpart).clears hnone⟩
    · simp at htest
  | taken => simp [RemoteSession.testLock] at htest

theorem Kept.tested (hlookup : s.processes.lookup pid = some process)
    {test : LockTest} {held : Bool} (hpart : process.part = test.part)
    (htest : s.testLock pid test = (.inr held, s')) :
    s'.Kept ∧ Fits s' pid (if held then .deciding none else .clearing) := by
  cases test with
  | closed => simp [RemoteSession.testLock] at htest
  | opened inode =>
    simp only [RemoteSession.testLock] at htest
    split at htest
    · simp at htest
    · obtain ⟨rfl, rfl⟩ := htest
      exact ⟨h, (h.fits_of hlookup hpart).deciding nofun⟩
  | taken =>
    obtain ⟨rfl, rfl⟩ := htest
    have hkept := h.release hlookup (by rw [hpart]; rfl)
    exact ⟨hkept, hkept.fits_of hlookup hpart⟩

theorem Kept.launch {stage : LaunchStage}
    (hlookup : s.processes.lookup pid = some (.launch token stage))
    (hallows : s.Allows (.step pid)) (hstep : s.launch pid token stage = some s') : s'.Kept := by
  simp only [Allows, hlookup] at hallows
  cases stage with
  | locking =>
    simp only [RemoteSession.launch] at hstep
    split at hstep <;> obtain ⟨⟩ := hstep
    · exact h.lock ‹_› (hallows ‹_›) rfl
    · exact h.finish pid
  | reading =>
    obtain ⟨⟩ := hstep
    have hfits : Fits s pid (.deciding none) := h.fits_of hlookup rfl
    cases hstate : s.files.state with
    | none => exact h.goTo (hfits.clears (h.unestablished_of_state hstate))
    | some state => exact h.goTo hfits
  | testing test =>
    simp only [RemoteSession.launch] at hstep
    split at hstep <;> obtain ⟨⟩ := hstep
    · obtain ⟨hkept, hfits⟩ := h.tests hlookup rfl ‹_›
      exact hkept.goTo hfits
    obtain ⟨hkept, hfits⟩ := h.tested hlookup rfl ‹_›
    refine hkept.goTo ?_
    split at hfits <;> simp only [*] <;> exact hfits
  | looking =>
    simp only [RemoteSession.launch] at hstep
    split at hstep <;> obtain ⟨⟩ := hstep
    · exact h.finish pid
    rename_i hsocket
    have hfits : Fits s pid (.deciding none) := h.fits_of hlookup rfl
    exact h.goTo (hfits.clears (hallows (by simpa using hsocket)))
  | resetting rest =>
    cases rest with
    | nil =>
      obtain ⟨⟩ := hstep
      exact h.stays hlookup rfl
    | cons file rest =>
      obtain ⟨⟩ := hstep
      exact (h.remove hlookup rfl).stays hlookup rfl
  | initializing =>
    simp only [RemoteSession.launch] at hstep
    split at hstep <;> obtain ⟨⟩ := hstep
    · obtain ⟨hkept, hprocesses⟩ := h.initializeAuth ‹_›
      rw [← hprocesses] at hlookup
      exact hkept.stays hlookup rfl
    · exact h.finish pid
  | spawning => cases hstep
  | waiting child incarnation =>
    simp only [RemoteSession.launch] at hstep
    split at hstep <;> obtain ⟨⟩ := hstep
    exact h.finish pid

theorem Kept.gc {stage : GcStage} (hlookup : s.processes.lookup pid = some (.gc stage))
    (hallows : s.Allows (.step pid)) (hstep : s.gc pid stage = some s') : s'.Kept := by
  simp only [Allows, hlookup] at hallows
  cases stage with
  | locking =>
    simp only [RemoteSession.gc] at hstep
    split at hstep <;> obtain ⟨⟩ := hstep
    · exact h.lock ‹_› (hallows ‹_›) rfl
    · exact h.finish pid
  | testing test =>
    simp only [RemoteSession.gc] at hstep
    split at hstep
    · obtain ⟨⟩ := hstep
      obtain ⟨hkept, hfits⟩ := h.tests hlookup rfl ‹_›
      exact hkept.goTo hfits
    obtain ⟨hkept, hfits⟩ := h.tested hlookup rfl ‹_›
    split at hstep <;> obtain ⟨⟩ := hstep
    · exact hkept.finish pid
    · rw [if_neg ‹_›] at hfits
      exact hkept.goTo hfits
  | removing rest =>
    cases rest with
    | nil =>
      obtain ⟨⟩ := hstep
      exact h.finish pid
    | cons file rest =>
      obtain ⟨⟩ := hstep
      exact (h.remove hlookup rfl).stays hlookup rfl

theorem Kept.writeBack
    (hsame : ∀ current ∈ s.files.state, current.incarnation = state.incarnation) :
    (s.writeState { state with running := false }).Kept := by
  refine h.writeState fun pid process incarnation hlookup hp => ?_
  obtain ⟨current, hcurrent, hincarnation⟩ := (h.fits pid process hlookup).state incarnation hp
  exact (hsame current hcurrent).symm.trans hincarnation

theorem Kept.test (hlookup : s.processes.lookup pid = some process)
    (hidle : process.part = .idle) {test : LockTest} {answer : LockTest ⊕ Bool}
    (htest : s.testLock pid test = (answer, s')) : s'.Kept := by
  have hkept := (h.testLock hlookup (by rw [hidle]; rfl) test).1
  rw [htest] at hkept
  exact hkept

theorem Kept.inspect {selector : SessionSelector} {stage : InspectStage}
    (hlookup : s.processes.lookup pid = some (.inspect selector stage))
    (hallows : s.Allows (.step pid)) (hstep : s.inspect pid selector stage = some s') :
    s'.Kept := by
  simp only [Allows, hlookup] at hallows
  cases stage with
  | authenticating =>
    simp only [RemoteSession.inspect] at hstep
    split at hstep <;> obtain ⟨⟩ := hstep
    · exact h.idle rfl
    · exact h.finish pid
  | reading =>
    simp only [RemoteSession.inspect] at hstep
    split at hstep
    · obtain ⟨⟩ := hstep
      exact h.finish pid
    split at hstep <;> obtain ⟨⟩ := hstep
    · exact h.idle rfl
    · exact h.finish pid
  | testing state test =>
    simp only [RemoteSession.inspect] at hstep
    split at hstep
    · obtain ⟨⟩ := hstep
      exact (h.test hlookup rfl ‹_›).idle rfl
    split at hstep <;> obtain ⟨⟩ := hstep
    · exact (h.test hlookup rfl ‹_›).finish pid
    · exact (h.test hlookup rfl ‹_›).idle rfl
  | writing state =>
    obtain ⟨⟩ := hstep
    exact (h.writeBack hallows).finish pid

theorem Kept.kill {selector : SessionSelector} {stage : KillStage}
    (hlookup : s.processes.lookup pid = some (.kill selector stage))
    (hallows : s.Allows (.step pid)) (hstep : s.kill pid selector stage = some s') : s'.Kept := by
  simp only [Allows, hlookup] at hallows
  cases stage with
  | authenticating =>
    simp only [RemoteSession.kill] at hstep
    split at hstep <;> obtain ⟨⟩ := hstep
    · exact h.idle rfl
    · exact h.finish pid
  | reading =>
    simp only [RemoteSession.kill] at hstep
    split at hstep
    · obtain ⟨⟩ := hstep
      exact h.finish pid
    split at hstep <;> obtain ⟨⟩ := hstep
    · exact h.idle rfl
    · exact h.finish pid
  | testing state test =>
    simp only [RemoteSession.kill] at hstep
    split at hstep
    · obtain ⟨⟩ := hstep
      exact (h.test hlookup rfl ‹_›).idle rfl
    split at hstep <;> obtain ⟨⟩ := hstep
    · exact (h.test hlookup rfl ‹_›).idle rfl
    · exact (h.test hlookup rfl ‹_›).finish pid
  | writing state =>
    obtain ⟨⟩ := hstep
    exact (h.writeBack hallows).idle rfl
  | stopping holderPid =>
    simp only [RemoteSession.kill] at hstep
    split at hstep <;> obtain ⟨⟩ := hstep
    · exact Kept.finish (h.idle rfl) holderPid
    · exact h.idle rfl
  | confirming test =>
    simp only [RemoteSession.kill] at hstep
    split at hstep
    · obtain ⟨⟩ := hstep
      exact (h.test hlookup rfl ‹_›).idle rfl
    split at hstep <;> obtain ⟨⟩ := hstep
    · exact (h.test hlookup rfl ‹_›).idle rfl
    · exact (h.test hlookup rfl ‹_›).finish pid

end

/-! ### The steps of a Holder -/

/-- A Holder that starts goes on: it opens the lock's file, or holds the lock on it. -/
theorem Fits.starting {locked : Bool}
    (hfits : Fits s pid (.starting opened locked)) {other : Option Nat} {locked' : Bool}
    (hlocked : locked' = true → ∃ inode, s.files.lock = some inode ∧ (inode, pid) ∈ s.locks)
    (hother : ∀ inode, other = some inode → s.files.lock = some inode) :
    Fits s pid (.starting other locked') where
  launchLock hp := by cases hp
  agrees found process hlookup hne := by
    have hagrees := hfits.agrees found process hlookup hne
    cases hpart : process.part with
    | idle | waiting => rfl
    | _ =>
      rw [hpart] at hagrees
      cases hagrees
  state _ hp := by cases hp
  locked := hlocked
  opened := hother

theorem Kept.writeOwn (h : s.Kept) (hlookup : s.processes.lookup pid = some process)
    (hown : ∀ incarnation, process.part = .established incarnation →
      state.incarnation = incarnation)
    (hholder : ∀ incarnation, process.part.agrees (.established incarnation) = false) :
    (s.writeState state).Kept := by
  refine h.writeState fun other found incarnation hfound hp => ?_
  by_cases hother : other = pid
  · subst hother
    obtain rfl := Option.some.inj (hlookup.symm.trans hfound)
    exact hown incarnation hp
  have hagrees := (h.fits pid process hlookup).agrees other found hfound hother
  rw [hp, hholder] at hagrees
  cases hagrees

theorem Kept.holder (h : s.Kept) {stage : HolderStage}
    (hlookup : s.processes.lookup pid = some (.holder incarnation token stage))
    (hstep : s.holder pid incarnation token stage = some s') : s'.Kept := by
  cases stage with
  | initializing =>
    simp only [RemoteSession.holder] at hstep
    split at hstep <;> obtain ⟨⟩ := hstep
    · obtain ⟨hkept, hprocesses⟩ := h.initializeAuth ‹_›
      rw [← hprocesses] at hlookup
      exact hkept.stays hlookup rfl
    · exact h.finish pid
  | opening =>
    obtain ⟨⟩ := hstep
    obtain ⟨hkept, hprocesses, hlock⟩ := h.openLock
    rw [← hprocesses] at hlookup
    refine hkept.goTo ?_
    have hfits : Fits s.openLock.2 pid (.starting none false) := hkept.fits_of hlookup rfl
    refine hfits.starting nofun fun inode hinode => ?_
    obtain ⟨⟩ := hinode
    exact hlock
  | locking inode =>
    have hlock := (h.fits_of hlookup rfl).opened inode rfl
    simp only [RemoteSession.holder] at hstep
    split at hstep <;> obtain ⟨⟩ := hstep
    · have hkept := h.take inode pid
      have hfits : Fits (s.take inode pid) pid (.starting (some inode) false) :=
        hkept.fits_of hlookup rfl
      exact hkept.goTo (hfits.starting (fun _ => ⟨inode, hlock, mem_cons_self⟩) nofun)
    · exact h.finish pid
  | clearing =>
    obtain ⟨⟩ := hstep
    exact (h.removeSocket hlookup rfl).stays hlookup rfl
  | binding =>
    simp only [RemoteSession.holder] at hstep
    split at hstep <;> obtain ⟨⟩ := hstep
    · exact h.finish pid
    · have hkept : Kept { s with files := { s.files with socket := true } } := h.aside rfl rfl
      exact hkept.stays hlookup rfl
  | logging =>
    obtain ⟨⟩ := hstep
    have hkept : Kept { s with files := { s.files with output := true } } := h.aside rfl rfl
    exact hkept.stays hlookup rfl
  | publishing =>
    obtain ⟨⟩ := hstep
    have hkept : (s.writeState ⟨incarnation, pid, true⟩).Kept :=
      h.writeOwn hlookup nofun fun _ => rfl
    have hfits : Fits (s.writeState ⟨incarnation, pid, true⟩) pid (.starting none true) :=
      hkept.fits_of hlookup rfl
    refine hkept.goTo ?_
    exact {
      launchLock := fun hp => by cases hp
      agrees := fun other found hfound hother =>
        Part.established_agrees (hfits.agrees other found hfound hother)
      state := fun other hp => ⟨_, rfl, Part.established.inj hp⟩
      locked := hfits.locked
      opened := fun _ hp => by cases hp }
  | running exited =>
    obtain ⟨⟩ := hstep
    exact h.writeOwn hlookup (fun _ hp => Part.established.inj hp) fun _ => rfl

theorem Kept.spawn (h : s.Kept) {child : Nat}
    (hlookup : s.processes.lookup pid = some (.launch token .spawning))
    (hnew : child ∉ s.processes) :
    Kept ((s.goTo pid (.launch token (.waiting child incarnation))).goTo child
      (.holder incarnation token .initializing)) := by
  have hclearing : Fits s pid .clearing := h.fits_of hlookup rfl
  have hne : child ≠ pid := by
    rintro rfl
    exact hnew (Table.mem_of_lookup hlookup)
  have hwaiting : Fits s pid .waiting := {
    launchLock := fun _ => hclearing.launchLock rfl
    agrees := fun _ _ _ _ => Part.waiting_agrees _
    state := fun _ hp => by cases hp
    locked := fun hp => by cases hp
    opened := fun _ hp => by cases hp }
  have hkept : (s.goTo pid (.launch token (.waiting child incarnation))).Kept := h.goTo hwaiting
  refine hkept.goTo ?_
  exact {
    launchLock := fun hp => by cases hp
    agrees := fun other found hfound hother => by
      rcases Table.lookup_insert_cases hfound with ⟨-, rfl⟩ | ⟨hpid, hold⟩
      · rfl
      have hagrees := hclearing.agrees other found hold hpid
      cases hpart : found.part with
      | idle | waiting => rfl
      | deciding _ | clearing =>
        have hlock := (h.fits_of hold hpart).launchLock rfl
        rw [hclearing.launchLock rfl] at hlock
        exact absurd (Option.some.inj hlock).symm hpid
      | starting _ _ | established _ =>
        rw [hpart] at hagrees
        cases hagrees
    state := fun _ hp => by cases hp
    locked := fun hp => by cases hp
    opened := fun _ hp => by cases hp }

/-! ### Every step, and every run -/

theorem kept_empty : Kept {} where
  fits := .empty
  harm := rfl

theorem part_of_fresh (hfresh : process.fresh = true) : process.part = .idle := by
  cases process with
  | launch token stage | gc stage => cases stage <;> first | rfl | cases hfresh
  | inspect _ _ | kill _ _ => rfl
  | holder _ _ _ | ended => cases hfresh

theorem Kept.step (h : s.Kept) {step : RemoteStep} (hallows : s.Allows step)
    (hstep : s.step step = some s') : s'.Kept := by
  cases step with
  | begin pid process =>
    simp only [RemoteSession.step] at hstep
    split at hstep <;> obtain ⟨⟩ := hstep
    exact h.idle (part_of_fresh ‹_ ∧ _›.2)
  | step pid =>
    obtain ⟨process, hlookup, hrest⟩ := Option.bind_eq_some_iff.mp hstep
    cases process with
    | launch token stage => exact h.launch hlookup hallows hrest
    | inspect selector stage => exact h.inspect hlookup hallows hrest
    | kill selector stage => exact h.kill hlookup hallows hrest
    | gc stage => exact h.gc hlookup hallows hrest
    | holder incarnation token stage => exact h.holder hlookup hrest
    | ended => cases hrest
  | misread pid =>
    obtain ⟨process, hlookup, hrest⟩ := Option.bind_eq_some_iff.mp hstep
    split at hrest <;> obtain ⟨⟩ := hrest
    have hfits : Fits s pid (.deciding none) := h.fits_of hlookup rfl
    exact h.goTo (hfits.clears hallows)
  | spawn pid child =>
    obtain ⟨process, hlookup, hrest⟩ := Option.bind_eq_some_iff.mp hstep
    split at hrest
    · split at hrest <;> obtain ⟨⟩ := hrest
      refine (h.spawn hlookup ‹_›).frame rfl rfl fun _ _ _ hfits => ?_
      exact hfits.frame rfl (fun _ => rfl) (fun _ _ hsome => hsome) (fun _ _ hsome => hsome)
        fun _ _ hheld => hheld
    · cases hrest
  | exit pid =>
    obtain ⟨process, hlookup, hrest⟩ := Option.bind_eq_some_iff.mp hstep
    split at hrest
    · rename_i incarnation token
      obtain ⟨⟩ := hrest
      have hkept : (s.writeState ⟨incarnation, pid, false⟩).Kept :=
        h.writeOwn hlookup (fun _ hp => Part.established.inj hp) fun _ => rfl
      exact hkept.stays hlookup rfl
    · cases hrest
  | giveUp pid =>
    obtain ⟨process, hlookup, hrest⟩ := Option.bind_eq_some_iff.mp hstep
    split at hrest <;> obtain ⟨⟩ := hrest
    exact (h.finish _).finish pid
  | fail pid =>
    obtain ⟨process, hlookup, hrest⟩ := Option.bind_eq_some_iff.mp hstep
    split at hrest <;> obtain ⟨⟩ := hrest
    exact h.finish pid
  | loseSocket =>
    obtain ⟨⟩ := hstep
    exact h.aside rfl rfl

/--
**A live Holder keeps its files.**  In every state that a run of allowed steps reaches, no
process has removed a file of the session while another was an established Holder, and the
state file carries the incarnation of each established Holder.
-/
theorem live_holder_keeps_files {steps : List RemoteStep}
    (hmeets : Meets Allows RemoteSession.step {} steps)
    (hrun : partialRun RemoteSession.step {} steps = some s) :
    s.harm = [] ∧ ∀ pid incarnation token exited,
      s.processes.lookup pid = some (.holder incarnation token (.running exited)) →
        ∃ state, s.files.state = some state ∧ state.incarnation = incarnation := by
  have hkept : s.Kept :=
    Meets.invariant (fun _ _ _ h hallows hstep => h.step hallows hstep) hmeets kept_empty hrun
  refine ⟨hkept.harm, fun pid incarnation token exited hlookup => ?_⟩
  exact (hkept.fits pid _ hlookup).state incarnation rfl

/-! ### One run that is allowed, and one that is not -/

/-- A launch finds nothing, clears the session and starts a Holder, which comes to run. -/
def launchHolder (pid child : Nat) : List RemoteStep :=
  [.begin pid (.launch "t" .locking), .step pid, .step pid] ++ List.replicate 6 (.step pid) ++
    [.spawn pid child] ++ List.replicate 7 (.step child) ++ [.step pid]

/-- The Holder is looked at, its child exits, it is killed, and the session is removed. -/
def wholeLife : List RemoteStep :=
  launchHolder 1 2 ++ [.begin 3 (.launch "t" .locking)] ++ List.replicate 5 (.step 3) ++
    [.exit 2, .begin 4 (.kill ⟨"t", some 0⟩ .authenticating)] ++ List.replicate 9 (.step 4) ++
    [.begin 5 (.gc .locking)] ++ List.replicate 10 (.step 5)

theorem live_holder_keeps_files_whole : ∃ s, partialRun RemoteSession.step {} wholeLife = some s ∧
      s.files = {} ∧ s.harm = [] := by
  have hmeets : Meets Allows RemoteSession.step {} wholeLife := by decide +kernel
  have hend : (partialRun RemoteSession.step {} wholeLife).map (·.files) = some {} := by
    decide +kernel
  obtain ⟨s, hrun, hfiles⟩ := Option.map_eq_some_iff.mp hend
  exact ⟨s, hrun, hfiles, (live_holder_keeps_files hmeets hrun).1⟩

/-- `inspect` reads the state of a Holder that dies, and writes it back when the session has a
new one. -/
def inspectedLate : List RemoteStep :=
  launchHolder 1 2 ++ [.begin 3 (.inspect ⟨"t", none⟩ .authenticating), .step 3, .step 3, .fail 2,
    .step 3, .step 3, .step 3, .begin 4 (.launch "t" .locking)] ++ List.replicate 11 (.step 4) ++
    [.spawn 4 5] ++ List.replicate 7 (.step 5) ++ [.step 4, .step 3]

/-- An older incarnation's state may be written over that of a live Holder. -/
theorem older_state_written : ¬∀ (steps : List RemoteStep) (s : RemoteSession),
      partialRun RemoteSession.step {} steps = some s →
        s.harm = [] ∧ ∀ pid incarnation token exited,
          s.processes.lookup pid = some (.holder incarnation token (.running exited)) →
            ∃ state, s.files.state = some state ∧ state.incarnation = incarnation := by
  intro h
  have hend : (partialRun RemoteSession.step {} inspectedLate).map
      (fun s => (s.processes.lookup 5, s.files.state))
        = some (some (.holder 1 "t" (.running false)), some ⟨0, 2, false⟩) := by
    decide +kernel
  obtain ⟨s, hrun, hs⟩ := Option.map_eq_some_iff.mp hend
  obtain ⟨hholder, hstate⟩ := Prod.mk.inj hs
  obtain ⟨state, hsome, hincarnation⟩ := (h inspectedLate s hrun).2 5 1 "t" false hholder
  obtain rfl := Option.some.inj (hstate.symm.trans hsome)
  cases hincarnation

end RemoteSession

end Diri
