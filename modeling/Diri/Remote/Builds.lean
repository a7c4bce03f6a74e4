/-
Helper builds, the sessions that use them, and a garbage collection that removes the others.

Helpers of several builds share one directory of builds and one of sessions.  A launch takes
its session's launch lock, decides whether the session is alive, and starts a Holder of its
own build; an activation links the uploaded Helper, probes the link and removes the upload.
A collection walks over the session directories it finds, collects the builds of the live
Holders, and then unlinks every build that it did not come across.  Each lock, read and
write is a step of its own, and a process may fail or be killed at any step.

A launch lock that the collection holds is not in the session's slot; a process that is over
is forgotten.  `unlinked`, `misused` and `deceived` are for the proofs only: the links that
were removed, the builds that were in use then, and the activations that returned success
for a link that was no more.
-/
import Diri.Lib.Table

namespace Diri

structure SessionSlot where
  launchLock : Option Nat := none
  holderLock : Option Nat := none
  /-- The build in the state file, if it can be read. -/
  state : Option String := none
  deriving DecidableEq, Repr

inductive LaunchPhase where
  | ensuring
  | locking
  | deciding
  | spawning
  | waiting
  deriving DecidableEq, Repr

inductive HolderPhase where
  | starting
  | locked
  /-- It has written its first state. -/
  | running
  deriving DecidableEq, Repr

inductive ActivatePhase where
  | uploaded
  | linked
  | probed (link : Nat)
  deriving DecidableEq, Repr

inductive BuildProcess where
  | launch (build sessionId : String) (phase : LaunchPhase)
  | holder (build sessionId : String) (phase : HolderPhase)
  | activate (build : String) (phase : ActivatePhase)
  deriving DecidableEq, Repr

/-- The build and the session of a launch, of a Holder that starts and of one that runs. -/
def BuildProcess.use : BuildProcess → Option (String × String)
  | .launch build sessionId _ | .holder build sessionId _ => some (build, sessionId)
  | .activate _ _ => none

inductive GcPhase where
  | walking
  /-- It has the launch lock of a session. -/
  | testing (sessionId : String)
  /-- The Holder lock is held. -/
  | reading (sessionId : String)
  | removing (sessionId : String)
  | scanning
  deriving DecidableEq, Repr

structure GcRun where
  build : String
  phase : GcPhase := .walking
  /-- What it still has to visit. -/
  todo : List String
  referenced : List String
  safe : Bool := true
  deriving DecidableEq, Repr

/-- The session whose launch lock it holds. -/
def GcRun.visits (run : GcRun) : Option String :=
  match run.phase with
  | .testing sessionId | .reading sessionId | .removing sessionId => some sessionId
  | .walking | .scanning => none

structure HelperHost where
  slots : Table String SessionSlot := ∅
  /-- The session directories. -/
  directories : List String := []
  /-- The link of each build that has one. -/
  links : Table String Nat := ∅
  nextLink : Nat := 0
  processes : Table Nat BuildProcess := ∅
  gc : Option GcRun := none
  unlinked : List (String × Nat) := []
  misused : List String := []
  deceived : List (String × Nat) := []

inductive BuildStep where
  | launch (pid : Nat) (build sessionId : String)
  | upload (pid : Nat) (build : String)
  | step (pid : Nat)
  /-- `launch` finds a live Holder, or resets the session. -/
  | decide (pid : Nat) (live : Bool)
  | spawn (pid child : Nat)
  /-- A process ends, fails or is killed. -/
  | finish (pid : Nat)
  | beginGc (build : String)
  /-- It takes the launch lock of a session, or passes over it. -/
  | visit (sessionId : String) (taken : Bool)
  | stepGc
  /-- The walk is over. -/
  | scan
  | unlink (build : String)
  | endGc
  deriving DecidableEq, Repr

namespace HelperHost

def slot (s : HelperHost) (sessionId : String) : SessionSlot := (s.slots.lookup sessionId).getD {}

def setSlot (sessionId : String) (slot : SessionSlot) (s : HelperHost) : HelperHost :=
  { s with slots := s.slots.insert sessionId slot }

def goTo (pid : Nat) (process : BuildProcess) (s : HelperHost) : HelperHost :=
  { s with processes := s.processes.insert pid process }

/-- A process is gone, and its locks are released. -/
def release (pid : Nat) (slot : SessionSlot) : SessionSlot :=
  { slot with
    launchLock := if slot.launchLock = some pid then none else slot.launchLock
    holderLock := if slot.holderLock = some pid then none else slot.holderLock }

def finish (pid : Nat) (s : HelperHost) : HelperHost :=
  { s with
    slots := s.slots.mapValues fun _ => release pid
    processes := s.processes.erase pid }

/-- Nobody, the collection included, holds the launch lock. -/
def unlocked (s : HelperHost) (sessionId : String) : Bool :=
  (s.slot sessionId).launchLock = none && s.gc.bind GcRun.visits ≠ some sessionId

def installed (s : HelperHost) (build : String) : Bool := (s.links.lookup build).isSome

/-- A launch, a Holder that starts or one that runs is of the build. -/
def uses (s : HelperHost) (build : String) : Bool :=
  s.processes.values.any fun process => process.use.any (·.1 = build)

def setGc (run : GcRun) (s : HelperHost) : HelperHost := { s with gc := some run }

def ensure (sessionId : String) (s : HelperHost) : HelperHost :=
  { s with directories := s.directories.insert sessionId }

def launch (pid : Nat) (build sessionId : String) (s : HelperHost) : LaunchPhase → Option HelperHost
  | .ensuring => some ((s.ensure sessionId).goTo pid (.launch build sessionId .locking))
  | .locking =>
    if s.unlocked sessionId then
      some ((s.setSlot sessionId { s.slot sessionId with launchLock := some pid }).goTo pid
        (.launch build sessionId .deciding))
    else some (s.finish pid)
  | .deciding | .spawning => none
  | .waiting => some (s.finish pid)

/-- A Holder that runs writes its state from time to time. -/
def holder (pid : Nat) (build sessionId : String) (s : HelperHost) : HolderPhase → Option HelperHost
  | .starting =>
    if (s.slot sessionId).holderLock = none then
      some (((s.ensure sessionId).setSlot sessionId
        { s.slot sessionId with holderLock := some pid }).goTo pid
          (.holder build sessionId .locked))
    else some ((s.ensure sessionId).finish pid)
  | .locked | .running =>
    some ((s.setSlot sessionId { s.slot sessionId with state := some build }).goTo pid
      (.holder build sessionId .running))

/-- A link that is there already is of the same Helper. -/
def activate (pid : Nat) (build : String) (s : HelperHost) : ActivatePhase → Option HelperHost
  | .uploaded =>
    match s.links.lookup build with
    | some _ => some (s.goTo pid (.activate build .linked))
    | none =>
      some { s.goTo pid (.activate build .linked) with
        links := s.links.insert build s.nextLink
        nextLink := s.nextLink + 1 }
  | .linked =>
    match s.links.lookup build with
    | some link => some (s.goTo pid (.activate build (.probed link)))
    | none => some (s.finish pid)
  | .probed link =>
    some { s.finish pid with
      deceived := if (build, link) ∈ s.unlinked then (build, link) :: s.deceived else s.deceived }

/-- What `gc` does with the session whose launch lock it holds. -/
def stepGc (s : HelperHost) (run : GcRun) : Option HelperHost :=
  match run.phase with
  | .testing sessionId =>
    let held := (s.slot sessionId).holderLock.isSome
    some (s.setGc { run with phase := if held then .reading sessionId else .removing sessionId })
  | .reading sessionId =>
    match (s.slot sessionId).state with
    | some build =>
      some (s.setGc { run with phase := .walking, referenced := build :: run.referenced })
    | none => some (s.setGc { run with phase := .walking, safe := false })
  | .removing sessionId =>
    some { (s.setSlot sessionId { s.slot sessionId with state := none }).setGc
        { run with phase := .walking } with
      directories := s.directories.erase sessionId }
  | .walking | .scanning => none

def unlink (s : HelperHost) (run : GcRun) (build : String) : Option HelperHost :=
  match s.links.lookup build with
  | none => none
  | some link =>
    if run.phase = .scanning ∧ build ∉ run.referenced then
      some { s with
        links := s.links.erase build
        unlinked := (build, link) :: s.unlinked
        misused := if s.uses build then build :: s.misused else s.misused }
    else none

def step (s : HelperHost) : BuildStep → Option HelperHost
  | .launch pid build sessionId =>
    if pid ∉ s.processes ∧ s.installed build then
      some (s.goTo pid (.launch build sessionId .ensuring))
    else none
  | .upload pid build =>
    if pid ∉ s.processes then some (s.goTo pid (.activate build .uploaded)) else none
  | .step pid =>
    (s.processes.lookup pid).bind fun process =>
      match process with
      | .launch build sessionId phase => s.launch pid build sessionId phase
      | .holder build sessionId phase => s.holder pid build sessionId phase
      | .activate build phase => s.activate pid build phase
  | .decide pid live =>
    (s.processes.lookup pid).bind fun process =>
      match process with
      | .launch build sessionId .deciding =>
        let slot := s.slot sessionId
        if live then
          if slot.state.isSome ∧ slot.holderLock.isSome then some (s.finish pid) else none
        else
          some ((s.setSlot sessionId { slot with state := none }).goTo pid
            (.launch build sessionId .spawning))
      | _ => none
  | .spawn pid child =>
    (s.processes.lookup pid).bind fun process =>
      match process with
      | .launch build sessionId .spawning =>
        if child ∉ s.processes ∧ s.installed build then
          some ((s.goTo pid (.launch build sessionId .waiting)).goTo child
            (.holder build sessionId .starting))
        else none
      | _ => none
  | .finish pid => if pid ∈ s.processes then some (s.finish pid) else none
  | .beginGc build =>
    if s.gc = none ∧ s.installed build then
      some (s.setGc { build := build, todo := s.directories, referenced := [build] })
    else none
  | .visit sessionId taken =>
    s.gc.bind fun run =>
      if run.phase = .walking ∧ sessionId ∈ s.directories ∧
          (taken = true → (s.slot sessionId).launchLock = none) then
        some (s.setGc { run with
          phase := if taken then .testing sessionId else .walking
          todo := run.todo.filter (· ≠ sessionId) })
      else none
  | .stepGc => s.gc.bind s.stepGc
  | .scan =>
    s.gc.bind fun run =>
      if run.phase = .walking ∧ run.todo.all (· ∉ s.directories) then
        if run.safe then some (s.setGc { run with phase := .scanning })
        else some { s with gc := none }
      else none
  | .unlink build => s.gc.bind fun run => s.unlink run build
  | .endGc => if s.gc.isSome then some { s with gc := none } else none

end HelperHost

end Diri
