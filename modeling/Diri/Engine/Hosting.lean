/-
What the holder manager hosts: its launches together with the holders they start.

A launch that is accepted starts a thread that runs a holder, and the thread takes the
session out of `active` when the holder has run to its end.  A holder is a main thread, the
pump, the exit watcher and a child; each step of any of them, and of the manager, is a step
of its own.  Every fallible step of `HolderServer::run` may fail.

A holder is asked whether it is alive by the manager and by a holder that begins to run.
What it answers and what the asker makes of it are two steps; an error of any kind counts
as a holder that is not alive.  Holders that other processes run stand when the manager
starts.  For the proofs a launch remembers what it found when it was read, and whether it
started a holder.
-/
import Diri.Engine.HolderManager
import Diri.Lib.Table

namespace Diri

inductive HeldChild where
  | unborn
  | live
  /-- Exited, and not waited for yet. -/
  | exited
  | reaped
  deriving DecidableEq, Repr

/-- What the main thread of a holder does next. -/
inductive RunStage where
  | probing
  | creating
  | opening
  | spawning
  | reading
  | listening
  | writing
  | pumping
  | watching
  | accepting
  | returned
  deriving DecidableEq, Repr

/-- What the exit watcher does next. -/
inductive WatchExitStage where
  | waiting
  | finishing
  | joining
  | draining
  | marking
  | removing
  | closing
  deriving DecidableEq, Repr

structure HolderRun where
  sessionId : String
  /-- The thread is one of the manager's, and has not left `active`. -/
  hosted : Bool
  stage : RunStage := .probing
  /-- What its own question was answered. -/
  stat : Option Bool := none
  child : HeldChild := .unborn
  finished : Bool := false
  listening : Bool := false
  pumping : Bool := false
  watching : Option WatchExitStage := none
  deriving DecidableEq, Repr

namespace HolderRun

/-- A holder that another process runs. -/
def standing (sessionId : String) : HolderRun where
  sessionId := sessionId
  hosted := false
  stage := .accepting
  child := .live
  listening := true
  pumping := true
  watching := some .waiting

/-- `current_stat`: a child that nobody has waited for still exists. -/
def alive (run : HolderRun) : Bool :=
  !run.finished && (run.child = .live || run.child = .exited)

/-- Its control requests are answered. -/
def serving (run : HolderRun) : Bool := run.stage = .accepting && run.listening

/-- The run has ended, or its child has. -/
def ended (run : HolderRun) : Bool :=
  run.stage = .returned || run.child = .exited || run.child = .reaped

/-- `is_alive` before the holder touches anything. -/
def check (alive : Bool) (run : HolderRun) : Option HolderRun :=
  if run.stage = .probing then
    if alive then
      if run.stat = some true then some { run with stage := .returned } else none
    else some { run with stage := .creating }
  else none

/-- The next step of the main thread succeeds. -/
def proceed (run : HolderRun) : Option HolderRun :=
  match run.stage with
  | .probing => none
  | .creating => some { run with stage := .opening }
  | .opening => some { run with stage := .spawning }
  | .spawning => some { run with stage := .reading, child := .live }
  | .reading => some { run with stage := .listening }
  | .listening => some { run with stage := .writing, listening := true }
  | .writing => some { run with stage := .pumping }
  | .pumping => some { run with stage := .watching, pumping := true }
  | .watching => some { run with stage := .accepting, watching := some .waiting }
  -- an error of `accept` ends a holder that is finished
  | .accepting => if run.finished then some { run with stage := .returned } else none
  | .returned => none

/-- The next step of the main thread fails; nobody closes a listener that it leaves. -/
def fail (run : HolderRun) : Option HolderRun :=
  match run.stage with
  | .probing => none
  | .accepting => if run.finished then none else some { run with stage := .returned }
  | .returned => none
  | _ => some { run with stage := .returned }

def exit (run : HolderRun) : Option HolderRun :=
  if run.child = .live then some { run with child := .exited } else none

/-- The pump has found the end of its input, an error, or that the holder is finished. -/
def endPump (run : HolderRun) : Option HolderRun :=
  if run.pumping then some { run with pumping := false } else none

/-- A step of `watch_exit`. -/
def watch (run : HolderRun) : Option HolderRun :=
  match run.watching with
  | none => none
  | some .waiting =>
    if run.child = .exited then some { run with child := .reaped, watching := some .finishing }
    else none
  | some .finishing => some { run with finished := true, watching := some .joining }
  | some .joining => if run.pumping then none else some { run with watching := some .draining }
  | some .draining => some { run with watching := some .marking }
  | some .marking => some { run with watching := some .removing }
  | some .removing => some { run with watching := some .closing }
  | some .closing => some { run with listening := false, watching := none }

end HolderRun

structure Launching where
  sessionId : String
  /-- When it was read, every run of the session was over. -/
  found : Bool
  started : Bool := false
  /-- What the manager's question was answered. -/
  stat : Option Bool := none
  deriving DecidableEq, Repr

structure Hosting where
  manager : HolderManager
  launch : Option Launching := none
  runs : Table Nat HolderRun

inductive HostingEvent where
  /-- A step of the manager that has nothing to do with a holder. -/
  | manager (event : HolderManagerEvent)
  | read (request : Except HolderError HolderManagerRequest)
  /-- A holder answers the manager. -/
  | stat (id : Nat)
  | probe (alive : Bool)
  /-- The thread of a new holder is made. -/
  | spawn (id : Nat)
  /-- A holder has run to its end, and its session leaves `active`. -/
  | leave (id : Nat)
  /-- A holder answers one that begins to run. -/
  | ask (id holder : Nat)
  | check (id : Nat) (alive : Bool)
  | proceed (id : Nat)
  | fail (id : Nat)
  | exit (id : Nat)
  | endPump (id : Nat)
  | watch (id : Nat)

/-- A step of the manager that has nothing to do with a holder. -/
def HolderManagerEvent.alone : HolderManagerEvent → Bool
  | .reads _ | .probes _ | .spawns none | .ends _ => false
  | _ => true

namespace Hosting

def initial (now : Nat) (standing : Table Nat HolderRun) : Hosting where
  manager := .initial now
  runs := standing

/-- Some run of the session is not over. -/
def lives (s : Hosting) (sessionId : String) : Bool :=
  s.runs.values.any fun run => run.sessionId = sessionId && !run.ended

/-- The manager has read a request. -/
def takeUp (s : Hosting) (manager : HolderManager) : Hosting :=
  match manager.serving with
  | .probing spec =>
    { s with
      manager := manager
      launch := some { sessionId := spec.sessionId, found := !s.lives spec.sessionId } }
  | _ => { s with manager := manager }

def changeLaunch (f : Launching → Launching) (s : Hosting) : Hosting :=
  { s with launch := s.launch.map f }

def changeRun (id : Nat) (f : HolderRun → HolderRun) (s : Hosting) : Hosting :=
  { s with runs := s.runs.adjust id f }

def stepRun (s : Hosting) (id : Nat) (f : HolderRun → Option HolderRun) : Option Hosting :=
  (s.runs.lookup id).bind fun run => (f run).map fun run => s.changeRun id fun _ => run

def step (server : HolderManagerServer) (s : Hosting) : HostingEvent → Option Hosting
  | .manager event =>
    if event.alone then
      (s.manager.step server event).map fun manager => { s with manager := manager }
    else none
  | .read request => (s.manager.step server (.reads request)).map s.takeUp
  | .stat id =>
    (s.runs.lookup id).bind fun run =>
      match s.manager.serving with
      | .probing spec =>
        if run.sessionId = spec.sessionId ∧ run.serving then
          some (s.changeLaunch fun launch => { launch with stat := some run.alive })
        else none
      | _ => none
  | .probe alive =>
    if alive = false ∨ s.launch.bind (·.stat) = some true then
      (s.manager.step server (.probes alive)).map fun manager => { s with manager := manager }
    else none
  | .spawn id =>
    if id ∈ s.runs then none
    else
      match s.manager.serving with
      | .spawning spec =>
        (s.manager.step server (.spawns none)).map fun manager =>
          { s.changeLaunch fun launch => { launch with started := true } with
            manager := manager
            runs := s.runs.insert id { sessionId := spec.sessionId, hosted := true } }
      | _ => none
  | .leave id =>
    (s.runs.lookup id).bind fun run =>
      if run.hosted ∧ run.stage = .returned then
        (s.manager.step server (.ends run.sessionId)).map fun manager =>
          { s.changeRun id fun run => { run with hosted := false } with manager := manager }
      else none
  | .ask id holder =>
    (s.runs.lookup id).bind fun run =>
      (s.runs.lookup holder).bind fun other =>
        if run.stage = .probing ∧ other.sessionId = run.sessionId ∧ other.serving then
          some (s.changeRun id fun run => { run with stat := some other.alive })
        else none
  | .check id alive => s.stepRun id (·.check alive)
  | .proceed id => s.stepRun id (·.proceed)
  | .fail id => s.stepRun id (·.fail)
  | .exit id => s.stepRun id (·.exit)
  | .endPump id => s.stepRun id (·.endPump)
  | .watch id => s.stepRun id (·.watch)

end Hosting

end Diri
