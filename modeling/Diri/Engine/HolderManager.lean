/-
The shared holder manager: its accept loop, the threads of its sessions and its watchdog.

Each test, insert and store of a shared field is a step of its own, in any order the
threads come to run.  What is done under the lock of `active` keeps the other threads from
that field until it is released.  What the world answers (a request, whether a holder is
alive, whether a thread can be made, an error of `accept`) comes with the step.
-/
import Mathlib.Data.Finset.Basic
import Diri.Lib.Path

namespace Diri

def managerProtocolVersion : Nat := 1

structure HolderLaunchSpec where
  sessionId : String
  socketPath : String
  pidFilePath : String
  deriving DecidableEq, Repr

inductive HolderManagerOperation
  | ping
  | launch
  | shutdownIfIdle
  deriving DecidableEq, Repr

structure HolderManagerRequest where
  version : Nat
  op : HolderManagerOperation
  spec : Option HolderLaunchSpec
  deriving DecidableEq, Repr

structure HolderManagerResponse where
  ok : Bool
  error : Option String
  managerPid : Option Int
  deriving DecidableEq, Repr

namespace HolderManagerResponse

def success (managerPid : Int) : HolderManagerResponse := ⟨true, none, some managerPid⟩
def failure (message : String) : HolderManagerResponse := ⟨false, some message, none⟩

end HolderManagerResponse

inductive HolderError
  | invalidRequest (message : String)
  | transport (message : String)
  | rejected (message : String)
  | launch (message : String)
  deriving DecidableEq, Repr

def HolderError.text : HolderError → String
  | .invalidRequest message => "holder request: " ++ message
  | .transport message => "holder transport: " ++ message
  | .rejected message => "holder rejected: " ++ message
  | .launch message => "holder launch: " ++ message

def HolderManagerResponse.ofError (error : HolderError) : HolderManagerResponse :=
  .failure error.text

structure HolderManagerServer where
  directory : String
  idleTimeout : Nat
  processId : Int
  deriving DecidableEq, Repr

namespace HolderManagerServer

def new (directory : String) (idleTimeout : Nat) (processId : Int) : HolderManagerServer :=
  ⟨directory, max idleTimeout 100, processId⟩

def validate (server : HolderManagerServer) (spec : HolderLaunchSpec) : Except HolderError Unit :=
  if spec.sessionId = "" then throw (.invalidRequest "session id is empty")
  else if Path.same spec.socketPath (Path.push server.directory (spec.sessionId ++ ".sock")) ∧
      Path.same spec.pidFilePath (Path.push server.directory (spec.sessionId ++ ".pid")) then
    pure ()
  else throw (.invalidRequest "session control paths are outside manager directory")

end HolderManagerServer

/-- What `stop_listener` does next. -/
inductive StopStage
  | flag
  | fd
  | close
  deriving DecidableEq, Repr

/-- What the accept loop does next. -/
inductive ServeStage
  | accepting
  | reading
  | pinging
  | probing (spec : HolderLaunchSpec)
  | testing (spec : HolderLaunchSpec)
  | inserting (spec : HolderLaunchSpec)
  /-- The session is in `active`, whose lock is held. -/
  | inserted (spec : HolderLaunchSpec)
  | spawning (spec : HolderLaunchSpec)
  | testingActive
  | stopping (stage : StopStage)
  | answering (op : Option HolderManagerOperation) (response : HolderManagerResponse)
  /-- `accept` has failed, and asks whether the manager is shutting down. -/
  | failed (error : HolderError)
  | closing (error : HolderError) (stage : StopStage)
  /-- The loop is over. -/
  | leaving (result : Except HolderError Unit)
  | joining (result : Except HolderError Unit)
  | returned (result : Except HolderError Unit)

/-- What the watchdog does next. -/
inductive WatchStage
  | sleeping
  | testing
  | testingIdle
  | stopping (stage : StopStage)
  | returned
  deriving DecidableEq, Repr

structure HolderManager where
  now : Nat
  active : Finset String
  idleSince : Option Nat
  shuttingDown : Bool
  /-- `listen_fd` holds the listener. -/
  listenFd : Bool
  listening : Bool
  serving : ServeStage
  watching : WatchStage
  /-- The sessions whose thread runs their holder. -/
  threads : Finset String
  /-- The session whose thread holds the lock of `active`, having left it. -/
  removing : Option String

inductive HolderManagerEvent
  | elapses (time : Nat)
  | accepts
  | acceptFails (error : HolderError)
  | reads (request : Except HolderError HolderManagerRequest)
  | probes (alive : Bool)
  | spawns (error : Option HolderError)
  /-- The accept loop takes a step that nothing outside decides. -/
  | serves
  | watches
  /-- A holder has run to its end, and its thread takes the session out of `active`. -/
  | ends (sessionId : String)
  | leaves

namespace HolderManager

/-- As `run` leaves it when it spawns the watchdog. -/
def initial (now : Nat) : HolderManager :=
  ⟨now, ∅, some now, false, true, true, .accepting, .sleeping, ∅, none⟩

def activeLocked (s : HolderManager) : Bool :=
  match s.serving with
  | .inserted _ => true
  | _ => s.removing.isSome

/-- One step of `stop_listener`, and the next one. -/
def stopListener (s : HolderManager) : StopStage → HolderManager × Option StopStage
  | .flag => if s.shuttingDown then (s, none) else ({ s with shuttingDown := true }, some .fd)
  | .fd => ({ s with listenFd := false }, if s.listenFd then some .close else none)
  | .close => ({ s with listening := false }, none)

/-- What is answered to a request, or what is done first to answer it. -/
def handle (server : HolderManagerServer) (request : HolderManagerRequest) : ServeStage :=
  if request.version ≠ managerProtocolVersion then
    .answering request.op (.ofError (.invalidRequest
      ("manager protocol " ++ toString request.version ++ " is unsupported")))
  else
    match request.op with
    | .ping => .pinging
    | .launch =>
      match request.spec with
      | none => .answering (some .launch)
          (.ofError (.invalidRequest "manager launch requires a spec"))
      | some spec =>
        match server.validate spec with
        | .error error => .answering (some .launch) (.ofError error)
        | .ok () => .probing spec
    | .shutdownIfIdle => .testingActive

/-- A step of the accept loop that nothing outside decides. -/
def serve (server : HolderManagerServer) (s : HolderManager) : Option HolderManager :=
  let success := HolderManagerResponse.success server.processId
  match s.serving with
  | .pinging =>
    some { s with
      idleSince := if s.idleSince.isSome then some s.now else none
      serving := .answering (some .ping) success }
  | .testing spec =>
    if s.shuttingDown then
      some { s with
        serving := .answering (some .launch) (.ofError (.rejected "manager is shutting down")) }
    else some { s with serving := .inserting spec }
  | .inserting spec =>
    if s.activeLocked then none
    else if spec.sessionId ∈ s.active then
      some { s with serving := .answering (some .launch) success }
    else
      some { s with active := insert spec.sessionId s.active, serving := .inserted spec }
  | .inserted spec => some { s with idleSince := none, serving := .spawning spec }
  | .testingActive =>
    if s.activeLocked then none
    else if s.active = ∅ then some { s with serving := .stopping .flag }
    else
      some { s with
        serving := .answering (some .shutdownIfIdle)
          (.ofError (.rejected "holder manager still owns live sessions")) }
  | .stopping stage =>
    match s.stopListener stage with
    | (s, some stage) => some { s with serving := .stopping stage }
    | (s, none) => some { s with serving := .answering (some .shutdownIfIdle) success }
  | .answering _ _ => some { s with serving := .accepting }
  | .failed error =>
    some { s with
      serving := if s.shuttingDown then .leaving (.ok ()) else .closing error .fd }
  | .closing error stage =>
    match s.stopListener stage with
    | (s, some stage) => some { s with serving := .closing error stage }
    | (s, none) => some { s with serving := .leaving (.error error) }
  | .leaving result => some { s with shuttingDown := true, serving := .joining result }
  | .joining result =>
    if s.watching = .returned then some { s with serving := .returned result } else none
  | _ => none

/-- The watchdog finds that the manager has been idle for the grace period. -/
def expired (server : HolderManagerServer) (s : HolderManager) : Bool :=
  match s.idleSince with
  | none => false
  | some since => server.idleTimeout ≤ s.now - since

/-- A step of `watch_idle`. -/
def watch (server : HolderManagerServer) (s : HolderManager) : Option HolderManager :=
  match s.watching with
  | .sleeping => some { s with watching := .testing }
  | .testing => some { s with watching := if s.shuttingDown then .returned else .testingIdle }
  | .testingIdle =>
    some { s with watching := if s.expired server then .stopping .flag else .sleeping }
  | .stopping stage =>
    match s.stopListener stage with
    | (s, some stage) => some { s with watching := .stopping stage }
    | (s, none) => some { s with watching := .returned }
  | .returned => none

def step (server : HolderManagerServer) (s : HolderManager) :
    HolderManagerEvent → Option HolderManager
  | .elapses time => some { s with now := s.now + time }
  | .accepts =>
    match s.serving with
    | .accepting => if s.listening then some { s with serving := .reading } else none
    | _ => none
  | .acceptFails error =>
    match s.serving with
    | .accepting => some { s with serving := .failed error }
    | _ => none
  | .reads request =>
    match s.serving with
    | .reading =>
      match request with
      | .ok request => some { s with serving := handle server request }
      | .error error => some { s with serving := .answering none (.ofError error) }
    | _ => none
  | .probes alive =>
    match s.serving with
    | .probing spec =>
      some { s with
        serving :=
          if alive then .answering (some .launch) (.success server.processId)
          else .testing spec }
    | _ => none
  | .spawns none =>
    match s.serving with
    | .spawning spec =>
      some { s with
        threads := insert spec.sessionId s.threads
        serving := .answering (some .launch) (.success server.processId) }
    | _ => none
  | .spawns (some error) =>
    match s.serving with
    | .spawning _ => some { s with serving := .answering (some .launch) (.ofError error) }
    | _ => none
  | .serves => s.serve server
  | .watches => s.watch server
  | .ends sessionId =>
    if sessionId ∈ s.threads ∧ s.activeLocked = false then
      some { s with
        active := s.active.erase sessionId
        threads := s.threads.erase sessionId
        removing := some sessionId }
    else none
  | .leaves =>
    if s.removing.isSome then
      some { s with
        idleSince := if s.active = ∅ then some s.now else s.idleSince
        removing := none }
    else none

end HolderManager

end Diri
