/-
The accept loops of one holder manager process.

The manager and each of its sessions listen on a socket of their own.  An accept loop
keeps the number of its listener and calls `accept` on that number again and again; the
number is closed by another thread, the finish path, once it has set a flag.  All of them
share one table of descriptors with everything else that the process opens and closes.

`accept` looks the number up when it is called, and from then on waits on what it found.
What it does is a step when it is called and a step when it returns, and each step of a
finish path is one of its own.  Between `accept` and the close of the connection the loop
reads one request, carries it out and replies (`busy`).  A server that fails before its
loop begins is one whose loop never calls.  Two fields are for the proofs only: what each
loop accepted, and what each thread closed.
-/
import Diri.Lib.Descriptors
import Diri.Lib.Table

namespace Diri

/-- What a number of the process stands for. -/
inductive Opened where
  | listener (server : Nat)
  /-- A connection that the server's loop has accepted. -/
  | client (server : Nat)
  | other
  deriving DecidableEq, Repr

/-- Why `accept` failed: there is no socket to listen on, or an error of its own. -/
inductive AcceptFailure where
  | gone
  | own
  deriving DecidableEq, Repr

inductive AcceptStage where
  | calling
  /-- Waiting for a client of the server whose listener it found. -/
  | blocked (server : Nat)
  | busy (client : Nat)
  | failed (cause : AcceptFailure)
  | returned
  | reported (cause : AcceptFailure)
  deriving DecidableEq, Repr

/-- What a finish path does next with the number it took. -/
inductive CloseStage where
  | shutting (number : Nat)
  | closing (number : Nat)
  deriving DecidableEq, Repr

def CloseStage.number : CloseStage → Nat
  | shutting number => number
  | closing number => number

structure AcceptServer where
  isManager : Bool
  /-- The number the loop calls `accept` on. -/
  number : Nat
  listenFd : Option Nat
  finished : Bool := false
  stage : AcceptStage := .calling
  closing : Option CloseStage := none
  /-- The connections made to its socket and not accepted yet. -/
  waiting : Nat := 0
  shutDown : Bool := false
  deriving DecidableEq, Repr

def AcceptServer.over (server : AcceptServer) : Bool :=
  match server.stage with
  | .returned => true
  | .reported _ => true
  | _ => false

def AcceptServer.reportsError (server : AcceptServer) : Bool :=
  match server.stage with
  | .reported _ => true
  | _ => false

/-- Who comes to take the number: the finish path, or the manager's loop after an error. -/
def AcceptServer.mayTake (afterError : Bool) (server : AcceptServer) : Bool :=
  if afterError then server.isManager && server.reportsError else server.finished

/-- `listen_fd.swap(-1)`: whoever finds the number there closes it. -/
def AcceptServer.takeFd (afterError : Bool) (server : AcceptServer) : AcceptServer :=
  { server with
    listenFd := none
    closing :=
      match server.listenFd with
      | none => server.closing
      | some number => some (if afterError then .closing number else .shutting number) }

structure ManagerProcess where
  descriptors : Descriptors Opened
  servers : Table Nat AcceptServer := ∅
  /-- A loop, and the server to whose socket the connection was made. -/
  accepted : List (Nat × Nat) := []
  /-- A server, and what it closed. -/
  closed : List (Nat × Option Opened) := []

inductive AcceptStep where
  | listen (id : Nat) (isManager : Bool)
  | connect (id : Nat)
  /-- The loop calls `accept`. -/
  | call (id : Nat)
  | accept (id : Nat)
  | interrupt (id : Nat)
  | fail (id : Nat)
  /-- `accept` returns because its socket was shut down. -/
  | wake (id : Nat)
  /-- After a failure the loop asks whether the server is finished. -/
  | check (id : Nat)
  | reply (id : Nat)
  | finish (id : Nat)
  /-- By the finish path or, after an error, by the manager's loop. -/
  | take (id : Nat) (afterError : Bool)
  | shut (id : Nat)
  | close (id : Nat)
  | openOther
  | closeOther (number : Nat)
  deriving DecidableEq, Repr

namespace ManagerProcess

/-- A process with its three standard descriptors. -/
def initial : ManagerProcess where
  descriptors := [some .other, some .other, some .other]

def change (id : Nat) (f : AcceptServer → AcceptServer) (process : ManagerProcess) :
    ManagerProcess :=
  { process with servers := process.servers.adjust id f }

def goTo (id : Nat) (stage : AcceptStage) (process : ManagerProcess) : ManagerProcess :=
  process.change id fun server => { server with stage := stage }

/-- A listener that is shut down or closed wakes who waits on it. -/
def shutSocket (number : Nat) (process : ManagerProcess) : ManagerProcess :=
  match process.descriptors.entry number with
  | some (.listener server) => process.change server fun server => { server with shutDown := true }
  | _ => process

def closeNumber (id number : Nat) (process : ManagerProcess) : ManagerProcess :=
  { process with
    descriptors := process.descriptors.close number
    closed := process.closed ++ [(id, process.descriptors.entry number)] }

/-- `accept` is called on a number. -/
def found (process : ManagerProcess) (number : Nat) : AcceptStage :=
  match process.descriptors.entry number with
  | some (.listener server) => .blocked server
  | _ => .failed .gone

/-- The loop of the server takes a connection that was made to another's socket, or to its own. -/
def takeClient (id listener : Nat) (process : ManagerProcess) : ManagerProcess :=
  let number := process.descriptors.lowest
  { (process.change listener fun server => { server with waiting := server.waiting - 1 }).goTo id
      (.busy number) with
    descriptors := process.descriptors.put (.client id)
    accepted := process.accepted ++ [(id, listener)] }

def step (process : ManagerProcess) : AcceptStep → Option ManagerProcess
  | .listen id isManager =>
    if id ∈ process.servers then none
    else
      let number := process.descriptors.lowest
      some { process with
        descriptors := process.descriptors.put (.listener id)
        servers := process.servers.insert id
          { isManager := isManager, number := number, listenFd := some number } }
  | .connect id =>
    (process.servers.lookup id).bind fun server =>
      if server.shutDown then none
      else some (process.change id fun server => { server with waiting := server.waiting + 1 })
  | .call id =>
    (process.servers.lookup id).bind fun server =>
      if server.stage = .calling then some (process.goTo id (process.found server.number))
      else none
  | .accept id =>
    (process.servers.lookup id).bind fun server =>
      match server.stage with
      | .blocked listener =>
        (process.servers.lookup listener).bind fun listening =>
          if 0 < listening.waiting ∧ listening.shutDown = false then
            some (process.takeClient id listener)
          else none
      | _ => none
  | .interrupt id =>
    (process.servers.lookup id).bind fun server =>
      match server.stage with
      | .blocked _ => some (process.goTo id .calling)
      | _ => none
  | .fail id =>
    (process.servers.lookup id).bind fun server =>
      match server.stage with
      | .blocked _ => some (process.goTo id (.failed .own))
      | _ => none
  | .wake id =>
    (process.servers.lookup id).bind fun server =>
      match server.stage with
      | .blocked listener =>
        (process.servers.lookup listener).bind fun listening =>
          if listening.shutDown then some (process.goTo id (.failed .gone)) else none
      | _ => none
  | .check id =>
    (process.servers.lookup id).bind fun server =>
      match server.stage with
      | .failed cause =>
        some (process.goTo id (if server.finished then .returned else .reported cause))
      | _ => none
  | .reply id =>
    (process.servers.lookup id).bind fun server =>
      match server.stage with
      | .busy client => some ((process.closeNumber id client).goTo id .calling)
      | _ => none
  | .finish id =>
    (process.servers.lookup id).bind fun server =>
      if server.finished then none
      else some (process.change id fun server => { server with finished := true })
  | .take id afterError =>
    (process.servers.lookup id).bind fun server =>
      if server.mayTake afterError then
        some (process.change id fun server => server.takeFd afterError)
      else none
  | .shut id =>
    (process.servers.lookup id).bind fun server =>
      match server.closing with
      | some (.shutting number) =>
        some ((process.shutSocket number).change id fun server =>
          { server with closing := some (.closing number) })
      | _ => none
  | .close id =>
    (process.servers.lookup id).bind fun server =>
      match server.closing with
      | some (.closing number) =>
        some (((process.shutSocket number).closeNumber id number).change id fun server =>
          { server with closing := none })
      | _ => none
  | .openOther => some { process with descriptors := process.descriptors.put .other }
  | .closeOther number =>
    if process.descriptors.entry number = some .other then
      some { process with descriptors := process.descriptors.close number }
    else none

end ManagerProcess

end Diri
