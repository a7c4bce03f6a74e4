/-
The commands of a Helper and the Holder they start, as steps on one session's files.

A session has a directory of files, a socket outside it and two advisory locks.  The launch
lock's file is never removed; the Holder lock's is one of the session's files, so that a lock
is held on the inode that was opened, whatever is under its name by then.  Each read, write,
removal and lock operation of a process is a step of its own, and any process may fail or be
killed at any step; the socket may also be removed from outside.

A process that is over is kept as such.  Its token stands for the token's hash, the state
file for what the commands use of it.  `harm` is for the proofs only: who removed which file
while another process was an established Holder.
-/
import Diri.Lib.Table

namespace Diri

inductive SessionFile where
  | socket
  | state
  | auth
  | output
  | lock
  deriving DecidableEq, Repr

/-- What the commands use of the state file. -/
structure StoredState where
  incarnation : Nat
  holderPid : Nat
  running : Bool
  deriving DecidableEq, Repr

structure SessionFiles where
  socket : Bool := false
  state : Option StoredState := none
  auth : Option String := none
  output : Bool := false
  /-- Its inode. -/
  lock : Option Nat := none
  deriving DecidableEq, Repr

namespace SessionFiles

def has (files : SessionFiles) : SessionFile → Bool
  | .socket => files.socket
  | .state => files.state.isSome
  | .auth => files.auth.isSome
  | .output => files.output
  | .lock => files.lock.isSome

def remove (files : SessionFiles) : SessionFile → SessionFiles
  | .socket => { files with socket := false }
  | .state => { files with state := none }
  | .auth => { files with auth := none }
  | .output => { files with output := false }
  | .lock => { files with lock := none }

end SessionFiles

structure SessionSelector where
  sessionToken : String
  expectedIncarnation : Option Nat
  deriving DecidableEq, Repr

/-- How far `holder_lock_held` is: the lock file is opened, the lock taken, and released again. -/
inductive LockTest where
  | closed
  | opened (inode : Nat)
  | taken
  deriving DecidableEq, Repr

inductive LaunchStage where
  | locking
  | reading
  | testing (test : LockTest)
  | looking
  | resetting (rest : List SessionFile)
  | initializing
  | spawning
  | waiting (child incarnation : Nat)
  deriving DecidableEq, Repr

inductive InspectStage where
  | authenticating
  | reading
  | testing (state : StoredState) (test : LockTest)
  | writing (state : StoredState)
  deriving DecidableEq, Repr

inductive KillStage where
  | authenticating
  | reading
  | testing (state : StoredState) (test : LockTest)
  | writing (state : StoredState)
  | stopping (holderPid : Nat)
  /-- The Holder has been signalled; is its lock free? -/
  | confirming (test : LockTest)
  deriving DecidableEq, Repr

inductive GcStage where
  | locking
  | testing (test : LockTest)
  | removing (rest : List SessionFile)
  deriving DecidableEq, Repr

inductive HolderStage where
  | initializing
  | opening
  | locking (inode : Nat)
  | clearing
  | binding
  | logging
  | publishing
  /-- It has written its first state; `exited` is whether its child has. -/
  | running (exited : Bool)
  deriving DecidableEq, Repr

inductive HelperProcess where
  | launch (token : String) (stage : LaunchStage)
  | inspect (selector : SessionSelector) (stage : InspectStage)
  | kill (selector : SessionSelector) (stage : KillStage)
  | gc (stage : GcStage)
  | holder (incarnation : Nat) (token : String) (stage : HolderStage)
  | ended
  deriving DecidableEq, Repr

namespace HelperProcess

/-- What a command begins with. -/
def fresh : HelperProcess → Bool
  | .launch _ .locking | .inspect _ .authenticating | .kill _ .authenticating | .gc .locking => true
  | _ => false

/-- A Holder that has written its first state. -/
def established : HelperProcess → Bool
  | .holder _ _ (.running _) => true
  | _ => false

/-- A Holder that has not written its first state yet. -/
def starting : HelperProcess → Bool
  | .holder _ _ (.running _) => false
  | .holder _ _ _ => true
  | _ => false

end HelperProcess

structure RemoteSession where
  files : SessionFiles := {}
  launchLock : Option Nat := none
  /-- Inodes, and who holds the lock on them. -/
  locks : List (Nat × Nat) := []
  inodes : Nat := 0
  incarnations : Nat := 0
  processes : Table Nat HelperProcess := ∅
  harm : List (Nat × SessionFile) := []

inductive RemoteStep where
  | begin (pid : Nat) (process : HelperProcess)
  /-- A process takes its next step. -/
  | step (pid : Nat)
  /-- `launch` cannot read the state. -/
  | misread (pid : Nat)
  | spawn (pid child : Nat)
  /-- The child of a Holder exits. -/
  | exit (pid : Nat)
  /-- `launch` has waited long enough, and kills what it started. -/
  | giveUp (pid : Nat)
  /-- A process fails, or is killed. -/
  | fail (pid : Nat)
  | loseSocket
  deriving DecidableEq, Repr

namespace RemoteSession

def goTo (pid : Nat) (process : HelperProcess) (s : RemoteSession) : RemoteSession :=
  { s with processes := s.processes.insert pid process }

/-- The locks that a process holds on the Holder lock's file are released. -/
def release (pid : Nat) (s : RemoteSession) : RemoteSession :=
  { s with locks := s.locks.filter (·.2 ≠ pid) }

/-- A process ends, and its locks are released. -/
def finish (pid : Nat) (s : RemoteSession) : RemoteSession :=
  { s.release pid with
    launchLock := if s.launchLock = some pid then none else s.launchLock
    processes := s.processes.insert pid .ended }

/-- `open_private_file` on the Holder lock: its inode, made if it is not there. -/
def openLock (s : RemoteSession) : Nat × RemoteSession :=
  match s.files.lock with
  | some inode => (inode, s)
  | none =>
    (s.inodes, { s with files := { s.files with lock := some s.inodes }, inodes := s.inodes + 1 })

def free (inode : Nat) (s : RemoteSession) : Bool := s.locks.all (·.1 ≠ inode)

def take (inode pid : Nat) (s : RemoteSession) : RemoteSession :=
  { s with locks := (inode, pid) :: s.locks }

/-- One step of `holder_lock_held`: the next one, or the answer. -/
def testLock (pid : Nat) (s : RemoteSession) : LockTest → (LockTest ⊕ Bool) × RemoteSession
  | .closed => let (inode, s) := s.openLock; (.inl (.opened inode), s)
  | .opened inode =>
    if s.free inode then (.inl .taken, s.take inode pid) else (.inr true, s)
  | .taken => (.inr false, s.release pid)

/-- Someone else is an established Holder. -/
def heldByOther (pid : Nat) (s : RemoteSession) : Bool :=
  s.processes.entries.any fun entry => entry.1 ≠ pid && entry.2.established

def remove (pid : Nat) (file : SessionFile) (s : RemoteSession) : RemoteSession :=
  { s with
    files := s.files.remove file
    harm := if s.files.has file ∧ s.heldByOther pid then (pid, file) :: s.harm else s.harm }

def writeState (state : StoredState) (s : RemoteSession) : RemoteSession :=
  { s with files := { s.files with state := some state } }

/-- `initialize_auth`: the file, made if it is not there; `none` if it is another token's. -/
def initializeAuth (token : String) (s : RemoteSession) : Option RemoteSession :=
  match s.files.auth with
  | none => some { s with files := { s.files with auth := some token } }
  | some existing => if existing = token then some s else none

/-- `reset_dead_session`. -/
def resetFiles : List SessionFile := [.socket, .state, .auth, .output]

def gcFiles : List SessionFile := [.socket, .output, .auth, .state, .lock]

def launch (pid : Nat) (token : String) (s : RemoteSession) : LaunchStage → Option RemoteSession
  | .locking =>
    if s.launchLock = none then
      some { s.goTo pid (.launch token .reading) with launchLock := some pid }
    else some (s.finish pid)
  | .reading =>
    some (s.goTo pid (.launch token
      (if s.files.state.isSome then .testing .closed else .resetting resetFiles)))
  | .testing test =>
    match s.testLock pid test with
    | (.inl test, s) => some (s.goTo pid (.launch token (.testing test)))
    | (.inr held, s) =>
      some (s.goTo pid (.launch token (if held then .looking else .resetting resetFiles)))
  -- whatever is answered about a Holder that is alive, nothing is done
  | .looking =>
    if s.files.socket then some (s.finish pid)
    else some (s.goTo pid (.launch token (.resetting resetFiles)))
  | .resetting (file :: rest) =>
    some ((s.remove pid file).goTo pid (.launch token (.resetting rest)))
  | .resetting [] => some (s.goTo pid (.launch token .initializing))
  | .initializing =>
    match s.initializeAuth token with
    | some s => some (s.goTo pid (.launch token .spawning))
    | none => some (s.finish pid)
  | .spawning => none
  | .waiting child incarnation =>
    if (s.files.state.any (·.incarnation = incarnation) ∧ s.files.socket) ∨
        s.processes.lookup child = some .ended then
      some (s.finish pid)
    else none

def inspect (pid : Nat) (selector : SessionSelector) (s : RemoteSession) :
    InspectStage → Option RemoteSession
  | .authenticating =>
    if s.files.auth = some selector.sessionToken then
      some (s.goTo pid (.inspect selector .reading))
    else some (s.finish pid)
  | .reading =>
    match s.files.state with
    | none => some (s.finish pid)
    | some state =>
      if selector.expectedIncarnation.all (· = state.incarnation) ∧ state.running then
        some (s.goTo pid (.inspect selector (.testing state .closed)))
      else some (s.finish pid)
  | .testing state test =>
    match s.testLock pid test with
    | (.inl test, s) => some (s.goTo pid (.inspect selector (.testing state test)))
    | (.inr held, s) =>
      if held then some (s.finish pid)
      else some (s.goTo pid (.inspect selector (.writing state)))
  | .writing state => some ((s.writeState { state with running := false }).finish pid)

/-- The signals to the child and the waits between them leave the session alone. -/
def kill (pid : Nat) (selector : SessionSelector) (s : RemoteSession) :
    KillStage → Option RemoteSession
  | .authenticating =>
    if s.files.auth = some selector.sessionToken then
      some (s.goTo pid (.kill selector .reading))
    else some (s.finish pid)
  | .reading =>
    match s.files.state with
    | none => some (s.finish pid)
    | some state =>
      if selector.expectedIncarnation.all (· = state.incarnation) then
        some (s.goTo pid (.kill selector (.testing state .closed)))
      else some (s.finish pid)
  | .testing state test =>
    match s.testLock pid test with
    | (.inl test, s) => some (s.goTo pid (.kill selector (.testing state test)))
    | (.inr held, s) =>
      if held then some (s.goTo pid (.kill selector (.writing state)))
      else some (s.finish pid)
  | .writing state =>
    some ((s.writeState { state with running := false }).goTo pid
      (.kill selector (.stopping state.holderPid)))
  | .stopping holderPid =>
    let s := s.goTo pid (.kill selector (.confirming .closed))
    match s.processes.lookup holderPid with
    | some (.holder _ _ _) => some (s.finish holderPid)
    | _ => some s
  | .confirming test =>
    match s.testLock pid test with
    | (.inl test, s) => some (s.goTo pid (.kill selector (.confirming test)))
    | (.inr held, s) =>
      if held then some (s.goTo pid (.kill selector (.confirming .closed)))
      else some (s.finish pid)

/-- What `gc` does with one session. -/
def gc (pid : Nat) (s : RemoteSession) : GcStage → Option RemoteSession
  | .locking =>
    if s.launchLock = none then
      some { s.goTo pid (.gc (.testing .closed)) with launchLock := some pid }
    else some (s.finish pid)
  | .testing test =>
    match s.testLock pid test with
    | (.inl test, s) => some (s.goTo pid (.gc (.testing test)))
    | (.inr held, s) =>
      if held then some (s.finish pid) else some (s.goTo pid (.gc (.removing gcFiles)))
  | .removing (file :: rest) => some ((s.remove pid file).goTo pid (.gc (.removing rest)))
  | .removing [] => some (s.finish pid)

/-- `Holder::new_with_roots`, and then the state it writes from time to time. -/
def holder (pid incarnation : Nat) (token : String) (s : RemoteSession) :
    HolderStage → Option RemoteSession
  | .initializing =>
    match s.initializeAuth token with
    | some s => some (s.goTo pid (.holder incarnation token .opening))
    | none => some (s.finish pid)
  | .opening =>
    let (inode, s) := s.openLock
    some (s.goTo pid (.holder incarnation token (.locking inode)))
  | .locking inode =>
    if s.free inode then
      some ((s.take inode pid).goTo pid (.holder incarnation token .clearing))
    else some (s.finish pid)
  | .clearing => some ((s.remove pid .socket).goTo pid (.holder incarnation token .binding))
  | .binding =>
    if s.files.socket then some (s.finish pid)
    else
      some ({ s with files := { s.files with socket := true } }.goTo pid
        (.holder incarnation token .logging))
  | .logging =>
    some ({ s with files := { s.files with output := true } }.goTo pid
      (.holder incarnation token .publishing))
  | .publishing =>
    some ((s.writeState ⟨incarnation, pid, true⟩).goTo pid
      (.holder incarnation token (.running false)))
  | .running exited => some (s.writeState ⟨incarnation, pid, !exited⟩)

def step (s : RemoteSession) : RemoteStep → Option RemoteSession
  | .begin pid process =>
    if pid ∉ s.processes ∧ process.fresh then some (s.goTo pid process) else none
  | .step pid =>
    (s.processes.lookup pid).bind fun process =>
      match process with
      | .launch token stage => s.launch pid token stage
      | .inspect selector stage => s.inspect pid selector stage
      | .kill selector stage => s.kill pid selector stage
      | .gc stage => s.gc pid stage
      | .holder incarnation token stage => s.holder pid incarnation token stage
      | .ended => none
  | .misread pid =>
    (s.processes.lookup pid).bind fun process =>
      match process with
      | .launch token .reading =>
        some (s.goTo pid (.launch token (.resetting resetFiles)))
      | _ => none
  | .spawn pid child =>
    (s.processes.lookup pid).bind fun process =>
      match process with
      | .launch token .spawning =>
        if child ∈ s.processes then none
        else
          some { (s.goTo pid (.launch token (.waiting child s.incarnations))).goTo child
              (.holder s.incarnations token .initializing) with
            incarnations := s.incarnations + 1 }
      | _ => none
  | .exit pid =>
    (s.processes.lookup pid).bind fun process =>
      match process with
      | .holder incarnation token (.running false) =>
        some ((s.writeState ⟨incarnation, pid, false⟩).goTo pid
          (.holder incarnation token (.running true)))
      | _ => none
  | .giveUp pid =>
    (s.processes.lookup pid).bind fun process =>
      match process with
      | .launch _ (.waiting child _) => some ((s.finish child).finish pid)
      | _ => none
  | .fail pid =>
    (s.processes.lookup pid).bind fun process =>
      if process = .ended then none else some (s.finish pid)
  | .loseSocket => some { s with files := { s.files with socket := false } }

end RemoteSession

end Diri
