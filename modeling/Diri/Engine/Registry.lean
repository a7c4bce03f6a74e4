/-
A live session, as far as the registry has to do with it.

While a session is hibernated its process tree is stopped, and input is queued; waking
it flushes the queue.  Whether a write reaches the child as a whole is an argument
(`written`), as is every other answer of the transport.  `delivered` is what the child
was sent.

A session before its deferred launch queues input elsewhere: here it has been launched.

The engine's registry: the records of its sessions, and the sessions themselves.

A record is what the registry says of a session, live or not; a session is what runs.
Every answer of the outside is an argument: whether a session could be spawned, adopted,
terminated or signalled, which holders answered, the time.  Records are kept by their
own ids.  What is written to the state file is `recordsForPersistence`.

Character classes are Unicode's, and an argument, as is which agents can resume.
-/
import Diri.Engine.HeldPump
import Diri.Lib.Table

namespace Diri

inductive IoErrorKind where
  | notFound
  | other
  deriving DecidableEq, Repr

structure IoError where
  kind : IoErrorKind
  message : String
  deriving DecidableEq, Repr

/-- What a session says of itself. -/
structure SessionView where
  status : SessionStatus
  needsInput : Option NeedsInputDetail := none
  title : Option String := none
  titleSource : Option TitleSource := none
  deriving DecidableEq, Repr

structure LiveSession where
  view : SessionView
  /-- Moves when the view does. -/
  stateVersion : UInt64 := 0
  hibernated : Bool := false
  queuedInput : List UInt8 := []
  delivered : List UInt8 := []
  deriving DecidableEq, Repr

namespace LiveSession

def writeFailed : IoError := ⟨.other, "write failed"⟩

/-- The view changes, as the pump and the hooks see fit. -/
def observe (view : SessionView) (session : LiveSession) : LiveSession :=
  { session with view := view, stateVersion := session.stateVersion + 1 }

def writeRaw (bytes : List UInt8) (written : Bool) (session : LiveSession) :
    LiveSession × Except IoError Unit :=
  if session.hibernated then
    ({ session with queuedInput := session.queuedInput ++ bytes }, .ok ())
  else if written then ({ session with delivered := session.delivered ++ bytes }, .ok ())
  else (session, .error writeFailed)

/-- Marks the session hibernated or awake; on waking, the queued input flushes. -/
def setHibernated (hibernated written : Bool) (session : LiveSession) :
    LiveSession × Except IoError Unit :=
  let session := { session with hibernated := hibernated }
  if hibernated then (session, .ok ())
  else
    -- the queue is taken before the write that may fail
    let queued := session.queuedInput
    let session := { session with queuedInput := [] }
    if queued.isEmpty then (session, .ok ()) else session.writeRaw queued written

/-- Sends bytes to the child, as if typed. -/
def writeInput (bytes : List UInt8) (written : Bool) (session : LiveSession) :
    LiveSession × Except IoError Unit :=
  if session.hibernated then
    ({ session with queuedInput := session.queuedInput ++ bytes }, .ok ())
  else if written then ({ session with delivered := session.delivered ++ bytes }, .ok ())
  else (session, .error writeFailed)

end LiveSession

/-! ### Titles -/

structure CharClass where
  isWhitespace : Char → Bool
  isAlphanumeric : Char → Bool
  isControl : Char → Bool

namespace CharClass

def trim (chars : CharClass) (text : List Char) : List Char :=
  ((text.dropWhile chars.isWhitespace).reverse.dropWhile chars.isWhitespace).reverse

/-- The first line that is not blank, trimmed. -/
def firstLine (chars : CharClass) (text : List Char) : Option (List Char) :=
  ((text.splitOn '\n').map chars.trim).find? fun line => !line.isEmpty

def normalizeAgentTitle (chars : CharClass) (title : String) : Option String :=
  match chars.firstLine title.toList with
  | none => none
  | some line =>
    let line := line.dropWhile fun c =>
      chars.isWhitespace c || (!chars.isAlphanumeric c && c != '_')
    let normalized := chars.trim ((line.filter fun c => !chars.isControl c).take 160)
    if normalized.isEmpty then none else some (String.ofList normalized)

/-- `trim_end_matches('/')`. -/
def trimSlashes (path : List Char) : List Char := (path.reverse.dropWhile (· = '/')).reverse

def genericTitles : List String :=
  ["claude", "claudecode", "codex", "cursor", "gemini", "terminal", "shell"]

/-- Titles a terminal has of its own accord: its directory, or a brand. -/
def isGenericTerminalTitle (chars : CharClass) (title : String) (record : SessionRecord) : Bool :=
  let title := (chars.trim title.toList).map Char.toLower
  let compactTitle := title.filter chars.isAlphanumeric
  let cwd := (trimSlashes record.cwd.toList).map Char.toLower
  let directory := ((cwd.splitOn '/').getLast?).getD cwd
  title = cwd || title = directory || genericTitles.contains (String.ofList compactTitle)

end CharClass

def foldSessionStatus (view : SessionView) (record : SessionRecord) : SessionRecord :=
  { record with status := view.status, needsInput := view.needsInput }

/-- A title that someone gave the session stays. -/
def keepsTitle (record : SessionRecord) : Bool :=
  record.kind = "shell" || record.titleSource = .agentProvided ||
    record.titleSource = .dirijorAssigned || record.titleSource = .userRename

def foldSessionView (chars : CharClass) (view : SessionView) (record : SessionRecord) :
    SessionRecord :=
  let record := foldSessionStatus view record
  if keepsTitle record then record
  else match view.title.bind chars.normalizeAgentTitle with
    | none => record
    | some title =>
      if chars.isGenericTerminalTitle title record then record
      else { record with
        title := title, titleSource := view.titleSource.getD .agentProvided }

/-! ### The registry -/

structure Registry where
  sessions : Table SessionId LiveSession := ∅
  records : Table SessionId SessionRecord := ∅
  /-- Newest first; at most ten. -/
  recentlyClosed : List SessionRecord := []

def notFound (id : SessionId) : IoError := ⟨.notFound, "no session " ++ id⟩

namespace Registry

variable (chars : CharClass) (resumes : String → String → Bool)

/-- Whether the agent can be relaunched into its own conversation. -/
def canReenter (record : SessionRecord) : Bool :=
  match record.agentSessionId with
  | none => false
  | some agentSessionId => resumes record.kind agentSessionId

/-! What it says -/

/-- What only the live session knows, folded into a stored record. -/
def foldLive (record : SessionRecord) (registry : Registry) : SessionRecord :=
  let record := match registry.sessions.lookup record.id with
    | some session => foldSessionView chars session.view record
    | none => record
  if record.status.isExited ∧ record.resumability = .live then
    { record with
      resumability := if canReenter resumes record then .resumable else .notResumable }
  else record

def byId (a b : SessionRecord) : Bool := decide (a.id ≤ b.id)

def listRecords (registry : Registry) : List SessionRecord :=
  (registry.records.values.map fun record => registry.foldLive chars resumes record).mergeSort byId

def record (id : SessionId) (registry : Registry) : Option SessionRecord :=
  (registry.records.lookup id).map fun record => registry.foldLive chars resumes record

def recordsForPersistence (registry : Registry) : List SessionRecord :=
  (registry.records.values.map fun record =>
    match registry.sessions.lookup record.id with
    | some session => foldSessionStatus session.view record
    | none => record).mergeSort byId

/-! Sessions that begin -/

def insertRecord (record : SessionRecord) (registry : Registry) : Registry :=
  { registry with records := registry.records.insert record.id record }

/-- Starts a session under the id of its record, if it starts. -/
def spawn (record : SessionRecord) (spawned : Except IoError LiveSession) (registry : Registry) :
    Registry × Except IoError SessionId :=
  match spawned with
  | .error error => (registry, .error error)
  | .ok session =>
    ({ registry with
        records := registry.records.insert record.id record
        sessions := registry.sessions.insert record.id session }, .ok record.id)

def adoptRemote (id : SessionId) (adopted : Except IoError LiveSession) (registry : Registry) :
    Registry × Except IoError SessionId :=
  if id ∉ registry.records then (registry, .error (notFound id))
  else match adopted with
    | .error error => (registry, .error error)
    | .ok session =>
      ({ registry with sessions := registry.sessions.insert id session }, .ok id)

/-- Starts a session under a record that is there, which then says so. -/
def respawn (id : SessionId) (spawned : Except IoError LiveSession) (now : DateMillis)
    (registry : Registry) : Registry × Except IoError Unit :=
  if id ∉ registry.records then (registry, .error (notFound id))
  else match spawned with
    | .error error => (registry, .error error)
    | .ok session =>
      ({ registry with
          sessions := registry.sessions.insert id session
          records := registry.records.adjust id fun record =>
            { record with status := .starting, needsInput := none, updatedAt := now } }, .ok ())

/-- A holder that answered, and the session made of it, if it was alive and adopted. -/
def adoptHolder (registry : Registry) (holder : SessionId × Option LiveSession) : Registry :=
  match registry.records.lookup holder.1, registry.sessions.lookup holder.1, holder.2 with
  | some record, none, some session =>
    let session :=
      if record.hibernation.isSome then (session.setHibernated true false).1 else session
    { registry with sessions := registry.sessions.insert holder.1 session }
  | _, _, _ => registry

def adoptLiveHolders (holders : List (SessionId × Option LiveSession)) (registry : Registry) :
    Registry := holders.foldl adoptHolder registry

/-- A record that claims what only a live session could report. -/
def isOrphan (record : SessionRecord) (registry : Registry) : Bool :=
  record.host.isNone && !record.status.isExited && !decide (record.id ∈ registry.sessions)

/-- Marks every local record that no live session backs as exited. -/
def reapOrphans (registry : Registry) : Registry :=
  { registry with
    records := registry.records.mapValues fun _ record =>
      if registry.isOrphan record then
        { record with status := .exited ⟨.daemonRestart, none, none⟩, needsInput := none }
      else record }

def restore (holders : List (SessionId × Option LiveSession)) (registry : Registry) : Registry :=
  (registry.adoptLiveHolders holders).reapOrphans

/-! Sessions that end -/

def exitInfo : Exit → ExitInfo
  | .signal signal => ⟨.signaled, none, some signal⟩
  | .code code => ⟨.exited, some code, none⟩

/-- Ends a session, if there is one, but keeps its record. -/
def terminate (id : SessionId) (result : Except IoError Exit) (registry : Registry) :
    Registry × Except IoError (Option Exit) :=
  if id ∉ registry.sessions then (registry, .ok none)
  else
    -- the session is taken out before the call that may fail
    let registry := { registry with sessions := registry.sessions.erase id }
    match result with
    | .error error => (registry, .error error)
    | .ok exit =>
      ({ registry with
          records := registry.records.adjust id fun record =>
            { record with status := .exited (exitInfo exit) } }, .ok (some exit))

/-- Closes a session for good; its record is kept aside for a while. -/
def remove (id : SessionId) (result : Except IoError Exit) (registry : Registry) :
    Registry × Except IoError Unit :=
  let registry := (registry.terminate id result).1
  match registry.records.lookup id with
  | none => (registry, .error (notFound id))
  | some record =>
    ({ registry with
        records := registry.records.erase id
        sessions := registry.sessions.erase id
        recentlyClosed := (record :: registry.recentlyClosed).take 10 }, .ok ())

/-- The first closed record whose folder is still there, and those closed before it. -/
def reopenable (folderExists : String → Bool) :
    List SessionRecord → Option (SessionRecord × List SessionRecord)
  | [] => none
  | record :: rest =>
    if record.host.isNone && !folderExists record.cwd then reopenable folderExists rest
    else some (record, rest)

def reopenLastClosed (folderExists : String → Bool) (registry : Registry) :
    Registry × Option SessionRecord :=
  match reopenable folderExists registry.recentlyClosed with
  | none => ({ registry with recentlyClosed := [] }, none)
  | some (record, rest) =>
    ({ registry with
        recentlyClosed := rest
        records := registry.records.insert record.id record }, some record)

/-- Ends the session, and shelves its record. -/
def archive (id : SessionId) (result : Except IoError Exit) (now : DateMillis)
    (registry : Registry) : Registry × Except IoError Unit :=
  if id ∉ registry.records then (registry, .error (notFound id))
  else
    let registry := (registry.terminate id result).1
    ({ registry with
        records := registry.records.adjust id fun record =>
          { record with
            archivedAt := some now
            status :=
              if record.status.isExited then record.status else .exited ⟨.archived, none, none⟩
            needsInput := none } }, .ok ())

def unarchive (id : SessionId) (now : DateMillis) (registry : Registry) :
    Registry × Except IoError Unit :=
  match registry.records.lookup id with
  | none => (registry, .error (notFound id))
  | some record =>
    if record.archivedAt.isNone then (registry, .ok ())
    else
      ({ registry with
          records := registry.records.adjust id fun record =>
            { record with archivedAt := none, updatedAt := now } }, .ok ())

/-! What changed -/

/-- What has been published so far, on the way through the sessions that moved. -/
structure Publication where
  records : Table SessionId SessionRecord
  published : Table SessionId UInt64
  changed : List (SessionId × SessionRecord) := []

/-- A record with a session's view, and a new time if that gave it another title. -/
def foldChange (view : SessionView) (now : DateMillis) (record : SessionRecord) : SessionRecord :=
  let folded := foldSessionView chars view record
  if folded.title = record.title ∧ folded.titleSource = record.titleSource then folded
  else { folded with updatedAt := now }

/-- One session whose version moved: its record takes its view, and is published. -/
def publishChange (now : DateMillis) (state : Publication)
    (entry : (_ : SessionId) × LiveSession) : Publication :=
  let published := state.published.insert entry.1 entry.2.stateVersion
  match state.records.lookup entry.1 with
  | none => { state with published := published }
  | some record =>
    { records := state.records.adjust entry.1 (foldChange chars entry.2.view now)
      published := published
      changed := state.changed ++ [(entry.1, foldChange chars entry.2.view now record)] }

/-- The versions published for sessions that are still there. -/
def retained (published : Table SessionId UInt64) (registry : Registry) : Table SessionId UInt64 :=
  published.keys.foldl (fun kept id => if id ∈ registry.sessions then kept else kept.erase id)
    published

/-- The records of the sessions whose version is not the published one. -/
def changedSince (published : Table SessionId UInt64) (now : DateMillis) (registry : Registry) :
    Registry × Publication :=
  let published := registry.retained published
  let moved := registry.sessions.entries.filter fun entry =>
    published.lookup entry.1 ≠ some entry.2.stateVersion
  let publication := moved.foldl (publishChange chars now) ⟨registry.records, published, []⟩
  ({ registry with records := publication.records }, publication)

/-- A record changed by its owner. -/
def updateRecord (id : SessionId) (mutate : SessionRecord → SessionRecord) (now : DateMillis)
    (registry : Registry) : Registry :=
  { registry with
    records := registry.records.adjust id fun record => { mutate record with updatedAt := now } }

/-! Hibernation -/

def setHibernation (id : SessionId) (info : Option HibernationInfo) (now : DateMillis)
    (registry : Registry) : Registry :=
  { registry with
    records := registry.records.adjust id fun record =>
      { record with hibernation := info, updatedAt := now } }

/-- Stops a session's tree, and records it as hibernated. -/
def hibernate (id : SessionId) (reason : HibernationReason)
    (stopped : Except IoError (List (Int32 × Int64))) (now : DateMillis) (registry : Registry) :
    Registry × Except IoError Unit :=
  if id ∉ registry.sessions then (registry, .error (notFound id))
  else match stopped with
    | .error error => (registry, .error error)
    | .ok tree =>
      let registry := { registry with
        sessions := registry.sessions.adjust id fun session =>
          (session.setHibernated true false).1 }
      let info : HibernationInfo := ⟨now, reason, tree.map (·.1), some tree⟩
      (registry.setHibernation id (some info) now, .ok ())

def knownHibernated (id : SessionId) (registry : Registry) : Bool :=
  (registry.records.lookup id).any (·.hibernation.isSome) ||
    (registry.sessions.lookup id).any (·.hibernated)

/-- Continues a session's tree, and flushes what was queued; an error of the flush is dropped. -/
def ensureSessionAwake (id : SessionId) (continued : Except IoError Unit) (written : Bool)
    (now : DateMillis) (registry : Registry) : Registry × Except IoError Unit :=
  let known := registry.knownHibernated id
  let wake (registry : Registry) : Registry :=
    if known then registry.setHibernation id none now else registry
  if id ∉ registry.sessions then (wake registry, .ok ())
  else match continued with
    | .error error => (registry, .error error)
    | .ok () =>
      (wake { registry with
        sessions := registry.sessions.adjust id fun session =>
          (session.setHibernated false written).1 }, .ok ())

def wakeSession (id : SessionId) (continued : Except IoError Unit) (written : Bool)
    (now : DateMillis) (registry : Registry) : Registry × Except IoError Unit :=
  if registry.knownHibernated id then registry.ensureSessionAwake id continued written now
  else (registry, .ok ())

/-- Input to a session of the registry. -/
def writeInput (id : SessionId) (bytes : List UInt8) (written : Bool) (registry : Registry) :
    Registry × Except IoError Unit :=
  match registry.sessions.lookup id with
  | none => (registry, .error (notFound id))
  | some session =>
    ({ registry with
        sessions := registry.sessions.adjust id fun session =>
          (session.writeInput bytes written).1 }, (session.writeInput bytes written).2)

/-- A session's view moves by itself. -/
def observe (id : SessionId) (view : SessionView) (registry : Registry) : Registry :=
  { registry with sessions := registry.sessions.adjust id fun session => session.observe view }

end Registry

/-! ### Its calls -/

/-- A call, with what the outside answers to it; or a session's view that moves. -/
inductive RegistryCall where
  | spawn (record : SessionRecord) (spawned : Except IoError LiveSession)
  | adoptRemote (id : SessionId) (adopted : Except IoError LiveSession)
  | respawn (id : SessionId) (spawned : Except IoError LiveSession) (now : DateMillis)
  | restore (holders : List (SessionId × Option LiveSession))
  | terminate (id : SessionId) (result : Except IoError Exit)
  | remove (id : SessionId) (result : Except IoError Exit)
  | reopenLastClosed (folderExists : String → Bool)
  | archive (id : SessionId) (result : Except IoError Exit) (now : DateMillis)
  | unarchive (id : SessionId) (now : DateMillis)
  | changedSince (published : Table SessionId UInt64) (now : DateMillis)
  | hibernate (id : SessionId) (reason : HibernationReason)
      (stopped : Except IoError (List (Int32 × Int64))) (now : DateMillis)
  | wakeSession (id : SessionId) (continued : Except IoError Unit) (written : Bool)
      (now : DateMillis)
  | ensureSessionAwake (id : SessionId) (continued : Except IoError Unit) (written : Bool)
      (now : DateMillis)
  | writeInput (id : SessionId) (bytes : List UInt8) (written : Bool)
  | observe (id : SessionId) (view : SessionView)

/-- What a call returns: whether it went well, and the records it hands out. -/
structure RegistryReply where
  result : Except IoError Unit := .ok ()
  returned : List SessionRecord := []

namespace RegistryCall

/-- The reply of a call that hands out no record. -/
def reply {α : Type} (result : Registry × Except IoError α) : Registry × RegistryReply :=
  (result.1, { result := result.2.map fun _ => () })

def step (chars : CharClass) (registry : Registry) : RegistryCall → Registry × RegistryReply
  | spawn record spawned => reply (registry.spawn record spawned)
  | adoptRemote id adopted => reply (registry.adoptRemote id adopted)
  | respawn id spawned now => reply (registry.respawn id spawned now)
  | restore holders => (registry.restore holders, {})
  | terminate id result => reply (registry.terminate id result)
  | remove id result => reply (registry.remove id result)
  | reopenLastClosed folderExists =>
    let (registry, reopened) := registry.reopenLastClosed folderExists
    (registry, { returned := reopened.toList })
  | archive id result now => reply (registry.archive id result now)
  | unarchive id now => reply (registry.unarchive id now)
  | changedSince published now =>
    let (registry, publication) := registry.changedSince chars published now
    (registry, { returned := publication.changed.map (·.2) })
  | hibernate id reason stopped now => reply (registry.hibernate id reason stopped now)
  | wakeSession id continued written now => reply (registry.wakeSession id continued written now)
  | ensureSessionAwake id continued written now =>
    reply (registry.ensureSessionAwake id continued written now)
  | writeInput id bytes written => reply (registry.writeInput id bytes written)
  | observe id view => (registry.observe id view, {})

end RegistryCall

def RegistryCall.isRestore : RegistryCall → Bool
  | .restore _ => true
  | _ => false

abbrev RegistryStep : Type := Taken Registry RegistryCall RegistryReply

/-- A registry that has read its state file. -/
def Registry.loaded (records : List SessionRecord) : Registry :=
  records.foldl (fun registry record => registry.insertRecord record) {}

end Diri
