/-
The requests a node serves for checkpoints and moves.

Each request is handled as a whole, one after the other.  What the outside answers to one
comes with it: the time, the random bytes, the workspace, the accounts that are signed in,
and which file operations fail.

The handoff of a session from one node to another, as the client drives it.

The client asks one thing after the other: of the target, of the source, and of the random
source of its own machine.  It is answered, or it is told that the answer failed: that is
all it sees of a request that was lost, of a reply that was lost, and of a time that is up,
the time of one request as well as the time of the whole.
-/
import Diri.Lib.Script
import Diri.Node.Checkpoint

namespace Diri

structure AccountProfile where
  id : String
  provider : ProviderKind
  deriving DecidableEq, Repr

inductive NodeRequest
  | checkpointPrepare (params : CheckpointPrepareParams)
  | checkpointManifestPut (manifest : CheckpointManifest)
  | checkpointBlobHas (digests : List String)
  | checkpointBlobRead (digest : String) (offset maxBytes : Nat)
  | checkpointBlobPut (params : BlobPutParams)
  | checkpointStage (checkpointId : String)
  | moveCommit (params : MoveCommitParams)
  | moveAbort (params : MoveAbortParams)
  deriving DecidableEq, Repr

structure BlobChunk where
  digest : String
  offset : Nat
  hex : String
  eof : Bool
  deriving DecidableEq, Repr

inductive NodeReply
  | manifest (manifest : CheckpointManifest)
  | ok
  | missing (digests : List String)
  | chunk (chunk : BlobChunk)
  | complete (complete : Bool)
  | staged (result : CheckpointStageResult)
  | movement (movement : MoveRecord)
  deriving DecidableEq, Repr

/-- What the outside answers while a request is served. -/
structure NodeOutside where
  now : Int := 0
  random : Except NodeError (List UInt8) := .error .io
  workspace : Workspace := ⟨.error .io, false, [], [], .ok ⟨⟩⟩
  providerFile : Option WalkedFile := none
  accounts : List AccountProfile := []
  faults : List Bool := []

namespace CheckpointStore

variable (store : CheckpointStore)

def missingBlobs : List String → NodeM (List String)
  | [] => return []
  | digest :: rest => do
      validateDigest digest
      let disk ← readDisk
      let missing ← missingBlobs rest
      return if digest ∈ disk.blobs then missing else digest :: missing

def defaultChunkBytes : Nat := 512 * 1024

def readBlob (digest : String) (offset maxBytes : Nat) : NodeM BlobChunk := do
  validateDigest digest
  match (← readDisk).blobs.lookup digest with
  | none => throw (.notFound ("blob `" ++ digest ++ "`"))
  | some contents =>
    fileOperation
    refuseIf (contents.length < offset) (.badRequest "blob offset exceeds its size")
    let requested := if maxBytes = 0 then defaultChunkBytes else min maxBytes maxChunkBytes
    let bytes := (contents.drop offset).take requested
    return ⟨digest, offset, hexEncode bytes, offset + bytes.length = contents.length⟩

end CheckpointStore

structure NodeService where
  store : CheckpointStore
  trim : String → String

namespace NodeService

variable (service : NodeService)

def profile (accounts : List AccountProfile) (id : String) : NodeM AccountProfile :=
  match accounts.find? fun profile => profile.id = id with
  | none => throw (.notFound ("account profile `" ++ id ++ "`"))
  | some profile => return profile

def configHome (profile : AccountProfile) : String :=
  service.store.root ++ "/accounts/"
    ++ (match profile.provider with | .claude => "claude" | .codex => "codex") ++ "/" ++ profile.id

/-- What an aborted move brought here is taken away; an account that is gone has nothing. -/
def rollback (manifest : CheckpointManifest) (accounts : List AccountProfile) : NodeM PUnit :=
  if manifest.sourceNodeId = service.store.nodeId then return
  else match accounts.find? fun profile => profile.id = manifest.profileId with
    | none => return
    | some profile => service.store.rollbackProviderState manifest (service.configHome profile)

def dispatch (request : NodeRequest) (outside : NodeOutside) : NodeM NodeReply :=
  match request with
  | .checkpointPrepare params => do
      let profile ← profile outside.accounts params.profileId
      refuseIf (profile.provider ≠ params.provider)
        (.badRequest "checkpoint provider does not match its account profile")
      return .manifest (← service.store.prepare params outside.workspace outside.random
        outside.providerFile outside.now)
  | .checkpointManifestPut manifest => do
      service.store.putManifest manifest outside.now
      return .ok
  | .checkpointBlobHas digests => return .missing (← CheckpointStore.missingBlobs digests)
  | .checkpointBlobRead digest offset maxBytes =>
    return .chunk (← CheckpointStore.readBlob digest offset maxBytes)
  | .checkpointBlobPut params => return .complete (← service.store.putBlob params)
  | .checkpointStage checkpointId => do
      let manifest ← CheckpointStore.loadManifest checkpointId
      let profile ← profile outside.accounts manifest.profileId
      refuseIf (profile.provider ≠ manifest.provider)
        (.conflict "target account profile has the wrong provider")
      return .staged (← service.store.stage checkpointId (service.configHome profile) outside.now)
  | .moveCommit params =>
    return .movement (← CheckpointStore.commit service.trim params outside.now)
  | .moveAbort params => do
      let manifest ← CheckpointStore.loadManifest params.checkpointId
      let movement ← CheckpointStore.abort params outside.now
      service.rollback manifest outside.accounts
      return .movement movement

/-- One request, served from what is on the disk. -/
def serve (disk : NodeDisk) (call : NodeRequest × NodeOutside) :
    NodeDisk × Except NodeError NodeReply :=
  let (reply, host) := Handler.exec (service.dispatch call.1 call.2) ⟨disk, call.2.faults⟩
  (host.disk, reply)

/-- Requests served one after the other. -/
def run (disk : NodeDisk) (calls : List (NodeRequest × NodeOutside)) : NodeDisk :=
  calls.foldl (fun disk call => (service.serve disk call).1) disk

end NodeService

end Diri

namespace Diri

structure ControlError where
  code : String
  message : String
  deriving DecidableEq, Repr

/-- A node's error as it is sent; `ioText` is the text of a file operation that failed. -/
def NodeError.toControl (ioText : String) : NodeError → ControlError
  | .badRequest message => ⟨"bad_request", message⟩
  | .notFound message => ⟨"not_found", message⟩
  | .conflict message => ⟨"conflict", message⟩
  | .protocol message => ⟨"protocol", message⟩
  | .provider message => ⟨"provider", message⟩
  | .json message => ⟨"bad_request", message⟩
  | .io => ⟨"internal", ioText⟩

inductive NodeClientError
  | control (error : ControlError)
  | disconnected (message : String)
  | timeout (message : String)
  | io (message : String)
  | json (message : String)
  | protocol (message : String)
  deriving DecidableEq, Repr

def NodeClientError.text : NodeClientError → String
  | .control error => error.code ++ ": " ++ error.message
  | .disconnected message => "disconnected: " ++ message
  | .timeout message => "timeout: " ++ message
  | .io message => "I/O error: " ++ message
  | .json message => "JSON error: " ++ message
  | .protocol message => "protocol error: " ++ message

inductive NodeSide
  | source
  | target
  deriving DecidableEq, Repr

structure ProviderCallParams where
  profileId : String
  method : String
  /-- The name the provider gives the session's id. -/
  idKey : String
  sessionId : String
  cwd : String
  deriving DecidableEq, Repr

inductive ClientCall
  | hello
  | accountStatus (profileId : String)
  | request (side : NodeSide) (request : NodeRequest)
  | providerCall (params : ProviderCallParams)
  | random
  deriving DecidableEq, Repr

inductive ClientReply
  | hello (nodeId displayName : String)
  | status (status : InstallationStatus)
  | node (reply : NodeReply)
  | provided (result : String)
  | random (bytes : List UInt8)
  deriving DecidableEq, Repr

structure SessionHandoffResult where
  checkpoint : CheckpointManifest
  staged : CheckpointStageResult
  providerResult : String
  targetCommit : MoveRecord
  sourceCommit : MoveRecord
  deriving DecidableEq, Repr

abbrev NodeClient (α : Type) : Type :=
  ExceptT NodeClientError (Script ClientCall (Except NodeClientError ClientReply)) α

namespace NodeClient

/-- A request, and what its reply is read as. -/
def typed {α : Type} (call : ClientCall) (read : ClientReply → Option α) : NodeClient α :=
  .mk (.ask call fun answer => .done (answer.bind fun reply =>
    match read reply with
    | some value => .ok value
    | none => .error (.json "unexpected reply")))

def hello : NodeClient (String × String) :=
  typed .hello fun | .hello nodeId displayName => some (nodeId, displayName) | _ => none

def accountStatus (profileId : String) : NodeClient InstallationStatus :=
  typed (.accountStatus profileId) fun | .status status => some status | _ => none

def prepareCheckpoint (params : CheckpointPrepareParams) : NodeClient CheckpointManifest :=
  typed (.request .source (.checkpointPrepare params)) fun
    | .node (.manifest manifest) => some manifest
    | _ => none

def putManifest (manifest : CheckpointManifest) : NodeClient Unit :=
  typed (.request .target (.checkpointManifestPut manifest)) fun _ => some ⟨⟩

def missingBlobs (digests : List String) : NodeClient (List String) :=
  typed (.request .target (.checkpointBlobHas digests)) fun
    | .node (.missing digests) => some digests
    | _ => none

def readBlob (digest : String) (offset : Nat) : NodeClient BlobChunk :=
  typed (.request .source (.checkpointBlobRead digest offset (512 * 1024))) fun
    | .node (.chunk chunk) => some chunk
    | _ => none

/-- Whether the blob is complete; any other reply says that it is not. -/
def putBlob (params : BlobPutParams) : NodeClient Bool :=
  typed (.request .target (.checkpointBlobPut params)) fun
    | .node (.complete complete) => some complete
    | _ => some false

/-- Chunk after chunk, from `offset` on.  After `chunks` of them the time is up. -/
def transferBlob (digest : String) : (chunks offset : Nat) → NodeClient Unit
  | 0, _ => throw (.timeout "node handoff timed out")
  | chunks + 1, offset => do
      let chunk ← readBlob digest offset
      let complete ← putBlob ⟨digest, offset, chunk.hex, chunk.eof⟩
      if chunk.eof then
        if complete then return ⟨⟩ else throw (.protocol "target did not finalize blob")
      else transferBlob digest chunks (min (offset + chunk.hex.utf8ByteSize / 2) (2 ^ 64 - 1))

def transferBlobs (chunks : Nat) : List String → NodeClient Unit
  | [] => return ⟨⟩
  | digest :: rest => do
      transferBlob digest chunks 0
      transferBlobs chunks rest

def stageCheckpoint (checkpointId : String) : NodeClient CheckpointStageResult :=
  typed (.request .target (.checkpointStage checkpointId)) fun
    | .node (.staged result) => some result
    | _ => none

def providerCall (params : ProviderCallParams) : NodeClient String :=
  typed (.providerCall params) fun | .provided result => some result | _ => none

def randomLeaseId : NodeClient String :=
  typed .random fun | .random bytes => some ("lease-" ++ hexEncode bytes) | _ => none

def commitMove (side : NodeSide) (params : MoveCommitParams) : NodeClient MoveRecord :=
  typed (.request side (.moveCommit params)) fun
    | .node (.movement movement) => some movement
    | _ => none

/-- Both sides are asked; what becomes of it is ignored. -/
def abortMove (side : NodeSide) (params : MoveAbortParams) : NodeClient Unit :=
  .mk (.ask (.request side (.moveAbort params)) fun _ => .done (.ok ⟨⟩))

def abortBestEffort (checkpointId reason : String) : NodeClient Unit := do
  let params : MoveAbortParams := ⟨checkpointId, String.ofList (reason.toList.take 500)⟩
  abortMove .target params
  abortMove .source params

def providerResumeCall (provider : ProviderKind) (mode : TransferMode)
    (profileId sessionId cwd : String) : ProviderCallParams where
  profileId := profileId
  method := match provider, mode with
    | .codex, .move => "thread/resume"
    | .codex, .fork => "thread/fork"
    | .claude, .move => "session/resume"
    | .claude, .fork => "session/fork"
  idKey := match provider with | .codex => "threadId" | .claude => "sessionId"
  sessionId := sessionId
  cwd := cwd

/-- What is done between the checkpoint and the end, and undone if it fails. -/
def operation (chunks : Nat) (params : CheckpointPrepareParams) (targetNodeId : String)
    (checkpoint : CheckpointManifest) (providerSessionId : String) :
    NodeClient SessionHandoffResult := do
  putManifest checkpoint
  let digests := checkpoint.files.map (·.digest) ++ (checkpoint.providerState.map (·.digest)).toList
  let missing ← missingBlobs digests
  transferBlobs chunks missing
  let staged ← stageCheckpoint checkpoint.checkpointId
  let providerResult ← providerCall (providerResumeCall params.provider checkpoint.mode
    params.profileId providerSessionId staged.quarantinePath)
  let leaseId ← randomLeaseId
  let targetCommit ← commitMove .target ⟨checkpoint.checkpointId, targetNodeId, leaseId⟩
  let sourceCommit ← commitMove .source ⟨checkpoint.checkpointId, targetNodeId, leaseId⟩
  return ⟨checkpoint, staged, providerResult, targetCommit, sourceCommit⟩

/-- `chunks` is how many chunks of a blob are sent at most before the time is up. -/
def handoff (chunks : Nat) (params : CheckpointPrepareParams) :
    NodeClient SessionHandoffResult := do
  let (targetNodeId, displayName) ← hello
  let status ← accountStatus params.profileId
  if status ≠ .ready then
    throw (.protocol ("account profile `" ++ params.profileId ++ "` is not signed in on "
      ++ displayName))
  else
    let checkpoint ← prepareCheckpoint params
    match checkpoint.providerSessionId with
    | none => throw (.protocol "provider session id is required for an instant handoff")
    | some providerSessionId =>
      tryCatch (operation chunks params targetNodeId checkpoint providerSessionId)
        fun error => do
          abortBestEffort checkpoint.checkpointId error.text
          throw error

end NodeClient

/-! ### A run of it -/

structure NodePair where
  source : NodeService
  target : NodeService

/-- The two disks, what is still under way though the client has given it up, and what the
client has yet to do. -/
structure HandoffRun where
  source : NodeDisk
  target : NodeDisk
  inFlight : List (NodeSide × NodeRequest) := []
  client : Script ClientCall (Except NodeClientError ClientReply)
    (Except NodeClientError SessionHandoffResult)

inductive HandoffEvent
  /-- What is asked comes to nothing. -/
  | fails (error : NodeClientError)
  | replies (outside : NodeOutside) (ioText : String)
  /-- The request is served, and the client does not hear of it. -/
  | replyLost (outside : NodeOutside) (error : NodeClientError)
  /-- The client waits no longer, and the request is still under way. -/
  | givenUp (error : NodeClientError)
  /-- An answer to what is not a request about checkpoints. -/
  | answers (reply : ClientReply)
  | late (k : Nat) (outside : NodeOutside)
  | dropped (k : Nat)

namespace HandoffRun

def start (source target : NodeDisk) (chunks : Nat) (params : CheckpointPrepareParams) :
    HandoffRun where
  source := source
  target := target
  client := (NodeClient.handoff chunks params).run

variable (nodes : NodePair)

/-- One of the two nodes serves a request. -/
def serve (run : HandoffRun) (call : NodeSide × NodeRequest) (outside : NodeOutside) :
    HandoffRun × Except NodeError NodeReply :=
  match call.1 with
  | .source =>
    let (disk, reply) := nodes.source.serve run.source (call.2, outside)
    ({ run with source := disk }, reply)
  | .target =>
    let (disk, reply) := nodes.target.serve run.target (call.2, outside)
    ({ run with target := disk }, reply)

def replyOf (ioText : String) : Except NodeError NodeReply → Except NodeClientError ClientReply
  | .ok reply => .ok (.node reply)
  | .error error => .error (.control (error.toControl ioText))

def step (run : HandoffRun) (event : HandoffEvent) : HandoffRun :=
  match event, run.client with
  | .fails error, .ask _ next => { run with client := next (.error error) }
  | .replies outside ioText, .ask (.request side request) next =>
    let (run, reply) := run.serve nodes (side, request) outside
    { run with client := next (replyOf ioText reply) }
  | .replyLost outside error, .ask (.request side request) next =>
    let (run, _) := run.serve nodes (side, request) outside
    { run with client := next (.error error) }
  | .givenUp error, .ask (.request side request) next =>
    { run with
      inFlight := run.inFlight ++ [(side, request)]
      client := next (.error error) }
  | .answers _, .ask (.request _ _) _ => run
  | .answers reply, .ask _ next => { run with client := next (.ok reply) }
  | .late k outside, _ =>
    match run.inFlight[k]? with
    | none => run
    | some call =>
      let (run, _) := run.serve nodes call outside
      { run with inFlight := run.inFlight.eraseIdx k }
  | .dropped k, _ => { run with inFlight := run.inFlight.eraseIdx k }
  | _, _ => run

def steps (run : HandoffRun) (events : List HandoffEvent) : HandoffRun :=
  events.foldl (step nodes) run

end HandoffRun

end Diri
