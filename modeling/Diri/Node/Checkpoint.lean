/-
A node's checkpoints, and the record of each move.

A checkpoint is a manifest and the blobs it names; moving one to another node leaves a
`MoveRecord` on both.  What is on the node's disk is a table for each directory.  Each call
is told which of its file operations fail, and stops where one does: what it wrote before
stays.  A file is replaced as a whole, so a save that fails leaves the old one.

The hash, the clock, the random bytes and what is found in a workspace are arguments.
-/
import Diri.Lib.Bytes
import Diri.Lib.Handler
import Diri.Lib.Path
import Diri.Lib.Table

namespace Diri

/-! ### What is sent -/

inductive ProviderKind
  | claude
  | codex
  deriving DecidableEq, Repr

def ProviderKind.asStr : ProviderKind → String
  | .claude => "claude"
  | .codex => "codex"

inductive InstallationStatus
  | missing
  | signedOut
  | authenticating
  | ready
  | error
  deriving DecidableEq, Repr

inductive TransferMode
  | move
  | fork
  deriving DecidableEq, Repr

structure CheckpointFile where
  path : String
  digest : String
  size : Nat
  unixMode : Option Nat := none
  deriving DecidableEq, Repr

structure CheckpointManifest where
  version : Nat
  checkpointId : String
  sourceNodeId : String
  sessionId : String
  provider : ProviderKind
  profileId : String
  workspaceRoot : String
  providerSessionId : Option String := none
  mode : TransferMode
  createdAt : Int
  files : List CheckpointFile
  providerState : Option CheckpointFile := none
  excluded : List String := []
  deriving DecidableEq, Repr

structure CheckpointPrepareParams where
  sessionId : String
  provider : ProviderKind
  profileId : String
  workspaceRoot : String
  providerSessionId : Option String := none
  mode : TransferMode
  deriving DecidableEq, Repr

structure BlobPutParams where
  digest : String
  offset : Nat
  hex : String
  eof : Bool
  deriving DecidableEq, Repr

structure CheckpointStageResult where
  checkpointId : String
  quarantinePath : String
  ready : Bool
  deriving DecidableEq, Repr

inductive MovePhase
  | prepared
  | transferring
  | staged
  | targetReady
  | committed
  | aborted
  deriving DecidableEq, Repr

structure MoveCommitParams where
  checkpointId : String
  targetNodeId : String
  leaseId : String
  deriving DecidableEq, Repr

structure MoveAbortParams where
  checkpointId : String
  reason : String
  deriving DecidableEq, Repr

structure MoveRecord where
  checkpointId : String
  sessionId : String
  sourceNodeId : String
  targetNodeId : Option String := none
  phase : MovePhase
  leaseId : Option String := none
  reason : Option String := none
  updatedAt : Int
  deriving DecidableEq, Repr

namespace MoveRecord

/-- The record on the node the session is on. -/
def ofPrepared (checkpointId sessionId nodeId : String) (now : Int) : MoveRecord where
  checkpointId := checkpointId
  sessionId := sessionId
  sourceNodeId := nodeId
  phase := .prepared
  updatedAt := now

/-- The record on the node the session is to be on. -/
def ofManifest (manifest : CheckpointManifest) (nodeId : String) (now : Int) : MoveRecord where
  checkpointId := manifest.checkpointId
  sessionId := manifest.sessionId
  sourceNodeId := manifest.sourceNodeId
  targetNodeId := some nodeId
  phase := .transferring
  updatedAt := now

def stage (movement : MoveRecord) (now : Int) : MoveRecord :=
  { movement with phase := .staged, updatedAt := now }

def commit (movement : MoveRecord) (params : MoveCommitParams) (now : Int) : MoveRecord :=
  { movement with
    phase := .committed
    targetNodeId := some params.targetNodeId
    leaseId := some params.leaseId
    updatedAt := now }

def abort (movement : MoveRecord) (params : MoveAbortParams) (now : Int) : MoveRecord :=
  { movement with phase := .aborted, reason := some params.reason, updatedAt := now }

end MoveRecord

inductive NodeError
  | badRequest (message : String)
  | notFound (message : String)
  | conflict (message : String)
  | protocol (message : String)
  | provider (message : String)
  | json (message : String)
  | io
  deriving DecidableEq, Repr

/-! ### The disk -/

structure RestoredFile where
  contents : List UInt8
  unixMode : Option Nat
  deriving DecidableEq, Repr

structure NodeDisk where
  checkpoints : Table String CheckpointManifest := ∅
  moves : Table String MoveRecord := ∅
  blobs : Table String (List UInt8) := ∅
  /-- Blobs that are not all there yet. -/
  partials : Table String (List UInt8) := ∅
  restores : Table String (Table String RestoredFile) := ∅
  /-- Restores that are not complete. -/
  stagings : Table String (Table String RestoredFile) := ∅
  /-- What the accounts' providers keep, by path. -/
  providerFiles : Table String (List UInt8) := ∅

/-- The disk, and which of the coming file operations fail; after these none does. -/
structure NodeHost where
  disk : NodeDisk := {}
  faults : List Bool := []

abbrev NodeM (α : Type) : Type := Handler NodeHost NodeError α

/-- A call that is refused goes no further. -/
def refuseIf (p : Prop) [Decidable p] (error : NodeError) : NodeM PUnit :=
  if p then throw error else pure ⟨⟩

def fileOperation : NodeM PUnit := do
  let host ← get
  modify fun host => { host with faults := host.faults.tail }
  refuseIf (host.faults.head? = some true) .io

def readDisk : NodeM NodeDisk := do return (← get).disk

def writeDisk (f : NodeDisk → NodeDisk) : NodeM PUnit := do
  fileOperation
  modify fun host => { host with disk := f host.disk }

/-! ### Checks -/

def checkpointVersion : Nat := 1
def maxFiles : Nat := 100000
def maxFileBytes : Nat := 256 * 1024 * 1024
def maxTotalBytes : Nat := 8 * 1024 * 1024 * 1024
def maxChunkBytes : Nat := 1024 * 1024

def isAsciiHexDigit (c : Char) : Bool :=
  c.isDigit || ('a' ≤ c && c ≤ 'f') || ('A' ≤ c && c ≤ 'F')

def validateCheckpointId (id : String) : NodeM PUnit :=
  refuseIf
    (id.toList.take 3 ≠ "cp-".toList ∨ id.utf8ByteSize ≠ 35 ∨
      ¬(id.toList.drop 3).all isAsciiHexDigit)
    (.badRequest "invalid checkpoint id")

def validateDigest (digest : String) : NodeM PUnit :=
  refuseIf (digest.utf8ByteSize ≠ 64 ∨ ¬digest.toList.all isAsciiHexDigit)
    (.badRequest "invalid SHA-256 digest")

def validateRelativePath (path : String) : NodeM PUnit :=
  refuseIf (path = "" ∨ ¬Path.isNormal path)
    (.badRequest ("unsafe checkpoint path `" ++ path ++ "`"))

/-- Each file is checked, and the sizes are added up; the sum saturates. -/
def validateFiles : List CheckpointFile → Nat → NodeM Nat
  | [], total => return total
  | entry :: rest, total => do
      validateRelativePath entry.path
      validateDigest entry.digest
      refuseIf (maxFileBytes < entry.size) (.badRequest "checkpoint file is too large")
      validateFiles rest (min (total + entry.size) (2 ^ 64 - 1))

def validateManifest (manifest : CheckpointManifest) : NodeM PUnit := do
  refuseIf (manifest.version ≠ checkpointVersion)
    (.protocol ("unsupported checkpoint version " ++ toString manifest.version))
  validateCheckpointId manifest.checkpointId
  refuseIf (maxFiles < manifest.files.length) (.badRequest "checkpoint has too many files")
  let total ← validateFiles (manifest.files ++ manifest.providerState.toList) 0
  refuseIf (maxTotalBytes < total) (.badRequest "checkpoint is too large")

/-! ### Hex -/

def hexEncode (bytes : List UInt8) : String :=
  String.ofList (bytes.flatMap fun byte =>
    [hexDigits.getD (byte.toNat / 16) '0', hexDigits.getD (byte.toNat % 16) '0'])

def hexDigit (c : Char) : NodeM Nat :=
  if '0' ≤ c && c ≤ '9' then return c.toNat - '0'.toNat
  else if 'a' ≤ c && c ≤ 'f' then return c.toNat - 'a'.toNat + 10
  else if 'A' ≤ c && c ≤ 'F' then return c.toNat - 'A'.toNat + 10
  else throw (.badRequest "invalid hex payload")

def hexPairs : List Char → NodeM (List UInt8)
  | high :: low :: rest => do
      let high ← hexDigit high
      let low ← hexDigit low
      return UInt8.ofNat (high * 16 + low) :: (← hexPairs rest)
  | [_] => throw (.badRequest "invalid hex payload")
  | [] => return []

def hexDecode (value : String) : NodeM (List UInt8) := do
  refuseIf (value.utf8ByteSize % 2 ≠ 0) (.badRequest "hex payload has odd length")
  hexPairs value.toList

/-! ### The store -/

structure CheckpointStore where
  nodeId : String
  root : String
  sha256 : List UInt8 → String
  processId : Nat := 0

/-- A file that the walk of a workspace reaches: what it held when it was hashed and copied. -/
structure WalkedFile where
  relative : String
  contents : List UInt8
  copied : List UInt8
  unixMode : Option Nat

/-- What is found in a workspace, and how the walk of it ends. -/
structure Workspace where
  canonical : Except NodeError String
  isDir : Bool
  files : List WalkedFile
  excluded : List String
  walked : Except NodeError Unit

namespace CheckpointStore

variable (store : CheckpointStore)

def restorePath (checkpointId : String) : String := store.root ++ "/restores/" ++ checkpointId

/-! Files -/

def saveManifest (manifest : CheckpointManifest) : NodeM PUnit := do
  validateManifest manifest
  writeDisk fun disk =>
    { disk with checkpoints := disk.checkpoints.insert manifest.checkpointId manifest }

def loadManifest (checkpointId : String) : NodeM CheckpointManifest := do
  validateCheckpointId checkpointId
  let missing : NodeError := .notFound ("checkpoint `" ++ checkpointId ++ "`")
  match (← readDisk).checkpoints.lookup checkpointId with
  | none => throw missing
  | some manifest =>
    tryCatch fileOperation fun _ => throw missing
    validateManifest manifest
    return manifest

def saveMove (movement : MoveRecord) : NodeM PUnit :=
  writeDisk fun disk => { disk with moves := disk.moves.insert movement.checkpointId movement }

def loadMove (checkpointId : String) : NodeM MoveRecord := do
  validateCheckpointId checkpointId
  let missing : NodeError := .notFound ("move `" ++ checkpointId ++ "`")
  match (← readDisk).moves.lookup checkpointId with
  | none => throw missing
  | some movement =>
    tryCatch fileOperation fun _ => throw missing
    return movement

/-- A blob is copied once. -/
def copyBlob (file : WalkedFile) (digest : String) : NodeM PUnit := do
  let disk ← readDisk
  if digest ∈ disk.blobs then return
  else
    fileOperation
    refuseIf (store.sha256 file.copied ≠ digest)
      (.conflict "file changed while checkpointing; retry at a turn boundary")
    writeDisk fun disk => { disk with blobs := disk.blobs.insert digest file.copied }

def storeFile (file : WalkedFile) : NodeM CheckpointFile := do
  validateRelativePath file.relative
  let digest := store.sha256 file.contents
  store.copyBlob file digest
  return ⟨file.relative, digest, file.contents.length, file.unixMode⟩

def storeFiles : List WalkedFile → NodeM (List CheckpointFile)
  | [] => return []
  | file :: rest => do
      let stored ← store.storeFile file
      return stored :: (← storeFiles rest)

/-- Copies a blob to its place in a directory that is not complete yet. -/
def restoreFile (checkpointId directory : String) (entry : CheckpointFile) : NodeM PUnit := do
  validateRelativePath entry.path
  validateDigest entry.digest
  let corrupt : NodeError :=
    .conflict ("checkpoint blob `" ++ entry.digest ++ "` is missing or corrupt")
  match (← readDisk).blobs.lookup entry.digest with
  | none => throw corrupt
  | some contents =>
    refuseIf (store.sha256 contents ≠ entry.digest) corrupt
    writeDisk fun disk =>
      { disk with stagings := disk.stagings.adjust checkpointId fun files =>
          files.insert (directory ++ entry.path) ⟨contents, entry.unixMode⟩ }

def restoreFiles (checkpointId directory : String) : List CheckpointFile → NodeM PUnit
  | [] => return
  | entry :: rest => do
      store.restoreFile checkpointId directory entry
      restoreFiles checkpointId directory rest

/-! What the provider keeps -/

def providerStateDestination (manifest : CheckpointManifest) (configHome : String) :
    NodeM (Option String) :=
  match manifest.providerSessionId with
  | none => return none
  | some sessionId =>
    if sessionId = "" || sessionId.toList.contains '/' || sessionId.toList.contains '\\' then
      throw (.badRequest "invalid provider session id")
    else match manifest.provider with
      | .claude => return some (configHome ++ "/projects/-dirijor-imports/" ++ sessionId ++ ".jsonl")
      | .codex =>
        return some (configHome ++ "/sessions/dirijor-imports/rollout-dirijor-" ++ sessionId
          ++ ".jsonl")

/-- Where a transcript is copied before it is moved to its place. -/
def providerStaging (manifest : CheckpointManifest) (configHome : String) : String :=
  let parent := match manifest.provider with
    | .claude => configHome ++ "/projects/-dirijor-imports/"
    | .codex => configHome ++ "/sessions/dirijor-imports/"
  parent ++ "." ++ manifest.providerSessionId.getD "" ++ ".staging-" ++ toString store.processId

/-- Of a copy that fails nothing but the file may be there. -/
def activateProviderState (manifest : CheckpointManifest) (configHome : String) : NodeM PUnit :=
  match manifest.providerState with
  | none => return
  | some state => do
      match ← providerStateDestination manifest configHome with
      | none => throw (.protocol "provider state has no provider session id")
      | some destination =>
        match (← readDisk).providerFiles.lookup destination with
        | some contents =>
          fileOperation
          refuseIf (store.sha256 contents ≠ state.digest)
            (.conflict ("provider session `" ++ manifest.providerSessionId.getD ""
              ++ "` already exists with different contents"))
        | none =>
          -- its directory is made, and becomes the owner's alone
          fileOperation
          fileOperation
          match (← readDisk).blobs.lookup state.digest with
          | none => throw .io
          | some contents =>
            let staging := store.providerStaging manifest configHome
            writeDisk fun disk =>
              { disk with providerFiles := disk.providerFiles.insert staging [] }
            writeDisk fun disk =>
              { disk with providerFiles := disk.providerFiles.insert staging contents }
            fileOperation
            refuseIf (store.sha256 contents ≠ state.digest)
              (.conflict "provider state blob is missing or corrupt")
            writeDisk fun disk =>
              { disk with
                providerFiles :=
                  (disk.providerFiles.erase staging).insert destination contents }

def rollbackProviderState (manifest : CheckpointManifest) (configHome : String) : NodeM PUnit :=
  match manifest.providerState with
  | none => return
  | some state => do
      match ← providerStateDestination manifest configHome with
      | none => return
      | some destination =>
        match (← readDisk).providerFiles.lookup destination with
        | none => return
        | some contents =>
          fileOperation
          if store.sha256 contents = state.digest then
            writeDisk fun disk =>
              { disk with providerFiles := disk.providerFiles.erase destination }
          else return

/-! The operations -/

def answered {α : Type} : Except NodeError α → NodeM α
  | .ok answer => return answer
  | .error error => throw error

/-- The session's own file, where there is one; a failure is ignored. -/
def storeProviderState (params : CheckpointPrepareParams) (providerFile : Option WalkedFile) :
    NodeM (Option CheckpointFile) :=
  match params.providerSessionId, providerFile with
  | some _, some file =>
    tryCatch (some <$> store.storeFile { file with relative := "provider/session.jsonl" })
      fun _ => return none
  | _, _ => return none

/-- A checkpoint of a workspace; `providerFile` is the session's own file, if one is found. -/
def prepare (params : CheckpointPrepareParams) (workspace : Workspace)
    (random : Except NodeError (List UInt8)) (providerFile : Option WalkedFile) (now : Int) :
    NodeM CheckpointManifest := do
  let root ← answered workspace.canonical
  refuseIf (¬workspace.isDir) (.badRequest "workspace is not a directory")
  let random ← answered random
  let checkpointId := "cp-" ++ hexEncode random
  let files ← store.storeFiles workspace.files
  answered workspace.walked
  let providerState ← store.storeProviderState params providerFile
  let manifest : CheckpointManifest :=
    { version := checkpointVersion
      checkpointId := checkpointId
      sourceNodeId := store.nodeId
      sessionId := params.sessionId
      provider := params.provider
      profileId := params.profileId
      workspaceRoot := root
      providerSessionId := params.providerSessionId
      mode := params.mode
      createdAt := now
      files := files
      providerState := providerState
      excluded := workspace.excluded }
  saveManifest manifest
  saveMove (.ofPrepared checkpointId params.sessionId store.nodeId now)
  return manifest

def putManifest (manifest : CheckpointManifest) (now : Int) : NodeM PUnit := do
  validateManifest manifest
  refuseIf (manifest.sourceNodeId = store.nodeId)
    (.conflict "source manifest already belongs to this node")
  saveManifest manifest
  saveMove (.ofManifest manifest store.nodeId now)

/-- The blob is whole: it takes its place if it is what it should be. -/
def finishBlob (digest : String) (bytes : List UInt8) : NodeM PUnit := do
  fileOperation
  refuseIf (store.sha256 bytes ≠ digest)
    (.badRequest ("blob digest mismatch: expected " ++ digest ++ ", received "
      ++ store.sha256 bytes))
  writeDisk fun disk =>
    { disk with
      partials := disk.partials.erase digest
      blobs := disk.blobs.insert digest bytes }

/-- One chunk of a blob, which has to begin where the last one ended. -/
def putBlob (params : BlobPutParams) : NodeM Bool := do
  validateDigest params.digest
  let bytes ← hexDecode params.hex
  refuseIf (maxChunkBytes < bytes.length) (.badRequest "blob chunk is too large")
  let disk ← readDisk
  if params.digest ∈ disk.blobs then return true
  else
    let current := (disk.partials.lookup params.digest).getD []
    refuseIf (current.length ≠ params.offset)
      (.conflict ("blob offset mismatch: expected " ++ toString current.length ++ ", got "
        ++ toString params.offset))
    writeDisk fun disk =>
      { disk with partials := disk.partials.insert params.digest (current ++ bytes) }
    if params.eof then
      store.finishBlob params.digest (current ++ bytes)
      return true
    else return false

/-- Copies every file of the checkpoint to a directory beside the restores, then moves it. -/
def restore (checkpointId : String) (manifest : CheckpointManifest) : NodeM PUnit := do
  writeDisk fun disk => { disk with stagings := disk.stagings.insert checkpointId ∅ }
  fileOperation
  -- what fails from here on leaves the directory for inspection
  store.restoreFiles checkpointId "" manifest.files
  store.restoreFiles checkpointId ".dirijor/" manifest.providerState.toList
  writeDisk fun disk =>
    { disk with
      stagings := disk.stagings.erase checkpointId
      restores := disk.restores.insert checkpointId
        ((disk.stagings.lookup checkpointId).getD ∅) }

/-- The checkpoint's files, out of the way of the workspace they are of. -/
def stage (checkpointId configHome : String) (now : Int) : NodeM CheckpointStageResult := do
  let manifest ← loadManifest checkpointId
  let disk ← readDisk
  if checkpointId ∈ disk.restores then
    store.activateProviderState manifest configHome
    return ⟨checkpointId, store.restorePath checkpointId, true⟩
  else
    refuseIf (checkpointId ∈ disk.stagings)
      (.conflict "checkpoint already has a staging operation")
    store.restore checkpointId manifest
    store.activateProviderState manifest configHome
    let movement ← loadMove checkpointId
    saveMove (movement.stage now)
    return ⟨checkpointId, store.restorePath checkpointId, true⟩

def commit (trim : String → String) (params : MoveCommitParams) (now : Int) : NodeM MoveRecord := do
  refuseIf (trim params.leaseId = "") (.badRequest "move lease cannot be empty")
  let movement ← loadMove params.checkpointId
  refuseIf (movement.phase = .aborted) (.conflict "an aborted move cannot commit")
  if movement.phase = .committed then
    refuseIf (movement.leaseId ≠ some params.leaseId)
      (.conflict "checkpoint already committed under another lease")
    return movement
  else
    let movement := movement.commit params now
    saveMove movement
    return movement

def abort (params : MoveAbortParams) (now : Int) : NodeM MoveRecord := do
  let movement ← loadMove params.checkpointId
  refuseIf (movement.phase = .committed)
    (.conflict "a committed move needs a new reverse move, not abort")
  let movement := movement.abort params now
  saveMove movement
  return movement

end CheckpointStore

end Diri
