/-
The directory of blobs, one system call after the other.

`putBlob` and `storeFile` are not alone with the directory: other connections run them at
the same time, for the same blob too.  Here a name leads to a file, and a call that has
opened a file keeps it, whatever becomes of the name.  An append goes to the end that the
file has then; a copy is written at the position that the copy has reached; a file is
hashed in pieces, up to the end that is found; and a rename takes what is at the name.
-/
import Diri.Node.Checkpoint

namespace Diri

structure BlobDir where
  blobs : Table String Nat := ∅
  /-- `.<digest>.partial`. -/
  partials : Table String Nat := ∅
  /-- `.<digest>.tmp-<pid>`. -/
  temporaries : Table String Nat := ∅
  contents : Nat → List UInt8 := fun _ => []
  next : Nat := 0

inductive BlobWork
  | put (offset : Nat) (bytes : List UInt8) (eof : Bool)
  /-- What is copied may not be what was hashed before. -/
  | store (copied : List UInt8)
  deriving DecidableEq, Repr

inductive BlobPhase
  | checking
  | statting
  | opening
  | writing (file position : Nat) (rest : List UInt8)
  | syncing
  | hashOpening
  | hashing (file : Nat) (read : List UInt8)
  /-- The file has been found to be what it should. -/
  | placing (file : Nat)
  | ended (result : Except NodeError Bool)
  deriving DecidableEq

structure BlobCall where
  digest : String
  work : BlobWork
  phase : BlobPhase
  deriving DecidableEq

/-- How a system call ends; a read or a write moves up to so many bytes, and at least one. -/
inductive BlobOp
  | fails
  | does (count : Nat)
  deriving DecidableEq, Repr

namespace BlobDir

/-- What a file holds after a write at a position; a gap before it is filled with zeros. -/
def writeAt (old : List UInt8) (position : Nat) (piece : List UInt8) : List UInt8 :=
  old.take position ++ List.replicate (position - old.length) 0 ++ piece ++
    old.drop (position + piece.length)

def setContents (dir : BlobDir) (file : Nat) (bytes : List UInt8) : BlobDir :=
  { dir with contents := Function.update dir.contents file bytes }

end BlobDir

namespace BlobCall

/-- The checks of `putBlob` before it looks at the directory. -/
def chunk (params : BlobPutParams) : NodeM (List UInt8) := do
  validateDigest params.digest
  let bytes ← hexDecode params.hex
  refuseIf (maxChunkBytes < bytes.length) (.badRequest "blob chunk is too large")
  return bytes

def put (params : BlobPutParams) : BlobCall :=
  match (Handler.exec (chunk params) {}).1 with
  | .ok bytes => ⟨params.digest, .put params.offset bytes params.eof, .checking⟩
  | .error error => ⟨params.digest, .put params.offset [] params.eof, .ended (.error error)⟩

/-- `storeFile`, once the file has been hashed; it may hold something else when copied. -/
def store (sha256 : List UInt8 → String) (contents copied : List UInt8) : BlobCall :=
  ⟨sha256 contents, .store copied, .checking⟩

/-- The file that the call works on, by its name. -/
def source (dir : BlobDir) (call : BlobCall) : Option Nat :=
  match call.work with
  | .put _ _ _ => dir.partials.lookup call.digest
  | .store _ => dir.temporaries.lookup call.digest

def nameSource (dir : BlobDir) (call : BlobCall) (file : Nat) : BlobDir :=
  match call.work with
  | .put _ _ _ => { dir with partials := dir.partials.insert call.digest file }
  | .store _ => { dir with temporaries := dir.temporaries.insert call.digest file }

def eraseSource (dir : BlobDir) (call : BlobCall) : BlobDir :=
  match call.work with
  | .put _ _ _ => { dir with partials := dir.partials.erase call.digest }
  | .store _ => { dir with temporaries := dir.temporaries.erase call.digest }

/-- Opens the file to write to, and creates it if there is none; a copy empties it. -/
def openSource (dir : BlobDir) (call : BlobCall) : BlobDir × Nat :=
  match call.source dir with
  | some file =>
    match call.work with
    | .put _ _ _ => (dir, file)
    | .store _ => (dir.setContents file [], file)
  | none => ({ (call.nameSource dir dir.next).setContents dir.next [] with next := dir.next + 1 },
      dir.next)

def toWrite (call : BlobCall) : List UInt8 :=
  match call.work with
  | .put _ bytes _ => bytes
  | .store copied => copied

def written (call : BlobCall) (old : List UInt8) (position : Nat) (piece : List UInt8) :
    List UInt8 :=
  match call.work with
  | .put _ _ _ => old ++ piece
  | .store _ => BlobDir.writeAt old position piece

def mismatch (sha256 : List UInt8 → String) (call : BlobCall) (read : List UInt8) : NodeError :=
  match call.work with
  | .put _ _ _ => .badRequest ("blob digest mismatch: expected " ++ call.digest ++ ", received "
      ++ sha256 read)
  | .store _ => .conflict "file changed while checkpointing; retry at a turn boundary"

/-- Where the call goes when the name of the blob is free. -/
def absent (call : BlobCall) : BlobPhase :=
  match call.work with
  | .put _ _ _ => .statting
  | .store _ => .opening

/-- The length of the file is compared with where the chunk begins. -/
def compareOffset (call : BlobCall) (current : Nat) : BlobPhase :=
  match call.work with
  | .put offset _ _ =>
    if current ≠ offset then
      .ended (.error (.conflict ("blob offset mismatch: expected " ++ toString current ++ ", got "
        ++ toString offset)))
    else .opening
  | .store _ => .opening

/-- After the last byte has been written. -/
def allWritten (call : BlobCall) : BlobPhase :=
  match call.work with
  | .put _ _ _ => .syncing
  | .store _ => .hashOpening

def synced (call : BlobCall) : BlobPhase :=
  match call.work with
  | .put _ _ eof => if eof then .hashOpening else .ended (.ok false)
  | .store _ => .hashOpening

def step (sha256 : List UInt8 → String) (dir : BlobDir) (call : BlobCall) (op : BlobOp) :
    Option (BlobDir × BlobCall) :=
  let goOn (phase : BlobPhase) : BlobCall := { call with phase := phase }
  match call.phase, op with
  | .ended _, _ => none
  -- what cannot be looked up counts as not being there
  | .checking, .fails => some (dir, goOn call.absent)
  | .checking, .does _ =>
    some (dir, goOn (if call.digest ∈ dir.blobs then .ended (.ok true) else call.absent))
  | .statting, .fails => some (dir, goOn (call.compareOffset 0))
  | .statting, .does _ =>
    some (dir, goOn (call.compareOffset (((call.source dir).map dir.contents).getD []).length))
  | _, .fails => some (dir, goOn (.ended (.error .io)))
  | .opening, .does _ =>
    let (dir, file) := call.openSource dir
    some (dir, goOn (.writing file 0 call.toWrite))
  | .writing _ _ [], .does _ => some (dir, goOn call.allWritten)
  | .writing file position rest, .does count =>
    let piece := rest.take (max 1 count)
    some (dir.setContents file (call.written (dir.contents file) position piece),
      goOn (.writing file (position + piece.length) (rest.drop (max 1 count))))
  | .syncing, .does _ => some (dir, goOn call.synced)
  | .hashOpening, .does _ =>
    match call.source dir with
    | none => some (dir, goOn (.ended (.error .io)))
    | some file => some (dir, goOn (.hashing file []))
  | .hashing file read, .does count =>
    match ((dir.contents file).drop read.length).take (max 1 count) with
    | [] =>
      some (dir, goOn (if sha256 read = call.digest then .placing file
        else .ended (.error (call.mismatch sha256 read))))
    | piece => some (dir, goOn (.hashing file (read ++ piece)))
  | .placing _, .does _ =>
    match call.source dir with
    | none => some (dir, goOn (.ended (.error .io)))
    | some file =>
      let dir := call.eraseSource dir
      some ({ dir with blobs := dir.blobs.insert call.digest file }, goOn (.ended (.ok true)))

end BlobCall

/-! ### Many connections -/

structure BlobStore where
  dir : BlobDir := {}
  calls : List BlobCall := []

inductive BlobEvent
  | put (params : BlobPutParams)
  | store (contents copied : List UInt8)
  /-- One call takes a step. -/
  | steps (call : Nat) (op : BlobOp)

namespace BlobStore

def step (sha256 : List UInt8 → String) (s : BlobStore) : BlobEvent → Option BlobStore
  | .put params => some { s with calls := s.calls ++ [.put params] }
  | .store contents copied => some { s with calls := s.calls ++ [.store sha256 contents copied] }
  | .steps k op =>
    match s.calls[k]? with
    | none => none
    | some call =>
      (call.step sha256 s.dir op).map fun (dir, call) => ⟨dir, s.calls.set k call⟩

end BlobStore

end Diri
