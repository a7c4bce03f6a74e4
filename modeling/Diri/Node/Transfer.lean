/-
Blobs on their way from one node to another.

The client's transfer of a blob, against the target's directory one system call after the
other.  A transfer may be cut off anywhere: what the source sends may be anything, what is
put may fail at any system call, and its answer may be lost.  One that is not interrupted
is answered by a source that has the blob, and by a target whose system calls succeed.
-/
import Diri.Node.Blobs
import Diri.Node.Service

namespace Diri

namespace BlobDir

/-- What stands at a digest. -/
def blob (dir : BlobDir) (digest : String) : Option (List UInt8) :=
  (dir.blobs.lookup digest).map dir.contents

/-- What is left of a blob that has not been finished. -/
def leftover (dir : BlobDir) (digest : String) : List UInt8 :=
  ((dir.partials.lookup digest).map dir.contents).getD []

end BlobDir

namespace BlobCall

variable (sha256 : List UInt8 → String)

/-- A call by itself, as far as its system calls come. -/
def run (dir : BlobDir) (call : BlobCall) : List BlobOp → BlobDir × BlobCall
  | [] => (dir, call)
  | op :: ops =>
    match call.step sha256 dir op with
    | none => (dir, call)
    | some (dir, call) => run dir call ops

end BlobCall

/-- A chunk is put on the target, and what it answers, if it gets so far. -/
def servePut (sha256 : List UInt8 → String) (dir : BlobDir) (params : BlobPutParams)
    (ops : List BlobOp) : BlobDir × Option (Except NodeError Bool) :=
  let (dir, call) := BlobCall.run sha256 dir (.put params) ops
  (dir, match call.phase with | .ended result => some result | _ => none)

/-- What the client hears of a put. -/
def putReply (ioText : String) : Except NodeError Bool → Except NodeClientError ClientReply
  | .ok complete => .ok (.node (.complete complete))
  | .error error => .error (.control (error.toControl ioText))

/-! ### Interrupted transfers -/

/-- What becomes of one request. -/
inductive TransferOutcome
  /-- It does not get to the node, or is not answered. -/
  | fails (error : NodeClientError)
  | answers (reply : ClientReply)
  /-- A chunk is put, with these system calls; the answer may be lost. -/
  | puts (ops : List BlobOp) (ioText : String) (lost : Option NodeClientError)

structure TransferAttempt where
  digest : String
  chunks : Nat
  outcomes : List TransferOutcome

namespace TransferAttempt

variable (sha256 : List UInt8 → String)

/-- The client goes on as long as there are outcomes. -/
def serve {α : Type} (dir : BlobDir) :
    Script ClientCall (Except NodeClientError ClientReply) α → List TransferOutcome → BlobDir
  | .done _, _ => dir
  | .ask _ _, [] => dir
  | .ask call next, outcome :: outcomes =>
    match outcome, call with
    | .puts ops ioText lost, .request .target (.checkpointBlobPut params) =>
      let (dir, result) := servePut sha256 dir params ops
      match lost, result with
      | none, some result => serve dir (next (putReply ioText result)) outcomes
      | some error, _ => serve dir (next (.error error)) outcomes
      | none, none => serve dir (next (.error (.disconnected ioText))) outcomes
    | .answers reply, _ => serve dir (next (.ok reply)) outcomes
    | .fails error, _ => serve dir (next (.error error)) outcomes
    | .puts _ ioText _, _ => serve dir (next (.error (.disconnected ioText))) outcomes

def run (dir : BlobDir) (attempt : TransferAttempt) : BlobDir :=
  serve sha256 dir (NodeClient.transferBlob attempt.digest attempt.chunks 0).run attempt.outcomes

/-- Attempt after attempt, on a target that has no blobs at the start. -/
def history (attempts : List TransferAttempt) : BlobDir := attempts.foldl (run sha256) {}

end TransferAttempt

/-! ### A transfer that is not interrupted -/

/-- System calls enough for a call to end, if they succeed. -/
def callsEnough (dir : BlobDir) (params : BlobPutParams) : Nat :=
  params.hex.utf8ByteSize + (dir.leftover params.digest).length + 8

/-- The `i`-th system call of a put succeeds, and moves up to `sizes params i` bytes. -/
def smoothPut (sha256 : List UInt8 → String) (sizes : BlobPutParams → Nat → Nat) (dir : BlobDir)
    (params : BlobPutParams) : BlobDir × Option (Except NodeError Bool) :=
  servePut sha256 dir params
    ((List.range (callsEnough dir params)).map fun i => .does (sizes params i))

/-- A source with its blobs, and a target, both of which answer whatever they are asked. -/
def smoothWorld (sha256 : List UInt8 → String) (sizes : BlobPutParams → Nat → Nat)
    (source : NodeDisk) (dir : BlobDir) :
    ClientCall → BlobDir × Except NodeClientError ClientReply
  | .request .source (.checkpointBlobRead digest offset maxBytes) =>
    match (Handler.exec (CheckpointStore.readBlob digest offset maxBytes) ⟨source, []⟩).1 with
    | .ok chunk => (dir, .ok (.node (.chunk chunk)))
    | .error error => (dir, .error (.control (error.toControl "")))
  | .request .target (.checkpointBlobPut params) =>
    match smoothPut sha256 sizes dir params with
    | (dir, some result) => (dir, putReply "" result)
    | (dir, none) => (dir, .error (.timeout "node handoff timed out"))
  | _ => (dir, .error (.disconnected ""))

def smoothTransfer (sha256 : List UInt8 → String) (sizes : BlobPutParams → Nat → Nat)
    (source : NodeDisk) (digest : String) (chunks : Nat) (dir : BlobDir) :
    BlobDir × Except NodeClientError Unit :=
  Script.play (smoothWorld sha256 sizes source) dir (NodeClient.transferBlob digest chunks 0).run

end Diri
