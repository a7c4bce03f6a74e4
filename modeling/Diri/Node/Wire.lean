/-
What a client and a node say to each other, line by line.

A message is a JSON value on a line of its own.  Whoever writes one does not look at how
long it gets; whoever reads one does: the node as the line comes in, and the client when
it has the line.
-/
import Diri.Lib.Json
import Diri.Node.Service

namespace Diri

def maxControlLineBytes : Nat := 4 * 1024 * 1024

def newline : UInt8 := 0x0A

inductive ControlMessage
  | request (id : Nat) (method : String) (params : Option Json)
  | response (id : Nat) (result : Except ControlError Json)
  | event (name : String) (seq : Nat) (params : Json)

namespace Json

def ofNat (value : Nat) : Json := .number value

/-- A member that is left out if there is no value. -/
def optional (key : String) (value : Option Json) : List (String × Json) :=
  (value.map fun value => (key, value)).toList

end Json

/-! ### Messages as JSON, their members as they are declared -/

def ControlError.toJson (error : ControlError) : Json :=
  .object [("code", .string error.code), ("message", .string error.message)]

def ControlMessage.toJson : ControlMessage → Json
  | .request id method params =>
    .object ([("id", .ofNat id), ("method", .string method)] ++ Json.optional "params" params)
  | .response id (.ok ok) => .object [("id", .ofNat id), ("ok", ok)]
  | .response id (.error error) => .object [("id", .ofNat id), ("err", error.toJson)]
  | .event name seq params =>
    .object [("event", .string name), ("seq", .ofNat seq), ("params", params)]

def encodeLine (message : ControlMessage) : List UInt8 := message.toJson.bytes ++ [newline]

def TransferMode.asStr : TransferMode → String
  | .move => "move"
  | .fork => "fork"

def MovePhase.asStr : MovePhase → String
  | .prepared => "prepared"
  | .transferring => "transferring"
  | .staged => "staged"
  | .targetReady => "targetReady"
  | .committed => "committed"
  | .aborted => "aborted"

def CheckpointPrepareParams.toJson (params : CheckpointPrepareParams) : Json :=
  .object ([("sessionId", .string params.sessionId), ("provider", .string params.provider.asStr),
    ("profileId", .string params.profileId), ("workspaceRoot", .string params.workspaceRoot)] ++
    Json.optional "providerSessionId" (params.providerSessionId.map .string) ++
    [("mode", .string params.mode.asStr)])

def CheckpointFile.toJson (file : CheckpointFile) : Json :=
  .object ([("path", .string file.path), ("digest", .string file.digest),
    ("size", .ofNat file.size)] ++ Json.optional "unixMode" (file.unixMode.map .ofNat))

def CheckpointManifest.toJson (manifest : CheckpointManifest) : Json :=
  .object ([("version", .ofNat manifest.version), ("checkpointId", .string manifest.checkpointId),
    ("sourceNodeId", .string manifest.sourceNodeId), ("sessionId", .string manifest.sessionId),
    ("provider", .string manifest.provider.asStr), ("profileId", .string manifest.profileId),
    ("workspaceRoot", .string manifest.workspaceRoot)] ++
    Json.optional "providerSessionId" (manifest.providerSessionId.map .string) ++
    [("mode", .string manifest.mode.asStr), ("createdAt", .number manifest.createdAt),
    ("files", .array (manifest.files.map CheckpointFile.toJson))] ++
    Json.optional "providerState" (manifest.providerState.map CheckpointFile.toJson) ++
    [("excluded", .array (manifest.excluded.map .string))])

def BlobPutParams.toJson (params : BlobPutParams) : Json :=
  .object [("digest", .string params.digest), ("offset", .ofNat params.offset),
    ("hex", .string params.hex), ("eof", .bool params.eof)]

def BlobChunk.toJson (chunk : BlobChunk) : Json :=
  .object [("digest", .string chunk.digest), ("offset", .ofNat chunk.offset),
    ("hex", .string chunk.hex), ("eof", .bool chunk.eof)]

def CheckpointStageResult.toJson (result : CheckpointStageResult) : Json :=
  .object [("checkpointId", .string result.checkpointId),
    ("quarantinePath", .string result.quarantinePath), ("ready", .bool result.ready)]

def MoveCommitParams.toJson (params : MoveCommitParams) : Json :=
  .object [("checkpointId", .string params.checkpointId),
    ("targetNodeId", .string params.targetNodeId), ("leaseId", .string params.leaseId)]

def MoveAbortParams.toJson (params : MoveAbortParams) : Json :=
  .object [("checkpointId", .string params.checkpointId), ("reason", .string params.reason)]

def MoveRecord.toJson (movement : MoveRecord) : Json :=
  .object ([("checkpointId", .string movement.checkpointId),
    ("sessionId", .string movement.sessionId), ("sourceNodeId", .string movement.sourceNodeId)] ++
    Json.optional "targetNodeId" (movement.targetNodeId.map .string) ++
    [("phase", .string movement.phase.asStr)] ++
    Json.optional "leaseId" (movement.leaseId.map .string) ++
    Json.optional "reason" (movement.reason.map .string) ++
    [("updatedAt", .number movement.updatedAt)])

def NodeRequest.method : NodeRequest → String
  | .checkpointPrepare _ => "checkpoint.prepare"
  | .checkpointManifestPut _ => "checkpoint.manifest.put"
  | .checkpointBlobHas _ => "checkpoint.blob.has"
  | .checkpointBlobRead _ _ _ => "checkpoint.blob.read"
  | .checkpointBlobPut _ => "checkpoint.blob.put"
  | .checkpointStage _ => "checkpoint.stage"
  | .moveCommit _ => "move.commit"
  | .moveAbort _ => "move.abort"

def NodeRequest.params : NodeRequest → Json
  | .checkpointPrepare params => params.toJson
  | .checkpointManifestPut manifest => .object [("manifest", manifest.toJson)]
  | .checkpointBlobHas digests => .object [("digests", .array (digests.map .string))]
  | .checkpointBlobRead digest offset maxBytes =>
    .object [("digest", .string digest), ("offset", .ofNat offset), ("maxBytes", .ofNat maxBytes)]
  | .checkpointBlobPut params => params.toJson
  | .checkpointStage checkpointId => .object [("checkpointId", .string checkpointId)]
  | .moveCommit params => params.toJson
  | .moveAbort params => params.toJson

/-- The first request on a connection is the greeting; this is the second, and the last. -/
def NodeRequest.line (request : NodeRequest) : List UInt8 :=
  encodeLine (.request 2 request.method (some request.params))

def NodeReply.toJson : NodeReply → Json
  | .manifest value => value.toJson
  | .ok => .object [("ok", .bool true)]
  | .missing digests => .object [("missing", .array (digests.map .string))]
  | .chunk value => value.toJson
  | .complete value => .object [("complete", .bool value)]
  | .staged value => value.toJson
  | .movement value => value.toJson

def NodeReply.line (reply : NodeReply) : List UInt8 := encodeLine (.response 2 (.ok reply.toJson))

/-! ### Reading a line

A connection brings its bytes in pieces.  It is at its end when there are no more, or when
an empty one comes.
-/

/-- What is left of a piece is read before the others. -/
def unread (left : List UInt8) (rest : List (List UInt8)) : List (List UInt8) :=
  if left = [] then rest else left :: rest

/-- The node's `read_bounded_line`; `line` is what it has of the line. -/
def readBoundedLine (line : List UInt8) :
    List (List UInt8) → Except NodeError (Option (List UInt8)) × List (List UInt8)
  | [] => (.ok (if line = [] then none else some line), [])
  | available :: rest =>
    if available = [] then (.ok (if line = [] then none else some line), rest)
    else
      let payload := available.takeWhile (· ≠ newline)
      if maxControlLineBytes < line.length + payload.length then
        (.error (.protocol ("control line exceeds " ++ toString maxControlLineBytes ++ " bytes")),
          available :: rest)
      else
        match available.drop payload.length with
        | [] => readBoundedLine (line ++ payload) rest
        | _ :: left => (.ok (some (line ++ payload)), unread left rest)

/-- `read_until` the end of the line, which is then part of what has been read. -/
def readUntilNewline (line : List UInt8) : List (List UInt8) → List UInt8 × List (List UInt8)
  | [] => (line, [])
  | available :: rest =>
    if available = [] then (line, rest)
    else
      let payload := available.takeWhile (· ≠ newline)
      match available.drop payload.length with
      | [] => readUntilNewline (line ++ payload) rest
      | _ :: left => (line ++ payload ++ [newline], unread left rest)

/-- The line that the client's `read_response` goes on to decode. -/
def readResponseLine (incoming : List (List UInt8)) :
    Except NodeClientError (List UInt8) × List (List UInt8) :=
  let (line, rest) := readUntilNewline [] incoming
  if line = [] then (.error (.disconnected "node closed the connection"), rest)
  else if maxControlLineBytes < line.length then
    (.error (.protocol "node response exceeded the wire limit"), rest)
  else (.ok line, rest)

end Diri
