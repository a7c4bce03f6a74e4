/-
Requests to a codex app server.

The server's output is a stream of lines.  A request reads lines until one has its id, or
the output is closed, or its time is up.  What has been read of a line that is not complete
is in the hands of the reading future, and goes with it when the time is up.

What the process writes comes in chunks while a request is in progress.  What nobody has
read yet is kept in order.
-/
import Diri.Node.Providers

namespace Diri.Codex

open Diri.Accounts

def newline : UInt8 := 10

/-- The messages that went to the server, last first, and what of its output is unread. -/
structure CodexAppServer where
  nextId : Nat := 0
  unread : List UInt8 := []
  closed : Bool := false
  written : List Json := []

/-- What happens while a call is in progress. -/
structure CodexOutside where
  tryWait : Except NodeError (Option ExitStatus) := .ok none
  write : Except NodeError Unit := .ok ()
  /-- What the process writes until the call is over, or its time is up. -/
  chunks : List (List UInt8) := []
  /-- The process has closed its output after that. -/
  closes : Bool := false

def formatCodexError (error : Json) : String :=
  let code := (error.get "code").bind Json.asI64
  let message := ((error.get "message").bind Json.asStr).getD "unknown Codex app-server error"
  match code with
  | none => message
  | some code => toString code ++ ": " ++ message

def idOf (value : Json) : Option Nat := (value.get "id").bind Json.asU64

/-- What a message with the id of the request says. -/
def answer (value : Json) : Except NodeError Json :=
  match value.get "error" with
  | some error => .error (.provider (formatCodexError error))
  | none =>
    match value.get "result" with
    | some result => .ok result
    | none => .error (.provider "Codex response omitted result")

def timedOut (method : String) : NodeError :=
  .provider ("Codex " ++ "`" ++ method ++ "`" ++ " timed out")

def closedOutput : NodeError := .provider "Codex app-server closed its output"

section
variable (fromStr : String → Except String Json)

/-- A line as it was read, as a text and then as JSON. -/
def parseLine (line : List UInt8) : Except NodeError Json :=
  match toStr line with
  | none => .error .io
  | some text =>
    match fromStr text with
    | .ok value => .ok value
    | .error message => .error (.json message)

/-- What a line answers to the request, if it does. -/
def examine (id : Nat) (line : List UInt8) : Option (Except NodeError Json) :=
  match parseLine fromStr line with
  | .error error => some (.error error)
  | .ok value => if idOf value ≠ some id then none else some (answer value)

/-- How far the lines that are there lead: to an answer, or into a line. -/
inductive Progress
  | waiting (line : List UInt8)
  | answered (result : Except NodeError Json) (unread : List UInt8)

/-- `read_line` and the look at what it read, with what was read of the line before. -/
def consume (id : Nat) (line : List UInt8) : List UInt8 → Progress
  | [] => .waiting line
  | byte :: rest =>
    if byte = newline then
      match examine fromStr id (line ++ [newline]) with
      | some result => .answered result rest
      | none => consume id [] rest
    else consume id (line ++ [byte]) rest

/-- The wait for the response, and what it leaves unread. -/
def respond (id : Nat) (method : String) (closes : Bool) (line : List UInt8) :
    List (List UInt8) → Except NodeError Json × List UInt8
  | [] =>
    if closes then
      if line = [] then (.error closedOutput, [])
      else ((examine fromStr id line).getD (.error closedOutput), [])
    -- the line goes with the future that was reading it
    else (.error (timedOut method), [])
  | chunk :: chunks =>
    match consume fromStr id line chunk with
    | .answered result unread => (result, unread ++ chunks.flatten)
    | .waiting line => respond id method closes line chunks

end

namespace CodexAppServer

/-- What comes in while a call is in progress; after its end nothing does. -/
def arriving (server : CodexAppServer) (outside : CodexOutside) : List (List UInt8) :=
  if server.closed then [] else outside.chunks

def closing (server : CodexAppServer) (outside : CodexOutside) : Bool :=
  server.closed || outside.closes

/-- The stream moves on, and nobody reads. -/
def unattended (server : CodexAppServer) (outside : CodexOutside) : CodexAppServer :=
  { server with
    unread := server.unread ++ (server.arriving outside).flatten
    closed := server.closing outside }

/-- The id of the next request; it wraps. -/
def freshId (server : CodexAppServer) : Nat := (server.nextId + 1) % 2 ^ 64

variable (fromStr : String → Except String Json)

def request (server : CodexAppServer) (method : String) (params : Json)
    (outside : CodexOutside) : CodexAppServer × Except NodeError Json :=
  match outside.tryWait with
  | .error error => (server.unattended outside, .error error)
  | .ok (some status) =>
    (server.unattended outside,
      .error (.provider ("Codex app-server exited with " ++ status.shown)))
  | .ok none =>
    let id := server.freshId
    match outside.write with
    | .error error => ({ server.unattended outside with nextId := id }, .error error)
    | .ok _ =>
      let message :=
        Json.object [("id", .number id), ("method", .string method), ("params", params)]
      let response := respond fromStr id method (server.closing outside) []
        (server.unread :: server.arriving outside)
      ({  nextId := id
          unread := response.2
          closed := server.closing outside
          written := message :: server.written }, response.1)

def notify (server : CodexAppServer) (method : String) (params : Json)
    (outside : CodexOutside) : CodexAppServer × Except NodeError Json :=
  let message :=
    if params.isNull then Json.object [("method", .string method)]
    else Json.object [("method", .string method), ("params", params)]
  match outside.write with
  | .error error => (server.unattended outside, .error error)
  | .ok _ =>
    ({ server.unattended outside with written := message :: server.written }, .ok .null)

def initializeParams (version : String) : Json :=
  .object
    [("clientInfo", .object [("name", .string "dirijor-node"),
      ("title", .string "Dirijor Node"), ("version", .string version)]),
    ("capabilities", .object [("experimentalApi", .bool false)])]

/-- A process that has been started is asked to initialize, and told so. -/
def spawn (version : String) (asked told : CodexOutside) : Except NodeError CodexAppServer :=
  match request fromStr {} "initialize" (initializeParams version) asked with
  | (_, .error error) => .error error
  | (server, .ok _) =>
    match server.notify "initialized" .null told with
    | (_, .error error) => .error error
    | (server, .ok _) => .ok server

/-- The adapter, as the manager of the providers uses it. -/
def asProvider (version : String) (asked told outside : CodexOutside) :
    ProviderOutside CodexAppServer where
  spawnCodex := spawn fromStr version asked told
  request server method params := server.request fromStr method params outside

end CodexAppServer

inductive CodexMessage
  | request (method : String) (params : Json)
  | notify (method : String) (params : Json)

structure CodexCall where
  message : CodexMessage
  outside : CodexOutside := {}

def serve (fromStr : String → Except String Json) (server : CodexAppServer) (call : CodexCall) :
    CodexAppServer × Except NodeError Json :=
  match call.message with
  | .request method params => server.request fromStr method params call.outside
  | .notify method params => server.notify method params call.outside

end Diri.Codex
