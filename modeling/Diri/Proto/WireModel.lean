/-
The wire model as JSON: messages on the control channel, agent kinds, what a session is
doing, and its hibernation.

Messages have no tag: what one is, is told by the members that it has.  Enumerations are
written the way Swift writes them, as an object whose one member is the case; the agents
that were such cases keep their names, and all others share one.  What `serde_json` and
derived implementations do with floats and with an object in the place of a list are
arguments.
-/
import Diri.Lib.Serde
import Diri.Node.Wire
import Diri.Proto.Model
import Mathlib.Data.List.DropRight

namespace Diri

open Json

/-- What is not written out here of `serde_json` and of derived implementations. -/
structure Serde where
  fromSlice : List UInt8 → Option Json
  dateToJson : DateMillis → Json
  dateFromJson : Json → Except DecodeError DateMillis
  /-- An object whose keys are integers. -/
  mapFromObject : List (String × Json) → Option (List (Int32 × Int64))

/-! ### Messages -/

def present (object : Json) (key : String) : Bool :=
  match object.get key with
  | some value => !value.isNull
  | none => false

def decodeRequired {α : Type} (read : Json → Except DecodeError α) (object : Json) (key : String) :
    Except DecodeError α :=
  match object.get key with
  | some value => read value
  | none => .error (.custom ("missing field `" ++ key ++ "`"))

def decodeOptional {α : Type} (read : Json → Except DecodeError α) (object : Json)
    (key : String) : Except DecodeError (Option α) :=
  match object.get key with
  | none | some .null => .ok none
  | some value => (read value).map some

def ControlError.fromJson (value : Json) : Except DecodeError ControlError := do
  match ← value.readStruct ["code", "message"] 2 with
  | [code, message] =>
    let code ← readField readString code
    let message ← readField readString message
    return ⟨code, message⟩
  | _ => .error .derived

def ControlMessage.fromJson (value : Json) : Except DecodeError ControlMessage := do
  if ¬value.isObject then .error (.custom "control message must be a JSON object")
  else if present value "method" then
    let id ← decodeRequired readU64 value "id"
    let method ← decodeRequired readString value "method"
    let params ← decodeOptional .ok value "params"
    return .request id method params
  else if present value "event" then
    let name ← decodeRequired readString value "event"
    let seq ← decodeRequired readU64 value "seq"
    let params ← decodeOptional .ok value "params"
    return .event name seq (params.getD .null)
  else
    let id ← decodeRequired readU64 value "id"
    if present value "err" then
      let error ← decodeRequired ControlError.fromJson value "err"
      return .response id (.error error)
    else
      let ok ← decodeOptional .ok value "ok"
      return .response id (.ok (ok.getD .null))

/-- The line without what ends it. -/
def stripLineEnd (line : List UInt8) : List UInt8 :=
  line.rdropWhile fun byte => byte = newline || byte = 0x0D

def decodeLine (serde : Serde) (line : List UInt8) : Except DecodeError ControlMessage :=
  match serde.fromSlice (stripLineEnd line) with
  | some value => ControlMessage.fromJson value
  | none => .error .derived

/-! ### Enumerations -/

def keyedEnum (case : String) (payload : Json) : Json := .object [(case, payload)]

def decodeKeyedEnum : Json → Except DecodeError (String × Json)
  | .object [member] => .ok member
  | .object _ => .error (.custom "Swift enum object must contain exactly one case")
  | _ => .error (.custom "Swift enum must be a keyed JSON object")

def decodeUnnamed {α : Type} (read : Json → Except DecodeError α) : Json → Except DecodeError α
  | .object members =>
    match (Json.object members).get "_0" with
    | some value => read value
    | none => .error (.custom "associated-value payload is missing _0")
  | _ => .error (.custom "associated-value payload must be an object")

def NeedsInputKind.texts : StringEnum NeedsInputKind where
  wires := [("permission", .permission), ("question", .question)]
  unknown := .unknown
  nodup := by decide
  unknown_free := by decide
  covers := by rintro (_ | _) <;> decide

def ExitReason.texts : StringEnum ExitReason where
  wires := [("exited", .exited), ("signaled", .signaled), ("daemonRestart", .daemonRestart),
    ("external", .external), ("archived", .archived)]
  unknown := .unknown
  nodup := by decide
  unknown_free := by decide
  covers := by rintro (_ | _) <;> decide

def HibernationReason.texts : StringEnum HibernationReason where
  wires := [("idle", .idle), ("memoryPressure", .memoryPressure), ("manual", .manual)]
  unknown := .unknown
  nodup := by decide
  unknown_free := by decide
  covers := by rintro (_ | _) <;> decide

/-! ### Agent kinds -/

structure AgentKind where
  id : String
  /-- The command line, for `generic` kinds only. -/
  command : Option String
  deriving DecidableEq, Repr

namespace AgentKind

def claudeCodeId : String := "claude-code"
def codexId : String := "codex"
def cursorId : String := "cursor"
def geminiId : String := "gemini"
def shellId : String := "shell"
def genericId : String := "generic"

def builtin (id : String) : AgentKind := ⟨id, none⟩

def new (id : String) : AgentKind := ⟨id, none⟩

def generic (command : String) : AgentKind := ⟨genericId, some command⟩

def unknown : AgentKind := builtin "unknown"

/-- The names of the cases that there were before kinds had ids. -/
def legacyCases : List (String × String) :=
  [("claudeCode", claudeCodeId), ("codex", codexId), ("cursor", cursorId), ("gemini", geminiId),
    ("shell", shellId)]

/-- The case of all kinds that have no name of their own. -/
def openCaseKey : String := "agent"

def toJson (kind : AgentKind) : Json :=
  if kind.id = genericId then
    keyedEnum genericId (.object [("command", .string (kind.command.getD ""))])
  else
    match legacyCases.find? fun legacy => legacy.2 = kind.id with
    | some legacy => keyedEnum legacy.1 (.object [])
    | none => keyedEnum openCaseKey (.object [("id", .string kind.id)])

structure Payload where
  id : Option String := none
  command : Option String := none

def Payload.fromJson (value : Json) : Except DecodeError Payload := do
  match ← value.readStruct ["id", "command"] 2 with
  | [id, command] =>
    let id ← readOptional readString id
    let command ← readOptional readString command
    return ⟨id, command⟩
  | _ => .error .derived

/-- A payload that cannot be read is an empty one. -/
def Payload.orDefault (value : Json) : Payload :=
  match Payload.fromJson value with
  | .ok payload => payload
  | .error _ => {}

/-- The kind that a case stands for; a name of no case is the id of a kind. -/
def ofCase (case : String) (payload : Payload) : AgentKind :=
  match legacyCases.find? fun legacy => legacy.1 = case with
  | some legacy => builtin legacy.2
  | none =>
    if case = genericId then generic (payload.command.getD "")
    else if case = openCaseKey then
      match payload.id with
      | some id => new id
      | none => unknown
    else new case

def fromJson (value : Json) : Except DecodeError AgentKind := do
  let (case, payload) ← decodeKeyedEnum value
  return ofCase case (Payload.orDefault payload)

end AgentKind

/-! ### Statuses -/

def ExitInfo.toJson (info : ExitInfo) : Json :=
  .object ([("reason", ExitReason.texts.toJson info.reason)] ++
    Json.optional "code" (info.code.map fun code => .number code.toInt) ++
    Json.optional "signal" (info.signal.map fun signal => .number signal.toInt))

def ExitInfo.fromJson (value : Json) : Except DecodeError ExitInfo := do
  match ← value.readStruct ["reason", "code", "signal"] 3 with
  | [reason, code, signal] =>
    let reason ← readField ExitReason.texts.fromJson reason
    let code ← readOptional readI32 code
    let signal ← readOptional readI32 signal
    return ⟨reason, code, signal⟩
  | _ => .error .derived

def SessionStatus.toJson : SessionStatus → Json
  | .starting => keyedEnum "starting" (.object [])
  | .idle => keyedEnum "idle" (.object [])
  | .working => keyedEnum "working" (.object [])
  | .needsInput kind =>
    keyedEnum "needsInput" (.object [("_0", NeedsInputKind.texts.toJson kind)])
  | .exited info => keyedEnum "exited" (.object [("_0", info.toJson)])
  | .unknown => keyedEnum "unknown" (.object [])

def SessionStatus.fromJson (value : Json) : Except DecodeError SessionStatus := do
  let (case, payload) ← decodeKeyedEnum value
  match case with
  | "starting" => return .starting
  | "idle" => return .idle
  | "working" => return .working
  | "needsInput" => return .needsInput (← decodeUnnamed NeedsInputKind.texts.fromJson payload)
  | "exited" => return .exited (← decodeUnnamed ExitInfo.fromJson payload)
  | _ => return .unknown

/-! ### Hibernation -/

/-- Keys and values one after the other, as Swift writes a dictionary whose keys are integers. -/
def flatTimes (map : List (Int32 × Int64)) : List Int64 :=
  map.flatMap fun (key, value) => [key.toInt64, value]

/-- Into a map that goes by its keys. -/
def insertTime (key : Int32) (value : Int64) : List (Int32 × Int64) → List (Int32 × Int64)
  | [] => [(key, value)]
  | entry :: rest =>
    if key < entry.1 then (key, value) :: entry :: rest
    else if key = entry.1 then (key, value) :: rest
    else entry :: insertTime key value rest

def insertTimes (map : List (Int32 × Int64)) :
    List Int64 → Except DecodeError (List (Int32 × Int64))
  | key :: value :: rest =>
    if -2 ^ 31 ≤ key.toInt ∧ key.toInt < 2 ^ 31 then
      insertTimes (insertTime (.ofInt key.toInt) value map) rest
    else .error (.custom "int-keyed map key out of i32 range")
  | _ => .ok map

def deserializeTimes (serde : Serde) : Option Json →
    Except DecodeError (Option (List (Int32 × Int64)))
  | none | some .null => .ok none
  | some value =>
    match value.readList readI64 with
    | .ok flat =>
      if flat.length % 2 ≠ 0 then
        .error (.custom "flat int-keyed map must have an even number of elements")
      else (insertTimes [] flat).map some
    | .error _ =>
      match value with
      | .object members =>
        match serde.mapFromObject members with
        | some map => .ok (some map)
        | none => .error .derived
      | _ => .error .derived

def HibernationInfo.toJson (serde : Serde) (info : HibernationInfo) : Json :=
  .object ([("since", serde.dateToJson info.since),
    ("reason", HibernationReason.texts.toJson info.reason),
    ("treePids", .array (info.treePids.map fun pid => .number pid.toInt))] ++
    Json.optional "treeStartTimes" (info.treeStartTimes.map fun map =>
      .array ((flatTimes map).map fun value => .number value.toInt)))

def HibernationInfo.fromJson (serde : Serde) (value : Json) :
    Except DecodeError HibernationInfo := do
  match ← value.readStruct ["since", "reason", "treePids", "treeStartTimes"] 3 with
  | [since, reason, treePids, treeStartTimes] =>
    let since ← readField serde.dateFromJson since
    let reason ← readField HibernationReason.texts.fromJson reason
    let treePids ← readField (readList readI32) treePids
    let treeStartTimes ← deserializeTimes serde treeStartTimes
    return ⟨since, reason, treePids, treeStartTimes⟩
  | _ => .error .derived

end Diri
