/-
A node's ledger of token usage, and how transcripts are imported into it.

A transcript is read from its start whenever its size or its time of change is not what it
was when it was read last.  An event's id is made of the place of its line, so that a line
that is read again is not counted again.  The import takes three steps for a transcript,
between which the agent may append to it: the check, the reading and recording of all of
its lines, and the mark.

What JSON a line is, and the hash, are arguments.
-/
import Diri.Lib.Json
import Diri.Lib.Lines
import Diri.Node.Service
import Diri.Node.Walk
import Mathlib.Data.List.Sort

namespace Diri

structure UsageEvent where
  id : String
  occurredAt : Int
  provider : ProviderKind
  profileId : Option String
  sessionId : Option String
  model : Option String
  inputTokens : Int
  outputTokens : Int
  cacheReadTokens : Int
  cacheWriteTokens : Int
  deriving DecidableEq, Repr

/-- How an import comes to an end before it is done. -/
inductive ImportFailure
  | io
  /-- A line is no text. -/
  | invalidData
  /-- A text is cut inside a character. -/
  | panicked
  deriving DecidableEq, Repr

/-! ### Timestamps -/

/-- Whether a text can be cut here. -/
def isCharBoundary (text : List UInt8) (index : Nat) : Bool :=
  match text[index]? with
  | some byte => index = 0 || byte < 0x80 || 0xC0 ≤ byte
  | none => index = text.length

/-- `&text[first..last]`. -/
def sliceText (text : List UInt8) (first last : Nat) : Except ImportFailure (List UInt8) :=
  if first ≤ last ∧ isCharBoundary text first ∧ isCharBoundary text last then
    .ok ((text.take last).drop first)
  else .error .panicked

def digitsValue (digits : List UInt8) : Option Int :=
  if digits ≠ [] ∧ digits.all fun digit => 0x30 ≤ digit && digit ≤ 0x39 then
    some (digits.foldl (fun value digit => value * 10 + (digit.toNat - 0x30 : Nat)) 0)
  else none

/-- `parse::<i64>` of a short text. -/
def parseI64 : List UInt8 → Option Int
  | 0x2B :: digits => digitsValue digits
  | 0x2D :: digits => (digitsValue digits).map (-·)
  | digits => digitsValue digits

/-- Days since 1970, of a date of the Gregorian calendar. -/
def daysFromCivil (year month day : Int) : Int :=
  let year := if month ≤ 2 then year - 1 else year
  let era := (if 0 ≤ year then year else year - 399).tdiv 400
  let yearOfEra := year - era * 400
  let shiftedMonth := month + if 2 < month then -3 else 9
  let dayOfYear := (153 * shiftedMonth + 2).tdiv 5 + day - 1
  let dayOfEra := yearOfEra * 365 + yearOfEra.tdiv 4 - yearOfEra.tdiv 100 + dayOfYear
  era * 146097 + dayOfEra - 719468

/-- What is parsed may be no timestamp, and the parser may panic. -/
abbrev Parses (α : Type) : Type := OptionT (Except ImportFailure) α

def Parses.number (text : List UInt8) (first last : Nat) : Parses Int := do
  let digits ← sliceText text first last
  OptionT.mk (pure (parseI64 digits))

/-- The seconds by which a time zone is ahead, if there is one; `suffix` begins with the seconds'
fraction. -/
def timezone (suffix : List UInt8) : Parses Int :=
  match suffix.reverse.findIdx? fun byte => byte = 0x2B || byte = 0x2D with
  | none => return 0
  | some fromEnd => do
      let position := suffix.length - 1 - fromEnd
      let sign : Int := if suffix[position]? = some 0x2B then 1 else -1
      let zone ← sliceText suffix (position + 1) suffix.length
      if 5 ≤ zone.length then
        let hours ← Parses.number zone 0 2
        let minutes ← Parses.number zone 3 5
        return sign * (hours * 3600 + minutes * 60)
      else return 0

def parseRfc3339Seconds (value : List UInt8) : Parses Int := do
  if value.length < 20 then failure
  else
    if (← sliceText value 4 5) ≠ utf8 "-" then failure
    else if (← sliceText value 7 8) ≠ utf8 "-" then failure
    else if (← sliceText value 10 11) ≠ utf8 "T" then failure
    else
      let year ← Parses.number value 0 4
      let month ← Parses.number value 5 7
      let day ← Parses.number value 8 10
      let hour ← Parses.number value 11 13
      let minute ← Parses.number value 14 16
      let second ← Parses.number value 17 19
      let result := daysFromCivil year month day * 86400 + hour * 3600 + minute * 60 + second
      let suffix ← sliceText value 19 value.length
      return result - (← timezone suffix)

def eventTimestamp (value : Json) : Parses Int :=
  match (value.get "timestamp").bind Json.asI64 with
  | some timestamp => return timestamp
  | none =>
    match (value.get "timestamp").bind Json.asStr with
    | some timestamp => parseRfc3339Seconds (utf8 timestamp)
    | none => failure

/-! ### Events -/

/-- A count that is not there is zero, and so is a negative one. -/
def integer (value : Option Json) : Int := max ((value.bind Json.asI64).getD 0) 0

def parseClaudeEvent (value : Json) : Parses UsageEvent :=
  match value.get "message" with
  | none => failure
  | some message =>
    match message.get "usage" with
    | none => failure
    | some usage => do
        let occurredAt ← eventTimestamp value
        return {
          id := ""
          occurredAt := occurredAt
          provider := .claude
          profileId := none
          sessionId := (value.get "sessionId").bind Json.asStr
          model := (message.get "model").bind Json.asStr
          inputTokens := integer (usage.get "input_tokens")
          outputTokens := integer (usage.get "output_tokens")
          cacheReadTokens := integer (usage.get "cache_read_input_tokens")
          cacheWriteTokens := integer (usage.get "cache_creation_input_tokens") }

def parseCodexEvent (value : Json) (model : Option String) : Parses UsageEvent :=
  if (value.pointer ["payload", "type"]).bind Json.asStr ≠ some "token_count" then failure
  else
    match value.pointer ["payload", "info", "last_token_usage"] with
    | none => failure
    | some usage => do
        let occurredAt ← eventTimestamp value
        return {
          id := ""
          occurredAt := occurredAt
          provider := .codex
          profileId := none
          sessionId := (value.pointer ["payload", "thread_id"]).bind Json.asStr
          model := model
          inputTokens := integer (usage.get "input_tokens")
          outputTokens := integer (usage.get "output_tokens")
          cacheReadTokens := integer (usage.get "cached_input_tokens")
          cacheWriteTokens := 0 }

/-! ### Transcripts -/

/-- A profile's transcripts are below a directory of its own; the path is as seen from the
directory of all accounts. -/
abbrev TranscriptPath : Type := List FileName

structure UsageImporter where
  /-- `serde_json::from_str` of a line's bytes. -/
  parseJson : List UInt8 → Option Json
  sha256 : List UInt8 → String
  accountsRoot : String

/-- The eight bytes of a number, the least significant one first. -/
def leBytes (value : Nat) : List UInt8 := (beBytes 8 value).reverse

/-- The line as a text: a carriage return before the end of the line is not part of it. -/
def stripReturn (line : List UInt8) : List UInt8 :=
  if line.getLast? = some 0x0D then line.dropLast else line

/-- `BufRead::lines`: the last line need not be complete. -/
def transcriptLines (contents : List UInt8) : List (List UInt8) :=
  let (lines, rest) := cutLines 0x0A contents
  lines.map stripReturn ++ if rest = [] then [] else [rest]

namespace UsageImporter

variable (importer : UsageImporter)

/-- The path as it is written in the ledger. -/
def pathKey (path : TranscriptPath) : String :=
  toStringLossy (utf8 importer.accountsRoot ++ slash :: joined path)

/-- The id an event's provider gives it. -/
def providerId (value : Json) : Option String :=
  ((value.pointer ["message", "id"]).or (value.pointer ["payload", "id"])).bind Json.asStr

def eventId (path : TranscriptPath) (offset : Nat) (providerId : Option String) : String :=
  "transcript:" ++ importer.sha256 (utf8 (importer.pathKey path) ++ leBytes offset ++
    ((providerId.map utf8).getD []))

def transcriptEventId (path : TranscriptPath) (offset : Nat) (value : Json) : String :=
  importer.eventId path offset (providerId value)

/-- The model that the lines after this one are of. -/
def nextModel (provider : ProviderKind) (model : Option String) (value : Json) : Option String :=
  if provider = .codex ∧ (value.pointer ["payload", "type"]).bind Json.asStr = some "session_meta"
  then (value.pointer ["payload", "model"]).bind Json.asStr
  else model

/-- What is made of a line's value: the model from there on, and the event it bears. -/
def readValue (path : TranscriptPath) (profile : AccountProfile) (offset : Nat)
    (model : Option String) (value : Json) :
    Except ImportFailure (Option String × Option UsageEvent) := do
  let model := nextModel profile.provider model value
  let parsed ← match profile.provider with
    | .claude => (parseClaudeEvent value).run
    | .codex => (parseCodexEvent value model).run
  return (model, parsed.map fun event =>
    { event with
      id := importer.transcriptEventId path offset value
      profileId := some profile.id })

/-- A line has to be a text, and need not be JSON. -/
def readLine (path : TranscriptPath) (profile : AccountProfile) (offset : Nat)
    (model : Option String) (line : List UInt8) :
    Except ImportFailure (Option String × Option UsageEvent) :=
  if IsUtf8 line then
    match importer.parseJson line with
    | none => .ok (model, none)
    | some value => importer.readValue path profile offset model value
  else .error .invalidData

/-- Where the line after this one begins, by what is left of the line. -/
def nextOffset (offset : Nat) (line : List UInt8) : Nat :=
  min (offset + (line.length + 1)) (2 ^ 64 - 1)

def readLines (path : TranscriptPath) (profile : AccountProfile) :
    (offset : Nat) → (model : Option String) → List (List UInt8) →
      Except ImportFailure (List UsageEvent)
  | _, _, [] => .ok []
  | offset, model, line :: rest => do
      let (model, event) ← importer.readLine path profile offset model line
      return event.toList ++ (← readLines path profile (nextOffset offset line) model rest)

def parseTranscript (path : TranscriptPath) (profile : AccountProfile) (contents : List UInt8) :
    Except ImportFailure (List UsageEvent) :=
  importer.readLines path profile 0 none (transcriptLines contents)

end UsageImporter

/-! ### The import -/

structure TranscriptFile where
  contents : List UInt8
  modifiedNs : Nat
  deriving DecidableEq, Repr

/-- `i64::try_from(value).unwrap_or(i64::MAX)`. -/
def clampI64 (value : Nat) : Nat := min value (2 ^ 63 - 1)

/-- The size and the time of change. -/
def TranscriptFile.revision (file : TranscriptFile) : Nat × Nat :=
  (clampI64 file.contents.length, clampI64 file.modifiedNs)

/-- Whether the name of a file ends in `.jsonl`, after something else. -/
def isJsonl (path : TranscriptPath) : Bool :=
  match path.getLast? with
  | some name => (utf8 ".jsonl").isSuffixOf name && name ≠ utf8 ".jsonl"
  | none => false

def transcriptRoot (profile : AccountProfile) : TranscriptPath :=
  match profile.provider with
  | .claude => [utf8 "claude", utf8 profile.id, utf8 "projects"]
  | .codex => [utf8 "codex", utf8 profile.id, utf8 "sessions"]

/-- How far an import has come. -/
inductive ImportStage
  /-- The profiles whose transcripts have not been looked for. -/
  | profiles (rest : List AccountProfile)
  | checking (profile : AccountProfile) (files : List TranscriptPath) (rest : List AccountProfile)
  | reading (profile : AccountProfile) (path : TranscriptPath) (files : List TranscriptPath)
      (rest : List AccountProfile)
  /-- The lines have been read and recorded. -/
  | marking (profile : AccountProfile) (path : TranscriptPath) (files : List TranscriptPath)
      (rest : List AccountProfile)
  | done (result : Except ImportFailure Nat)

structure UsageNode where
  files : Table TranscriptPath TranscriptFile := ∅
  events : Table String UsageEvent := ∅
  /-- `usage_scan_files`. -/
  scanFiles : Table String (Nat × Nat) := ∅
  /-- How many events the import has recorded. -/
  imported : Nat := 0
  stage : ImportStage := .done (.ok 0)

inductive UsageAction
  /-- Something is appended to a transcript, which may be a new one. -/
  | append (path : TranscriptPath) (bytes : List UInt8) (modifiedNs : Nat)
  /-- An import begins. -/
  | importTranscripts (profiles : List AccountProfile)
  /-- The import takes a step. -/
  | work
  /-- A step of it fails. -/
  | fail

namespace UsageNode

variable (importer : UsageImporter)

/-- Below a directory, in the order of the paths. -/
def jsonlFiles (node : UsageNode) (root : TranscriptPath) : List TranscriptPath :=
  (node.files.keys.filter fun path => root.isPrefixOf path && isJsonl path).insertionSort
    fun path other => path ≤ other

/-- `INSERT OR IGNORE`. -/
def record (node : UsageNode) (event : UsageEvent) : UsageNode :=
  if event.id ∈ node.events then node
  else { node with
    events := node.events.insert event.id event
    imported := node.imported + 1 }

def isCurrent (node : UsageNode) (path : TranscriptPath) (file : TranscriptFile) : Bool :=
  node.scanFiles.lookup (importer.pathKey path) = some file.revision

/-- The next step of the import, if there is one; a file that is not there cannot be looked at. -/
def work (node : UsageNode) : Option UsageNode :=
  let goOn (stage : ImportStage) : UsageNode := { node with stage := stage }
  match node.stage with
  | .done _ => none
  | .profiles [] => some (goOn (.done (.ok node.imported)))
  | .profiles (profile :: rest) =>
    some (goOn (.checking profile (node.jsonlFiles (transcriptRoot profile)) rest))
  | .checking _ [] rest => some (goOn (.profiles rest))
  | .checking profile (path :: files) rest =>
    match node.files.lookup path with
    | none => some (goOn (.done (.error .io)))
    | some file =>
      some (goOn (if node.isCurrent importer path file then .checking profile files rest
        else .reading profile path files rest))
  | .reading profile path files rest =>
    match node.files.lookup path with
    | none => some (goOn (.done (.error .io)))
    | some file =>
      match importer.parseTranscript path profile file.contents with
      | .error failure => some (goOn (.done (.error failure)))
      | .ok events => some { events.foldl record node with
          stage := .marking profile path files rest }
  | .marking profile path files rest =>
    match node.files.lookup path with
    | none => some (goOn (.done (.error .io)))
    | some file => some { node with
        scanFiles := node.scanFiles.insert (importer.pathKey path) file.revision
        stage := .checking profile files rest }

/-- There is one import at a time. -/
def step (node : UsageNode) : UsageAction → Option UsageNode
  | .append path bytes modifiedNs =>
    let contents := ((node.files.lookup path).map (·.contents)).getD []
    some { node with files := node.files.insert path ⟨contents ++ bytes, modifiedNs⟩ }
  | .importTranscripts profiles =>
    match node.stage with
    | .done _ => some { node with imported := 0, stage := .profiles profiles }
    | _ => none
  | .work => node.work importer
  | .fail =>
    match node.stage with
    | .done _ => none
    | _ => some { node with stage := .done (.error .io) }

end UsageNode

end Diri
