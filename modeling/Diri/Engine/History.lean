/-
Past conversations, read from the transcripts that the agents keep.

Every read is bounded.  The beginning of a transcript is read in chunks, until what is looked
for is there; how much a read gives is a function of where in the transcript it is made.

What JSON a line is and which directories exist are arguments.  A directory that cannot be
listed is one without entries.
-/
import Diri.Engine.Registry
import Diri.Lib.Json
import Diri.Lib.Lines
import Mathlib.Data.List.Sort

namespace Diri.History

def maxEntries : Nat := 500
def claudeHeadCap : Nat := 8 <<< 20
def claudeTailBytes : Nat := 16 <<< 10
def codexFirstLineCap : Nat := 512 <<< 10
def chunkSize : Nat := 64 <<< 10

inductive HistoryKind
  | claudeCode
  | codex
  deriving DecidableEq, Repr

structure HistoryEntry where
  id : String
  kind : HistoryKind
  cwd : String
  title : Option String
  transcriptPath : String
  lastActiveAt : SystemTime
  createdAt : Option SystemTime
  cwdExists : Bool
  deriving DecidableEq

structure TranscriptFile where
  path : String
  name : List Char
  contents : List UInt8
  /-- How much a read at a position gives. -/
  chunk : Nat → Nat
  modified : SystemTime
  created : Option SystemTime

/-- What is known outside of the scanner. -/
structure Scanner where
  /-- `serde_json::from_str`. -/
  fromStr : String → Option Json
  isDirectory : String → Bool
  chars : CharClass

/-- The stem of a file name, and its extension. -/
def splitExtension (name : List Char) : List Char × Option (List Char) :=
  match name.reverse.dropWhile (· ≠ '.') with
  | [] => (name, none)
  | [_] => (name, none)
  | _ :: stem => (stem.reverse, some (name.reverse.takeWhile (· ≠ '.')).reverse)

def isJsonl (file : TranscriptFile) : Bool :=
  (splitExtension file.name).2 = some "jsonl".toList

/-- Where a sequence begins in another one. -/
def find {α : Type} [BEq α] (haystack needle : List α) : Option Nat :=
  haystack.tails.findIdx? needle.isPrefixOf

/-- The lines of a text, the last one as far as it goes. -/
def splitLines (text : List Char) : List (List Char) :=
  (cutLines '\n' text).1 ++ [(cutLines '\n' text).2]

/-- The member of an object, if it is a text that is not empty. -/
def nonEmptyStr (key : String) (object : Json) : Option String :=
  ((object.get key).bind Json.asStr).filter (· ≠ "")

/-! ### Claude -/

def newline : UInt8 := 0x0A

/-- The line of the first `"cwd"` is complete. -/
def cwdLineComplete (data : List UInt8) : Bool :=
  match find data (utf8 "\"cwd\"") with
  | some position => (data.drop position).contains newline
  | none => false

/-- The lines of what has been read, but for empty ones. -/
def headLines (data : List UInt8) : List String :=
  ((splitLines (toStringLossy data).toList).filter (· ≠ [])).map String.ofList

def readClaudeHead (file : TranscriptFile) : List String :=
  headLines (readHead cwdLineComplete claudeHeadCap chunkSize file.chunk file.contents)

/-- The first text among the parts of a message. -/
def textPart (item : Json) : Option String :=
  if (item.get "type").bind Json.asStr = some "text" then nonEmptyStr "text" item else none

def claudeUserText (object : Json) : Option String :=
  if (object.get "type").bind Json.asStr ≠ some "user" then none
  else do
    let content ← (← object.get "message").get "content"
    match content.asStr.filter (· ≠ "") with
    | some text => return text
    | none => (← content.asArray).findSome? textPart

namespace Scanner

variable (scanner : Scanner)

/-- The first directory that a line names, and the first prompt up to there. -/
def cwdAndPrompt (firstPrompt : Option String) : List String → Option String × Option String
  | [] => (none, firstPrompt)
  | line :: lines =>
    match scanner.fromStr line with
    | none => cwdAndPrompt firstPrompt lines
    | some object =>
      let firstPrompt := firstPrompt <|> claudeUserText object
      match nonEmptyStr "cwd" object with
      | some cwd => (some cwd, firstPrompt)
      | none => cwdAndPrompt firstPrompt lines

def aiTitle (line : List Char) : Option String := do
  guard (find line "\"ai-title\"".toList).isSome
  let object ← scanner.fromStr (String.ofList line)
  guard ((object.get "type").bind Json.asStr = some "ai-title")
  nonEmptyStr "aiTitle" object

/-- The newest title near the end. -/
def latestClaudeAiTitle (contents : List UInt8) : Option String :=
  let start := contents.length - claudeTailBytes
  let data := (contents.drop start).take (claudeTailBytes + (4 <<< 10))
  ((splitLines (toStringLossy data).toList).filterMap scanner.aiTitle).getLast?

def titleFrom (prompt : String) : String :=
  String.ofList (scanner.chars.trim (((scanner.chars.firstLine prompt.toList).getD []).take 60))

/-- The entry of a transcript, from lines of its beginning. -/
def entryOf (file : TranscriptFile) (lines : List String) : Option HistoryEntry :=
  let uuid := (splitExtension file.name).1
  if byteLength uuid < 32 then none
  else
    let (cwd, firstPrompt) := scanner.cwdAndPrompt none lines
    cwd.map fun cwd => {
      id := String.ofList uuid
      kind := .claudeCode
      cwd := cwd
      title := scanner.latestClaudeAiTitle file.contents <|> firstPrompt.map scanner.titleFrom
      transcriptPath := file.path
      lastActiveAt := file.modified
      createdAt := file.created
      cwdExists := scanner.isDirectory cwd }

def claudeEntry (file : TranscriptFile) : Option HistoryEntry :=
  scanner.entryOf file (readClaudeHead file)

end Scanner

/-! ### Codex -/

/-- The first line, or as much of it as is read. -/
def readFirstLine (cap : Nat) (file : TranscriptFile) : Option String :=
  let data := readHead (·.contains newline) cap chunkSize file.chunk file.contents
  match cutLines newline data with
  | (line :: _, _) => some (toStringLossy line)
  | ([], rest) => if rest = [] then none else some (toStringLossy rest)

def Scanner.codexEntry (scanner : Scanner) (file : TranscriptFile) : Option HistoryEntry := do
  let object ← scanner.fromStr (← readFirstLine codexFirstLineCap file)
  guard ((object.get "type").bind Json.asStr = some "session_meta")
  let payload ← object.get "payload"
  let id ← (payload.get "id").bind Json.asStr
  let cwd ← nonEmptyStr "cwd" payload
  return {
    id, kind := .codex, cwd
    title := none
    transcriptPath := file.path
    lastActiveAt := file.modified
    createdAt := file.created
    cwdExists := scanner.isDirectory cwd }

/-! ### Both -/

/-- The transcript directories, each in the order in which it is listed. -/
structure HistoryRoots where
  claude : List (List TranscriptFile)
  codex : List (List (List (List TranscriptFile)))

/-- The entries that come first with their ids, but for those with the ids given. -/
def firstEntries (seen : List String) : List HistoryEntry → List HistoryEntry
  | [] => []
  | entry :: entries =>
    if entry.id ∈ seen then firstEntries seen entries
    else entry :: firstEntries (entry.id :: seen) entries

namespace Scanner

variable (scanner : Scanner)

def scanClaude (projects : List (List TranscriptFile)) : List HistoryEntry :=
  projects.flatten.filterMap fun file =>
    if isJsonl file then scanner.claudeEntry file else none

def scanCodex (years : List (List (List (List TranscriptFile)))) : List HistoryEntry :=
  years.flatten.flatten.flatten.filterMap fun file =>
    if "rollout-".toList.isPrefixOf file.name ∧ isJsonl file then scanner.codexEntry file else none

def scanned (roots : HistoryRoots) : List HistoryEntry :=
  scanner.scanClaude roots.claude ++ scanner.scanCodex roots.codex

def scanRoots (roots : HistoryRoots) (tracked : List String) : List HistoryEntry :=
  ((firstEntries tracked (scanner.scanned roots)).insertionSort fun entry other =>
    other.lastActiveAt ≤ entry.lastActiveAt).take maxEntries

end Scanner

end Diri.History
