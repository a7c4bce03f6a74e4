/-
What Claude's hooks and Codex's notify program report, as signals of the status reducer.

A payload is JSON of any shape: a field that is missing, or that is no text, is not there.
-/
import Diri.Engine.Status
import Diri.Lib.Json

namespace Diri

/-- What a payload carries besides the signal itself. -/
structure HookMetadata where
  agentSessionId : Option String := none
  transcriptPath : Option String := none
  firstPromptTitle : Option String := none
  needsInput : Option NeedsInputDetail := none

namespace Hooks

def string (value : Json) (key : String) : Option String := (value.get key).bind Json.asStr

def needsInputKind : Option String → Option NeedsInputKind
  | some "permission_prompt" => some .permission
  | some "idle_prompt" | some "agent_needs_input" | some "elicitation_dialog" => some .question
  | _ => none

/-- The text of a tool's input that is shown for it. -/
def toolText (payload : Json) : Option String :=
  match payload.get "tool_input" with
  | some (.object members) =>
    match string payload "tool_name" with
    | some "Bash" => string (.object members) "command"
    | some "Edit" | some "Write" | some "Read" | some "NotebookEdit" =>
      string (.object members) "file_path"
    | some "WebFetch" | some "WebSearch" =>
      (string (.object members) "url").or (string (.object members) "query")
    | _ => members.findSome? fun member => member.2.asStr
  | _ => none

/-- `text.chars().take(120)`. -/
def shortened (text : String) : String := String.ofList (text.toList.take 120)

/-- The tool's name, and a human summary of its input. -/
def toolSummary (payload : Json) : Option String × Option String :=
  (string payload "tool_name", (toolText payload).map fun text => redact (shortened text))

/-- The last two parts of a path. -/
def shortPath : Option String → String
  | none => "a file"
  | some path =>
    let parts := (path.toList.splitOn '/').filter fun part => !part.isEmpty
    String.ofList (['/'].intercalate (parts.drop (parts.length - 2)))

/-- `name.replace("__", ":")`. -/
def replaceSeparators : List Char → List Char
  | '_' :: '_' :: rest => ':' :: replaceSeparators rest
  | c :: rest => c :: replaceSeparators rest
  | [] => []

def permissionSummary (tool inputSummary : Option String) : String :=
  match tool with
  | some "Bash" => "wants to run `" ++ inputSummary.getD "a command" ++ "`"
  | some "Edit" | some "Write" => "wants to edit " ++ shortPath inputSummary
  | some "WebFetch" => "wants to fetch " ++ inputSummary.getD "a URL"
  | some name =>
    if "mcp__".toList.isPrefixOf name.toList then
      "wants to use " ++ String.ofList (replaceSeparators (name.toList.drop 5))
    else
      match inputSummary with
      | some detail => "wants to use " ++ name ++ ": " ++ detail
      | none => "wants to use " ++ name
  | none =>
    match inputSummary with
    | some detail => "needs permission: " ++ detail
    | none => "needs permission"

/-- A title from the first prompt: its first line with anything in it, as far as a row shows. -/
def titleFromPrompt (prompt : String) : String :=
  let lines := (prompt.toList.splitOn '\n').map trimChars
  let firstLine := (lines.find? fun line => !line.isEmpty).getD []
  let cleaned := redact (String.ofList firstLine)
  String.ofList (trimChars (cleaned.toList.take 60))

/-- The detail of a permission that is asked for. -/
def permissionRequest (payload : Json) (now : SystemTime) : NeedsInputDetail :=
  let (tool, summary) := toolSummary payload
  { kind := .permission
    source := .claudePermissionHook
    toolName := tool
    summary := permissionSummary tool summary
    promptExcerpt := summary
    options := none
    riskHint := classifyRisk (summary.getD "")
    occurredAt := .ofSystemTime now }

/-- An event, and what its payload carries; `none` for events that are not modelled. -/
def parseEvent (event : String) (payload : Json) (now : SystemTime) :
    Option (ClaudeHook × HookMetadata) :=
  let isSubagent := (string payload "agent_id").isSome
  let carried : HookMetadata :=
    { agentSessionId := string payload "session_id"
      transcriptPath := string payload "transcript_path" }
  match event with
  | "SessionStart" => some (.sessionStart, carried)
  | "UserPromptSubmit" =>
    let prompt := (string payload "prompt_text").or (string payload "prompt")
    let title := if isSubagent then none else prompt.map titleFromPrompt
    some (.userPromptSubmit, { carried with firstPromptTitle := title })
  | "PreToolUse" => some (.preToolUse, carried)
  | "PermissionRequest" =>
    let (tool, summary) := toolSummary payload
    let detail := if isSubagent then none else some (permissionRequest payload now)
    some (.permissionRequest tool summary, { carried with needsInput := detail })
  | "Notification" =>
    let notificationType := string payload "notification_type"
    let message := string payload "message"
    let detail := if isSubagent then none else
      (needsInputKind notificationType).map fun kind =>
        notificationDetail kind (message.getD "Claude needs your input") now
    some (.notification notificationType message, { carried with needsInput := detail })
  | "Stop" => some (.stop, carried)
  | "SubagentStart" => some (.subagentStart ((string payload "agent_id").getD "?"), carried)
  | "SubagentStop" => some (.subagentStop ((string payload "agent_id").getD "?"), carried)
  | "SessionEnd" => some (.sessionEnd, carried)
  | _ => none

def parseClaudeHook (event : String) (payload : Json) (now : SystemTime) :
    Option (StatusSignal × HookMetadata) :=
  (parseEvent event payload now).map fun (hook, carried) =>
    (.claudeHook hook (string payload "agent_id").isSome, carried)

/-- Only the end of a turn is meaningful. -/
def parseCodexNotify (payload : Json) : Option (StatusSignal × HookMetadata) :=
  if string payload "type" = some "agent-turn-complete" then
    let messages := (payload.get "input-messages").bind Json.asArray
    let first := (messages.bind List.head?).bind Json.asStr
    some (.codexTurnComplete,
      { agentSessionId := string payload "thread-id"
        firstPromptTitle := first.map titleFromPrompt })
  else none

end Hooks

end Diri
