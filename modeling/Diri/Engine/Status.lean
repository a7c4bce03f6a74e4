/-
What the detection engine hands the status reducer, and the redaction every
captured text passes through.

The two regular expressions of the source are matchers over a list of characters.
Neither needs backtracking: in the secret pattern no keyword is a prefix of
another, white space is disjoint from `[=:]` and from `\S`; in the control pattern
the parameter bytes are disjoint from the final letter.  So greedy scanning finds
exactly the leftmost match the expression would.

The per-session status state machine.

`StatusReducer` owns the single answer to "what is this session doing"; `reduce`
folds one signal, stamped with the caller's clock, into it.  Every function here
takes the reducer and the outcome so far and returns both, where the source
mutates them in place.

Counters are natural numbers: `idle_confirms` stays below the confirmations the
timing asks for and `blocker_miss_scans` below the scans it asks for, so neither
can wrap.
-/
import Diri.Proto.Model
import Mathlib.Data.Finset.Card

namespace Diri

inductive ManifestState
  | working
  | idle
  | blockedPermission
  | blockedQuestion
  /-- A transient view: hold the current state rather than transitioning. -/
  | skip
  deriving DecidableEq, Repr

/-- The engine's verdict for one screen snapshot. -/
structure ScreenObservation where
  state : ManifestState
  matchedRuleId : String
  priority : Int64
  contentSeq : UInt64
  promptExcerpt : Option String
  options : Option (List String)
  deriving DecidableEq, Repr

/-! ### Redaction -/

/-- The characters `\s` matches: the Unicode white space. -/
def isSpace (c : Char) : Bool :=
  let n := c.toNat
  (9 ≤ n && n ≤ 13) || n == 0x20 || n == 0x85 || n == 0xA0 || n == 0x1680
    || (0x2000 ≤ n && n ≤ 0x200A) || n == 0x2028 || n == 0x2029 || n == 0x202F
    || n == 0x205F || n == 0x3000

/-- Whether `c` matches the lower-case letter `l` under `(?i)`: simple case folding
    also sends the Kelvin sign to `k` and the long s to `s`. -/
def foldsTo (l c : Char) : Bool :=
  c.toLower == l || (l == 'k' && c.toNat == 0x212A) || (l == 's' && c.toNat == 0x17F)

/-- `text` past the case-insensitive literal `word`, with the characters matched. -/
def matchWord : List Char → List Char → Option (List Char × List Char)
  | [], text => some ([], text)
  | _ :: _, [] => none
  | l :: word, c :: text =>
    if foldsTo l c then
      (matchWord word text).map fun (taken, rest) => (c :: taken, rest)
    else none

/-- `api[_-]?key`. -/
def matchApiKey (text : List Char) : Option (List Char × List Char) :=
  (matchWord "api".toList text).bind fun (api, rest) =>
    let (sep, rest) := match rest with
      | '_' :: rest => (['_'], rest)
      | '-' :: rest => (['-'], rest)
      | rest => ([], rest)
    (matchWord "key".toList rest).map fun (key, rest) => (api ++ sep ++ key, rest)

/-- `(token|secret|password|api[_-]?key|authorization)`, in that order. -/
def matchKeyword (text : List Char) : Option (List Char × List Char) :=
  matchWord "token".toList text <|> matchWord "secret".toList text
    <|> matchWord "password".toList text <|> matchApiKey text
    <|> matchWord "authorization".toList text

/-- The secret pattern at the head of `text`: the keyword, and what follows the match. -/
def matchSecret (text : List Char) : Option (List Char × List Char) :=
  (matchKeyword text).bind fun (keyword, rest) =>
    match rest.dropWhile isSpace with
    | sep :: rest =>
      if sep == '=' || sep == ':' then
        let value := rest.dropWhile isSpace
        if (value.takeWhile fun c => !isSpace c).isEmpty then none
        else some (keyword, value.dropWhile fun c => !isSpace c)
      else none
    | [] => none

/-- `\x1b\[[0-9;?]*[a-zA-Z]` at the head of `text`: what follows the match. -/
def matchAnsi : List Char → Option (List Char)
  | '\x1b' :: '[' :: rest =>
    match rest.dropWhile fun c => c.isDigit || c == ';' || c == '?' with
    | final :: rest => if final.isAlpha then some rest else none
    | [] => none
  | _ => none

/-- `SECRET.replace_all(text, "$1=•••")`; `fuel` bounds the characters left. -/
def maskSecrets : Nat → List Char → List Char
  | 0, text => text
  | _ + 1, [] => []
  | fuel + 1, c :: text =>
    match matchSecret (c :: text) with
    | some (keyword, rest) => keyword ++ ['=', '•', '•', '•'] ++ maskSecrets fuel rest
    | none => c :: maskSecrets fuel text

/-- `ANSI.replace_all(text, "")`. -/
def stripAnsi : Nat → List Char → List Char
  | 0, text => text
  | _ + 1, [] => []
  | fuel + 1, c :: text =>
    match matchAnsi (c :: text) with
    | some rest => stripAnsi fuel rest
    | none => c :: stripAnsi fuel text

/-- Masks secret assignments, then strips control sequences. -/
def redact (text : String) : String :=
  let masked := maskSecrets text.toList.length text.toList
  String.ofList (stripAnsi masked.length masked)

/-! ### Risk classification -/

def destructivePatterns : List String :=
  ["rm -rf", "rm -fr", "sudo ", "force-push", "push --force", "push -f", "reset --hard",
    "clean -fd", "drop table", "mkfs", "> /dev/"]

def networkPatterns : List String :=
  ["curl ", "wget ", "http://", "https://", "ssh ", "scp ", "nc "]

def fileWritePatterns : List String :=
  ["write", "edit", "mv ", "cp ", "mkdir", "touch ", "chmod", "chown"]

/-- `char::to_lowercase`, exact on every character whose lower case has an ASCII
    letter in it; the others stay outside ASCII, where no pattern looks. -/
def lowercaseChar (c : Char) : List Char :=
  if c.toNat == 0x212A then ['k']
  else if c.toNat == 0x130 then ['i', '\u0307']
  else [c.toLower]

/-- `text.contains(pattern)`. -/
def containsPattern (pattern : List Char) : List Char → Bool
  | [] => pattern.isEmpty
  | c :: text => pattern.isPrefixOf (c :: text) || containsPattern pattern text

/-- First match wins, in the order destructive, network, file write. -/
def classifyRisk (text : String) : RiskHint :=
  let lower := text.toList.flatMap lowercaseChar
  if destructivePatterns.any fun p => containsPattern p.toList lower then .destructive
  else if networkPatterns.any fun p => containsPattern p.toList lower then .network
  else if fileWritePatterns.any fun p => containsPattern p.toList lower then .fileWrite
  else .neutral

/-! ### Signals and outcomes -/

/-- Which source of truth leads for an agent. -/
inductive Authority
  | hooksPrimary
  | screenPrimary
  | processOnly
  deriving DecidableEq, Repr

structure ReducerTiming where
  idleConfirmations : Nat
  idleConfirmCap : Duration
  startupGrace : Duration
  blockerClearScans : Nat
  stalenessTimeout : Duration
  deriving DecidableEq, Repr

def second : Duration := 1000000000

/-- The values the daemon ships. -/
def ReducerTiming.default : ReducerTiming where
  idleConfirmations := 3
  idleConfirmCap := 700000000
  startupGrace := 3 * second
  blockerClearScans := 2
  stalenessTimeout := 60 * second

/-- A Claude hook event, already parsed out of the raw payload. -/
inductive ClaudeHook
  | sessionStart
  | userPromptSubmit
  | preToolUse
  | permissionRequest (toolName inputSummary : Option String)
  | notification (notificationType message : Option String)
  | stop
  | subagentStart (id : String)
  | subagentStop (id : String)
  | sessionEnd
  deriving DecidableEq, Repr

inductive StatusSignal
  | claudeHook (hook : ClaudeHook) (isSubagent : Bool)
  | codexTurnComplete
  | screen (observation : ScreenObservation)
  | ptyOutputActivity
  | userKeystroke
  | processExit (code signal : Option Int32)
  | tick
  deriving DecidableEq, Repr

structure ReducerOutcome where
  statusChange : Option SessionStatus := none
  needsInput : Option NeedsInputDetail := none
  turnCompleted : Bool := false
  deriving DecidableEq, Repr

/-- The mutable belief and debounce tracking for one session. -/
structure InternalState where
  spawnedAt : SystemTime
  lastSignalAt : SystemTime
  turnInFlight : Bool := false
  activeSubagents : Finset String := ∅
  idleCandidateSince : Option SystemTime := none
  idleConfirms : Nat := 0
  idleStrong : Bool := false
  pendingTurnCompleted : Bool := false
  screenBlockerActive : Bool := false
  blockerMissScans : Nat := 0
  screenBelief : Option ManifestState := none
  lastScreenSeq : Option UInt64 := none
  skipActive : Bool := false
  respondingSince : Option SystemTime := none
  pendingNeedsInput : Option NeedsInputDetail := none

structure StatusReducer where
  status : SessionStatus
  authority : Authority
  timing : ReducerTiming
  state : InternalState

/-! ### Details -/

/-- `char::trim` over white space, as `str::trim` does. -/
def trimChars (text : List Char) : List Char :=
  ((text.dropWhile isSpace).reverse.dropWhile isSpace).reverse

def permissionDetail (toolName inputSummary : Option String) (now : SystemTime) :
    NeedsInputDetail :=
  let tool := toolName.getD ""
  let summary :=
    if tool = "Bash" then "wants to run `" ++ inputSummary.getD "" ++ "`"
    else if tool = "Edit" ∨ tool = "Write" ∨ tool = "MultiEdit" ∨ tool = "NotebookEdit" then
      "wants to edit " ++ inputSummary.getD "a file"
    else if tool = "" then inputSummary.getD "Permission required"
    else match inputSummary with
      | some detail => "wants to use " ++ tool ++ ": " ++ detail
      | none => "wants to use " ++ tool
  { kind := .permission
    source := .claudePermissionHook
    toolName := toolName
    summary := redact summary
    promptExcerpt := inputSummary.map redact
    options := none
    riskHint := classifyRisk (inputSummary.getD tool)
    occurredAt := .ofSystemTime now }

/-- The detail of a notification that asks for input. -/
def notificationDetail (kind : NeedsInputKind) (text : String) (now : SystemTime) :
    NeedsInputDetail where
  kind := kind
  source := .claudeNotificationHook
  toolName := none
  summary := redact text
  promptExcerpt := none
  options := none
  riskHint := classifyRisk text
  occurredAt := .ofSystemTime now

def screenDetail (kind : NeedsInputKind) (observation : ScreenObservation)
    (now : SystemTime) : NeedsInputDetail :=
  let firstLine := observation.promptExcerpt.bind fun excerpt =>
    ((excerpt.toList.splitOn '\n').map trimChars).find? (fun line => !line.isEmpty)
  let summary := (firstLine.map String.ofList).getD "Waiting for input"
  { kind := kind
    source := .screenScrape
    toolName := none
    summary := redact summary
    promptExcerpt := observation.promptExcerpt
    options := observation.options
    riskHint := classifyRisk (observation.promptExcerpt.getD summary)
    occurredAt := .ofSystemTime now }

def needsInputKind : ManifestState → Option NeedsInputKind
  | .blockedPermission => some .permission
  | .blockedQuestion => some .question
  | _ => none

/-! ### The reducer -/

namespace StatusReducer

/-- `StatusReducer::new(authority, spawned_at).with_timing(timing)`. -/
def new (authority : Authority) (timing : ReducerTiming) (spawnedAt : SystemTime) :
    StatusReducer where
  status := .starting
  authority := authority
  timing := timing
  state := { spawnedAt := spawnedAt, lastSignalAt := spawnedAt }

def setStatus (new : SessionStatus) (r : StatusReducer) (o : ReducerOutcome) :
    StatusReducer × ReducerOutcome :=
  if r.status ≠ new then ({ r with status := new }, { o with statusChange := some new })
  else (r, o)

def cancelIdleCandidacy (r : StatusReducer) : StatusReducer :=
  { r with state := { r.state with
      idleCandidateSince := none, idleConfirms := 0, idleStrong := false,
      pendingTurnCompleted := false } }

/-- Enter or refresh `working` from a positive work signal. -/
def goWorking (now : SystemTime) (clearScreenBlocker : Bool) (r : StatusReducer)
    (o : ReducerOutcome) : StatusReducer × ReducerOutcome :=
  let r := r.cancelIdleCandidacy
  let r := if clearScreenBlocker then
      { r with state := { r.state with screenBlockerActive := false, blockerMissScans := 0 } }
    else r
  let r := { r with state := { r.state with turnInFlight := true, lastSignalAt := now } }
  r.setStatus .working o

def commitIdle (now : SystemTime) (r : StatusReducer) (o : ReducerOutcome) :
    StatusReducer × ReducerOutcome :=
  let fire := r.state.pendingTurnCompleted
  let (r, o) := r.setStatus .idle o
  let r := { r with state := { r.state with turnInFlight := false } }
  let o := if fire then { o with turnCompleted := true } else o
  let r := r.cancelIdleCandidacy
  ({ r with state := { r.state with lastSignalAt := now } }, o)

/-- A strong idle signal: commits at once when the screen already reads idle,
    otherwise waits for one further confirmation. -/
def handleStrongIdle (now : SystemTime) (r : StatusReducer) (o : ReducerOutcome) :
    StatusReducer × ReducerOutcome :=
  if r.status = .starting then r.setStatus .idle o
  else if r.status ≠ .working then (r, o)
  else
    let r := { r with state := { r.state with
      idleStrong := true
      pendingTurnCompleted := r.state.turnInFlight
      idleCandidateSince := some (r.state.idleCandidateSince.getD now) } }
    if r.state.screenBelief = some .idle then
      let r := { r with state := { r.state with idleConfirms := r.state.idleConfirms + 1 } }
      r.commitIdle now o
    else (r, o)

/-- Count one idle-confirming observation, opening a candidacy if there is none. -/
def countIdle (now : SystemTime) (r : StatusReducer) : StatusReducer :=
  let r := if r.state.idleCandidateSince.isNone then
      { r with state := { r.state with idleCandidateSince := some now, idleConfirms := 0 } }
    else r
  { r with state := { r.state with idleConfirms := r.state.idleConfirms + 1 } }

/-- Whether the observations counted so far are enough to commit. -/
def idleConfirmed (now : SystemTime) (r : StatusReducer) : Prop :=
  let required := if r.state.idleStrong then 1 else r.timing.idleConfirmations
  let elapsed := (r.state.idleCandidateSince.bind now.durationSince).getD 0
  required ≤ r.state.idleConfirms ∨ (r.timing.idleConfirmCap ≤ elapsed ∧ 1 ≤ r.state.idleConfirms)

instance (now : SystemTime) (r : StatusReducer) : Decidable (r.idleConfirmed now) :=
  inferInstanceAs (Decidable (_ ∨ _))

def confirmIdle (now : SystemTime) (r : StatusReducer) (o : ReducerOutcome) :
    StatusReducer × ReducerOutcome :=
  if r.status ≠ .working then (r, o)
  else
    let r := r.countIdle now
    if r.idleConfirmed now then r.commitIdle now o else (r, o)

/-- Ask for input: remember and publish the detail, drop the candidacy. -/
def askForInput (detail : NeedsInputDetail) (kind : NeedsInputKind) (r : StatusReducer)
    (o : ReducerOutcome) : StatusReducer × ReducerOutcome :=
  let r := { r with state := { r.state with pendingNeedsInput := some detail } }
  let o := { o with needsInput := some detail }
  r.cancelIdleCandidacy.setStatus (.needsInput kind) o

def handleNotification (notificationType message : Option String) (now : SystemTime)
    (r : StatusReducer) (o : ReducerOutcome) : StatusReducer × ReducerOutcome :=
  if notificationType = some "permission_prompt" then
    r.askForInput (notificationDetail .permission (message.getD "Permission required") now)
      .permission o
  else if notificationType = some "idle_prompt" ∨ notificationType = some "agent_needs_input"
      ∨ notificationType = some "elicitation_dialog" then
    r.askForInput (notificationDetail .question (message.getD "Waiting for input") now) .question o
  else if notificationType = some "agent_completed" then r.handleStrongIdle now o
  else (r, o)

def handleClaudeHook (hook : ClaudeHook) (isSubagent : Bool) (now : SystemTime)
    (r : StatusReducer) (o : ReducerOutcome) : StatusReducer × ReducerOutcome :=
  let r := { r with state := { r.state with lastSignalAt := now } }
  match hook with
  | .subagentStart id =>
    ({ r with state := { r.state with
        activeSubagents := insert id r.state.activeSubagents } }, o)
  | .subagentStop id =>
    ({ r with state := { r.state with
        activeSubagents := r.state.activeSubagents.erase id } }, o)
  | hook =>
    -- Anything else carrying an agent id belongs to a subagent.
    if isSubagent then (r, o)
    else match hook with
      | .sessionStart => if r.status = .starting then r.setStatus .idle o else (r, o)
      | .userPromptSubmit =>
        let r := { r with state := { r.state with turnInFlight := true } }
        r.goWorking now true o
      | .preToolUse => r.goWorking now true o
      | .permissionRequest toolName inputSummary =>
        r.askForInput (permissionDetail toolName inputSummary now) .permission o
      | .notification notificationType message =>
        r.handleNotification notificationType message now o
      | .stop => r.handleStrongIdle now o
      | .sessionEnd | .subagentStart _ | .subagentStop _ => (r, o)

def applyNonBlockerScreen (observation : ScreenObservation) (now : SystemTime)
    (clearedBlocker : Bool) (r : StatusReducer) (o : ReducerOutcome) :
    StatusReducer × ReducerOutcome :=
  match observation.state with
  | .working => r.goWorking now false o
  | .idle =>
    if r.status = .working then r.confirmIdle now o
    else if r.status = .starting then r.setStatus .idle o
    else if clearedBlocker ∧ r.status.isNeedsInput then
      r.cancelIdleCandidacy.setStatus .idle o
    else (r, o)
  | .blockedPermission | .blockedQuestion | .skip => (r, o)

/-- A screen that was neither held as `skip` nor a repeat of the last one. -/
def handleFreshScreen (observation : ScreenObservation) (now : SystemTime)
    (r : StatusReducer) (o : ReducerOutcome) : StatusReducer × ReducerOutcome :=
  match needsInputKind observation.state with
  | some kind =>
    -- A visible blocker beats everything except process exit.
    let r := { r with state := { r.state with
      screenBlockerActive := true, blockerMissScans := 0 } }
    r.askForInput (screenDetail kind observation now) kind o
  | none =>
    if r.state.screenBlockerActive then
      let r := { r with state := { r.state with
        blockerMissScans := r.state.blockerMissScans + 1 } }
      if r.state.blockerMissScans < r.timing.blockerClearScans then (r, o)
      else
        let r := { r with state := { r.state with
          screenBlockerActive := false, blockerMissScans := 0 } }
        r.applyNonBlockerScreen observation now true o
    else if r.status = .starting
        ∧ now.elapsedSince r.state.spawnedAt < r.timing.startupGrace
        ∧ ¬(r.authority = .screenPrimary ∧ observation.state = .working) then (r, o)
    else r.applyNonBlockerScreen observation now false o

def handleScreen (observation : ScreenObservation) (now : SystemTime) (r : StatusReducer)
    (o : ReducerOutcome) : StatusReducer × ReducerOutcome :=
  let r := { r with state := { r.state with lastSignalAt := now } }
  if observation.state = .skip then
    ({ r with state := { r.state with skipActive := true } }, o)
  else
    let r := { r with state := { r.state with skipActive := false } }
    if r.state.lastScreenSeq = some observation.contentSeq then (r, o)
    else
      let r := { r with state := { r.state with
        lastScreenSeq := some observation.contentSeq
        screenBelief := some observation.state } }
      r.handleFreshScreen observation now o

/-- The first half of a tick: reconsider a screen remembered during startup grace. -/
def reconsiderStartup (now : SystemTime) (r : StatusReducer) (o : ReducerOutcome) :
    StatusReducer × ReducerOutcome :=
  if r.status = .starting ∧ r.state.skipActive = false
      ∧ r.timing.startupGrace ≤ now.elapsedSince r.state.spawnedAt then
    match r.state.screenBelief with
    | some .working => r.goWorking now false o
    | some .idle => r.setStatus .idle o
    | some .blockedPermission | some .blockedQuestion | some .skip | none => (r, o)
  else (r, o)

/-- The second half of a tick: go stale, or supply the confirmation a strong idle needs. -/
def settleWorking (now : SystemTime) (r : StatusReducer) (o : ReducerOutcome) :
    StatusReducer × ReducerOutcome :=
  if r.status = .working
      ∧ r.timing.stalenessTimeout < now.elapsedSince r.state.lastSignalAt then
    r.setStatus .unknown o
  else if r.status = .working ∧ r.state.idleStrong = true
      ∧ r.state.idleCandidateSince.isSome then
    let r := { r with state := { r.state with idleConfirms := r.state.idleConfirms + 1 } }
    r.commitIdle now o
  else (r, o)

def handleTick (now : SystemTime) (r : StatusReducer) (o : ReducerOutcome) :
    StatusReducer × ReducerOutcome :=
  let (r, o) := r.reconsiderStartup now o
  r.settleWorking now o

/-- The process died: authoritative under every authority mode. -/
def handleExit (code signal : Option Int32) (r : StatusReducer) (o : ReducerOutcome) :
    StatusReducer × ReducerOutcome :=
  r.setStatus (.exited
    { reason := if signal.isSome then .signaled else .exited, code := code, signal := signal }) o

/-- Process-only agents: the first output means working, then only exit moves them. -/
def reduceProcessOnly (signal : StatusSignal) (now : SystemTime) (r : StatusReducer)
    (o : ReducerOutcome) : StatusReducer × ReducerOutcome :=
  if signal = .ptyOutputActivity then
    let (r, o) := if r.status = .starting then
        let r := { r with state := { r.state with turnInFlight := true } }
        r.setStatus .working o
      else (r, o)
    ({ r with state := { r.state with lastSignalAt := now } }, o)
  else (r, o)

/-- Folds one signal into the session's status. -/
def reduce (r : StatusReducer) (signal : StatusSignal) (now : SystemTime) :
    StatusReducer × ReducerOutcome :=
  let o : ReducerOutcome := {}
  if r.status.isExited then (r, o)
  else match signal with
    | .processExit code signal => r.handleExit code signal o
    | signal =>
      if r.authority = .processOnly then r.reduceProcessOnly signal now o
      else match signal with
        | .processExit _ _ => (r, o)
        | .ptyOutputActivity => ({ r with state := { r.state with lastSignalAt := now } }, o)
        | .userKeystroke =>
          let r := { r with state := { r.state with lastSignalAt := now } }
          if r.status.isNeedsInput then
            ({ r with state := { r.state with respondingSince := some now } }, o)
          else (r, o)
        | .claudeHook hook isSubagent => r.handleClaudeHook hook isSubagent now o
        | .codexTurnComplete =>
          let r := { r with state := { r.state with lastSignalAt := now } }
          r.handleStrongIdle now o
        | .screen observation => r.handleScreen observation now o
        | .tick => r.handleTick now o

/-- `active_subagents()`: how many subagents are running. -/
def activeSubagents (r : StatusReducer) : Nat := r.state.activeSubagents.card

end StatusReducer

end Diri
