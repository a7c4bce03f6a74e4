/-
Remote hosts, and the commands that are sent to their shells.

A command is text for the remote login shell.  Every value in it is quoted: in single
quotes, where only the quote itself needs care, or, for a path, the same behind a leading
tilde, which the shell is to expand.

The one-time retirement of remote sessions that no Holder ever owned.

A launch rewrites every record that has a host and no binding, once, and then asks its
host, until that gives an answer, to end the pane the record's session ran in.  What was
done is kept in a marker, from launch to launch.  The registry, the bindings, the host
catalog and the answers of the remote shells are a launch's arguments; a launch that
finds no binding store it can read does nothing, and is one with `bound := none`.

A marker is taken to be saved as it is.
-/
import Diri.Engine.Registry

namespace Diri

structure HostEntry where
  id : String
  name : Option String := none
  ssh : String
  defaultCwd : Option String := none
  deriving DecidableEq, Repr

structure HostsConfig where
  hosts : List HostEntry := []
  deriving DecidableEq, Repr

def HostsConfig.host (id : String) (config : HostsConfig) : Option HostEntry :=
  config.hosts.find? fun host => host.id = id

/-- What a command left behind, if it came to an end at all. -/
structure ShellOutput where
  ok : Bool
  exitCode : Int32
  stdout : String
  stderr : String
  deriving DecidableEq, Repr

/-- The value between single quotes, each single quote of its own replaced. -/
def singleQuoted (escaped value : String) : String :=
  "'" ++ String.ofList (value.toList.flatMap fun c => if c = '\'' then escaped.toList else [c])
    ++ "'"

/-- Closes the quotes, a quote behind a backslash, and opens them again. -/
def shellQuote (value : String) : String := singleQuoted "'\\''" value

/-- A leading tilde stays in front of the quotes. -/
def shellQuotePath (path : String) : String :=
  if path = "~" then path
  else match "~/".toList.isPrefixOf? path.toList with
    | some rest => "~/" ++ shellQuote (String.ofList rest)
    | none => shellQuote path

/-! ### Names -/

/-- The name that a session's pane had: its id, cut short. -/
def legacyPaneName (sessionId : SessionId) : String :=
  let raw := ("s_".toList.isPrefixOf? sessionId.toList).getD sessionId.toList
  "diri-" ++ String.ofList (raw.take 8)

def isLowerHexDigit (c : Char) : Bool := ('0' ≤ c && c ≤ '9') || ('a' ≤ c && c ≤ 'f')

/-- `diri-` and one to eight hexadecimal digits. -/
def isDiriGeneratedName (name : String) : Bool :=
  match "diri-".toList.isPrefixOf? name.toList with
  | none => false
  | some suffix => !suffix.isEmpty && suffix.length ≤ 8 && suffix.all isLowerHexDigit

/-! ### The marker -/

inductive PaneState
  | killed
  | absent
  | noTmux
  | gaveUp
  deriving DecidableEq, Repr

structure SessionMark where
  recordMigratedAtMillis : UInt64
  /-- None as long as the pane is owed a try. -/
  pane : Option PaneState := none
  paneAttempts : Nat := 0
  deriving DecidableEq, Repr

structure Marker where
  sessions : Table SessionId SessionMark := ∅
  orphanPanes : Table String (List String) := ∅

namespace Marker

def settle (id : SessionId) (state : PaneState) (marker : Marker) : Marker :=
  { marker with
    sessions := marker.sessions.adjust id fun mark => { mark with pane := some state } }

end Marker

/-! ### The remote half -/

structure HostSweep where
  killed : List String := []
  panes : List String := []
  noTmux : Bool := false
  deriving DecidableEq, Repr

namespace LegacyRemote

def maxPaneAttempts : Nat := 5

def sentinel : String := "diri-legacy "

/-- One command for a host: list its panes, then end each target by its exact name. -/
def sweepCommand (targets : List String) : String :=
  "if ! command -v tmux >/dev/null 2>&1; then printf 'diri-legacy no-tmux\\n'; exit 0; fi; "
    ++ "tmux list-sessions -F 'diri-legacy pane #\x7bsession_name\x7d' 2>/dev/null || true; "
    ++ "for target in " ++ " ".intercalate (targets.map shellQuote) ++ "; do "
    ++ "if tmux kill-session -t \"=$target\" >/dev/null 2>&1; then "
    ++ "printf 'diri-legacy killed %s\\n' \"$target\"; "
    ++ "else printf 'diri-legacy absent %s\\n' \"$target\"; fi; "
    ++ "done"

/-- `split_once(' ')`. -/
def splitOnce (line : List Char) : Option (List Char × List Char) :=
  match line.span (· ≠ ' ') with
  | (_, []) => none
  | (word, _ :: rest) => some (word, rest)

/-- One line of the answer; only lines that start with the sentinel count. -/
def parseLine (chars : CharClass) (sweep : Option HostSweep) (line : List Char) :
    Option HostSweep :=
  match sentinel.toList.isPrefixOf? (chars.trim line) with
  | none => sweep
  | some rest =>
    let sweep := sweep.getD {}
    match splitOnce rest with
    | some (verb, name) =>
      if verb = "pane".toList then
        some { sweep with panes := sweep.panes ++ [String.ofList name] }
      else if verb = "killed".toList then
        some { sweep with killed := sweep.killed ++ [String.ofList name] }
      else some sweep
    | none => some (if rest = "no-tmux".toList then { sweep with noTmux := true } else sweep)

/-- None unless some line answers; blank lines, and with them the last one, never do. -/
def parseSweep (chars : CharClass) (stdout : String) : Option HostSweep :=
  (stdout.toList.splitOn '\n').foldl (parseLine chars) none

end LegacyRemote

/-! ### A launch -/

structure LegacyOutcome where
  migrated : List SessionId := []
  panesKilled : List String := []
  panesAbsent : List String := []
  panesDeferred : List String := []
  panesGivenUp : List String := []
  orphanPanes : Table String (List String) := ∅

/-- A pane that is owed a try, and the session it was of. -/
structure LegacyPane where
  id : SessionId
  target : String
  deriving DecidableEq, Repr

/-- A command that was sent to a host, and the answer in it, if there was one. -/
structure PaneAttempt where
  host : HostEntry
  panes : List LegacyPane
  command : String
  sweep : Option HostSweep
  deriving DecidableEq, Repr

structure LegacyLaunch where
  registry : Registry
  /-- Records are kept by their own ids. -/
  keyed : registry.records.All fun id record => record.id = id
  bound : Option (List SessionId)
  hosts : HostsConfig
  run : HostEntry → String → Option ShellOutput
  now : DateMillis
  nowMillis : UInt64

/-- How far a launch has come. -/
structure LegacyProgress where
  marker : Marker
  registry : Registry
  outcome : LegacyOutcome := {}
  attempts : List PaneAttempt := []

namespace LegacyRemote

variable (chars : CharClass) (resumes : String → String → Bool)

def retireRecord (record : SessionRecord) : SessionRecord :=
  { record with
    status := .exited ⟨.external, none, none⟩
    needsInput := none
    hibernation := none
    resumability := if record.agentSessionId.isSome then .live else record.resumability }

/-- The records that are legacy, each with its host. -/
def legacy (bound : List SessionId) (registry : Registry) : List (SessionId × String) :=
  ((registry.listRecords chars resumes).filter fun record => !bound.contains record.id).filterMap
    fun record => record.host.map fun host => (record.id, host)

/-- The pane names that some record accounts for. -/
def accounted (registry : Registry) : List String :=
  ((registry.listRecords chars resumes).filter (·.host.isSome)).map fun record =>
    legacyPaneName record.id

/-- The local half, of one record: it is rewritten unless the marker has it. -/
def rewrite (launch : LegacyLaunch) (progress : LegacyProgress) (entry : SessionId × String) :
    LegacyProgress :=
  if entry.1 ∈ progress.marker.sessions then progress
  else
    { progress with
      registry := progress.registry.updateRecord entry.1 retireRecord launch.now
      marker := { progress.marker with
        sessions := progress.marker.sessions.insert entry.1 ⟨launch.nowMillis, none, 0⟩ }
      outcome := { progress.outcome with migrated := progress.outcome.migrated ++ [entry.1] } }

/-- Whether a record's pane is owed a try; a name that is none of ours is settled at once. -/
def collect (state : LegacyProgress × List (String × LegacyPane)) (entry : SessionId × String) :
    LegacyProgress × List (String × LegacyPane) :=
  match state.1.marker.sessions.lookup entry.1 with
  | none => state
  | some mark =>
    if mark.pane.isSome then state
    else
      let target := legacyPaneName entry.1
      if isDiriGeneratedName target then (state.1, state.2 ++ [(entry.2, ⟨entry.1, target⟩)])
      else
        ({ state.1 with
            marker := state.1.marker.settle entry.1 .absent
            outcome := { state.1.outcome with
              panesAbsent := state.1.outcome.panesAbsent ++ [target] } }, state.2)

/-- The panes by host, in the order of the hosts' ids. -/
def byHost (pending : List (String × LegacyPane)) : List (String × List LegacyPane) :=
  (((pending.map (·.1)).dedup).mergeSort fun a b => decide (a ≤ b)).map fun host =>
    (host, (pending.filter fun entry => entry.1 = host).map (·.2))

/-- A pane of a host that is no longer in the catalog. -/
def giveUp (progress : LegacyProgress) (pane : LegacyPane) : LegacyProgress :=
  { progress with
    marker := progress.marker.settle pane.id .gaveUp
    outcome := { progress.outcome with
      panesGivenUp := progress.outcome.panesGivenUp ++ [pane.target] } }

/-- A pane of a host that answered. -/
def answered (sweep : HostSweep) (progress : LegacyProgress) (pane : LegacyPane) : LegacyProgress :=
  let state : PaneState :=
    if sweep.noTmux then .noTmux else if sweep.killed.contains pane.target then .killed else .absent
  { progress with
    marker := { progress.marker with
      sessions := progress.marker.sessions.adjust pane.id fun mark =>
        { mark with pane := some state, paneAttempts := mark.paneAttempts + 1 } }
    outcome := match state with
      | .killed => { progress.outcome with
          panesKilled := progress.outcome.panesKilled ++ [pane.target] }
      | .absent => { progress.outcome with
          panesAbsent := progress.outcome.panesAbsent ++ [pane.target] }
      | _ => progress.outcome }

/-- A pane of a host that did not; after enough launches it is given up. -/
def unanswered (progress : LegacyProgress) (pane : LegacyPane) : LegacyProgress :=
  let attempts := ((progress.marker.sessions.lookup pane.id).elim 0 (·.paneAttempts)) + 1
  { progress with
    marker := { progress.marker with
      sessions := progress.marker.sessions.adjust pane.id fun mark =>
        { mark with
          paneAttempts := attempts
          pane := if maxPaneAttempts ≤ attempts then some .gaveUp else mark.pane } }
    outcome :=
      if maxPaneAttempts ≤ attempts then { progress.outcome with
        panesGivenUp := progress.outcome.panesGivenUp ++ [pane.target] }
      else { progress.outcome with
        panesDeferred := progress.outcome.panesDeferred ++ [pane.target] } }

/-- Panes of ours that no record accounts for are reported, and left alone. -/
def reportOrphans (host : String) (panes : List String) (progress : LegacyProgress) :
    LegacyProgress :=
  if panes.isEmpty then progress
  else
    { progress with
      marker := { progress.marker with
        orphanPanes := progress.marker.orphanPanes.insert host panes }
      outcome := { progress.outcome with
        orphanPanes := progress.outcome.orphanPanes.insert host panes } }

/-- The remote half, of one host: one command for all its panes. -/
def retireHost (launch : LegacyLaunch) (accounted : List String) (progress : LegacyProgress)
    (group : String × List LegacyPane) : LegacyProgress :=
  match launch.hosts.host group.1 with
  | none => group.2.foldl giveUp progress
  | some host =>
    let command := sweepCommand (group.2.map (·.target))
    let sweep := (launch.run host command).bind fun output => parseSweep chars output.stdout
    let progress := { progress with
      attempts := progress.attempts ++ [⟨host, group.2, command, sweep⟩] }
    match sweep with
    | some sweep =>
      reportOrphans group.1
        (sweep.panes.filter fun pane => isDiriGeneratedName pane && !accounted.contains pane)
        (group.2.foldl (answered sweep) progress)
    | none => group.2.foldl unanswered progress

def retireLegacyRemoteSessions (marker : Marker) (launch : LegacyLaunch) :
    Marker × LegacyProgress :=
  match launch.bound with
  | none => (marker, ⟨marker, launch.registry, {}, []⟩)
  | some bound =>
    let legacy := legacy chars resumes bound launch.registry
    let accounted := accounted chars resumes launch.registry
    let progress := legacy.foldl (rewrite launch) ⟨marker, launch.registry, {}, []⟩
    let (progress, pending) := legacy.foldl collect (progress, [])
    let progress := (byHost pending).foldl (retireHost chars launch accounted) progress
    (progress.marker, progress)

end LegacyRemote

end Diri
