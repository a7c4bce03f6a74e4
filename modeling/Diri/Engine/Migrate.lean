/-
Every command text that the Engine makes for a shell out of values.

The values are those a record, a caller or an earlier answer supplies.  What such a command
is made of stands in one place, its `text`; the functions that send commands name the
command and its values.

The git half of a session's handoff from one machine to another.

`prepare` brings the code state across while the source agent still runs: it commits and
pushes what the source has, and brings the target checkout to it, or a worktree next to the
target's clone.  Either side is a host, or this machine where there is none.  A script asks
the shells, each question being a command and where it is to run; no answer is one that did
not come in time.
-/
import Diri.Engine.LegacyRemote
import Diri.Lib.Path
import Diri.Lib.Script

namespace Diri

/-- The quotes of a channel: closed, a quote in double quotes, and opened again. -/
def Ssh.shellQuote (value : String) : String := singleQuoted "'\"'\"'" value

/-- The single quote that a remote script is wrapped with, in double quotes of its own. -/
def posixShellCommand (script : String) : String :=
  "exec /bin/sh -c " ++ singleQuoted "'\"'\"'" script

/-- Where an agent keeps the conversations that it had in a directory. -/
def claudeProjectSlug (cwd : String) : String :=
  String.ofList (cwd.toList.map fun c => if c = '/' ∨ c = '.' then '-' else c)

inductive RemoteCommand
  | showToplevel (cwd : String)
  | currentBranch (root : String)
  | status (root : String)
  | commitAll (root message : String)
  | push (root branch : String)
  | gitDir (root : String)
  | fetch (root branch : String)
  | checkout (root branch : String)
  | probeWorktree (path : String)
  | addWorktree (mainClone branch path : String)
  | findTranscript (sourceCwd recordCwd uuid : String)
  | makeDir (dir : String)
  | originOfCwd (cwd : String)
  | originOfRoot (root : String)
  | listRepos (defaultCwd : String)
  | sweep (targets : List String)
  | channel (script : String)
  deriving DecidableEq, Repr

namespace RemoteCommand

def transcriptPath (uuid cwd : String) : String :=
  ".claude/projects/" ++ claudeProjectSlug cwd ++ "/" ++ uuid ++ ".jsonl"

def transcriptProbe (uuid cwd : String) : String :=
  "if [ -f " ++ shellQuote (transcriptPath uuid cwd) ++ " ]; then echo "
    ++ shellQuote (transcriptPath uuid cwd) ++ "; exit 0; fi"

def text : RemoteCommand → String
  | showToplevel cwd => "cd " ++ shellQuotePath cwd ++ " && git rev-parse --show-toplevel"
  | currentBranch root => "git -C " ++ shellQuote root ++ " rev-parse --abbrev-ref HEAD"
  | status root => "git -C " ++ shellQuote root ++ " status --porcelain"
  | commitAll root message =>
    "git -C " ++ shellQuote root ++ " add -A && git -C " ++ shellQuote root ++ " commit -m "
      ++ shellQuote message
  | push root branch => "git -C " ++ shellQuote root ++ " push -u origin " ++ shellQuote branch
  | gitDir root => "git -C " ++ shellQuote root ++ " rev-parse --absolute-git-dir"
  | fetch root branch => "git -C " ++ shellQuote root ++ " fetch origin " ++ shellQuote branch
  | checkout root branch =>
    "git -C " ++ shellQuote root ++ " checkout -B " ++ shellQuote branch ++ " "
      ++ shellQuote ("origin/" ++ branch)
  | probeWorktree path => "[ -e " ++ shellQuote path ++ "/.git ] && echo yes || echo no"
  | addWorktree mainClone branch path =>
    "git -C " ++ shellQuote mainClone ++ " worktree add -B " ++ shellQuote branch ++ " "
      ++ shellQuote path ++ " " ++ shellQuote ("origin/" ++ branch)
  -- the last place to look has the id as it is
  | findTranscript sourceCwd recordCwd uuid =>
    "; ".intercalate ([sourceCwd, recordCwd].map (transcriptProbe uuid))
      ++ "; ls -1 \"$HOME\"/.claude/projects/*/" ++ uuid ++ ".jsonl 2>/dev/null | head -n1"
  | makeDir dir => "mkdir -p " ++ shellQuote dir
  | originOfCwd cwd => "cd " ++ shellQuotePath cwd ++ " && git remote get-url origin"
  | originOfRoot root => "git -C " ++ shellQuote root ++ " remote get-url origin"
  | listRepos defaultCwd =>
    "for d in " ++ shellQuotePath defaultCwd ++ "/*/; do "
      ++ "[ -e \"$d/.git\" ] || continue; "
      ++ "printf '%s\\t%s\\n' \"$(cd \"$d\" && pwd)\" "
      ++ "\"$(git -C \"$d\" remote get-url origin 2>/dev/null)\"; "
      ++ "done"
  | sweep targets => LegacyRemote.sweepCommand targets
  | channel script => posixShellCommand script

end RemoteCommand

inductive MigrateError
  | badRequest (message : String)
  | internal (message : String)
  deriving DecidableEq, Repr

structure Prepared where
  branch : String
  sourceRepoRoot : String
  targetRepoRoot : String
  wipCommitted : Bool
  deriving DecidableEq, Repr

structure ShellCall where
  host : Option HostEntry
  command : RemoteCommand
  deriving DecidableEq, Repr

abbrev Handoff (α : Type) : Type :=
  ExceptT MigrateError (Script ShellCall (Option ShellOutput)) α

namespace Handoff

def wipCommitMessage (targetName : String) (now : UInt64) : String :=
  "WIP: handoff to " ++ targetName ++ " @" ++ toString now

def runShell (host : Option HostEntry) (command : RemoteCommand) : Handoff (Option ShellOutput) :=
  .mk (.ask ⟨host, command⟩ fun answer => .done (.ok answer))

variable (chars : CharClass)

def trimmed (text : String) : String := String.ofList (chars.trim text.toList)

/-- The trimmed output of a command that has to come to a good end. -/
def require (host : Option HostEntry) (command : RemoteCommand) (message : String) :
    Handoff String := do
  match ← runShell host command with
  | none => throw (.internal (message ++ ": timed out"))
  | some result =>
    if result.ok then return trimmed chars result.stdout
    let stderr := trimmed chars result.stderr
    throw (.badRequest (if stderr = "" then message else message ++ ": " ++ stderr))

/-- Where a branch that is a worktree on the source is to be on the target. -/
def worktreePath (mainClone branch : String) : String :=
  let repoName := (Path.fileName mainClone).getD "repo"
  let parent := (Path.parent mainClone).getD "."
  parent ++ "/" ++ repoName ++ "-"
    ++ String.ofList (branch.toList.map fun c => if c = '/' then '-' else c)

def ensureTargetWorktree (targetHost : Option HostEntry) (mainClone branch : String) :
    Handoff String := do
  let path := worktreePath mainClone branch
  match ← runShell targetHost (.probeWorktree path) with
  | none => throw (.internal "target probe timed out")
  | some probe =>
    if trimmed chars probe.stdout = "yes" then
      let status ← require chars targetHost (.status path)
        ("target worktree " ++ path ++ " is not a usable git checkout")
      if status ≠ "" then
        throw (.badRequest ("target worktree " ++ path
          ++ " has uncommitted changes — commit or stash them there first"))
      let _ ← require chars targetHost (.fetch path branch) "git fetch on the target failed"
      let _ ← require chars targetHost (.checkout path branch)
        ("could not check out " ++ branch ++ " in " ++ path)
      return path
    else
      let _ ← require chars targetHost (.fetch mainClone branch) "git fetch on the target failed"
      let _ ← require chars targetHost (.addWorktree mainClone branch path)
        ("could not create worktree " ++ path ++ " on the target (is " ++ branch
          ++ " checked out elsewhere there?)")
      return path

/-- The target's own checkout, which has to be clean, is brought to the branch. -/
def syncTarget (targetHost : Option HostEntry) (targetRepoRoot branch : String) :
    Handoff String := do
  let targetStatus ← require chars targetHost (.status targetRepoRoot)
    ("target checkout " ++ targetRepoRoot ++ " is not a usable git repository")
  if targetStatus ≠ "" then
    throw (.badRequest ("target checkout " ++ targetRepoRoot
      ++ " has uncommitted changes — commit or stash them there first"))
  let _ ← require chars targetHost (.fetch targetRepoRoot branch) "git fetch on the target failed"
  let _ ← require chars targetHost (.checkout targetRepoRoot branch)
    ("could not check out " ++ branch ++ " on the target")
  return targetRepoRoot

/-- What is not committed on the source is. -/
def commitWip (sourceHost : Option HostEntry) (root targetName : String) (now : UInt64) :
    Handoff Bool := do
  let status ← require chars sourceHost (.status root) "could not read the source checkout status"
  if status = "" then return false
  let _ ← require chars sourceHost (.commitAll root (wipCommitMessage targetName now))
    "could not create the WIP handoff commit"
  return true

def linkedWorktree (gitDir : String) : Bool := "/.git/worktrees/".toList <:+: gitDir.toList

def prepare (sourceCwd : String) (sourceHost targetHost : Option HostEntry)
    (targetRepoRoot targetName : String) (now : UInt64) : Handoff Prepared := do
  let root ← require chars sourceHost (.showToplevel sourceCwd)
    ("session cwd is not inside a git repository: " ++ sourceCwd)
  let branch ← require chars sourceHost (.currentBranch root)
    ("could not determine the current branch in " ++ root)
  if branch = "HEAD" then
    throw (.badRequest "cannot migrate a detached HEAD checkout — check out a branch first")
  let wipCommitted ← commitWip chars sourceHost root targetName now
  let _ ← require chars sourceHost (.push root branch) "git push to origin failed"
  let gitDir ← require chars sourceHost (.gitDir root) "could not inspect the source checkout"
  let finalTargetRoot ←
    if linkedWorktree gitDir then ensureTargetWorktree chars targetHost targetRepoRoot branch
    else syncTarget chars targetHost targetRepoRoot branch
  return ⟨branch, root, finalTargetRoot, wipCommitted⟩

end Handoff

end Diri
