/-
No value that a command is made of changes what the command is.

A value is quoted, and is met where nothing is quoted or expanded; so the command of given
values has the structure of the same command without them (`skeleton_form`), and every
such command but one is read to its end.  Two things are left by a value on purpose: a tilde
in front of a path, which the shell is to expand, and the number of panes that are asked for.

Two handoffs send commands of the same structure, one for one.

What a handoff makes its commands of comes from its caller and from the answers: the
checkout's root and the branch are what a shell printed.  All that decides which command is
next is whether an answer came, whether it was good, and whether it is one of a few fixed
texts.  As long as two handoffs get answers that are the same in this (`SteersAlike`), the
commands that they send are the same without their values (`prepare_alike`), and so have one
structure (`prepare_same_structures`).
-/
import Diri.Engine.Migrate
import Diri.Lib.Shell

namespace Diri

open List Option String

namespace RemoteCommand

open Shell (Escapes Lexer render outline skeleton)

/-- What is left of a path whose value is taken away: a tilde that the shell is to expand. -/
def pathForm (path : String) : String :=
  if path = "~" then path
  else if ("~/".toList.isPrefixOf? path.toList).isSome then "~/" else ""

/-- The command with its values taken away; an id that is not quoted is left. -/
def form : RemoteCommand → RemoteCommand
  | showToplevel cwd => showToplevel (pathForm cwd)
  | currentBranch _ => currentBranch ""
  | status _ => status ""
  | commitAll _ _ => commitAll "" ""
  | push _ _ => push "" ""
  | gitDir _ => gitDir ""
  | fetch _ _ => fetch "" ""
  | checkout _ _ => checkout "" ""
  | probeWorktree _ => probeWorktree ""
  | addWorktree _ _ _ => addWorktree "" "" ""
  | findTranscript _ _ uuid => findTranscript "" "" uuid
  | makeDir _ => makeDir ""
  | originOfCwd cwd => originOfCwd (pathForm cwd)
  | originOfRoot _ => originOfRoot ""
  | listRepos defaultCwd => listRepos (pathForm defaultCwd)
  | sweep targets => sweep (targets.map fun _ => "")
  | channel _ => channel ""

/-! ### The parts of a command -/

def fixed (text : String) : Shell.Part := .fixed text.toList

def value (content : String) : Shell.Part := .value content.toList

theorem fixed_ofList (text : List Char) : fixed (String.ofList text) = .fixed text := by
  rw [fixed, toList_ofList]

def pathParts (path : String) : List Shell.Part :=
  if path = "~" then [fixed "~"]
  else match "~/".toList.isPrefixOf? path.toList with
    | some rest => [fixed "~/", .value rest]
    | none => [value path]

def probeParts (uuid cwd : String) : List Shell.Part :=
  [fixed "if [ -f ", value (transcriptPath uuid cwd), fixed " ]; then echo ",
    value (transcriptPath uuid cwd), fixed "; exit 0; fi"]

def eachRepo : List Shell.Part :=
  [fixed "/*/; do ", fixed "[ -e \"$d/.git\" ] || continue; ",
    fixed "printf '%s\\t%s\\n' \"$(cd \"$d\" && pwd)\" ",
    fixed "\"$(git -C \"$d\" remote get-url origin 2>/dev/null)\"; ", fixed "done"]

def listPanes : List Shell.Part :=
  [fixed "if ! command -v tmux >/dev/null 2>&1; then printf 'diri-legacy no-tmux\\n'; exit 0; fi; ",
    fixed "tmux list-sessions -F 'diri-legacy pane #\x7bsession_name\x7d' 2>/dev/null || true; ",
    fixed "for target in "]

def endPanes : List Shell.Part :=
  [fixed "; do ", fixed "if tmux kill-session -t \"=$target\" >/dev/null 2>&1; then ",
    fixed "printf 'diri-legacy killed %s\\n' \"$target\"; ",
    fixed "else printf 'diri-legacy absent %s\\n' \"$target\"; fi; ", fixed "done"]

def parts : RemoteCommand → List Shell.Part
  | showToplevel cwd => fixed "cd " :: pathParts cwd ++ [fixed " && git rev-parse --show-toplevel"]
  | currentBranch root => [fixed "git -C ", value root, fixed " rev-parse --abbrev-ref HEAD"]
  | status root => [fixed "git -C ", value root, fixed " status --porcelain"]
  | commitAll root message =>
    [fixed "git -C ", value root, fixed " add -A && git -C ", value root, fixed " commit -m ",
      value message]
  | push root branch => [fixed "git -C ", value root, fixed " push -u origin ", value branch]
  | gitDir root => [fixed "git -C ", value root, fixed " rev-parse --absolute-git-dir"]
  | fetch root branch => [fixed "git -C ", value root, fixed " fetch origin ", value branch]
  | checkout root branch =>
    [fixed "git -C ", value root, fixed " checkout -B ", value branch, fixed " ",
      value ("origin/" ++ branch)]
  | probeWorktree path => [fixed "[ -e ", value path, fixed "/.git ] && echo yes || echo no"]
  | addWorktree mainClone branch path =>
    [fixed "git -C ", value mainClone, fixed " worktree add -B ", value branch, fixed " ",
      value path, fixed " ", value ("origin/" ++ branch)]
  | findTranscript sourceCwd recordCwd uuid =>
    probeParts uuid sourceCwd ++ fixed "; " :: probeParts uuid recordCwd
  | makeDir dir => [fixed "mkdir -p ", value dir]
  | originOfCwd cwd => fixed "cd " :: pathParts cwd ++ [fixed " && git remote get-url origin"]
  | originOfRoot root => [fixed "git -C ", value root, fixed " remote get-url origin"]
  | listRepos defaultCwd => fixed "for d in " :: pathParts defaultCwd ++ eachRepo
  | sweep targets => listPanes ++ (targets.map value).intersperse (fixed " ") ++ endPanes
  | channel script => [fixed "exec /bin/sh -c ", value script]

/-- Every place that may have a conversation; the id is not quoted here. -/
def everyPlace (uuid : String) : String :=
  "; ls -1 \"$HOME\"/.claude/projects/*/" ++ uuid ++ ".jsonl 2>/dev/null | head -n1"

/-- What follows the last value. -/
def rest : RemoteCommand → String
  | findTranscript _ _ uuid => everyPlace uuid
  | _ => ""

def escape : RemoteCommand → List Char
  | channel _ => "'\"'\"'".toList
  | _ => "'\\''".toList

variable (command : RemoteCommand)

theorem escapes : Escapes command.escape := by
  have hBackslash : Escapes "'\\''".toList := by
    have h : "'\\''".toList = ['\'', '\\', '\'', '\''] := rfl
    rw [h]
    exact Shell.escapes_backslash
  have hDouble : Escapes "'\"'\"'".toList := by
    have h : "'\"'\"'".toList = ['\'', '"', '\'', '"', '\''] := rfl
    rw [h]
    exact Shell.escapes_double
  cases command with
  | channel script => exact hDouble
  | _ => exact hBackslash

section Render

variable (escape : List Char)

theorem render_fixed (text : String) (parts : List Shell.Part) :
    render escape (fixed text :: parts) = text.toList ++ render escape parts := by
  unfold render
  rw [flatMap_cons, fixed, Shell.Part.render]

theorem render_value (content : String) (parts : List Shell.Part) :
    render escape (value content :: parts)
      = Shell.quoted escape content.toList ++ render escape parts := by
  unfold render
  rw [flatMap_cons, value, Shell.Part.render]

theorem render_nil : render escape [] = [] := by
  unfold render
  rw [flatMap_nil]

theorem render_append (parts parts' : List Shell.Part) :
    render escape (parts ++ parts') = render escape parts ++ render escape parts' :=
  flatMap_append

end Render

theorem toList_singleQuoted (escaped value : String) :
    (singleQuoted escaped value).toList = Shell.quoted escaped.toList value.toList := by
  simp [singleQuoted, Shell.quoted]

theorem toList_shellQuote (value : String) :
    (shellQuote value).toList = Shell.quoted "'\\''".toList value.toList :=
  toList_singleQuoted _ _

theorem toList_shellQuotePath (path : String) :
    (shellQuotePath path).toList = render "'\\''".toList (pathParts path) := by
  unfold shellQuotePath pathParts
  by_cases h : path = "~"
  · rw [if_pos h, if_pos h, h]
    rfl
  rw [if_neg h, if_neg h]
  cases "~/".toList.isPrefixOf? path.toList with
  | none =>
    simp only [render_value, render_nil, append_nil, toList_shellQuote]
  | some rest =>
    rw [render_fixed, toList_append, toList_shellQuote]
    simp only [render, flatMap_cons, flatMap_nil, Shell.Part.render, append_nil, toList_ofList]

theorem toList_transcriptProbe (uuid cwd : String) :
    (transcriptProbe uuid cwd).toList = render "'\\''".toList (probeParts uuid cwd) := by
  simp only [transcriptProbe, probeParts, render_fixed, render_value, render_nil,
    toList_append, toList_shellQuote, List.append_assoc, append_nil]

variable (targets : List String)

theorem toList_targets : (" ".intercalate (targets.map shellQuote)).toList
      = render "'\\''".toList ((targets.map value).intersperse (fixed " ")) := by
  induction targets with
  | nil => simp [render_nil]
  | cons target targets ih =>
    cases targets with
    | nil => simp [render_value, render_nil, toList_shellQuote]
    | cons next targets =>
      rw [map_cons, map_cons, String.intercalate_cons_cons, ← map_cons,
        toList_append, toList_append, ih]
      simp [render_value, render_fixed, toList_shellQuote]

theorem toList_text :
    command.text.toList = render command.escape command.parts ++ command.rest.toList := by
  cases command
  all_goals unfold text parts rest escape
  all_goals simp only [render_append, render_fixed, render_value, render_nil,
    toList_append, toList_shellQuote, toList_shellQuotePath, List.append_assoc,
    toList_empty, append_nil, cons_append]
  case findTranscript sourceCwd recordCwd uuid =>
    unfold everyPlace
    simp only [map_cons, map_nil, String.intercalate_cons_cons, String.intercalate_singleton,
      toList_append, toList_transcriptProbe, List.append_assoc]
  case listRepos defaultCwd =>
    unfold eachRepo
    simp only [render_fixed, render_nil, append_nil]
  case sweep targets =>
    unfold LegacyRemote.sweepCommand listPanes endPanes
    simp only [render_fixed, render_nil, toList_append, toList_targets, List.append_assoc,
      append_nil]
  case channel script =>
    unfold posixShellCommand
    rw [toList_append, toList_singleQuoted]

/-! ### What is left of them without the values -/

theorem escape_form : command.form.escape = command.escape := by
  cases command <;> rfl

theorem rest_form : command.form.rest = command.rest := by
  cases command <;> rfl

theorem erase_value (content : String) : (value content).erase = .value [] := rfl

theorem pathParts_tilde : pathParts "~/" = [fixed "~/", .value []] := by decide +kernel

theorem pathParts_form (path : String) :
    (pathParts (pathForm path)).map Shell.Part.erase = (pathParts path).map Shell.Part.erase := by
  by_cases h : path = "~"
  · simp only [pathForm, h, if_true]
  unfold pathForm
  rw [if_neg h]
  have hParts : pathParts path = match "~/".toList.isPrefixOf? path.toList with
      | some rest => [fixed "~/", Shell.Part.value rest]
      | none => [value path] := if_neg h
  rw [hParts]
  cases "~/".toList.isPrefixOf? path.toList with
  | none => rfl
  | some rest =>
    rw [isSome_some, if_pos rfl, pathParts_tilde]
    rfl

theorem map_intersperse {α β : Type} (f : α → β) (separator : α) (l : List α) :
    (l.intersperse separator).map f = (l.map f).intersperse (f separator) := by
  induction l with
  | nil => rfl
  | cons x l ih =>
    cases l with
    | nil => rfl
    | cons y l => simpa using ih

theorem parts_form :
    command.form.parts.map Shell.Part.erase = command.parts.map Shell.Part.erase := by
  cases command
  all_goals simp only [form, parts, probeParts, map_cons, map_append, map_nil,
    pathParts_form, erase_value, map_intersperse, List.map_map, Function.comp_def]

/-! ### Every command is read to its end -/

theorem pathForm_cases (path : String) :
    pathForm path = "~" ∨ pathForm path = "~/" ∨ pathForm path = "" := by
  unfold pathForm
  split
  · exact .inl (by assumption)
  split
  · exact .inr (.inl rfl)
  · exact .inr (.inr rfl)

theorem read_targets : ∀ (target : String) (lexer : Lexer), lexer.mode = .bare → lexer.nest = [] →
      ∃ text rest, lexer.read (((target :: targets).map value).intersperse (fixed " "))
        = some ⟨.bare, [], true, .text text :: rest⟩ := by
  induction targets with
  | nil =>
    intro target lexer hMode hNest
    obtain ⟨mode, nest, inWord, lexemes⟩ := lexer
    obtain rfl : mode = .bare := hMode
    obtain rfl : nest = [] := hNest
    cases lexemes with
    | nil => exact ⟨target.toList, [], rfl⟩
    | cons newest rest =>
      cases newest with
      | text before => exact ⟨before ++ target.toList, rest, rfl⟩
      | _ => exact ⟨target.toList, _, rfl⟩
  | cons next targets ih =>
    intro target lexer hMode hNest
    have hRead : lexer.read [value target, fixed " "]
        = some ((lexer.addText target.toList).add .blank false) := by
      have hBlank : (lexer.addText target.toList).readPart (fixed " ")
          = some ((lexer.addText target.toList).add .blank false) := by
        obtain ⟨mode, nest, inWord, lexemes⟩ := lexer
        obtain rfl : mode = .bare := hMode
        rfl
      rw [Lexer.read, value, Lexer.readPart, if_pos hMode, bind_some, Lexer.read, hBlank]
      rfl
    have hSplit : ((target :: next :: targets).map value).intersperse (fixed " ")
        = [value target, fixed " "] ++ ((next :: targets).map value).intersperse (fixed " ") := by
      simp
    rw [hSplit, Lexer.read_append, hRead]
    exact ih next _ hMode hNest

theorem isSome_outline_sweep : (outline (parts (sweep targets))).isSome := by
  obtain ⟨before, hStart⟩ : ∃ before,
      Lexer.read listPanes {} = some ⟨.bare, [], false, .blank :: before⟩ := by
    unfold listPanes
    repeat rw [fixed_ofList]
    exact ⟨_, rfl⟩
  unfold outline parts
  rw [Lexer.read_append, Lexer.read_append, hStart, bind_some]
  cases targets with
  | nil =>
    have hEnd : ((Lexer.read endPanes ⟨.bare, [], false, .blank :: before⟩).bind
        Lexer.finish).isSome := by
      unfold endPanes
      repeat rw [fixed_ofList]
      rfl
    rw [map_nil, intersperse_nil, Lexer.read, bind_some, isSome_map]
    exact hEnd
  | cons target targets =>
    obtain ⟨text, rest, hTargets⟩ :=
      read_targets targets target ⟨.bare, [], false, .blank :: before⟩ rfl rfl
    have hEnd : ((Lexer.read endPanes ⟨.bare, [], true, .text text :: rest⟩).bind
        Lexer.finish).isSome := by
      unfold endPanes
      repeat rw [fixed_ofList]
      rfl
    rw [hTargets, bind_some, isSome_map]
    exact hEnd

theorem isSome_outline : (outline command.parts).isSome := by
  rw [← Shell.outline_erase]
  cases command
  case sweep targets => rw [Shell.outline_erase]; exact isSome_outline_sweep targets
  all_goals simp only [parts, probeParts, map_cons, map_append, map_nil, erase_value]
  case showToplevel cwd =>
    rw [← pathParts_form]
    obtain h | h | h := pathForm_cases cwd <;> rw [h] <;> repeat rw [fixed_ofList]
    all_goals decide +kernel
  case originOfCwd cwd =>
    rw [← pathParts_form]
    obtain h | h | h := pathForm_cases cwd <;> rw [h] <;> repeat rw [fixed_ofList]
    all_goals decide +kernel
  case listRepos defaultCwd =>
    rw [← pathParts_form]
    obtain h | h | h := pathForm_cases defaultCwd <;> rw [h, eachRepo] <;> repeat rw [fixed_ofList]
    all_goals decide +kernel
  all_goals
    repeat rw [fixed_ofList]
    decide +kernel

theorem isSome_read : (Lexer.read command.parts {}).isSome := by
  have h := isSome_outline command
  unfold outline at h
  cases hRead : Lexer.read command.parts {} with
  | none => simp [hRead] at h
  | some lexer => rfl

theorem skeleton_form : skeleton command.form.text.toList = skeleton command.text.toList := by
  rw [toList_text, toList_text, escape_form, rest_form]
  exact Shell.skeleton_render_append command.escapes (parts_form command)
    (isSome_read command.form) _

theorem isSome_skeleton
    (h : ∀ sourceCwd recordCwd uuid, command ≠ findTranscript sourceCwd recordCwd uuid) :
    (skeleton command.text.toList).isSome := by
  have hRest : command.rest = "" := by
    cases command
    case findTranscript sourceCwd recordCwd uuid => exact absurd rfl (h _ _ _)
    all_goals rfl
  rw [toList_text, hRest, toList_empty, append_nil,
    Shell.skeleton_render command.escapes (isSome_outline command)]
  exact isSome_outline command

theorem lex_channel (script : String) : Shell.lex (channel script).text.toList
      = (Shell.lex "exec /bin/sh -c ".toList).map (· ++ [.text script.toList]) := by
  have hRead : Lexer.read (channel script).parts {}
      = (Lexer.feed "exec /bin/sh -c ".toList {}).map (Lexer.addText script.toList) := rfl
  obtain ⟨start, hStart, hFinish⟩ : ∃ start, Lexer.feed "exec /bin/sh -c ".toList {} = some start
      ∧ (start.addText script.toList).finish
        = start.finish.map (· ++ [.text script.toList]) := ⟨_, rfl, rfl⟩
  rw [hStart] at hRead
  have hRest : (channel script).rest = "" := rfl
  unfold Shell.lex
  rw [toList_text, hRest, toList_empty, append_nil,
    Lexer.feed_render (channel script).escapes hRead, hStart]
  exact hFinish

/-- Commands that are the same without their values have one structure.  Where no id stands
unquoted, that is one; and what a channel's shell reads is the script. -/
theorem same_structure (command other : RemoteCommand) (h : command.form = other.form) :
    skeleton command.text.toList = skeleton other.text.toList
      ∧ ((∀ sourceCwd recordCwd uuid, command ≠ findTranscript sourceCwd recordCwd uuid) →
          (skeleton command.text.toList).isSome)
      ∧ ∀ script, command = channel script → Shell.lex command.text.toList
            = (Shell.lex "exec /bin/sh -c ".toList).map (· ++ [.text script.toList]) := by
  refine ⟨?_, isSome_skeleton command, ?_⟩
  · rw [← skeleton_form command, h, skeleton_form other]
  · intro script hCommand
    rw [hCommand]
    exact lex_channel script

theorem same_structure_quotes : skeleton (push "/srv/app" "main").text.toList
        = skeleton (push "$(reboot)" "a'; rm -rf ~ #\n").text.toList
      ∧ (skeleton (push "/srv/app" "main").text.toList).isSome :=
  have h := same_structure (push "/srv/app" "main") (push "$(reboot)" "a'; rm -rf ~ #\n") rfl
  ⟨h.1, h.2.1 (by simp)⟩

/-- A tilde at the start of a path is left to the shell. -/
theorem tilde_expands : ¬ ∀ cwd other : String, '\x00' ∉ cwd.toList → '\x00' ∉ other.toList →
      skeleton (showToplevel cwd).text.toList = skeleton (showToplevel other).text.toList := by
  intro h
  have hSame := h "~/app" "app" (by decide) (by decide)
  revert hSame
  decide +kernel

end RemoteCommand

end Diri

namespace Diri

namespace Handoff

open Script (Together)

def SameCall (call other : ShellCall) : Prop :=
  call.host = other.host ∧ call.command.form = other.command.form

/-- The texts that are asked about are the same ones. -/
structure Steers (text other : String) : Prop where
  empty : text = "" ↔ other = ""
  head : text = "HEAD" ↔ other = "HEAD"
  yes : text = "yes" ↔ other = "yes"
  linked : linkedWorktree text = linkedWorktree other

variable (chars : CharClass)

def SteersAlike : Option ShellOutput → Option ShellOutput → Prop
  | none, none => True
  | some output, some other =>
    output.ok = other.ok ∧ Steers (trimmed chars output.stdout) (trimmed chars other.stdout)
  | _, _ => False

variable {α β γ δ : Type}

def Alike (R : α → β → Prop) (handoff : Handoff α) (other : Handoff β) : Prop :=
  Script.Alike SameCall (SteersAlike chars) (Together R) handoff.run other.run

namespace Alike

variable {chars} {R : α → β → Prop} {S : γ → δ → Prop}

theorem pure {a : α} {b : β} (h : R a b) : Alike chars R (Pure.pure a) (Pure.pure b) := .done h

theorem throw (e e' : MigrateError) :
    Alike chars R (MonadExcept.throw e : Handoff α) (MonadExcept.throw e' : Handoff β) :=
  .done trivial

theorem bind {s : Handoff α} {t : Handoff β} {f : α → Handoff γ} {g : β → Handoff δ}
    (h : Alike chars R s t) (hNext : ∀ a b, R a b → Alike chars S (f a) (g b)) :
    Alike chars S (s >>= f) (t >>= g) :=
  Script.Alike.bindExcept h hNext

theorem throw_bind (e e' : MigrateError) (f : α → Handoff γ) (g : β → Handoff δ) :
    Alike chars S (MonadExcept.throw e >>= f) (MonadExcept.throw e' >>= g) := .done trivial

theorem ite {p q : Prop} [Decidable p] [Decidable q] (hpq : p ↔ q) {s s' : Handoff α}
    {t t' : Handoff β} (hThen : Alike chars R s t) (hElse : Alike chars R s' t') :
    Alike chars R (if p then s else s') (if q then t else t') := by
  by_cases h : p
  · rw [if_pos h, if_pos (hpq.mp h)]
    exact hThen
  · rw [if_neg h, if_neg (h ∘ hpq.mpr)]
    exact hElse

end Alike

variable {chars} {host : Option HostEntry}

theorem runShell_alike {command other : RemoteCommand} (h : command.form = other.form) :
    Alike chars (SteersAlike chars) (runShell host command) (runShell host other) :=
  .ask ⟨rfl, h⟩ fun _ _ hAnswer => .done hAnswer

theorem require_alike {command other : RemoteCommand} (h : command.form = other.form)
    (message message' : String) : Alike chars Steers (require chars host command message)
      (require chars host other message') := by
  unfold require
  refine (runShell_alike h).bind ?_
  intro answer answer' hAnswer
  cases answer with
  | none =>
    cases answer' with
    | none => exact .throw _ _
    | some other => exact hAnswer.elim
  | some output =>
    cases answer' with
    | none => exact hAnswer.elim
    | some other =>
      obtain ⟨hOk, hText⟩ := hAnswer
      exact .ite (by rw [hOk]) (.pure hText) (.throw _ _)

theorem ensureTargetWorktree_alike (mainClone branch mainClone' branch' : String) :
    Alike chars (fun _ _ => True) (ensureTargetWorktree chars host mainClone branch)
      (ensureTargetWorktree chars host mainClone' branch') := by
  unfold ensureTargetWorktree
  dsimp only
  refine Alike.bind (runShell_alike (by rfl)) ?_
  intro answer answer' hAnswer
  cases answer with
  | none =>
    cases answer' with
    | none => exact .throw _ _
    | some other => exact hAnswer.elim
  | some probe =>
    cases answer' with
    | none => exact hAnswer.elim
    | some probe' =>
      refine .ite hAnswer.2.yes ?_ ?_
      · refine Alike.bind (require_alike (by rfl) _ _) fun status status' hStatus => ?_
        refine .ite (not_congr hStatus.empty) (.throw_bind _ _ _ _) ?_
        refine Alike.bind (require_alike (by rfl) _ _) fun _ _ _ => ?_
        exact Alike.bind (require_alike (by rfl) _ _) fun _ _ _ => .pure trivial
      · refine Alike.bind (require_alike (by rfl) _ _) fun _ _ _ => ?_
        exact Alike.bind (require_alike (by rfl) _ _) fun _ _ _ => .pure trivial

theorem syncTarget_alike (root branch root' branch' : String) :
    Alike chars (fun _ _ => True) (syncTarget chars host root branch)
      (syncTarget chars host root' branch') := by
  unfold syncTarget
  refine Alike.bind (require_alike (by rfl) _ _) fun status status' hStatus => ?_
  refine .ite (not_congr hStatus.empty) (.throw_bind _ _ _ _) ?_
  refine Alike.bind (require_alike (by rfl) _ _) fun _ _ _ => ?_
  exact Alike.bind (require_alike (by rfl) _ _) fun _ _ _ => .pure trivial

theorem commitWip_alike (root name root' name' : String) (now now' : UInt64) :
    Alike chars Eq (commitWip chars host root name now)
      (commitWip chars host root' name' now') := by
  unfold commitWip
  refine Alike.bind (require_alike (by rfl) _ _) fun status status' hStatus => ?_
  refine .ite hStatus.empty (.pure rfl) ?_
  exact Alike.bind (require_alike (by rfl) _ _) fun _ _ _ => .pure rfl

/-- Handoffs between the same machines send the same commands but for the values. -/
theorem prepare_alike {cwd cwd' : String} (hCwd : RemoteCommand.pathForm cwd
    = RemoteCommand.pathForm cwd') (sourceHost targetHost : Option HostEntry)
    (root name root' name' : String) (now now' : UInt64) :
    Alike chars (fun prepared prepared' => prepared.wipCommitted = prepared'.wipCommitted)
      (prepare chars cwd sourceHost targetHost root name now)
      (prepare chars cwd' sourceHost targetHost root' name' now') := by
  have hFirst : (RemoteCommand.showToplevel cwd).form = (RemoteCommand.showToplevel cwd').form :=
    congrArg RemoteCommand.showToplevel hCwd
  unfold prepare
  refine Alike.bind (require_alike hFirst _ _) fun sourceRoot sourceRoot' _ => ?_
  refine Alike.bind (require_alike (by rfl) _ _) fun branch branch' hBranch => ?_
  refine .ite hBranch.head (.throw_bind _ _ _ _) ?_
  refine Alike.bind (commitWip_alike _ _ _ _ _ _) fun wip wip' hWip => ?_
  refine Alike.bind (require_alike (by rfl) _ _) fun _ _ _ => ?_
  refine Alike.bind (require_alike (by rfl) _ _) fun gitDir gitDir' hGitDir => ?_
  refine .ite (by rw [hGitDir.linked]) ?_ ?_
  · exact Alike.bind (ensureTargetWorktree_alike _ _ _ _) fun _ _ _ => .pure hWip
  · exact Alike.bind (syncTarget_alike _ _ _ _) fun _ _ _ => .pure hWip

/-- What two handoffs send has, command for command, one structure, whatever the paths, the
branch and the names are. -/
theorem prepare_same_structures {cwd cwd' : String} (hCwd : RemoteCommand.pathForm cwd
    = RemoteCommand.pathForm cwd') (sourceHost targetHost : Option HostEntry)
    (root name root' name' : String) (now now' : UInt64)
    {answers answers' : List (Option ShellOutput)}
    (hAnswers : List.Forall₂ (SteersAlike chars) answers answers') :
    List.Forall₂ (fun call call' => call.host = call'.host
        ∧ Shell.skeleton call.command.text.toList = Shell.skeleton call'.command.text.toList)
      ((prepare chars cwd sourceHost targetHost root name now).run.asked answers)
      ((prepare chars cwd' sourceHost targetHost root' name' now').run.asked answers') := by
  have hAlike := @prepare_alike chars _ _ hCwd sourceHost targetHost root name root' name' now now'
  refine (Script.Alike.asked hAlike hAnswers).imp ?_
  intro call call' hCall
  refine ⟨hCall.1, ?_⟩
  rw [← RemoteCommand.skeleton_form, hCall.2, RemoteCommand.skeleton_form]

theorem prepare_same_structures_quoted : let chars : CharClass :=
      ⟨Char.isWhitespace, Char.isAlphanum, fun c => c.toNat < 32⟩
    let answers (root : String) : List (Option ShellOutput) := [some ⟨true, 0, root, ""⟩]
    List.Forall₂ (fun call call' => call.host = call'.host
        ∧ Shell.skeleton call.command.text.toList = Shell.skeleton call'.command.text.toList)
      ((prepare chars "/a" none none "/b" "c" 0).run.asked (answers "/a"))
      ((prepare chars "/a; ls" none none "$(id)" "'" 1).run.asked (answers "/a'; ls")) :=
  prepare_same_structures (by decide) none none _ _ _ _ _ _
    (.cons ⟨rfl, ⟨by decide, by decide, by decide, by decide⟩⟩ .nil)

end Handoff

end Diri
