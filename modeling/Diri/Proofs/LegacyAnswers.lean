/-
When a host's output settles its panes as it should.

One line that begins with the sentinel makes the whole output an answer, and every target
that the answer does not name is then taken to be absent.  So an output that ends early
settles panes that nothing was said about; the targets are settled as they should be when
there is no such line, when the host has no tmux, or when every target has a line of its own
(`answer_settles_iff`).
-/
import Diri.Lib.Cut
import Diri.Proofs.Legacy

namespace Diri

open List

namespace LegacyRemote

variable (chars : CharClass)

/-! ### The lines of an output -/

def outputLines (stdout : String) : List (List Char) :=
  (stdout.toList.splitOn '\n').map chars.trim

/-- The host's own line on a target. -/
def reportLine (verb target : String) : List Char :=
  (sentinel ++ verb ++ " " ++ target).toList

def noTmuxLine : List Char := (sentinel ++ "no-tmux").toList

def Reported (stdout target : String) : Prop :=
  reportLine "killed" target ∈ outputLines chars stdout
    ∨ reportLine "absent" target ∈ outputLines chars stdout

def NoTmux (stdout : String) : Prop := noTmuxLine ∈ outputLines chars stdout

/-- No line is one of the script's. -/
def Silent (stdout : String) : Prop :=
  ∀ line ∈ outputLines chars stdout, ¬sentinel.toList <+: line

/-! ### What is read from them -/

section Line

variable {chars} {sweep : Option HostSweep} {line : List Char}

/-- What follows the sentinel, read. -/
def readRest (rest : List Char) (sweep : HostSweep) : HostSweep :=
  match splitOnce rest with
  | some (verb, name) =>
    if verb = "pane".toList then { sweep with panes := sweep.panes ++ [String.ofList name] }
    else if verb = "killed".toList then
      { sweep with killed := sweep.killed ++ [String.ofList name] }
    else sweep
  | none => if rest = "no-tmux".toList then { sweep with noTmux := true } else sweep

theorem parseLine_eq (chars : CharClass) (sweep : Option HostSweep) (line : List Char) :
    parseLine chars sweep line = ((sentinel.toList.isPrefixOf? (chars.trim line)).elim sweep
      fun rest => some (readRest rest (sweep.getD {}))) := by
  unfold parseLine readRest
  cases sentinel.toList.isPrefixOf? (chars.trim line) with
  | none => rfl
  | some rest =>
    simp only [Option.elim_some]
    cases splitOnce rest with
    | none => rfl
    | some parts => simp only [apply_ite some]

theorem noTmux_readRest (rest : List Char) (sweep : HostSweep) :
    (readRest rest sweep).noTmux = true ↔ sweep.noTmux = true ∨ rest = "no-tmux".toList := by
  unfold readRest
  split
  · rename_i verb name hSplit
    have hOther : rest ≠ "no-tmux".toList := by
      rintro rfl
      cases hSplit
    rw [or_iff_left hOther]
    split
    · rfl
    · split <;> rfl
  split
  · rename_i h
    rw [h]
    simp
  · rename_i h
    rw [or_iff_left h]

theorem prefix_cases (line : List Char) :
    (sentinel.toList.isPrefixOf? line = none ∧ ¬sentinel.toList <+: line)
      ∨ ∃ rest, sentinel.toList.isPrefixOf? line = some rest ∧ line = sentinel.toList ++ rest := by
  cases hPrefix : sentinel.toList.isPrefixOf? line with
  | none =>
    refine .inl ⟨rfl, ?_⟩
    rintro ⟨rest, hRest⟩
    have hSome := List.isPrefixOf?_eq_some_iff_append_eq.mpr hRest
    rw [hPrefix] at hSome
    cases hSome
  | some rest => exact .inr ⟨rest, rfl, (append_eq_of_isPrefixOf?_eq_some hPrefix).symm⟩

theorem isSome_parseLine : (parseLine chars sweep line).isSome = true
      ↔ sweep.isSome = true ∨ sentinel.toList <+: chars.trim line := by
  rw [parseLine_eq]
  rcases prefix_cases (chars.trim line) with ⟨hNone, hNo⟩ | ⟨rest, hSome, hLine⟩
  · rw [hNone]
    exact (or_iff_left hNo).symm
  · rw [hSome, hLine]
    simp

theorem noTmux_parseLine : ((parseLine chars sweep line).getD {}).noTmux = true
      ↔ (sweep.getD {}).noTmux = true ∨ chars.trim line = noTmuxLine := by
  have hText : noTmuxLine = sentinel.toList ++ "no-tmux".toList := by
    simp [noTmuxLine]
  rw [parseLine_eq, hText]
  rcases prefix_cases (chars.trim line) with ⟨hNone, hNo⟩ | ⟨rest, hSome, hLine⟩
  · have hOther : chars.trim line ≠ sentinel.toList ++ "no-tmux".toList := fun h => hNo ⟨_, h.symm⟩
    rw [hNone]
    exact (or_iff_left hOther).symm
  · rw [hSome, hLine, append_cancel_left_eq]
    exact noTmux_readRest _ _

end Line

theorem foldl_iff {σ α : Type} {f : σ → α → σ} (P : σ → Prop) (Q : α → Prop)
    (hStep : ∀ s a, P (f s a) ↔ P s ∨ Q a) (list : List α) :
    ∀ s, P (list.foldl f s) ↔ P s ∨ ∃ a ∈ list, Q a := by
  induction list with
  | nil =>
    intro s
    simp
  | cons a list ih =>
    intro s
    rw [foldl_cons, ih, hStep, exists_mem_cons_iff, or_assoc]

section Output

variable {chars : CharClass} {stdout : String}

theorem mem_outputLines {line : List Char} : line ∈ outputLines chars stdout
      ↔ ∃ raw ∈ stdout.toList.splitOn '\n', chars.trim raw = line :=
  mem_map

theorem parseSweep_isSome : (parseSweep chars stdout).isSome = true ↔ ¬Silent chars stdout := by
  have hSome := foldl_iff (fun sweep : Option HostSweep => sweep.isSome = true)
    (fun raw => sentinel.toList <+: chars.trim raw) (fun sweep raw => isSome_parseLine)
    (stdout.toList.splitOn '\n') none
  unfold parseSweep Silent
  rw [hSome]
  simp [mem_outputLines]

theorem noTmux_parseSweep :
    ((parseSweep chars stdout).getD {}).noTmux = true ↔ NoTmux chars stdout := by
  have hNoTmux := foldl_iff (fun sweep : Option HostSweep => (sweep.getD {}).noTmux = true)
    (fun raw => chars.trim raw = noTmuxLine) (fun sweep raw => noTmux_parseLine)
    (stdout.toList.splitOn '\n') none
  unfold parseSweep NoTmux
  rw [hNoTmux, mem_outputLines]
  simp

end Output

/-! ### The panes of a host -/

/-- The output says what became of the target's pane. -/
def Definitive (stdout target : String) : Prop :=
  Reported chars stdout target ∨ NoTmux chars stdout

/-- A pane is settled as killed or absent only when the output says so; one of which nothing
is said is owed another try, as long as it has tries left. -/
structure SettledAsSaid (stdout : String) (target : String) (mark mark' : SessionMark) : Prop where
  settled : mark'.pane = some .killed ∨ mark'.pane = some .absent → Definitive chars stdout target
  owed : ¬Definitive chars stdout target →
    mark'.pane = if maxPaneAttempts ≤ mark.paneAttempts + 1 then some .gaveUp else mark.pane

variable {chars}

theorem unansweredMark_settledAsSaid {stdout target : String} {mark : SessionMark}
    (hOwed : mark.pane = none) : SettledAsSaid chars stdout target mark (unansweredMark mark) := by
  constructor
  · intro hSettled
    unfold unansweredMark at hSettled
    rw [hOwed] at hSettled
    split at hSettled <;> simp at hSettled
  · intro hNone
    rfl

/-- An answer settles a pane as it should when the output says something of the pane. -/
theorem answeredMark_settledAsSaid {stdout : String} {sweep : HostSweep} {pane : LegacyPane}
    {mark : SessionMark} (hSweep : parseSweep chars stdout = some sweep) :
    SettledAsSaid chars stdout pane.target mark (answeredMark sweep pane mark)
      ↔ Definitive chars stdout pane.target := by
  constructor
  · intro hSaid
    by_contra hNone
    have hTmux : sweep.noTmux = false := by
      have hNoTmux := @noTmux_parseSweep chars stdout
      rw [hSweep, Option.getD_some] at hNoTmux
      exact Bool.eq_false_iff.mpr fun h => hNone (.inr (hNoTmux.mp h))
    have hSettled : (answeredMark sweep pane mark).pane = some .killed
        ∨ (answeredMark sweep pane mark).pane = some .absent := by
      unfold answeredMark
      rw [hTmux]
      cases sweep.killed.contains pane.target with
      | true => exact .inl rfl
      | false => exact .inr rfl
    exact hNone (hSaid.settled hSettled)
  · intro hSaid
    exact ⟨fun _ => hSaid, fun hNone => absurd hSaid hNone⟩

/-- What an output makes of a mark. -/
def outputMark (chars : CharClass) (stdout : String) (pane : LegacyPane) (mark : SessionMark) :
    SessionMark :=
  (parseSweep chars stdout).elim (unansweredMark mark) fun sweep => answeredMark sweep pane mark

theorem retireHost_sessions {launch : LegacyLaunch} (accounted : List String)
    (progress : LegacyProgress) {group : String × List LegacyPane} {host : HostEntry}
    {output : ShellOutput} (hHost : launch.hosts.host group.1 = some host)
    (hRun : launch.run host (sweepCommand (group.2.map (·.target))) = some output) :
    (retireHost chars launch accounted progress group).marker.sessions
      = progress.marker.sessions.adjustEach (·.id) (outputMark chars output.stdout) group.2 := by
  unfold retireHost outputMark
  rw [hHost]
  simp only [hRun, Option.bind_some]
  cases parseSweep chars output.stdout with
  | none => exact sessions_foldl unanswered_sessions group.2 _
  | some sweep =>
    simp only [Option.elim_some]
    rw [(reportOrphans_frame _ _ _).1]
    exact sessions_foldl (fun _ _ => rfl) group.2 _

theorem outputMark_settledAsSaid {stdout : String} {pane : LegacyPane} {mark : SessionMark}
    (hOwed : mark.pane = none) :
    SettledAsSaid chars stdout pane.target mark (outputMark chars stdout pane mark)
      ↔ Silent chars stdout ∨ Definitive chars stdout pane.target := by
  unfold outputMark
  cases hSweep : parseSweep chars stdout with
  | none =>
    have hSilent : Silent chars stdout := by
      by_contra h
      have hSome := parseSweep_isSome.mpr h
      rw [hSweep] at hSome
      cases hSome
    exact iff_of_true (unansweredMark_settledAsSaid hOwed) (.inl hSilent)
  | some sweep =>
    have hSpoke : ¬Silent chars stdout := by
      apply parseSweep_isSome.mp
      rw [hSweep]
      rfl
    rw [or_iff_right hSpoke]
    exact answeredMark_settledAsSaid hSweep

/-- Each pane of a host is settled as it should be exactly if the output has no line of the
script's at all, or has the pane's own line or the host's word that there is no tmux. -/
theorem answer_settles_iff (chars : CharClass) (launch : LegacyLaunch) (accounted : List String)
    (progress : LegacyProgress) (group : String × List LegacyPane) (host : HostEntry)
    (output : ShellOutput) (hHost : launch.hosts.host group.1 = some host)
    (hRun : launch.run host (sweepCommand (group.2.map (·.target))) = some output)
    (hIds : (group.2.map (·.id)).Nodup) :
    ∀ pane ∈ group.2, ∀ mark, progress.marker.sessions.lookup pane.id = some mark →
      mark.pane = none →
        ∃ mark', (retireHost chars launch accounted progress group).marker.sessions.lookup pane.id
              = some mark' ∧ (SettledAsSaid chars output.stdout pane.target mark mark'
                ↔ Silent chars output.stdout ∨ Definitive chars output.stdout pane.target) := by
  intro pane hPane mark hMark hOwed
  refine ⟨outputMark chars output.stdout pane mark, ?_, outputMark_settledAsSaid hOwed⟩
  rw [retireHost_sessions accounted progress hHost hRun, Table.lookup_adjustEach_of_mem hIds hPane,
    hMark, Option.map_some]

/-- A launch whose host is cut off after the first line of its output. -/
def cutOffLaunch : LegacyLaunch :=
  { legacyLaunch "s_4b99600fd4f1" with
    run := fun _ _ => some ⟨false, 255, "diri-legacy pane diri-4b99600f\n", "Connection reset"⟩ }

/-- The remote half of that launch, as it begins. -/
def cutOffProgress : LegacyProgress where
  marker := { sessions := (∅ : Table SessionId SessionMark).insert "s_4b99600fd4f1" ⟨0, none, 0⟩ }
  registry := cutOffLaunch.registry

def cutOffPane : LegacyPane := ⟨"s_4b99600fd4f1", "diri-4b99600f"⟩

theorem answer_settles_cutOff : ∃ mark', (retireHost asciiChars cutOffLaunch [] cutOffProgress
          ("forge", [cutOffPane])).marker.sessions.lookup "s_4b99600fd4f1" = some mark'
        ∧ (SettledAsSaid asciiChars "diri-legacy pane diri-4b99600f\n" "diri-4b99600f"
              ⟨0, none, 0⟩ mark' ↔ Silent asciiChars "diri-legacy pane diri-4b99600f\n"
              ∨ Definitive asciiChars "diri-legacy pane diri-4b99600f\n" "diri-4b99600f") :=
  answer_settles_iff asciiChars cutOffLaunch [] cutOffProgress ("forge", [cutOffPane])
    { id := "forge", ssh := "developer@forge" }
    ⟨false, 255, "diri-legacy pane diri-4b99600f\n", "Connection reset"⟩ (by decide) rfl
    (by decide) cutOffPane (by decide) ⟨0, none, 0⟩ (by decide) rfl

/-- The pane that is said to be there is settled as absent. -/
theorem cut_off_output_settles :
    ((retireLegacyRemoteSessions asciiChars (fun _ _ => false) {} cutOffLaunch).1.sessions.lookup
        "s_4b99600fd4f1").map (·.pane) = some (some .absent)
      ∧ ¬Definitive asciiChars "diri-legacy pane diri-4b99600f\n" "diri-4b99600f" := by
  constructor
  · decide +kernel
  · unfold Definitive Reported NoTmux
    decide +kernel

end LegacyRemote

end Diri
