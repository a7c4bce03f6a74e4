/-
Quoted values are read back by a shell as what they were.

Either quote makes one word, all of which is literal (`OneWord`); a path keeps its tilde in
front of the quotes.  A script that is wrapped for the login shell is the one argument of
`/bin/sh -c`, so the shell inside has exactly the script as its input (`innerScript`), and by
induction on the levels any number of shells inside one another does (`innerScripts_iterate`).
-/
import Diri.Lib.Words
import Diri.Proofs.Migrate

namespace Diri

open RemoteCommand

open Shell (Escapes Lexer quoted words fields)

/-- The text is one word for a shell, nothing of which is expanded. -/
structure OneWord (text value : String) : Prop where
  words : words text.toList = some [[.text value.toList]]
  fields : ∀ home, fields home text.toList = some [value.toList]

/-- The input of the shell that a command replaces its own shell by. -/
def innerScript (home : List Char) (command : String) : Option String :=
  match fields home command.toList with
  | some [exec, shell, option, script] =>
    if exec = "exec".toList ∧ shell = "/bin/sh".toList ∧ option = "-c".toList then
      some (String.ofList script)
    else none
  | _ => none

/-- The input of the innermost of so many shells. -/
def innerScripts (home : List Char) : Nat → String → Option String
  | 0, script => some script
  | levels + 1, command => (innerScript home command).bind (innerScripts home levels)

theorem escapes_shellQuote : Escapes "'\\''".toList := RemoteCommand.escapes (.status "")

theorem escapes_ssh : Escapes "'\"'\"'".toList := RemoteCommand.escapes (.channel "")

theorem toList_sshShellQuote (value : String) :
    (Ssh.shellQuote value).toList = quoted "'\"'\"'".toList value.toList :=
  toList_singleQuoted _ _

theorem oneWord_quoted {escape : List Char} (hEscape : Escapes escape) {text value : String}
    (hText : text.toList = quoted escape value.toList) : OneWord text value := by
  constructor
  · rw [hText]
    exact Shell.words_quoted hEscape _
  · intro home
    have hOne : Shell.quotedAll escape [value.toList] = quoted escape value.toList := by
      simp [Shell.quotedAll]
    rw [hText, ← hOne]
    exact Shell.fields_quotedAll hEscape home _

theorem oneWord_shellQuote (value : String) : OneWord (shellQuote value) value :=
  oneWord_quoted escapes_shellQuote (toList_shellQuote value)

theorem oneWord_sshShellQuote (value : String) : OneWord (Ssh.shellQuote value) value :=
  oneWord_quoted escapes_ssh (toList_sshShellQuote value)

/-! ### Paths -/

theorem shellQuotePath_tilde (rest : String) :
    shellQuotePath ("~/" ++ rest) = "~/" ++ shellQuote rest := by
  have hLonger : "~/" ++ rest ≠ "~" := by
    intro h
    have hLists := congrArg String.toList h
    simp at hLists
  have hRest : "~/".toList.isPrefixOf? ("~/" ++ rest).toList = some rest.toList := by
    simp [List.isPrefixOf?]
  unfold shellQuotePath
  rw [if_neg hLonger, hRest]
  simp

theorem shellQuotePath_other {path : String} (hTilde : path ≠ "~")
    (hHome : ∀ rest, path ≠ "~/" ++ rest) : shellQuotePath path = shellQuote path := by
  unfold shellQuotePath
  rw [if_neg hTilde]
  split
  · rename_i rest hRest
    have hPath : path = "~/" ++ String.ofList rest := by
      have hLists := List.append_eq_of_isPrefixOf?_eq_some hRest
      apply String.toList_inj.mp
      simp [← hLists]
    exact absurd hPath (hHome _)
  · rfl

theorem words_tilde (rest : String) :
    words ("~/" ++ shellQuote rest).toList = some [[.bare '~', .bare '/', .text rest.toList]] := by
  obtain ⟨lexer, hBefore, hMode, hNest, hSplit⟩ : ∃ lexer,
      Lexer.feed "~/".toList {} = some lexer ∧ lexer.mode = .bare ∧ lexer.nest = []
        ∧ ∀ value, Shell.split (Shell.addText value lexer.lexemes).reverse
            = some [[.bare '~', .bare '/', .text value]] :=
    ⟨_, rfl, rfl, rfl, fun _ => rfl⟩
  rw [String.toList_append, toList_shellQuote,
    Shell.words_append_quoted escapes_shellQuote hBefore hMode hNest, hSplit]

/-! ### Scripts -/

theorem fields_posixShellCommand (home : List Char) (script : String) :
    fields home (posixShellCommand script).toList
      = some ["exec".toList, "/bin/sh".toList, "-c".toList, script.toList] := by
  have hWords : words (posixShellCommand script).toList
      = some ["exec".toList.map .bare, "/bin/sh".toList.map .bare, "-c".toList.map .bare,
          [.text script.toList]] := by
    obtain ⟨lexer, hBefore, hMode, hNest, hSplit⟩ : ∃ lexer,
        Lexer.feed "exec /bin/sh -c ".toList {} = some lexer ∧ lexer.mode = .bare
          ∧ lexer.nest = [] ∧ ∀ value, Shell.split (Shell.addText value lexer.lexemes).reverse
            = some ["exec".toList.map .bare, "/bin/sh".toList.map .bare, "-c".toList.map .bare,
                [.text value]] :=
      ⟨_, rfl, rfl, rfl, fun _ => rfl⟩
    unfold posixShellCommand
    rw [String.toList_append, toList_singleQuoted,
      Shell.words_append_quoted escapes_ssh hBefore hMode hNest, hSplit]
  unfold fields
  rw [hWords]
  simp [Shell.field, Shell.literal, Shell.isPattern]

theorem innerScript_posixShellCommand (home : List Char) (script : String) :
    innerScript home (posixShellCommand script) = some script := by
  unfold innerScript
  rw [fields_posixShellCommand]
  simp

theorem innerScripts_iterate (home : List Char) (levels : Nat) :
    ∀ script : String, innerScripts home levels (Nat.iterate posixShellCommand levels script)
      = some script := by
  induction levels with
  | zero =>
    intro script
    rfl
  | succ levels ih =>
    intro script
    rw [Function.iterate_succ_apply', innerScripts, innerScript_posixShellCommand, Option.bind_some]
    exact ih script

/-- A script that is a list of quoted values. -/
def quotedScript (quote : String → String) (values : List String) : String :=
  " ".intercalate (values.map quote)

theorem fields_quotedScript {escape : List Char} (hEscape : Escapes escape)
    {quote : String → String} (hQuote : ∀ value, (quote value).toList = quoted escape value.toList)
    (home : List Char) (values : List String) :
    fields home (quotedScript quote values).toList = some (values.map String.toList) := by
  have hText : (quotedScript quote values).toList
      = Shell.quotedAll escape (values.map String.toList) := by
    simp [quotedScript, Shell.quotedAll, String.toList_intercalate, hQuote, Function.comp_def]
  rw [hText]
  exact Shell.fields_quotedAll hEscape home _

/-- Either quote makes one word of any value, and a path's tilde stays outside.  However many
shells a script is wrapped for, the innermost has the script as its input; and one that is
made of quoted values runs these. -/
theorem quoting_round_trip (s : String) : OneWord (shellQuote s) s ∧ OneWord (Ssh.shellQuote s) s
      ∧ words (shellQuotePath "~").toList = some [[.bare '~']]
      ∧ words (shellQuotePath ("~/" ++ s)).toList = some [[.bare '~', .bare '/', .text s.toList]]
      ∧ (s ≠ "~" → (∀ rest, s ≠ "~/" ++ rest) → OneWord (shellQuotePath s) s)
      ∧ ∀ home, fields home (posixShellCommand s).toList
            = some ["exec".toList, "/bin/sh".toList, "-c".toList, s.toList]
          ∧ ∀ levels, innerScripts home levels (Nat.iterate posixShellCommand levels s) = some s
              ∧ ∀ values quote, quote = shellQuote ∨ quote = Ssh.shellQuote →
                  (innerScripts home levels
                      (Nat.iterate posixShellCommand levels (quotedScript quote values))).bind
                    (fields home ·.toList) = some (values.map String.toList) := by
  refine ⟨oneWord_shellQuote s, oneWord_sshShellQuote s, rfl, ?_, ?_, ?_⟩
  · rw [shellQuotePath_tilde]
    exact words_tilde s
  · intro hTilde hHome
    rw [shellQuotePath_other hTilde hHome]
    exact oneWord_shellQuote s
  intro home
  refine ⟨fields_posixShellCommand home s, ?_⟩
  intro levels
  refine ⟨innerScripts_iterate home levels s, ?_⟩
  intro values quote hQuote
  rw [innerScripts_iterate, Option.bind_some]
  rcases hQuote with rfl | rfl
  · exact fields_quotedScript escapes_shellQuote toList_shellQuote home values
  · exact fields_quotedScript escapes_ssh toList_sshShellQuote home values

end Diri
