/-
The words of a simple command.

Blanks part the lexemes of a command into words; a command that has an operator, a
substitution or a second line is not simple and has none here.  A word becomes a field of
what is run by losing its quotes, after a tilde in front of it has been expanded; one that
has a parameter or an unquoted pattern may become other fields and is answered by none.

The central fact is that quoted values with blanks between them are read back as these values
(`fields_quotedAll`).
-/
import Diri.Lib.Shell

namespace Diri

open Option List

namespace Shell

def Lexeme.ofWord : Lexeme → Bool
  | bare _ => true
  | text _ => true
  | parameter _ _ => true
  | _ => false

def split (lexemes : List Lexeme) : Option (List (List Lexeme)) :=
  if lexemes.all fun lexeme => lexeme.ofWord || lexeme == .blank then
    some ((lexemes.splitOn .blank).filter fun word => !word.isEmpty)
  else none

def words (text : List Char) : Option (List (List Lexeme)) := (lex text).bind split

/-- Unquoted, the character makes a word stand for the names of files. -/
def isPattern (c : Char) : Bool := "*?[".toList.contains c

/-- The lexemes without their quotes, where nothing in them is expanded. -/
def literal : List Lexeme → Option (List Char)
  | [] => some []
  | .bare c :: rest => if isPattern c then none else (literal rest).map (c :: ·)
  | .text content :: rest => (literal rest).map (content ++ ·)
  | _ => none

/-- The field that a word becomes; a tilde before a slash stands for the home directory. -/
def field (home : List Char) : List Lexeme → Option (List Char)
  | [.bare '~'] => some home
  | .bare '~' :: .bare '/' :: rest => (literal rest).map fun rest => home ++ '/' :: rest
  | .bare '~' :: _ => none
  | word => literal word

/-- What is run, and its arguments. -/
def fields (home text : List Char) : Option (List (List Char)) :=
  (words text).bind fun words => words.mapM (field home)

/-! ### A quoted value -/

section Quoted

variable {escape : List Char} (hEscape : Escapes escape) {before : List Char} {lexer : Lexer}
  (hBefore : Lexer.feed before {} = some lexer) (hMode : lexer.mode = .bare)
  (hNest : lexer.nest = []) (value : List Char)

include hEscape hBefore hMode hNest

/-- A quoted value at an unquoted place adds its text, and the command may end there. -/
theorem lex_append_quoted :
    lex (before ++ quoted escape value) = some (addText value lexer.lexemes).reverse := by
  unfold lex
  rw [Lexer.feed_append, hBefore, bind_some, Lexer.feed_quoted hEscape hMode, bind_some]
  unfold Lexer.finish
  have hAddedMode : (lexer.addText value).mode = .bare := hMode
  have hAddedNest : (lexer.addText value).nest = [] := hNest
  rw [hAddedMode, hAddedNest]
  rfl

theorem words_append_quoted :
    words (before ++ quoted escape value) = split (addText value lexer.lexemes).reverse := by
  unfold words
  rw [lex_append_quoted hEscape hBefore hMode hNest]
  rfl

end Quoted

variable {escape : List Char}

/-- A quoted value is one word, which is its text. -/
theorem words_quoted (hEscape : Escapes escape) (value : List Char) :
    words (quoted escape value) = some [[.text value]] := by
  have hStart : Lexer.feed [] {} = some {} := rfl
  exact words_append_quoted hEscape hStart rfl rfl value

/-! ### Quoted values -/

/-- The values in quotes, with blanks between them. -/
def quotedAll (escape : List Char) (values : List (List Char)) : List Char :=
  [' '].intercalate (values.map (quoted escape))

def blanks (values : List (List Char)) : List Lexeme :=
  [.blank].intercalate (values.map fun value => [.text value])

theorem blanks_cons_cons (value next : List Char) (values : List (List Char)) :
    blanks (value :: next :: values) = .text value :: .blank :: blanks (next :: values) := by
  simp [blanks]

/-- Text that is read now begins a piece of its own. -/
def Lexer.Apart (lexer : Lexer) : Prop := ∀ content, lexer.lexemes.head? ≠ some (.text content)

theorem addText_apart {lexer : Lexer} (h : lexer.Apart) (content : List Char) :
    addText content lexer.lexemes = .text content :: lexer.lexemes := by
  unfold Lexer.Apart at h
  unfold addText
  split
  · rename_i before rest hLexemes
    rw [hLexemes] at h
    exact absurd rfl (h before)
  · rfl

theorem feed_quotedAll (hEscape : Escapes escape) (values : List (List Char)) :
    ∀ {lexer : Lexer}, lexer.mode = .bare → lexer.Apart →
      ∃ last, lexer.feed (quotedAll escape values) = some last ∧ last.mode = .bare
        ∧ last.nest = lexer.nest ∧ last.lexemes = (blanks values).reverse ++ lexer.lexemes := by
  induction values with
  | nil =>
    intro lexer hMode hApart
    exact ⟨lexer, rfl, hMode, rfl, rfl⟩
  | cons value values ih =>
    intro lexer hMode hApart
    have hRead := Lexer.feed_quoted hEscape hMode value
    have hAdded : (lexer.addText value).lexemes = .text value :: lexer.lexemes :=
      addText_apart hApart value
    cases values with
    | nil =>
      refine ⟨lexer.addText value, ?_, hMode, rfl, ?_⟩
      · simpa [quotedAll] using hRead
      · rw [hAdded]
        rfl
    | cons next values =>
      have hBlank : (lexer.addText value).feed [' ']
          = some ((lexer.addText value).add .blank false) := by
        simp [Lexer.feed, Lexer.step, Lexer.stepBare, hMode, backquote]
      have hNext : ((lexer.addText value).add .blank false).Apart := by
        intro content
        simp [Lexer.add]
      have hNextMode : ((lexer.addText value).add .blank false).mode = .bare := hMode
      obtain ⟨last, hFeed, hLast, hNest, hLexemes⟩ := ih hNextMode hNext
      refine ⟨last, ?_, hLast, hNest, ?_⟩
      · have hText : quotedAll escape (value :: next :: values)
            = quoted escape value ++ ([' '] ++ quotedAll escape (next :: values)) := by
          simp [quotedAll]
        rw [hText, Lexer.feed_append, hRead, bind_some, Lexer.feed_append, hBlank, bind_some, hFeed]
      · rw [hLexemes, blanks_cons_cons]
        simp [Lexer.add, hAdded]

theorem mem_blanks {lexeme : Lexeme} {values : List (List Char)} (h : lexeme ∈ blanks values) :
    lexeme = .blank ∨ ∃ value, lexeme = .text value := by
  induction values with
  | nil => simp [blanks] at h
  | cons value values ih =>
    cases values with
    | nil => exact .inr ⟨value, by simpa [blanks] using h⟩
    | cons next values =>
      rw [blanks_cons_cons, mem_cons, mem_cons] at h
      rcases h with h | h | h
      · exact .inr ⟨value, h⟩
      · exact .inl h
      · exact ih h

theorem split_blanks (values : List (List Char)) :
    split (blanks values) = some (values.map fun value => [.text value]) := by
  have hAll : ∀ lexeme ∈ blanks values, (lexeme.ofWord || lexeme == .blank) = true := by
    intro lexeme hMem
    rcases mem_blanks hMem with rfl | ⟨value, rfl⟩
    · rfl
    · rfl
  unfold split
  rw [if_pos (all_eq_true.mpr hAll)]
  congr 1
  cases values with
  | nil => rfl
  | cons value values =>
    have hSplit : (blanks (value :: values)).splitOn .blank
        = (value :: values).map fun value => [.text value] :=
      splitOn_intercalate Lexeme.blank (by simp) (by simp)
    rw [hSplit]
    simp

theorem words_quotedAll (hEscape : Escapes escape) (values : List (List Char)) :
    words (quotedAll escape values) = some (values.map fun value => [.text value]) := by
  have hStart : ({} : Lexer).Apart := by
    intro content
    simp
  obtain ⟨last, hFeed, hMode, hNest, hLexemes⟩ := feed_quotedAll hEscape values rfl hStart
  have hFinish : last.finish = some (blanks values) := by
    unfold Lexer.finish
    rw [hMode, hNest, hLexemes]
    simp
  unfold words lex
  rw [hFeed, bind_some, hFinish, bind_some, split_blanks]

/-- Quoted values with blanks between them are read back as these values. -/
theorem fields_quotedAll (hEscape : Escapes escape) (home : List Char)
    (values : List (List Char)) : fields home (quotedAll escape values) = some values := by
  have hField : ∀ value, field home [.text value] = some value := by
    intro value
    simp [field, literal]
  unfold fields
  rw [words_quotedAll hEscape, bind_some]
  induction values with
  | nil => rfl
  | cons value values ih => simp [hField, ih]

end Shell

end Diri
