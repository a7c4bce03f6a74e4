/-
How a POSIX shell splits a command into tokens.

The lexer reads one character after the other and keeps its mode (unquoted, in either kind
of quotes, after a backslash, in an expansion) and what encloses it.  What it reads is a
list of lexemes, in which quoted text stands as one piece.  The words, operators,
redirections and expansions of the command can be told from it, and quoted text is never
any of these; so two commands whose lexemes differ in quoted text alone have one parse.
`skeleton` is the list with that text left out.

Not read, and answered by none: here-documents, backquotes, parameters in braces,
arithmetic, a dollar that starts no expansion, and text that ends inside quotes, an
expansion or parentheses.

The central facts are that the lexer never looks at the quoted text it has read
(`feed_congr`), and that a value quoted by a rule that escapes it reads as one piece of
quoted text, from any unquoted place (`feed_quoted`).  A command made of fixed text and such
values, each met at an unquoted place, thus has one skeleton for all values
(`skeleton_render`).
-/
import Mathlib.Data.List.Basic

namespace Diri

open List Option

namespace Shell

inductive Lexeme
  /-- An unquoted character of a word. -/
  | bare (c : Char)
  /-- Quoted text of a word. -/
  | text (content : List Char)
  | parameter (quoted : Bool) (name : List Char)
  /-- The start and the end of a command substitution. -/
  | opens (quoted : Bool)
  | closes
  /-- One character of an operator. -/
  | operator (c : Char)
  | blank
  | newline
  deriving DecidableEq, Repr

def Lexeme.erase : Lexeme → Lexeme
  | text _ => text []
  | lexeme => lexeme

inductive Mode
  | bare
  | single
  | double
  | escaped
  | escapedDouble
  | dollar (quoted : Bool)
  | name (quoted : Bool) (name : List Char)
  | comment
  deriving DecidableEq, Repr

/-- What an unquoted place may be enclosed in. -/
inductive Nest
  | paren
  | substitution (quoted : Bool)
  deriving DecidableEq, Repr

structure Lexer where
  mode : Mode := .bare
  nest : List Nest := []
  inWord : Bool := false
  /-- Newest first. -/
  lexemes : List Lexeme := []
  deriving DecidableEq, Repr

def isNameStart (c : Char) : Bool := c.isAlpha || c = '_'

def isNameChar (c : Char) : Bool := c.isAlphanum || c = '_'

def isSpecialParameter (c : Char) : Bool := c.isDigit || "@*#?-$!".toList.contains c

def backquote : Char := Char.ofNat 96

/-- Quoted text that follows quoted text goes on with it. -/
def addText (content : List Char) : List Lexeme → List Lexeme
  | .text before :: rest => .text (before ++ content) :: rest
  | lexemes => .text content :: lexemes

namespace Lexer

def addText (content : List Char) (lexer : Lexer) : Lexer :=
  { lexer with lexemes := Shell.addText content lexer.lexemes, inWord := true }

def add (lexeme : Lexeme) (inWord : Bool) (lexer : Lexer) : Lexer :=
  { lexer with lexemes := lexeme :: lexer.lexemes, inWord := inWord }

/-- Back to where an expansion began. -/
def resume (quoted : Bool) (lexer : Lexer) : Lexer :=
  { lexer with mode := if quoted then .double else .bare }

def lastIs (lexeme : Lexeme) (lexer : Lexer) : Bool := lexer.lexemes.head? = some lexeme

def stepBare (lexer : Lexer) (c : Char) : Option Lexer :=
  if c = '\'' then some { lexer.addText [] with mode := .single }
  else if c = '"' then some { lexer.addText [] with mode := .double }
  else if c = '\\' then some { lexer with mode := .escaped }
  else if c = '$' then some { lexer with mode := .dollar false }
  else if c = backquote then none
  else if c = ' ' ∨ c = '\t' then some (lexer.add .blank false)
  else if c = '\n' then some (lexer.add .newline false)
  else if c = '#' ∧ lexer.inWord = false then some { lexer with mode := .comment }
  else if c = '(' then
    if lexer.lastIs (.opens true) || lexer.lastIs (.opens false) then none
    else some { lexer.add (.operator c) false with nest := .paren :: lexer.nest }
  else if c = ')' then
    match lexer.nest with
    | .substitution quoted :: nest =>
      some ({ lexer.add .closes true with nest := nest }.resume quoted)
    | nest => some { lexer.add (.operator c) false with nest := nest.tail }
  else if c = '<' ∧ lexer.lastIs (.operator '<') = true then none
  else if ";&|<>".toList.contains c then some (lexer.add (.operator c) false)
  else some (lexer.add (.bare c) true)

def stepDouble (lexer : Lexer) (c : Char) : Option Lexer :=
  if c = '"' then some { lexer with mode := .bare }
  else if c = '\\' then some { lexer with mode := .escapedDouble }
  else if c = '$' then some { lexer with mode := .dollar true }
  else if c = backquote then none
  else some (lexer.addText [c])

def step (lexer : Lexer) (c : Char) : Option Lexer :=
  match lexer.mode with
  | .bare => lexer.stepBare c
  | .single => some (if c = '\'' then { lexer with mode := .bare } else lexer.addText [c])
  | .double => lexer.stepDouble c
  | .escaped =>
    -- a backslash before the end of a line takes that away
    let lexer := { lexer with mode := .bare }
    some (if c = '\n' then lexer else lexer.addText [c])
  | .escapedDouble =>
    let lexer := { lexer with mode := .double }
    some (if c = '\n' then lexer
      else if "$`\"\\".toList.contains c then lexer.addText [c] else lexer.addText ['\\', c])
  | .dollar quoted =>
    if c = '(' then
      some { lexer.add (.opens quoted) false with
        mode := .bare, nest := .substitution quoted :: lexer.nest }
    else if isNameStart c then some { lexer with mode := .name quoted [c] }
    else if isSpecialParameter c then
      some ((lexer.add (.parameter quoted [c]) true).resume quoted)
    else none
  | .name quoted name =>
    if isNameChar c then some { lexer with mode := .name quoted (name ++ [c]) }
    else
      let lexer := (lexer.add (.parameter quoted name) true).resume quoted
      if quoted then lexer.stepDouble c else lexer.stepBare c
  | .comment =>
    some (if c = '\n' then { lexer.add .newline false with mode := .bare } else lexer)

def feed (text : List Char) (lexer : Lexer) : Option Lexer := text.foldlM step lexer

/-- The lexemes, if the text may end here. -/
def finish (lexer : Lexer) : Option (List Lexeme) :=
  match lexer.mode, lexer.nest with
  | .bare, [] => some lexer.lexemes.reverse
  | .comment, [] => some lexer.lexemes.reverse
  | .name false name, [] => some (.parameter false name :: lexer.lexemes).reverse
  | _, _ => none

/-- The lexer without the quoted text that it has read. -/
def erased (lexer : Lexer) : Lexer := { lexer with lexemes := lexer.lexemes.map Lexeme.erase }

end Lexer

def lex (text : List Char) : Option (List Lexeme) := (Lexer.feed text {}).bind Lexer.finish

/-- The structure of a command: its lexemes without the quoted text. -/
def skeleton (text : List Char) : Option (List Lexeme) :=
  (lex text).map (·.map Lexeme.erase)

/-! ### Quoted text is not looked at -/

@[simp] theorem Lexeme.erase_erase (lexeme : Lexeme) : lexeme.erase.erase = lexeme.erase := by
  cases lexeme <;> rfl

@[simp] theorem Lexeme.erase_comp_erase : Lexeme.erase ∘ Lexeme.erase = Lexeme.erase :=
  funext Lexeme.erase_erase

theorem addText_append (before content : List Char) (lexemes : List Lexeme) :
    addText content (addText before lexemes) = addText (before ++ content) lexemes := by
  cases lexemes with
  | nil => rfl
  | cons newest rest => cases newest <;> simp [addText, append_assoc]

theorem map_erase_addText (content : List Char) (lexemes : List Lexeme) :
    (addText content lexemes).map Lexeme.erase = addText [] (lexemes.map Lexeme.erase) := by
  cases lexemes with
  | nil => rfl
  | cons newest rest => cases newest <;> rfl

namespace Lexer

section Erased

variable (lexer : Lexer)

@[simp] theorem mode_erased : lexer.erased.mode = lexer.mode := rfl

@[simp] theorem nest_erased : lexer.erased.nest = lexer.nest := rfl

@[simp] theorem inWord_erased : lexer.erased.inWord = lexer.inWord := rfl

@[simp] theorem lexemes_erased : lexer.erased.lexemes = lexer.lexemes.map Lexeme.erase := rfl

@[simp] theorem erased_addText (content : List Char) :
    (lexer.addText content).erased = lexer.erased.addText [] := by
  simp [erased, addText, map_erase_addText]

theorem map_ite_congr {α β : Type} {f : α → β} {p : Prop} [Decidable p] {x x' y y' : Option α}
    (hx : x.map f = x'.map f) (hy : y.map f = y'.map f) :
    (if p then x else y).map f = (if p then x' else y').map f := by
  split
  · exact hx
  · exact hy

theorem bind_congr {α β γ δ : Type} {f : α → β} {g : γ → δ} {next next' : α → Option γ}
    (hNext : ∀ {a b : α}, f a = f b → (next a).map g = (next' b).map g) {x y : Option α}
    (h : x.map f = y.map f) : (x.bind next).map g = (y.bind next').map g := by
  cases x with
  | none =>
    cases y with
    | none => rfl
    | some b => simp at h
  | some a =>
    cases y with
    | none => simp at h
    | some b => exact hNext (by simpa using h)

theorem lastIs_erased (lexeme : Lexeme) (other : ∀ content, lexeme ≠ .text content) :
    lexer.erased.lastIs lexeme = lexer.lastIs lexeme := by
  unfold lastIs
  cases hl : lexer.lexemes with
  | nil => simp [hl]
  | cons newest rest => cases newest <;> simp_all [Lexeme.erase, eq_comm]

theorem erased_stepBare (c : Char) :
    (lexer.erased.stepBare c).map erased = (lexer.stepBare c).map erased := by
  have hTrue := lexer.lastIs_erased (.opens true) (by simp)
  have hFalse := lexer.lastIs_erased (.opens false) (by simp)
  have hHere := lexer.lastIs_erased (.operator '<') (by simp)
  unfold stepBare
  rw [hTrue, hFalse, hHere, inWord_erased, nest_erased]
  refine map_ite_congr ?_ (map_ite_congr ?_ (map_ite_congr ?_ (map_ite_congr ?_ (map_ite_congr ?_
    (map_ite_congr ?_ (map_ite_congr ?_ (map_ite_congr ?_ (map_ite_congr (map_ite_congr ?_ ?_)
    (map_ite_congr ?_ (map_ite_congr ?_ (map_ite_congr ?_ ?_)))))))))))
  all_goals simp only [erased, addText, add, resume, map_some, map_cons, List.map_map,
    Lexeme.erase_comp_erase, map_erase_addText]
  cases lexer.nest with
  | nil => simp [erased]
  | cons inner nest => cases inner <;> simp [erased]

theorem erased_stepDouble (c : Char) :
    (lexer.erased.stepDouble c).map erased = (lexer.stepDouble c).map erased := by
  refine map_ite_congr ?_ (map_ite_congr ?_ (map_ite_congr ?_ (map_ite_congr rfl ?_)))
  all_goals simp [erased, addText, map_erase_addText]

/-- A step does what it does whatever the quoted text so far is. -/
theorem erased_step (c : Char) : (lexer.erased.step c).map erased = (lexer.step c).map erased := by
  unfold step
  rw [mode_erased]
  split
  · exact lexer.erased_stepBare c
  · simp only [map_some]
    split <;> simp [erased, addText, map_erase_addText]
  · exact lexer.erased_stepDouble c
  · simp only [map_some]
    split <;> simp [erased, addText, map_erase_addText]
  · simp only [map_some]
    split
    · simp [erased]
    · split <;> simp [erased, addText, map_erase_addText]
  · refine map_ite_congr ?_ (map_ite_congr ?_ (map_ite_congr ?_ rfl))
    all_goals simp [erased, add, resume]
  · rename_i quoted name hm
    refine map_ite_congr ?_ ?_
    · simp [erased]
    have hResumed : (lexer.erased.add (.parameter quoted name) true).resume quoted
        = ((lexer.add (.parameter quoted name) true).resume quoted).erased := rfl
    rw [hResumed]
    refine map_ite_congr ?_ ?_
    · exact erased_stepDouble _ c
    · exact erased_stepBare _ c
  · simp only [map_some]
    split <;> simp [erased, add]

end Erased

theorem feed_cons (c : Char) (text : List Char) (lexer : Lexer) :
    lexer.feed (c :: text) = (lexer.step c).bind (feed text) := rfl

theorem feed_append (first second : List Char) (lexer : Lexer) :
    lexer.feed (first ++ second) = (lexer.feed first).bind (feed second) := by
  unfold feed
  rw [foldlM_append]
  rfl

/-- Lexers that have the same but for quoted text go on to be so. -/
theorem feed_congr {text : List Char} : ∀ {s t : Lexer}, s.erased = t.erased →
      (s.feed text).map erased = (t.feed text).map erased := by
  induction text with
  | nil => intro s t h; simpa [feed] using h
  | cons c text ih =>
    intro s t h
    have hStep : (s.step c).map erased = (t.step c).map erased := by
      rw [← erased_step s, h, erased_step t]
    exact bind_congr ih hStep

theorem finish_congr {s t : Lexer} (h : s.erased = t.erased) :
    s.finish.map (·.map Lexeme.erase) = t.finish.map (·.map Lexeme.erase) := by
  obtain ⟨hMode, hNest, -, hLexemes⟩ := Lexer.mk.inj h
  unfold finish
  rw [hMode, hNest]
  split <;> simp [hLexemes]

end Lexer

/-- What follows two texts that read alike is read alike. -/
theorem skeleton_append_congr {first second : List Char}
    (h : (Lexer.feed first {}).map Lexer.erased = (Lexer.feed second {}).map Lexer.erased)
    (rest : List Char) : skeleton (first ++ rest) = skeleton (second ++ rest) := by
  unfold skeleton lex
  rw [Lexer.feed_append, Lexer.feed_append]
  exact Lexer.bind_congr Lexer.finish_congr (Lexer.bind_congr Lexer.feed_congr h)

/-! ### Quoting -/

/-- The value between single quotes, each single quote of its own replaced. -/
def quoted (escape value : List Char) : List Char :=
  '\'' :: value.flatMap (fun c => if c = '\'' then escape else [c]) ++ ['\'']

/-- Read between single quotes, the text stands for a single quote. -/
def Escapes (escape : List Char) : Prop :=
  ∀ lexer : Lexer, lexer.mode = .single → lexer.feed escape = some (lexer.addText ['\''])

namespace Lexer

@[simp] theorem mode_addText (content : List Char) (lexer : Lexer) :
    (lexer.addText content).mode = lexer.mode := rfl

theorem addText_addText (before content : List Char) (lexer : Lexer) :
    (lexer.addText before).addText content = lexer.addText (before ++ content) := by
  simp [addText, addText_append]

end Lexer

/-- Quotes closed, a quote behind a backslash, and quotes opened. -/
theorem escapes_backslash : Escapes ['\'', '\\', '\'', '\''] := by
  intro lexer hMode
  simp [Lexer.step, Lexer.stepBare, hMode, Lexer.feed, Lexer.addText, addText_append]

/-- Quotes closed, a quote in double quotes, and quotes opened. -/
theorem escapes_double : Escapes ['\'', '"', '\'', '"', '\''] := by
  intro lexer hMode
  simp [Lexer.step, Lexer.stepBare, Lexer.stepDouble, hMode, Lexer.feed,
    Lexer.addText, addText_append, backquote]

namespace Lexer

/-- Between the quotes the whole value is read as text. -/
theorem feed_inside {escape : List Char} (hEscape : Escapes escape) {value : List Char} :
    ∀ {lexer : Lexer}, lexer.mode = .single → ∀ before : List Char,
      (lexer.addText before).feed (value.flatMap fun c => if c = '\'' then escape else [c])
        = some (lexer.addText (before ++ value)) := by
  induction value with
  | nil => intro lexer hMode before; simp [feed]
  | cons c value ih =>
    intro lexer hMode before
    have hHead : (lexer.addText before).feed (if c = '\'' then escape else [c])
        = some (lexer.addText (before ++ [c])) := by
      by_cases hc : c = '\''
      · have hAdded : (lexer.addText before).mode = .single := hMode
        rw [if_pos hc, hEscape _ hAdded, addText_addText, hc]
      · rw [if_neg hc, ← addText_addText]
        simp [feed, step, hMode, hc]
    rw [flatMap_cons, feed_append, hHead, bind_some, ih hMode]
    simp

/-- A quoted value is read as one piece of text, from any unquoted place. -/
theorem feed_quoted {escape : List Char} (hEscape : Escapes escape) {lexer : Lexer}
    (hMode : lexer.mode = .bare) (value : List Char) :
    lexer.feed (quoted escape value) = some (lexer.addText value) := by
  have hOpen : lexer.step '\'' = some (({ lexer with mode := .single } : Lexer).addText []) := by
    simp [step, stepBare, hMode, addText]
  unfold quoted
  rw [cons_append, feed_cons, hOpen, bind_some, feed_append, feed_inside hEscape rfl]
  simp [feed, step, addText, ← hMode]

end Lexer

/-! ### Commands with quoted values -/

inductive Part
  | fixed (text : List Char)
  | value (content : List Char)
  deriving DecidableEq, Repr

def Part.erase : Part → Part
  | fixed text => fixed text
  | value _ => value []

def Part.render (escape : List Char) : Part → List Char
  | fixed text => text
  | value content => quoted escape content

def render (escape : List Char) (parts : List Part) : List Char :=
  parts.flatMap (Part.render escape)

namespace Lexer

/-- A value has to stand at an unquoted place. -/
def readPart (part : Part) (lexer : Lexer) : Option Lexer :=
  match part with
  | .fixed text => lexer.feed text
  | .value content => if lexer.mode = .bare then some (lexer.addText content) else none

def read (parts : List Part) (lexer : Lexer) : Option Lexer :=
  match parts with
  | [] => some lexer
  | part :: parts => (lexer.readPart part).bind (read parts)

theorem read_append (first second : List Part) :
    ∀ lexer : Lexer, lexer.read (first ++ second) = (lexer.read first).bind (read second) := by
  induction first with
  | nil => intro lexer; rfl
  | cons part first ih =>
    intro lexer
    have hRest : read (first ++ second) = fun lexer => (lexer.read first).bind (read second) :=
      funext ih
    rw [cons_append, read, hRest, read, bind_assoc]

theorem feed_readPart {escape : List Char} (hEscape : Escapes escape) {part : Part}
    {s t : Lexer} (h : s.readPart part = some t) : s.feed (part.render escape) = some t := by
  cases part with
  | fixed text => exact h
  | value content =>
    simp only [readPart, ite_none_right_eq_some, Option.some.injEq] at h
    rw [← h.2]
    exact feed_quoted hEscape h.1 content

theorem feed_render {escape : List Char} (hEscape : Escapes escape) {parts : List Part} :
    ∀ {s t : Lexer}, s.read parts = some t → s.feed (render escape parts) = some t := by
  induction parts with
  | nil => intro s t h; exact h
  | cons part parts ih =>
    intro s t h
    obtain ⟨middle, hPart, hRest⟩ := Option.bind_eq_some_iff.mp h
    unfold render
    rw [flatMap_cons, feed_append, feed_readPart hEscape hPart]
    exact ih hRest

theorem readPart_congr {part part' : Part} (hPart : part.erase = part'.erase) {s t : Lexer}
    (h : s.erased = t.erased) : (s.readPart part).map erased = (t.readPart part').map erased := by
  have hMode : s.mode = t.mode := (Lexer.mk.inj h).1
  cases part with
  | fixed text =>
    cases part' with
    | fixed text' =>
      obtain rfl : text = text' := by simpa [Part.erase] using hPart
      exact feed_congr h
    | value content => simp [Part.erase] at hPart
  | value content =>
    cases part' with
    | fixed text => simp [Part.erase] at hPart
    | value content' =>
      unfold readPart
      rw [hMode]
      refine map_ite_congr ?_ rfl
      simp [h]

/-- Parts that are the same but for the values are read alike. -/
theorem read_congr {parts : List Part} :
    ∀ {parts' : List Part}, parts.map Part.erase = parts'.map Part.erase →
      ∀ {s t : Lexer}, s.erased = t.erased →
        (s.read parts).map erased = (t.read parts').map erased := by
  induction parts with
  | nil =>
    intro parts' hParts s t h
    obtain rfl : parts' = [] := by simpa using hParts.symm
    simpa [read] using h
  | cons part parts ih =>
    intro parts' hParts s t h
    cases parts' with
    | nil => simp at hParts
    | cons part' parts' =>
      simp only [map_cons, List.cons.injEq] at hParts
      exact bind_congr (ih hParts.2) (readPart_congr hParts.1 h)

end Lexer

/-- The structure of a command, told from its parts. -/
def outline (parts : List Part) : Option (List Lexeme) :=
  (((Lexer.read parts {}).bind Lexer.finish)).map (·.map Lexeme.erase)

theorem outline_congr {parts parts' : List Part}
    (h : parts.map Part.erase = parts'.map Part.erase) : outline parts = outline parts' :=
  Lexer.bind_congr Lexer.finish_congr (Lexer.read_congr h rfl)

@[simp] theorem Part.erase_erase (part : Part) : part.erase.erase = part.erase := by
  cases part <;> rfl

/-- The values do not matter to it. -/
theorem outline_erase (parts : List Part) : outline (parts.map Part.erase) = outline parts := by
  apply outline_congr
  simp

/-- Commands of one outline have one structure, whatever their values are. -/
theorem skeleton_render {escape : List Char} (hEscape : Escapes escape) {parts : List Part}
    (h : (outline parts).isSome) : skeleton (render escape parts) = outline parts := by
  unfold outline at h ⊢
  cases hRead : Lexer.read parts {} with
  | none => simp [hRead] at h
  | some lexer =>
    unfold skeleton lex
    rw [Lexer.feed_render hEscape hRead]

/-- The same for a command of which what follows its values may be any text. -/
theorem skeleton_render_append {escape : List Char} (hEscape : Escapes escape)
    {parts parts' : List Part} (h : parts.map Part.erase = parts'.map Part.erase)
    (hRead : (Lexer.read parts {}).isSome) (rest : List Char) :
    skeleton (render escape parts ++ rest) = skeleton (render escape parts' ++ rest) := by
  have hAlike := Lexer.read_congr h (rfl : ({} : Lexer).erased = ({} : Lexer).erased)
  obtain ⟨s, hs⟩ := Option.isSome_iff_exists.mp hRead
  rw [hs, map_some, eq_comm, map_eq_some_iff] at hAlike
  obtain ⟨t, ht, hst⟩ := hAlike
  refine skeleton_append_congr ?_ rest
  rw [Lexer.feed_render hEscape hs, Lexer.feed_render hEscape ht]
  simp [hst]

end Shell

end Diri
