/-
Programs that ask.

A script ends with a result, or asks a question and goes on with the answer to it.  Given a
list of answers it asks one question after the other, until it ends or has used them up
(`asked`).  Two scripts are alike if they ask related questions as long as they get related
answers, and then end with related results; what the two ask is then related one for one,
however far they get (`Alike.asked`).  A script that may fail is alike another if the two
fail together (`Alike.bindExcept`).

A protocol says which questions may be asked in each mode, and the mode after each answer.
A script that keeps to it asks no other question, whatever it is answered, and says of its
result what goes with the mode it ends in (`Keeps`).  A mode may also be whether the answers
have been good ones so far (`Protocol.assuming`).
-/
import Mathlib.Data.List.Forall2

namespace Diri

open List

/-- A program that asks questions of one type and gets answers of another. -/
inductive Script (Question Answer α : Type)
  | done (result : α)
  | ask (question : Question) (next : Answer → Script Question Answer α)

namespace Script

variable {Question Answer ε α β γ δ : Type}

def bind (script : Script Question Answer α) (f : α → Script Question Answer β) :
    Script Question Answer β :=
  match script with
  | done result => f result
  | ask question next => ask question fun answer => (next answer).bind f

instance : Monad (Script Question Answer) where
  pure := done
  bind := bind

/-- What is asked; the last question is the one that is not answered any more. -/
def asked : Script Question Answer α → List Answer → List Question
  | done _, _ => []
  | ask question _, [] => [question]
  | ask question next, answer :: answers => question :: (next answer).asked answers

/-- The questions that are answered, with their answers. -/
def exchanged : Script Question Answer α → List Answer → List (Question × Answer)
  | done _, _ => []
  | ask _ _, [] => []
  | ask question next, answer :: answers =>
    (question, answer) :: (next answer).exchanged answers

theorem asked_of_exchanged {script : Script Question Answer α} {answers : List Answer}
    {exchange : Question × Answer} (h : exchange ∈ script.exchanged answers) :
    exchange.1 ∈ script.asked answers := by
  induction script generalizing answers with
  | done result => cases h
  | ask question next ih =>
    cases answers with
    | nil => cases h
    | cons answer answers =>
      rcases mem_cons.mp h with rfl | h
      · exact mem_cons_self
      · exact mem_cons_of_mem _ (ih answer h)

/-- A script in a world that answers every question, and may change by it. -/
def play {World : Type} (world : World → Question → World × Answer) :
    World → Script Question Answer α → World × α
  | s, done result => (s, result)
  | s, ask question next => (next (world s question).2).play world (world s question).1

section Alike

variable (Q : Question → Question → Prop) (A : Answer → Answer → Prop)

inductive Alike (R : α → β → Prop) :
    Script Question Answer α → Script Question Answer β → Prop
  | done {a : α} {b : β} (h : R a b) : Alike R (.done a) (.done b)
  | ask {question question' : Question} {next : Answer → Script Question Answer α}
      {next' : Answer → Script Question Answer β} (hQuestion : Q question question')
      (hNext : ∀ answer answer', A answer answer' → Alike R (next answer) (next' answer')) :
      Alike R (.ask question next) (.ask question' next')

/-- Both fail, or the results are related. -/
def Together (R : α → β → Prop) : Except ε α → Except ε β → Prop
  | .ok a, .ok b => R a b
  | .error _, .error _ => True
  | _, _ => False

end Alike

namespace Alike

variable {Q : Question → Question → Prop} {A : Answer → Answer → Prop} {R : α → β → Prop}
  {S : γ → δ → Prop}

theorem bind {s : Script Question Answer α} {t : Script Question Answer β}
    {f : α → Script Question Answer γ} {g : β → Script Question Answer δ} (h : Alike Q A R s t)
    (hNext : ∀ a b, R a b → Alike Q A S (f a) (g b)) : Alike Q A S (s.bind f) (t.bind g) := by
  induction h with
  | done h => exact hNext _ _ h
  | ask hQuestion _ ih => exact .ask hQuestion fun answer answer' hAnswer => ih _ _ hAnswer

theorem bindExcept {s : ExceptT ε (Script Question Answer) α}
    {t : ExceptT ε (Script Question Answer) β} {f : α → ExceptT ε (Script Question Answer) γ}
    {g : β → ExceptT ε (Script Question Answer) δ} (h : Alike Q A (Together R) s.run t.run)
    (hNext : ∀ a b, R a b → Alike Q A (Together S) (f a).run (g b).run) :
    Alike Q A (Together S) (s >>= f).run (t >>= g).run := by
  refine bind h ?_
  intro a b hab
  cases a with
  | ok a =>
    cases b with
    | ok b => exact hNext a b hab
    | error e => exact hab.elim
  | error e =>
    cases b with
    | ok b => exact hab.elim
    | error e' => exact .done trivial

/-- Scripts that are alike, and get related answers, ask related questions. -/
theorem asked {s : Script Question Answer α} {t : Script Question Answer β} (h : Alike Q A R s t) :
    ∀ {answers answers' : List Answer}, List.Forall₂ A answers answers' →
      List.Forall₂ Q (s.asked answers) (t.asked answers') := by
  induction h with
  | done h => intro answers answers' hAnswers; exact .nil
  | ask hQuestion _ ih =>
    intro answers answers' hAnswers
    cases hAnswers with
    | nil => exact .cons hQuestion .nil
    | cons hAnswer hRest => exact .cons hQuestion (ih _ _ hAnswer hRest)

end Alike

/-! ### Protocols -/

/-- What may be asked when. -/
structure Protocol (Question Answer Mode : Type) where
  allows : Mode → Question → Prop
  next : Mode → Question → Answer → Mode

/-- As long as it is answered as it should be, a script asks what it should. -/
def Protocol.assuming (answers : Question → Answer → Prop) (asks : Question → Prop) :
    Protocol Question Answer Prop where
  allows heard question := heard → asks question
  next heard question answer := heard ∧ answers question answer

/-- From this mode on, the script asks what is allowed, and ends as it should. -/
def Keeps {Mode : Type} (P : Protocol Question Answer Mode) (ends : Mode → α → Prop) :
    Mode → Script Question Answer α → Prop
  | mode, .done result => ends mode result
  | mode, .ask question next =>
    P.allows mode question ∧ ∀ answer, Keeps P ends (P.next mode question answer) (next answer)

namespace Keeps

variable {Mode : Type} {P : Protocol Question Answer Mode} {mode : Mode}

variable {ends : Mode → α → Prop} {s : Script Question Answer α}

/-- Whatever it is answered, the script asks only what some mode allows. -/
theorem asked (h : Keeps P ends mode s)
    {answers : List Answer} {question : Question} (hasked : question ∈ s.asked answers) :
    ∃ mode, P.allows mode question := by
  induction s generalizing mode answers with
  | done result => cases hasked
  | ask first next ih =>
    cases answers with
    | nil =>
      obtain rfl := mem_singleton.mp hasked
      exact ⟨mode, h.1⟩
    | cons answer answers =>
      rcases mem_cons.mp hasked with rfl | hrest
      · exact ⟨mode, h.1⟩
      · exact ih answer (h.2 answer) hrest

theorem bind {ends' : Mode → β → Prop} {f : α → Script Question Answer β} (h : Keeps P ends mode s)
    (hNext : ∀ mode result, ends mode result → Keeps P ends' mode (f result)) :
    Keeps P ends' mode (s.bind f) := by
  induction s generalizing mode with
  | done result => exact hNext mode result h
  | ask question next ih => exact ⟨h.1, fun answer => ih answer (h.2 answer)⟩

/-- A script that is answered as it should be asks what it should. -/
theorem of_exchanged {good : Question → Answer → Prop} {asks : Question → Prop}
    {ends : Prop → α → Prop} {heard : Prop}
    (h : Keeps (.assuming good asks) ends heard s) (hheard : heard) {answers : List Answer}
    (hanswers : ∀ exchange ∈ s.exchanged answers, good exchange.1 exchange.2) :
    ∀ question ∈ s.asked answers, asks question := by
  induction s generalizing heard answers with
  | done result => exact fun _ hasked => nomatch hasked
  | ask first next ih =>
    intro question hasked
    cases answers with
    | nil =>
      obtain rfl := mem_singleton.mp hasked
      exact h.1 hheard
    | cons answer answers =>
      rcases mem_cons.mp hasked with rfl | hrest
      · exact h.1 hheard
      · exact ih answer (h.2 answer) ⟨hheard, hanswers _ mem_cons_self⟩
          (fun exchange hmem => hanswers exchange (mem_cons_of_mem _ hmem)) _ hrest

/-- What is to hold at the end of a script that may fail. -/
def Either (ends : Mode → α → Prop) (fails : Mode → Prop) (mode : Mode) : Except ε α → Prop
  | .ok result => ends mode result
  | .error _ => fails mode

theorem bindExcept (ends : Mode → α → Prop) {ends' : Mode → β → Prop} {fails : Mode → Prop}
    {s : ExceptT ε (Script Question Answer) α} {f : α → ExceptT ε (Script Question Answer) β}
    (h : Keeps P (Either ends fails) mode s.run)
    (hNext : ∀ mode result, ends mode result → Keeps P (Either ends' fails) mode (f result).run) :
    Keeps P (Either ends' fails) mode (s >>= f).run := by
  refine bind h fun mode result hresult => ?_
  cases result with
  | ok result => exact hNext mode result hresult
  | error e => exact hresult

/-- A failure is handled in the mode that it left. -/
theorem tryCatch {fails fails' : Mode → Prop}
    {s : ExceptT ε (Script Question Answer) α} {f : ε → ExceptT ε (Script Question Answer) α}
    (h : Keeps P (Either ends fails) mode s.run)
    (hCatch : ∀ mode e, fails mode → Keeps P (Either ends fails') mode (f e).run) :
    Keeps P (Either ends fails') mode (tryCatch s f).run := by
  refine bind h fun mode result hresult => ?_
  cases result with
  | ok result => exact hresult
  | error e => exact hCatch mode e hresult

end Keeps

end Script

end Diri
