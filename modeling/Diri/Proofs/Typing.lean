/-
What a terminal receives of a pasted text.

A terminal that has asked for markers takes everything between them for pasted text.  So it
receives a text whole just where the end marker is not in it; and only then are the keys it
sees typed those that the session has sent as keys.
-/
import Diri.Lib.Delimited
import Diri.Engine.Typing

namespace Diri

open List

namespace Typing

/-- A terminal in bracketed-paste mode. -/
def terminal : Delimiters UInt8 := ⟨pasteStart, pasteEnd⟩

theorem pasteEnd_unbordered : Unbordered pasteEnd := by decide

theorem pasteText_frame (text : String) : pasteText true text = terminal.frame (utf8 text) := by
  simp only [pasteText, if_true, utf8_append]
  rfl

def Input.sent : Input → Delimiters.Send UInt8
  | .paste text => .quote (utf8 text)
  | .submit => .plain 0x0d
  | .clearLine => .plain 0x15

def Input.heard (input : Input) : Heard UInt8 := input.sent.heard

theorem bytes_sent (input : Input) : input.bytes true = input.sent.stream terminal := by
  cases input with
  | paste text => exact pasteText_frame text
  | submit | clearLine => rfl

theorem sent_plainly (input : Input) : input.sent.Plainly terminal := by
  cases input with
  | paste text => trivial
  | submit | clearLine =>
    intro h
    cases h

theorem receive_inputs_iff (inputs : List Input) :
    terminal.receive (inputs.flatMap (Input.bytes true)) = inputs.map Input.heard ↔
      ∀ text, .paste text ∈ inputs → ¬pasteEnd <:+: utf8 text := by
  have hstream : inputs.flatMap (Input.bytes true) =
      (inputs.map Input.sent).flatMap (Delimiters.Send.stream terminal) := by
    rw [flatMap_map]
    exact congrArg (inputs.flatMap ·) (funext bytes_sent)
  have hheard : inputs.map Input.heard = (inputs.map Input.sent).map Delimiters.Send.heard := by
    rw [map_map]
    rfl
  rw [hstream, hheard, Delimiters.receive_sends_iff (by decide) (by decide) pasteEnd_unbordered]
  · constructor
    · intro hfree text htext
      exact hfree _ (mem_map_of_mem htext)
    · intro hfree send hsend
      obtain ⟨input, hinput, rfl⟩ := mem_map.mp hsend
      cases input with
      | paste text => exact hfree text hinput
      | submit | clearLine => trivial
  intro send hsend
  obtain ⟨input, -, rfl⟩ := mem_map.mp hsend
  exact sent_plainly input

/-! ### The injector -/

/-- No text but the prompt is pasted. -/
def pastesOnly (prompt : String) : Script.Protocol Ask EchoOutcome Unit where
  allows _ question := ∀ text, question = .input (.paste text) → text = prompt
  next mode _ _ := mode

/-- The injector pastes the prompt, if anything. -/
abbrev Pastes {α : Type} (prompt : String) (script : Injector α) : Prop :=
  Script.Keeps (pastesOnly prompt) (fun _ _ => True) () script

variable {prompt : String}

theorem Pastes.bind {α β : Type} {script : Injector α} {f : α → Injector β}
    (h : Pastes prompt script) (hnext : ∀ result, Pastes prompt (f result)) :
    Pastes prompt (script >>= f) :=
  Script.Keeps.bind h fun _ result _ => hnext result

theorem Pastes.done : Pastes prompt (pure () : Injector Unit) := trivial

theorem pastes_ask {question : Ask} (h : ∀ text, question = .input (.paste text) → text = prompt) :
    Pastes prompt (ask question) := ⟨h, fun _ => trivial⟩

theorem submitTypedPrompt_pastes (rounds : Nat) : Pastes prompt (submitTypedPrompt rounds) := by
  induction rounds with
  | zero => exact Pastes.done
  | succ rounds ih =>
    refine Pastes.bind (pastes_ask (by simp)) fun there => ?_
    split
    · exact Pastes.done
    refine Pastes.bind (pastes_ask (by simp)) fun released => ?_
    split
    · exact Pastes.done
    · exact ih

theorem typePrompt_pastes (attempts : Nat) : Pastes prompt (typePrompt prompt attempts) := by
  induction attempts with
  | zero => exact Pastes.done
  | succ attempts ih =>
    refine Pastes.bind (pastes_ask (by simp)) fun before => ?_
    split
    · exact Pastes.done
    refine Pastes.bind (pastes_ask (by simp +contextual)) fun there => ?_
    split
    · exact Pastes.done
    refine Pastes.bind (pastes_ask (by simp)) fun echo => ?_
    cases echo with
    | gone => exact Pastes.done
    | visible => exact submitTypedPrompt_pastes 2
    | missing =>
      refine Pastes.bind (pastes_ask (by simp)) fun there => ?_
      split
      · exact Pastes.done
      refine Pastes.bind (pastes_ask (by simp)) fun landed => ?_
      split
      · exact Pastes.done
      refine Pastes.bind (pastes_ask (by simp)) fun there => ?_
      split
      · exact Pastes.done
      refine Pastes.bind (pastes_ask (by simp)) fun slept => ?_
      split
      · exact Pastes.done
      · exact ih

/-- Whatever the injector finds on the screen, it pastes the prompt, if anything. -/
theorem injected_paste {attempts : Nat} {answers : List EchoOutcome} {text : String}
    (h : .paste text ∈ inputs ((injectInitialPrompt prompt attempts).asked answers)) :
    text = prompt := by
  have hpastes : Pastes prompt (injectInitialPrompt prompt attempts) := by
    refine Pastes.bind (pastes_ask (by simp)) fun ready => ?_
    split
    · exact Pastes.done
    · exact typePrompt_pastes attempts
  obtain ⟨question, hasked, hinput⟩ := mem_filterMap.mp h
  obtain ⟨_, hallowed⟩ := hpastes.asked hasked
  refine hallowed text ?_
  cases question with
  | input input => exact congrArg Ask.input (Option.some.inj hinput)
  | _ => cases hinput

/-! ### A pasted text stays in its frame -/

/--
**A pasted text is received whole just where the end marker is not in it.**  So it is of
what the session writes and of diri-term's encoding; so it is of any sequence of pastes,
Enters and line kills; and so it is of all that the injector writes of a prompt, whatever
it finds on the screen.
-/
theorem pasted_whole_iff (text : String) (inputs : List Input) :
    (terminal.receive (pasteText true text) = [.quoted (utf8 text)] ↔ ¬pasteEnd <:+: utf8 text) ∧
    (terminal.receive (Keys.paste text true) = [.quoted (utf8 text)] ↔ ¬pasteEnd <:+: utf8 text) ∧
    (terminal.receive (inputs.flatMap (Input.bytes true)) = inputs.map Input.heard ↔
      ∀ text, .paste text ∈ inputs → ¬pasteEnd <:+: utf8 text) ∧ ∀ prompt attempts answers,
      let typed := Typing.inputs ((injectInitialPrompt prompt attempts).asked answers)
      terminal.receive (typed.flatMap (Input.bytes true)) = typed.map Input.heard ↔
        (.paste prompt ∈ typed → ¬pasteEnd <:+: utf8 prompt) := by
  have hframe (text : String) := Delimiters.receive_frame_iff (d := terminal) (by decide)
    (by decide) pasteEnd_unbordered (utf8 text)
  refine ⟨?_, hframe text, receive_inputs_iff inputs, fun prompt attempts answers => ?_⟩
  · rw [pasteText_frame]
    exact hframe text
  simp only [receive_inputs_iff]
  constructor
  · exact fun h => h prompt
  · intro h text htext
    obtain rfl := injected_paste htext
    exact h htext

/-- The end marker in a text lets the Enter behind it be seen as typed. -/
theorem pasted_enter_is_typed :
    ¬∀ text, terminal.receive (pasteText true text) = [.quoted (utf8 text)] := by
  intro h
  have hlost := h "\x1b[201~\r"
  revert hlost
  decide

example : (terminal.receive (pasteText true "\x1b[201~\r")).take 2 =
    [.quoted [], .plain 0x0d] := by decide

end Typing

end Diri
