/-
Text typed into a session: what is written for it, and how a first prompt is brought in.

A pasted text stands between two markers when the child has asked for that.  The injector
types the prompt and looks for its echo; what it finds on the screen, and whether the
session is still there, it asks of the world.
-/
import Diri.Lib.Bytes
import Diri.Lib.Script

namespace Diri

def pasteStart : List UInt8 := [0x1b, 0x5b, 0x32, 0x30, 0x30, 0x7e]
def pasteEnd : List UInt8 := [0x1b, 0x5b, 0x32, 0x30, 0x31, 0x7e]

namespace Keys

/-- diri-term's encoding of a paste. -/
def paste (text : String) (bracketed : Bool) : List UInt8 :=
  if bracketed then pasteStart ++ utf8 text ++ pasteEnd else utf8 text

end Keys

namespace Typing

/-- One write to the child, apart from keys sent as they are. -/
inductive Input
  | paste (text : String)
  | submit
  | clearLine
  deriving DecidableEq, Repr

def pasteText (bracketed : Bool) (text : String) : List UInt8 :=
  utf8 (if bracketed then "\x1b[200~" ++ text ++ "\x1b[201~" else text)

def submitInput : List UInt8 := [0x0d]
def clearInputLine : List UInt8 := [0x15]

def Input.bytes (bracketed : Bool) : Input → List UInt8
  | .paste text => pasteText bracketed text
  | .submit => submitInput
  | .clearLine => clearInputLine

/-- The writes of `Session::send_text`. -/
def sendText (bracketed : Bool) (text : String) (submit : Bool) : List (List UInt8) :=
  if submit then [pasteText bracketed text, submitInput] else [utf8 text]

/-! ### The first prompt -/

inductive EchoOutcome
  | visible
  | missing
  | gone
  deriving DecidableEq, Repr

def echoWindow : Nat := 1500
def landedWindow : Nat := 2500

/-- What the injector asks for; a session that is gone takes no input. -/
inductive Ask
  | untilReady
  | screenText
  | input (input : Input)
  | waitForEcho (window : Nat)
  /-- Whether the composer lets go of the prompt within two seconds; without a probe, or a
  session, there is nothing to wait for. -/
  | letsGo
  | sleepUntil
  deriving DecidableEq, Repr

abbrev Injector (α : Type) : Type := Script Ask EchoOutcome α

def ask (question : Ask) : Injector EchoOutcome := .ask question .done

/-- Presses Enter, and once more where the prompt stays in the composer. -/
def submitTypedPrompt : Nat → Injector Unit
  | 0 => pure ()
  | rounds + 1 => do
      if (← ask (.input .submit)) = .gone then return
      if (← ask .letsGo) ≠ .missing then return
      submitTypedPrompt rounds

/-- The attempts to type a prompt; the window leaves room for so many. -/
def typePrompt (prompt : String) : Nat → Injector Unit
  | 0 => pure ()
  | attempts + 1 => do
      if (← ask .screenText) = .gone then return
      if (← ask (.input (.paste prompt))) = .gone then return
      match ← ask (.waitForEcho echoWindow) with
      | .gone => return
      | .visible => submitTypedPrompt 2
      | .missing =>
        if (← ask (.input .submit)) = .gone then return
        if (← ask (.waitForEcho landedWindow)) ≠ .missing then return
        if (← ask (.input .clearLine)) = .gone then return
        if (← ask .sleepUntil) ≠ .visible then return
        typePrompt prompt attempts

def injectInitialPrompt (prompt : String) (attempts : Nat) : Injector Unit := do
  if (← ask .untilReady) ≠ .visible then return
  typePrompt prompt attempts

def inputs (asked : List Ask) : List Input :=
  asked.filterMap fun
    | .input input => some input
    | _ => none

end Typing

end Diri
