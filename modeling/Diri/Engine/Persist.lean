/-
When the registry's state is written to its file.

A write serializes the state, makes the directory, writes a temporary file and renames it
to the state file; any of these may fail, and then the file is what it was.  A mutation
is followed by `persist`, which writes at once unless the last write is less than the
debounce window ago.  The flusher, and the end of the registry, call `flushDirty`.

What the registry holds is any type here, and how `serde_json` writes it an argument.
`Instant`s are nanoseconds on one clock.
-/
import Diri.Lib.Run

namespace Diri

/-- `PERSIST_DEBOUNCE`: half a second. -/
def persistDebounce : Nat := 500000000

/-- What the file system says to the steps of one write. -/
structure FileAnswers where
  createDirAll : Bool := true
  write : Bool := true
  rename : Bool := true
  deriving DecidableEq, Repr

/-- A registry and its state file. -/
structure PersistedRegistry (ρ β : Type) where
  registry : ρ
  dirty : Bool := false
  lastPersist : Option Nat := none
  file : Option β := none
  /-- Whether there has been a mutation at all. -/
  mutated : Bool := false
  deriving DecidableEq, Repr

namespace PersistedRegistry

variable {ρ β : Type} (toVec : ρ → Option β)

/-- What a write puts into the file, if all its steps go well. -/
def landed (files : FileAnswers) (registry : ρ) : Option β :=
  if files.createDirAll && files.write && files.rename then toVec registry else none

/-- `done` is the time when the file has its name. -/
def persistNow (files : FileAnswers) (done : Nat) (s : PersistedRegistry ρ β) :
    PersistedRegistry ρ β × Bool :=
  match landed toVec files s.registry with
  | some bytes =>
    ({ s with file := some bytes, dirty := false, lastPersist := some done }, true)
  | none => (s, false)

/-- Whether the last write is less than the window ago. -/
def debounced (now : Nat) (s : PersistedRegistry ρ β) : Bool :=
  s.lastPersist.any fun last => now - last < persistDebounce

def persist (files : FileAnswers) (now done : Nat) (s : PersistedRegistry ρ β) :
    PersistedRegistry ρ β × Bool :=
  if s.debounced now then ({ s with dirty := true }, true) else s.persistNow toVec files done

def flushDirty (files : FileAnswers) (done : Nat) (s : PersistedRegistry ρ β) :
    PersistedRegistry ρ β × Bool :=
  if s.dirty then s.persistNow toVec files done else (s, true)

def mutate (change : ρ → ρ) (s : PersistedRegistry ρ β) : PersistedRegistry ρ β :=
  { s with registry := change s.registry, mutated := true }

end PersistedRegistry

/-- A mutation that is followed by `persist`, or the flusher's call. -/
inductive PersistCall (ρ : Type) where
  | mutate (change : ρ → ρ) (files : FileAnswers) (now done : Nat)
  | flush (files : FileAnswers) (done : Nat)

namespace PersistCall

variable {ρ β : Type}

/-- The call, and whether it says that it went well. -/
def step (toVec : ρ → Option β) (s : PersistedRegistry ρ β) :
    PersistCall ρ → PersistedRegistry ρ β × Bool
  | mutate change files now done => (s.mutate change).persist toVec files now done
  | flush files done => s.flushDirty toVec files done

end PersistCall

end Diri
