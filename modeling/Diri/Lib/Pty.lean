/-
A pseudo-terminal, as the process that reads it sees it.

What the session leader writes is buffered until it is read.  A read takes some of the
front of the buffer; when nothing is buffered it would block, or, when no process has the
other side open, it is at the end.  That need not be final: the other side can be opened
again.  Other processes may have the terminal open, but only the leader writes.

A read that was interrupted changes nothing and is tried again, so it is no step here.
For the proofs the terminal remembers everything that was written to it and read from it.
-/
import Mathlib.Data.List.Basic

namespace Diri

open List

structure Pty (α : Type) where
  written : List α := []
  taken : List α := []
  buffered : List α := []
  /-- Whether a process has the other side open. -/
  opened : Bool := true
  /-- Whether the session leader is gone. -/
  exited : Bool := false
  deriving DecidableEq

namespace Pty

variable {α : Type}

/-- What happens on the other side. -/
inductive Event (α : Type) where
  | write (data : List α)
  | close
  | reopen
  | exit
  deriving DecidableEq

def happen (event : Event α) (pty : Pty α) : Option (Pty α) :=
  match event with
  | .write data =>
    if pty.exited || !pty.opened then none
    else some { pty with
      written := pty.written ++ data
      buffered := pty.buffered ++ data }
  | .close => some { pty with opened := false }
  | .reopen => some { pty with opened := true }
  | .exit => if pty.exited then none else some { pty with exited := true }

/-- What `poll` says: there is something to read, or the other side is closed. -/
def readable (pty : Pty α) : Bool := !pty.buffered.isEmpty || !pty.opened

/-- What a nonblocking read gives. -/
inductive Fetched (α : Type) where
  | bytes (data : List α)
  | wouldBlock
  | eof

/-- At least one byte if there is one, at most `limit`, and otherwise as many as it likes. -/
def read (limit count : Nat) (pty : Pty α) : Fetched α × Pty α :=
  match pty.buffered with
  | [] => (if pty.opened then .wouldBlock else .eof, pty)
  | first :: rest =>
    let others := min count limit - 1
    let data := first :: rest.take others
    (.bytes data, { pty with
      taken := pty.taken ++ data
      buffered := rest.drop others })

/-- Nothing was lost, doubled or reordered between the two sides. -/
def Accounts (pty : Pty α) : Prop := pty.written = pty.taken ++ pty.buffered

variable {pty pty' : Pty α} {event : Event α}

/-- **What happens on the other side** is a write by a leader that lives, or no write. -/
theorem happen_cases (h : pty.happen event = some pty') :
    (∃ data, pty.exited = false ∧ pty' = { pty with
      written := pty.written ++ data
      buffered := pty.buffered ++ data }) ∨
    (pty'.written = pty.written ∧ pty'.taken = pty.taken ∧ pty'.buffered = pty.buffered ∧
      (pty.exited = true → pty'.exited = true)) := by
  cases event with
  | write data =>
    unfold happen at h
    simp only at h
    by_cases hgone : (pty.exited || !pty.opened) = true
    · rw [if_pos hgone] at h
      cases h
    rw [if_neg hgone] at h
    have hlive : pty.exited = false := by
      cases hexited : pty.exited
      · rfl
      · simp [hexited] at hgone
    exact Or.inl ⟨data, hlive, (Option.some.inj h).symm⟩
  | close | reopen =>
    obtain ⟨⟩ := h
    exact Or.inr ⟨rfl, rfl, rfl, id⟩
  | exit =>
    unfold happen at h
    simp only at h
    by_cases hgone : pty.exited = true
    · rw [if_pos hgone] at h
      cases h
    rw [if_neg hgone] at h
    obtain ⟨⟩ := h
    exact Or.inr ⟨rfl, rfl, rfl, fun _ => rfl⟩

/-- **What a read gives** is the front of the buffer, or the buffer is empty. -/
theorem read_cases (limit count : Nat) (pty : Pty α) :
    (∃ data rest, data ≠ [] ∧ pty.buffered = data ++ rest ∧
      pty.read limit count = (.bytes data, { pty with
        taken := pty.taken ++ data
        buffered := rest })) ∨
    (pty.buffered = [] ∧
      (pty.read limit count = (.wouldBlock, pty) ∨ pty.read limit count = (.eof, pty))) := by
  unfold read
  cases hbuffered : pty.buffered with
  | nil =>
    refine Or.inr ⟨rfl, ?_⟩
    by_cases hopened : pty.opened = true
    · exact Or.inl (by simp only [hopened, if_true])
    · exact Or.inr (by simp only [hopened, if_false, Bool.false_eq_true])
  | cons first rest =>
    refine Or.inl ⟨_, _, ?_, ?_, rfl⟩
    · simp
    · rw [cons_append, take_append_drop]

namespace Accounts

theorem happen (h : pty.Accounts) (hstep : pty.happen event = some pty') : pty'.Accounts := by
  unfold Accounts at h ⊢
  rcases happen_cases hstep with ⟨data, -, rfl⟩ | ⟨hwritten, htaken, hbuffered, -⟩
  · show pty.written ++ data = pty.taken ++ (pty.buffered ++ data)
    rw [h, append_assoc]
  · rw [hwritten, htaken, hbuffered]
    exact h

theorem read (h : pty.Accounts) {data rest : List α} (hbuffered : pty.buffered = data ++ rest) :
    Accounts { pty with
      taken := pty.taken ++ data
      buffered := rest } := by
  unfold Accounts at h ⊢
  show pty.written = (pty.taken ++ data) ++ rest
  rw [h, hbuffered, append_assoc]

/-- With nothing buffered, everything that was written was read. -/
theorem taken_eq (h : pty.Accounts) (hempty : pty.buffered = []) : pty.taken = pty.written := by
  rw [h, hempty, append_nil]

end Accounts

end Pty

end Diri
