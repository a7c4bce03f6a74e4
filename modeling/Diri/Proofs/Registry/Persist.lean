/-
Whether a mutation is on disk or pending.

A write that fails leaves the registry as dirty as it was.  That is enough where the
write was owed already: the flusher, or a mutation that finds the registry dirty, leaves
it dirty.  A mutation that writes at once owes nothing yet; when that write fails the
mutation is in memory only, and nothing will write it until the next one (`Safe`).
-/
import Diri.Engine.Persist

namespace Diri

namespace PersistedRegistry

variable {ρ β : Type} {toVec : ρ → Option β} {s : PersistedRegistry ρ β}

/-- The file has the state that the registry has. -/
def OnDisk (toVec : ρ → Option β) (s : PersistedRegistry ρ β) : Prop :=
  ∃ bytes, toVec s.registry = some bytes ∧ s.file = some bytes

/-- The latest mutation is on disk, or a write of it is pending. -/
def Kept (toVec : ρ → Option β) (s : PersistedRegistry ρ β) : Prop :=
  s.mutated = true → s.OnDisk toVec ∨ s.dirty = true

theorem landed_eq_some {files : FileAnswers} {registry : ρ} {bytes : β}
    (h : landed toVec files registry = some bytes) : toVec registry = some bytes := by
  unfold landed at h
  split at h
  · exact h
  · cases h

theorem persistNow_cases (toVec : ρ → Option β) (files : FileAnswers) (done : Nat)
    (s : PersistedRegistry ρ β) : ((landed toVec files s.registry).isSome = true ∧
      (s.persistNow toVec files done).1.OnDisk toVec) ∨
    landed toVec files s.registry = none ∧ (s.persistNow toVec files done).1 = s := by
  unfold persistNow
  cases hwritten : landed toVec files s.registry with
  | none => exact .inr ⟨rfl, rfl⟩
  | some bytes => exact .inl ⟨rfl, bytes, landed_eq_some hwritten, rfl⟩

end PersistedRegistry

namespace PersistCall

open PersistedRegistry

variable {ρ β : Type} {toVec : ρ → Option β}

/-- A mutation that is written at once is written, unless a write is owed already or the file
has the new state anyway. -/
def Safe (toVec : ρ → Option β) (s : PersistedRegistry ρ β) : PersistCall ρ → Prop
  | mutate change files now _ =>
    s.dirty = true ∨ s.debounced now = true ∨
      (landed toVec files (change s.registry)).isSome = true ∨
      (s.mutate change).OnDisk toVec
  | flush _ _ => True

theorem kept_mutate (change : ρ → ρ) (files : FileAnswers) (now done : Nat)
    (s : PersistedRegistry ρ β) : (step toVec s (mutate change files now done)).1.Kept toVec ↔
      Safe toVec s (mutate change files now done) := by
  have hwindow : (s.mutate change).debounced now = s.debounced now := rfl
  simp only [step, persist, hwindow]
  cases hdebounced : s.debounced now with
  | true => simp [Safe, Kept, hdebounced]
  | false =>
    simp only [Bool.false_eq_true, if_false]
    rcases persistNow_cases toVec files done (s.mutate change) with
      ⟨hwritten, hfile⟩ | ⟨hnone, hsame⟩
    · have hsafe : (landed toVec files (change s.registry)).isSome = true := hwritten
      exact ⟨fun _ => .inr (.inr (.inl hsafe)), fun _ _ => .inl hfile⟩
    have hfailed : landed toVec files (change s.registry) = none := hnone
    rw [hsame]
    simp only [Safe, hdebounced, hfailed, Option.isSome_none, Bool.false_eq_true, false_or]
    constructor
    · intro hkept
      exact (hkept rfl).symm
    · intro hsafe _
      exact hsafe.symm

theorem kept_flush (files : FileAnswers) (done : Nat) {s : PersistedRegistry ρ β}
    (h : s.Kept toVec) : (step toVec s (flush files done)).1.Kept toVec := by
  simp only [step, flushDirty]
  split
  · rcases persistNow_cases toVec files done s with ⟨-, hfile⟩ | ⟨-, hsame⟩
    · exact fun _ => .inl hfile
    · rw [hsame]
      exact h
  · exact h

/-- A step keeps the registry's state on disk or pending exactly if it is safe. -/
theorem kept_iff {s : PersistedRegistry ρ β} (h : s.Kept toVec) (call : PersistCall ρ) :
    (step toVec s call).1.Kept toVec ↔ Safe toVec s call := by
  cases call with
  | mutate change files now done => exact kept_mutate change files now done s
  | flush files done => exact ⟨fun _ => trivial, fun _ => kept_flush files done h⟩

theorem onDisk_flush {s : PersistedRegistry ρ β} (hdirty : s.dirty = true) {files : FileAnswers}
    (hgood : (landed toVec files s.registry).isSome = true) (done : Nat) :
    (step toVec s (flush files done)).1.OnDisk toVec := by
  simp only [step, flushDirty, hdirty, if_true]
  rcases persistNow_cases toVec files done s with ⟨-, hfile⟩ | ⟨hnone, -⟩
  · exact hfile
  · rw [hnone] at hgood
    cases hgood

end PersistCall

open PersistedRegistry PersistCall

/--
**Mutations are on disk or pending** after every step of a run exactly if every step of it is
safe; and what is pending is on disk after the next flush that goes well.
-/
theorem mutations_kept_iff {ρ β : Type} (toVec : ρ → Option β) (registry : ρ) (file : Option β)
    (calls : List (PersistCall ρ)) :
    let start : PersistedRegistry ρ β := { registry := registry, file := file }
    let steps := (run (step toVec) start calls).2
    ((∀ step ∈ steps, Safe toVec step.before step.input) ↔ ∀ step ∈ steps, step.after.Kept toVec) ∧
    ∀ pending ∈ steps, pending.after.dirty = true → ∀ files done,
      (landed toVec files pending.after.registry).isSome = true →
        (step toVec pending.after (flush files done)).1.OnDisk toVec := by
  intro start steps
  refine ⟨?_, fun _ _ hdirty files done hgood => onDisk_flush hdirty hgood done⟩
  have hinit : start.Kept toVec := fun hmutated => Bool.noConfusion hmutated
  refine (run_induction (f := step toVec) (s := start) (P := fun s past =>
    ((∀ step ∈ past, step.after.Kept toVec) → s.Kept toVec) ∧
      ((∀ step ∈ past, Safe toVec step.before step.input) ↔
        ∀ step ∈ past, step.after.Kept toVec)) ?_ ?_ calls).2
  · exact ⟨fun _ => hinit, by simp⟩
  intro s past call ih
  obtain ⟨hkept, hpast⟩ := ih
  simp only [List.forall_mem_cons]
  refine ⟨fun hall => hall.1, ?_⟩
  constructor
  · rintro ⟨hsafe, hearlier⟩
    have hall := hpast.mp hearlier
    exact ⟨(kept_iff (hkept hall) call).mpr hsafe, hall⟩
  · rintro ⟨hlast, hall⟩
    exact ⟨(kept_iff (hkept hall) call).mp hlast, hpast.mpr hall⟩

/-- One mutation of a new registry, and a rename that fails. -/
theorem mutation_lost : let call : PersistCall Nat := .mutate (· + 1) { rename := false } 0 0
    let s := (step some ({ registry := 0 } : PersistedRegistry Nat Nat) call).1
    s.registry = 1 ∧ s.file = none ∧ s.dirty = false ∧
      (step some s (.flush {} 1000000000)).1.file = none := by
  decide

end Diri
