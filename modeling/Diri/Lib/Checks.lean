/-
Checks one after another.

A check that fails ends what it is part of with its own error, so a row of checks passes
when each of them does.  Where a fold checks each element and adds up its weight, the
checks and the sum come apart.
-/
import Mathlib.Algebra.BigOperators.Group.List.Basic
import Mathlib.Algebra.Order.Ring.Nat

namespace Diri

open List

variable {ε α β : Type}

/-- Go on if it holds. -/
def checkThat (holds : Prop) [Decidable holds] (error : ε) : Except ε Unit :=
  if holds then .ok () else .error error

@[simp] theorem checkThat_eq_ok {holds : Prop} [Decidable holds] {error : ε} :
    checkThat holds error = .ok () ↔ holds := by
  unfold checkThat
  split
  · rename_i h
    simp [h]
  · rename_i h
    simp [h]

theorem bind_eq_ok {x : Except ε α} {f : α → Except ε β} {b : β} :
    (x >>= f) = .ok b ↔ ∃ a, x = .ok a ∧ f a = .ok b := by
  cases x with
  | error e | ok a => simp [bind, Except.bind]

/-- A check, and what comes behind it. -/
theorem check_bind_eq_ok {x : Except ε Unit} {y : Except ε β} {b : β} :
    (x >>= fun _ => y) = .ok b ↔ x = .ok () ∧ y = .ok b := by
  rw [bind_eq_ok]
  constructor
  · rintro ⟨⟨⟩, hx, hy⟩
    exact ⟨hx, hy⟩
  · rintro ⟨hx, hy⟩
    exact ⟨(), hx, hy⟩

/-- Check each element and add up what it weighs. -/
def weigh (check : α → Except ε Unit) (weight : α → Nat) (start : Nat) (elements : List α) :
    Except ε Nat :=
  elements.foldlM (fun total element => check element >>= fun _ => .ok (total + weight element))
    start

theorem weigh_eq_ok {check : α → Except ε Unit} {weight : α → Nat} {start total : Nat}
    {elements : List α} :
    weigh check weight start elements = .ok total ↔ (∀ element ∈ elements, check element = .ok ()) ∧
        total = start + (elements.map weight).sum := by
  unfold weigh
  induction elements generalizing start with
  | nil => simp [pure, Except.pure, eq_comm]
  | cons element elements ih =>
    rw [foldlM_cons, bind_eq_ok]
    simp only [check_bind_eq_ok, Except.ok.injEq, ih, forall_mem_cons, map_cons, sum_cons]
    constructor
    · rintro ⟨_, ⟨hcheck, rfl⟩, hrest, htotal⟩
      exact ⟨⟨hcheck, hrest⟩, by rw [htotal, Nat.add_assoc]⟩
    · rintro ⟨⟨hcheck, hrest⟩, htotal⟩
      exact ⟨_, ⟨hcheck, rfl⟩, hrest, by rw [htotal, Nat.add_assoc]⟩

/-- What each round keeps, the fold keeps. -/
theorem foldlM_eq_ok {f : β → α → Except ε β} {P : β → Prop} {elements : List α} {start b : β}
    (hstep : ∀ before element after, element ∈ elements → P before →
      f before element = .ok after → P after)
    (hstart : P start) (h : elements.foldlM f start = .ok b) : P b := by
  induction elements generalizing start with
  | nil =>
    obtain rfl := Except.ok.inj h
    exact hstart
  | cons element elements ih =>
    rw [foldlM_cons, bind_eq_ok] at h
    obtain ⟨next, hnext, hrest⟩ := h
    refine ih ?_ (hstep start element next mem_cons_self hstart hnext) hrest
    intro before other after hother
    exact hstep before other after (mem_cons_of_mem _ hother)

end Diri
