/-
Pointers upwards.

Every value points at its parent, or at nothing.  `Depth` counts the pointers from a value
up to one that points at nothing; a value that leads into a cycle has no depth.  Two things
follow from a pointer being a function: a value has one depth at most, and at each depth
it has one ancestor at most.
-/
import Mathlib.Logic.Relation
import Mathlib.Data.List.Basic
import Mathlib.Data.List.Perm.Subperm

namespace Diri

open Relation List

variable {α : Type} {up : α → Option α}

/-- The second value is the one the first points at. -/
def PointsAt (up : α → Option α) (x y : α) : Prop := up x = some y

/-- How many pointers lead from a value to one that points at nothing. -/
inductive Depth (up : α → Option α) : α → Nat → Prop
  | root {x : α} (h : up x = none) : Depth up x 0
  | step {x y : α} {n : Nat} (h : up x = some y) (above : Depth up y n) : Depth up x (n + 1)

theorem PointsAt.rightUnique : Relator.RightUnique (PointsAt up) := by
  intro x y z hy hz
  exact Option.some.inj (hy.symm.trans hz)

namespace Depth

theorem unique {x : α} {n m : Nat} (hn : Depth up x n) (hm : Depth up x m) : n = m := by
  induction hn generalizing m with
  | root h =>
    cases hm with
    | root _ => rfl
    | step h' _ => exact absurd (h.symm.trans h') (by simp)
  | step h _ ih =>
    cases hm with
    | root h' => exact absurd (h.symm.trans h') (by simp)
    | step h' above =>
      obtain rfl := Option.some.inj (h.symm.trans h')
      rw [ih above]

variable {n : Nat}

/-- The value a pointer leads to is one less deep. -/
theorem above {x y : α} (hn : Depth up x n) (h : up x = some y) :
    ∃ m, n = m + 1 ∧ Depth up y m := by
  cases hn with
  | root h' => exact absurd (h.symm.trans h') (by simp)
  | step h' habove =>
    obtain rfl := Option.some.inj (h.symm.trans h')
    exact ⟨_, rfl, habove⟩

/-- Ancestors are less deep. -/
theorem ancestor_lt {x y : α} (hn : Depth up x n) (h : TransGen (PointsAt up) x y) :
    ∃ m, m < n ∧ Depth up y m := by
  induction h with
  | single h =>
    obtain ⟨m, rfl, hm⟩ := hn.above h
    exact ⟨m, Nat.lt_succ_self m, hm⟩
  | tail _ h ih =>
    obtain ⟨k, hk, hdepth⟩ := ih
    obtain ⟨m, rfl, hm⟩ := hdepth.above h
    exact ⟨m, by omega, hm⟩

theorem ancestor_le {x y : α} (hn : Depth up x n) (h : ReflTransGen (PointsAt up) x y) :
    ∃ m, m ≤ n ∧ Depth up y m := by
  rcases reflTransGen_iff_eq_or_transGen.mp h with rfl | htrans
  · exact ⟨n, Nat.le_refl n, hn⟩
  · obtain ⟨m, hm, hdepth⟩ := hn.ancestor_lt htrans
    exact ⟨m, Nat.le_of_lt hm, hdepth⟩

/-- A value with a depth is not on a cycle. -/
theorem acyclic {x : α} (hn : Depth up x n) : ¬ TransGen (PointsAt up) x x := by
  intro h
  obtain ⟨m, hm, hdepth⟩ := hn.ancestor_lt h
  have heq : n = m := hn.unique hdepth
  omega

/-- One value leads to two others only if one of them leads to the other. -/
theorem ancestor_eq {x y z : α} (hxy : ReflTransGen (PointsAt up) x y)
    (hxz : ReflTransGen (PointsAt up) x z) (hy : Depth up y n) (hz : Depth up z n) : y = z := by
  rcases ReflTransGen.total_of_right_unique PointsAt.rightUnique hxy hxz with h | h
  · rcases reflTransGen_iff_eq_or_transGen.mp h with rfl | htrans
    · rfl
    · obtain ⟨m, hm, hdepth⟩ := hy.ancestor_lt htrans
      have heq : n = m := hz.unique hdepth
      omega
  rcases reflTransGen_iff_eq_or_transGen.mp h with rfl | htrans
  · rfl
  obtain ⟨m, hm, hdepth⟩ := hz.ancestor_lt htrans
  have heq : n = m := hy.unique hdepth
  omega

/-- The values on the way up are as many as the depth says, all of them different. -/
theorem trail {x : α} (hn : Depth up x n) : ∃ trail : List α, trail.length = n + 1 ∧ trail.Nodup ∧
      (∀ y ∈ trail, ReflTransGen (PointsAt up) x y) := by
  induction hn with
  | root h =>
    rename_i x
    exact ⟨[x], rfl, pairwise_singleton _ x, by simpa using ReflTransGen.refl⟩
  | step h above ih =>
    rename_i x y n
    obtain ⟨trail, hlength, hnodup, hup⟩ := ih
    refine ⟨x :: trail, by simp [hlength], nodup_cons.mpr ⟨fun hmem => ?_, hnodup⟩, ?_⟩
    · exact (Depth.step h above).acyclic (TransGen.head' h (hup x hmem))
    · intro z hz
      rcases mem_cons.mp hz with rfl | hz
      · exact .refl
      · exact .head h (hup z hz)

/-- Among finitely many values a depth is smaller than their number. -/
theorem lt_length {x : α} (hn : Depth up x n) {values : List α} (hx : x ∈ values)
    (hclosed : ∀ y ∈ values, ∀ z, up y = some z → z ∈ values) : n < values.length := by
  obtain ⟨trail, hlength, hnodup, hup⟩ := hn.trail
  have hsubset : trail ⊆ values := by
    intro y hy
    have hpath := hup y hy
    clear hy hup
    induction hpath with
    | refl => exact hx
    | tail _ h ih => exact hclosed _ ih _ h
  have hle := (subperm_of_subset hnodup hsubset).length_le
  omega

end Depth

/-- A value whose pointers lead up to one that points at nothing. -/
def Grounded (up : α → Option α) (x : α) : Prop := ∃ n, Depth up x n

namespace Grounded

theorem root {x : α} (h : up x = none) : Grounded up x := ⟨0, .root h⟩

variable {x y : α} {down : α → Option α}

theorem step (h : up x = some y) (hy : Grounded up y) : Grounded up x := by
  obtain ⟨n, hn⟩ := hy
  exact ⟨n + 1, .step h hn⟩

theorem above (h : Grounded up x) (hxy : up x = some y) : Grounded up y := by
  obtain ⟨n, hn⟩ := h
  obtain ⟨m, -, hm⟩ := hn.above hxy
  exact ⟨m, hm⟩

theorem of_reaches (hxy : ReflTransGen (PointsAt up) x y) (hy : Grounded up y) : Grounded up x := by
  induction hxy using ReflTransGen.head_induction_on with
  | refl => exact hy
  | head h _ ih => exact .step h ih

theorem reaches (hxy : ReflTransGen (PointsAt up) x y) (hx : Grounded up x) : Grounded up y := by
  induction hxy with
  | refl => exact hx
  | tail _ h ih => exact ih.above h

/-- Dropping pointers leads no value into a cycle. -/
theorem of_dropped (h : ∀ y, down y = none ∨ down y = up y) {x : α}
    (hx : Grounded up x) : Grounded down x := by
  obtain ⟨n, hn⟩ := hx
  induction hn with
  | root hroot =>
    rcases h _ with hdown | hdown
    · exact .root hdown
    · exact .root (hdown.trans hroot)
  | step hstep _ ih =>
    rcases h _ with hdown | hdown
    · exact .root hdown
    · exact .step (hdown.trans hstep) ih

/-- What leads to a value that keeps a way up, where pointers were only dropped, keeps one. -/
theorem of_reaches_dropped (h : ∀ y, down y = none ∨ down y = up y)
    (hxy : ReflTransGen (PointsAt up) x y) (hy : Grounded down y) : Grounded down x := by
  induction hxy using ReflTransGen.head_induction_on with
  | refl => exact hy
  | head hpoint _ ih =>
    rcases h _ with hdown | hdown
    · exact .root hdown
    · exact .step (hdown.trans hpoint) ih

/-- Whether a value leads into a cycle depends on the pointers it leads to alone. -/
theorem congr {x : α}
    (h : ∀ y, ReflTransGen (PointsAt up) x y → down y = up y) (hx : Grounded down x) :
    Grounded up x := by
  obtain ⟨n, hn⟩ := hx
  induction hn with
  | root hroot => exact .root ((h _ .refl).symm.trans hroot)
  | step hstep _ ih =>
    have hup := (h _ .refl).symm.trans hstep
    exact .step hup (ih fun y hy => h y (.head hup hy))

end Grounded

/-! ### Cycles broken in order -/

section Broken

variable [DecidableEq α]

/-- A value that leads into a cycle and comes before all else it leads to. -/
def BreaksCycle (up : α → Option α) (order : List α) (x : α) : Prop :=
  ¬ Grounded up x ∧ ∀ y, ReflTransGen (PointsAt up) x y → order.idxOf x ≤ order.idxOf y

/-- A value that leads into a cycle leads to one that breaks it and comes no later. -/
theorem exists_breaksCycle (order : List α) {x : α} (hx : ¬ Grounded up x) :
    ∃ y, ReflTransGen (PointsAt up) x y ∧ BreaksCycle up order y ∧
      order.idxOf y ≤ order.idxOf x := by
  induction hn : order.idxOf x using Nat.strongRecOn generalizing x with
  | _ n ih =>
    by_cases hfirst : ∀ y, ReflTransGen (PointsAt up) x y → order.idxOf x ≤ order.idxOf y
    · exact ⟨x, .refl, ⟨hx, hfirst⟩, by omega⟩
    simp only [not_forall, Nat.not_le] at hfirst
    obtain ⟨y, hxy, hlt⟩ := hfirst
    have hy : ¬ Grounded up y := fun hy => hx (.of_reaches hxy hy)
    obtain ⟨z, hyz, hz, hle⟩ := ih (order.idxOf y) (by omega) hy rfl
    exact ⟨z, hxy.trans hyz, hz, by omega⟩

/-- Where exactly the values that break a cycle point at nothing, none leads into one. -/
theorem grounded_of_broken {down : α → Option α} {order : List α}
    (hbroken : ∀ y, BreaksCycle up order y → down y = none)
    (hkept : ∀ y, ¬ BreaksCycle up order y → down y = up y) (x : α) : Grounded down x := by
  have hdropped : ∀ y, down y = none ∨ down y = up y := by
    intro y
    by_cases hy : BreaksCycle up order y
    · exact .inl (hbroken y hy)
    · exact .inr (hkept y hy)
  by_cases hx : Grounded up x
  · exact .of_dropped hdropped hx
  · obtain ⟨y, hxy, hy, -⟩ := exists_breaksCycle order hx
    exact .of_reaches_dropped hdropped hxy (.root (hbroken y hy))

end Broken

end Diri
