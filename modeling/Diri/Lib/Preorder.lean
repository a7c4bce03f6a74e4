/-
The order in which a tree is written down row by row.

`Preorder kids roots out` says that `out` is each root followed by everything below it,
where `kids` lists the values directly below one.  It says nothing about how `out` is
found, so a recursive walk and a loop over a stack can both be held against it.

What is below a value stands right behind it, and where every value points at the one it
is below, nothing stands twice.
-/
import Diri.Lib.Ancestry

namespace Diri

open Relation List

variable {α β : Type} {kids : α → List α}

/-- The roots in order, each followed by what is below it. -/
inductive Preorder (kids : α → List α) : List α → List α → Prop
  | nil : Preorder kids [] []
  | cons {x : α} {rest below after : List α} (hbelow : Preorder kids (kids x) below)
      (hafter : Preorder kids rest after) : Preorder kids (x :: rest) (x :: (below ++ after))

namespace Preorder

variable {roots out : List α}

theorem map {f : α → β} {kids' : β → List β} (hkids : ∀ x, (kids x).map f = kids' (f x))
    (h : Preorder kids roots out) : Preorder kids' (roots.map f) (out.map f) := by
  induction h with
  | nil => exact .nil
  | cons _ _ ihBelow ihAfter =>
    rw [hkids] at ihBelow
    simp only [map_cons, map_append]
    exact .cons ihBelow ihAfter

/-- What holds of the roots and passes on to the values below holds of everything. -/
theorem forall_mem {P : α → Prop} (hkids : ∀ x, P x → ∀ y ∈ kids x, P y)
    (h : Preorder kids roots out) (hroots : ∀ x ∈ roots, P x) : ∀ x ∈ out, P x := by
  induction h with
  | nil => simp
  | cons _ _ ihBelow ihAfter =>
    rename_i x rest below after _ _
    have hx := hroots x (by simp)
    intro y hy
    rcases mem_cons.mp hy with rfl | hy
    · exact hx
    rcases mem_append.mp hy with hy | hy
    · exact ihBelow (hkids x hx) y hy
    · exact ihAfter (fun z hz => hroots z (by simp [hz])) y hy

/-- The roots keep their order. -/
theorem sublist (h : Preorder kids roots out) : roots.Sublist out := by
  induction h with
  | nil => exact List.Sublist.refl _
  | cons _ _ _ ih => exact (ih.trans (sublist_append_right _ _)).cons_cons _

/-- What is below a value stands right behind it. -/
theorem split (h : Preorder kids roots out) {y : α} (hy : y ∈ out) :
    ∃ before below after, out = before ++ y :: (below ++ after) ∧ Preorder kids (kids y) below := by
  induction h with
  | nil => cases hy
  | cons hbelow _ ihBelow ihAfter =>
    rename_i x rest below after _
    rcases mem_cons.mp hy with rfl | hy
    · exact ⟨[], below, after, rfl, hbelow⟩
    rcases mem_append.mp hy with hy | hy
    · obtain ⟨before, under, behind, rfl, hunder⟩ := ihBelow hy
      exact ⟨x :: before, under, behind ++ after, by simp, hunder⟩
    · obtain ⟨before, under, behind, rfl, hunder⟩ := ihAfter hy
      exact ⟨x :: (below ++ before), under, behind, by simp, hunder⟩

/-- Everything below a value that stands there stands there too. -/
theorem kids_subset (h : Preorder kids roots out) {x : α} (hx : x ∈ out) : kids x ⊆ out := by
  obtain ⟨before, below, after, rfl, hbelow⟩ := h.split hx
  intro y hy
  have hmem := hbelow.sublist.subset hy
  simp [hmem]

/-- The order exists when no value has others below it without end. -/
theorem exists_of_bounded {P : Nat → α → Prop} {bound : Nat}
    (hkids : ∀ n x, P n x → ∀ y ∈ kids x, P (n + 1) y) (hbound : ∀ n x, P n x → n < bound)
    (n : Nat) (roots : List α) (hroots : ∀ x ∈ roots, P n x) : ∃ out, Preorder kids roots out := by
  induction hk : bound - n generalizing n roots with
  | zero =>
    cases roots with
    | nil => exact ⟨[], .nil⟩
    | cons x rest =>
      have hlt := hbound n x (hroots x (by simp))
      omega
  | succ k ih =>
    induction roots with
    | nil => exact ⟨[], .nil⟩
    | cons x rest ihRest =>
      obtain ⟨after, hafter⟩ := ihRest fun y hy => hroots y (by simp [hy])
      have hx := hroots x (by simp)
      obtain ⟨below, hbelow⟩ := ih (n + 1) (kids x) (hkids n x hx) (by omega)
      exact ⟨_, .cons hbelow hafter⟩

/-! ### Values that point at the one they are below -/

variable {up : α → Option α}

section
variable (hup : ∀ x, ∀ y ∈ kids x, up y = some x)
include hup

theorem reaches_root (h : Preorder kids roots out)
    {y : α} (hy : y ∈ out) : ∃ x ∈ roots, ReflTransGen (PointsAt up) y x := by
  refine h.forall_mem (P := fun y => ∃ x ∈ roots, ReflTransGen (PointsAt up) y x)
    (fun x hx z hz => ?_) (fun x hx => ⟨x, hx, .refl⟩) y hy
  obtain ⟨root, hroot, hpath⟩ := hx
  exact ⟨root, hroot, .head (hup x z hz) hpath⟩

/-- What is below a value leads to it. -/
theorem below_reaches {x : α} {below : List α}
    (h : Preorder kids (kids x) below) {y : α} (hy : y ∈ below) : TransGen (PointsAt up) y x := by
  obtain ⟨z, hz, hpath⟩ := h.reaches_root hup hy
  exact TransGen.tail' hpath (hup x z hz)

/-- Roots of one depth lead to trees that share nothing. -/
theorem nodup (hkids : ∀ x, (kids x).Nodup)
    (h : Preorder kids roots out) {d : Nat} (hroots : ∀ x ∈ roots, Depth up x d)
    (hnodup : roots.Nodup) : out.Nodup := by
  induction h generalizing d with
  | nil => exact nodup_nil
  | cons hbelow hafter ihBelow ihAfter =>
    rename_i x rest below after
    rw [nodup_cons] at hnodup
    have hx := hroots x (by simp)
    have hrest : ∀ y ∈ rest, Depth up y d := fun y hy => hroots y (by simp [hy])
    -- What leads to `x` leads to no other root: those are as deep as `x` is.
    have hapart : ∀ y, ReflTransGen (PointsAt up) y x → y ∉ after := by
      intro y hyx hy
      obtain ⟨z, hz, hyz⟩ := hafter.reaches_root hup hy
      exact hnodup.1 (Depth.ancestor_eq hyx hyz hx (hrest z hz) ▸ hz)
    refine nodup_cons.mpr ⟨fun hmem => ?_, nodup_append.mpr ⟨?_, ?_, ?_⟩⟩
    · rcases mem_append.mp hmem with hmem | hmem
      · exact hx.acyclic (hbelow.below_reaches hup hmem)
      · exact hapart x .refl hmem
    · exact ihBelow (fun y hy => .step (hup x y hy) hx) (hkids x)
    · exact ihAfter hrest hnodup.2
    intro y hy z hz heq
    subst heq
    exact hapart y (hbelow.below_reaches hup hy).to_reflTransGen hz

/-- Where every value stands below the one it points at, a value's tree is all that leads to it. -/
theorem mem_below_iff (hdown : ∀ x y, up y = some x → y ∈ kids x) {x : α} {below : List α}
    (h : Preorder kids (kids x) below) (y : α) : y ∈ below ↔ TransGen (PointsAt up) y x := by
  refine ⟨h.below_reaches hup, fun hpath => ?_⟩
  induction hpath using TransGen.head_induction_on with
  | single hpoint => exact h.sublist.subset (hdown _ _ hpoint)
  | head hpoint _ ih => exact h.kids_subset ih (hdown _ _ hpoint)

end

/-- Every value with a depth stands there, if every root does. -/
theorem mem_of_grounded (hdown : ∀ x y, up y = some x → y ∈ kids x)
    (h : Preorder kids roots out) {y : α} (hy : Grounded up y)
    (hroots : ∀ x, ReflTransGen (PointsAt up) y x → up x = none → x ∈ roots) : y ∈ out := by
  obtain ⟨n, hn⟩ := hy
  induction hn with
  | root hroot => exact h.sublist.subset (hroots _ .refl hroot)
  | step hpoint _ ih =>
    have habove := ih fun x hpath => hroots x (.head hpoint hpath)
    exact h.kids_subset habove (hdown _ _ hpoint)

end Preorder

end Diri
