/-
Going around the matches.

A step adds to the index, in 64 bits, and takes the remainder by the number of matches.
Backwards it adds `2 ^ 64 - 1`, which is one less than nothing only where the number of
matches divides `2 ^ 64` (`cycles_iff`).  There both directions add a number that has no
divisor in common with that of the matches, so each comes by every match once
(`visited_perm`).  Of three matches the step back from the first one stays where it is.
-/
import Diri.Term.Find
import Mathlib.Data.List.Nodup
import Mathlib.Data.List.Perm.Subperm
import Mathlib.Data.Nat.ModEq

namespace Diri.FindView

open List Nat

def turn (forward : Bool) (windowRow : Int64) (view : FindView) : FindView :=
  let (model, viewport, _) := view.model.advance forward windowRow view.viewport
  ⟨model, viewport⟩

/-- The indices that one step after the other comes to, wherever each places its row. -/
def visited (forward : Bool) : List Int64 → FindView → List Nat
  | [], _ => []
  | windowRow :: rest, view =>
    let view := view.turn forward windowRow
    view.model.currentIndex :: visited forward rest view

/-- Navigation from the current match is that of a cycle. -/
structure Cycles (view : FindView) : Prop where
  nextPrevious : ∀ there back : Int64,
    ((view.turn true there).turn false back).model.currentIndex = view.model.currentIndex
  previousNext : ∀ there back : Int64,
    ((view.turn false there).turn true back).model.currentIndex = view.model.currentIndex
  last : view.model.currentIndex = view.model.found.length - 1 →
    ∀ windowRow, (view.turn true windowRow).model.currentIndex = 0
  first : view.model.currentIndex = 0 →
    ∀ windowRow, (view.turn false windowRow).model.currentIndex = view.model.found.length - 1
  visits : ∀ (forward : Bool) (windowRows : List Int64),
    windowRows.length = view.model.found.length →
      (view.visited forward windowRows).Perm (List.range view.model.found.length)

/-- What a step adds. -/
def stride (forward : Bool) : Nat := if forward then 1 else 2 ^ 64 - 1

variable {view : FindView}

theorem turn_model (hne : view.model.found ≠ []) (forward : Bool) (windowRow : Int64) :
    (view.turn forward windowRow).model = { view.model with
      currentIndex := (view.model.currentIndex + stride forward) % 2 ^ 64 %
        view.model.found.length } := by
  have hfull : ¬view.model.found.isEmpty = true := by rwa [List.isEmpty_iff]
  rw [turn, TerminalFindModel.advance, if_neg hfull]
  dsimp only
  rw [← stride]
  generalize (view.model.currentIndex + stride forward) % 2 ^ 64 % view.model.found.length = index
  repeat' split
  all_goals rfl

theorem turn_index (hne : view.model.found ≠ []) (forward : Bool) (windowRow : Int64) :
    (view.turn forward windowRow).model.currentIndex =
      (view.model.currentIndex + stride forward) % 2 ^ 64 % view.model.found.length := by
  rw [turn_model hne]

theorem turn_found (hne : view.model.found ≠ []) (forward : Bool) (windowRow : Int64) :
    (view.turn forward windowRow).model.found = view.model.found := by
  rw [turn_model hne]

section
variable (hdvd : view.model.found.length ∣ 2 ^ 64)
include hdvd

theorem ne_nil_of_dvd : view.model.found ≠ [] := by
  intro hnil
  rw [hnil, length_nil, Nat.zero_dvd] at hdvd
  exact absurd hdvd (by decide)

theorem turn_index_of_dvd (forward : Bool) (windowRow : Int64) :
    (view.turn forward windowRow).model.currentIndex =
      (view.model.currentIndex + stride forward) % view.model.found.length := by
  rw [turn_index (ne_nil_of_dvd hdvd), mod_mod_of_dvd _ hdvd]

theorem coprime_stride (forward : Bool) : view.model.found.length.Coprime (stride forward) := by
  refine Nat.Coprime.coprime_dvd_left hdvd ?_
  cases forward <;> decide +kernel

theorem turn_back (forward : Bool) (there back : Int64)
    (hin : view.model.currentIndex < view.model.found.length) :
    ((view.turn forward there).turn (!forward) back).model.currentIndex =
      view.model.currentIndex := by
  have hround : stride forward + stride (!forward) = 2 ^ 64 := by cases forward <;> rfl
  rw [turn_index_of_dvd (by rwa [turn_found (ne_nil_of_dvd hdvd)]), turn_index_of_dvd hdvd,
    turn_found (ne_nil_of_dvd hdvd), mod_add_mod, Nat.add_assoc, hround, add_mod,
    mod_eq_zero_of_dvd hdvd, Nat.add_zero, mod_mod, mod_eq_of_lt hin]
end

theorem visited_eq (forward : Bool) (windowRows : List Int64) (view : FindView)
    (hdvd : view.model.found.length ∣ 2 ^ 64) :
    view.visited forward windowRows = (List.range windowRows.length).map fun count =>
      (view.model.currentIndex + (count + 1) * stride forward) % view.model.found.length := by
  induction windowRows generalizing view with
  | nil => rfl
  | cons windowRow rest ih =>
    have hfound := turn_found (ne_nil_of_dvd hdvd) forward windowRow
    rw [visited, ih _ (by rwa [hfound]), turn_index_of_dvd hdvd, hfound, length_cons,
       range_succ_eq_map, map_cons, map_map, Nat.zero_add, Nat.one_mul]
    refine congrArg (_ :: ·) (map_congr_left fun count _ => ?_)
    rw [mod_add_mod, Function.comp_apply, Nat.add_assoc, succ_mul (count + 1),
      Nat.add_comm (stride forward)]

theorem visited_perm (hdvd : view.model.found.length ∣ 2 ^ 64) (forward : Bool)
    {windowRows : List Int64} (hlength : windowRows.length = view.model.found.length) :
    (view.visited forward windowRows).Perm (List.range view.model.found.length) := by
  have hpos : 0 < view.model.found.length := length_pos_of_ne_nil (ne_nil_of_dvd hdvd)
  rw [visited_eq forward windowRows view hdvd, hlength]
  refine (List.Nodup.subperm ?_ ?_).perm_of_length_le (by simp)
  · refine List.Nodup.map_on ?_ nodup_range
    intro a ha b hb heq
    have hsteps : a + 1 ≡ b + 1 [MOD view.model.found.length] :=
      Nat.ModEq.cancel_right_of_coprime (coprime_stride hdvd forward)
        (Nat.ModEq.add_left_cancel' _ heq)
    have hmod := Nat.ModEq.add_right_cancel' 1 hsteps
    exact hmod.eq_of_lt_of_lt (mem_range.mp ha) (mem_range.mp hb)
  intro index hindex
  obtain ⟨count, -, rfl⟩ := mem_map.mp hindex
  exact mem_range.mpr (mod_lt _ hpos)

theorem cycles_of_dvd (hdvd : view.model.found.length ∣ 2 ^ 64)
    (hin : view.model.currentIndex < view.model.found.length) : view.Cycles where
  nextPrevious there back := turn_back hdvd true there back hin
  previousNext there back := turn_back hdvd false there back hin
  last hlast windowRow := by
    rw [turn_index_of_dvd hdvd, hlast, stride, if_pos rfl, Nat.sub_add_cancel (by omega), mod_self]
  first hfirst windowRow := by
    obtain ⟨rounds, hrounds⟩ := hdvd
    have hback : 2 ^ 64 - 1 = view.model.found.length * (rounds - 1) +
        (view.model.found.length - 1) := by
      have hsome : 0 < rounds := by
        rcases Nat.eq_zero_or_pos rounds with hzero | hpos
        · rw [hzero, Nat.mul_zero] at hrounds
          exact absurd hrounds (by decide)
        · exact hpos
      have hmul := Nat.mul_sub view.model.found.length rounds 1
      have hle := Nat.le_mul_of_pos_right view.model.found.length hsome
      omega
    rw [turn_index_of_dvd ⟨rounds, hrounds⟩, hfirst, Nat.zero_add, stride,
      if_neg Bool.false_ne_true, hback, mul_add_mod,
      mod_eq_of_lt (by omega)]
  visits forward windowRows hlength := visited_perm hdvd forward hlength

/-- Find goes around its matches just where their number divides that of the 64-bit indices. -/
theorem cycles_iff (found : List FindMatch) (hne : found ≠ []) :
    (∀ view : FindView, view.model.found = found →
      view.model.currentIndex < found.length → view.Cycles) ↔ found.length ∣ 2 ^ 64 := by
  constructor
  · intro hall
    have hpos := length_pos_of_ne_nil hne
    have hback := (hall { model := { found := found } } rfl hpos).first rfl 0
    rw [turn_index hne, stride, if_neg Bool.false_ne_true, Nat.zero_add,
      mod_eq_of_lt (sub_lt (Nat.two_pow_pos 64) Nat.one_pos)] at hback
    dsimp only at hback
    have hdiv := div_add_mod (2 ^ 64 - 1) found.length
    rw [hback] at hdiv
    refine ⟨(2 ^ 64 - 1) / found.length + 1, ?_⟩
    rw [mul_succ]
    omega
  · intro hdvd view hfound hin
    rw [← hfound] at hdvd hin
    exact cycles_of_dvd hdvd hin

def threeMatches : FindView where
  model := { found := List.replicate 3 ⟨0, 0, 1, ['a']⟩ }

theorem cycles_iff_three : ¬∀ view : FindView, view.model.found = threeMatches.model.found →
    view.model.currentIndex < 3 → view.Cycles :=
  fun h => absurd ((cycles_iff threeMatches.model.found (by decide)).mp h) (by decide)

theorem previous_stuck : ¬threeMatches.Cycles := fun h => absurd (h.first rfl 0) (by decide)

end Diri.FindView
