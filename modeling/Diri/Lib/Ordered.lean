/-
Tables in the order of their keys, and lists cut into blocks.

A table is added to at its keys, so what matters of it is what its values come to over some
of its keys; `sumOver_add` says how that changes.

A list falls into blocks from the left: an element that is not within the block before it
begins the next one.
-/
import Mathlib.Algebra.BigOperators.Group.List.Basic
import Mathlib.Order.Lattice

namespace Diri

open List

/-- Each key is below those that come after it. -/
structure OrderedTable (κ ν : Type) [LT κ] where
  entries : List (κ × ν)
  ascending : entries.Pairwise fun left right => left.1 < right.1

namespace OrderedTable

variable {κ ν : Type} [LinearOrder κ]

instance : EmptyCollection (OrderedTable κ ν) := ⟨⟨[], .nil⟩⟩

/-! ### Adding at a key -/

/-- A key that is not there has the value zero. -/
def addTo [Zero ν] [Add ν] (key : κ) (value : ν) : List (κ × ν) → List (κ × ν)
  | [] => [(key, 0 + value)]
  | entry :: entries =>
    if key < entry.1 then (key, 0 + value) :: entry :: entries
    else if key = entry.1 then (key, entry.2 + value) :: entries
    else entry :: addTo key value entries

section
variable [Zero ν] [Add ν]

theorem keys_addTo (key : κ) (value : ν) (entries : List (κ × ν)) (other : κ) :
    other ∈ (addTo key value entries).map Prod.fst ↔
      other = key ∨ other ∈ entries.map Prod.fst := by
  induction entries with
  | nil => simp [addTo]
  | cons entry entries ih =>
    unfold addTo
    split
    · rw [map_cons, mem_cons]
    split
    · rename_i heq
      rw [map_cons, map_cons, mem_cons, mem_cons, ← heq, or_self_left]
    · rw [map_cons, map_cons, mem_cons, mem_cons, ih, or_left_comm]

theorem addTo_ascending (key : κ) (value : ν) {entries : List (κ × ν)}
    (h : entries.Pairwise fun left right => left.1 < right.1) :
    (addTo key value entries).Pairwise fun left right => left.1 < right.1 := by
  induction h with
  | nil => exact pairwise_singleton _ _
  | @cons entry entries hfirst hrest ih =>
    unfold addTo
    split
    · rename_i hlt
      refine .cons (fun other hother => ?_) (.cons hfirst hrest)
      rcases List.mem_cons.mp hother with rfl | hmem
      · exact hlt
      · exact hlt.trans (hfirst other hmem)
    split
    · rename_i heq
      refine .cons (fun other hother => ?_) hrest
      rw [heq]
      exact hfirst other hother
    rename_i hle hne
    refine .cons (fun other hother => ?_) ih
    rcases (keys_addTo key value entries other.1).mp (mem_map_of_mem hother) with
      heq | hmem
    · rw [heq]
      exact lt_of_le_of_ne (not_lt.mp hle) (Ne.symm hne)
    obtain ⟨same, hsame, hkey⟩ := List.mem_map.mp hmem
    rw [← hkey]
    exact hfirst same hsame

def add (table : OrderedTable κ ν) (key : κ) (value : ν) : OrderedTable κ ν :=
  ⟨addTo key value table.entries, addTo_ascending key value table.ascending⟩

end

def keys (table : OrderedTable κ ν) : List κ := table.entries.map Prod.fst

theorem keys_ascending (table : OrderedTable κ ν) : table.keys.Pairwise (· < ·) :=
  List.pairwise_map.mpr table.ascending

/-- What the values of some keys come to. -/
def sumOver [Zero ν] [Add ν] (keep : κ → Bool) (table : OrderedTable κ ν) : ν :=
  ((table.entries.filter fun entry => keep entry.1).map Prod.snd).sum

theorem sumOver_add [AddCommMonoid ν] (keep : κ → Bool) (table : OrderedTable κ ν) (key : κ)
    (value : ν) :
    (table.add key value).sumOver keep = table.sumOver keep + if keep key then value else 0 := by
  obtain ⟨entries, hentries⟩ := table
  unfold sumOver add
  dsimp only
  clear hentries
  induction entries with
  | nil => cases hkeep : keep key <;> simp [addTo, hkeep]
  | cons entry entries ih =>
    unfold addTo
    split
    · cases hkeep : keep key <;> simp [filter_cons, hkeep, add_comm]
    split
    · rename_i heq
      cases hkeep : keep key <;> simp [← heq, hkeep, add_right_comm]
    · cases hkeep : keep entry.1 <;> simp [hkeep, ih, add_assoc]

end OrderedTable

/-! ### Blocks -/

section
variable {α β : Type}

/-- Each block has what is within the block that its first element begins. -/
def blocks (within : α → α → Bool) : List α → List (List α)
  | [] => []
  | first :: rest =>
    (first :: rest.takeWhile (within first)) :: blocks within (rest.dropWhile (within first))
  termination_by list => list.length
  decreasing_by exact Nat.lt_succ_of_le (dropWhile_suffix _).length_le

theorem blocks_map (f : α → β) (within : β → β → Bool) (list : List α) :
    blocks within (list.map f) =
      (blocks (fun first other => within (f first) (f other)) list).map (List.map f) := by
  induction list using blocks.induct (fun first other => within (f first) (f other)) with
  | case1 => simp [blocks]
  | case2 first rest ih =>
    rw [map_cons, blocks, blocks, map_cons, map_cons, takeWhile_map, dropWhile_map]
    congr 1

end

end Diri
