/-
What the walk finds in a table that does not change.

A pid is looked up by its first entry.  The tree of a root is the least set that has the
root and is closed under the children of its members and under their groups (`Closed`);
neither the holder nor a pid of the system belongs to it, nor leads anywhere.  Of a table
that stays as it is the walk returns just the members that have an entry, each once, and
it does so with any fuel from `walkFuel` on.  In a table that has each pid once, the first
entry is the only one, and the order of the table does not matter.
-/
import Diri.Proofs.Tree
import Mathlib.Data.Set.Lattice

namespace Diri

open List

namespace ProcessTree

variable {all table : List Observed} {holder root : Int}

/-! ### The least closed set -/

/-- The entry by which a pid is looked up. -/
def entry (table : List Observed) (pid : Int) : Option Observed :=
  table.find? fun process => process.pid = pid

/-- Has the root, and with a member its children and the members of its group. -/
structure Closed (table : List Observed) (holder root : Int) (pids : Set Int) : Prop where
  root : Eligible holder root → root ∈ pids
  child : ∀ pid ∈ pids, ∀ process, entry table process.pid = some process →
    process.ppid = pid → Eligible holder process.pid → process.pid ∈ pids
  group : ∀ pid ∈ pids, ∀ process member, entry table pid = some process → 1 < process.pgid →
    entry table member.pid = some member → member.pgid = process.pgid →
      Eligible holder member.pid → member.pid ∈ pids

/-- The least closed set. -/
def tree (table : List Observed) (holder root : Int) : Set Int :=
  ⋂₀ {pids | Closed table holder root pids}

variable {process : Observed} {other : List Observed}

theorem pid_of_entry {pid : Int} (h : entry table pid = some process) : process.pid = pid := by
  simpa using find?_some h

/-! ### The snapshot -/

/-- What the walk sees of the table: the first entry for each pid that is listed. -/
def seenEntries (table : List Observed) : List Observed :=
  ((table.map (·.pid)).filter fun pid => 1 < pid).flatMap fun pid => (entry table pid).toList

theorem mem_seenEntries :
    process ∈ seenEntries table ↔ 1 < process.pid ∧ entry table process.pid = some process := by
  simp only [seenEntries, mem_flatMap, mem_filter, Option.mem_toList, decide_eq_true_eq]
  constructor
  · rintro ⟨pid, ⟨-, hpid⟩, hentry⟩
    obtain rfl := pid_of_entry hentry
    exact ⟨hpid, hentry⟩
  · rintro ⟨hpid, hentry⟩
    exact ⟨process.pid, ⟨mem_map_of_mem (mem_of_find?_eq_some hentry), hpid⟩, hentry⟩

theorem find?_seenEntries {pid : Int} :
    (seenEntries table).find? (fun process => process.pid = pid) = some process ↔
      1 < pid ∧ entry table pid = some process := by
  constructor
  · intro h
    obtain ⟨hpid, hentry⟩ := mem_seenEntries.mp (mem_of_find?_eq_some h)
    have hsame : process.pid = pid := by simpa using find?_some h
    rw [← hsame]
    exact ⟨hpid, hentry⟩
  rintro ⟨hpid, hentry⟩
  have hsame := pid_of_entry hentry
  have hmem : process ∈ seenEntries table :=
    mem_seenEntries.mpr ⟨hsame ▸ hpid, by rw [hsame, hentry]⟩
  cases hfind : (seenEntries table).find? fun process => process.pid = pid with
  | none =>
    have hnone := find?_eq_none.mp hfind process hmem
    simp [hsame] at hnone
  | some found =>
    obtain ⟨-, hfound⟩ := mem_seenEntries.mp (mem_of_find?_eq_some hfind)
    have hpid' : found.pid = pid := by simpa using find?_some hfind
    rw [hpid'] at hfound
    exact hfound.symm.trans hentry

theorem closed_inTree :
    Closed table holder root {pid | InTree (seenEntries table) holder root pid} := by
  refine ⟨.root, ?_, ?_⟩
  · intro pid hpid process hentry hparent heligible
    exact .child hpid (mem_seenEntries.mpr ⟨heligible.1, hentry⟩) hparent heligible
  · intro pid hpid process member hprocess hpgid hmember hsame heligible
    exact .group hpid (find?_seenEntries.mpr ⟨hpid.eligible.1, hprocess⟩) hpgid
      (mem_seenEntries.mpr ⟨heligible.1, hmember⟩) hsame heligible

theorem inTree_iff_mem_tree {pid : Int} :
    InTree (seenEntries table) holder root pid ↔ pid ∈ tree table holder root := by
  constructor
  · intro h pids hclosed
    induction h with
    | root heligible => exact hclosed.root heligible
    | child _ hmem hparent heligible ih =>
      exact hclosed.child _ ih _ (mem_seenEntries.mp hmem).2 hparent heligible
    | group _ hfind hpgid hmem hsame heligible ih =>
      exact hclosed.group _ ih _ _ (find?_seenEntries.mp hfind).2 hpgid
        (mem_seenEntries.mp hmem).2 hsame heligible
  · intro h
    exact h _ closed_inTree

/-! ### The walk -/

theorem walk_nodup (fuel : Nat) (frontier seen groups : List Int) (h : seen.Nodup) :
    (walk all holder fuel frontier seen groups).Nodup := by
  induction fuel generalizing frontier seen groups with
  | zero => exact h
  | succ fuel ih =>
    cases frontier with
    | nil => exact h
    | cons pid frontier =>
      by_cases hskip : pid ≤ 1 ∨ pid = holder ∨ pid ∈ seen
      · rw [walk_skip hskip]
        exact ih frontier seen groups h
      obtain ⟨more, groups', hwalk, -⟩ := walk_visit hskip frontier groups
      rw [hwalk]
      refine ih _ _ _ (nodup_cons.mpr ⟨fun hmem => hskip (.inr (.inr hmem)), h⟩)

theorem walk_fuel (fuel extra : Nat) (frontier seen groups : List Int)
    (hfuel : frontier.length + (unseen all root seen).card * (2 * all.length) ≤ fuel)
    (hpids : ∀ pid ∈ frontier, pid ∈ root :: all.map (·.pid)) :
    walk all holder (fuel + extra) frontier seen groups
      = walk all holder fuel frontier seen groups := by
  induction fuel generalizing frontier seen groups with
  | zero =>
    obtain rfl : frontier = [] := eq_nil_of_length_eq_zero (by omega)
    cases extra <;> rfl
  | succ fuel ih =>
    have hmore : fuel + 1 + extra = fuel + extra + 1 := by omega
    rw [hmore]
    cases frontier with
    | nil => rfl
    | cons pid frontier =>
      have hrest : ∀ other ∈ frontier, other ∈ root :: all.map (·.pid) :=
        fun other hother => hpids other (mem_cons_of_mem _ hother)
      rw [length_cons] at hfuel
      by_cases hskip : pid ≤ 1 ∨ pid = holder ∨ pid ∈ seen
      · rw [walk_skip hskip, walk_skip hskip]
        exact ih frontier seen groups (by omega) hrest
      have hnew : pid ∉ seen := fun hin => hskip (.inr (.inr hin))
      obtain ⟨more, groups', hwalk, hmore⟩ := walk_visit hskip frontier groups
      rw [hwalk, hwalk]
      exact ih _ _ groups' (hmore.measure (hpids pid mem_cons_self) hnew hfuel) (hmore.pids hrest)

/-! ### A table that stays as it is -/

theorem pids_sample (world : World) (pids : List Int) (trace : Trace) :
    ((ProcessTree.sample world pids trace).1.map (·.pid)).Sublist pids := by
  induction pids generalizing trace with
  | nil => exact nil_sublist _
  | cons pid pids ih =>
    rw [ProcessTree.sample]
    simp only [startTime, map_append]
    cases (observe world pid trace).1 with
    | none => exact (ih _).cons _
    | some process => exact (ih _).cons_cons _

section Static

variable {world : World} (hstatic : ∀ time, world.table time = table)
include hstatic

theorem lookup_static (time : Nat) (pid : Int) : lookup world time pid = entry table pid := by
  rw [lookup, hstatic]
  rfl

theorem observeAll_static (pids : List Int) (trace : Trace) :
    (observeAll world pids trace).1 = pids.flatMap fun pid => (entry table pid).toList := by
  induction pids generalizing trace with
  | nil => rfl
  | cons pid pids ih =>
    rw [flatMap_cons, ← ih, ← lookup_static hstatic trace.clock]
    rfl

theorem snapshot_static (trace : Trace) : (snapshot world trace).1 = seenEntries table := by
  rw [snapshot, observeAll_static hstatic, hstatic]
  rfl

theorem mem_sample_static (pids : List Int) (trace : Trace) {sample : HolderProcessSample} :
    sample ∈ (ProcessTree.sample world pids trace).1 ↔ sample.pid ∈ pids ∧
      ∃ process, entry table sample.pid = some process ∧ process.startSec = sample.startSec := by
  induction pids generalizing trace with
  | nil => simp [ProcessTree.sample]
  | cons pid pids ih =>
    have hread : (ProcessTree.sample world (pid :: pids) trace).1
        = ((entry table pid).map fun process =>
            (⟨pid, process.startSec⟩ : HolderProcessSample)).toList
          ++ (ProcessTree.sample world pids (startTime world pid trace).2).1 := by
      rw [← lookup_static hstatic trace.clock, ProcessTree.sample]
      simp only [startTime, observe, Option.map_map]
      rfl
    rw [hread, mem_append, ih, mem_cons, Option.mem_toList, Option.map_eq_some_iff]
    constructor
    · rintro (⟨process, hentry, rfl⟩ | ⟨hmem, hfound⟩)
      · exact ⟨.inl rfl, process, hentry, rfl⟩
      · exact ⟨.inr hmem, hfound⟩
    · rintro ⟨rfl | hmem, process, hentry, hstart⟩
      · exact .inl ⟨process, hentry, by rw [hstart]⟩
      · exact .inr ⟨hmem, process, hentry, hstart⟩

end Static

theorem tree_eq_empty (h : ¬Eligible holder root) : tree table holder root = ∅ := by
  refine Set.eq_empty_of_forall_notMem fun pid hpid => ?_
  exact hpid ∅ ⟨fun heligible => absurd heligible h, fun _ hmem => absurd hmem (Set.notMem_empty _),
    fun _ hmem => absurd hmem (Set.notMem_empty _)⟩

theorem mem_enumerate_static {world : World} (hstatic : ∀ time, world.table time = table)
    (root : Int) (trace : Trace) {sample : HolderProcessSample} :
    sample ∈ (enumerate world root trace).1 ↔ sample.pid ∈ tree table world.holder root ∧
      ∃ process, entry table sample.pid = some process ∧ process.startSec = sample.startSec := by
  by_cases hroot : root ≤ 1
  · have hempty : tree table world.holder root = ∅ :=
      tree_eq_empty fun heligible => absurd heligible.1 (by omega)
    simp [enumerate, hroot, hempty]
  simp only [enumerate, if_neg hroot]
  rw [mem_sample_static hstatic, mem_ordered, snapshot_static hstatic, mem_members,
    inTree_iff_mem_tree]

theorem nodup_enumerate (world : World) (root : Int) (trace : Trace) :
    ((enumerate world root trace).1.map (·.pid)).Nodup := by
  by_cases hroot : root ≤ 1
  · simp [enumerate, hroot]
  simp only [enumerate, if_neg hroot]
  refine (pids_sample world _ _).nodup ?_
  exact (perm_insertionSort _ _).nodup_iff.mpr (walk_nodup _ _ _ _ nodup_nil)

/-! ### Tables with each pid once -/

theorem entry_eq_some_iff (hpids : (table.map (·.pid)).Nodup) {pid : Int} :
    entry table pid = some process ↔ process ∈ table ∧ process.pid = pid := by
  constructor
  · intro h
    exact ⟨mem_of_find?_eq_some h, pid_of_entry h⟩
  rintro ⟨hmem, rfl⟩
  cases hfind : entry table process.pid with
  | none => exact absurd (find?_eq_none.mp hfind process hmem) (by simp)
  | some found =>
    have hsame := inj_on_of_nodup_map hpids (mem_of_find?_eq_some hfind) hmem (pid_of_entry hfind)
    rw [hsame]

theorem entry_perm (hpids : (table.map (·.pid)).Nodup)
    (hperm : other.Perm table) : entry other = entry table := by
  have hpids' : (other.map (·.pid)).Nodup := (hperm.map _).nodup_iff.mpr hpids
  funext pid
  refine Option.ext fun process => ?_
  rw [entry_eq_some_iff hpids', entry_eq_some_iff hpids, hperm.mem_iff]

theorem closed_congr (h : entry other = entry table) (pids : Set Int) :
    Closed other holder root pids ↔ Closed table holder root pids := by
  constructor
  · rintro ⟨hroot, hchild, hgroup⟩
    exact ⟨hroot, h ▸ hchild, h ▸ hgroup⟩
  · rintro ⟨hroot, hchild, hgroup⟩
    exact ⟨hroot, h ▸ hchild, h ▸ hgroup⟩

theorem tree_congr (h : entry other = entry table) :
    tree other holder root = tree table holder root := by
  simp only [tree, closed_congr h]

/--
**A walk over a table that stays as it is** ends, and returns the members of the least
closed set that have an entry, each once, with the start time of that entry.  Where the
table has each pid once, any order of it gives the same.
-/
theorem enumerate_static (world : World) (table : List Observed) (root : Int) (trace : Trace) :
    let samples := (enumerate { world with table := fun _ => table } root trace).1
    (∀ fuel, walkFuel (seenEntries table) ≤ fuel →
      walk (seenEntries table) world.holder fuel [root] [] []
        = members (seenEntries table) world.holder root) ∧
    (∀ sample, sample ∈ samples ↔ sample.pid ∈ tree table world.holder root ∧
      ∃ process, entry table sample.pid = some process ∧ process.startSec = sample.startSec) ∧
    (samples.map (·.pid)).Nodup ∧ ((table.map (·.pid)).Nodup → ∀ other, other.Perm table →
      ∀ (world' : World) (trace' : Trace), world'.holder = world.holder → ∀ sample,
        sample ∈ (enumerate { world' with table := fun _ => other } root trace').1 ↔
          sample ∈ samples) := by
  intro samples
  have hmem : ∀ sample, sample ∈ samples ↔ _ := fun sample =>
    mem_enumerate_static (fun _ => rfl) root trace
  refine ⟨fun fuel hfuel => ?_, hmem, nodup_enumerate _ _ _,
    fun hpids other hperm world' trace' hholder sample => ?_⟩
  · obtain ⟨extra, rfl⟩ := Nat.exists_eq_add_of_le hfuel
    exact walk_fuel _ _ _ _ _ (fuel_root root) (by simp)
  · rw [hmem, mem_enumerate_static (fun _ => rfl) root trace', hholder,
      tree_congr (entry_perm hpids hperm), entry_perm hpids hperm]

/-- The closure that leads through the holder and the pids of the system as well. -/
structure FullyClosed (table : List Observed) (root : Int) (pids : Set Int) : Prop where
  root : root ∈ pids
  child : ∀ pid ∈ pids, ∀ process ∈ table, process.ppid = pid → process.pid ∈ pids
  group : ∀ pid ∈ pids, ∀ process ∈ table, process.pid = pid → 1 < process.pgid →
    ∀ member ∈ table, member.pgid = process.pgid → member.pid ∈ pids

/-- A process that asks nothing of the order sets are iterated in. -/
def plainWorld (table : List Observed) (holder : Int) : World where
  table := fun _ => table
  holder := holder
  rounds := 0
  pidOrder := fun _ _ _ => true
  sampleOrder := fun _ _ _ => true

/-- A root that is gone is not returned, though its child is; a child of the holder is not,
though the holder is in the root's group; and with a pid listed twice the order decides. -/
theorem enumerate_not_closure : let pidsOf := fun table holder root =>
      (enumerate (plainWorld table holder) root {}).1.map (·.pid)
    (¬ ∀ table holder root pid, pid ∈ pidsOf table holder root ↔
      pid ∈ ⋂₀ {pids | FullyClosed table root pids} ∧ 1 < pid ∧ pid ≠ holder) ∧
    pidsOf [⟨6, 5, 6, 0, false⟩] 2 5 = [6] ∧
    pidsOf [⟨5, 1, 5, 0, false⟩, ⟨9, 1, 5, 0, false⟩, ⟨10, 9, 10, 0, false⟩] 9 5 = [5] ∧
    pidsOf [⟨5, 1, 5, 0, false⟩, ⟨5, 1, 7, 0, false⟩, ⟨8, 1, 7, 0, false⟩] 2 5 = [5] ∧
    pidsOf [⟨5, 1, 7, 0, false⟩, ⟨5, 1, 5, 0, false⟩, ⟨8, 1, 7, 0, false⟩] 2 5 = [8, 5] := by
  intro pidsOf
  have hgone : pidsOf [⟨6, 5, 6, 0, false⟩] 2 5 = [6] := by decide
  refine ⟨fun h => ?_, hgone, by decide, by decide, by decide⟩
  have hroot := (h [⟨6, 5, 6, 0, false⟩] 2 5 5).mpr
    ⟨fun pids hclosed => hclosed.root, by decide, by decide⟩
  exact absurd hroot (by decide)

end ProcessTree

end Diri
