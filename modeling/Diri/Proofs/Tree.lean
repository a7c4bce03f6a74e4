/-
The walk finds the tree.

A snapshot determines the holder's tree: the root, every child of a member, and every
process in the group of a member (`InTree`).  The walk visits exactly these
(`mem_members`): it visits nothing else, and it has fuel for all of them, since each visit
takes one process out of those not yet seen and adds at most twice the snapshot's length
to the frontier.

Whom the tree operations signal.

The process table may change between any two system calls.  Every walk an operation takes
yields samples of members of the tree that its snapshot shows, each with the start time
read for it afterwards (`Justified`, on walks).  A signal that follows a check reaches a
process that still has the start time of such a sample; one sent without a check at least
goes to the pid of one; the others go to the root or its group (`Justified`, on kills).
Each operation only appends to its trace, and appends what is justified (`Continues`).
-/
import Diri.Engine.ProcessTree
import Mathlib.Data.Finset.Card

namespace Diri

open List

namespace ProcessTree

variable {all : List Observed} {holder root : Int}

/-- Pids the walk passes over are those of the system and the holder's own. -/
def Eligible (holder pid : Int) : Prop := 1 < pid ∧ pid ≠ holder

/-- The tree under a root, in one snapshot. -/
inductive InTree (all : List Observed) (holder root : Int) : Int → Prop
  | root (h : Eligible holder root) : InTree all holder root root
  | child {pid : Int} {process : Observed} (h : InTree all holder root pid)
      (hmem : process ∈ all) (hparent : process.ppid = pid)
      (heligible : Eligible holder process.pid) : InTree all holder root process.pid
  | group {pid : Int} {process member : Observed} (h : InTree all holder root pid)
      (hfind : all.find? (fun process => process.pid = pid) = some process)
      (hgroup : 1 < process.pgid) (hmem : member ∈ all) (hsame : member.pgid = process.pgid)
      (heligible : Eligible holder member.pid) : InTree all holder root member.pid

variable {pid : Int}

theorem InTree.eligible (h : InTree all holder root pid) : Eligible holder pid := by
  cases h with
  | root h | child _ _ _ h | group _ _ _ _ _ h => exact h

def children (all : List Observed) (pid : Int) : List Int :=
  ((all.filter fun process => process.ppid = pid).map (·.pid)).reverse

def groupMembers (all : List Observed) (pgid : Int) : List Int :=
  ((all.filter fun member => member.pgid = pgid).map (·.pid)).reverse

theorem mem_children {pid child : Int} :
    child ∈ children all pid ↔ ∃ process ∈ all, process.ppid = pid ∧ process.pid = child := by
  simp [children, and_assoc]

theorem mem_groupMembers {pgid member : Int} : member ∈ groupMembers all pgid ↔
      ∃ process ∈ all, process.pgid = pgid ∧ process.pid = member := by
  simp [groupMembers, and_assoc]

theorem walk_skip {seen : List Int} (h : pid ≤ 1 ∨ pid = holder ∨ pid ∈ seen)
    (fuel : Nat) (frontier groups : List Int) :
    walk all holder (fuel + 1) (pid :: frontier) seen groups
      = walk all holder fuel frontier seen groups := by
  rw [walk, if_pos h]

/-- What a visit adds besides the children: the group, if it is there and new. -/
def Adds (all : List Observed) (pid : Int) (groups more groups' : List Int) : Prop :=
  (more = [] ∧ groups' = groups ∧ ∀ process,
      all.find? (fun process => process.pid = pid) = some process →
        1 < process.pgid → process.pgid ∈ groups) ∨
    ∃ process, all.find? (fun process => process.pid = pid) = some process ∧
      1 < process.pgid ∧ more = groupMembers all process.pgid ∧ groups' = process.pgid :: groups

theorem walk_visit {seen : List Int} (h : ¬(pid ≤ 1 ∨ pid = holder ∨ pid ∈ seen))
    (frontier groups : List Int) :
    ∃ more groups', (∀ fuel, walk all holder (fuel + 1) (pid :: frontier) seen groups
        = walk all holder fuel (more ++ (children all pid ++ frontier)) (pid :: seen) groups') ∧
      Adds all pid groups more groups' := by
  simp only [walk, if_neg h]
  unfold Adds
  cases hfind : all.find? fun process => process.pid = pid with
  | none => exact ⟨[], groups, fun _ => rfl, .inl ⟨rfl, rfl, fun _ hnone => by cases hnone⟩⟩
  | some process =>
    by_cases hgroup : 1 < process.pgid ∧ process.pgid ∉ groups
    · simp only [if_pos hgroup]
      exact ⟨_, _, fun _ => rfl, .inr ⟨process, rfl, hgroup.1, rfl, rfl⟩⟩
    simp only [if_neg hgroup]
    refine ⟨[], groups, fun _ => rfl, .inl ⟨rfl, rfl, ?_⟩⟩
    intro found hfound hpgid
    obtain ⟨⟩ := hfound
    by_contra hnew
    exact hgroup ⟨hpgid, hnew⟩

/-! ### Only the tree -/

theorem walk_sound (fuel : Nat) (frontier seen groups : List Int)
    (hseen : ∀ pid ∈ seen, InTree all holder root pid)
    (hfrontier : ∀ pid ∈ frontier, Eligible holder pid → InTree all holder root pid) :
    ∀ pid ∈ walk all holder fuel frontier seen groups, InTree all holder root pid := by
  induction fuel generalizing frontier seen groups with
  | zero => exact hseen
  | succ fuel ih =>
    cases frontier with
    | nil => exact hseen
    | cons pid frontier =>
      have hrest : ∀ other ∈ frontier, Eligible holder other → InTree all holder root other :=
        fun other hother => hfrontier other (List.mem_cons_of_mem _ hother)
      by_cases hskip : pid ≤ 1 ∨ pid = holder ∨ pid ∈ seen
      · rw [walk_skip hskip]
        exact ih frontier seen groups hseen hrest
      obtain ⟨more, groups', hwalk, hmore⟩ := walk_visit hskip frontier groups
      obtain ⟨hpos, hother, -⟩ := by simpa only [not_or] using hskip
      have hpid := hfrontier pid List.mem_cons_self ⟨by omega, hother⟩
      rw [hwalk]
      refine ih _ _ _ (fun other hmem => ?_) fun other hmem heligible => ?_
      · rcases mem_cons.mp hmem with rfl | hold
        · exact hpid
        · exact hseen other hold
      rcases List.mem_append.mp hmem with hnew | hmem
      · rcases hmore with ⟨rfl, -⟩ | ⟨process, hfind, hpgid, rfl, -⟩
        · cases hnew
        · obtain ⟨member, hin, hsame, rfl⟩ := mem_groupMembers.mp hnew
          exact .group hpid hfind hpgid hin hsame heligible
      rcases List.mem_append.mp hmem with hchild | hold
      · obtain ⟨process, hin, hparent, rfl⟩ := mem_children.mp hchild
        exact .child hpid hin hparent heligible
      · exact hrest other hold heligible

/-! ### All of the tree -/

/-- What was seen has its children and its groups seen or ahead. -/
structure Explored (all : List Observed) (holder : Int) (frontier seen groups : List Int) :
    Prop where
  children : ∀ process ∈ all, process.ppid ∈ seen → Eligible holder process.pid →
    process.pid ∈ seen ∨ process.pid ∈ frontier
  members : ∀ member ∈ all, member.pgid ∈ groups → Eligible holder member.pid →
    member.pid ∈ seen ∨ member.pid ∈ frontier
  scanned : ∀ pid ∈ seen, ∀ process,
    all.find? (fun process => process.pid = pid) = some process →
      1 < process.pgid → process.pgid ∈ groups

theorem Explored.skip {frontier seen groups : List Int}
    (h : Explored all holder (pid :: frontier) seen groups)
    (hskip : pid ≤ 1 ∨ pid = holder ∨ pid ∈ seen) : Explored all holder frontier seen groups := by
  have hpass : ∀ other, Eligible holder other → other ∈ seen ∨ other ∈ pid :: frontier →
      other ∈ seen ∨ other ∈ frontier := by
    rintro other ⟨hpos, hother⟩ (hseen | hmem)
    · exact .inl hseen
    · rcases mem_cons.mp hmem with rfl | hold
      · rcases hskip with hlow | hholder | hseen
        · omega
        · exact absurd hholder hother
        · exact .inl hseen
      · exact .inr hold
  exact ⟨fun process hin hparent heligible => hpass _ heligible (h.children process hin hparent
    heligible), fun member hin hsame heligible => hpass _ heligible (h.members member hin hsame
    heligible), h.scanned⟩

theorem Explored.visit {frontier seen groups more groups' : List Int}
    (h : Explored all holder (pid :: frontier) seen groups)
    (hmore : Adds all pid groups more groups') :
    Explored all holder (more ++ (ProcessTree.children all pid ++ frontier)) (pid :: seen)
      groups' := by
  have hahead : ∀ other, other ∈ seen ∨ other ∈ pid :: frontier →
      other ∈ pid :: seen ∨ other ∈ more ++ (ProcessTree.children all pid ++ frontier) := by
    rintro other (hseen | hmem)
    · exact .inl (List.mem_cons_of_mem _ hseen)
    · rcases mem_cons.mp hmem with rfl | hold
      · exact .inl List.mem_cons_self
      · exact .inr (mem_append_right _ (mem_append_right _ hold))
  refine ⟨?_, ?_, ?_⟩
  · intro process hin hparent heligible
    rcases mem_cons.mp hparent with hpid | hseen
    · refine .inr (mem_append_right _ (List.mem_append_left _ ?_))
      exact mem_children.mpr ⟨process, hin, hpid, rfl⟩
    · exact hahead _ (h.children process hin hseen heligible)
  · intro member hin hsame heligible
    rcases hmore with ⟨rfl, rfl, -⟩ | ⟨process, -, -, rfl, rfl⟩
    · exact hahead _ (h.members member hin hsame heligible)
    rcases mem_cons.mp hsame with hnew | hold
    · refine .inr (List.mem_append_left _ ?_)
      exact mem_groupMembers.mpr ⟨member, hin, hnew, rfl⟩
    · exact hahead _ (h.members member hin hold heligible)
  intro other hmem process hfind hpgid
  rcases mem_cons.mp hmem with rfl | hseen
  · rcases hmore with ⟨-, rfl, hknown⟩ | ⟨found, hfound, -, -, rfl⟩
    · exact hknown process hfind hpgid
    · rw [Option.some.inj (hfind.symm.trans hfound)]
      exact List.mem_cons_self
  have hold := h.scanned other hseen process hfind hpgid
  rcases hmore with ⟨-, rfl, -⟩ | ⟨found, -, -, -, rfl⟩
  · exact hold
  · exact List.mem_cons_of_mem _ hold

def unseen (all : List Observed) (root : Int) (seen : List Int) : Finset Int :=
  (root :: all.map (·.pid)).toFinset \ seen.toFinset

theorem unseen_visit {seen : List Int} (hpid : pid ∈ root :: all.map (·.pid)) (hnew : pid ∉ seen) :
    (unseen all root (pid :: seen)).card + 1 = (unseen all root seen).card := by
  have herase : unseen all root (pid :: seen) = (unseen all root seen).erase pid := by
    ext other
    simp [unseen, not_or]
    tauto
  rw [herase]
  exact Finset.card_erase_add_one (by simpa [unseen, hnew] using hpid)

theorem pid_of_mem_children {pid other : Int} (h : other ∈ children all pid) :
    other ∈ all.map (·.pid) := by
  obtain ⟨process, hin, -, rfl⟩ := mem_children.mp h
  exact mem_map_of_mem hin

theorem pid_of_mem_groupMembers {pgid other : Int} (h : other ∈ groupMembers all pgid) :
    other ∈ all.map (·.pid) := by
  obtain ⟨member, hin, -, rfl⟩ := mem_groupMembers.mp h
  exact mem_map_of_mem hin

theorem length_children (pid : Int) : (children all pid).length ≤ all.length := by
  rw [children, length_reverse, length_map]
  exact length_filter_le _ _

theorem length_groupMembers (pgid : Int) : (groupMembers all pgid).length ≤ all.length := by
  rw [groupMembers, length_reverse, length_map]
  exact length_filter_le _ _

theorem Adds.pids {frontier groups more groups' : List Int} (h : Adds all pid groups more groups')
    (hpids : ∀ other ∈ frontier, other ∈ root :: all.map (·.pid)) :
    ∀ other ∈ more ++ (children all pid ++ frontier), other ∈ root :: all.map (·.pid) := by
  intro other hmem
  rcases List.mem_append.mp hmem with hgroup | hmem
  · rcases h with ⟨rfl, -⟩ | ⟨process, -, -, rfl, -⟩
    · cases hgroup
    · exact List.mem_cons_of_mem _ (pid_of_mem_groupMembers hgroup)
  rcases List.mem_append.mp hmem with hchild | hold
  · exact List.mem_cons_of_mem _ (pid_of_mem_children hchild)
  · exact hpids other hold

theorem Adds.measure {fuel : Nat} {frontier seen groups more groups' : List Int}
    (h : Adds all pid groups more groups') (hpid : pid ∈ root :: all.map (·.pid))
    (hnew : pid ∉ seen)
    (hfuel : frontier.length + 1 + (unseen all root seen).card * (2 * all.length) ≤ fuel + 1) :
    (more ++ (children all pid ++ frontier)).length
      + (unseen all root (pid :: seen)).card * (2 * all.length) ≤ fuel := by
  have hcard := unseen_visit hpid hnew
  have hchildren : (children all pid).length ≤ all.length := length_children pid
  have hlength : more.length ≤ all.length := by
    rcases h with ⟨rfl, -⟩ | ⟨process, -, -, rfl, -⟩
    · exact Nat.zero_le _
    · exact length_groupMembers _
  rw [← hcard, Nat.add_mul] at hfuel
  rw [length_append, length_append]
  omega

/-- With fuel for what may still be visited, the walk explores all that is ahead. -/
theorem walk_explores (fuel : Nat) (frontier seen groups : List Int)
    (hfuel : frontier.length + (unseen all root seen).card * (2 * all.length) ≤ fuel)
    (hpids : ∀ pid ∈ frontier, pid ∈ root :: all.map (·.pid))
    (h : Explored all holder frontier seen groups) :
    (∃ groups', Explored all holder [] (walk all holder fuel frontier seen groups) groups') ∧
      (∀ pid ∈ seen, pid ∈ walk all holder fuel frontier seen groups) ∧
      ∀ pid ∈ frontier, Eligible holder pid → pid ∈ walk all holder fuel frontier seen groups := by
  induction fuel generalizing frontier seen groups with
  | zero =>
    obtain rfl : frontier = [] := eq_nil_of_length_eq_zero (by omega)
    exact ⟨⟨groups, h⟩, fun _ hseen => hseen, by simp⟩
  | succ fuel ih =>
    cases frontier with
    | nil => exact ⟨⟨groups, h⟩, fun _ hseen => hseen, by simp⟩
    | cons pid frontier =>
      have hrest : ∀ other ∈ frontier, other ∈ root :: all.map (·.pid) :=
        fun other hother => hpids other (List.mem_cons_of_mem _ hother)
      rw [length_cons] at hfuel
      by_cases hskip : pid ≤ 1 ∨ pid = holder ∨ pid ∈ seen
      · rw [walk_skip hskip]
        obtain ⟨hexplored, hseen, hahead⟩ :=
          ih frontier seen groups (by omega) hrest (h.skip hskip)
        refine ⟨hexplored, hseen, fun other hmem heligible => ?_⟩
        rcases mem_cons.mp hmem with rfl | hold
        · rcases hskip with hlow | hholder | hin
          · exact absurd heligible.1 (by omega)
          · exact absurd hholder heligible.2
          · exact hseen _ hin
        · exact hahead other hold heligible
      obtain ⟨more, groups', hwalk, hmore⟩ := walk_visit hskip frontier groups
      have hnew : pid ∉ seen := fun hin => hskip (.inr (.inr hin))
      have hleft := hmore.measure (hpids pid List.mem_cons_self) hnew hfuel
      rw [hwalk]
      obtain ⟨hexplored, hseen, hwalked⟩ :=
        ih _ _ groups' hleft (hmore.pids hrest) (h.visit hmore)
      refine ⟨hexplored, fun other hother => hseen other (List.mem_cons_of_mem _ hother),
        fun other hmem heligible => ?_⟩
      rcases mem_cons.mp hmem with rfl | hold
      · exact hseen _ List.mem_cons_self
      · exact hwalked other (mem_append_right _ (mem_append_right _ hold)) heligible

theorem fuel_root (root : Int) :
    [root].length + (unseen all root []).card * (2 * all.length) ≤ walkFuel all := by
  have hcard : (unseen all root []).card ≤ all.length + 1 := by
    refine le_trans (Finset.card_le_card Finset.sdiff_subset) ?_
    refine (toFinset_card_le _).trans (le_of_eq ?_)
    rw [length_cons, length_map]
  exact Nat.add_le_add_left (Nat.mul_le_mul_right _ hcard) 1

/-- **The walk visits the tree**, and nothing else. -/
theorem mem_members : pid ∈ members all holder root ↔ InTree all holder root pid := by
  constructor
  · refine walk_sound _ [root] [] [] (by simp) (fun other hmem heligible => ?_) pid
    obtain rfl := mem_singleton.mp hmem
    exact .root heligible
  have hstart : Explored all holder [root] [] [] := ⟨by simp, by simp, by simp⟩
  obtain ⟨⟨groups, hexplored⟩, -, hroot⟩ :=
    walk_explores (walkFuel all) [root] [] [] (fuel_root root) (by simp) hstart
  intro h
  induction h with
  | root heligible => exact hroot _ List.mem_cons_self heligible
  | child _ hin hparent heligible ih =>
    rcases hexplored.children _ hin (hparent ▸ ih) heligible with hseen | hnone
    · exact hseen
    · cases hnone
  | group _ hfind hpgid hin hsame heligible ih =>
    have hgroup := hexplored.scanned _ ih _ hfind hpgid
    rcases hexplored.members _ hin (hsame ▸ hgroup) heligible with hseen | hnone
    · exact hseen
    · cases hnone

end ProcessTree

end Diri

namespace Diri

namespace ProcessTree

variable {world : World} {root : Int} {trace trace' : Trace}

/-! ### What a trace may contain -/

/-- A walk among the events, no later than `now`, has the sample. -/
def Sampled (events : List Event) (now : Nat) (sample : HolderProcessSample) : Prop :=
  ∃ time all samples, Event.walked time all samples ∈ events ∧ time ≤ now ∧ sample ∈ samples

/-- What the events before it say for an event. -/
def Justified (world : World) (root : Int) (before : List Event) : Event → Prop
  | .walked time all samples =>
    (∀ process ∈ all, ∃ t, t < time ∧ lookup world t process.pid = some process) ∧
      ∀ sample ∈ samples, InTree all world.holder root sample.pid ∧
        ∃ t, t < time ∧ startAt world t sample.pid = some sample.startSec
  | .killed .group target _ _ => target = -root ∨ target = root
  | .killed .root target signal _ => target = root ∧ signal = .stop
  | .killed .checked target _ time => ∃ sample, Sampled before time sample ∧
      sample.pid = target ∧ startAt world time target = some sample.startSec
  | .killed .member target signal time => (∃ sample, Sampled before time sample ∧
      sample.pid = target) ∧ (signal = .stop ∨ signal = .cont)

/-- Every event of the trace is justified by those before it. -/
def Accounted (world : World) (root : Int) (events : List Event) : Prop :=
  ∀ before event after, events = before ++ event :: after → Justified world root before event

theorem Accounted.append {events : List Event} (h : Accounted world root events) {event : Event}
    (hevent : Justified world root events event) : Accounted world root (events ++ [event]) := by
  intro before other after hsplit
  rcases List.eq_nil_or_concat after with rfl | ⟨after, last, rfl⟩
  · obtain ⟨rfl, hlast⟩ := List.append_inj' hsplit rfl
    obtain rfl := List.singleton_inj.mp hlast
    exact hevent
  · rw [List.concat_eq_append, ← List.cons_append, ← List.append_assoc] at hsplit
    exact h before other after (List.append_inj' hsplit rfl).1

/-- One trace goes on from the other, and stays accounted for. -/
structure Continues (world : World) (root : Int) (trace trace' : Trace) : Prop where
  clock : trace.clock ≤ trace'.clock
  events : ∃ more, trace'.events = trace.events ++ more
  accounted : Accounted world root trace.events → Accounted world root trace'.events

theorem Continues.refl (trace : Trace) : Continues world root trace trace :=
  ⟨Nat.le_refl _, ⟨[], (List.append_nil _).symm⟩, fun h => h⟩

theorem Continues.trans {trace'' : Trace} (h : Continues world root trace trace')
    (h' : Continues world root trace' trace'') : Continues world root trace trace'' := by
  obtain ⟨more, hmore⟩ := h.events
  obtain ⟨more', hmore'⟩ := h'.events
  refine ⟨h.clock.trans h'.clock, ⟨more ++ more', ?_⟩, fun hall => h'.accounted (h.accounted hall)⟩
  rw [hmore', hmore, List.append_assoc]

/-- The tree is of samples that the trace has. -/
def Known (trace : Trace) (tree : List HolderProcessSample) : Prop :=
  ∀ sample ∈ tree, Sampled trace.events trace.clock sample

theorem Continues.known (h : Continues world root trace trace') {tree : List HolderProcessSample}
    (hknown : Known trace tree) : Known trace' tree := by
  intro sample hsample
  obtain ⟨time, all, samples, hwalked, htime, hmem⟩ := hknown sample hsample
  obtain ⟨more, hmore⟩ := h.events
  refine ⟨time, all, samples, ?_, htime.trans h.clock, hmem⟩
  rw [hmore]
  exact List.mem_append_left _ hwalked

theorem mem_ordered {α : Type} {order : α → α → Bool} {items : List α} {item : α} :
    item ∈ ordered order items ↔ item ∈ items := List.mem_insertionSort _

/-! ### System calls -/

theorem Continues.idle (hclock : trace.clock ≤ trace'.clock)
    (hevents : trace'.events = trace.events) : Continues world root trace trace' :=
  ⟨hclock, ⟨[], by rw [hevents, List.append_nil]⟩, fun h => hevents ▸ h⟩

theorem Continues.kill {aim : Aim} {target : Int} {signal : Signal}
    (h : Justified world root trace.events (.killed aim target signal trace.clock)) :
    Continues world root trace (kill aim target signal trace) :=
  ⟨Nat.le_succ _, ⟨_, rfl⟩, fun hall => hall.append h⟩

variable (world root)

theorem observeAll_spec (pids : List Int) (trace : Trace) :
    (observeAll world pids trace).2.events = trace.events ∧
      trace.clock ≤ (observeAll world pids trace).2.clock ∧
      ∀ process ∈ (observeAll world pids trace).1, ∃ t, t < (observeAll world pids trace).2.clock ∧
        lookup world t process.pid = some process := by
  induction pids generalizing trace with
  | nil => exact ⟨rfl, Nat.le_refl _, by simp [observeAll]⟩
  | cons pid rest ih =>
    obtain ⟨hevents, hclock, hrest⟩ := ih { trace with clock := trace.clock + 1 }
    refine ⟨hevents, (Nat.le_succ _).trans hclock, fun process hprocess => ?_⟩
    rcases List.mem_append.mp hprocess with hfirst | hlater
    · have hseen : lookup world trace.clock pid = some process := Option.mem_toList.mp hfirst
      have hpid : process.pid = pid := by simpa using List.find?_some hseen
      exact ⟨trace.clock, hclock, hpid ▸ hseen⟩
    · exact hrest process hlater

theorem sample_spec (pids : List Int) (trace : Trace) :
    (sample world pids trace).2.events = trace.events ∧
      trace.clock ≤ (sample world pids trace).2.clock ∧
      ∀ found ∈ (sample world pids trace).1, found.pid ∈ pids ∧
        ∃ t, t < (sample world pids trace).2.clock ∧
          startAt world t found.pid = some found.startSec := by
  induction pids generalizing trace with
  | nil => exact ⟨rfl, Nat.le_refl _, by simp [sample]⟩
  | cons pid rest ih =>
    obtain ⟨hevents, hclock, hrest⟩ := ih { trace with clock := trace.clock + 1 }
    refine ⟨hevents, (Nat.le_succ _).trans hclock, fun found hfound => ?_⟩
    rcases List.mem_append.mp hfound with hfirst | hlater
    · obtain ⟨start, hstart, rfl⟩ := Option.map_eq_some_iff.mp (Option.mem_toList.mp hfirst)
      exact ⟨List.mem_cons_self, trace.clock, hclock, hstart⟩
    · obtain ⟨hmem, t, ht, hstart⟩ := hrest found hlater
      exact ⟨List.mem_cons_of_mem _ hmem, t, ht, hstart⟩

theorem enumerate_spec (trace : Trace) : Continues world root trace (enumerate world root trace).2 ∧
      Known (enumerate world root trace).2 (enumerate world root trace).1 := by
  unfold enumerate
  by_cases hroot : root ≤ 1
  · rw [if_pos hroot]
    exact ⟨.refl _, by simp [Known]⟩
  rw [if_neg hroot]
  simp only [snapshot]
  generalize ((world.table trace.clock).map (·.pid)).filter (fun pid => 1 < pid) = listed
  obtain ⟨hevents, hclock, hall⟩ :=
    observeAll_spec world listed { trace with clock := trace.clock + 1 }
  generalize observeAll world listed { trace with clock := trace.clock + 1 } = observed at *
  obtain ⟨all, seen⟩ := observed
  obtain ⟨hevents', hclock', hsamples⟩ := sample_spec world
    (ordered (world.pidOrder seen.clock) (members all world.holder root)) seen
  generalize hsampled : sample world _ seen = sampled at *
  obtain ⟨samples, done⟩ := sampled
  simp only [] at hevents hclock hall hevents' hclock' hsamples ⊢
  have hwalked : Justified world root trace.events (.walked done.clock all samples) := by
    refine ⟨fun process hprocess => ?_, fun found hfound => ?_⟩
    · obtain ⟨t, ht, hseen⟩ := hall process hprocess
      exact ⟨t, ht.trans_le hclock', hseen⟩
    · obtain ⟨hmem, hstart⟩ := hsamples found hfound
      exact ⟨mem_members.mp (mem_ordered.mp hmem), hstart⟩
  rw [hevents', hevents]
  refine ⟨⟨?_, ⟨_, rfl⟩, fun h => h.append hwalked⟩, fun found hfound => ?_⟩
  · exact (Nat.le_succ _).trans (hclock.trans hclock')
  · exact ⟨done.clock, all, samples, by simp, Nat.le_refl _, hfound⟩

/-! ### Signals -/

theorem signalGroup_continues (signal : Signal) (trace : Trace) :
    Continues world root trace (signalGroup world root signal trace) := by
  have hgroup : Continues world root trace (kill .group (-root) signal trace) := .kill (.inl rfl)
  unfold signalGroup
  simp only []
  split
  · exact hgroup.trans (.kill (.inr rfl))
  · exact hgroup

theorem killChecked_continues {signal : Signal} {sample : HolderProcessSample}
    (h : Sampled trace.events trace.clock sample) :
    Continues world root trace (killChecked world signal sample trace) := by
  unfold killChecked
  split
  · next hstart => exact .kill ⟨sample, h, rfl, hstart⟩
  · exact .idle (Nat.le_succ _) rfl

theorem foldl_continues {f : Trace → HolderProcessSample → Trace}
    (hf : ∀ trace sample, Sampled trace.events trace.clock sample →
      Continues world root trace (f trace sample)) (tree : List HolderProcessSample)
    (hknown : Known trace tree) : Continues world root trace (tree.foldl f trace) := by
  induction tree generalizing trace with
  | nil => exact .refl _
  | cons sample rest ih =>
    have hfirst := hf trace sample (hknown sample List.mem_cons_self)
    rw [List.foldl_cons]
    refine hfirst.trans (ih (hfirst.known fun other hother => ?_))
    exact hknown other (List.mem_cons_of_mem _ hother)

variable (tree : List HolderProcessSample)

theorem stopMembers_continues (hknown : Known trace tree) :
    Continues world root trace (stopMembers world tree trace).2 := by
  induction tree generalizing trace with
  | nil => exact .refl _
  | cons sample rest ih =>
    have hrest : Known trace rest := fun other hother =>
      hknown other (List.mem_cons_of_mem _ hother)
    unfold stopMembers
    split
    · have hkill : Continues world root trace (kill .member sample.pid .stop trace) :=
        .kill ⟨⟨sample, hknown sample List.mem_cons_self, rfl⟩, .inl rfl⟩
      exact hkill.trans (ih (hkill.known hrest))
    have hidle : Continues world root trace { trace with clock := trace.clock + 1 } :=
      .idle (Nat.le_succ _) rfl
    exact hidle.trans (ih (hidle.known hrest))

theorem stopTree_continues (turns : Nat) (tree : List HolderProcessSample) (trace : Trace) :
    Continues world root trace (stopTree world root turns tree trace).2 := by
  induction turns generalizing tree trace with
  | zero => exact .refl _
  | succ turns ih =>
    obtain ⟨hwalked, hknown⟩ := enumerate_spec world root trace
    have hstopped := stopMembers_continues world root _ hknown
    simp only [stopTree]
    split
    · exact hwalked.trans hstopped
    · exact (hwalked.trans hstopped).trans (ih _ _)

theorem filterAlive_continues (trace : Trace) :
    Continues world root trace (filterAlive world tree trace).2 := by
  induction tree generalizing trace with
  | nil => exact .refl _
  | cons sample rest ih =>
    have hidle : Continues world root trace { trace with clock := trace.clock + 1 } :=
      .idle (Nat.le_succ _) rfl
    exact hidle.trans (ih _)

theorem signal_continues (sent : Signal) (trace : Trace) :
    Continues world root trace (signal world root sent trace).2 := by
  unfold signal
  split
  · have hroot : Continues world root trace (kill .root root .stop trace) := .kill ⟨rfl, rfl⟩
    simp only []
    exact (hroot.trans (stopTree_continues world root 6 [] _)).trans
      (filterAlive_continues world root _ _)
  obtain ⟨hwalked, hknown⟩ := enumerate_spec world root trace
  have hgroup := signalGroup_continues world root sent (enumerate world root trace).2
  have hturns : Known (enumerate world root trace).2
      (if sent = .cont then ordered (fun a b => decide (b.startSec ≤ a.startSec))
        (enumerate world root trace).1 else (enumerate world root trace).1) := by
    split
    · exact fun sample hsample => hknown sample (mem_ordered.mp hsample)
    · exact hknown
  simp only []
  refine (hwalked.trans hgroup).trans (foldl_continues world root ?_ _ (hgroup.known hturns))
  exact fun _ _ hsample => killChecked_continues world root hsample

theorem allGone_continues (trace : Trace) :
    Continues world root trace (allGone world tree trace).2 := by
  induction tree generalizing trace with
  | nil => exact .refl _
  | cons sample rest ih =>
    have hidle : Continues world root trace { trace with clock := trace.clock + 1 } :=
      .idle (Nat.le_succ _) rfl
    simp only [allGone]
    split
    · exact hidle
    · exact hidle.trans (ih _)

theorem awaitGone_continues (rounds : Nat) (trace : Trace) :
    Continues world root trace (awaitGone world tree rounds trace).2 := by
  induction rounds generalizing trace with
  | zero => exact .refl _
  | succ rounds ih =>
    have hlook := allGone_continues world root tree trace
    simp only [awaitGone]
    split
    · exact hlook
    · exact hlook.trans (ih _)

theorem killMember_continues {sample : HolderProcessSample}
    (h : Sampled trace.events trace.clock sample) :
    Continues world root trace (killMember world sample trace) := by
  unfold killMember
  split
  · next hstart =>
    have hkill : Continues world root trace (kill .checked sample.pid .kill trace) :=
      .kill ⟨sample, h, rfl, hstart⟩
    have hknown : Known trace [sample] := by simpa [Known] using h
    have hsample := hkill.known hknown sample List.mem_cons_self
    exact hkill.trans (.kill ⟨⟨sample, hsample, rfl⟩, .inr rfl⟩)
  · exact .idle (Nat.le_succ _) rfl

theorem killTree_continues (trace : Trace) :
    Continues world root trace (killTree world root trace) := by
  obtain ⟨hwalked, hknown⟩ := enumerate_spec world root trace
  generalize hfirst : enumerate world root trace = first at hwalked hknown
  have hterm := signal_continues world root .term first.2
  have hcont := signal_continues world root .cont (signal world root .term first.2).2
  have hsignalled := hterm.trans hcont
  generalize hsecond : (signal world root .cont (signal world root .term first.2).2).2 = signalled
    at hsignalled
  have hawait := awaitGone_continues world root first.1 world.rounds signalled
  unfold killTree
  simp only [hfirst, hsecond]
  split
  · exact hwalked.trans (hsignalled.trans hawait)
  generalize awaitGone world first.1 world.rounds signalled = waited at hawait ⊢
  have hwaited := hwalked.trans (hsignalled.trans hawait)
  obtain ⟨hwalked', hknown'⟩ := enumerate_spec world root waited.2
  generalize enumerate world root waited.2 = again at hwalked' hknown' ⊢
  have hgroup := signalGroup_continues world root .kill again.2
  refine hwaited.trans ((hwalked'.trans hgroup).trans ?_)
  refine foldl_continues world root (fun _ _ hsample => killMember_continues world root hsample)
    _ (hgroup.known fun sample hsample => ?_)
  rcases List.mem_append.mp (List.mem_dedup.mp (mem_ordered.mp hsample)) with hold | hnew
  · exact ((hsignalled.trans hawait).trans hwalked').known hknown sample hold
  · exact hknown' sample hnew

/-- An operation on the tree under a root. -/
inductive Operation
  | signal (sent : Signal)
  | killTree

def Operation.events : Operation → List Event
  | signal sent => (ProcessTree.signal world root sent {}).2.events
  | killTree => (ProcessTree.killTree world root {}).events

theorem Operation.accounted (operation : Operation) :
    Accounted world root (operation.events world root) := by
  have hempty : Accounted world root [] := by
    intro before event after hsplit
    cases before <;> cases hsplit
  cases operation with
  | signal sent => exact (signal_continues world root sent {}).accounted hempty
  | killTree => exact (killTree_continues world root {}).accounted hempty

/-- An earlier walk of the operation saw the pid in the tree, and sampled it. -/
def SampledAs (before : List Event) (time : Nat) (pid start : Int) : Prop :=
  ∃ walked all samples, Event.walked walked all samples ∈ before ∧ walked ≤ time ∧
    (∀ process ∈ all, ∃ t, t < walked ∧ lookup world t process.pid = some process) ∧
      InTree all world.holder root pid ∧ ⟨pid, start⟩ ∈ samples ∧
        ∃ t, t < walked ∧ startAt world t pid = some start

variable {world root} in
theorem SampledAs.eligible {before : List Event} {time : Nat} {pid start : Int}
    (h : SampledAs world root before time pid start) : Eligible world.holder pid := by
  obtain ⟨walked, all, samples, -, -, -, htree, -⟩ := h
  exact htree.eligible

/-- Whom a signal may reach, by how its target was chosen. -/
def MayReach (before : List Event) (target : Int) (sent : Signal) (time : Nat) : Aim → Prop
  | .group => target = -root ∨ target = root
  | .root => target = root ∧ sent = .stop
  | .checked => 1 < target ∧ target ≠ world.holder ∧ ∃ start,
      SampledAs world root before time target start ∧ startAt world time target = some start
  | .member => (sent = .stop ∨ sent = .cont) ∧ 1 < target ∧ target ≠ world.holder ∧ ∃ start,
      SampledAs world root before time target start

/--
**A signal to a single process reaches no stranger**, however the process table changes:
where the start time is checked, the process that is signalled has the start time that the
operation read for a member of the tree.  Where it is not, the pid is still that of a
member; the other signals go to the root and its group.
-/
theorem Operation.mayReach (operation : Operation) {before after : List Event} {aim : Aim}
    {target : Int} {sent : Signal} {time : Nat}
    (h : operation.events world root = before ++ .killed aim target sent time :: after) :
    MayReach world root before target sent time aim := by
  have hall := operation.accounted world root
  have hjustified := hall before _ after h
  have hwalks : ∀ found, Sampled before time found → SampledAs world root before time found.pid
      found.startSec := by
    rintro found ⟨walked, all, samples, hwalked, htime, hmem⟩
    obtain ⟨first, rest, rfl⟩ := List.append_of_mem hwalked
    have hwalk : Justified world root first (.walked walked all samples) :=
      hall first _ (rest ++ .killed aim target sent time :: after) (by rw [h]; simp)
    obtain ⟨hsaw, hsamples⟩ := hwalk
    obtain ⟨htree, hstart⟩ := hsamples found hmem
    exact ⟨walked, all, samples, hwalked, htime, hsaw, htree, hmem, hstart⟩
  cases aim with
  | group | root => exact hjustified
  | checked =>
    obtain ⟨found, hfound, rfl, hstart⟩ := hjustified
    have hsampled := hwalks found hfound
    obtain ⟨hpos, hother⟩ := hsampled.eligible
    exact ⟨hpos, hother, found.startSec, hsampled, hstart⟩
  | member =>
    obtain ⟨⟨found, hfound, rfl⟩, hsent⟩ := hjustified
    have hsampled := hwalks found hfound
    obtain ⟨hpos, hother⟩ := hsampled.eligible
    exact ⟨hsent, hpos, hother, found.startSec, hsampled⟩

/-! ### A pid that changes hands -/

/-- A child exits once the snapshot is taken, and its pid goes to a process of someone else. -/
def reused : World where
  table time :=
    if time < 3 then [⟨10, 7, 10, 3, false⟩, ⟨20, 10, 10, 5, false⟩]
    else [⟨10, 7, 10, 3, false⟩, ⟨20, 1, 20, 9, false⟩]
  holder := 7
  rounds := 1
  pidOrder _ a b := decide (a ≤ b)
  sampleOrder _ a b := decide (a.pid ≤ b.pid)

/-- The root is signalled as the process that it was. -/
theorem Operation.mayReach_root :
    MayReach reused 10 [.walked 5 [⟨10, 7, 10, 3, false⟩, ⟨20, 10, 10, 5, false⟩]
        [⟨10, 3⟩, ⟨20, 9⟩], .killed .group (-10) .term 5] 10 .term 6 .checked :=
  Operation.mayReach reused 10 (.signal .term)
    (show _ = _ ++ _ :: [.killed .checked 20 .term 7] by decide +kernel)

/-- The start time is read after that, so the check passes, and the stranger is signalled. -/
theorem stranger_signalled : (Operation.signal .term).events reused 10 =
        [.walked 5 [⟨10, 7, 10, 3, false⟩, ⟨20, 10, 10, 5, false⟩] [⟨10, 3⟩, ⟨20, 9⟩],
          .killed .group (-10) .term 5, .killed .checked 10 .term 6, .killed .checked 20 .term 7] ∧
      startAt reused 7 20 = some 9 := by
  decide +kernel

end ProcessTree

end Diri
