/-
Which parents the sidebar keeps.

A session loses the parent it names exactly when it leads into a cycle and comes before
every session it leads to.  The climb from a session ends because it sees no session
twice, and one turn of the loop changes nothing for the sessions before it.

The rows of one project.

The loop over the stack visits the forest in preorder.  `Placed` is what it knows of an
entry of its stack: how deep the session is, whether a row above it is folded away, and
which columns its rails light.  A row hands all of it on to its children, so it holds of
every row that comes out.

The law of a project's rows.

`TreeLaw` says what the rows and the tree order of a project are, in terms of its sessions
and their parents alone, never of how the rows are found.  The one thing that can break it
is a row's depth, which is a `u16`.
-/
import Diri.App.Projection
import Diri.Lib.Preorder

namespace Diri.App

open Relation List

variable {parents : SessionId → Option SessionId}

/-! ### One climb -/

theorem climb_ends {ids : List SessionId} (hclosed : ∀ x ∈ ids, ∀ y, parents x = some y → y ∈ ids) :
    ∀ (fuel : Nat) (seen : List SessionId) (cursor : Option SessionId), seen.Nodup → seen ⊆ ids →
      (∀ node, cursor = some node → node ∈ ids) → ids.length < fuel + seen.length →
      ∃ looped, climb parents fuel seen cursor = some looped := by
  intro fuel
  induction fuel with
  | zero =>
    intro seen cursor hnodup hsubset _ hlt
    have hle := (List.subperm_of_subset hnodup hsubset).length_le
    omega
  | succ fuel ih =>
    intro seen cursor hnodup hsubset hcursor hlt
    cases cursor with
    | none => exact ⟨false, rfl⟩
    | some node =>
      by_cases hseen : node ∈ seen
      · exact ⟨true, by rw [climb, if_pos hseen]⟩
      have hnode := hcursor node rfl
      obtain ⟨looped, hlooped⟩ := ih (node :: seen) (parents node)
        (nodup_cons.mpr ⟨hseen, hnodup⟩) (cons_subset.mpr ⟨hnode, hsubset⟩)
        (hclosed node hnode) (by simp only [List.length_cons]; omega)
      exact ⟨looped, by rw [climb, if_neg hseen, hlooped]⟩

theorem grounded_of_climb {fuel : Nat} {seen : List SessionId} {cursor : Option SessionId}
    (h : climb parents fuel seen cursor = some false) :
    ∀ node, cursor = some node → Grounded parents node := by
  induction fuel generalizing seen cursor with
  | zero =>
    rintro node rfl
    simp [climb] at h
  | succ fuel ih =>
    rintro node rfl
    rw [climb] at h
    split at h
    · cases h
    have habove := ih h
    cases hparent : parents node with
    | none => exact .root hparent
    | some above => exact .step hparent (habove above hparent)

theorem cycle_of_climb {fuel : Nat} {seen : List SessionId} {cursor : Option SessionId}
    (h : climb parents fuel seen cursor = some true)
    (hseen : ∀ x ∈ seen, ∀ node, cursor = some node → TransGen (PointsAt parents) x node) :
    ∃ y, (∀ node, cursor = some node → ReflTransGen (PointsAt parents) node y) ∧
      TransGen (PointsAt parents) y y := by
  induction fuel generalizing seen cursor with
  | zero =>
    cases cursor with
    | none | some node => simp [climb] at h
  | succ fuel ih =>
    cases cursor with
    | none => simp [climb] at h
    | some node =>
      rw [climb] at h
      split at h
      · rename_i hmem
        refine ⟨node, ?_, hseen node hmem node rfl⟩
        rintro _ ⟨⟩
        exact .refl
      obtain ⟨y, hreach, hcycle⟩ := ih h fun x hx above habove => by
        rcases mem_cons.mp hx with rfl | hx
        · exact .single habove
        · exact .tail (hseen x hx node rfl) habove
      cases hparent : parents node with
      | none =>
        rw [hparent] at h
        cases fuel <;> simp [climb] at h
      | some above =>
        refine ⟨y, ?_, hcycle⟩
        rintro _ ⟨⟩
        exact .head hparent (hreach above hparent)

theorem climb_spec {fuel : Nat} {start : SessionId} {looped : Bool}
    (h : climb parents fuel [start] (parents start) = some looped) :
    looped = true ↔ ¬ Grounded parents start := by
  cases looped with
  | false =>
    have habove := grounded_of_climb h
    have hgrounded : Grounded parents start := by
      cases hparent : parents start with
      | none => exact .root hparent
      | some above => exact .step hparent (habove above hparent)
    simp [hgrounded]
  | true =>
    obtain ⟨y, hreach, hcycle⟩ := cycle_of_climb h fun x hx node hnode => by
      obtain rfl := mem_singleton.mp hx
      exact .single hnode
    refine ⟨fun _ hgrounded => ?_, fun _ => rfl⟩
    cases hparent : parents start with
    | none =>
      rw [hparent] at h
      cases fuel <;> simp [climb] at h
    | some above =>
      obtain ⟨n, hn⟩ := (hgrounded.above hparent).reaches (hreach above hparent)
      exact hn.acyclic hcycle

theorem grounded_of_acyclic {ids : List SessionId}
    (hclosed : ∀ x y, parents x = some y → x ∈ ids ∧ y ∈ ids)
    (hacyclic : ∀ x, ¬ TransGen (PointsAt parents) x x) (x : SessionId) : Grounded parents x := by
  cases hparent : parents x with
  | none => exact .root hparent
  | some above =>
    obtain ⟨looped, hlooped⟩ := climb_ends (fun y _ z hz => (hclosed y z hz).2) ids.length [x]
      (parents x) (pairwise_singleton _ x) (by simpa using (hclosed x above hparent).1)
      (fun node hnode => (hclosed x node hnode).2) (by simp)
    cases looped with
    | false => exact not_not.mp fun hx => by simpa using (climb_spec hlooped).mpr hx
    | true =>
      obtain ⟨y, -, hcycle⟩ := cycle_of_climb hlooped fun z hz node hnode => by
        obtain rfl := mem_singleton.mp hz
        exact .single hnode
      exact absurd hcycle (hacyclic y)

/-! ### The loop over the sessions -/

variable {up : SessionId → Option SessionId} {order : List SessionId}

/-- Of the sessions done so far, those that break a cycle point at nothing. -/
structure BrokenUpTo (up : SessionId → Option SessionId) (order done : List SessionId)
    (parents : SessionId → Option SessionId) : Prop where
  broken : ∀ x ∈ done, BreaksCycle up order x → parents x = none
  kept : ∀ x, ¬ (x ∈ done ∧ BreaksCycle up order x) → parents x = up x

namespace BrokenUpTo

variable {done rest : List SessionId} {start : SessionId}

section
variable (h : BrokenUpTo up order done parents)
include h

theorem dropped (x : SessionId) : parents x = none ∨ parents x = up x := by
  by_cases hx : x ∈ done ∧ BreaksCycle up order x
  · exact .inl (h.broken x hx.1 hx.2)
  · exact .inr (h.kept x hx)

/-- The session whose turn it is leads into a cycle now if and only if it breaks one. -/
theorem loops_iff (horder : order = done ++ start :: rest)
    (hstart : start ∉ done) : ¬ Grounded parents start ↔ BreaksCycle up order start := by
  have hindex : order.idxOf start = done.length := by
    rw [horder, idxOf_append_of_notMem hstart, idxOf_cons_self, Nat.add_zero]
  have hdone : ∀ x, order.idxOf x < order.idxOf start ↔ x ∈ done := by
    intro x
    rw [hindex, horder]
    by_cases hx : x ∈ done
    · rw [idxOf_append_of_mem hx]
      exact iff_of_true (idxOf_lt_length_of_mem hx) hx
    · rw [idxOf_append_of_notMem hx]
      exact iff_of_false (by omega) hx
  constructor
  · intro hlooped
    have hup : ¬ Grounded up start := fun hgrounded => hlooped (.of_dropped h.dropped hgrounded)
    refine ⟨hup, fun z hz => ?_⟩
    by_contra hlt
    -- Something no later than `z` breaks the cycle; it has had its turn and broken it.
    obtain ⟨w, hzw, hw, hle⟩ :=
      exists_breaksCycle order fun hgrounded => hup (.of_reaches hz hgrounded)
    have hwdone := (hdone w).mp (by omega)
    exact hlooped (.of_reaches_dropped h.dropped (hz.trans hzw) (.root (h.broken w hwdone hw)))
  · rintro ⟨hup, hfirst⟩ hgrounded
    refine hup (Grounded.congr (fun y hy => h.kept y fun hmem => ?_) hgrounded)
    have hlt := (hdone y).mpr hmem.1
    have hle := hfirst y hy
    omega

theorem breakCycle (horder : order = done ++ start :: rest)
    (hstart : start ∉ done) {fuel : Nat} {looped : Bool}
    (hclimb : climb parents fuel [start] (parents start) = some looped) :
    BrokenUpTo up order (done ++ [start])
      (if looped then Function.update parents start none else parents) := by
  have hloops := (climb_spec hclimb).trans (h.loops_iff horder hstart)
  cases looped with
  | true =>
    rw [if_pos rfl]
    have hbreaks := hloops.mp rfl
    constructor
    · intro x hx hbreak
      by_cases hxstart : x = start
      · rw [hxstart, Function.update_self]
      · rw [Function.update_of_ne hxstart]
        exact h.broken x (by simpa [hxstart] using hx) hbreak
    intro x hx
    have hxstart : x ≠ start := by
      rintro rfl
      exact hx ⟨by simp, hbreaks⟩
    rw [Function.update_of_ne hxstart]
    exact h.kept x fun hmem => hx ⟨by simp [hmem.1], hmem.2⟩
  | false =>
    have hkeeps : ¬ BreaksCycle up order start := fun hbreaks => by
      simpa using hloops.mpr hbreaks
    refine ⟨fun x hx hbreak => ?_, fun x hx => h.kept x fun hmem => hx ⟨by simp [hmem.1], hmem.2⟩⟩
    rcases mem_append.mp hx with hx | hx
    · exact h.broken x hx hbreak
    · exact absurd (mem_singleton.mp hx ▸ hbreak) hkeeps

end

theorem foldlM (hnodup : order.Nodup) (hclosed : ∀ x ∈ order, ∀ y, up x = some y → y ∈ order)
    {fuel : Nat} (hfuel : order.length ≤ fuel) (rest : List SessionId) :
    ∀ (done : List SessionId) (parents : SessionId → Option SessionId), order = done ++ rest →
      BrokenUpTo up order done parents →
      ∃ resolved, rest.foldlM (App.breakCycle fuel) parents = some resolved ∧
        BrokenUpTo up order order resolved := by
  induction rest with
  | nil =>
    rintro done parents horder h
    rw [List.append_nil] at horder
    exact ⟨parents, rfl, by rwa [← horder] at h⟩
  | cons start rest ih =>
    intro done parents horder h
    have hstart : start ∉ done := by
      rw [horder] at hnodup
      exact fun hmem => (List.nodup_append.mp hnodup).2.2 start hmem start (by simp) rfl
    have hmem : start ∈ order := by simp [horder]
    have hclosed' : ∀ x ∈ order, ∀ y, parents x = some y → y ∈ order := by
      intro x hx y hy
      rcases h.dropped x with hnone | hup
      · rw [hnone] at hy
        cases hy
      · exact hclosed x hx y (hup.symm.trans hy)
    obtain ⟨looped, hlooped⟩ := climb_ends hclosed' fuel [start] (parents start) (pairwise_singleton
      _ start) (by simpa using hmem) (hclosed' start hmem) (by simp only [length_singleton]; omega)
    obtain ⟨resolved, hresolved, hbroken⟩ := ih (done ++ [start]) _ (by simp [horder])
      (h.breakCycle horder hstart hlooped)
    refine ⟨resolved, ?_, hbroken⟩
    rw [foldlM_cons, App.breakCycle, hlooped]
    exact hresolved

end BrokenUpTo

/-! ### The result -/

/-- What `resolve_parents` makes of the parents that the sessions of a group name. -/
structure Resolved (active : List SessionRecord) (parents : SessionId → Option SessionId) :
    Prop where
  broken : ∀ x, BreaksCycle (namedParent active) (active.map (·.id)) x → parents x = none
  kept : ∀ x, ¬ BreaksCycle (namedParent active) (active.map (·.id)) x →
    parents x = namedParent active x

theorem namedParent_eq_some {active : List SessionRecord} {x y : SessionId}
    (h : namedParent active x = some y) : x ∈ active.map (·.id) ∧ y ∈ active.map (·.id) ∧ y ≠ x ∧
      ∃ session ∈ active, session.id = x ∧ session.parent = some y := by
  obtain ⟨session, hfind, hparent⟩ := Option.bind_eq_some_iff.mp h
  obtain ⟨hparent, hkeep⟩ := Option.filter_eq_some_iff.mp hparent
  have hmem := mem_of_find?_eq_some hfind
  have hid : session.id = x := by simpa using find?_some hfind
  simp only [Bool.and_eq_true, any_eq_true, decide_eq_true_eq] at hkeep
  obtain ⟨⟨other, hother, hotherid⟩, hne⟩ := hkeep
  exact ⟨List.mem_map.mpr ⟨session, hmem, hid⟩, List.mem_map.mpr ⟨other, hother, hotherid⟩, hne,
    session, hmem, hid, hparent⟩

theorem resolveParents_eq {active : List SessionRecord} (hnodup : (active.map (·.id)).Nodup) :
    ∃ parents, resolveParents active = some parents ∧ Resolved active parents := by
  have hstart : BrokenUpTo (namedParent active) (active.map (·.id)) [] (namedParent active) :=
    ⟨by simp, fun _ _ => rfl⟩
  have hlength : (active.map (·.id)).length ≤ active.length := by simp
  obtain ⟨parents, hparents, hbroken⟩ := BrokenUpTo.foldlM hnodup
    (fun x _ y hy => (namedParent_eq_some hy).2.1) hlength _ [] _ rfl hstart
  refine ⟨parents, hparents, fun x hx => ?_, fun x hx => hbroken.kept x fun hmem => hx hmem.2⟩
  by_cases hmem : x ∈ active.map (·.id)
  · exact hbroken.broken x hmem hx
  refine absurd (Grounded.root ?_) hx.1
  by_contra hsome
  obtain ⟨y, hy⟩ := Option.ne_none_iff_exists'.mp hsome
  exact hmem (namedParent_eq_some hy).1

namespace Resolved

variable {active : List SessionRecord}

section
variable (h : Resolved active parents)
include h

theorem grounded (x : SessionId) : Grounded parents x := grounded_of_broken h.broken h.kept x

theorem named {x y : SessionId} (hxy : parents x = some y) : namedParent active x = some y := by
  by_cases hx : BreaksCycle (namedParent active) (active.map (·.id)) x
  · rw [h.broken x hx] at hxy
    cases hxy
  · exact (h.kept x hx).symm.trans hxy

theorem kept_of_grounded {x : SessionId}
    (hx : Grounded (namedParent active) x) : parents x = namedParent active x :=
  h.kept x fun hbreaks => hbreaks.1 hx

theorem depth {x : SessionId} {n : Nat}
    (hn : Depth (namedParent active) x n) : Depth parents x n := by
  induction hn with
  | root hroot => exact .root ((h.kept_of_grounded (.root hroot)).trans hroot)
  | step hstep habove ih =>
    exact .step ((h.kept_of_grounded (.step hstep ⟨_, habove⟩)).trans hstep) ih

end

end Resolved

end Diri.App

namespace Diri.App

open Relation

variable {prefs : Prefs} {active : List SessionRecord} {parents : SessionId → Option SessionId}

/-! ### The children of a session -/

theorem mem_childrenOf {parent : Option SessionId} {session : SessionRecord} :
    session ∈ childrenOf prefs parents active parent ↔
      session ∈ active ∧ parents session.id = parent := by
  rw [childrenOf, List.mem_insertionSort, List.mem_filter, decide_eq_true_eq]

theorem nodup_childrenOf (hnodup : (active.map (·.id)).Nodup) (parent : Option SessionId) :
    ((childrenOf prefs parents active parent).map (·.id)).Nodup := by
  have hperm := (List.perm_insertionSort (fun left right => siblingKey prefs left ≤ siblingKey prefs
    right) (active.filter fun session => parents session.id = parent)).map (·.id)
  exact hperm.nodup_iff.mpr (hnodup.sublist (List.filter_sublist.map _))

def childIds (prefs : Prefs) (parents : SessionId → Option SessionId) (active : List SessionRecord)
    (parent : SessionId) : List SessionId :=
  (childrenOf prefs parents active (some parent)).map (·.id)

theorem childIds_up (x : SessionId) : ∀ y ∈ childIds prefs parents active x, parents y = some x := by
  intro y hy
  obtain ⟨session, hsession, rfl⟩ := List.mem_map.mp hy
  exact (mem_childrenOf.mp hsession).2

theorem childIds_down (h : Resolved active parents) (x y : SessionId) (hxy : parents y = some x) :
    y ∈ childIds prefs parents active x := by
  obtain ⟨hy, -⟩ := namedParent_eq_some (h.named hxy)
  obtain ⟨session, hsession, rfl⟩ := List.mem_map.mp hy
  exact List.mem_map.mpr ⟨session, mem_childrenOf.mpr ⟨hsession, hxy⟩, rfl⟩

theorem depth_lt (h : Resolved active parents) {x : SessionId} (hx : x ∈ active.map (·.id)) {n : Nat}
    (hn : Depth parents x n) : n < active.length := by
  have hlt := hn.lt_length hx fun y _ z hz => (namedParent_eq_some (h.named hz)).2.1
  simpa using hlt

/-! ### The entries of the stack -/

/-- No row above the session folds it away. -/
def Unfolded (prefs : Prefs) (parents : SessionId → Option SessionId) (id : SessionId) : Prop :=
  ∀ above, TransGen (PointsAt parents) id above → above ∉ prefs.sidebarCollapsedSessions

def HasLater (prefs : Prefs) (parents : SessionId → Option SessionId) (active : List SessionRecord)
    (id : SessionId) : Prop :=
  ∃ later, [id, later].Sublist ((childrenOf prefs parents active (parents id)).map (·.id))

theorem exists_later_iff {α : Type} {x : α} {before after : List α}
    (hnodup : (before ++ x :: after).Nodup) :
    (∃ later, [x, later].Sublist (before ++ x :: after)) ↔ after ≠ [] := by
  have hx : x ∉ before := fun hmem => (List.nodup_append.mp hnodup).2.2 x hmem x (by simp) rfl
  constructor
  · rintro ⟨later, hsub⟩ rfl
    obtain ⟨left, right, hsplit, hleft, hright⟩ := List.sublist_append_iff.mp hsub
    cases left with
    | nil =>
      rw [List.nil_append] at hsplit
      have hle := hright.length_le
      simp [← hsplit] at hle
    | cons y left =>
      obtain rfl : x = y := by simpa using congrArg List.head? hsplit
      exact hx (hleft.subset (by simp))
  · intro hafter
    obtain ⟨later, rest, rfl⟩ := List.exists_cons_of_ne_nil hafter
    exact ⟨later, (((List.nil_sublist rest).cons_cons later).cons_cons x).trans
      (List.sublist_append_right before _)⟩

/-- The column is lit just where the ancestor that owns it has a sibling below. -/
def RailRight (prefs : Prefs) (parents : SessionId → Option SessionId) (active : List SessionRecord)
    (id : SessionId) (rails column : Nat) : Prop :=
  rails.testBit column = true ↔
    ∃ owner, ReflTransGen (PointsAt parents) id owner ∧ Depth parents owner (column + 1) ∧
      HasLater prefs parents active owner

/-- The stack's entry says of its session what is so. -/
structure Placed (prefs : Prefs) (parents : SessionId → Option SessionId)
    (active : List SessionRecord) (expanded : Bool) (d : Nat) (frame : Frame) : Prop where
  mem : frame.session ∈ active
  deep : Depth parents frame.session.id d
  depth : frame.depth = d % 2 ^ 16
  visible : frame.visible = true ↔ expanded = true ∧ Unfolded prefs parents frame.session.id
  rails : d ≤ 2 ^ 16 → ∀ column, column < 31 ∨ d ≤ 32 →
    RailRight prefs parents active frame.session.id frame.rails column

theorem mem_push {children : SessionId → List SessionRecord} {frame child : Frame}
    (h : child ∈ frame.push prefs children) :
    ∃ before session after, children frame.session.id = before ++ session :: after ∧ child =
        { session := session
          depth := (frame.depth + 1) % 2 ^ 16
          visible := frame.visible && !frame.collapsed prefs children
          rails := if after = [] then frame.rails else frame.rails ||| 1 <<< min frame.depth 31 } := by
  obtain ⟨position, hlt, rfl⟩ := List.mem_mapIdx.mp h
  refine ⟨(children frame.session.id).take position, (children frame.session.id)[position],
    (children frame.session.id).drop (position + 1), ?_, ?_⟩
  · rw [← List.drop_eq_getElem_cons hlt, List.take_append_drop]
  · have hlast : position + 1 = (children frame.session.id).length ↔
        (children frame.session.id).drop (position + 1) = [] := by
      rw [List.drop_eq_nil_iff]
      omega
    simp only [hlast]

theorem push_session (children : SessionId → List SessionRecord) (frame : Frame) :
    (frame.push prefs children).map (·.session) = children frame.session.id := by
  refine List.ext_getElem (by simp [Frame.push]) fun i h _ => ?_
  simp [Frame.push]

namespace Placed

variable {expanded : Bool} {d : Nat} {frame : Frame}

theorem railRight_child (h : Placed prefs parents active expanded d frame) (hd : d < 2 ^ 16)
    {child : SessionId} (hchild : parents child = some frame.session.id) {lit : Bool}
    (hlit : lit = true ↔ HasLater prefs parents active child) {column : Nat}
    (hcolumn : column < 31 ∨ d + 1 ≤ 32) : RailRight prefs parents active child
      (if lit then frame.rails ||| 1 <<< min frame.depth 31 else frame.rails) column := by
  have hdepth : frame.depth = d := by
    rw [h.depth, Nat.mod_eq_of_lt hd]
  have hparent := h.rails hd.le column (by omega)
  have hbit : (if lit then frame.rails ||| 1 <<< min frame.depth 31 else frame.rails).testBit column
      = (frame.rails.testBit column || (lit && decide (column = d))) := by
    cases lit with
    | false => simp
    | true =>
      rw [if_pos rfl, Nat.testBit_or, hdepth, Nat.one_shiftLeft, Nat.testBit_two_pow]
      have hmin : min d 31 = column ↔ column = d := by omega
      simp [hmin]
  have hdeep : Depth parents child (d + 1) := .step hchild h.deep
  rw [RailRight] at hparent ⊢
  rw [hbit, Bool.or_eq_true, Bool.and_eq_true, decide_eq_true_eq, hlit, hparent]
  constructor
  · rintro (⟨owner, hreach, howner, hlater⟩ | ⟨hlater, rfl⟩)
    · exact ⟨owner, .head hchild hreach, howner, hlater⟩
    · exact ⟨child, .refl, hdeep, hlater⟩
  rintro ⟨owner, hreach, howner, hlater⟩
  rcases ReflTransGen.cases_head hreach with rfl | ⟨above, hpoint, habove⟩
  · have hcol : column + 1 = d + 1 := howner.unique hdeep
    exact .inr ⟨hlater, by omega⟩
  · obtain rfl := Option.some.inj (hchild.symm.trans hpoint)
    exact .inl ⟨owner, habove, howner, hlater⟩

theorem push (h : Placed prefs parents active expanded d frame) (hnodup : (active.map (·.id)).Nodup) :
    ∀ child ∈ frame.push prefs fun id => childrenOf prefs parents active (some id),
      Placed prefs parents active expanded (d + 1) child := by
  intro child hmem
  obtain ⟨before, session, after, hchildren, rfl⟩ := mem_push hmem
  have hsession := mem_childrenOf.mp (hchildren ▸ List.mem_append_right before List.mem_cons_self)
  have hsiblings : (childrenOf prefs parents active (parents session.id)).map (·.id) =
      before.map (·.id) ++ session.id :: after.map (·.id) := by
    rw [hsession.2, hchildren, List.map_append, List.map_cons]
  have hnodup' : (before.map (·.id) ++ session.id :: after.map (·.id)).Nodup :=
    hsiblings ▸ nodup_childrenOf hnodup _
  have hlater : (!decide (after = [])) = true ↔ HasLater prefs parents active session.id := by
    rw [HasLater, hsiblings, exists_later_iff hnodup']
    simp
  have hfolded : frame.collapsed prefs (fun id => childrenOf prefs parents active (some id)) = true ↔
      frame.session.id ∈ prefs.sidebarCollapsedSessions := by
    simp [Frame.collapsed, Frame.hasChildren, hchildren]
  constructor
  · exact hsession.1
  · exact .step hsession.2 h.deep
  · simp only [h.depth]
    omega
  · rw [Bool.and_eq_true, h.visible, Bool.not_eq_true', ← Bool.not_eq_true, hfolded, and_assoc]
    refine and_congr_right fun _ => ?_
    constructor
    · rintro ⟨hunfolded, hself⟩ above hreach
      obtain ⟨next, hpoint, hup⟩ := TransGen.head'_iff.mp hreach
      obtain rfl := Option.some.inj (hsession.2.symm.trans hpoint)
      rcases reflTransGen_iff_eq_or_transGen.mp hup with rfl | hup
      · exact hself
      · exact hunfolded above hup
    · intro hunfolded
      exact ⟨fun above hreach => hunfolded above (.head hsession.2 hreach),
        hunfolded _ (.single hsession.2)⟩
  · intro hd column hcolumn
    have hrails := h.railRight_child (by omega) hsession.2 hlater hcolumn
    by_cases hafter : after = []
    · simpa [hafter] using hrails
    · simpa [hafter] using hrails

theorem root {root : SessionRecord} (hroot : root ∈ childrenOf prefs parents active none) :
    Placed prefs parents active expanded 0
      { session := root, depth := 0, visible := expanded, rails := 0 } := by
  obtain ⟨hmem, hnone⟩ := mem_childrenOf.mp hroot
  have hdeep : Depth parents root.id 0 := .root hnone
  constructor
  · exact hmem
  · exact hdeep
  · rfl
  · have hunfolded : Unfolded prefs parents root.id := by
      intro above hreach
      exact absurd (hdeep.ancestor_lt hreach) (by simp)
    simp [hunfolded]
  intro _ column _
  rw [RailRight, Nat.zero_testBit]
  refine iff_of_false (by simp) ?_
  rintro ⟨owner, hreach, howner, -⟩
  obtain ⟨m, hm, hdeep'⟩ := hdeep.ancestor_le hreach
  have heq : column + 1 = m := howner.unique hdeep'
  omega

end Placed

/-! ### The loop -/

theorem flatten_eq {children : SessionId → List SessionRecord} {stack visits : List Frame}
    (h : Preorder (Frame.push prefs children) stack visits) :
    ∀ (fuel : Nat) (rest : List Frame) (rows : List SidebarRow) (treeOrder : List SessionRecord),
      flatten prefs children (visits.length + fuel) (stack ++ rest) rows treeOrder =
        flatten prefs children fuel rest
          (rows ++ (visits.filter (·.visible)).map (Frame.row prefs children))
          (treeOrder ++ visits.map (·.session)) := by
  induction h with
  | nil => simp
  | cons hbelow hafter ihBelow ihAfter =>
    rename_i frame stack below after
    intro fuel rest rows treeOrder
    have hlength : (frame :: (below ++ after)).length + fuel =
        (below.length + (after.length + fuel)) + 1 := by
      simp only [List.length_cons, List.length_append]
      omega
    rw [hlength, List.cons_append, flatten, ihBelow, ihAfter]
    cases hvisible : frame.visible <;> simp [hvisible]

/-- What the loop over the stack makes of a project's sessions. -/
structure Drawn (prefs : Prefs) (active : List SessionRecord) (expanded : Bool)
    (parents : SessionId → Option SessionId) (visits : List Frame) : Prop where
  preorder : Preorder (childIds prefs parents active)
    ((childrenOf prefs parents active none).map (·.id)) (visits.map (·.session.id))
  placed : ∀ frame ∈ visits, ∃ d, Placed prefs parents active expanded d frame
  perm : (visits.map (·.session)).Perm active

theorem buildTree_eq (prefs : Prefs) (hnodup : (active.map (·.id)).Nodup) (expanded : Bool) :
    ∃ parents visits, resolveParents active = some parents ∧ Resolved active parents ∧
      Drawn prefs active expanded parents visits ∧
      buildTree prefs active expanded = some ((visits.filter (·.visible)).map
            (Frame.row prefs fun id => childrenOf prefs parents active (some id)),
          visits.map (·.session)) := by
  obtain ⟨parents, hparents, hresolved⟩ := resolveParents_eq hnodup
  have hids : ∀ {x : SessionRecord} {d : Nat}, x ∈ active → Depth parents x.id d →
      d < active.length := fun hx hd => depth_lt hresolved (List.mem_map_of_mem hx) hd
  have hroots : ∀ frame ∈ (childrenOf prefs parents active none).map fun root : SessionRecord =>
      ({ session := root, depth := 0, visible := expanded, rails := 0 } : Frame),
      Placed prefs parents active expanded 0 frame := by
    intro frame hframe
    obtain ⟨root, hroot, rfl⟩ := List.mem_map.mp hframe
    exact .root hroot
  obtain ⟨visits, hvisits⟩ := Preorder.exists_of_bounded
    (P := fun d frame => Placed prefs parents active expanded d frame)
    (fun d frame hframe => hframe.push hnodup) (fun d frame hframe => hids hframe.mem hframe.deep)
    0 _ hroots
  have hplaced : ∀ frame ∈ visits, ∃ d, Placed prefs parents active expanded d frame :=
    hvisits.forall_mem (fun frame ⟨d, hd⟩ child hchild => ⟨d + 1, hd.push hnodup child hchild⟩)
      fun frame hframe => ⟨0, hroots frame hframe⟩
  have hkids : ∀ frame : Frame,
      (frame.push prefs fun id => childrenOf prefs parents active (some id)).map (·.session.id) =
        childIds prefs parents active frame.session.id := by
    intro frame
    have hsessions : (frame.push prefs fun id => childrenOf prefs parents active (some id)).map
        (·.session) = childrenOf prefs parents active (some frame.session.id) := push_session _ frame
    rw [childIds, ← hsessions, List.map_map]
    rfl
  have hpreorder := hvisits.map hkids
  rw [List.map_map] at hpreorder
  have hdrawn : (visits.map (·.session)).Perm active := by
    have hdistinct : ((visits.map (·.session)).map (·.id)).Nodup := by
      rw [List.map_map]
      refine hpreorder.nodup childIds_up (fun x => nodup_childrenOf hnodup _) (d := 0) ?_
        (nodup_childrenOf hnodup none)
      intro x hx
      obtain ⟨root, hroot, rfl⟩ := List.mem_map.mp hx
      exact .root (mem_childrenOf.mp hroot).2
    refine (List.perm_ext_iff_of_nodup (hdistinct.of_map _) (hnodup.of_map _)).mpr fun session => ?_
    constructor
    · intro hmem
      obtain ⟨frame, hframe, rfl⟩ := List.mem_map.mp hmem
      obtain ⟨d, hd⟩ := hplaced frame hframe
      exact hd.mem
    intro hmem
    have hid := hpreorder.mem_of_grounded (childIds_down hresolved) (hresolved.grounded session.id)
      fun x hreach hnone => ?_
    · obtain ⟨frame, hframe, heq⟩ := List.mem_map.mp hid
      obtain ⟨d, hd⟩ := hplaced frame hframe
      have hsame : frame.session = session := List.inj_on_of_nodup_map hnodup hd.mem hmem heq
      exact List.mem_map.mpr ⟨frame, hframe, hsame⟩
    have hx : x ∈ active.map (·.id) := by
      rcases reflTransGen_iff_eq_or_transGen.mp hreach with rfl | hup
      · exact List.mem_map_of_mem hmem
      · obtain ⟨y, -, hpoint⟩ := TransGen.tail'_iff.mp hup
        exact (namedParent_eq_some (hresolved.named hpoint)).2.1
    obtain ⟨root, hroot, rfl⟩ := List.mem_map.mp hx
    exact List.mem_map.mpr ⟨root, mem_childrenOf.mpr ⟨hroot, hnone⟩, rfl⟩
  refine ⟨parents, visits, hparents, hresolved, ⟨hpreorder, hplaced, hdrawn⟩, ?_⟩
  have hlength : visits.length = active.length := by simpa using hdrawn.length_eq
  have hflatten := flatten_eq hvisits 0 [] [] []
  rw [Nat.add_zero, List.append_nil, hlength] at hflatten
  rw [buildTree, hparents]
  simpa [flatten] using hflatten

end Diri.App

namespace Diri.App

open Relation

/-! ### Lists -/

/-- Two members of a part of a list stand in the part as they stand in the list. -/
theorem pair_sublist_of_sublist {α : Type} [DecidableEq α] {part all : List α} {x y : α}
    (hnodup : all.Nodup) (hpart : part.Sublist all) (hx : x ∈ part) (hy : y ∈ part)
    (hpair : [x, y].Sublist all) : [x, y].Sublist part := by
  have hle : (all.filter (· ∈ part)).length ≤ part.length :=
    (List.subperm_of_subset (hnodup.filter _) fun z hz => by simpa using (List.mem_filter.mp hz).2)
      |>.length_le
  have hself : part.filter (· ∈ part) = part := List.filter_eq_self.mpr (by simp)
  have hkept := hpart.filter (· ∈ part)
  rw [hself] at hkept
  rw [hkept.eq_of_length_le hle]
  have hfilter := hpair.filter (· ∈ part)
  rwa [List.filter_cons_of_pos (by simpa using hx), List.filter_cons_of_pos (by simpa using hy)]
    at hfilter

/-! ### The rows of one project -/

def LaterSibling (parents : SessionId → Option SessionId) (treeOrder : List SessionRecord)
    (id : SessionId) : Prop :=
  ∃ later, parents later = parents id ∧ [id, later].Sublist (treeOrder.map (·.id))

/-- What the rows of a project, and its sessions in tree order, are. -/
structure TreeLaw (prefs : Prefs) (expanded : Bool) (parents : SessionId → Option SessionId)
    (rows : List SidebarRow) (treeOrder : List SessionRecord) : Prop where
  /-- Right behind a session stand all that it leads down to, and nothing else between them. -/
  subtree : ∀ session ∈ treeOrder, ∃ before below after,
    treeOrder = before ++ session :: (below ++ after) ∧
      ∀ other, other ∈ below ↔ other ∈ treeOrder ∧ TransGen (PointsAt parents) other.id session.id
  rowOrder : (rows.map (·.session)).Sublist treeOrder
  visible : ∀ session ∈ treeOrder, session ∈ rows.map (·.session) ↔
    expanded = true ∧ Unfolded prefs parents session.id
  depth : ∀ row ∈ rows, Depth parents row.session.id row.depth
  rails : ∀ row ∈ rows, ∀ column, column < 31 ∨ row.depth ≤ 32 →
    (row.rails.testBit column = true ↔
      ∃ owner, ReflTransGen (PointsAt parents) row.session.id owner ∧
        Depth parents owner (column + 1) ∧ LaterSibling parents treeOrder owner)

namespace Drawn

variable {prefs : Prefs} {active : List SessionRecord} {parents : SessionId → Option SessionId}
  {expanded : Bool} {visits : List Frame}

def rows (prefs : Prefs) (parents : SessionId → Option SessionId) (active : List SessionRecord)
    (visits : List Frame) : List SidebarRow :=
  (visits.filter (·.visible)).map
    (Frame.row prefs fun id => childrenOf prefs parents active (some id))

theorem rows_session : (rows prefs parents active visits).map (·.session) =
    (visits.filter (·.visible)).map (·.session) := by
  rw [rows, List.map_map]
  rfl

section
variable (h : Drawn prefs active expanded parents visits)
include h

theorem nodup_ids (hnodup : (active.map (·.id)).Nodup) : (visits.map (·.session.id)).Nodup := by
  have hperm := (h.perm.map (·.id)).nodup_iff.mpr hnodup
  rwa [List.map_map] at hperm

theorem siblings_sublist (hr : Resolved active parents) (id : SessionId) :
    ((childrenOf prefs parents active (parents id)).map (·.id)).Sublist
      (visits.map (·.session.id)) := by
  cases hparent : parents id with
  | none => exact h.preorder.sublist
  | some parent =>
    have hmem : parent ∈ visits.map (·.session.id) := by
      have hids := ((h.perm.map (·.id)).mem_iff).mpr (namedParent_eq_some (hr.named hparent)).2.1
      rwa [List.map_map] at hids
    obtain ⟨before, below, after, heq, hbelow⟩ := h.preorder.split hmem
    rw [heq]
    exact hbelow.sublist.trans ((List.sublist_append_left below after).trans
      ((List.sublist_cons_self parent _).trans (List.sublist_append_right before _)))

theorem hasLater_iff (hr : Resolved active parents)
    (hnodup : (active.map (·.id)).Nodup) (id : SessionId) :
    HasLater prefs parents active id ↔ LaterSibling parents (visits.map (·.session)) id := by
  have hids : (visits.map (·.session)).map (·.id) = visits.map (·.session.id) := by
    rw [List.map_map]
    rfl
  have hmem : ∀ x, x ∈ visits.map (·.session.id) ↔ x ∈ active.map (·.id) := by
    intro x
    rw [← hids]
    exact (h.perm.map (·.id)).mem_iff
  have hsibling : ∀ x, x ∈ visits.map (·.session.id) → parents x = parents id →
      x ∈ (childrenOf prefs parents active (parents id)).map (·.id) := by
    intro x hx hparent
    obtain ⟨session, hsession, rfl⟩ := List.mem_map.mp ((hmem x).mp hx)
    exact List.mem_map.mpr ⟨session, mem_childrenOf.mpr ⟨hsession, hparent⟩, rfl⟩
  rw [HasLater, LaterSibling, hids]
  constructor
  · rintro ⟨later, hpair⟩
    obtain ⟨session, hsession, rfl⟩ := List.mem_map.mp (hpair.subset (by simp) : later ∈ _)
    exact ⟨session.id, (mem_childrenOf.mp hsession).2, hpair.trans (h.siblings_sublist hr id)⟩
  · rintro ⟨later, hparent, hpair⟩
    exact ⟨later, pair_sublist_of_sublist (h.nodup_ids hnodup) (h.siblings_sublist hr id) (hsibling
      id (hpair.subset (by simp)) rfl) (hsibling later (hpair.subset (by simp)) hparent) hpair⟩

theorem subtree (hr : Resolved active parents)
    (hnodup : (active.map (·.id)).Nodup) {session : SessionRecord}
    (hmem : session ∈ visits.map (·.session)) :
    ∃ before below after, visits.map (·.session) = before ++ session :: (below ++ after) ∧
      ∀ other, other ∈ below ↔
        other ∈ visits.map (·.session) ∧ TransGen (PointsAt parents) other.id session.id := by
  have hids : (visits.map (·.session)).map (·.id) = visits.map (·.session.id) := by
    rw [List.map_map]
    rfl
  have hdistinct := h.nodup_ids hnodup
  rw [← hids] at hdistinct
  have hid : session.id ∈ visits.map (·.session.id) := hids ▸ List.mem_map_of_mem hmem
  obtain ⟨before', below', after', heq, hbelow⟩ := h.preorder.split hid
  rw [← hids] at heq
  obtain ⟨before, tail, hsplit, rfl, htail⟩ := List.map_eq_append_iff.mp heq
  obtain ⟨found, rest, rfl, hfound, hrest⟩ := List.map_eq_cons_iff.mp htail
  obtain ⟨below, after, rfl, rfl, rfl⟩ := List.map_eq_append_iff.mp hrest
  have hsame : ∀ {x y : SessionRecord}, x ∈ visits.map (·.session) →
      y ∈ visits.map (·.session) → x.id = y.id → x = y :=
    fun hx hy => List.inj_on_of_nodup_map hdistinct hx hy
  obtain rfl := hsame (by simp [hsplit]) hmem hfound
  refine ⟨before, below, after, hsplit, fun other => ?_⟩
  have hunder := hbelow.mem_below_iff childIds_up (childIds_down hr) other.id
  constructor
  · intro hother
    exact ⟨by simp [hsplit, hother], hunder.mp (List.mem_map_of_mem hother)⟩
  · rintro ⟨hother, hpath⟩
    obtain ⟨same, hsamemem, heq⟩ := List.mem_map.mp (hunder.mpr hpath)
    obtain rfl := hsame (by simp [hsplit, hsamemem]) hother heq
    exact hsamemem

theorem treeLaw (hr : Resolved active parents) (hnodup : (active.map (·.id)).Nodup)
    (hshallow : ∀ session ∈ active, expanded = true → Unfolded prefs parents session.id →
      ∀ d, Depth parents session.id d → d < 2 ^ 16) :
    TreeLaw prefs expanded parents (rows prefs parents active visits) (visits.map (·.session)) := by
  have hrow : ∀ row ∈ rows prefs parents active visits, ∃ frame ∈ visits,
      row = frame.row prefs (fun id => childrenOf prefs parents active (some id)) ∧
        Placed prefs parents active expanded row.depth frame ∧ row.depth < 2 ^ 16 := by
    intro row hrow
    obtain ⟨frame, hframe, rfl⟩ := List.mem_map.mp hrow
    obtain ⟨hmem, hvisible⟩ := List.mem_filter.mp hframe
    obtain ⟨d, hd⟩ := h.placed frame hmem
    obtain ⟨hexpanded, hunfolded⟩ := hd.visible.mp hvisible
    have hlt := hshallow frame.session hd.mem hexpanded hunfolded d hd.deep
    have hdepth : frame.depth = d := by rw [hd.depth, Nat.mod_eq_of_lt hlt]
    exact ⟨frame, hmem, rfl, by simpa [Frame.row, hdepth] using hd, by simpa [Frame.row, hdepth] using hlt⟩
  constructor
  · exact fun session hmem => h.subtree hr hnodup hmem
  · rw [rows_session]
    exact List.filter_sublist.map _
  · intro session hmem
    rw [rows_session]
    constructor
    · intro hrows
      obtain ⟨frame, hframe, rfl⟩ := List.mem_map.mp hrows
      obtain ⟨hframe, hvisible⟩ := List.mem_filter.mp hframe
      obtain ⟨d, hd⟩ := h.placed frame hframe
      exact hd.visible.mp hvisible
    · intro hvisible
      obtain ⟨frame, hframe, rfl⟩ := List.mem_map.mp hmem
      obtain ⟨d, hd⟩ := h.placed frame hframe
      exact List.mem_map.mpr ⟨frame, List.mem_filter.mpr ⟨hframe, hd.visible.mpr hvisible⟩, rfl⟩
  · intro row hmem
    obtain ⟨frame, -, rfl, hd, -⟩ := hrow row hmem
    exact hd.deep
  · intro row hmem column hcolumn
    obtain ⟨frame, -, rfl, hd, hlt⟩ := hrow row hmem
    have hrails := hd.rails hlt.le column hcolumn
    simp only [RailRight, h.hasLater_iff hr hnodup] at hrails
    exact hrails

theorem row_depth_lt {row : SidebarRow}
    (hrow : row ∈ rows prefs parents active visits) : row.depth < 2 ^ 16 := by
  obtain ⟨frame, hframe, rfl⟩ := List.mem_map.mp hrow
  obtain ⟨d, hd⟩ := h.placed frame (List.mem_filter.mp hframe).1
  have hdepth := hd.depth
  simp only [Frame.row]
  omega

end

end Drawn

end Diri.App
