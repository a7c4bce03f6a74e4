/-
What the search field keeps.

Caret and anchor are between characters, whatever is done to the field; from this alone every
operation cuts the text where it can be cut, so none panics.  A piece of a segmentation ends
between characters, and so do the ends of what is put in or left over.

Only one thing an operation says is not so: an insertion that replaces the selection by the
text it already is says that the text has changed.
-/
import Diri.App.QueryEditor
import Diri.Lib.Run

namespace Diri.Query

open List

variable {seg : Segmentation} {editor editor' : QueryEditor} {call : EditorCall}

structure Valid (editor : QueryEditor) : Prop where
  cursor : IsBoundary editor.text editor.cursor
  anchor : IsBoundary editor.text editor.anchor

/-! ### Motions -/

theorem offsetBefore_spec (seg : Segmentation) {text : List Char} {start : Nat}
    (h : IsBoundary text start) (motion : Motion) :
    ∃ target, offsetBefore seg text start motion = some target ∧ IsBoundary text target ∧
      target ≤ start := by
  obtain ⟨before, after, rfl, rfl⟩ := h
  have hsplit : splitBytes (before ++ after) (byteLength before) = some (before, after) :=
    splitBytes_eq_some.mpr ⟨rfl, rfl⟩
  unfold offsetBefore
  cases motion with
  | line => exact ⟨0, rfl, isBoundary_zero _, Nat.zero_le _⟩
  | character =>
    rw [hsplit]
    have hpieces := isBoundary_pieces (List.dropLast_prefix (seg.graphemes before))
    rw [seg.flatten_graphemes] at hpieces
    exact ⟨_, rfl, hpieces.append_right after, hpieces.le⟩
  | word =>
    rw [hsplit]
    have hsuffix : ((seg.words before).reverse.dropWhile (isSeparator seg)).tail <:+
        (seg.words before).reverse := (tail_suffix _).trans (dropWhile_suffix _)
    have hprefix := reverse_prefix.mpr hsuffix
    rw [reverse_reverse] at hprefix
    have hpieces := isBoundary_pieces hprefix
    rw [seg.flatten_words] at hpieces
    exact ⟨_, rfl, hpieces.append_right after, hpieces.le⟩

theorem offsetAfter_spec (seg : Segmentation) {text : List Char} {start : Nat}
    (h : IsBoundary text start) (motion : Motion) :
    ∃ target, offsetAfter seg text start motion = some target ∧ IsBoundary text target ∧
      start ≤ target := by
  have hle := h.le
  obtain ⟨before, after, rfl, rfl⟩ := h
  have hsplit : splitBytes (before ++ after) (byteLength before) = some (before, after) :=
    splitBytes_eq_some.mpr ⟨rfl, rfl⟩
  unfold offsetAfter
  cases motion with
  | line => exact ⟨_, rfl, isBoundary_length _, hle⟩
  | character =>
    rw [hsplit]
    refine ⟨_, rfl, ?_, Nat.le_add_right _ _⟩
    have hprefix : (seg.graphemes after).head?.toList <+: seg.graphemes after := by
      cases seg.graphemes after with
      | nil => exact prefix_rfl
      | cons grapheme rest => exact ⟨rest, rfl⟩
    have hpieces := isBoundary_pieces hprefix
    rw [seg.flatten_graphemes] at hpieces
    have hfirst : (seg.graphemes after).head?.toList.flatten =
        (seg.graphemes after).head?.getD [] := by
      cases (seg.graphemes after).head? with
      | none => rfl
      | some grapheme => exact append_nil grapheme
    rw [hfirst] at hpieces
    exact hpieces.append_left before
  | word =>
    rw [hsplit]
    have hwords := seg.flatten_words after
    simp only [Option.bind_eq_bind, Option.bind_some]
    cases hrest : (seg.words after).dropWhile (isSeparator seg) with
    | nil => exact ⟨_, rfl, isBoundary_length _, hle⟩
    | cons word rest =>
      have hprefix : (seg.words after).takeWhile (isSeparator seg) ++ [word] <+:
          seg.words after := by
        refine ⟨rest, ?_⟩
        rw [append_assoc, singleton_append, ← hrest, takeWhile_append_dropWhile]
      have hpieces := isBoundary_pieces hprefix
      rw [hwords, flatten_append, byteLength_append, flatten_singleton] at hpieces
      refine ⟨_, rfl, ?_, by omega⟩
      rw [Nat.add_assoc]
      exact hpieces.append_left before

/-! ### Cuts -/

/-- The text without what was between two offsets. -/
def Removed (text : List Char) (start stop : Nat) (text' : List Char) : Prop :=
  ∃ before middle after, text = before ++ middle ++ after ∧ byteLength before = start ∧
    byteLength (before ++ middle) = stop ∧ text' = before ++ after

variable {range : Nat × Nat} {start stop : Nat}

theorem Valid.selection (hvalid : Valid editor) (h : editor.selection = some range) :
    IsBoundary editor.text range.1 ∧ IsBoundary editor.text range.2 ∧ range.1 < range.2 := by
  unfold QueryEditor.selection at h
  split at h
  · rename_i hne
    obtain ⟨⟩ := h
    rcases Nat.lt_or_gt_of_ne hne with hlt | hlt
    · rw [Nat.min_eq_left (Nat.le_of_lt hlt), Nat.max_eq_right (Nat.le_of_lt hlt)]
      exact ⟨hvalid.cursor, hvalid.anchor, hlt⟩
    · rw [Nat.min_eq_right (Nat.le_of_lt hlt), Nat.max_eq_left (Nat.le_of_lt hlt)]
      exact ⟨hvalid.anchor, hvalid.cursor, hlt⟩
  · cases h

theorem removeRange_spec (hstart : IsBoundary editor.text start)
    (hstop : IsBoundary editor.text stop) (hle : start ≤ stop) :
    ∃ text', editor.removeRange start stop =
        some ({ text := text', cursor := start, anchor := start }, true) ∧
      Removed editor.text start stop text' ∧ IsBoundary text' start := by
  obtain ⟨before, middle, after, htext, rfl, rfl⟩ := hstart.between hstop hle
  refine ⟨before ++ after, ?_, ⟨before, middle, after, htext, rfl, rfl, rfl⟩,
    before, after, rfl, rfl⟩
  unfold QueryEditor.removeRange
  rw [replaceBytes_eq htext rfl rfl, append_nil]
  rfl

theorem Removed.eq_iff {text text' : List Char}
    (h : Removed text start stop text') : text' = text ↔ start = stop := by
  obtain ⟨before, middle, after, rfl, rfl, rfl, rfl⟩ := h
  rw [byteLength_append, append_assoc, append_cancel_left_eq, self_eq_append_left]
  rw [← byteLength_eq_zero]
  omega

theorem Removed.subset {text text' : List Char}
    (h : Removed text start stop text') {c : Char} (hc : c ∈ text') : c ∈ text := by
  obtain ⟨before, middle, after, rfl, -, -, rfl⟩ := h
  rcases mem_append.mp hc with hbefore | hafter
  · simp [hbefore]
  · simp [hafter]

/-! ### One operation -/

/-- What a deletion is to remove: the selection, or what is between the caret and where the
motion leads. -/
def deletedRange (seg : Segmentation) (editor : QueryEditor) : EditorCall → Option (Nat × Nat)
  | .deleteBackward motion =>
    editor.selection <|>
      (offsetBefore seg editor.text editor.cursor motion).map fun target =>
        (target, editor.cursor)
  | .deleteForward motion =>
    editor.selection <|>
      (offsetAfter seg editor.text editor.cursor motion).map fun target =>
        (editor.cursor, target)
  | .deleteTo offset =>
    let target := floorBoundary editor.text (min offset (byteLength editor.text))
    editor.selection <|> some (min target editor.cursor, max target editor.cursor)
  | _ => none

/-- The operation puts in the text that is selected. -/
def Repeats (editor : QueryEditor) : EditorCall → Prop
  | .insert insertion => editor.selectedText = some (some (filtered insertion))
  | .insertMultiline insertion => editor.selectedText = some (some (filteredLines insertion))
  | _ => False

def inserted : EditorCall → List Char
  | .insert insertion => filtered insertion
  | .insertMultiline insertion => filteredLines insertion
  | _ => []

/-- What an operation on a valid field comes to. -/
structure Applied (seg : Segmentation) (editor : QueryEditor) (call : EditorCall)
    (editor' : QueryEditor) (reply : Option Bool) : Prop where
  valid : Valid editor'
  deletes : ∀ range, deletedRange seg editor call = some range →
    Removed editor.text range.1 range.2 editor'.text
  replies : (∀ changed, reply = some changed → (changed = true ↔ editor'.text ≠ editor.text)) ↔
    ¬Repeats editor call
  chars : ∀ c ∈ editor'.text, c ∈ editor.text ∨ c ∈ inserted call

theorem Removed.refl {text : List Char} {offset : Nat} (h : IsBoundary text offset) :
    Removed text offset offset text := by
  obtain ⟨before, after, rfl, rfl⟩ := h
  exact ⟨before, [], after, by simp, rfl, by simp, rfl⟩

theorem applied_move (hnone : deletedRange seg editor call = none)
    (hinserted : ¬Repeats editor call) {cursor anchor : Nat}
    (hcursor : IsBoundary editor.text cursor) (hanchor : IsBoundary editor.text anchor) :
    Applied seg editor call { editor with cursor, anchor } none := by
  refine ⟨⟨hcursor, hanchor⟩, fun range h => ?_, iff_of_true (fun _ h => by cases h) hinserted,
    fun c hc => .inl hc⟩
  cases hnone.symm.trans h

theorem applied_remove (hrange : deletedRange seg editor call = some range)
    (hinserted : ¬Repeats editor call) {text' : List Char} (hlt : range.1 < range.2)
    (hremoved : Removed editor.text range.1 range.2 text') (hboundary : IsBoundary text' range.1) :
    Applied seg editor call ⟨text', range.1, range.1⟩ (some true) := by
  refine ⟨⟨hboundary, hboundary⟩, fun other h => ?_, iff_of_true (fun changed h => ?_) hinserted,
    fun c hc => .inl (hremoved.subset hc)⟩
  · cases hrange.symm.trans h
    exact hremoved
  · cases h
    refine iff_of_true rfl fun heq => ?_
    have := hremoved.eq_iff.mp heq
    omega

theorem applied_nothing (hvalid : Valid editor)
    (hrange : deletedRange seg editor call = some range) (hinserted : ¬Repeats editor call)
    (heq : range.1 = range.2) (hboundary : IsBoundary editor.text range.1) :
    Applied seg editor call editor (some false) := by
  refine ⟨hvalid, fun other h => ?_, iff_of_true (fun changed h => ?_) hinserted,
    fun c hc => .inl hc⟩
  · cases hrange.symm.trans h
    rw [← heq]
    exact Removed.refl hboundary
  · cases h
    simp

theorem applied_removeRange
    (hrange : deletedRange seg editor call = some (start, stop)) (hinserted : ¬Repeats editor call)
    (hstart : IsBoundary editor.text start) (hstop : IsBoundary editor.text stop)
    (hlt : start < stop) : ∃ editor', editor.removeRange start stop = some (editor', true) ∧
      Applied seg editor call editor' (some true) := by
  obtain ⟨text', hremove, hremoved, hboundary⟩ := removeRange_spec hstart hstop (Nat.le_of_lt hlt)
  exact ⟨_, hremove, applied_remove hrange hinserted hlt hremoved hboundary⟩

theorem selection_orElse (h : editor.selection = some range)
    (other : Option (Nat × Nat)) : (editor.selection <|> other) = some range := by
  rw [h]
  rfl

theorem no_selection_orElse (h : editor.selection = none) (other : Option (Nat × Nat)) :
    (editor.selection <|> other) = other := by
  rw [h]
  rfl

section
variable (hvalid : Valid editor)
include hvalid

theorem delete_selection (hselection : editor.selection = some range)
    (hrange : deletedRange seg editor call = some range) (hinserted : ¬Repeats editor call) :
    ∃ editor' changed, editor.removeRange range.1 range.2 = some (editor', changed) ∧
      Applied seg editor call editor' (some changed) := by
  obtain ⟨hstart, hstop, hlt⟩ := hvalid.selection hselection
  obtain ⟨editor', hremove, happlied⟩ := applied_removeRange hrange hinserted hstart hstop hlt
  exact ⟨editor', true, hremove, happlied⟩

theorem delete_between {same : Prop} [Decidable same]
    (hrange : deletedRange seg editor call = some (start, stop)) (hinserted : ¬Repeats editor call)
    (hstart : IsBoundary editor.text start) (hstop : IsBoundary editor.text stop)
    (hle : start ≤ stop) (hsame : same ↔ start = stop) :
    ∃ editor' changed, (if same then some (editor, false) else editor.removeRange start stop) =
        some (editor', changed) ∧ Applied seg editor call editor' (some changed) := by
  by_cases h : same
  · exact ⟨editor, false, if_pos h, applied_nothing hvalid hrange hinserted (hsame.mp h) hstart⟩
  obtain ⟨editor', hremove, happlied⟩ := applied_removeRange hrange hinserted hstart hstop
    (Nat.lt_of_le_of_ne hle (mt hsame.mpr h))
  exact ⟨editor', true, (if_neg h).trans hremove, happlied⟩

theorem deleteBackward_spec (motion : Motion)
    (hrange : deletedRange seg editor call = deletedRange seg editor (.deleteBackward motion))
    (hinserted : ¬Repeats editor call) :
    ∃ editor' changed, editor.deleteBackward seg motion = some (editor', changed) ∧
      Applied seg editor call editor' (some changed) := by
  unfold QueryEditor.deleteBackward
  cases hselection : editor.selection with
  | some range =>
    exact delete_selection hvalid hselection
      (hrange.trans (selection_orElse hselection _)) hinserted
  | none =>
    obtain ⟨target, htarget, hboundary, hle⟩ := offsetBefore_spec seg hvalid.cursor motion
    have hbetween : deletedRange seg editor (.deleteBackward motion) =
        some (target, editor.cursor) :=
      (no_selection_orElse hselection _).trans (by rw [htarget]; rfl)
    dsimp only
    rw [htarget]
    exact delete_between hvalid (hrange.trans hbetween) hinserted hboundary hvalid.cursor hle
      Iff.rfl

theorem deleteForward_spec (motion : Motion) :
    ∃ editor' changed, editor.deleteForward seg motion = some (editor', changed) ∧
      Applied seg editor (.deleteForward motion) editor' (some changed) := by
  unfold QueryEditor.deleteForward
  cases hselection : editor.selection with
  | some range =>
    rw [Option.isSome_some, if_pos rfl]
    refine deleteBackward_spec hvalid motion ?_ id
    exact (selection_orElse hselection _).trans (selection_orElse hselection _).symm
  | none =>
    obtain ⟨target, htarget, hboundary, hle⟩ := offsetAfter_spec seg hvalid.cursor motion
    have hbetween : deletedRange seg editor (.deleteForward motion) =
        some (editor.cursor, target) :=
      (no_selection_orElse hselection _).trans (by rw [htarget]; rfl)
    rw [Option.isSome_none, if_neg Bool.false_ne_true, htarget]
    exact delete_between hvalid hbetween id hvalid.cursor hboundary hle eq_comm

theorem deleteTo_spec (offset : Nat) :
    ∃ editor' changed, editor.deleteTo offset = some (editor', changed) ∧
      Applied seg editor (.deleteTo offset) editor' (some changed) := by
  unfold QueryEditor.deleteTo
  cases hselection : editor.selection with
  | some range =>
    exact delete_selection hvalid hselection (selection_orElse hselection _) id
  | none =>
    have hboundary := floorBoundary_isBoundary editor.text (min offset (byteLength editor.text))
    have hbetween : deletedRange seg editor (.deleteTo offset) =
        some (min (floorBoundary editor.text (min offset (byteLength editor.text))) editor.cursor,
          max (floorBoundary editor.text (min offset (byteLength editor.text))) editor.cursor) :=
      no_selection_orElse hselection _
    dsimp only
    generalize floorBoundary editor.text (min offset (byteLength editor.text)) = target at *
    have hends : IsBoundary editor.text (min target editor.cursor) ∧
        IsBoundary editor.text (max target editor.cursor) := by
      rcases Nat.le_total target editor.cursor with hle | hle
      · rw [Nat.min_eq_left hle, Nat.max_eq_right hle]
        exact ⟨hboundary, hvalid.cursor⟩
      · rw [Nat.min_eq_right hle, Nat.max_eq_left hle]
        exact ⟨hvalid.cursor, hboundary⟩
    exact delete_between hvalid hbetween id hends.1 hends.2 (by omega) (by omega)

theorem replaced_range :
    IsBoundary editor.text (editor.selection.getD (editor.cursor, editor.cursor)).1 ∧
      IsBoundary editor.text (editor.selection.getD (editor.cursor, editor.cursor)).2 ∧
      (editor.selection.getD (editor.cursor, editor.cursor)).1 ≤
        (editor.selection.getD (editor.cursor, editor.cursor)).2 := by
  cases hselection : editor.selection with
  | some range =>
    obtain ⟨hstart, hstop, hlt⟩ := hvalid.selection hselection
    exact ⟨hstart, hstop, Nat.le_of_lt hlt⟩
  | none => exact ⟨hvalid.cursor, hvalid.cursor, Nat.le_refl _⟩

end

theorem selectedText_iff {insertion before middle after : List Char}
    (hnothing : ¬(insertion = [] ∧ editor.selection = none))
    (htext : editor.text = before ++ middle ++ after)
    (hstart : byteLength before = (editor.selection.getD (editor.cursor, editor.cursor)).1)
    (hstop : byteLength (before ++ middle) =
      (editor.selection.getD (editor.cursor, editor.cursor)).2) :
    editor.selectedText = some (some insertion) ↔ insertion = middle := by
  unfold QueryEditor.selectedText
  cases hselection : editor.selection with
  | some range =>
    rw [hselection, Option.getD_some] at hstart hstop
    dsimp only
    rw [sliceBytes_eq htext hstart hstop]
    simp [eq_comm]
  | none =>
    rw [hselection] at hstart hstop
    refine iff_of_false (by simp) fun heq => hnothing ⟨?_, hselection⟩
    have hlength := hstart.trans hstop.symm
    rw [byteLength_append] at hlength
    rw [heq]
    exact byteLength_eq_zero.mp (by omega)

theorem replaceSelection_spec (hvalid : Valid editor) {insertion : List Char}
    (hdeletes : deletedRange seg editor call = none) (hinserted : inserted call = insertion)
    (hrepeats : Repeats editor call ↔ editor.selectedText = some (some insertion)) :
    ∃ editor' changed, editor.replaceSelection insertion = some (editor', changed) ∧
      Applied seg editor call editor' (some changed) := by
  unfold QueryEditor.replaceSelection
  by_cases hnothing : insertion = [] ∧ editor.selection = none
  · have hnot : ¬Repeats editor call := by
      rw [hrepeats]
      unfold QueryEditor.selectedText
      rw [hnothing.2]
      simp
    refine ⟨editor, false, if_pos hnothing, hvalid, fun range h => ?_,
      iff_of_true (fun changed h => ?_) hnot, fun c hc => .inl hc⟩
    · cases hdeletes.symm.trans h
    · cases h
      simp
  rw [if_neg hnothing]
  obtain ⟨hstart, hstop, hle⟩ := replaced_range hvalid
  obtain ⟨before, middle, after, htext, hbefore, hmiddle⟩ := hstart.between hstop hle
  have hsame := selectedText_iff hnothing htext hbefore hmiddle
  rw [← hrepeats] at hsame
  dsimp only
  rw [replaceBytes_eq htext hbefore hmiddle, ← hbefore, ← byteLength_append]
  have hcaret : IsBoundary (before ++ insertion ++ after) (byteLength (before ++ insertion)) :=
    ⟨before ++ insertion, after, rfl, rfl⟩
  refine ⟨_, true, rfl, ⟨hcaret, hcaret⟩, fun range h => ?_, ?_, fun c hc => ?_⟩
  · cases hdeletes.symm.trans h
  · rw [hsame]
    rw [htext, append_assoc, append_assoc, ne_eq, append_cancel_left_eq, append_cancel_right_eq]
    simp
  · rw [mem_append, mem_append] at hc
    rw [htext, hinserted, mem_append, mem_append]
    tauto

theorem collapsed_valid (hvalid : Valid editor) (extend : Bool) {edge : Nat × Nat → Nat}
    (hedge : ∀ range, editor.selection = some range → IsBoundary editor.text (edge range)) :
    ∃ cursor anchor, (editor.collapsed extend edge).1 = { editor with cursor, anchor } ∧
      IsBoundary editor.text cursor ∧ IsBoundary editor.text anchor ∧
      (editor.collapsed extend edge).2.getD cursor = cursor := by
  unfold QueryEditor.collapsed
  cases extend with
  | true => exact ⟨editor.cursor, editor.anchor, rfl, hvalid.cursor, hvalid.anchor, rfl⟩
  | false =>
    cases hselection : editor.selection with
    | none => exact ⟨editor.cursor, editor.anchor, rfl, hvalid.cursor, hvalid.anchor, rfl⟩
    | some range =>
      exact ⟨edge range, edge range, rfl, hedge range hselection, hedge range hselection, rfl⟩

theorem moved_valid {offset : List Char → Nat → Motion → Option Nat}
    (hoffset : ∀ text start motion, IsBoundary text start →
      ∃ target, offset text start motion = some target ∧ IsBoundary text target)
    (hvalid : Valid editor) (motion : Motion) (extend : Bool) {edge : Nat × Nat → Nat}
    (hedge : ∀ range, editor.selection = some range → IsBoundary editor.text (edge range)) :
    ∃ cursor anchor, (let (editor, edge) := editor.collapsed extend edge
        if edge.isSome ∧ motion = .character then some editor
        else do
          let cursor ← offset editor.text (edge.getD editor.cursor) motion
          return { editor with cursor, anchor := if extend then editor.anchor else cursor }) =
        some { editor with cursor, anchor } ∧
      IsBoundary editor.text cursor ∧ IsBoundary editor.text anchor := by
  obtain ⟨cursor, anchor, heditor, hcursor, hanchor, hstart⟩ := collapsed_valid hvalid extend hedge
  generalize editor.collapsed extend edge = collapsed at *
  obtain ⟨editor', edge'⟩ := collapsed
  dsimp only at heditor hstart ⊢
  subst heditor
  by_cases hstay : edge'.isSome ∧ motion = .character
  · exact ⟨cursor, anchor, if_pos hstay, hcursor, hanchor⟩
  obtain ⟨target, htarget, hboundary⟩ := hoffset editor.text cursor motion hcursor
  rw [if_neg hstay]
  dsimp only
  rw [hstart, htarget]
  refine ⟨target, if extend then anchor else target, rfl, hboundary, ?_⟩
  split
  · exact hanchor
  · exact hboundary

theorem told_spec {result : Option (QueryEditor × Bool)}
    (h : ∃ editor' changed, result = some (editor', changed) ∧
      Applied seg editor call editor' (some changed)) :
    ∃ editor' reply, told result = some (editor', reply) ∧
      Applied seg editor call editor' reply := by
  obtain ⟨editor', changed, rfl, happlied⟩ := h
  exact ⟨editor', some changed, rfl, happlied⟩

theorem untold_spec {result : Option QueryEditor} {cursor anchor : Nat}
    (hresult : result = some { editor with cursor, anchor })
    (hnone : deletedRange seg editor call = none) (hinserted : ¬Repeats editor call)
    (hcursor : IsBoundary editor.text cursor) (hanchor : IsBoundary editor.text anchor) :
    ∃ editor' reply, untold result = some (editor', reply) ∧
      Applied seg editor call editor' reply := by
  rw [hresult]
  exact ⟨_, none, rfl, applied_move hnone hinserted hcursor hanchor⟩

theorem anchor_boundary (hvalid : Valid editor) {cursor : Nat} (extend : Bool)
    (hcursor : IsBoundary editor.text cursor) :
    IsBoundary editor.text (if extend then editor.anchor else cursor) := by
  split
  · exact hvalid.anchor
  · exact hcursor

theorem apply_spec (seg : Segmentation) (hvalid : Valid editor) (call : EditorCall) :
    ∃ editor' reply, editor.apply seg call = some (editor', reply) ∧
      Applied seg editor call editor' reply := by
  cases call with
  | insert insertion | insertMultiline insertion =>
    exact told_spec (replaceSelection_spec hvalid rfl rfl Iff.rfl)
  | setCursor offset extendSelection | moveTo offset extendSelection =>
    have hcursor := floorBoundary_isBoundary editor.text (min offset (byteLength editor.text))
    exact untold_spec rfl rfl id hcursor (anchor_boundary hvalid extendSelection hcursor)
  | deleteTo offset => exact told_spec (deleteTo_spec hvalid offset)
  | moveLeft motion extend =>
    have hoffset : ∀ text start motion, IsBoundary text start →
        ∃ target, offsetBefore seg text start motion = some target ∧ IsBoundary text target := by
      intro text start motion hstart
      obtain ⟨target, htarget, hboundary, -⟩ := offsetBefore_spec seg hstart motion
      exact ⟨target, htarget, hboundary⟩
    obtain ⟨cursor, anchor, hmoved, hcursor, hanchor⟩ := moved_valid hoffset hvalid motion extend
      fun range h => (hvalid.selection h).1
    exact untold_spec hmoved rfl id hcursor hanchor
  | moveRight motion extend =>
    have hoffset : ∀ text start motion, IsBoundary text start →
        ∃ target, offsetAfter seg text start motion = some target ∧ IsBoundary text target := by
      intro text start motion hstart
      obtain ⟨target, htarget, hboundary, -⟩ := offsetAfter_spec seg hstart motion
      exact ⟨target, htarget, hboundary⟩
    obtain ⟨cursor, anchor, hmoved, hcursor, hanchor⟩ := moved_valid hoffset hvalid motion extend
      fun range h => (hvalid.selection h).2.1
    exact untold_spec hmoved rfl id hcursor hanchor
  | deleteBackward motion => exact told_spec (deleteBackward_spec hvalid motion rfl id)
  | deleteForward motion => exact told_spec (deleteForward_spec hvalid motion)
  | selectAll =>
    exact untold_spec rfl rfl id (isBoundary_length editor.text) (isBoundary_zero editor.text)
  | clear =>
    have hstart := isBoundary_zero []
    refine ⟨{}, none, rfl, ⟨hstart, hstart⟩, ?_, iff_of_true ?_ id, ?_⟩
    · intro range h
      cases h
    · intro changed h
      cases h
    · intro c hc
      cases hc

/-! ### Runs -/

abbrev EditorStep : Type := Taken (Option QueryEditor) EditorCall (Option Bool)

/-- An operation that neither panics nor leaves an offset within a character, and that
deletes what it is to delete. -/
def Sound (seg : Segmentation) (e : EditorStep) : Prop :=
  ∃ before after, e.before = some before ∧ e.after = some after ∧ Valid after ∧
    ∀ range, deletedRange seg before e.input = some range →
      Removed before.text range.1 range.2 after.text

/-- What the operation says of the text is so. -/
def Truthful (e : EditorStep) : Prop :=
  ∀ before after, e.before = some before → e.after = some after →
    ∀ changed, e.output = some changed → (changed = true ↔ after.text ≠ before.text)

/-- The operation does not put in the text that is selected. -/
def Fresh (e : EditorStep) : Prop := ∀ before, e.before = some before → ¬Repeats before e.input

/-- Nothing but a composer's insertion is left out. -/
def EditorCall.SingleLine : EditorCall → Prop
  | .insertMultiline _ => False
  | _ => True

theorem inserted_singleLine (h : call.SingleLine) : ∀ c ∈ inserted call, isControl c = false := by
  cases call with
  | insert insertion =>
    intro c hc
    have hkept := (mem_filter.mp hc).2
    exact Bool.not_eq_true' _ ▸ hkept
  | insertMultiline insertion => exact h.elim
  | _ =>
    intro c hc
    cases hc

theorem serve_spec (seg : Segmentation) (hvalid : Valid editor) (call : EditorCall) :
    ∃ editor', (serve seg (some editor) call).1 = some editor' ∧ Valid editor' ∧
      (∀ c ∈ editor'.text, c ∈ editor.text ∨ c ∈ inserted call) ∧
      Sound seg (taken (serve seg) (some editor) call) ∧
      (Truthful (taken (serve seg) (some editor) call) ↔
        Fresh (taken (serve seg) (some editor) call)) := by
  obtain ⟨editor', reply, happly, happlied⟩ := apply_spec seg hvalid call
  have hserve : serve seg (some editor) call = (some editor', reply) := by
    unfold serve
    dsimp only
    rw [happly]
  unfold taken
  rw [hserve]
  refine ⟨editor', rfl, happlied.valid, happlied.chars,
    ⟨editor, editor', rfl, rfl, happlied.valid, happlied.deletes⟩, ?_, ?_⟩
  · intro htruthful before hbefore
    obtain ⟨⟩ := hbefore
    exact happlied.replies.mp (htruthful editor editor' rfl rfl)
  · intro hfresh before after hbefore hafter
    obtain ⟨⟩ := hbefore
    obtain ⟨⟩ := hafter
    exact happlied.replies.mpr (hfresh editor rfl)

theorem run_valid (seg : Segmentation) (calls : List EditorCall) :
    (∃ editor, (run (serve seg) (some {}) calls).1 = some editor ∧ Valid editor) ∧
      ∀ e ∈ (run (serve seg) (some {}) calls).2, Sound seg e ∧ (Truthful e ↔ Fresh e) := by
  have hstart := isBoundary_zero []
  refine run_induction (P := fun s past => (∃ editor, s = some editor ∧ Valid editor) ∧
      ∀ e ∈ past, Sound seg e ∧ (Truthful e ↔ Fresh e))
    ⟨⟨{}, rfl, hstart, hstart⟩, fun e he => absurd he not_mem_nil⟩ ?_ calls
  rintro s past call ⟨⟨editor, rfl, hvalid⟩, hpast⟩
  obtain ⟨editor', hserve, hvalid', -, hstep⟩ := serve_spec seg hvalid call
  exact ⟨⟨editor', hserve, hvalid'⟩, forall_mem_cons.mpr ⟨hstep, hpast⟩⟩

theorem run_singleLine (seg : Segmentation) {calls : List EditorCall}
    (hsingle : ∀ call ∈ calls, call.SingleLine) :
    ∃ editor, (run (serve seg) (some {}) calls).1 = some editor ∧ Valid editor ∧
      ∀ c ∈ editor.text, isControl c = false := by
  induction calls using reverseRecOn with
  | nil =>
    have hstart := isBoundary_zero []
    exact ⟨{}, rfl, ⟨hstart, hstart⟩, fun c hc => absurd hc not_mem_nil⟩
  | append_singleton calls call ih =>
    rw [forall_mem_append, forall_mem_singleton] at hsingle
    obtain ⟨editor, hrun, hvalid, htext⟩ := ih hsingle.1
    obtain ⟨editor', hserve, hvalid', hchars, -⟩ := serve_spec seg hvalid call
    refine ⟨editor', ?_, hvalid', fun c hc => ?_⟩
    · rw [run_concat, advance, hrun]
      exact hserve
    · rcases hchars c hc with hold | hnew
      · exact htext c hold
      · exact inserted_singleLine hsingle.2 c hnew

/-- In every run no operation panics, caret and anchor stay between characters, a deletion
removes just what it is to remove, and a field that nothing but single lines is put into has
no control characters; and what the operations say of the text is so just when none of them
puts in the text that is selected. -/
theorem editor_truthful_iff (seg : Segmentation) (calls : List EditorCall) :
    (∀ e ∈ (run (serve seg) (some {}) calls).2, Sound seg e) ∧
      ((∀ call ∈ calls, call.SingleLine) → ∃ editor,
        (run (serve seg) (some {}) calls).1 = some editor ∧
          ∀ c ∈ editor.text, isControl c = false) ∧
      ((∀ e ∈ (run (serve seg) (some {}) calls).2, Truthful e) ↔
        ∀ e ∈ (run (serve seg) (some {}) calls).2, Fresh e) := by
  obtain ⟨-, hsteps⟩ := run_valid seg calls
  refine ⟨fun e he => (hsteps e he).1, fun hsingle => ?_, ?_⟩
  · obtain ⟨editor, hrun, -, htext⟩ := run_singleLine seg hsingle
    exact ⟨editor, hrun, htext⟩
  · exact forall₂_congr fun e he => (hsteps e he).2

theorem flatten_singletons (text : List Char) : (text.map List.singleton).flatten = text := by
  induction text with
  | nil => rfl
  | cons c text ih => exact congrArg (c :: ·) ih

/-- Every character is a grapheme and a word. -/
def perCharacter : Segmentation where
  graphemes text := text.map List.singleton
  words text := text.map List.singleton
  isAlphanumeric c := c.isAlphanum
  flatten_graphemes := flatten_singletons
  flatten_words := flatten_singletons

/-- The one letter there is, selected and typed again. -/
theorem same_text_changed : ∃ calls : List EditorCall, (∀ call ∈ calls, call.SingleLine) ∧
      ¬∀ e ∈ (run (serve perCharacter) (some {}) calls).2, Truthful e := by
  refine ⟨[.insert ['a'], .selectAll, .insert ['a']], by simp [EditorCall.SingleLine], ?_⟩
  intro h
  have hlast := h _ mem_cons_self
  have hchanged := (hlast { text := ['a'], cursor := 1 } { text := ['a'], cursor := 1, anchor := 1 }
    (by decide) (by decide) true (by decide)).mp rfl
  exact hchanged rfl

end Diri.Query
