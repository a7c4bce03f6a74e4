/-
Where find highlights are drawn.

The model places a match by the start of the live grid in the last search snapshot, the
viewport composes its rows by the live edge it knows now.  While the two are the same
row, a highlight stands on its text (`onText_of_live`).  A search makes them the same;
rows that are fetched afterwards with another live edge do not tell the model, and its
highlights are then drawn on other rows (`find_off_text`).
-/
import Diri.Proofs.Term.Anchor
import Diri.Term.Find

namespace Diri

open I64 List ScrollbackViewport

namespace FindView

/-- Every highlight is on the row of the window that shows its match. -/
def OnText (view : FindView) : Prop :=
  ∀ item index span, (item, index) ∈ view.model.found.zipIdx →
    view.model.spanOf view.viewport item index = some span →
      view.viewport.absoluteRow span.row = item.absoluteRow

/-- The viewport has the live edge of the last search, if there are matches at all. -/
def Synced (view : FindView) : Prop :=
  view.model.found = [] ∨
    ∀ start, view.model.cachedVisibleStartRow = some start → view.viewport.liveStartRow = start

theorem absoluteRow_of_span {viewport : ScrollbackViewport} {model : TerminalFindModel}
    {item : FindMatch} {index : Nat} {span : FindSpan}
    (h : model.spanAt (saturatingSub viewport.liveStartRow viewport.viewOffset) item index
      = some span) : viewport.absoluteRow span.row = item.absoluteRow := by
  unfold TerminalFindModel.spanAt at h
  cases hrow : checkedSub item.absoluteRow
      (saturatingSub viewport.liveStartRow viewport.viewOffset) with
  | none =>
    rw [hrow] at h
    cases h
  | some row =>
    have hdistance := checkedSub_eq_some hrow
    rw [hrow] at h
    simp only [] at h
    by_cases hneg : row < 0
    · rw [if_pos hneg] at h
      cases h
    rw [if_neg hneg] at h
    by_cases hinside : row.toInt.toNat < model.cachedRows
    · rw [if_pos hinside, Option.some.injEq] at h
      rw [Int64.lt_iff_toInt_lt] at hneg
      have hlow := item.absoluteRow.le_toInt
      have hhigh := item.absoluteRow.toInt_lt
      have hlast := row.toInt_lt
      have hnonneg : 0 ≤ row.toInt := Int.not_lt.mp hneg
      have hcount : (fromUsize span.row).toInt = row.toInt := by
        rw [← h, fromUsize, toInt_saturate]
        show max _ (min _ ((row.toInt.toNat : Nat) : Int)) = _
        omega
      apply Int64.toInt_inj.mp
      rw [ScrollbackViewport.absoluteRow, toInt_saturatingAdd, hcount, hdistance]
      omega
    · rw [if_neg hinside] at h
      cases h

variable {view : FindView}

theorem onText_of_live (h : view.Synced) : view.OnText := by
  intro item index span hitem hspan
  rcases h with hnone | hlive
  · rw [hnone] at hitem
    cases hitem
  unfold TerminalFindModel.spanOf at hspan
  cases hstart : view.model.cachedVisibleStartRow with
  | none =>
    rw [hstart] at hspan
    cases hspan
  | some start =>
    rw [hstart, ← hlive start hstart] at hspan
    exact absoluteRow_of_span hspan

/-- A live edge that arrives is the one of the last search, if that has matches. -/
def Agrees (view : FindView) (call : FindCall) : Prop :=
  match call with
  | .onViewport call => ∀ liveStartRow, call.liveStartRow? = some liveStartRow →
      view.model.found = [] ∨
        ∀ start, view.model.cachedVisibleStartRow = some start → liveStartRow = start
  | _ => True

/-! ### Calls -/

theorem Synced.applySnapshot (lower : Lowercase) (h : view.Synced)
    (request : SearchRequest) (snapshot : FindSnapshot) (live : GridBuffer) :
    Synced ((FindCall.applySnapshot request snapshot live).apply lower view) := by
  simp only [FindCall.apply, TerminalFindModel.applySnapshot]
  by_cases hstale : request.generation ≠ view.model.generation ∨ request.query ≠ view.model.query
  · rw [if_pos hstale]
    exact h
  rw [if_neg hstale]
  right
  intro start hstart
  obtain rfl : snapshot.visibleStartRow = start := Option.some.inj hstart
  exact (moved_applyRows _ _ _ _ _ _ _).live_eq

theorem Synced.advance (lower : Lowercase) (h : view.Synced) (forward : Bool)
    (windowRow : Int64) : Synced ((FindCall.advance forward windowRow).apply lower view) := by
  simp only [FindCall.apply, TerminalFindModel.advance]
  split
  · exact h
  split
  · next hstart =>
    split
    · refine h.imp_right fun hsame start hcached => ?_
      exact (scrolled_setViewOffset _ _ _).live_eq.trans (hsame start hcached)
    refine h.imp_right fun hsame start hcached => ?_
    exact (scrolled_setViewOffset _ _ _).live_eq.trans (hsame start hcached)
  · exact h

theorem Synced.setQuery (h : view.Synced) (query : List Char) (now : Nat) :
    Synced { view with model := view.model.setQuery query now } := by
  simp only [TerminalFindModel.setQuery]
  split
  · exact h
  split
  · exact .inl rfl
  · exact h

/-- Every call that brings no other live edge keeps the model and the viewport together. -/
theorem Synced.apply (lower : Lowercase) (h : view.Synced) (call : FindCall)
    (hagrees : view.Agrees call) : (call.apply lower view).Synced := by
  cases call with
  | setQuery query now => exact h.setQuery query now
  | onOutput now =>
    simp only [FindCall.apply, TerminalFindModel.onOutput]
    split <;> exact h
  | takeDueSearch now =>
    simp only [FindCall.apply, TerminalFindModel.takeDueSearch]
    split
    · exact h
    · split <;> exact h
  | applySnapshot request snapshot live => exact h.applySnapshot lower request snapshot live
  | advance forward windowRow => exact h.advance lower forward windowRow
  | onViewport call =>
    have hafter := call.liveStartRow_apply view.viewport
    cases hlive : call.liveStartRow? with
    | none =>
      rw [hlive] at hafter
      exact h.imp_right fun hsame start hstart => hafter.trans (hsame start hstart)
    | some liveStartRow =>
      rw [hlive] at hafter
      exact (hagrees liveStartRow hlive).imp_right fun hsame start hstart =>
        hafter.trans (hsame start hstart)

end FindView

/-- A call that was made on the find model or its viewport. -/
abbrev FindStep : Type := Taken FindView FindCall Unit

/--
**Highlights sit on their text**, after every step of every run, as long as every live
edge that reaches the viewport while there are matches is the one of the search they
come from.
-/
theorem find_on_text (lower : Lowercase) (calls : List FindCall)
    (hagrees : ∀ step ∈ (run (FindCall.step lower) {} calls).2, step.before.Agrees step.input) :
    ∀ step ∈ (run (FindCall.step lower) {} calls).2, step.after.OnText := by
  have hsynced := run_induction (f := FindCall.step lower) (s := {})
    (P := fun view past => (∀ step ∈ past, step.before.Agrees step.input) →
      view.Synced ∧ ∀ step ∈ past, step.after.OnText) ?_ ?_ calls
  · exact (hsynced hagrees).2
  · intro _
    exact ⟨.inl rfl, by simp⟩
  intro view past call ih hagrees
  obtain ⟨hbefore, hpast⟩ := ih fun step hstep => hagrees step (mem_cons_of_mem _ hstep)
  have hafter := hbefore.apply lower call (hagrees _ mem_cons_self)
  refine ⟨hafter, fun step hstep => ?_⟩
  rcases List.mem_cons.mp hstep with rfl | hearlier
  · exact FindView.onText_of_live hafter
  · exact hpast step hearlier

/-- The letter `a` in line 1 of ten lines of history, and the view scrolled to it. -/
def foundCalls : List FindCall :=
  [.setQuery ['a'] 0,
    .applySnapshot ⟨['a'], false, 1⟩ ⟨[[], ['a']], 0, 10, 1, 10, 1, false⟩ (.new 1 1),
    .onViewport (.setViewOffset 9 10)]

theorem find_on_text_scrolled :
    (run (FindCall.step fun c => [c]) {} foundCalls).1.viewport.viewOffset = 9 ∧
      ∀ step ∈ (run (FindCall.step fun c => [c]) {} foundCalls).2, step.after.OnText := by
  refine ⟨by decide +kernel, find_on_text _ foundCalls fun step hstep => ?_⟩
  simp only [foundCalls, run, advance, foldl_cons, foldl_nil, mem_cons,
    not_mem_nil, or_false] at hstep
  rcases hstep with rfl | rfl | rfl
  · intro liveStartRow hlive
    cases hlive
  · trivial
  · trivial

/--
Two lines of output move the live edge on, and fetched rows tell the viewport: it still
shows row 1 first, but the highlight of row 1 is drawn two rows below it.
-/
theorem find_off_text : let calls := foundCalls ++ [.onViewport (.applyRows [] 0 12 12 2 10)]
    let view := (run (FindCall.step fun c => [c]) {} calls).1
    view.model.visibleSpans view.viewport = [⟨2, 0, 1, true⟩] ∧
      view.viewport.absoluteRow 2 = 3 ∧ view.model.found.map (·.absoluteRow) = [1] ∧
        ¬view.OnText := by
  refine ⟨by decide +kernel, by decide +kernel, by decide +kernel, fun honText => ?_⟩
  have hrow := honText ⟨1, 0, 1, ['a']⟩ 0 ⟨2, 0, 1, true⟩ (by decide +kernel) (by decide +kernel)
  revert hrow
  decide +kernel

end Diri
