/-
A session is hidden while its removal is in flight.

`Removals` is the store at work, seen together with the sessions whose last removal went
through.  `Candid` says that no other session is hidden, and that one whose removal failed has
its row again.  The store is candid all along just the runs in which every removal that fails
finds the session listed anew, or asked for once more.
-/
import Diri.Proofs.App.Closing

namespace Diri.App

open Option SessionStore

/-- The store at work, and the sessions whose last removal went through. -/
structure Removals where
  runtime : Runtime
  removed : List SessionId := []

namespace Removals

def start (prefs : Prefs) : Removals := { runtime := .start prefs }

/-- The sessions whose last removal went through, after one more step. -/
def settle (removals : Removals) (step : RuntimeStep) : List SessionId :=
  match removals.runtime.running, step with
  | some (.remove id), .finish _ (.failed _) => withoutId id removals.removed
  | some (.remove id), .finish _ _ => insertId id removals.removed
  | _, _ => removals.removed

def step (removals : Removals) (step : RuntimeStep) : Option Removals :=
  (removals.runtime.step step).map fun runtime =>
    { runtime, removed := removals.settle step }

/-- A session is closing only while its removal is in flight, or after it went through. -/
def Covered (removals : Removals) : Prop :=
  ∀ id ∈ removals.runtime.store.closing,
    removals.runtime.inFlight (.remove id) ∨ id ∈ removals.removed

instance (removals : Removals) : Decidable removals.Covered :=
  inferInstanceAs (Decidable (∀ id ∈ removals.runtime.store.closing, _ ∨ _))

/-- Nothing is hidden without cause. -/
structure Candid (removals : Removals) : Prop where
  covered : removals.Covered
  /-- A stored session has its row, but for a removal in flight or one that went through. -/
  visible : ∀ session ∈ removals.runtime.store.sessions.values,
    session.isAuxiliaryTerminal = false → ¬ removals.runtime.inFlight (.remove session.id) →
      session.id ∉ removals.removed → ∀ walks,
        session.id ∈ (removals.runtime.store.sidebarProjection walks).displayOrder

def failing (removals : Removals) (step : RuntimeStep) : Option SessionId :=
  match removals.runtime.running, step with
  | some (.remove id), .finish _ (.failed _) => some id
  | _, _ => none

/-- A removal that fails finds its session no longer closing, or asked for once more. -/
def FailsHeard (removals : Removals) (step : RuntimeStep) : Prop :=
  ∀ id ∈ removals.failing step,
    id ∉ removals.runtime.store.closing ∨ .remove id ∈ removals.runtime.store.effects

instance (removals : Removals) (step : RuntimeStep) : Decidable (removals.FailsHeard step) :=
  inferInstanceAs (Decidable (∀ id ∈ removals.failing step, _ ∨ _))

end Removals

namespace Removals

variable {removals next : Removals} {step : RuntimeStep} {id : SessionId}

theorem Covered.candid (h : removals.Covered) : removals.Candid := by
  refine ⟨h, fun session hmem hshell hflight hremoved walks => ?_⟩
  refine mem_sidebarProjection.mpr ⟨session, hmem, ?_, rfl⟩
  have hclosing : session.id ∉ removals.runtime.store.closing := fun hid =>
    (h session.id hid).elim hflight hremoved
  simp [isShown, hclosing, hshell]

/-! ### One step -/

theorem Covered.call (h : removals.Covered) (walks : Walks) (call : Call)
    (hstep : removals.step (.call walks call) = some next) : next.Covered := by
  obtain ⟨⟩ := hstep
  obtain ⟨new, hnew, -, hclosing⟩ := (perform_performs walks call
    removals.runtime.store).acts
  have hsettled : removals.settle (.call walks call) = removals.removed := by
    unfold settle
    split <;> simp_all
  intro id hid
  rw [Runtime.inFlight, hnew, List.mem_append, hsettled]
  rcases hclosing id hid with hid | hsent
  · rcases h id hid with (hqueued | hrunning) | hremoved
    · exact .inl (.inl (.inl hqueued))
    · exact .inl (.inr hrunning)
    · exact .inr hremoved
  · exact .inl (.inl (.inr hsent))

theorem Covered.receive (h : removals.Covered) (hstep : removals.step .receive = some next) :
    next.Covered := by
  obtain ⟨⟨store, running⟩, removed⟩ := removals
  simp only [Removals.step, Runtime.step] at hstep
  cases running with
  | some effect => simp at hstep
  | none =>
    cases heffects : store.effects with
    | nil => simp [heffects] at hstep
    | cons effect rest =>
      simp only [heffects, map_some, some.injEq] at hstep
      subst hstep
      intro id hid
      rcases h id hid with (hqueued | hrunning) | hremoved
      · simp only [heffects, List.mem_cons] at hqueued
        rcases hqueued with rfl | hqueued
        · exact .inl (.inr rfl)
        · exact .inl (.inl hqueued)
      · cases hrunning
      · exact .inr hremoved

theorem step_finish {walks : Walks} {outcome : Outcome}
    (hstep : removals.step (.finish walks outcome) = some next) :
    ∃ effect, removals.runtime.running = some effect ∧ effect.answers outcome = true ∧
      next.runtime = ⟨removals.runtime.store.finish walks effect outcome, none⟩ ∧
      next.removed = removals.settle (.finish walks outcome) := by
  obtain ⟨⟨store, running⟩, removed⟩ := removals
  simp only [Removals.step, Runtime.step] at hstep
  cases running with
  | none => simp at hstep
  | some effect =>
    by_cases hanswers : effect.answers outcome = true
    · simp only [hanswers, if_true, map_some, some.injEq] at hstep
      subst hstep
      exact ⟨effect, rfl, hanswers, rfl, rfl⟩
    · simp [hanswers] at hstep

section
variable (h : removals.Covered)
include h

/-- An effect that is no removal hides nothing by its end that it does not ask to remove. -/
theorem Covered.finish {walks : Walks} {outcome : Outcome}
    {effect : StoreEffect} (hrunning : removals.runtime.running = some effect)
    (heffect : ∀ id, effect ≠ .remove id)
    (hruntime : next.runtime = ⟨removals.runtime.store.finish walks effect outcome, none⟩)
    (hremoved : next.removed = removals.settle (.finish walks outcome)) : next.Covered := by
  have hsettled : removals.settle (.finish walks outcome) = removals.removed := by
    unfold settle
    rw [hrunning]
    cases effect <;> first | rfl | exact absurd rfl (heffect _)
  obtain ⟨new, hnew, -, hclosing⟩ := (finish_performs walks effect outcome
    removals.runtime.store).acts
  intro id hid
  rw [hruntime] at hid ⊢
  rw [Runtime.inFlight, hnew, List.mem_append, hremoved, hsettled]
  rcases hclosing id hid with hid | hsent
  · rcases h id hid with (hqueued | hflight) | hgone
    · exact .inl (.inl (.inl hqueued))
    · exact absurd (some.inj (hrunning.symm.trans hflight)) (heffect id)
    · exact .inr hgone
  · exact .inl (.inl (.inr hsent))

theorem Covered.removed {walks : Walks} (hrunning : removals.runtime.running = some (.remove id))
    (hruntime : next.runtime = ⟨removals.runtime.store.finish walks (.remove id) .done, none⟩)
    (hremoved : next.removed = removals.settle (.finish walks .done)) : next.Covered := by
  have hsettled : removals.settle (.finish walks .done) = insertId id removals.removed := by
    unfold settle
    rw [hrunning]
  intro x hx
  rw [hruntime] at hx ⊢
  rw [hremoved, hsettled, mem_insertId]
  rcases h x hx with (hqueued | hflight) | hgone
  · exact .inl (.inl hqueued)
  · rw [hrunning] at hflight
    exact .inr (.inl (StoreEffect.remove.inj (some.inj hflight)).symm)
  · exact .inr (.inr hgone)

/-- A removal that fails leaves its session hidden for good, unless that is heard elsewhere. -/
theorem Covered.failed {walks : Walks} {error : String}
    (hrunning : removals.runtime.running = some (.remove id)) (hruntime : next.runtime =
      ⟨removals.runtime.store.finish walks (.remove id) (.failed error), none⟩)
    (hremoved : next.removed = removals.settle (.finish walks (.failed error))) : next.Covered ↔
      id ∉ removals.runtime.store.closing ∨ .remove id ∈ removals.runtime.store.effects := by
  have hsettled : removals.settle (.finish walks (.failed error)) =
      withoutId id removals.removed := by
    unfold settle
    rw [hrunning]
  have hstore : next.runtime.store.closing = removals.runtime.store.closing ∧
      ∀ x, next.runtime.inFlight (.remove x) ↔ .remove x ∈ removals.runtime.store.effects := by
    rw [hruntime]
    exact ⟨rfl, fun x => by simp [Runtime.inFlight, SessionStore.finish]⟩
  simp only [Covered, hstore.1, hstore.2, hremoved, hsettled, mem_withoutId]
  constructor
  · intro hcovered
    by_cases hid : id ∈ removals.runtime.store.closing
    · exact .inr ((hcovered id hid).resolve_right fun hgone => hgone.2 rfl)
    · exact .inl hid
  intro hheard x hx
  by_cases hxid : x = id
  · subst hxid
    exact .inl (hheard.resolve_left fun hnot => hnot hx)
  rcases h x hx with (hqueued | hflight) | hgone
  · exact .inl hqueued
  · rw [hrunning] at hflight
    exact absurd (StoreEffect.remove.inj (some.inj hflight)).symm hxid
  · exact .inr ⟨hgone, hxid⟩

/-- A step leaves the closing sessions covered just where no failure goes unheard. -/
theorem Covered.next_iff (hstep : removals.step step = some next) :
    next.Covered ↔ removals.FailsHeard step := by
  cases step with
  | call walks call =>
    refine iff_of_true (h.call walks call hstep) fun id hid => ?_
    unfold failing at hid
    split at hid <;> simp_all
  | receive =>
    refine iff_of_true (h.receive hstep) fun id hid => ?_
    unfold failing at hid
    split at hid <;> simp_all
  | finish walks outcome =>
    obtain ⟨effect, hrunning, hanswers, hruntime, hremoved⟩ := step_finish hstep
    have hheard : ∀ {P : Prop}, removals.failing (.finish walks outcome) = none → P →
        (P ↔ removals.FailsHeard (.finish walks outcome)) := fun hnone hP =>
      iff_of_true hP fun id hid => by
        rw [hnone] at hid
        cases hid
    by_cases hremove : ∃ id, effect = .remove id
    · obtain ⟨id, rfl⟩ := hremove
      cases outcome with
      | done =>
        refine hheard ?_ (h.removed hrunning hruntime hremoved)
        unfold failing
        rw [hrunning]
      | failed error =>
        have hfailing : removals.failing (.finish walks (.failed error)) = some id := by
          unfold failing
          rw [hrunning]
        rw [h.failed hrunning hruntime hremoved, FailsHeard, hfailing]
        simp
      | spawned id | migrated session | reopened session => cases hanswers
    have heffect : ∀ id, effect ≠ .remove id := fun id heq => hremove ⟨id, heq⟩
    refine hheard ?_ (h.finish hrunning heffect hruntime hremoved)
    unfold failing
    rw [hrunning]
    cases effect <;> first | rfl | exact absurd rfl (heffect _)

end

end Removals

/-! ### Whole runs -/

/-- **The store hides nothing without cause, all along just the runs in which every removal
that fails is heard of.** -/
theorem hidden_while_removed (prefs : Prefs) {steps : List RuntimeStep} {removals : Removals}
    (hrun : partialRun Removals.step (.start prefs) steps = some removals) :
    Meets Removals.FailsHeard Removals.step (.start prefs) steps ↔
      ∀ past, past <+: steps → ∀ removals,
        partialRun Removals.step (.start prefs) past = some removals → removals.Candid := by
  have hinit : (Removals.start prefs).Covered := fun id hid => by cases hid
  rw [Meets.iff_along (fun _ _ _ h hstep => Removals.Covered.next_iff h hstep) hinit hrun]
  exact ⟨fun h past hpast r hr => (h past hpast r hr).candid,
    fun h past hpast r hr => (h past hpast r hr).covered⟩

namespace Removals

/-- A tab with a command in it. -/
def tab : SessionRecord where
  id := "tab"
  kind := "terminal"
  cwd := "/work"
  title := ""
  titleSource := .placeholder
  status := .working
  resumability := .live
  updatedAt := ⟨0⟩
  createdAt := ⟨0⟩
  projectId := "work"

/-- Tabs close without a question. -/
def unasked : Prefs := { confirmBeforeClosingSession := false }

/-- The tab is listed and closed, and of the effects all but the last are done. -/
def closeTab (outcome : Outcome) : List RuntimeStep :=
  [.call .inOrder (.hydrate [tab] []), .call .inOrder (.requestClose ["tab"]),
    .receive, .finish .inOrder .done, .receive, .finish .inOrder .done,
    .receive, .finish .inOrder .done, .receive, .finish .inOrder outcome]

end Removals

theorem hidden_while_removed_closeTab :
    (partialRun Removals.step (.start Removals.unasked) (Removals.closeTab .done)).isSome ∧
    ∀ past, past <+: Removals.closeTab .done → ∀ removals,
      partialRun Removals.step (.start Removals.unasked) past = some removals → removals.Candid := by
  have hsome : (partialRun Removals.step (.start Removals.unasked)
      (Removals.closeTab .done)).isSome := by decide +kernel
  obtain ⟨removals, hrun⟩ := isSome_iff_exists.mp hsome
  exact ⟨hsome, (hidden_while_removed Removals.unasked hrun).mp (by decide +kernel)⟩

/-- The daemon does not remove the tab, and the tab is hidden for good. -/
theorem failed_removal_hides : ∃ removals, partialRun Removals.step (.start Removals.unasked)
        (Removals.closeTab (.failed "timed out")) = some removals ∧
      "tab" ∈ removals.runtime.store.sessions.values.map (·.id) ∧ ¬ removals.Candid := by
  have hsome : (partialRun Removals.step (.start Removals.unasked)
      (Removals.closeTab (.failed "timed out"))).any fun removals =>
        decide ("tab" ∈ removals.runtime.store.sessions.values.map (·.id) ∧
          ¬ removals.Covered) := by decide +kernel
  obtain ⟨removals, hrun, hhidden⟩ := (any_eq_true _ _).mp hsome
  have hboth := of_decide_eq_true hhidden
  exact ⟨removals, hrun, hboth.1, fun h => hboth.2 h.covered⟩

end Diri.App
