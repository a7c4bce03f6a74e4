/-
The watcher loses no change.

A writer stores first and moves the version then, and the watcher reads the version first and
the fields then.  So what it has may be old only while somebody owes a move of the version, or
when the version has moved since (`Fresh`).
-/
import Diri.Engine.EventsWait

namespace Diri.RegistryWatcher

/-- Unless the version is about to move or has moved since, `P` holds. -/
def Fresh (watch : RegistryWatcher) (version : Nat) (P : Prop) : Prop :=
  version ≤ watch.changes ∧ (watch.storing = [] → version = watch.changes → P)

theorem Fresh.of_lt {watch : RegistryWatcher} {version : Nat} {P : Prop}
    (h : version < watch.changes) : watch.Fresh version P :=
  ⟨h.le, fun _ heq => absurd heq h.ne⟩

/-- What was looked at and what was published are as the session is, or known to be old. -/
structure Sound (watch : RegistryWatcher) : Prop where
  reading : ∀ look, watch.reading = some look →
    watch.Fresh look.version (∀ field ∈ look.loaded, look.fields field = watch.shared field)
  published : ∀ known, watch.published = some known → ∃ version, known = .ofNat version ∧
    watch.Fresh version (watch.view = some watch.shared.view)

theorem Sound.step {watch : RegistryWatcher} (h : watch.Sound) (step : WatcherStep) :
    (watch.step step).Sound := by
  cases step with
  | store writer field value =>
    refine ⟨fun look hlook => ⟨(h.reading look hlook).1, nofun⟩, fun known hknown => ?_⟩
    obtain ⟨version, hversion, hfresh⟩ := h.published known hknown
    exact ⟨version, hversion, hfresh.1, nofun⟩
  | bump writer =>
    simp only [RegistryWatcher.step]
    split
    case isFalse => exact h
    case isTrue =>
      refine ⟨fun look hlook => .of_lt (Nat.lt_succ_of_le (h.reading look hlook).1),
        fun known hknown => ?_⟩
      obtain ⟨version, hversion, hle, -⟩ := h.published known hknown
      exact ⟨version, hversion, .of_lt (Nat.lt_succ_of_le hle)⟩
  | look =>
    simp only [RegistryWatcher.step]
    split
    case isFalse => exact h
    case isTrue =>
      refine ⟨fun look hlook => ?_, h.published⟩
      obtain rfl := Option.some.inj hlook
      exact ⟨le_rfl, fun _ _ => nofun⟩
  | load field =>
    refine ⟨fun look hlook => ?_, h.published⟩
    obtain ⟨before, hbefore, rfl⟩ := Option.map_eq_some_iff.mp hlook
    obtain ⟨hle, hfresh⟩ := h.reading before hbefore
    refine ⟨hle, fun hstoring heq other hother => ?_⟩
    by_cases hsame : other = field
    · subst hsame
      exact Function.update_self _ _ _
    · exact (Function.update_of_ne hsame _ _).trans
        (hfresh hstoring heq other ((List.mem_cons.mp hother).resolve_left hsame))
  | publish =>
    simp only [RegistryWatcher.step]
    split
    case h_2 => exact h
    case h_1 look hlook =>
      split
      case isFalse => exact h
      case isTrue hall =>
        obtain ⟨hprompt, hstatus, hneeds, htitle⟩ := hall
        refine ⟨nofun, fun known hknown => ?_⟩
        obtain rfl := Option.some.inj hknown
        obtain ⟨hle, hfresh⟩ := h.reading look hlook
        refine ⟨look.version, rfl, hle, fun hstoring heq => ?_⟩
        have hsame := hfresh hstoring heq
        rw [ViewFields.view, ViewFields.view, hsame _ hprompt, hsame _ hstatus, hsame _ hneeds]
        cases hshared : watch.shared .promptTitle with
        | some title => rfl
        | none =>
          rw [hsame _ hprompt, hshared] at htitle
          rw [hsame _ (htitle.resolve_left Bool.false_ne_true)]

theorem sound_run (shared : ViewFields) (steps : List WatcherStep) :
    (steps.foldl step { shared := shared }).Sound := by
  induction steps using List.reverseRecOn with
  | nil => exact ⟨nofun, nofun⟩
  | append_singleton steps step ih =>
    rw [List.foldl_append]
    exact ih.step step

/-- One pass of the watcher over the session. -/
def pass : List WatcherStep :=
  [.look, .load .promptTitle, .load .title, .load .status, .load .needsInput, .publish]

/-- **No change is lost.**  Whatever writers and watcher did to each other before: when nobody
is about to move the version and no look is under way, a pass leaves the session published as
it is, and the next one finds nothing to do. -/
theorem watcher_settles (shared : ViewFields) (steps : List WatcherStep) :
    let watch := steps.foldl step { shared := shared }
    watch.changes < 2 ^ 64 → watch.storing = [] → watch.reading = none →
      (pass.foldl step watch).view = some watch.shared.view ∧
        (pass.foldl step watch).published = some watch.stateVersion := by
  intro watch
  have hsound : watch.Sound := sound_run shared steps
  generalize watch = watch at hsound
  intro hbound hstoring hreading
  obtain ⟨shared, changes, storing, reading, published, view⟩ := watch
  simp only at hbound hstoring hreading
  subst hreading
  by_cases hknown : published = some (.ofNat changes)
  · obtain ⟨version, hversion, hle, hfresh⟩ := hsound.published _ hknown
    have hsame := congrArg UInt64.toNat hversion
    simp only at hle
    rw [UInt64.toNat_ofNat_of_lt' hbound,
      UInt64.toNat_ofNat_of_lt' (Nat.lt_of_le_of_lt hle hbound)] at hsame
    simpa [pass, step, stateVersion, hknown] using hfresh hstoring hsame.symm
  · simp [pass, step, stateVersion, hknown, ViewFields.view]

def idleFields : ViewFields
  | .promptTitle | .title => none
  | .status => .idle
  | .needsInput => none

/-- The status is stored while the fields are read, so what is published first is old. -/
theorem watcher_settles_late : let steps := [.look, .load .promptTitle, .load .title, .load .status,
      .load .needsInput, .store 0 .status .working, .publish, .bump 0]
    (pass.foldl step (steps.foldl step { shared := idleFields })).view =
      some ⟨.working, none, none, some .agentProvided⟩ :=
  (watcher_settles idleFields _ (by decide) rfl rfl).1

end Diri.RegistryWatcher
