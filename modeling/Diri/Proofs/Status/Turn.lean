/-
Blockers and completed turns.

Two laws of the status machine, each one invariant over the moves of
`Proofs/Status/Moves.lean`.  While a blocker is believed to be on screen the
session shows that it needs input, or is dead.  And `turn_completed` fires exactly
once per turn: only on the step that takes a working session to idle, only after a
strong idle signal that nothing has contradicted since.

The invariant behind the second is that a working session remembers a strong idle
signal only while one is still standing; the belief law is what rules out the one
move, a working screen behind a blocker, that would leave it standing wrongly.
-/
import Diri.Proofs.Status.Moves

namespace Diri

open StatusReducer

/-- One signal and the time it is reduced at. -/
abbrev Stamped := StatusSignal × SystemTime

/-- One reduced signal of a run. -/
abbrev StatusStep := Taken StatusReducer Stamped ReducerOutcome

/-- The reducer run on a sequence of stamped signals, from a new session. -/
def statusRun (authority : Authority) (timing : ReducerTiming) (spawnedAt : SystemTime)
    (signals : List Stamped) : StatusReducer × List StatusStep :=
  run (fun r i => r.reduce i.1 i.2) (StatusReducer.new authority timing spawnedAt) signals

/-- What the step's signal was evidence of. -/
def Taken.evidence (e : StatusStep) : Evidence := e.before.evidence e.input.1

theorem StatusReducer.taken_move (r : StatusReducer) (i : Stamped) :
    Move r i.2 (taken (fun r i => r.reduce i.1 i.2) r i).evidence r.core
      (r.reduce i.1 i.2).1.core (r.reduce i.1 i.2).2 :=
  r.reduce_move i.1 i.2

variable {r : StatusReducer} {now : SystemTime} {ev : Evidence} {c c' : Core}
  {o : ReducerOutcome}

/-! ### A visible blocker is shown -/

/-- A blocker believed to be on screen means the session needs input, or is dead. -/
def Core.BlockerShown (c : Core) : Prop :=
  c.blocker = true → c.status.isNeedsInput = true ∨ c.status.isExited = true

theorem Core.BlockerShown.blocker_eq_false (hc : c.BlockerShown)
    (hs : c.status = .starting ∨ c.status = .working) : c.blocker = false := by
  cases hb : c.blocker with
  | false => rfl
  | true =>
    rcases hs with hs | hs <;> rcases hc hb with h | h <;> rw [hs] at h <;>
      exact absurd h Bool.false_ne_true

theorem Move.blockerShown (h : Move r now ev c c' o) (hc : c.BlockerShown) : c'.BlockerShown := by
  -- a blocker is never believed in while the session is starting or working
  have hstarting : c.status = .starting → c.blocker = false :=
    fun hs => hc.blocker_eq_false (Or.inl hs)
  have hworking : c.status = .working → c.blocker = false :=
    fun hs => hc.blocker_eq_false (Or.inr hs)
  cases h with
  | hold _ _ _ hb => exact fun h => hc (hb h)
  | exit => exact fun _ => Or.inr rfl
  | firstOutput hs _ => exact fun h => absurd h (by simp [hstarting hs])
  | work => exact fun h => absurd h Bool.false_ne_true
  | resume hs _ => exact fun h => absurd h (by simp [Core.dropTo, hstarting hs])
  | block _ => exact fun _ => Or.inl rfl
  | settle hs hb => exact fun h => absurd (hb h) (by simp [hstarting hs])
  | release _ => exact fun h => absurd h Bool.false_ne_true
  | strong hw => exact fun h => absurd h (by simp [hworking hw])
  | confirm hw _ hb => exact fun h => absurd (hb h) (by simp [hworking hw])
  | commitStrong hw | commitTick hw _ =>
    exact fun h => absurd h (by simp [Core.commit, Core.dropTo, hworking hw])
  | commitIdle hw hb _ => exact fun h => absurd (hb h) (by simp [hworking hw])
  | stale hw => exact fun h => absurd h (by simp [hworking hw])

theorem statusRun_blockerShown (authority : Authority) (timing : ReducerTiming)
    (spawnedAt : SystemTime) (signals : List Stamped) :
    (statusRun authority timing spawnedAt signals).1.core.BlockerShown :=
  run_induction (s := StatusReducer.new authority timing spawnedAt)
    (P := fun (r : StatusReducer) _ => r.core.BlockerShown)
    (fun h => Bool.noConfusion (show false = true from h))
    (fun r _ i ih => (r.taken_move i).blockerShown ih) signals

/--
**A visible blocker is shown.**  Whatever was reduced, in whatever order and at
whatever times, a session believed to have a blocker on screen shows that it needs
input, or that it is dead.
-/
theorem blocker_needs_input (authority : Authority) (timing : ReducerTiming)
    (spawnedAt : SystemTime) (signals : List Stamped)
    (hblocker : (statusRun authority timing spawnedAt signals).1.state.screenBlockerActive = true) :
    (∃ kind, (statusRun authority timing spawnedAt signals).1.status = .needsInput kind) ∨
      ∃ info, (statusRun authority timing spawnedAt signals).1.status = .exited info := by
  have hshown := statusRun_blockerShown authority timing spawnedAt signals hblocker
  have hstatus : (statusRun authority timing spawnedAt signals).1.core.status =
      (statusRun authority timing spawnedAt signals).1.status := rfl
  rw [hstatus] at hshown
  cases h : (statusRun authority timing spawnedAt signals).1.status with
  | needsInput kind => exact Or.inl ⟨kind, rfl⟩
  | exited info => exact Or.inr ⟨info, rfl⟩
  | _ => simp [h, SessionStatus.isNeedsInput, SessionStatus.isExited] at hshown

def plainScreen (state : ManifestState) (seq : UInt64) : StatusSignal :=
  .screen { state := state, matchedRuleId := "rule", priority := 100, contentSeq := seq,
            promptExcerpt := none, options := none }

/-- A permission prompt followed by one stray working frame. -/
def strayFrame : List Stamped :=
  [(plainScreen .blockedPermission 1, 0), (plainScreen .working 2, 100)]

theorem blocker_needs_input_stray_frame :
    (statusRun .hooksPrimary .default 0 strayFrame).1.state.screenBlockerActive = true ∧
      ((∃ kind, (statusRun .hooksPrimary .default 0 strayFrame).1.status = .needsInput kind) ∨
        ∃ info, (statusRun .hooksPrimary .default 0 strayFrame).1.status = .exited info) :=
  ⟨by rfl, blocker_needs_input .hooksPrimary .default 0 strayFrame (by rfl)⟩

/-! ### A turn completes once -/

/-- A strong idle signal, reduced while the session was working. -/
def StrongWhileWorking (e : StatusStep) : Prop :=
  e.evidence = .strongIdle ∧ e.before.status = .working

/-- A step of a working session that brought neither new work nor a blocker. -/
def StillWorking (e : StatusStep) : Prop :=
  e.before.status = .working ∧ e.evidence ≠ .work ∧ e.evidence ≠ .blocker

/-- A strong idle signal was reduced while working, and nothing has contradicted it since. -/
def EndOfTurnStands (history : List StatusStep) : Prop :=
  Since StillWorking StrongWhileWorking history

/-- What a session remembers of its idle candidacy is true of its past. -/
structure TurnInv (c : Core) (history : List StatusStep) : Prop where
  /-- A blocker is shown. -/
  shown : c.BlockerShown
  /-- A starting session has no idle candidacy. -/
  fresh : c.status = .starting → c.strong = false ∧ c.candidate = none ∧ c.confirms = 0
  /-- Only a strong idle signal leaves a completion pending. -/
  strong : c.pending = true → c.strong = true
  /-- A working session remembers a strong idle signal only while one stands. -/
  stands : c.status = .working → c.strong = true → EndOfTurnStands history

theorem Move.turnInv (hm : Move r now ev c c' o) {e : StatusStep} {history : List StatusStep}
    (hev : e.evidence = ev) (hbefore : e.before.status = c.status) (h : TurnInv c history) :
    TurnInv c' (e :: history) := by
  -- what stood before a quiet step of a working session still stands after it
  have hquiet : ev ≠ .work → ev ≠ .blocker → c.status = .working → c.strong = true →
      EndOfTurnStands (e :: history) :=
    fun hwork hblock hs hstrong =>
      Or.inr ⟨⟨hbefore.trans hs, hev ▸ hwork, hev ▸ hblock⟩, h.stands hs hstrong⟩
  refine ⟨hm.blockerShown h.shown, ?_, ?_, ?_⟩
  · cases hm with
    | hold => exact h.fresh
    | strong hw | confirm hw => exact fun hs => absurd (hw.symm.trans hs) (by decide)
    | _ => exact fun hs => absurd hs (by simp [Core.commit, Core.dropTo])
  · cases hm with
    | hold | exit | firstOutput | settle | confirm | stale => exact h.strong
    | strong => exact fun _ => rfl
    | _ => exact fun hp => Bool.noConfusion (show false = true from hp)
  cases hm with
  | hold hwork hblock _ _ =>
    intro hs
    refine hquiet (fun hw => ?_) hblock hs
    have hfree := h.shown.blocker_eq_false (Or.inr hs)
    rcases hwork hw with hstart | hb
    · exact absurd (hstart.symm.trans hs) (by decide)
    · exact absurd (hb.symm.trans hfree) (by decide)
  | firstOutput hs _ =>
    exact fun _ hstrong => absurd ((h.fresh hs).1.symm.trans hstrong) (by decide)
  | strong hw => exact fun _ _ => Or.inl ⟨hev, hbefore.trans hw⟩
  | confirm hw hs _ => exact fun _ hstrong => absurd (hs.symm.trans hstrong) (by decide)
  | exit | settle | stale => exact fun hs => absurd hs (by simp)
  | _ => exact fun _ hstrong => Bool.noConfusion (show false = true from hstrong)

theorem statusRun_turnInv (authority : Authority) (timing : ReducerTiming)
    (spawnedAt : SystemTime) (signals : List Stamped) :
    TurnInv (statusRun authority timing spawnedAt signals).1.core
      (statusRun authority timing spawnedAt signals).2 :=
  run_induction (s := StatusReducer.new authority timing spawnedAt)
    (P := fun (r : StatusReducer) history => TurnInv r.core history)
    ⟨fun h => Bool.noConfusion (show false = true from h), fun _ => ⟨rfl, rfl, rfl⟩,
      fun h => Bool.noConfusion (show false = true from h),
      fun h => absurd h (by simp [StatusReducer.new, StatusReducer.core])⟩
    (fun r _ i ih => (r.taken_move i).turnInv rfl rfl ih) signals

/-- A completion is reported only on the way from working to idle, with a strong idle
    signal in hand or remembered. -/
theorem Move.completes (hm : Move r now ev c c' o) (ho : o.turnCompleted = true) :
    c.status = .working ∧ c'.status = .idle ∧ o.statusChange = some .idle ∧
      (ev = .strongIdle ∨ (c.pending = true ∧ ev ≠ .work ∧ ev ≠ .blocker)) := by
  cases hm with
  | commitStrong hw => exact ⟨hw, rfl, rfl, Or.inl rfl⟩
  | commitTick hw _ | commitIdle hw _ _ => exact ⟨hw, rfl, rfl, Or.inr ⟨ho, by decide, by decide⟩⟩
  | _ => exact Bool.noConfusion (show false = true from ho)

theorem Move.reports_working (hm : Move r now ev c c' o) (h : c.status ≠ .working)
    (h' : c'.status = .working) : o.statusChange = some .working := by
  cases hm with
  | work => exact if_pos h
  | resume | firstOutput => rfl
  | hold => exact absurd h' h
  | strong hw | confirm hw => exact absurd hw h
  | _ => exact absurd h' (by simp [Core.commit, Core.dropTo])

/--
**A turn completes exactly once.**  A completion is reported only on a step that
takes the session from working to idle while a strong idle signal stands: one that
was reduced while working, with neither work nor a blocker since.  Between two
reported completions the session reported that it went back to work.
-/
theorem turn_completes_once (authority : Authority) (timing : ReducerTiming)
    (spawnedAt : SystemTime) (signals : List Stamped) :
    (∀ post e past, (statusRun authority timing spawnedAt signals).2 = post ++ e :: past →
      e.output.turnCompleted = true → e.before.status = .working ∧ e.after.status = .idle ∧
          e.output.statusChange = some .idle ∧ EndOfTurnStands (e :: past)) ∧
    (∀ post e₂ mid e₁ past, (statusRun authority timing spawnedAt signals).2 =
        post ++ e₂ :: (mid ++ e₁ :: past) →
      e₁.output.turnCompleted = true → e₂.output.turnCompleted = true →
        ∃ e ∈ mid, e.output.statusChange = some .working) := by
  have hmoves : ∀ e ∈ (statusRun authority timing spawnedAt signals).2,
      Move e.before e.input.2 e.evidence e.before.core e.after.core e.output := by
    intro e he
    have hmove := e.before.taken_move e.input
    rw [← run_mem he] at hmove
    rw [run_mem he]
    exact hmove
  have hsingle : ∀ post e past, (statusRun authority timing spawnedAt signals).2 =
      post ++ e :: past → e.output.turnCompleted = true →
        e.before.status = .working ∧ e.after.status = .idle ∧
          e.output.statusChange = some .idle ∧ EndOfTurnStands (e :: past) := by
    intro post e past h ho
    obtain ⟨hw, hi, hc, hstrong⟩ := (hmoves e (by rw [h]; simp)).completes ho
    refine ⟨hw, hi, hc, ?_⟩
    rcases hstrong with hev | ⟨hpending, hwork, hblock⟩
    · exact Or.inl ⟨hev, hw⟩
    -- the completion was pending before this step, so a strong idle signal stood then
    obtain ⟨js, -, hjs⟩ := run_suffix signals h
    obtain ⟨ks, -, hks, he⟩ := run_past hjs
    have hinv := statusRun_turnInv authority timing spawnedAt ks
    have hbefore : e.before = (statusRun authority timing spawnedAt ks).1 := by
      rw [he]
      rfl
    rw [← hbefore, show (statusRun authority timing spawnedAt ks).2 = past from hks] at hinv
    exact Or.inr ⟨⟨hw, hwork, hblock⟩, hinv.stands hw (hinv.strong hpending)⟩
  refine ⟨hsingle, ?_⟩
  intro post e₂ mid e₁ past h h1 h2
  have hidle : e₁.after.status = .idle :=
    (hsingle (post ++ e₂ :: mid) e₁ past (by simpa using h) h1).2.1
  have hworking : e₂.before.status = .working := (hsingle post e₂ _ h h2).1
  obtain ⟨e, hmem, hne, hw⟩ := run_becomes (P := fun r => r.status = .working) mid h
    (by simp [hidle]) hworking
  exact ⟨e, hmem, (hmoves e (by rw [h]; simp [hmem])).reports_working hne hw⟩

/-- Two turns of an agent with hooks: prompt, `Stop`, and the tick that settles it. -/
def twoTurns : List Stamped :=
  [(.claudeHook .userPromptSubmit false, 10), (.claudeHook .stop false, 20), (.tick, 30),
    (.claudeHook .userPromptSubmit false, 40), (.claudeHook .stop false, 50), (.tick, 60)]

def twoTurnsSteps : List StatusStep := (statusRun .hooksPrimary .default 0 twoTurns).2

theorem turn_completes_once_two_turns :
    ((twoTurnsSteps.get ⟨0, by decide⟩).before.status = .working ∧
      (twoTurnsSteps.get ⟨0, by decide⟩).after.status = .idle ∧
      (twoTurnsSteps.get ⟨0, by decide⟩).output.statusChange = some .idle ∧
      EndOfTurnStands (twoTurnsSteps.get ⟨0, by decide⟩ :: twoTurnsSteps.drop 1)) ∧
    ∃ e ∈ (twoTurnsSteps.take 3).drop 1, e.output.statusChange = some .working :=
  ⟨(turn_completes_once .hooksPrimary .default 0 twoTurns).1 [] _ _ rfl rfl,
    (turn_completes_once .hooksPrimary .default 0 twoTurns).2 []
      (twoTurnsSteps.get ⟨0, by decide⟩) ((twoTurnsSteps.take 3).drop 1)
      (twoTurnsSteps.get ⟨3, by decide⟩) (twoTurnsSteps.drop 4) rfl rfl rfl⟩

end Diri
