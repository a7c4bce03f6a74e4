/-
One launch of the retirement.

The records a launch works on have a host and no binding (`mem_legacy`), and no two have
one id (`legacy_nodup`).  Each of its three loops leaves alone what it does not meet:
the marks of other sessions, and the marks that are settled.  `InLaunch` is what holds
throughout: what the marker knew it still knows, what is left to do is not settled, and
every command sent was for panes that were owed a try.

The retirement across launches.

A marker that is carried from launch to launch knows every record that was rewritten, and
every pane that is settled (`Carried`).  So a record is rewritten once, its pane is left
alone once it is settled, and a host that never answers is asked for it five times at
most (`legacy_retired`).  All of that is by record: two records whose ids begin alike
have panes of one name, and the second is tried although the first was settled
(`pane_tried_again`).
-/
import Diri.Engine.LegacyRemote
import Diri.Proofs.Registry.Orphans

namespace Diri

open AList List Marker Table

namespace Registry

variable (chars : CharClass) (resumes : String → String → Bool) {registry : Registry}

theorem listRecords_nodup (hkeyed : registry.records.All fun id record => record.id = id) :
    ((registry.listRecords chars resumes).map (·.id)).Nodup := by
  have hkeys : registry.records.values.map (·.id) = registry.records.keys := by
    simp only [Table.values, AList.keys, List.keys, map_map]
    refine map_congr_left fun entry hentry => ?_
    exact hkeyed entry.1 entry.2 (AList.mem_lookup_iff.mpr hentry)
  have hfolded : (registry.records.values.map fun record =>
      registry.foldLive chars resumes record).map (·.id) = registry.records.keys := by
    rw [map_map, ← hkeys]
    refine map_congr_left fun record _ => ?_
    exact (registry.foldLive_id chars resumes record).1
  refine ((mergeSort_perm _ _).map _).nodup_iff.mpr ?_
  rw [hfolded]
  exact registry.records.keys_nodup

end Registry

/-- The record of the id is legacy: it has a host, and no Holder is bound to it. -/
def LegacyLaunch.IsLegacy (id : SessionId) (host : String) (launch : LegacyLaunch) : Prop :=
  ∃ bound record, launch.bound = some bound ∧ id ∉ bound ∧
    launch.registry.records.lookup id = some record ∧ record.host = some host

namespace Marker

variable {marker : Marker} {id : SessionId}

/-- Nothing more is to be done for the pane of the session. -/
def Settled (id : SessionId) (marker : Marker) : Prop :=
  ∃ mark, marker.sessions.lookup id = some mark ∧ mark.pane.isSome = true

/-- How many commands the marker counts for the pane of the session. -/
def tries (id : SessionId) (marker : Marker) : Nat :=
  (marker.sessions.lookup id).elim 0 (·.paneAttempts)

theorem Settled.congr {after : Marker} (h : marker.Settled id)
    (hlookup : after.sessions.lookup id = marker.sessions.lookup id) : after.Settled id := by
  obtain ⟨mark, hmark, hpane⟩ := h
  exact ⟨mark, hlookup.trans hmark, hpane⟩

theorem tries_congr {after : Marker}
    (hlookup : after.sessions.lookup id = marker.sessions.lookup id) :
    after.tries id = marker.tries id := by
  rw [tries, hlookup, tries]

theorem settle_frame (id : SessionId) (state : PaneState) (marker : Marker) : (∀ other, other ≠ id →
        (marker.settle id state).sessions.lookup other = marker.sessions.lookup other) ∧
      (∀ other, (marker.settle id state).tries other = marker.tries other) ∧
      ∀ other, marker.Settled other → (marker.settle id state).Settled other := by
  have hself : (marker.settle id state).sessions.lookup id
      = (marker.sessions.lookup id).map fun mark => { mark with pane := some state } :=
    lookup_adjust_self _ _ _
  have hother : ∀ other, other ≠ id →
      (marker.settle id state).sessions.lookup other = marker.sessions.lookup other :=
    fun other hne => lookup_adjust_ne hne _ _
  refine ⟨hother, fun other => ?_, fun other hsettled => ?_⟩
  · by_cases hid : other = id
    · subst hid
      rw [tries, hself, tries]
      cases marker.sessions.lookup other <;> rfl
    · exact tries_congr (hother other hid)
  · by_cases hid : other = id
    · subst hid
      obtain ⟨mark, hmark, -⟩ := hsettled
      exact ⟨_, by rw [hself, hmark, Option.map_some], rfl⟩
    · exact hsettled.congr (hother other hid)

theorem not_settled {mark : SessionMark} (h : marker.sessions.lookup id = some mark)
    (hpane : mark.pane.isSome = false) : ¬marker.Settled id := by
  rintro ⟨other, hother, hsome⟩
  rw [Option.some.inj (hother.symm.trans h)] at hsome
  rw [hsome] at hpane
  cases hpane

end Marker

/-- The command was, among others, for the pane of the session. -/
def PaneAttempt.tries (id : SessionId) (attempt : PaneAttempt) : Bool :=
  attempt.panes.any fun pane => pane.id = id

theorem PaneAttempt.tries_iff {id : SessionId} {attempt : PaneAttempt} :
    attempt.tries id = true ↔ id ∈ attempt.panes.map (·.id) := by
  simp [PaneAttempt.tries]

/-- How many of the commands for the pane of the session got no answer. -/
def unansweredTries (id : SessionId) (attempts : List PaneAttempt) : Nat :=
  attempts.countP fun attempt => attempt.sweep.isNone && attempt.tries id

theorem unansweredTries_append (id : SessionId) (attempts more : List PaneAttempt) :
    unansweredTries id (attempts ++ more) = unansweredTries id attempts + unansweredTries id more :=
  countP_append

theorem unansweredTries_le (id : SessionId) (attempts : List PaneAttempt) :
    unansweredTries id attempts ≤ attempts.length :=
  countP_le_length

theorem unansweredTries_eq_zero {id : SessionId} {attempts : List PaneAttempt}
    (h : ∀ attempt ∈ attempts, id ∉ attempt.panes.map (·.id)) :
    unansweredTries id attempts = 0 := by
  refine List.countP_eq_zero.mpr fun attempt hattempt hcounts => ?_
  obtain ⟨-, htries⟩ := Bool.and_eq_true_iff.mp hcounts
  exact h attempt hattempt (PaneAttempt.tries_iff.mp htries)

namespace LegacyRemote

variable {chars : CharClass} {resumes : String → String → Bool} {launch : LegacyLaunch}
  {bound : List SessionId} {registry : Registry}

/-! ### Legacy records -/

theorem mem_legacy (hkeyed : registry.records.All fun id record => record.id = id)
    {entry : SessionId × String} (h : entry ∈ legacy chars resumes bound registry) :
    entry.1 ∉ bound ∧ ∃ record, registry.records.lookup entry.1 = some record ∧
      record.host = some entry.2 := by
  obtain ⟨listed, hlisted, hentry⟩ := List.mem_filterMap.mp h
  obtain ⟨hmem, hunbound⟩ := List.mem_filter.mp hlisted
  obtain ⟨host, hhost, rfl⟩ := Option.map_eq_some_iff.mp hentry
  obtain ⟨id, stored, hstored, rfl⟩ := Registry.mem_listRecords hmem
  obtain ⟨hid, hsame, -⟩ := registry.foldLive_id chars resumes stored
  rw [hid] at hunbound ⊢
  refine ⟨by simpa using hunbound, stored, ?_, hsame.symm.trans hhost⟩
  rw [hkeyed id stored hstored]
  exact hstored

theorem legacy_nodup (hkeyed : registry.records.All fun id record => record.id = id) :
    ((legacy chars resumes bound registry).map (·.1)).Nodup := by
  have hsub : ∀ records : List SessionRecord,
      ((records.filterMap fun record => record.host.map fun host => (record.id, host)).map
        (·.1)).Sublist (records.map (·.id)) := by
    intro records
    induction records with
    | nil => exact .slnil
    | cons record rest ih =>
      cases hhost : record.host with
      | none =>
        rw [filterMap_cons_none (by rw [hhost]; rfl), map_cons]
        exact ih.cons _
      | some host =>
        rw [filterMap_cons_some (b := (record.id, host)) (by rw [hhost]; rfl)]
        exact ih.cons_cons _
  refine ((hsub _).trans ?_).nodup (registry.listRecords_nodup chars resumes hkeyed)
  exact List.filter_sublist.map _

/-! ### The local half -/

/-- Where a launch stands after its local half. -/
structure Rewritten (launch : LegacyLaunch) (start : Marker) (progress : LegacyProgress) :
    Prop where
  kept : ∀ id ∈ start.sessions, progress.marker.sessions.lookup id = start.sessions.lookup id
  fresh : ∀ id, id ∉ start.sessions → ∀ mark, progress.marker.sessions.lookup id = some mark →
    mark.pane = none ∧ mark.paneAttempts = 0
  migrated : ∀ id ∈ progress.outcome.migrated, id ∉ start.sessions ∧ id ∈ progress.marker.sessions
  nodup : progress.outcome.migrated.Nodup
  records : ∀ id, progress.registry.records.lookup id =
    if id ∈ progress.outcome.migrated then
      (launch.registry.records.lookup id).map fun record =>
        { retireRecord record with updatedAt := launch.now }
    else launch.registry.records.lookup id
  attempts : progress.attempts = []

variable {progress : LegacyProgress}

theorem Rewritten.rewrite {start : Marker}
    (h : Rewritten launch start progress) (entry : SessionId × String) :
    Rewritten launch start (rewrite launch progress entry) := by
  unfold LegacyRemote.rewrite
  by_cases hmem : entry.1 ∈ progress.marker.sessions
  · rw [if_pos hmem]
    exact h
  rw [if_neg hmem]
  have hnew : entry.1 ∉ start.sessions := by
    intro hold
    have hkept := h.kept _ hold
    exact hmem (AList.lookup_isSome.mp (hkept ▸ AList.lookup_isSome.mpr hold))
  have hnot : entry.1 ∉ progress.outcome.migrated := fun hold => hmem (h.migrated _ hold).2
  refine ⟨?_, ?_, ?_, ?_, ?_, h.attempts⟩
  · intro id hid
    have hne : id ≠ entry.1 := fun heq => hnew (heq ▸ hid)
    exact (lookup_insert_ne hne).trans (h.kept id hid)
  · intro id hid mark hmark
    rcases lookup_insert_cases hmark with ⟨-, rfl⟩ | ⟨-, hold⟩
    · exact ⟨rfl, rfl⟩
    · exact h.fresh id hid mark hold
  · intro id hid
    rcases List.mem_append.mp hid with hold | hlast
    · obtain ⟨hout, hin⟩ := h.migrated id hold
      exact ⟨hout, (mem_insert _).mpr (.inr hin)⟩
    · obtain rfl := List.mem_singleton.mp hlast
      exact ⟨hnew, (mem_insert _).mpr (.inl rfl)⟩
  · refine List.nodup_append.mpr ⟨h.nodup, nodup_singleton _, ?_⟩
    intro a ha b hb heq
    obtain rfl := List.mem_singleton.mp hb
    exact hnot (heq ▸ ha)
  intro id
  simp only [Registry.updateRecord, mem_append, mem_singleton]
  by_cases hid : id = entry.1
  · subst hid
    rw [lookup_adjust_self, if_pos (.inr rfl), h.records, if_neg hnot]
  · rw [lookup_adjust_ne hid, h.records]
    simp [hid]

variable (entries : List (SessionId × String))

theorem Rewritten.rewriteAll {start : Marker} (h : Rewritten launch start progress) :
    Rewritten launch start (entries.foldl (LegacyRemote.rewrite launch) progress) := by
  induction entries generalizing progress with
  | nil => exact h
  | cons entry rest ih => exact ih (h.rewrite entry)

theorem mem_rewriteAll (progress : LegacyProgress)
    {id : SessionId} (h : id ∈ progress.marker.sessions ∨ id ∈ entries.map (·.1)) :
    id ∈ (entries.foldl (LegacyRemote.rewrite launch) progress).marker.sessions := by
  induction entries generalizing progress with
  | nil =>
    rcases h with hmem | hmem
    · exact hmem
    · cases hmem
  | cons entry rest ih =>
    refine ih _ ?_
    unfold LegacyRemote.rewrite
    rcases h with hmem | hmem
    · split
      · exact .inl hmem
      · exact .inl ((mem_insert _).mpr (.inr hmem))
    rcases List.mem_cons.mp hmem with rfl | hrest
    · split
      · next hthere => exact .inl hthere
      · exact .inl ((mem_insert _).mpr (.inl rfl))
    · exact .inr hrest

theorem migrated_rewriteAll (progress : LegacyProgress) {id : SessionId}
    (h : id ∈ (entries.foldl (LegacyRemote.rewrite launch) progress).outcome.migrated) :
    id ∈ progress.outcome.migrated ∨ id ∈ entries.map (·.1) := by
  induction entries generalizing progress with
  | nil => exact .inl h
  | cons entry rest ih =>
    rcases ih (LegacyRemote.rewrite launch progress entry) h with hold | hrest
    · unfold LegacyRemote.rewrite at hold
      split at hold
      · exact .inl hold
      rcases List.mem_append.mp hold with hold | hnew
      · exact .inl hold
      · rw [List.mem_singleton.mp hnew]
        exact .inr mem_cons_self
    · exact .inr (mem_cons_of_mem _ hrest)

/-! ### The remote half -/

/-- A pane whose name is derived from a legacy record of the host, and is one of ours. -/
structure OwnPane (launch : LegacyLaunch) (host : String) (pane : LegacyPane) : Prop where
  target : pane.target = legacyPaneName pane.id
  generated : isDiriGeneratedName pane.target = true
  legacy : launch.IsLegacy pane.id host

/-- No session has had more than its share of commands, and one that has had it is settled. -/
def Budget (marker : Marker) : Prop :=
  ∀ id, marker.tries id ≤ maxPaneAttempts ∧ (¬marker.Settled id → marker.tries id < maxPaneAttempts)

/-- What holds throughout the remote half, with these sessions left to do. -/
structure InLaunch (launch : LegacyLaunch) (start : Marker) (todo : List SessionId)
    (progress : LegacyProgress) : Prop where
  kept : ∀ id ∈ start.sessions, id ∈ progress.marker.sessions
  settled : ∀ id, start.Settled id → progress.marker.Settled id
  owed : ∀ id ∈ todo, id ∈ start.sessions ∧ ¬start.Settled id ∧
    progress.marker.sessions.lookup id = start.sessions.lookup id
  own : ∀ attempt ∈ progress.attempts,
    attempt.command = sweepCommand (attempt.panes.map (·.target)) ∧
      ∀ pane ∈ attempt.panes, OwnPane launch attempt.host.id pane ∧ ¬start.Settled pane.id
  answers : ∀ attempt ∈ progress.attempts, attempt.sweep.isSome = true →
    ∀ pane ∈ attempt.panes, progress.marker.Settled pane.id
  counted : ∀ id, start.tries id + unansweredTries id progress.attempts ≤ progress.marker.tries id
  budget : Budget progress.marker

/-! A pane at a time -/

theorem sessions_foldl {step : LegacyProgress → LegacyPane → LegacyProgress}
    {f : LegacyPane → SessionMark → SessionMark}
    (hstep : ∀ progress pane, (step progress pane).marker.sessions
      = progress.marker.sessions.adjust pane.id (f pane))
    (panes : List LegacyPane) (progress : LegacyProgress) :
    (panes.foldl step progress).marker.sessions
      = progress.marker.sessions.adjustEach (·.id) f panes := by
  induction panes generalizing progress with
  | nil => rfl
  | cons pane rest ih =>
    rw [foldl_cons, ih, hstep]
    rfl

theorem frame_foldl {step : LegacyProgress → LegacyPane → LegacyProgress}
    (hstep : ∀ progress pane, (step progress pane).attempts = progress.attempts ∧
      (step progress pane).registry = progress.registry ∧
      (step progress pane).outcome.migrated = progress.outcome.migrated)
    (panes : List LegacyPane) (progress : LegacyProgress) :
    (panes.foldl step progress).attempts = progress.attempts ∧
      (panes.foldl step progress).registry = progress.registry ∧
      (panes.foldl step progress).outcome.migrated = progress.outcome.migrated := by
  induction panes generalizing progress with
  | nil => exact ⟨rfl, rfl, rfl⟩
  | cons pane rest ih =>
    obtain ⟨hattempts, hregistry, hmigrated⟩ := ih (step progress pane)
    obtain ⟨hattempts', hregistry', hmigrated'⟩ := hstep progress pane
    rw [foldl_cons]
    exact ⟨hattempts.trans hattempts', hregistry.trans hregistry', hmigrated.trans hmigrated'⟩

/-- What an answer makes of a mark. -/
def answeredMark (sweep : HostSweep) (pane : LegacyPane) (mark : SessionMark) : SessionMark :=
  { mark with
    pane := some (if sweep.noTmux then .noTmux
      else if sweep.killed.contains pane.target then .killed else .absent)
    paneAttempts := mark.paneAttempts + 1 }

/-- What a host that does not answer makes of a mark. -/
def unansweredMark (mark : SessionMark) : SessionMark :=
  { mark with
    paneAttempts := mark.paneAttempts + 1
    pane := if maxPaneAttempts ≤ mark.paneAttempts + 1 then some .gaveUp else mark.pane }

theorem unanswered_sessions (progress : LegacyProgress) (pane : LegacyPane) :
    (unanswered progress pane).marker.sessions
      = progress.marker.sessions.adjust pane.id unansweredMark := by
  simp only [unanswered]
  refine adjust_congr fun mark hmark => ?_
  simp only [hmark, unansweredMark, Option.elim]

theorem answered_frame (sweep : HostSweep) (progress : LegacyProgress) (pane : LegacyPane) :
    (answered sweep progress pane).attempts = progress.attempts ∧
      (answered sweep progress pane).registry = progress.registry ∧
      (answered sweep progress pane).outcome.migrated = progress.outcome.migrated := by
  refine ⟨rfl, rfl, ?_⟩
  simp only [answered]
  split <;> rfl

theorem unanswered_frame (progress : LegacyProgress) (pane : LegacyPane) :
    (unanswered progress pane).attempts = progress.attempts ∧
      (unanswered progress pane).registry = progress.registry ∧
      (unanswered progress pane).outcome.migrated = progress.outcome.migrated := by
  refine ⟨rfl, rfl, ?_⟩
  simp only [unanswered]
  split <;> rfl

theorem reportOrphans_frame (host : String) (panes : List String) (progress : LegacyProgress) :
    (reportOrphans host panes progress).marker.sessions = progress.marker.sessions ∧
      (reportOrphans host panes progress).attempts = progress.attempts ∧
      (reportOrphans host panes progress).registry = progress.registry ∧
      (reportOrphans host panes progress).outcome.migrated = progress.outcome.migrated := by
  unfold reportOrphans
  split <;> exact ⟨rfl, rfl, rfl, rfl⟩

/-! A host at a time -/

variable (chars launch) in
/--
What is done for a host: every mark of its panes is changed by `f` and no other; and
either no command is sent and the panes are settled, or one is.
-/
theorem retireHost_cases (accounted : List String) (progress : LegacyProgress)
    (group : String × List LegacyPane) :
    ∃ f, (retireHost chars launch accounted progress group).marker.sessions
        = progress.marker.sessions.adjustEach (·.id) f group.2 ∧
      (retireHost chars launch accounted progress group).registry = progress.registry ∧
      (retireHost chars launch accounted progress group).outcome.migrated
        = progress.outcome.migrated ∧
      (((retireHost chars launch accounted progress group).attempts = progress.attempts ∧
          ∀ pane mark, (f pane mark).pane.isSome = true ∧
            (f pane mark).paneAttempts = mark.paneAttempts) ∨ ∃ host sweep, host.id = group.1 ∧
          (retireHost chars launch accounted progress group).attempts = progress.attempts
            ++ [⟨host, group.2, sweepCommand (group.2.map (·.target)), sweep⟩] ∧
          ∀ pane mark, (f pane mark).paneAttempts = mark.paneAttempts + 1 ∧
            (sweep.isSome = true ∨ maxPaneAttempts ≤ mark.paneAttempts + 1 →
              (f pane mark).pane.isSome = true)) := by
  unfold retireHost
  cases hhost : launch.hosts.host group.1 with
  | none =>
    obtain ⟨hattempts, hregistry, hmigrated⟩ :=
      @frame_foldl giveUp (fun _ _ => ⟨rfl, rfl, rfl⟩) group.2 progress
    refine ⟨fun _ mark => { mark with pane := some .gaveUp },
      sessions_foldl (fun _ _ => rfl) group.2 progress, hregistry, hmigrated,
      .inl ⟨hattempts, fun _ _ => ⟨rfl, rfl⟩⟩⟩
  | some host =>
    have hid : host.id = group.1 := by simpa using find?_some hhost
    simp only []
    generalize hsweep : (launch.run host _).bind _ = sweep
    cases sweep with
    | some sweep =>
      obtain ⟨hsessions, hattempts, hregistry, hmigrated⟩ := reportOrphans_frame group.1
        (sweep.panes.filter fun pane => isDiriGeneratedName pane && !accounted.contains pane)
        (group.2.foldl (answered sweep) { progress with
          attempts := progress.attempts
            ++ [⟨host, group.2, sweepCommand (group.2.map (·.target)), some sweep⟩] })
      obtain ⟨hattempts', hregistry', hmigrated'⟩ :=
        frame_foldl (answered_frame sweep) group.2 { progress with
          attempts := progress.attempts
            ++ [⟨host, group.2, sweepCommand (group.2.map (·.target)), some sweep⟩] }
      refine ⟨answeredMark sweep, ?_, hregistry.trans hregistry', hmigrated.trans hmigrated',
        .inr ⟨host, some sweep, hid, hattempts.trans hattempts', fun _ _ => ⟨rfl, fun _ => rfl⟩⟩⟩
      rw [hsessions]
      exact sessions_foldl (fun _ _ => rfl) group.2 _
    | none =>
      obtain ⟨hattempts, hregistry, hmigrated⟩ :=
        frame_foldl unanswered_frame group.2 { progress with
          attempts := progress.attempts
            ++ [⟨host, group.2, sweepCommand (group.2.map (·.target)), none⟩] }
      refine ⟨fun _ => unansweredMark, sessions_foldl unanswered_sessions group.2 _,
        hregistry, hmigrated, .inr ⟨host, none, hid, hattempts, fun _ mark => ⟨rfl, ?_⟩⟩⟩
      rintro (hanswer | hmany)
      · cases hanswer
      · simp only [unansweredMark, if_pos hmany]
        rfl

/-- What was done for a host, with the commands that it was sent. -/
structure HostDone (progress after : LegacyProgress) (group : String × List LegacyPane)
    (sent : List PaneAttempt) : Prop where
  outside : ∀ id ∉ group.2.map (·.id),
    after.marker.sessions.lookup id = progress.marker.sessions.lookup id
  marks : ∀ pane ∈ group.2, ∀ mark, progress.marker.sessions.lookup pane.id = some mark →
    ∃ mark', after.marker.sessions.lookup pane.id = some mark' ∧
      mark'.paneAttempts = mark.paneAttempts + sent.length ∧
      ((∀ attempt ∈ sent, attempt.sweep.isSome = true) ∨ maxPaneAttempts ≤ mark'.paneAttempts →
        mark'.pane.isSome = true)
  attempts : after.attempts = progress.attempts ++ sent
  once : sent.length ≤ 1
  commands : ∀ attempt ∈ sent, attempt.host.id = group.1 ∧ attempt.panes = group.2 ∧
    attempt.command = sweepCommand (group.2.map (·.target))

variable (chars launch) in
theorem retireHost_done (accounted : List String) (progress : LegacyProgress)
    {group : String × List LegacyPane} (hpanes : (group.2.map (·.id)).Nodup) :
    ∃ sent, HostDone progress (retireHost chars launch accounted progress group) group sent := by
  obtain ⟨f, hsessions, -, -, hcases⟩ := retireHost_cases chars launch accounted progress group
  generalize LegacyRemote.retireHost chars launch accounted progress group = after at *
  have hout : ∀ id ∉ group.2.map (·.id),
      after.marker.sessions.lookup id = progress.marker.sessions.lookup id := by
    intro id hid
    rw [hsessions]
    exact lookup_adjustEach_of_notMem hid _
  have hin : ∀ pane ∈ group.2, ∀ mark, progress.marker.sessions.lookup pane.id = some mark →
      after.marker.sessions.lookup pane.id = some (f pane mark) := by
    intro pane hpane mark hmark
    rw [hsessions, lookup_adjustEach_of_mem hpanes hpane, hmark, Option.map_some]
  rcases hcases with ⟨hsame, hmarks⟩ | ⟨host, sweep, hhost, hsent, hmarks⟩
  · refine ⟨[], hout, ?_, by rw [hsame, append_nil], Nat.zero_le _, by simp⟩
    intro pane hpane mark hmark
    exact ⟨f pane mark, hin pane hpane mark hmark, (hmarks pane mark).2,
      fun _ => (hmarks pane mark).1⟩
  refine ⟨_, hout, ?_, hsent, le_rfl, ?_⟩
  · intro pane hpane mark hmark
    obtain ⟨hcount, hsettles⟩ := hmarks pane mark
    refine ⟨f pane mark, hin pane hpane mark hmark, hcount, ?_⟩
    rintro (hanswer | hmany)
    · exact hsettles (.inl (hanswer _ (mem_singleton_self _)))
    · exact hsettles (.inr (hcount ▸ hmany))
  · intro attempt hattempt
    obtain rfl := List.mem_singleton.mp hattempt
    exact ⟨hhost, rfl, rfl⟩

namespace HostDone

variable {progress after : LegacyProgress} {group : String × List LegacyPane}
  {sent : List PaneAttempt} {id : SessionId}

section
variable (h : HostDone progress after group sent)
include h

theorem settled (howed : ∀ id ∈ group.2.map (·.id), ¬progress.marker.Settled id)
    (hid : progress.marker.Settled id) : after.marker.Settled id :=
  hid.congr (h.outside id fun hin => howed id hin hid)

theorem mem (hid : id ∈ progress.marker.sessions) : id ∈ after.marker.sessions := by
  by_cases hgroup : id ∈ group.2.map (·.id)
  · obtain ⟨pane, hpane, rfl⟩ := List.mem_map.mp hgroup
    obtain ⟨mark, hmark⟩ := Option.isSome_iff_exists.mp (AList.lookup_isSome.mpr hid)
    obtain ⟨mark', hmark', -⟩ := h.marks pane hpane mark hmark
    exact Table.mem_of_lookup hmark'
  · rw [← lookup_isSome, h.outside id hgroup, lookup_isSome]
    exact hid

theorem tries_of_notMem
    (hid : id ∉ group.2.map (·.id)) : after.marker.tries id = progress.marker.tries id :=
  tries_congr (h.outside id hid)

theorem tries_of_mem (hid : id ∈ group.2.map (·.id))
    {mark : SessionMark} (hmark : progress.marker.sessions.lookup id = some mark) :
    after.marker.tries id = progress.marker.tries id + sent.length ∧
      ((∀ attempt ∈ sent, attempt.sweep.isSome = true) ∨ maxPaneAttempts ≤ after.marker.tries id →
        after.marker.Settled id) := by
  obtain ⟨pane, hpane, rfl⟩ := List.mem_map.mp hid
  obtain ⟨mark', hmark', hcount, hsettles⟩ := h.marks pane hpane mark hmark
  have hbefore : progress.marker.tries pane.id = mark.paneAttempts := by
    rw [Marker.tries, hmark, Option.elim_some]
  have hafter : after.marker.tries pane.id = mark'.paneAttempts := by
    rw [Marker.tries, hmark', Option.elim_some]
  rw [hbefore, hafter]
  exact ⟨hcount, fun hcase => ⟨mark', hmark', hsettles hcase⟩⟩

theorem unanswered (id : SessionId) :
    unansweredTries id after.attempts ≤ unansweredTries id progress.attempts + sent.length ∧
      (id ∉ group.2.map (·.id) →
        unansweredTries id after.attempts = unansweredTries id progress.attempts) := by
  rw [h.attempts, unansweredTries_append]
  refine ⟨Nat.add_le_add_left (unansweredTries_le id sent) _, fun hid => ?_⟩
  have hnone : unansweredTries id sent = 0 := by
    refine unansweredTries_eq_zero fun attempt hattempt => ?_
    rw [(h.commands attempt hattempt).2.1]
    exact hid
  rw [hnone, Nat.add_zero]

end

end HostDone

section Host

variable {start : Marker} {todo rest : List SessionId} {progress after : LegacyProgress}
  {group : String × List LegacyPane} {sent : List PaneAttempt}

theorem InLaunch.owed_lookup (h : InLaunch launch start todo progress) {id : SessionId}
    (hid : id ∈ todo) : ¬progress.marker.Settled id ∧ unansweredTries id progress.attempts = 0 ∧
      ∃ mark, progress.marker.sessions.lookup id = some mark := by
  obtain ⟨hmem, hunsettled, hlookup⟩ := h.owed id hid
  refine ⟨fun hsettled => hunsettled (hsettled.congr hlookup.symm), ?_, ?_⟩
  · have hcounted := h.counted id
    rw [tries_congr hlookup] at hcounted
    omega
  · rw [hlookup]
    exact Option.isSome_iff_exists.mp (AList.lookup_isSome.mpr hmem)

variable (h : InLaunch launch start (group.2.map (·.id) ++ rest) progress)
  (hdone : HostDone progress after group sent)
include h hdone

theorem InLaunch.settles {id : SessionId} (hid : progress.marker.Settled id) :
    after.marker.Settled id :=
  hdone.settled (fun _ hgroup => (h.owed_lookup (mem_append_left _ hgroup)).1) hid

theorem InLaunch.ownCommands (hown : ∀ pane ∈ group.2, OwnPane launch group.1 pane) :
    ∀ attempt ∈ after.attempts, attempt.command = sweepCommand (attempt.panes.map (·.target)) ∧
        ∀ pane ∈ attempt.panes, OwnPane launch attempt.host.id pane ∧ ¬start.Settled pane.id := by
  intro attempt hattempt
  rw [hdone.attempts] at hattempt
  rcases List.mem_append.mp hattempt with hold | hnew
  · exact h.own attempt hold
  obtain ⟨hhost, hpanes, hcommand⟩ := hdone.commands attempt hnew
  rw [hpanes, hhost]
  refine ⟨hcommand, fun pane hpane => ⟨hown pane hpane, ?_⟩⟩
  exact (h.owed pane.id (mem_append_left _ (mem_map_of_mem hpane))).2.1

theorem InLaunch.answersSettle : ∀ attempt ∈ after.attempts, attempt.sweep.isSome = true →
      ∀ pane ∈ attempt.panes, after.marker.Settled pane.id := by
  intro attempt hattempt hanswer pane hpane
  rw [hdone.attempts] at hattempt
  rcases List.mem_append.mp hattempt with hold | hnew
  · exact h.settles hdone (h.answers attempt hold hanswer pane hpane)
  rw [(hdone.commands attempt hnew).2.1] at hpane
  have hgroup : pane.id ∈ group.2.map (·.id) := mem_map_of_mem hpane
  obtain ⟨-, -, mark, hmark⟩ := h.owed_lookup (mem_append_left _ hgroup)
  refine (hdone.tries_of_mem hgroup hmark).2 (.inl fun other hother => ?_)
  -- there is one command at most
  have hone : sent = [attempt] := by
    obtain ⟨before, behind, rfl⟩ := append_of_mem hnew
    have hlength := hdone.once
    simp only [length_append, length_cons] at hlength
    rw [List.length_eq_zero_iff.mp (by omega : before.length = 0),
      List.length_eq_zero_iff.mp (by omega : behind.length = 0), nil_append]
  rw [hone] at hother
  rw [List.mem_singleton.mp hother]
  exact hanswer

theorem InLaunch.countsTries (id : SessionId) :
    start.tries id + unansweredTries id after.attempts ≤ after.marker.tries id := by
  obtain ⟨hmost, hother⟩ := hdone.unanswered id
  have hcounted := h.counted id
  by_cases hgroup : id ∈ group.2.map (·.id)
  · obtain ⟨-, -, mark, hmark⟩ := h.owed_lookup (mem_append_left _ hgroup)
    rw [(hdone.tries_of_mem hgroup hmark).1]
    omega
  · rw [hother hgroup, hdone.tries_of_notMem hgroup]
    exact hcounted

theorem InLaunch.keepsBudget : Budget after.marker := by
  intro id
  obtain ⟨hmost, hleft⟩ := h.budget id
  by_cases hgroup : id ∈ group.2.map (·.id)
  · obtain ⟨hopen, -, mark, hmark⟩ := h.owed_lookup (mem_append_left _ hgroup)
    obtain ⟨htries, hsettles⟩ := hdone.tries_of_mem hgroup hmark
    have honce := hdone.once
    have hroom := hleft hopen
    refine ⟨by omega, fun hstill => ?_⟩
    by_contra hfull
    exact hstill (hsettles (.inr (Nat.le_of_not_lt hfull)))
  · rw [hdone.tries_of_notMem hgroup]
    exact ⟨hmost, fun hstill => hleft fun hsettled => hstill (h.settles hdone hsettled)⟩

end Host

variable (chars) in
theorem InLaunch.retireHost {start : Marker} {rest : List SessionId}
    {group : String × List LegacyPane} (accounted : List String)
    (h : InLaunch launch start (group.2.map (·.id) ++ rest) progress)
    (hnodup : (group.2.map (·.id) ++ rest).Nodup)
    (hown : ∀ pane ∈ group.2, OwnPane launch group.1 pane) :
    InLaunch launch start rest (retireHost chars launch accounted progress group) := by
  obtain ⟨hpanes, -, hdisjoint⟩ := List.nodup_append.mp hnodup
  obtain ⟨sent, hdone⟩ := retireHost_done chars launch accounted progress hpanes
  refine ⟨fun id hid => hdone.mem (h.kept id hid), fun id hid => h.settles hdone (h.settled id hid),
    ?_, h.ownCommands hdone hown, h.answersSettle hdone, h.countsTries hdone, h.keepsBudget hdone⟩
  intro id hid
  obtain ⟨hmem, hunsettled, hlookup⟩ := h.owed id (mem_append_right _ hid)
  refine ⟨hmem, hunsettled, (hdone.outside id ?_).trans hlookup⟩
  intro hgroup
  exact hdisjoint id hgroup id hid rfl

variable (chars) in
theorem InLaunch.retireHosts {start : Marker} (accounted : List String)
    (groups : List (String × List LegacyPane))
    (h : InLaunch launch start (groups.flatMap fun group => group.2.map (·.id)) progress)
    (hnodup : (groups.flatMap fun group => group.2.map (·.id)).Nodup)
    (hown : ∀ group ∈ groups, ∀ pane ∈ group.2, OwnPane launch group.1 pane) :
    InLaunch launch start [] (groups.foldl (LegacyRemote.retireHost chars launch accounted)
      progress) := by
  induction groups generalizing progress with
  | nil => exact h
  | cons group rest ih =>
    rw [List.flatMap_cons] at h hnodup
    have hnext := h.retireHost chars accounted hnodup (hown group mem_cons_self)
    refine ih hnext (List.nodup_append.mp hnodup).2.1 ?_
    exact fun other hother => hown other (mem_cons_of_mem _ hother)

/-- The panes by host are the panes that were collected, each once and with its host. -/
theorem byHost_ids {pending : List (String × LegacyPane)} (hnodup : (pending.map (·.2.id)).Nodup) :
    ((byHost pending).flatMap fun group => group.2.map (·.id)).Nodup ∧
      (∀ id ∈ (byHost pending).flatMap fun group => group.2.map (·.id), id ∈ pending.map (·.2.id)) ∧
      ∀ group ∈ byHost pending, ∀ pane ∈ group.2, (group.1, pane) ∈ pending := by
  have hmem : ∀ group ∈ byHost pending, ∀ pane ∈ group.2, (group.1, pane) ∈ pending := by
    intro group hgroup pane hpane
    obtain ⟨host, -, rfl⟩ := List.mem_map.mp hgroup
    obtain ⟨entry, hentry, rfl⟩ := List.mem_map.mp hpane
    obtain ⟨hpending, hhost⟩ := List.mem_filter.mp hentry
    rw [← of_decide_eq_true hhost]
    exact hpending
  refine ⟨?_, ?_, hmem⟩
  · rw [nodup_flatMap]
    refine ⟨fun group hgroup => ?_, ?_⟩
    · obtain ⟨host, -, rfl⟩ := List.mem_map.mp hgroup
      rw [map_map]
      exact hnodup.sublist (List.filter_sublist.map _)
    have hhosts : ((byHost pending).map (·.1)).Nodup := by
      rw [byHost, map_map]
      refine (map_id _).symm ▸ ?_
      exact (mergeSort_perm _ _).nodup_iff.mpr (nodup_dedup _)
    refine (List.pairwise_map.mp hhosts).imp_of_mem ?_
    intro first second hfirst hsecond hne id hid hid'
    obtain ⟨pane, hpane, rfl⟩ := List.mem_map.mp hid
    obtain ⟨other, hother, hsame⟩ := List.mem_map.mp hid'
    have heq := inj_on_of_nodup_map hnodup (hmem second hsecond other hother)
      (hmem first hfirst pane hpane) hsame
    exact hne (congrArg (·.1) heq).symm
  · intro id hid
    obtain ⟨group, hgroup, hid⟩ := List.mem_flatMap.mp hid
    obtain ⟨pane, hpane, rfl⟩ := List.mem_map.mp hid
    exact List.mem_map.mpr ⟨_, hmem group hgroup pane hpane, rfl⟩

/-- The records that are still to be looked at are as they were when the launch began. -/
structure Collecting (launch : LegacyLaunch) (start : Marker) (entries : List (SessionId × String))
    (state : LegacyProgress × List (String × LegacyPane)) : Prop where
  progress : InLaunch launch start (state.2.map (·.2.id)) state.1
  nodup : (state.2.map (·.2.id) ++ entries.map (·.1)).Nodup
  ahead : ∀ entry ∈ entries, entry.1 ∈ start.sessions ∧
    state.1.marker.sessions.lookup entry.1 = start.sessions.lookup entry.1 ∧
    launch.IsLegacy entry.1 entry.2
  own : ∀ entry ∈ state.2, OwnPane launch entry.1 entry.2
  unsent : state.1.attempts = []

theorem InLaunch.settle {start : Marker} {todo : List SessionId} {progress after : LegacyProgress}
    (h : InLaunch launch start todo progress) {id : SessionId} {state : PaneState}
    (hid : id ∉ todo) (hmarker : after.marker = progress.marker.settle id state)
    (hattempts : after.attempts = progress.attempts) : InLaunch launch start todo after := by
  obtain ⟨hothers, htries, hsettled⟩ := settle_frame id state progress.marker
  rw [← hmarker] at hothers htries hsettled
  refine ⟨?_, fun other hother => hsettled other (h.settled other hother), ?_, ?_, ?_, ?_, ?_⟩
  · intro other hother
    rw [hmarker]
    exact Table.mem_adjust.mpr (h.kept other hother)
  · intro other hother
    obtain ⟨hkept, hunsettled, hsame⟩ := h.owed other hother
    have hne : other ≠ id := fun heq => hid (heq ▸ hother)
    exact ⟨hkept, hunsettled, (hothers other hne).trans hsame⟩
  · rw [hattempts]
    exact h.own
  · rw [hattempts]
    exact fun attempt hattempt hanswer pane hpane =>
      hsettled _ (h.answers attempt hattempt hanswer pane hpane)
  · intro other
    rw [hattempts, htries other]
    exact h.counted other
  · intro other
    rw [htries other]
    refine ⟨(h.budget other).1, fun hopen => (h.budget other).2 fun hold => ?_⟩
    exact hopen (hsettled other hold)

theorem Collecting.collect {start : Marker} {entry : SessionId × String}
    {rest : List (SessionId × String)} {state : LegacyProgress × List (String × LegacyPane)}
    (h : Collecting launch start (entry :: rest) state) :
    Collecting launch start rest (collect state entry) := by
  obtain ⟨hmem, hlookup, hlegacy⟩ := h.ahead entry mem_cons_self
  have hahead : ∀ other ∈ rest, other.1 ≠ entry.1 := by
    intro other hother heq
    have hnodup := (List.nodup_append.mp h.nodup).2.1
    rw [map_cons, nodup_cons] at hnodup
    exact hnodup.1 (heq ▸ mem_map_of_mem hother)
  have hpending : ∀ other ∈ state.2, other.2.id ≠ entry.1 := by
    intro other hother
    exact (List.nodup_append.mp h.nodup).2.2 _ (mem_map_of_mem hother) _
      (mem_map_of_mem mem_cons_self)
  have hnodup : (state.2.map (·.2.id) ++ rest.map (·.1)).Nodup := by
    refine h.nodup.sublist (List.Sublist.append_left ?_ _)
    exact sublist_cons_self _ _
  have hdropped : Collecting launch start rest state :=
    ⟨h.progress, hnodup, fun other hother => h.ahead other (mem_cons_of_mem _ hother),
      h.own, h.unsent⟩
  unfold LegacyRemote.collect
  cases hmark : state.1.marker.sessions.lookup entry.1 with
  | none => exact hdropped
  | some mark =>
    simp only []
    by_cases hpane : mark.pane.isSome = true
    · rw [if_pos hpane]
      exact hdropped
    rw [if_neg hpane]
    by_cases hname : isDiriGeneratedName (legacyPaneName entry.1) = true
    · rw [if_pos hname]
      refine ⟨{ h.progress with owed := ?_ }, ?_, hdropped.ahead, ?_, h.unsent⟩
      · rw [map_append]
        intro id hid
        rcases List.mem_append.mp hid with hold | hnew
        · exact h.progress.owed id hold
        obtain rfl : id = entry.1 := by simpa using hnew
        refine ⟨hmem, not_settled (hlookup ▸ hmark) ?_, hlookup⟩
        simpa using hpane
      · have hmiddle := h.nodup
        simpa using hmiddle
      · intro other hother
        rcases List.mem_append.mp hother with hold | hnew
        · exact h.own other hold
        · obtain rfl := List.mem_singleton.mp hnew
          exact ⟨rfl, hname, hlegacy⟩
    rw [if_neg hname]
    obtain ⟨hothers, -, -⟩ := settle_frame entry.1 .absent state.1.marker
    have hnot : entry.1 ∉ state.2.map (·.2.id) := by
      intro hmem'
      obtain ⟨other, hother, heq⟩ := List.mem_map.mp hmem'
      exact hpending other hother heq
    refine ⟨h.progress.settle hnot rfl rfl, hnodup, ?_, h.own, h.unsent⟩
    intro other hother
    obtain ⟨hkept, hsame, hlegacy'⟩ := hdropped.ahead other hother
    exact ⟨hkept, (hothers _ (hahead other hother)).trans hsame, hlegacy'⟩

theorem Collecting.collectAll {start : Marker} {state : LegacyProgress × List (String × LegacyPane)}
    (h : Collecting launch start entries state) :
    Collecting launch start [] (entries.foldl LegacyRemote.collect state) := by
  induction entries generalizing state with
  | nil => exact h
  | cons entry rest ih => exact ih h.collect

/-! ### The launch -/

/-- What a launch does, as far as the launches after it are concerned. -/
structure LaunchDone (start : Marker) (launch : LegacyLaunch) (after : Marker)
    (report : LegacyProgress) : Prop where
  kept : ∀ id ∈ start.sessions, id ∈ after.sessions
  settled : ∀ id, start.Settled id → after.Settled id
  migrated : ∀ id ∈ report.outcome.migrated,
    id ∉ start.sessions ∧ id ∈ after.sessions ∧ ∃ host, launch.IsLegacy id host
  once : report.outcome.migrated.Nodup
  records : ∀ id, report.registry.records.lookup id =
    if id ∈ report.outcome.migrated then
      (launch.registry.records.lookup id).map fun record =>
        { retireRecord record with updatedAt := launch.now }
    else launch.registry.records.lookup id
  own : ∀ attempt ∈ report.attempts,
    attempt.command = sweepCommand (attempt.panes.map (·.target)) ∧
      ∀ pane ∈ attempt.panes, OwnPane launch attempt.host.id pane ∧ ¬start.Settled pane.id
  answers : ∀ attempt ∈ report.attempts, attempt.sweep.isSome = true →
    ∀ pane ∈ attempt.panes, after.Settled pane.id
  counted : ∀ id, start.tries id + unansweredTries id report.attempts ≤ after.tries id
  budget : Budget after

theorem collect_frame (state : LegacyProgress × List (String × LegacyPane)) :
    (entries.foldl LegacyRemote.collect state).1.registry = state.1.registry ∧
      (entries.foldl LegacyRemote.collect state).1.outcome.migrated = state.1.outcome.migrated := by
  induction entries generalizing state with
  | nil => exact ⟨rfl, rfl⟩
  | cons entry rest ih =>
    obtain ⟨hregistry, hmigrated⟩ := ih (LegacyRemote.collect state entry)
    rw [foldl_cons, hregistry, hmigrated]
    unfold LegacyRemote.collect
    split
    · exact ⟨rfl, rfl⟩
    simp only []
    split
    · exact ⟨rfl, rfl⟩
    · split <;> exact ⟨rfl, rfl⟩

variable (chars launch) in
theorem retireHosts_frame (accounted : List String) (groups : List (String × List LegacyPane))
    (progress : LegacyProgress) :
    (groups.foldl (LegacyRemote.retireHost chars launch accounted) progress).registry
        = progress.registry ∧
      (groups.foldl (LegacyRemote.retireHost chars launch accounted) progress).outcome.migrated
        = progress.outcome.migrated := by
  induction groups generalizing progress with
  | nil => exact ⟨rfl, rfl⟩
  | cons group rest ih =>
    obtain ⟨f, -, hregistry, hmigrated, -⟩ := retireHost_cases chars launch accounted progress group
    obtain ⟨hregistry', hmigrated'⟩ := ih (LegacyRemote.retireHost chars launch accounted
      progress group)
    exact ⟨hregistry'.trans hregistry, hmigrated'.trans hmigrated⟩

theorem Rewritten.start {start : Marker}
    (h : Rewritten launch start progress) (hbudget : Budget start) :
    (∀ id, progress.marker.Settled id ↔ start.Settled id) ∧
      (∀ id, progress.marker.tries id = start.tries id) ∧ Budget progress.marker := by
  have hsettled : ∀ id, progress.marker.Settled id ↔ start.Settled id := by
    intro id
    by_cases hmem : id ∈ start.sessions
    · exact ⟨fun hold => hold.congr (h.kept id hmem).symm, fun hold => hold.congr (h.kept id hmem)⟩
    constructor
    · rintro ⟨mark, hmark, hpane⟩
      rw [(h.fresh id hmem mark hmark).1] at hpane
      cases hpane
    · rintro ⟨mark, hmark, -⟩
      exact absurd (Table.mem_of_lookup hmark) hmem
  have htries : ∀ id, progress.marker.tries id = start.tries id := by
    intro id
    by_cases hmem : id ∈ start.sessions
    · exact tries_congr (h.kept id hmem)
    rw [Marker.tries, Marker.tries, AList.lookup_eq_none.mpr hmem]
    cases hmark : progress.marker.sessions.lookup id with
    | none => rfl
    | some mark => exact (h.fresh id hmem mark hmark).2
  refine ⟨hsettled, htries, fun id => ?_⟩
  rw [htries id, hsettled id]
  exact hbudget id

theorem rewriteAll_done (start : Marker) (entries : List (SessionId × String)) :
    Rewritten launch start
        (entries.foldl (LegacyRemote.rewrite launch) ⟨start, launch.registry, {}, []⟩) ∧
      (∀ entry ∈ entries, entry.1 ∈ (entries.foldl (LegacyRemote.rewrite launch)
        ⟨start, launch.registry, {}, []⟩).marker.sessions) ∧
      ∀ id ∈ (entries.foldl (LegacyRemote.rewrite launch)
        ⟨start, launch.registry, {}, []⟩).outcome.migrated, id ∈ entries.map (·.1) := by
  refine ⟨Rewritten.rewriteAll entries ⟨fun _ _ => rfl, ?_, by simp, List.nodup_nil, by simp, rfl⟩,
    ?_, ?_⟩
  · intro id hid mark hmark
    exact absurd (Table.mem_of_lookup hmark) hid
  · intro entry hentry
    exact mem_rewriteAll entries _ (.inr (mem_map_of_mem hentry))
  · intro id hid
    rcases migrated_rewriteAll entries _ hid with hnone | hentry
    · cases hnone
    · exact hentry

theorem retireHosts_done (chars : CharClass) (accounted : List String)
    {entries : List (SessionId × String)} {rewritten : LegacyProgress}
    (hunsent : rewritten.attempts = []) (hbudget : Budget rewritten.marker)
    (hnodup : (entries.map (·.1)).Nodup)
    (hentries : ∀ entry ∈ entries, entry.1 ∈ rewritten.marker.sessions ∧
      launch.IsLegacy entry.1 entry.2) {collected : LegacyProgress × List (String × LegacyPane)}
    (hcollect : entries.foldl LegacyRemote.collect (rewritten, []) = collected) :
    InLaunch launch rewritten.marker []
        ((byHost collected.2).foldl (LegacyRemote.retireHost chars launch accounted) collected.1) ∧
      ((byHost collected.2).foldl (LegacyRemote.retireHost chars launch accounted)
        collected.1).registry = rewritten.registry ∧
      ((byHost collected.2).foldl (LegacyRemote.retireHost chars launch accounted)
        collected.1).outcome.migrated = rewritten.outcome.migrated := by
  have hbegin : Collecting launch rewritten.marker entries (rewritten, []) := by
    refine ⟨⟨fun _ hid => hid, fun _ hid => hid, by simp, by simp [hunsent], by simp [hunsent], ?_,
      hbudget⟩, hnodup, ?_, by simp, hunsent⟩
    · intro id
      rw [hunsent]
      exact le_of_eq (Nat.add_zero _)
    · exact fun entry hentry => ⟨(hentries entry hentry).1, rfl, (hentries entry hentry).2⟩
  have hcollected := hbegin.collectAll
  obtain ⟨hregistry, hmigrated⟩ := collect_frame entries (rewritten, [])
  rw [hcollect] at hcollected hregistry hmigrated
  obtain ⟨hpanes, hids, hmem⟩ := byHost_ids (List.nodup_append.mp hcollected.nodup).1
  have hready : InLaunch launch rewritten.marker
      ((byHost collected.2).flatMap fun group => group.2.map (·.id)) collected.1 :=
    { hcollected.progress with
      owed := fun id hid => hcollected.progress.owed id (hids id hid) }
  obtain ⟨hregistry', hmigrated'⟩ :=
    retireHosts_frame chars launch accounted (byHost collected.2) collected.1
  refine ⟨hready.retireHosts chars accounted (byHost collected.2) hpanes ?_,
    hregistry'.trans hregistry, hmigrated'.trans hmigrated⟩
  exact fun group hgroup pane hpane => hcollected.own _ (hmem group hgroup pane hpane)

theorem Rewritten.launchDone {start : Marker} {rewritten report : LegacyProgress}
    (h : Rewritten launch start rewritten) (hbudget : Budget start)
    (hlegacy : ∀ id ∈ rewritten.outcome.migrated, ∃ host, launch.IsLegacy id host)
    (hdone : InLaunch launch rewritten.marker [] report)
    (hregistry : report.registry = rewritten.registry)
    (hmigrated : report.outcome.migrated = rewritten.outcome.migrated) :
    LaunchDone start launch report.marker report := by
  obtain ⟨hsettled, htries, -⟩ := h.start hbudget
  refine ⟨?_, fun id hid => hdone.settled id ((hsettled id).mpr hid), ?_, ?_, ?_, ?_,
    hdone.answers, ?_, hdone.budget⟩
  · intro id hid
    refine hdone.kept id ?_
    rw [← lookup_isSome, h.kept id hid, lookup_isSome]
    exact hid
  · intro id hid
    rw [hmigrated] at hid
    obtain ⟨hnew, hmem⟩ := h.migrated id hid
    exact ⟨hnew, hdone.kept _ hmem, hlegacy id hid⟩
  · rw [hmigrated]
    exact h.nodup
  · intro id
    rw [hmigrated, hregistry]
    exact h.records id
  · intro attempt hattempt
    obtain ⟨hcommand, hown⟩ := hdone.own attempt hattempt
    refine ⟨hcommand, fun pane hpane => ⟨(hown pane hpane).1, fun hold => ?_⟩⟩
    exact (hown pane hpane).2 ((hsettled pane.id).mpr hold)
  · intro id
    rw [← htries id]
    exact hdone.counted id

theorem retire_done (chars : CharClass) (resumes : String → String → Bool) {start : Marker}
    (launch : LegacyLaunch) (hbudget : Budget start) :
    LaunchDone start launch (retireLegacyRemoteSessions chars resumes start launch).1
      (retireLegacyRemoteSessions chars resumes start launch).2 := by
  unfold retireLegacyRemoteSessions
  cases hbound : launch.bound with
  | none =>
    refine ⟨fun _ hid => hid, fun _ hid => hid, by simp, List.nodup_nil, by simp, by simp,
      by simp, fun id => ?_, hbudget⟩
    exact le_of_eq (Nat.add_zero _)
  | some bound =>
    have hislegacy : ∀ entry ∈ legacy chars resumes bound launch.registry,
        launch.IsLegacy entry.1 entry.2 := by
      intro entry hentry
      obtain ⟨hunbound, record, hrecord, hhost⟩ := mem_legacy launch.keyed hentry
      exact ⟨bound, record, hbound, hunbound, hrecord, hhost⟩
    obtain ⟨hfirst, hthere, hmigrated⟩ :=
      @rewriteAll_done launch start (legacy chars resumes bound launch.registry)
    obtain ⟨hdone, hregistry, hsame⟩ := retireHosts_done chars (accounted chars resumes
      launch.registry) hfirst.attempts (hfirst.start hbudget).2.2 (legacy_nodup launch.keyed) (fun
      entry hentry => ⟨hthere entry hentry, hislegacy entry hentry⟩) rfl
    refine hfirst.launchDone hbudget ?_ hdone hregistry hsame
    intro id hid
    obtain ⟨entry, hentry, rfl⟩ := List.mem_map.mp (hmigrated id hid)
    exact ⟨entry.2, hislegacy entry hentry⟩

end LegacyRemote

end Diri

namespace Diri

abbrev LaunchTaken : Type := Taken Marker LegacyLaunch LegacyProgress

namespace LegacyRemote

/-- What a sequence of launches did, newest first. -/
structure Retired (steps : List LaunchTaken) : Prop where
  /-- No record is rewritten twice. -/
  once : (steps.flatMap fun step => step.output.outcome.migrated).Nodup
  /-- A record that is rewritten has a host and no binding. -/
  legacy : ∀ step ∈ steps, ∀ id ∈ step.output.outcome.migrated, ∃ host, step.input.IsLegacy id host
  /-- A rewritten record is retired, and every other one stays as it is. -/
  records : ∀ step ∈ steps, ∀ id, step.output.registry.records.lookup id =
    if id ∈ step.output.outcome.migrated then
      (step.input.registry.records.lookup id).map fun record =>
        { retireRecord record with updatedAt := step.input.now }
    else step.input.registry.records.lookup id
  /-- A command names panes of such records of its host, and no others. -/
  own : ∀ step ∈ steps, ∀ attempt ∈ step.output.attempts,
    attempt.command = sweepCommand (attempt.panes.map (·.target)) ∧
      ∀ pane ∈ attempt.panes, OwnPane step.input attempt.host.id pane
  /-- A pane that a host answered for is settled. -/
  answers : ∀ step ∈ steps, ∀ attempt ∈ step.output.attempts, attempt.sweep.isSome = true →
    ∀ pane ∈ attempt.panes, step.after.Settled pane.id
  /-- The pane of a settled record is in no later command. -/
  settled : steps.Pairwise fun later earlier => ∀ id, earlier.after.Settled id →
    ∀ attempt ∈ later.output.attempts, ∀ pane ∈ attempt.panes, pane.id ≠ id
  /-- No record's pane has more unanswered commands than are allowed. -/
  capped : ∀ id, unansweredTries id (steps.flatMap (·.output.attempts)) ≤ maxPaneAttempts

/-- What the marker knows of the launches that led to it. -/
structure Carried (marker : Marker) (past : List LaunchTaken) : Prop where
  retired : Retired past
  rewritten : ∀ step ∈ past, ∀ id ∈ step.output.outcome.migrated, id ∈ marker.sessions
  settled : ∀ step ∈ past, ∀ id, step.after.Settled id → marker.Settled id
  counted : ∀ id, unansweredTries id (past.flatMap (·.output.attempts)) ≤ marker.tries id
  budget : Budget marker

theorem Carried.start : Carried {} [] where
  retired := ⟨List.nodup_nil, by simp, by simp, by simp, by simp, .nil, by simp [unansweredTries]⟩
  rewritten := by simp
  settled := by simp
  counted := by simp [unansweredTries]
  budget id := by
    refine ⟨Nat.zero_le _, fun _ => ?_⟩
    exact Nat.zero_lt_succ _

theorem Carried.step {chars : CharClass} {resumes : String → String → Bool} {marker : Marker}
    {past : List LaunchTaken} (h : Carried marker past) (launch : LegacyLaunch) :
    Carried (retireLegacyRemoteSessions chars resumes marker launch).1
      (taken (retireLegacyRemoteSessions chars resumes) marker launch :: past) := by
  have hdone := retire_done chars resumes launch h.budget
  have hcounted : ∀ id, unansweredTries id
      ((taken (retireLegacyRemoteSessions chars resumes) marker launch :: past).flatMap
        (·.output.attempts))
      ≤ (retireLegacyRemoteSessions chars resumes marker launch).1.tries id := by
    intro id
    rw [List.flatMap_cons, unansweredTries_append, Nat.add_comm]
    exact (Nat.add_le_add_right (h.counted id) _).trans (hdone.counted id)
  refine ⟨⟨?_, ?_, ?_, ?_, ?_, ?_, ?_⟩, ?_, ?_, hcounted, hdone.budget⟩
  · rw [List.flatMap_cons]
    refine List.nodup_append.mpr ⟨hdone.once, h.retired.once, ?_⟩
    rintro id hid other hother rfl
    obtain ⟨step, hstep, hold⟩ := List.mem_flatMap.mp hother
    exact (hdone.migrated id hid).1 (h.rewritten step hstep id hold)
  · intro step hstep
    rcases List.mem_cons.mp hstep with rfl | hold
    · exact fun id hid => (hdone.migrated id hid).2.2
    · exact h.retired.legacy step hold
  · intro step hstep
    rcases List.mem_cons.mp hstep with rfl | hold
    · exact hdone.records
    · exact h.retired.records step hold
  · intro step hstep
    rcases List.mem_cons.mp hstep with rfl | hold
    · intro attempt hattempt
      obtain ⟨hcommand, hpanes⟩ := hdone.own attempt hattempt
      exact ⟨hcommand, fun pane hpane => (hpanes pane hpane).1⟩
    · exact h.retired.own step hold
  · intro step hstep
    rcases List.mem_cons.mp hstep with rfl | hold
    · exact hdone.answers
    · exact h.retired.answers step hold
  · refine List.pairwise_cons.mpr ⟨fun earlier hearlier id hid => ?_, h.retired.settled⟩
    intro attempt hattempt pane hpane heq
    have hbefore := h.settled earlier hearlier id hid
    exact ((hdone.own attempt hattempt).2 pane hpane).2 (heq ▸ hbefore)
  · exact fun id => (hcounted id).trans (hdone.budget id).1
  · intro step hstep id hid
    rcases List.mem_cons.mp hstep with rfl | hold
    · exact (hdone.migrated id hid).2.1
    · exact hdone.kept id (h.rewritten step hold id hid)
  · intro step hstep id hid
    rcases List.mem_cons.mp hstep with rfl | hold
    · exact hid
    · exact hdone.settled id (h.settled step hold id hid)

end LegacyRemote

def legacyRecord (id : SessionId) : SessionRecord where
  id := id
  kind := "claude-code"
  cwd := "~/code"
  title := "claude"
  titleSource := .placeholder
  status := .working
  resumability := .live
  createdAt := ⟨0⟩
  updatedAt := ⟨0⟩
  host := some "forge"

/-- A launch that finds one such record, and whose host says it ended the pane. -/
def legacyLaunch (id : SessionId) : LegacyLaunch where
  registry := ({} : Registry).insertRecord (legacyRecord id)
  keyed := Table.All.empty.insert rfl
  bound := some []
  hosts := ⟨[{ id := "forge", ssh := "developer@forge" }]⟩
  run := fun _ _ => some ⟨true, 0, "diri-legacy killed diri-4b99600f\n", ""⟩
  now := ⟨0⟩
  nowMillis := 0

end Diri
