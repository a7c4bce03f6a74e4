/-
A record asks for input only while its session does.

Status and prompt are two fields.  Whoever writes a view writes both, and whoever ends a
session clears the prompt, but for `terminate`: it writes the status alone.  A session
that is terminated while its record holds no prompt leaves none behind (`Unprompted`),
and then every record that is stored, set aside, handed out or written to the state file
is coherent (`registry_coherent`).
-/
import Diri.Proofs.Registry.Orphans

namespace Diri

open List

/-- A prompt only with the status that asks for one. -/
def SessionRecord.Coherent (record : SessionRecord) : Prop :=
  record.needsInput = none ∨ record.status.isNeedsInput = true

def SessionView.Coherent (view : SessionView) : Prop :=
  view.needsInput = none ∨ view.status.isNeedsInput = true

instance (record : SessionRecord) : Decidable record.Coherent :=
  inferInstanceAs (Decidable (record.needsInput = none ∨ record.status.isNeedsInput = true))

instance (view : SessionView) : Decidable view.Coherent :=
  inferInstanceAs (Decidable (view.needsInput = none ∨ view.status.isNeedsInput = true))

/-- The record that a call brings along is coherent. -/
def RegistryCall.Coherent : RegistryCall → Prop
  | .spawn record _ => record.Coherent
  | _ => True

theorem SessionRecord.Coherent.of_view {view : SessionView} (h : view.Coherent)
    {record : SessionRecord} (hstatus : record.status = view.status)
    (hneeds : record.needsInput = view.needsInput) : record.Coherent := by
  unfold SessionRecord.Coherent
  rw [hstatus, hneeds]
  exact h

namespace Registry

variable {registry : Registry}

/-- No stored record, and none set aside, holds a stale prompt. -/
structure Clear (registry : Registry) : Prop where
  records : registry.records.All fun _ record => record.Coherent
  closed : ∀ record ∈ registry.recentlyClosed, record.Coherent

def ViewsCoherent (registry : Registry) : Prop :=
  registry.sessions.All fun _ session => session.view.Coherent

instance : Decidable registry.ViewsCoherent :=
  inferInstanceAs (Decidable (registry.sessions.All fun _ session => session.view.Coherent))

/-- A session that is terminated leaves no prompt on its record. -/
def Unprompted (registry : Registry) : RegistryCall → Prop
  | .terminate id (.ok _) => id ∈ registry.sessions →
      ∀ record, registry.records.lookup id = some record → record.needsInput = none
  | .remove id (.ok _) => id ∈ registry.sessions →
      ∀ record, registry.records.lookup id = some record → record.needsInput = none
  | _ => True

theorem Clear.congr (h : registry.Clear) {after : Registry}
    (hrecords : after.records = registry.records)
    (hclosed : after.recentlyClosed = registry.recentlyClosed) : after.Clear where
  records := hrecords ▸ h.records
  closed := hclosed ▸ h.closed

/-! ### Calls -/

section
variable (h : registry.Clear)
include h

theorem Clear.spawn {record : SessionRecord} (hrecord : record.Coherent)
    (spawned : Except IoError LiveSession) : (registry.spawn record spawned).1.Clear := by
  cases spawned with
  | error error => exact h
  | ok session => exact ⟨h.records.insert hrecord, h.closed⟩

variable (id : SessionId)

theorem Clear.adoptRemote
    (adopted : Except IoError LiveSession) : (registry.adoptRemote id adopted).1.Clear := by
  rcases registry.adoptRemote_cases id adopted with ⟨error, hfailed⟩ | ⟨session, -, hadopted⟩
  · rw [hfailed]
    exact h
  · rw [hadopted]
    exact h.congr rfl rfl

theorem Clear.respawn (spawned : Except IoError LiveSession) (now : DateMillis) :
    (registry.respawn id spawned now).1.Clear := by
  rcases registry.respawn_cases id spawned now with ⟨error, hfailed⟩ | ⟨session, -, hstarted⟩
  · rw [hfailed]
    exact h
  · rw [hstarted]
    exact ⟨h.records.adjust fun _ _ => .inl rfl, h.closed⟩

theorem Clear.restore (holders : List (SessionId × Option LiveSession)) :
    (registry.restore holders).Clear := by
  obtain ⟨hrecords, hclosed⟩ := registry.adoptLiveHolders_frame holders
  refine ⟨Table.All.mapValues _ fun id record hrecord => ?_, ?_⟩
  · split
    · exact .inl rfl
    · rw [hrecords] at hrecord
      exact h.records id record hrecord
  · show ∀ record ∈ (registry.adoptLiveHolders holders).recentlyClosed, _
    rw [hclosed]
    exact h.closed

theorem Clear.terminate {id : SessionId} {result : Except IoError Exit}
    (hprompt : ∀ exit, result = .ok exit → id ∈ registry.sessions →
      ∀ record, registry.records.lookup id = some record → record.needsInput = none) :
    (registry.terminate id result).1.Clear := by
  rcases registry.terminate_cases id result with
    ⟨-, hsame⟩ | ⟨-, -, hfailed⟩ | ⟨hmem, exit, hok, hended⟩
  · rw [hsame]
    exact h
  · rw [hfailed]
    exact h.congr rfl rfl
  rw [hended]
  exact ⟨h.records.adjust fun record hrecord => .inl (hprompt exit hok hmem record hrecord),
    h.closed⟩

theorem Clear.remove {id : SessionId} {result : Except IoError Exit}
    (hprompt : ∀ exit, result = .ok exit → id ∈ registry.sessions →
      ∀ record, registry.records.lookup id = some record → record.needsInput = none) :
    (registry.remove id result).1.Clear := by
  have hended := h.terminate hprompt
  simp only [Registry.remove]
  cases hlookup : (registry.terminate id result).1.records.lookup id with
  | none => exact hended
  | some record =>
    refine ⟨hended.records.erase id, fun other hother => ?_⟩
    rcases mem_cons.mp (mem_of_mem_take hother) with rfl | hold
    · exact hended.records id other hlookup
    · exact hended.closed other hold

theorem Clear.reopenLastClosed (folderExists : String → Bool) :
    (registry.reopenLastClosed folderExists).1.Clear ∧
      ∀ record, (registry.reopenLastClosed folderExists).2 = some record → record.Coherent := by
  unfold Registry.reopenLastClosed
  cases hreopen : reopenable folderExists registry.recentlyClosed with
  | none =>
    refine ⟨⟨h.records, fun record hrecord => ?_⟩, fun record hrecord => ?_⟩
    · cases hrecord
    · cases hrecord
  | some found =>
    obtain ⟨record, rest⟩ := found
    obtain ⟨hmem, hrest⟩ := reopenable_mem hreopen
    have hrecord := h.closed record hmem
    refine ⟨⟨h.records.insert hrecord, fun other hother => h.closed other (hrest other hother)⟩,
      fun other hother => ?_⟩
    exact Option.some.inj hother ▸ hrecord

theorem Clear.archive (result : Except IoError Exit)
    (now : DateMillis) : (registry.archive id result now).1.Clear := by
  unfold Registry.archive
  by_cases hmem : id ∈ registry.records
  · rw [if_neg (not_not.mpr hmem)]
    obtain ⟨hclosed, hothers⟩ := registry.terminate_frame id result
    refine ⟨fun other record hrecord => ?_, hclosed ▸ h.closed⟩
    -- the record of the session itself may hold a stale prompt in between
    rcases Table.lookup_adjust hrecord with ⟨hne, hold⟩ | ⟨-, old, -, rfl⟩
    · exact h.records other record (hothers other hne ▸ hold)
    · exact .inl rfl
  · rw [if_pos hmem]
    exact h

theorem Clear.unarchive (now : DateMillis) : (registry.unarchive id now).1.Clear := by
  rcases registry.unarchive_cases id now with ⟨result, hsame⟩ | hlisted
  · rw [hsame]
    exact h
  · rw [hlisted]
    exact ⟨h.records.adjust fun record hrecord => h.records id record hrecord, h.closed⟩

theorem Clear.changedSince (hviews : registry.ViewsCoherent)
    (chars : CharClass) (published : Table SessionId UInt64) (now : DateMillis) :
    (registry.changedSince chars published now).1.Clear ∧
      ∀ change ∈ (registry.changedSince chars published now).2.changed, change.2.Coherent := by
  have hpublished := publishChanges chars (P := fun _ record => record.Coherent)
    (registry.sessions.entries.filter fun entry =>
      (registry.retained published).lookup entry.1 ≠ some entry.2.stateVersion) now
    (fun entry hentry record _ => ?_) ⟨registry.records, registry.retained published, []⟩
    h.records (by simp)
  · exact ⟨⟨hpublished.1, h.closed⟩, hpublished.2⟩
  obtain ⟨-, -, hstatus, hneeds⟩ := foldChange_id chars entry.2.view now record
  have hsession := AList.mem_lookup_iff.mpr (mem_filter.mp hentry).1
  exact .of_view (hviews entry.1 entry.2 hsession) hstatus hneeds

theorem Clear.setHibernation (info : Option HibernationInfo) (now : DateMillis) :
    (registry.setHibernation id info now).Clear :=
  ⟨h.records.adjust fun record hrecord => h.records id record hrecord, h.closed⟩

theorem Clear.hibernate (reason : HibernationReason)
    (stopped : Except IoError (List (Int32 × Int64))) (now : DateMillis) :
    (registry.hibernate id reason stopped now).1.Clear := by
  rcases registry.hibernate_cases id reason stopped now with ⟨error, hfailed⟩ | ⟨info, hstopped⟩
  · rw [hfailed]
    exact h
  rw [hstopped]
  have hsessions : Clear { registry with
      sessions := registry.sessions.adjust id fun session =>
        (session.setHibernated true false).1 } := h.congr rfl rfl
  exact hsessions.setHibernation id (some info) now

theorem Clear.ensureSessionAwake
    (continued : Except IoError Unit) (written : Bool) (now : DateMillis) :
    (registry.ensureSessionAwake id continued written now).1.Clear := by
  have hwake : ∀ {registry : Registry} (known : Bool), registry.Clear →
      (if known then registry.setHibernation id none now else registry).Clear := by
    intro registry known h
    cases known with
    | true => exact h.setHibernation id none now
    | false => exact h
  simp only [Registry.ensureSessionAwake]
  split
  · exact hwake _ h
  cases continued with
  | error error => exact h
  | ok _ => exact hwake _ (h.congr rfl rfl)

theorem Clear.wakeSession (continued : Except IoError Unit) (written : Bool) (now : DateMillis) :
    (registry.wakeSession id continued written now).1.Clear := by
  unfold Registry.wakeSession
  split
  · exact h.ensureSessionAwake id continued written now
  · exact h

theorem Clear.writeInput (bytes : List UInt8)
    (written : Bool) : (registry.writeInput id bytes written).1.Clear := by
  unfold Registry.writeInput
  split
  · exact h
  · exact h.congr rfl rfl

theorem Clear.step (hviews : registry.ViewsCoherent) (chars : CharClass)
    (call : RegistryCall) (hcall : call.Coherent) (hprompt : registry.Unprompted call) :
    (RegistryCall.step chars registry call).1.Clear ∧
      ∀ record ∈ (RegistryCall.step chars registry call).2.returned, record.Coherent := by
  have hnone : ∀ record ∈ ([] : List SessionRecord), record.Coherent := by simp
  cases call with
  | spawn record spawned => exact ⟨h.spawn hcall spawned, hnone⟩
  | adoptRemote id adopted => exact ⟨h.adoptRemote id adopted, hnone⟩
  | respawn id spawned now => exact ⟨h.respawn id spawned now, hnone⟩
  | restore holders => exact ⟨h.restore holders, hnone⟩
  | terminate id result =>
    refine ⟨h.terminate fun exit hexit => ?_, hnone⟩
    subst hexit
    exact hprompt
  | remove id result =>
    refine ⟨h.remove fun exit hexit => ?_, hnone⟩
    subst hexit
    exact hprompt
  | reopenLastClosed folderExists =>
    obtain ⟨hclear, hreturned⟩ := h.reopenLastClosed folderExists
    refine ⟨hclear, fun record hrecord => hreturned record ?_⟩
    exact Option.mem_toList.mp hrecord
  | archive id result now => exact ⟨h.archive id result now, hnone⟩
  | unarchive id now => exact ⟨h.unarchive id now, hnone⟩
  | changedSince published now =>
    obtain ⟨hclear, hchanged⟩ := h.changedSince hviews chars published now
    refine ⟨hclear, fun record hrecord => ?_⟩
    obtain ⟨change, hchange, rfl⟩ := mem_map.mp hrecord
    exact hchanged change hchange
  | hibernate id reason stopped now => exact ⟨h.hibernate id reason stopped now, hnone⟩
  | wakeSession id continued written now => exact ⟨h.wakeSession id continued written now, hnone⟩
  | ensureSessionAwake id continued written now =>
    exact ⟨h.ensureSessionAwake id continued written now, hnone⟩
  | writeInput id bytes written => exact ⟨h.writeInput id bytes written, hnone⟩
  | observe id view => exact ⟨h.congr rfl rfl, hnone⟩

end

/-! ### What the registry says -/

/-- Every record that the registry lists, gives or writes is coherent. -/
structure Shows (chars : CharClass) (resumes : String → String → Bool) (registry : Registry) :
    Prop where
  listed : ∀ record ∈ registry.listRecords chars resumes, record.Coherent
  given : ∀ id record, registry.record chars resumes id = some record → record.Coherent
  written : ∀ record ∈ registry.recordsForPersistence, record.Coherent

theorem Clear.foldLive (hviews : registry.ViewsCoherent) (chars : CharClass)
    (resumes : String → String → Bool) {record : SessionRecord} (hrecord : record.Coherent) :
    (registry.foldLive chars resumes record).Coherent := by
  unfold Registry.foldLive
  cases hsession : registry.sessions.lookup record.id with
  | none =>
    simp only []
    split <;> exact hrecord
  | some session =>
    obtain ⟨-, -, hstatus, hneeds⟩ := foldSessionView_id chars session.view record
    have hfolded := SessionRecord.Coherent.of_view (hviews _ _ hsession) hstatus hneeds
    simp only []
    split <;> exact hfolded

theorem Clear.shows (h : registry.Clear) (hviews : registry.ViewsCoherent) (chars : CharClass)
    (resumes : String → String → Bool) : registry.Shows chars resumes where
  listed record hrecord := by
    obtain ⟨id, stored, hstored, rfl⟩ := mem_listRecords hrecord
    exact Clear.foldLive hviews chars resumes (h.records id stored hstored)
  given id record hrecord := by
    obtain ⟨stored, hstored, rfl⟩ := Option.map_eq_some_iff.mp hrecord
    exact Clear.foldLive hviews chars resumes (h.records id stored hstored)
  written record hrecord := by
    obtain ⟨stored, hstored, rfl⟩ := List.mem_map.mp (List.mem_mergeSort.mp hrecord)
    obtain ⟨id, hid⟩ := Table.mem_values.mp hstored
    split
    · next session hsession => exact .of_view (hviews _ session hsession) rfl rfl
    · exact h.records id stored hid

theorem Clear.loaded {records : List SessionRecord} (h : ∀ record ∈ records, record.Coherent) :
    (loaded records).Clear := by
  have hinsert : ∀ (registry : Registry), registry.Clear →
      (records.foldl (fun registry record => registry.insertRecord record) registry).Clear := by
    induction records with
    | nil => exact fun _ hclear => hclear
    | cons record rest ih =>
      intro registry hclear
      exact ih (fun other hother => h other (mem_cons_of_mem _ hother)) _
        ⟨hclear.records.insert (h record mem_cons_self), hclear.closed⟩
  exact hinsert {} ⟨.empty, by simp⟩

theorem viewsCoherent_loaded (records : List SessionRecord) : (loaded records).ViewsCoherent := by
  unfold ViewsCoherent
  rw [loaded_sessions]
  exact .empty

end Registry

/--
**A record asks for input only while its status does**, in whatever the registry hands
out or writes, after any calls: as long as a session that is terminated leaves no prompt
on its record.  The records it starts from are coherent, and so is every live session's
view.
-/
theorem registry_coherent (chars : CharClass) (resumes : String → String → Bool)
    (records : List SessionRecord) (calls : List RegistryCall)
    (hrecords : ∀ record ∈ records, record.Coherent) (hcalls : ∀ call ∈ calls, call.Coherent)
    (hviews : ∀ step ∈ (run (RegistryCall.step chars) (.loaded records) calls).2,
      step.after.ViewsCoherent)
    (hprompt : ∀ step ∈ (run (RegistryCall.step chars) (.loaded records) calls).2,
      step.before.Unprompted step.input) :
    ∀ step ∈ (run (RegistryCall.step chars) (.loaded records) calls).2,
      step.after.Shows chars resumes ∧ ∀ record ∈ step.output.returned, record.Coherent := by
  have hrun : (∀ step ∈ (run (RegistryCall.step chars) (.loaded records) calls).2,
        step.input.Coherent ∧ step.after.ViewsCoherent ∧ step.before.Unprompted step.input) →
      (run (RegistryCall.step chars) (.loaded records) calls).1.Clear ∧
      (run (RegistryCall.step chars) (.loaded records) calls).1.ViewsCoherent ∧
      ∀ step ∈ (run (RegistryCall.step chars) (.loaded records) calls).2,
        step.after.Shows chars resumes ∧ ∀ record ∈ step.output.returned, record.Coherent := by
    refine run_induction (P := fun (registry : Registry) (past : List RegistryStep) =>
      (∀ step ∈ past, step.input.Coherent ∧ step.after.ViewsCoherent ∧
        step.before.Unprompted step.input) →
      registry.Clear ∧ registry.ViewsCoherent ∧ ∀ step ∈ past,
        step.after.Shows chars resumes ∧ ∀ record ∈ step.output.returned, record.Coherent)
      ?_ ?_ calls
    · intro _
      exact ⟨.loaded hrecords, Registry.viewsCoherent_loaded records, by simp⟩
    intro registry past call ih hall
    obtain ⟨hclear, hbefore, hpast⟩ :=
      ih fun step hstep => hall step (mem_cons_of_mem _ hstep)
    obtain ⟨hnew, hafter, hunprompted⟩ := hall _ mem_cons_self
    obtain ⟨hstep, hreturned⟩ := hclear.step hbefore chars call hnew hunprompted
    refine ⟨hstep, hafter, fun step hmem => ?_⟩
    rcases mem_cons.mp hmem with rfl | hearlier
    · exact ⟨hstep.shows hafter chars resumes, hreturned⟩
    · exact hpast step hearlier
  refine (hrun fun step hstep => ⟨?_, hviews step hstep, hprompt step hstep⟩).2.2
  refine hcalls step.input (mem_reverse.mp ?_)
  rw [← run_inputs (RegistryCall.step chars) (.loaded records) calls]
  exact mem_map.mpr ⟨step, hstep, rfl⟩

/-! ### A session that is terminated while it asks -/

/-- A session is spawned and terminated before anything was published of it. -/
theorem registry_coherent_unasked : let calls : List RegistryCall :=
      [.spawn workingRecord (.ok workingSession), .terminate "s_1" (.ok (.code 0))]
    (run (RegistryCall.step asciiChars) (.loaded []) calls).1.sessions.keys = [] ∧
      ∀ step ∈ (run (RegistryCall.step asciiChars) (.loaded []) calls).2,
        step.after.Shows asciiChars (fun _ _ => false) ∧
          ∀ record ∈ step.output.returned, record.Coherent := by
  refine ⟨by decide +kernel, registry_coherent _ _ _ _ (by simp) ?_ ?_ ?_⟩
  · simp [RegistryCall.Coherent, SessionRecord.Coherent, workingRecord]
  · decide +kernel
  intro step hstep
  simp only [run, advance, foldl_cons, foldl_nil, mem_cons, not_mem_nil, or_false] at hstep
  rcases hstep with rfl | rfl
  · intro _ record hrecord
    obtain rfl : record = workingRecord :=
      Option.some.inj (hrecord.symm.trans (AList.lookup_insert _))
    rfl
  · trivial

def askingView : SessionView where
  status := .needsInput .permission
  needsInput := some ⟨.permission, .claudePermissionHook, none, "Run it?", none, none, .neutral, ⟨0⟩⟩

/-- What is published of a session that asks stays with the record when it is terminated. -/
theorem registry_prompt_left : (∀ step ∈ (run (RegistryCall.step asciiChars) (.loaded [])
        [.spawn workingRecord (.ok workingSession), .observe "s_1" askingView,
          .changedSince ∅ ⟨1⟩, .terminate "s_1" (.ok (.code 0))]).2, step.after.ViewsCoherent) ∧
      ¬(run (RegistryCall.step asciiChars) (.loaded [])
        [.spawn workingRecord (.ok workingSession), .observe "s_1" askingView,
          .changedSince ∅ ⟨1⟩, .terminate "s_1" (.ok (.code 0))]).1.Shows asciiChars
            (fun _ _ => false) := by
  refine ⟨by decide +kernel, fun hshows => ?_⟩
  have hwritten := hshows.written
  revert hwritten
  decide +kernel

end Diri
