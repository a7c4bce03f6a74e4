/-
What the registry's operations do to its records and sessions.

A fact about single records is kept by an operation if what the operation makes of a
record has it too (`publishChanges`, `restore_records`, `terminate_cases`); the two
invariants, on orphans and on prompts, are both of that kind.  The keys of the sessions
change only where a session begins or ends.
-/
import Diri.Engine.Registry

namespace Diri

open List

namespace Registry

variable (chars : CharClass) {registry : Registry} {P : SessionId → SessionRecord → Prop}

/-! ### What became of a record -/

theorem foldSessionView_id (view : SessionView) (record : SessionRecord) :
    (foldSessionView chars view record).id = record.id ∧
      (foldSessionView chars view record).host = record.host ∧
        (foldSessionView chars view record).status = view.status ∧
          (foldSessionView chars view record).needsInput = view.needsInput := by
  unfold foldSessionView
  simp only []
  split
  · exact ⟨rfl, rfl, rfl, rfl⟩
  split
  · exact ⟨rfl, rfl, rfl, rfl⟩
  split
  · exact ⟨rfl, rfl, rfl, rfl⟩
  · exact ⟨rfl, rfl, rfl, rfl⟩

/-- A record that was published has the session's status, and is otherwise the same session's. -/
theorem foldChange_id (view : SessionView) (now : DateMillis) (record : SessionRecord) :
    (foldChange chars view now record).id = record.id ∧
      (foldChange chars view now record).host = record.host ∧
        (foldChange chars view now record).status = view.status ∧
          (foldChange chars view now record).needsInput = view.needsInput := by
  unfold foldChange
  simp only []
  split
  · exact foldSessionView_id chars view record
  · exact foldSessionView_id chars view record

/-- What holds of the records holds of those that changed, if a published view keeps it. -/
theorem publishChanges (entries : List ((_ : SessionId) × LiveSession)) (now : DateMillis)
    (hfold : ∀ entry ∈ entries, ∀ record, P entry.1 record →
      P entry.1 (foldChange chars entry.2.view now record))
    (state : Publication) (hrecords : Table.All P state.records)
    (hchanged : ∀ change ∈ state.changed, P change.1 change.2) :
    Table.All P (entries.foldl (publishChange chars now) state).records ∧
      ∀ change ∈ (entries.foldl (publishChange chars now) state).changed, P change.1 change.2 := by
  induction entries generalizing state with
  | nil => exact ⟨hrecords, hchanged⟩
  | cons entry rest ih =>
    have hrest : ∀ entry ∈ rest, ∀ record, P entry.1 record →
        P entry.1 (foldChange chars entry.2.view now record) :=
      fun entry hentry => hfold entry (mem_cons_of_mem _ hentry)
    have hfirst := hfold entry mem_cons_self
    rw [foldl_cons]
    cases hlookup : state.records.lookup entry.1 with
    | none =>
      refine ih hrest _ ?_ ?_
      · simpa only [publishChange, hlookup] using hrecords
      · simpa only [publishChange, hlookup] using hchanged
    | some record =>
      have hrecord := hfirst record (hrecords _ _ hlookup)
      refine ih hrest _ ?_ ?_
      · simp only [publishChange, hlookup]
        exact hrecords.adjust fun value hvalue => hfirst value (hrecords _ _ hvalue)
      simp only [publishChange, hlookup, mem_append, mem_singleton]
      rintro change (hold | rfl)
      · exact hchanged change hold
      · exact hrecord

theorem adoptLiveHolders_frame (holders : List (SessionId × Option LiveSession))
    (registry : Registry) : (registry.adoptLiveHolders holders).records = registry.records ∧
      (registry.adoptLiveHolders holders).recentlyClosed = registry.recentlyClosed := by
  unfold adoptLiveHolders
  induction holders generalizing registry with
  | nil => exact ⟨rfl, rfl⟩
  | cons holder rest ih =>
    rw [foldl_cons]
    obtain ⟨hrecords, hclosed⟩ := ih (registry.adoptHolder holder)
    rw [hrecords, hclosed]
    unfold adoptHolder
    split <;> exact ⟨rfl, rfl⟩

variable (id : SessionId)

theorem adoptRemote_cases (adopted : Except IoError LiveSession)
    (registry : Registry) : (∃ error, registry.adoptRemote id adopted = (registry, .error error)) ∨
    ∃ session, adopted = .ok session ∧ registry.adoptRemote id adopted
      = ({ registry with sessions := registry.sessions.insert id session }, .ok id) := by
  unfold adoptRemote
  by_cases hmem : id ∈ registry.records
  · rw [if_neg (not_not.mpr hmem)]
    cases adopted with
    | error error => exact .inl ⟨error, rfl⟩
    | ok session => exact .inr ⟨session, rfl, rfl⟩
  · rw [if_pos hmem]
    exact .inl ⟨_, rfl⟩

theorem respawn_cases (spawned : Except IoError LiveSession) (now : DateMillis)
    (registry : Registry) : (∃ error, registry.respawn id spawned now = (registry, .error error)) ∨
    ∃ session, spawned = .ok session ∧ registry.respawn id spawned now = ({ registry with
            sessions := registry.sessions.insert id session
            records := registry.records.adjust id fun record =>
              { record with status := .starting, needsInput := none, updatedAt := now } },
          .ok ()) := by
  unfold respawn
  by_cases hmem : id ∈ registry.records
  · rw [if_neg (not_not.mpr hmem)]
    cases spawned with
    | error error => exact .inl ⟨error, rfl⟩
    | ok session => exact .inr ⟨session, rfl, rfl⟩
  · rw [if_pos hmem]
    exact .inl ⟨_, rfl⟩

theorem hibernate_cases (reason : HibernationReason)
    (stopped : Except IoError (List (Int32 × Int64))) (now : DateMillis) (registry : Registry) :
    (∃ error, registry.hibernate id reason stopped now = (registry, .error error)) ∨
    ∃ info, registry.hibernate id reason stopped now
      = (Registry.setHibernation id (some info) now { registry with
          sessions := registry.sessions.adjust id fun session =>
            (session.setHibernated true false).1 }, .ok ()) := by
  unfold hibernate
  by_cases hmem : id ∈ registry.sessions
  · rw [if_neg (not_not.mpr hmem)]
    cases stopped with
    | error error => exact .inl ⟨error, rfl⟩
    | ok tree => exact .inr ⟨_, rfl⟩
  · rw [if_pos hmem]
    exact .inl ⟨_, rfl⟩

theorem terminate_cases (result : Except IoError Exit) (registry : Registry) :
    (id ∉ registry.sessions ∧ (registry.terminate id result).1 = registry) ∨
    (id ∈ registry.sessions ∧ (∃ error, result = .error error) ∧
      (registry.terminate id result).1 = { registry with sessions := registry.sessions.erase id }) ∨
    (id ∈ registry.sessions ∧ ∃ exit, result = .ok exit ∧
      (registry.terminate id result).1 = { registry with
        sessions := registry.sessions.erase id
        records := registry.records.adjust id fun record =>
          { record with status := .exited (exitInfo exit) } }) := by
  unfold terminate
  by_cases hmem : id ∈ registry.sessions
  · rw [if_neg (not_not.mpr hmem)]
    cases result with
    | error error => exact .inr (.inl ⟨hmem, ⟨error, rfl⟩, rfl⟩)
    | ok exit => exact .inr (.inr ⟨hmem, exit, rfl, rfl⟩)
  · rw [if_pos hmem]
    exact .inl ⟨hmem, rfl⟩

theorem terminate_frame (result : Except IoError Exit) (registry : Registry) :
    (registry.terminate id result).1.recentlyClosed = registry.recentlyClosed ∧
      ∀ other, other ≠ id →
        (registry.terminate id result).1.records.lookup other = registry.records.lookup other := by
  rcases registry.terminate_cases id result with ⟨-, hsame⟩ | ⟨-, -, hfailed⟩ | ⟨-, exit, -, hended⟩
  · rw [hsame]
    exact ⟨rfl, fun _ _ => rfl⟩
  · rw [hfailed]
    exact ⟨rfl, fun _ _ => rfl⟩
  · rw [hended]
    exact ⟨rfl, fun other hne => Table.lookup_adjust_ne hne _ _⟩

theorem unarchive_cases (now : DateMillis) (registry : Registry) :
    (∃ result, registry.unarchive id now = (registry, result)) ∨ registry.unarchive id now
      = ({ registry with records := registry.records.adjust id fun record =>
              { record with archivedAt := none, updatedAt := now } }, .ok ()) := by
  unfold unarchive
  cases registry.records.lookup id with
  | none => exact .inl ⟨_, rfl⟩
  | some record =>
    by_cases hlisted : record.archivedAt.isNone = true
    · exact .inl ⟨.ok (), if_pos hlisted⟩
    · exact .inr (if_neg hlisted)

theorem sessions_reopenLastClosed (folderExists : String → Bool) (registry : Registry) :
    (registry.reopenLastClosed folderExists).1.sessions = registry.sessions := by
  unfold reopenLastClosed
  split <;> rfl

theorem reopenable_mem {folderExists : String → Bool} {closed rest : List SessionRecord}
    {record : SessionRecord} (h : reopenable folderExists closed = some (record, rest)) :
    record ∈ closed ∧ ∀ other ∈ rest, other ∈ closed := by
  induction closed with
  | nil => cases h
  | cons first closed ih =>
    unfold reopenable at h
    by_cases hgone : (first.host.isNone && !folderExists first.cwd) = true
    · rw [if_pos hgone] at h
      obtain ⟨hrecord, hrest⟩ := ih h
      exact ⟨mem_cons_of_mem _ hrecord, fun other hother => mem_cons_of_mem _ (hrest other hother)⟩
    rw [if_neg hgone, Option.some.injEq, Prod.mk.injEq] at h
    obtain ⟨rfl, rfl⟩ := h
    exact ⟨mem_cons_self, fun other hother => mem_cons_of_mem _ hother⟩

theorem mem_listRecords {chars : CharClass} {resumes : String → String → Bool}
    {record : SessionRecord} (h : record ∈ registry.listRecords chars resumes) :
    ∃ id stored, registry.records.lookup id = some stored ∧
      record = registry.foldLive chars resumes stored := by
  obtain ⟨stored, hstored, rfl⟩ := List.mem_map.mp (List.mem_mergeSort.mp h)
  obtain ⟨id, hid⟩ := Table.mem_values.mp hstored
  exact ⟨id, stored, hid, rfl⟩

/-- What is listed of a record: its session's status, or its own if it has no session. -/
theorem foldLive_id (registry : Registry) (chars : CharClass)
    (resumes : String → String → Bool) (record : SessionRecord) :
    (registry.foldLive chars resumes record).id = record.id ∧
      (registry.foldLive chars resumes record).host = record.host ∧ (record.id ∉ registry.sessions →
          (registry.foldLive chars resumes record).status = record.status ∧
            (registry.foldLive chars resumes record).needsInput = record.needsInput) := by
  unfold foldLive
  cases hsession : registry.sessions.lookup record.id with
  | none =>
    simp only []
    split <;> exact ⟨rfl, rfl, fun _ => ⟨rfl, rfl⟩⟩
  | some session =>
    obtain ⟨hid, hhost, -, -⟩ := foldSessionView_id chars session.view record
    have hmem : ¬record.id ∉ registry.sessions := not_not.mpr (Table.mem_of_lookup hsession)
    simp only []
    split <;> exact ⟨hid, hhost, fun hnot => absurd hnot hmem⟩

theorem loaded_sessions (records : List SessionRecord) : (loaded records).sessions = ∅ := by
  have hsessions : ∀ (registry : Registry), registry.sessions = ∅ →
      (records.foldl (fun registry record => registry.insertRecord record) registry).sessions
        = ∅ := by
    induction records with
    | nil => exact fun _ h => h
    | cons record rest ih => exact fun registry h => ih _ h
  exact hsessions {} rfl

/-! ### Records by their own ids -/

def Keyed (registry : Registry) : Prop := registry.records.All fun id record => record.id = id

variable {chars}

theorem Keyed.frame {after : Registry} (h : registry.Keyed)
    (hrecords : after.records = registry.records) : after.Keyed := by
  rw [Keyed, hrecords]
  exact h

section
variable (h : registry.Keyed)
include h

theorem Keyed.adjust {id : SessionId} {f : SessionRecord → SessionRecord}
    (hf : ∀ record, (f record).id = record.id) :
    Table.All (fun id record => record.id = id) (registry.records.adjust id f) :=
  Table.All.adjust h fun record hrecord => (hf record).trans (h id record hrecord)

variable (id : SessionId)

theorem Keyed.terminate (result : Except IoError Exit) :
    (registry.terminate id result).1.Keyed := by
  rcases registry.terminate_cases id result with ⟨-, hsame⟩ | ⟨-, -, hfailed⟩ | ⟨-, exit, -, hended⟩
  · rw [hsame]
    exact h
  · rw [hfailed]
    exact h
  · rw [hended]
    exact h.adjust fun _ => rfl

theorem Keyed.restore (holders : List (SessionId × Option LiveSession)) :
    (registry.restore holders).Keyed := by
  refine Table.All.mapValues _ fun id record hrecord => ?_
  rw [(registry.adoptLiveHolders_frame holders).1] at hrecord
  rw [← h id record hrecord]
  split <;> rfl

theorem Keyed.remove (result : Except IoError Exit) : (registry.remove id result).1.Keyed := by
  have hended := h.terminate id result
  simp only [Registry.remove]
  split
  · exact hended
  · exact Table.All.erase hended id

theorem Keyed.reopenLastClosed (folderExists : String → Bool) :
    (registry.reopenLastClosed folderExists).1.Keyed := by
  unfold Registry.reopenLastClosed
  split
  · exact h
  · exact Table.All.insert h rfl

theorem Keyed.archive (result : Except IoError Exit)
    (now : DateMillis) : (registry.archive id result now).1.Keyed := by
  unfold Registry.archive
  split
  · exact h
  · exact (h.terminate id result).adjust fun _ => rfl

theorem Keyed.changedSince (chars : CharClass)
    (published : Table SessionId UInt64) (now : DateMillis) :
    (registry.changedSince chars published now).1.Keyed := by
  refine (publishChanges chars _ now ?_ _ ?_ (by simp)).1
  · intro entry _ record hrecord
    exact (foldChange_id chars entry.2.view now record).1.trans hrecord
  · exact h

theorem Keyed.setHibernation (info : Option HibernationInfo) (now : DateMillis) :
    (registry.setHibernation id info now).Keyed := h.adjust fun _ => rfl

theorem Keyed.ensureSessionAwake
    (continued : Except IoError Unit) (written : Bool) (now : DateMillis) :
    (registry.ensureSessionAwake id continued written now).1.Keyed := by
  have hwake : ∀ {registry : Registry} (known : Bool), registry.Keyed →
      (if known then registry.setHibernation id none now else registry).Keyed := by
    intro registry known hkeyed
    cases known with
    | true => exact hkeyed.setHibernation id none now
    | false => exact hkeyed
  simp only [Registry.ensureSessionAwake]
  split
  · exact hwake _ h
  cases continued with
  | error error => exact h
  | ok _ => exact hwake _ (h.frame rfl)

theorem Keyed.step (chars : CharClass) (call : RegistryCall) :
    (RegistryCall.step chars registry call).1.Keyed := by
  cases call with
  | spawn record spawned =>
    cases spawned with
    | error error => exact h
    | ok session => exact Table.All.insert h rfl
  | adoptRemote id adopted =>
    rcases registry.adoptRemote_cases id adopted with ⟨error, hfailed⟩ | ⟨session, -, hadopted⟩
    · simp only [RegistryCall.step, RegistryCall.reply, hfailed]
      exact h
    · simp only [RegistryCall.step, RegistryCall.reply, hadopted]
      exact h
  | respawn id spawned now =>
    rcases registry.respawn_cases id spawned now with ⟨error, hfailed⟩ | ⟨session, -, hstarted⟩
    · simp only [RegistryCall.step, RegistryCall.reply, hfailed]
      exact h
    · simp only [RegistryCall.step, RegistryCall.reply, hstarted]
      exact h.adjust fun _ => rfl
  | restore holders => exact h.restore holders
  | terminate id result => exact h.terminate id result
  | remove id result => exact h.remove id result
  | reopenLastClosed folderExists => exact h.reopenLastClosed folderExists
  | archive id result now => exact h.archive id result now
  | unarchive id now =>
    rcases registry.unarchive_cases id now with ⟨result, hsame⟩ | hlisted
    · simp only [RegistryCall.step, RegistryCall.reply, hsame]
      exact h
    · simp only [RegistryCall.step, RegistryCall.reply, hlisted]
      exact h.adjust fun _ => rfl
  | changedSince published now => exact h.changedSince chars published now
  | hibernate id reason stopped now =>
    rcases registry.hibernate_cases id reason stopped now with
      ⟨error, hfailed⟩ | ⟨info, hstopped⟩
    · simp only [RegistryCall.step, RegistryCall.reply, hfailed]
      exact h
    · simp only [RegistryCall.step, RegistryCall.reply, hstopped]
      exact Keyed.setHibernation (h.frame rfl) id _ now
  | wakeSession id continued written now =>
    simp only [RegistryCall.step, RegistryCall.reply, Registry.wakeSession]
    split
    · exact h.ensureSessionAwake id continued written now
    · exact h
  | ensureSessionAwake id continued written now =>
    exact h.ensureSessionAwake id continued written now
  | writeInput id bytes written =>
    simp only [RegistryCall.step, RegistryCall.reply, Registry.writeInput]
    split
    · exact h
    · exact h
  | observe id view => exact h

end

theorem keyed_loaded (records : List SessionRecord) : (loaded records).Keyed := by
  have hfold : ∀ registry : Registry, registry.Keyed →
      (records.foldl (fun registry record => registry.insertRecord record) registry).Keyed := by
    induction records with
    | nil => exact fun _ h => h
    | cons record rest ih => exact fun registry h => ih _ (Table.All.insert h rfl)
  exact hfold {} Table.All.empty

theorem keyed_run (chars : CharClass) (records : List SessionRecord) (calls : List RegistryCall) :
    (run (RegistryCall.step chars) (.loaded records) calls).1.Keyed := by
  induction calls using List.reverseRecOn with
  | nil => exact keyed_loaded records
  | append_singleton calls call ih =>
    rw [run_concat]
    exact ih.step chars call

theorem Keyed.nodup_listRecords (h : registry.Keyed) (chars : CharClass)
    (resumes : String → String → Bool) :
    ((registry.listRecords chars resumes).map (·.id)).Nodup := by
  have hperm : ((registry.listRecords chars resumes).map (·.id)).Perm
      ((registry.records.values.map fun record =>
        registry.foldLive chars resumes record).map (·.id)) :=
    (mergeSort_perm _ _).map _
  have hids : (registry.records.values.map fun record =>
      registry.foldLive chars resumes record).map (·.id) = registry.records.keys := by
    rw [Table.values, map_map, map_map, AList.keys, List.keys]
    refine map_congr_left fun entry hentry => ?_
    exact (registry.foldLive_id chars resumes entry.2).1.trans
      (h entry.1 entry.2 (AList.mem_lookup_iff.mpr hentry))
  rw [hperm.nodup_iff, hids]
  exact registry.records.keys_nodup

/-- What is listed of a record: as it is stored, but with its session's status. -/
theorem foldLive_kept (chars : CharClass) (resumes : String → String → Bool)
    (registry : Registry) (record : SessionRecord) :
    (registry.foldLive chars resumes record).hibernation = record.hibernation ∧
      (registry.foldLive chars resumes record).pinned = record.pinned ∧
        ∀ session, registry.sessions.lookup record.id = some session →
          (registry.foldLive chars resumes record).status = session.view.status := by
  have hview : ∀ view : SessionView,
      (foldSessionView chars view record).hibernation = record.hibernation ∧
        (foldSessionView chars view record).pinned = record.pinned := by
    intro view
    unfold foldSessionView
    simp only []
    split
    · exact ⟨rfl, rfl⟩
    split
    · exact ⟨rfl, rfl⟩
    · split <;> exact ⟨rfl, rfl⟩
  unfold foldLive
  cases hsession : registry.sessions.lookup record.id with
  | none =>
    simp only []
    split <;> exact ⟨rfl, rfl, fun _ hnone => absurd hnone nofun⟩
  | some session =>
    obtain ⟨hhibernation, hpinned⟩ := hview session.view
    have hstatus := (foldSessionView_id chars session.view record).2.2.1
    simp only []
    split <;>
      exact ⟨hhibernation, hpinned, fun other hother => (Option.some.inj hother) ▸ hstatus⟩

end Registry

end Diri
