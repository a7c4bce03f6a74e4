/-
No record claims to be running with no session behind it.

A registry is sound if its records are kept by their ids, every local record it has set
aside is of a session that ended, and, once it was restored, every local record that is
not exited has a session (`Sound`).  Every call keeps that but two: `terminate` takes the
session out before it asks it to end, and `remove` sets the record aside whatever came of
that.  Where the session does end, they keep it too (`Ends`).
-/
import Diri.Proofs.Registry.Records

namespace Diri

open List

namespace Registry

variable {chars : CharClass} {registry after : Registry} {restored : Bool}

/-- A local record that is not exited has a session. -/
def Backed (sessions : Table SessionId LiveSession) (id : SessionId) (record : SessionRecord) :
    Prop :=
  record.host = none → record.status.isExited = false → id ∈ sessions

structure Sound (restored : Bool) (registry : Registry) : Prop where
  keyed : registry.records.All fun id record => record.id = id
  closed : ∀ record ∈ registry.recentlyClosed, record.host = none → record.status.isExited = true
  backed : restored = true → registry.records.All (Backed registry.sessions)

/-- A record as it was, but for what it says of a session that is there, or that it ended. -/
def SameSession (sessions : Table SessionId LiveSession) (id : SessionId)
    (old record : SessionRecord) : Prop :=
  record.id = old.id ∧ record.host = old.host ∧
    (record.status.isExited = old.status.isExited ∨ record.status.isExited = true ∨ id ∈ sessions)

theorem SameSession.refl (sessions : Table SessionId LiveSession) (id : SessionId)
    (record : SessionRecord) : SameSession sessions id record record := ⟨rfl, rfl, .inl rfl⟩

/-- A call that takes no session away and gives no record a new claim keeps the registry sound. -/
theorem Sound.frame (h : registry.Sound restored)
    (hclosed : after.recentlyClosed = registry.recentlyClosed)
    (hsessions : ∀ id ∈ registry.sessions, id ∈ after.sessions)
    (hrecords : after.records.All fun id record => ∃ old,
      registry.records.lookup id = some old ∧ SameSession after.sessions id old record) :
    after.Sound restored where
  keyed := by
    intro id record hrecord
    obtain ⟨old, hold, hid, -⟩ := hrecords id record hrecord
    rw [hid]
    exact h.keyed id old hold
  closed := by
    rw [hclosed]
    exact h.closed
  backed hrestored := by
    intro id record hrecord hhost hrunning
    obtain ⟨old, hold, -, holdHost, hsame | hexited | hmem⟩ := hrecords id record hrecord
    · exact hsessions id (h.backed hrestored id old hold (holdHost ▸ hhost) (hsame ▸ hrunning))
    · rw [hexited] at hrunning
      cases hrunning
    · exact hmem

theorem Sound.adjust (h : registry.Sound restored)
    {sessions : Table SessionId LiveSession} (hsessions : ∀ id ∈ registry.sessions, id ∈ sessions)
    {id : SessionId} {f : SessionRecord → SessionRecord}
    (hf : ∀ record, SameSession sessions id record (f record)) : Sound restored { registry with
      sessions := sessions, records := registry.records.adjust id f } := by
  refine h.frame rfl hsessions fun other record hrecord => ?_
  rcases Table.lookup_adjust hrecord with ⟨-, hold⟩ | ⟨rfl, old, hold, rfl⟩
  · exact ⟨record, hold, .refl _ _ _⟩
  · exact ⟨old, hold, hf old⟩

theorem Sound.sessions (h : registry.Sound restored)
    {sessions : Table SessionId LiveSession} (hsessions : ∀ id ∈ registry.sessions, id ∈ sessions) :
    Sound restored { registry with sessions := sessions } :=
  h.frame rfl hsessions fun _ record hrecord => ⟨record, hrecord, .refl _ _ _⟩

theorem mem_insert_of_mem {id : SessionId} {session : LiveSession} :
    ∀ other ∈ registry.sessions, other ∈ registry.sessions.insert id session :=
  fun _ hother => (AList.mem_insert _).mpr (.inr hother)

theorem mem_adjust_of_mem {id : SessionId} {f : LiveSession → LiveSession} :
    ∀ other ∈ registry.sessions, other ∈ registry.sessions.adjust id f :=
  fun _ hother => Table.mem_adjust.mpr hother

/-! ### Sessions that begin -/

section
variable (h : registry.Sound restored)
include h

theorem Sound.spawn (record : SessionRecord)
    (spawned : Except IoError LiveSession) : (registry.spawn record spawned).1.Sound restored := by
  cases spawned with
  | error error => exact h
  | ok session =>
    refine ⟨h.keyed.insert rfl, h.closed, fun hrestored => ?_⟩
    refine Table.All.insert ?_ fun _ _ => (AList.mem_insert _).mpr (.inl rfl)
    exact (h.backed hrestored).mono fun id old hold hhost hrunning =>
      mem_insert_of_mem id (hold hhost hrunning)

theorem Sound.adoptRemote (id : SessionId) (adopted : Except IoError LiveSession) :
    (registry.adoptRemote id adopted).1.Sound restored := by
  rcases registry.adoptRemote_cases id adopted with ⟨error, hfailed⟩ | ⟨session, -, hadopted⟩
  · rw [hfailed]
    exact h
  · rw [hadopted]
    exact h.sessions mem_insert_of_mem

theorem Sound.respawn (id : SessionId) (spawned : Except IoError LiveSession) (now : DateMillis) :
    (registry.respawn id spawned now).1.Sound restored := by
  rcases registry.respawn_cases id spawned now with ⟨error, hfailed⟩ | ⟨session, -, hstarted⟩
  · rw [hfailed]
    exact h
  rw [hstarted]
  exact h.adjust mem_insert_of_mem fun record =>
    ⟨rfl, rfl, .inr (.inr ((AList.mem_insert _).mpr (.inl rfl)))⟩

theorem Sound.adoptLiveHolders (holders : List (SessionId × Option LiveSession)) :
    (registry.adoptLiveHolders holders).Sound restored := by
  unfold Registry.adoptLiveHolders
  induction holders generalizing registry with
  | nil => exact h
  | cons holder rest ih =>
    rw [foldl_cons]
    refine ih ?_
    unfold adoptHolder
    split
    · exact h.sessions mem_insert_of_mem
    · exact h

theorem Sound.restore
    (holders : List (SessionId × Option LiveSession)) : (registry.restore holders).Sound true := by
  have hadopted := h.adoptLiveHolders holders
  unfold Registry.restore reapOrphans
  refine ⟨?_, hadopted.closed, fun _ => ?_⟩
  · refine Table.All.mapValues _ fun id record hrecord => ?_
    rw [← hadopted.keyed id record hrecord]
    split <;> rfl
  refine Table.All.mapValues _ fun id record hrecord => ?_
  by_cases horphan : (registry.adoptLiveHolders holders).isOrphan record = true
  · rw [if_pos horphan]
    intro _ hrunning
    cases hrunning
  rw [if_neg horphan]
  intro hhost hrunning
  have hid := hadopted.keyed id record hrecord
  by_contra hnot
  apply horphan
  simp [isOrphan, hhost, hrunning, hid, hnot]

end

/-! ### Sessions that end -/

/-- The record of the session, if it has one, will not claim that the session runs. -/
def Settles (id : SessionId) (result : Except IoError Exit) (registry : Registry) : Prop :=
  ∀ record, registry.records.lookup id = some record →
    (id ∈ registry.sessions ∧ ∃ exit, result = .ok exit) ∨
      record.host.isSome = true ∨ record.status.isExited = true

/-- What a termination leaves: only the record of the session itself may be an orphan. -/
theorem Sound.terminate (h : registry.Sound restored) (id : SessionId)
    (result : Except IoError Exit) :
    (registry.terminate id result).1.records.All (fun id record => record.id = id) ∧
    (registry.terminate id result).1.recentlyClosed = registry.recentlyClosed ∧
    (restored = true → ∀ other record,
      (registry.terminate id result).1.records.lookup other = some record → other ≠ id →
        Backed (registry.terminate id result).1.sessions other record) := by
  rcases registry.terminate_cases id result with ⟨-, hsame⟩ | ⟨-, -, hfailed⟩ | ⟨-, exit, -, hended⟩
  · rw [hsame]
    exact ⟨h.keyed, rfl, fun hrestored other record hrecord _ => h.backed hrestored _ _ hrecord⟩
  · rw [hfailed]
    refine ⟨h.keyed, rfl, fun hrestored other record hrecord hne hhost hrunning => ?_⟩
    exact AList.mem_erase.mpr ⟨hne, h.backed hrestored _ _ hrecord hhost hrunning⟩
  rw [hended]
  refine ⟨h.keyed.adjust fun record hrecord => h.keyed id record hrecord, rfl,
    fun hrestored other record hrecord hne hhost hrunning => ?_⟩
  rw [Table.lookup_adjust_ne hne] at hrecord
  exact AList.mem_erase.mpr ⟨hne, h.backed hrestored _ _ hrecord hhost hrunning⟩

variable {result : Except IoError Exit}

theorem exited_of_settles {id : SessionId}
    (hsettles : registry.Settles id result) {record : SessionRecord}
    (hrecord : (registry.terminate id result).1.records.lookup id = some record)
    (hhost : record.host = none) : record.status.isExited = true := by
  rcases registry.terminate_cases id result with
    ⟨hnone, hsame⟩ | ⟨-, ⟨error, herror⟩, hfailed⟩ | ⟨-, exit, -, hended⟩
  · rw [hsame] at hrecord
    rcases hsettles record hrecord with ⟨hmem, -⟩ | hremote | hexited
    · exact absurd hmem hnone
    · rw [hhost] at hremote
      cases hremote
    · exact hexited
  · rw [hfailed] at hrecord
    rcases hsettles record hrecord with ⟨-, exit, hexit⟩ | hremote | hexited
    · rw [herror] at hexit
      cases hexit
    · rw [hhost] at hremote
      cases hremote
    · exact hexited
  rw [hended, Table.lookup_adjust_self] at hrecord
  obtain ⟨old, -, rfl⟩ := Option.map_eq_some_iff.mp hrecord
  rfl

section
variable (h : registry.Sound restored)
include h

theorem Sound.terminate_settles {id : SessionId}
    (hends : id ∈ registry.sessions → registry.Settles id result) :
    (registry.terminate id result).1.Sound restored := by
  by_cases hmem : id ∈ registry.sessions
  · obtain ⟨hkeyed, hclosed, hothers⟩ := h.terminate id result
    refine ⟨hkeyed, hclosed ▸ h.closed, fun hrestored other record hrecord => ?_⟩
    by_cases hid : other = id
    · subst hid
      intro hhost hrunning
      rw [exited_of_settles (hends hmem) hrecord hhost] at hrunning
      cases hrunning
    · exact hothers hrestored other record hrecord hid
  rcases registry.terminate_cases id result with ⟨-, hsame⟩ | ⟨hin, -⟩ | ⟨hin, -⟩
  · rw [hsame]
    exact h
  · exact absurd hin hmem
  · exact absurd hin hmem

theorem Sound.remove {id : SessionId} (hsettles : registry.Settles id result) :
    (registry.remove id result).1.Sound restored := by
  have hended := h.terminate_settles fun _ => hsettles
  obtain ⟨hkeyed, hclosed, hothers⟩ := h.terminate id result
  simp only [Registry.remove]
  cases hlookup : (registry.terminate id result).1.records.lookup id with
  | none => exact hended
  | some record =>
    refine ⟨hkeyed.erase id, fun other hother => ?_, fun hrestored other found hfound => ?_⟩
    · rcases List.mem_cons.mp (mem_of_mem_take hother) with rfl | hold
      · exact exited_of_settles hsettles hlookup
      · exact hended.closed other hold
    · obtain ⟨hne, hold⟩ := Table.lookup_erase_cases hfound
      intro hhost hrunning
      exact AList.mem_erase.mpr ⟨hne, hothers hrestored other found hold hne hhost hrunning⟩

theorem Sound.reopenLastClosed (folderExists : String → Bool) :
    (registry.reopenLastClosed folderExists).1.Sound restored := by
  unfold Registry.reopenLastClosed
  cases hreopen : reopenable folderExists registry.recentlyClosed with
  | none =>
    refine ⟨h.keyed, fun record hrecord => ?_, h.backed⟩
    cases hrecord
  | some found =>
    obtain ⟨record, rest⟩ := found
    obtain ⟨hmem, hrest⟩ := reopenable_mem hreopen
    refine ⟨h.keyed.insert rfl, fun other hother => h.closed other (hrest other hother),
      fun hrestored => (h.backed hrestored).insert fun hhost hrunning => ?_⟩
    rw [h.closed record hmem hhost] at hrunning
    cases hrunning

theorem Sound.archive (id : SessionId) (result : Except IoError Exit) (now : DateMillis) :
    (registry.archive id result now).1.Sound restored := by
  obtain ⟨hkeyed, hclosed, hothers⟩ := h.terminate id result
  unfold Registry.archive
  by_cases hmem : id ∈ registry.records
  · rw [if_neg (not_not.mpr hmem)]
    refine ⟨hkeyed.adjust fun record hrecord => hkeyed id record hrecord, hclosed ▸ h.closed,
      fun hrestored other record hrecord => ?_⟩
    rcases Table.lookup_adjust hrecord with ⟨hne, hold⟩ | ⟨rfl, old, hold, rfl⟩
    · exact hothers hrestored other record hold hne
    intro _ hrunning
    split at hrunning
    · next hexited =>
      rw [hexited] at hrunning
      cases hrunning
    · cases hrunning
  · rw [if_pos hmem]
    exact h

theorem Sound.unarchive (id : SessionId) (now : DateMillis) :
    (registry.unarchive id now).1.Sound restored := by
  rcases registry.unarchive_cases id now with ⟨result, hsame⟩ | hlisted
  · rw [hsame]
    exact h
  · rw [hlisted]
    exact h.adjust (fun _ hmem => hmem) fun _ => .refl _ _ _

end

/-! ### Sessions that go on -/

section
variable (h : registry.Sound restored)
include h

theorem Sound.changedSince (published : Table SessionId UInt64)
    (now : DateMillis) : (registry.changedSince chars published now).1.Sound restored := by
  refine h.frame rfl (fun _ hmem => hmem) ?_
  refine (publishChanges chars _ now ?_ _ ?_ (by simp)).1
  · -- a record that takes a session's view has that session
    rintro entry hentry record ⟨old, hold, hid, hhost, -⟩
    obtain ⟨hid', hhost', -, -⟩ := foldChange_id chars entry.2.view now record
    have hmem : entry.1 ∈ registry.sessions :=
      Table.mem_of_lookup (AList.mem_lookup_iff.mpr (List.mem_filter.mp hentry).1)
    exact ⟨old, hold, hid'.trans hid, hhost'.trans hhost, .inr (.inr hmem)⟩
  · intro id record hrecord
    exact ⟨record, hrecord, .refl _ _ _⟩

variable (id : SessionId)

theorem Sound.setHibernation (info : Option HibernationInfo) (now : DateMillis) :
    (registry.setHibernation id info now).Sound restored :=
  h.adjust (fun _ hmem => hmem) fun _ => .refl _ _ _

theorem Sound.hibernate
    (reason : HibernationReason) (stopped : Except IoError (List (Int32 × Int64)))
    (now : DateMillis) : (registry.hibernate id reason stopped now).1.Sound restored := by
  rcases registry.hibernate_cases id reason stopped now with ⟨error, hfailed⟩ | ⟨info, hstopped⟩
  · rw [hfailed]
    exact h
  · rw [hstopped]
    exact (h.sessions mem_adjust_of_mem).setHibernation id (some info) now

theorem Sound.ensureSessionAwake
    (continued : Except IoError Unit) (written : Bool) (now : DateMillis) :
    (registry.ensureSessionAwake id continued written now).1.Sound restored := by
  have hwake : ∀ {registry : Registry} (known : Bool), registry.Sound restored →
      (if known then registry.setHibernation id none now else registry).Sound restored := by
    intro registry known h
    cases known with
    | true => exact h.setHibernation id none now
    | false => exact h
  simp only [Registry.ensureSessionAwake]
  by_cases hmem : id ∈ registry.sessions
  · rw [if_neg (not_not.mpr hmem)]
    cases continued with
    | error error => exact h
    | ok _ => exact hwake _ (h.sessions mem_adjust_of_mem)
  · rw [if_pos hmem]
    exact hwake _ h

theorem Sound.wakeSession (continued : Except IoError Unit) (written : Bool) (now : DateMillis) :
    (registry.wakeSession id continued written now).1.Sound restored := by
  unfold Registry.wakeSession
  split
  · exact h.ensureSessionAwake id continued written now
  · exact h

theorem Sound.writeInput (bytes : List UInt8)
    (written : Bool) : (registry.writeInput id bytes written).1.Sound restored := by
  unfold Registry.writeInput
  cases registry.sessions.lookup id with
  | none => exact h
  | some session => exact h.sessions mem_adjust_of_mem

end

/-- The calls that end a session leave no record that claims it runs. -/
def Ends (registry : Registry) : RegistryCall → Prop
  | .terminate id result => id ∈ registry.sessions → registry.Settles id result
  | .remove id result => registry.Settles id result
  | _ => True

theorem Sound.step (h : registry.Sound restored) (chars : CharClass) (call : RegistryCall)
    (hends : registry.Ends call) :
    (RegistryCall.step chars registry call).1.Sound (call.isRestore || restored) := by
  cases call with
  | spawn record spawned => exact h.spawn record spawned
  | adoptRemote id adopted => exact h.adoptRemote id adopted
  | respawn id spawned now => exact h.respawn id spawned now
  | restore holders => exact h.restore holders
  | terminate id result => exact h.terminate_settles hends
  | remove id result => exact h.remove hends
  | reopenLastClosed folderExists => exact h.reopenLastClosed folderExists
  | archive id result now => exact h.archive id result now
  | unarchive id now => exact h.unarchive id now
  | changedSince published now => exact h.changedSince published now
  | hibernate id reason stopped now => exact h.hibernate id reason stopped now
  | wakeSession id continued written now => exact h.wakeSession id continued written now
  | ensureSessionAwake id continued written now =>
    exact h.ensureSessionAwake id continued written now
  | writeInput id bytes written => exact h.writeInput id bytes written
  | observe id view => exact h.sessions mem_adjust_of_mem

theorem Sound.loaded (records : List SessionRecord) : (loaded records).Sound false := by
  have hkeyed : ∀ (records : List SessionRecord) (registry : Registry), registry.Sound false →
        (records.foldl (fun registry record => registry.insertRecord record) registry).Sound
          false := by
    intro records
    induction records with
    | nil => exact fun _ h => h
    | cons record rest ih =>
      intro registry h
      refine ih _ ⟨h.keyed.insert rfl, h.closed, fun hfalse => Bool.noConfusion hfalse⟩
  exact hkeyed records {} ⟨.empty, by simp, fun hfalse => Bool.noConfusion hfalse⟩

/-- Every local record that is listed as running has a session. -/
def NoOrphans (chars : CharClass) (resumes : String → String → Bool) (registry : Registry) : Prop :=
  ∀ record ∈ registry.listRecords chars resumes,
    record.host = none → record.status.isExited = false → record.id ∈ registry.sessions

theorem Sound.noOrphans (resumes : String → String → Bool) (h : registry.Sound true) :
    registry.NoOrphans chars resumes := by
  intro record hrecord hhost hrunning
  obtain ⟨id, stored, hstored, rfl⟩ := mem_listRecords hrecord
  obtain ⟨hid, hhost', hstatus⟩ := registry.foldLive_id chars resumes stored
  have hkey := h.keyed id stored hstored
  rw [hid]
  by_contra hnot
  rw [(hstatus hnot).1] at hrunning
  exact hnot (hkey ▸ h.backed rfl id stored hstored (hhost' ▸ hhost) hrunning)

end Registry

/-- A registry is sound after any calls, if those that end a session leave no claim. -/
theorem RegistryStep.sound (chars : CharClass) (records : List SessionRecord)
    (calls : List RegistryCall) :
    (∀ step ∈ (run (RegistryCall.step chars) (.loaded records) calls).2,
      step.before.Ends step.input) →
    (run (RegistryCall.step chars) (.loaded records) calls).1.Sound (calls.any (·.isRestore)) := by
  induction calls using List.reverseRecOn with
  | nil =>
    intro _
    exact .loaded records
  | append_singleton calls call ih =>
    rw [run_concat]
    intro hends
    have hbefore := ih fun step hstep => hends step (mem_cons_of_mem _ hstep)
    have hafter := hbefore.step chars call (hends _ mem_cons_self)
    rw [any_append, Bool.or_comm]
    simpa [advance] using hafter

/--
**No record claims to run with no session behind it**, in a registry that was restored,
after any calls: as long as `terminate` and `remove` find a session that does end, or
whose record is remote or says already that it did.
-/
theorem registry_no_orphans (chars : CharClass) (resumes : String → String → Bool)
    (records : List SessionRecord) (earlier later : List RegistryCall)
    (holders : List (SessionId × Option LiveSession))
    (hends : ∀ step ∈ (run (RegistryCall.step chars) (.loaded records)
      (earlier ++ .restore holders :: later)).2, step.before.Ends step.input) :
    (run (RegistryCall.step chars) (.loaded records)
      (earlier ++ .restore holders :: later)).1.NoOrphans chars resumes := by
  have hsound := RegistryStep.sound chars records _ hends
  rw [show (earlier ++ RegistryCall.restore holders :: later).any (·.isRestore) = true by
    simp [RegistryCall.isRestore]] at hsound
  exact hsound.noOrphans resumes

/-! ### A session that does not end -/

def asciiChars : CharClass where
  isWhitespace := Char.isWhitespace
  isAlphanumeric := Char.isAlphanum
  isControl c := c.toNat < 32

/-- A local session that its record says is running. -/
def workingRecord : SessionRecord where
  id := "s_1"
  kind := "codex"
  cwd := "/work"
  title := "codex"
  titleSource := .placeholder
  status := .working
  resumability := .live
  createdAt := ⟨0⟩
  updatedAt := ⟨0⟩

def workingSession : LiveSession := { view := { status := .working } }

/-- A session that is adopted when the registry is restored, and then ends. -/
theorem registry_no_orphans_ended : (run (RegistryCall.step asciiChars) (.loaded [workingRecord])
      ([] ++ .restore [("s_1", some workingSession)] ::
        [.terminate "s_1" (.ok (.code 0))])).1.NoOrphans asciiChars (fun _ _ => false) := by
  refine registry_no_orphans _ _ _ [] _ _ fun step hstep => ?_
  simp only [nil_append, run, advance, foldl_cons, foldl_nil, mem_cons,
    not_mem_nil, or_false] at hstep
  rcases hstep with rfl | rfl
  · exact fun hmem record _ => .inl ⟨hmem, .code 0, rfl⟩
  · trivial

/-- The termination fails, the session is gone, and its record still says that it works. -/
theorem registry_orphan : ¬(run (RegistryCall.step asciiChars) (.loaded [])
      ([] ++ .restore [] :: [.spawn workingRecord (.ok workingSession),
        .terminate "s_1" (.error ⟨.other, "kill failed"⟩)])).1.NoOrphans asciiChars
          (fun _ _ => false) := by
  intro hnone
  have hmem : "s_1" ∈ (∅ : Table SessionId LiveSession) := by
    refine hnone { workingRecord with resumability := .live } ?_ rfl rfl
    decide +kernel
  cases hmem

end Diri
