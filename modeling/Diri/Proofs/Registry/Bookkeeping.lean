/-
Where the books on hibernation are exact, and where they are not.

That a session is stopped is written down twice: in its record, and in the flag of the
live session.  The books are exact if the two agree for every id, no record that says
"exited" says "hibernated" too, and no tree was stopped by a `hibernate` and left so with
nothing to say it (`Books.Exact`).

`hibernate` and the wakes keep both entries together, `remove` drops both, and a `restore`
sets the flag from the record.  The other calls touch one entry only: a session that ends
or begins anew leaves what its record says, a record that is reopened says what it said
when it was closed, and an error of the signal that stopped the tree comes before either
entry is made.  `Operation.InBooks` is what has to hold of an operation for the books to
stay exact, and `exact_iff` says that it is no more than that.
-/
import Diri.Proofs.Registry.Orphans

namespace Diri

open List Option

namespace Registry

variable {chars : CharClass} {registry after : Registry} {id : SessionId}

/-! ### The books of one session -/

/-- The record of the id says that its session is hibernated. -/
def claims (id : SessionId) (registry : Registry) : Bool :=
  (registry.records.lookup id).any (·.hibernation.isSome)

/-- The session of the id is flagged as hibernated. -/
def frozen (id : SessionId) (registry : Registry) : Bool :=
  (registry.sessions.lookup id).any (·.hibernated)

structure OwnedAt (registry : Registry) (id : SessionId) : Prop where
  mem : id ∈ registry.sessions → id ∈ registry.records
  keyed : ∀ record, registry.records.lookup id = some record → record.id = id

structure BookedAt (registry : Registry) (id : SessionId) : Prop where
  owned : registry.OwnedAt id
  agrees : registry.claims id = registry.frozen id
  ended : ∀ record, registry.records.lookup id = some record → record.status.isExited = true →
    record.hibernation = none

/-- The books are exact for every id. -/
def Booked (registry : Registry) : Prop := ∀ id, registry.BookedAt id

theorem claims_of_lookup {record : SessionRecord} (h : registry.records.lookup id = some record) :
    registry.claims id = record.hibernation.isSome := by
  rw [claims, h]
  rfl

theorem frozen_of_lookup {session : LiveSession} (h : registry.sessions.lookup id = some session) :
    registry.frozen id = session.hibernated := by
  rw [frozen, h]
  rfl

theorem frozen_of_notMem (h : id ∉ registry.sessions) : registry.frozen id = false := by
  rw [frozen, AList.lookup_eq_none.mpr h]
  rfl

theorem claims_of_notMem (h : id ∉ registry.records) : registry.claims id = false := by
  rw [claims, AList.lookup_eq_none.mpr h]
  rfl

theorem claims_eq_false_iff {record : SessionRecord}
    (h : registry.records.lookup id = some record) :
    registry.claims id = false ↔ record.hibernation = none := by
  rw [claims_of_lookup h]
  cases record.hibernation <;> simp

theorem OwnedAt.adjust (h : registry.OwnedAt id)
    (hids : (after.records.lookup id).map (·.id) = (registry.records.lookup id).map (·.id))
    (hmem : id ∈ after.sessions → id ∈ registry.records) : after.OwnedAt id where
  mem hnow := by
    rw [← AList.lookup_isSome, ← isSome_map, hids, isSome_map, AList.lookup_isSome]
    exact hmem hnow
  keyed record hrecord := by
    rw [hrecord, map_some] at hids
    obtain ⟨old, hold, hid⟩ := Option.map_eq_some_iff.mp hids.symm
    rw [← hid]
    exact h.keyed old hold

theorem Booked.iff_at (h : registry.Booked) (id : SessionId) {P : Prop}
    (hrecords : ∀ other, other ≠ id → after.records.lookup other = registry.records.lookup other)
    (hsessions : ∀ other, other ≠ id → after.sessions.lookup other = registry.sessions.lookup other)
    (hat : after.BookedAt id ↔ P) : after.Booked ↔ P := by
  refine ⟨fun hafter => hat.mp (hafter id), fun hP other => ?_⟩
  by_cases hother : other = id
  · rw [hother]
    exact hat.mpr hP
  have hrecord := hrecords other hother
  have hsession := hsessions other hother
  obtain ⟨⟨hmem, hkeyed⟩, hagrees, hended⟩ := h other
  refine ⟨⟨?_, ?_⟩, ?_, ?_⟩
  · rw [← AList.lookup_isSome, ← AList.lookup_isSome, hrecord, hsession, AList.lookup_isSome,
      AList.lookup_isSome]
    exact hmem
  · rw [hrecord]
    exact hkeyed
  · rw [claims, frozen, hrecord, hsession]
    exact hagrees
  · rw [hrecord]
    exact hended

theorem Booked.of_at (h : registry.Booked) (id : SessionId)
    (hrecords : ∀ other, other ≠ id → after.records.lookup other = registry.records.lookup other)
    (hsessions : ∀ other, other ≠ id → after.sessions.lookup other = registry.sessions.lookup other)
    (hat : after.BookedAt id) : after.Booked :=
  (h.iff_at id hrecords hsessions Iff.rfl).mpr hat

theorem bookedAt_awake (howned : registry.OwnedAt id) (hawake : registry.frozen id = false) :
    registry.BookedAt id ↔ registry.claims id = false := by
  constructor
  · intro h
    rw [h.agrees, hawake]
  · intro hclaims
    refine ⟨howned, ?_, fun record hrecord _ => ?_⟩
    · rw [hclaims, hawake]
    · exact (claims_eq_false_iff hrecord).mp hclaims

theorem bookedAt_ended (hnone : id ∉ registry.sessions)
    (hkeyed : ∀ record, registry.records.lookup id = some record → record.id = id) :
    registry.BookedAt id ↔ registry.claims id = false :=
  bookedAt_awake ⟨fun hmem => absurd hmem hnone, hkeyed⟩ (frozen_of_notMem hnone)

end Registry

/-! ### Operations -/

/-- The calls that begin, end, stop or continue sessions. -/
def RegistryCall.isLifecycle : RegistryCall → Bool
  | .changedSince _ _ => false
  | .writeInput _ _ _ => false
  | .observe _ _ => false
  | _ => true

def RegistryCall.BringsAwake : RegistryCall → Prop
  | .spawn _ (.ok session) => session.hibernated = false
  | .adoptRemote _ (.ok session) => session.hibernated = false
  | .respawn _ (.ok session) _ => session.hibernated = false
  | .restore holders => ∀ holder ∈ holders, ∀ session, holder.2 = some session →
      session.hibernated = false
  | _ => True

structure Operation where
  call : RegistryCall
  /-- A signal that failed to stop the tree stopped it all the same. -/
  tookEffect : Bool := false
  lifecycle : call.isLifecycle = true
  awake : call.BringsAwake

/-- What a daemon finds when it starts: the records it wrote, and the holders that answer. -/
structure Restart where
  records : List SessionRecord
  holders : List (SessionId × Option LiveSession)
  awake : ∀ holder ∈ holders, ∀ session, holder.2 = some session → session.hibernated = false

structure Books where
  registry : Registry
  /-- The trees that a `hibernate` stopped and did not continue, with no record of it. -/
  leftStopped : List SessionId := []

/-- The tree that a `hibernate` stops, whether it then fails or not. -/
def Operation.stops (registry : Registry) (operation : Operation) : List SessionId :=
  match operation.call with
  | .hibernate id _ stopped _ =>
    if id ∈ registry.sessions ∧ (stopped.isOk ∨ operation.tookEffect) then [id] else []
  | _ => []

namespace Books

def step (chars : CharClass) (books : Books) (operation : Operation) : Option Books :=
  let registry := (operation.call.step chars books.registry).1
  some
    { registry
      leftStopped := books.leftStopped ++
        (operation.stops books.registry).filter fun id => !registry.claims id }

structure Exact (books : Books) : Prop where
  booked : books.registry.Booked
  recorded : books.leftStopped = []

end Books

def Restart.books (restart : Restart) : Books where
  registry := (Registry.loaded restart.records).restore restart.holders

/-- What a restart needs, for its books to be exact. -/
def Restart.InBooks (restart : Restart) : Prop :=
  (Registry.loaded restart.records).records.All fun id record =>
    record.hibernation.isSome = true →
      record.status.isExited = false ∧ ∃ session, (id, some session) ∈ restart.holders

/-- What an operation needs, for the books to stay exact. -/
def Operation.InBooks (books : Books) (operation : Operation) : Prop :=
  match operation.call with
  | .spawn record (.ok _) => record.hibernation = none
  | .adoptRemote id (.ok _) => books.registry.claims id = false
  | .respawn id (.ok _) _ => books.registry.claims id = false
  | .terminate id _ => books.registry.claims id = false
  | .archive id _ _ => books.registry.claims id = false
  | .reopenLastClosed folderExists => ∀ record rest,
      Registry.reopenable folderExists books.registry.recentlyClosed = some (record, rest) →
        record.hibernation.isSome = books.registry.frozen record.id ∧
          (record.status.isExited = true → record.hibernation = none)
  | .hibernate id _ (.ok _) _ => id ∈ books.registry.sessions → ∀ record,
      books.registry.records.lookup id = some record → record.status.isExited = false
  | .hibernate id _ (.error _) _ => operation.tookEffect = true →
      id ∈ books.registry.sessions → books.registry.claims id = true
  | _ => True

namespace Registry

variable {chars : CharClass} {registry after : Registry} {id : SessionId}

/-! ### What each call does to the books -/

theorem Booked.spawn_iff (h : registry.Booked) (record : SessionRecord) {session : LiveSession}
    (hawake : session.hibernated = false) :
    (registry.spawn record (.ok session)).1.Booked ↔ record.hibernation = none := by
  refine h.iff_at record.id ?_ ?_ ((bookedAt_awake ?_ ?_).trans (claims_eq_false_iff ?_))
  · intro other hother
    exact AList.lookup_insert_ne hother
  · intro other hother
    exact AList.lookup_insert_ne hother
  · refine ⟨fun _ => (AList.mem_insert _).mpr (.inl rfl), fun found hfound => ?_⟩
    rw [Registry.spawn, AList.lookup_insert] at hfound
    rw [← some.inj hfound]
  · exact (frozen_of_lookup (AList.lookup_insert _)).trans hawake
  · exact AList.lookup_insert _

theorem Booked.adoptRemote_iff (h : registry.Booked) (id : SessionId) {session : LiveSession}
    (hawake : session.hibernated = false) :
    (registry.adoptRemote id (.ok session)).1.Booked ↔ registry.claims id = false := by
  unfold Registry.adoptRemote
  by_cases hmem : id ∈ registry.records
  · rw [if_neg (not_not.mpr hmem)]
    refine h.iff_at id (fun _ _ => rfl) ?_ (bookedAt_awake ⟨fun _ => hmem, ?_⟩ ?_)
    · intro other hother
      exact AList.lookup_insert_ne hother
    · exact (h id).owned.keyed
    · exact (frozen_of_lookup (AList.lookup_insert _)).trans hawake
  · rw [if_pos hmem]
    exact iff_of_true h (claims_of_notMem hmem)

theorem Booked.respawn_iff (h : registry.Booked) (id : SessionId) {session : LiveSession}
    (now : DateMillis) (hawake : session.hibernated = false) :
    (registry.respawn id (.ok session) now).1.Booked ↔ registry.claims id = false := by
  unfold Registry.respawn
  by_cases hmem : id ∈ registry.records
  · rw [if_neg (not_not.mpr hmem)]
    refine h.iff_at id ?_ ?_ ((bookedAt_awake ?_ ?_).trans ?_)
    · intro other hother
      exact Table.lookup_adjust_ne hother _ _
    · intro other hother
      exact AList.lookup_insert_ne hother
    · refine (h id).owned.adjust ?_ fun _ => hmem
      rw [Table.lookup_adjust_self, Option.map_map]
      rfl
    · exact (frozen_of_lookup (AList.lookup_insert _)).trans hawake
    · rw [claims, Table.lookup_adjust_self, Option.any_map]
      rfl
  · rw [if_pos hmem]
    exact iff_of_true h (claims_of_notMem hmem)

/-- A termination takes the session away, and what its record says of it stays. -/
theorem terminate_books (id : SessionId) (result : Except IoError Exit) (registry : Registry) :
    id ∉ (registry.terminate id result).1.sessions ∧
    (registry.terminate id result).1.claims id = registry.claims id ∧
    (registry.OwnedAt id → (registry.terminate id result).1.OwnedAt id) ∧
    ∀ other, other ≠ id → (registry.terminate id result).1.sessions.lookup other
      = registry.sessions.lookup other := by
  have herased : id ∉ registry.sessions.erase id := by
    intro hmem
    exact (AList.mem_erase.mp hmem).1 rfl
  rcases registry.terminate_cases id result with ⟨hnone, hsame⟩ | ⟨-, -, hfailed⟩ |
    ⟨-, exit, -, hended⟩
  · rw [hsame]
    exact ⟨hnone, rfl, fun howned => howned, fun _ _ => rfl⟩
  · rw [hfailed]
    refine ⟨herased, rfl, fun howned => ?_, fun other hother => AList.lookup_erase_ne hother⟩
    exact ⟨fun hmem => absurd hmem herased, howned.keyed⟩
  rw [hended]
  refine ⟨herased, ?_, fun howned => ?_, fun other hother => AList.lookup_erase_ne hother⟩
  · rw [claims, Table.lookup_adjust_self, Option.any_map]
    rfl
  · refine howned.adjust ?_ fun hmem => absurd hmem herased
    rw [Table.lookup_adjust_self, Option.map_map]
    rfl

section
variable (h : registry.Booked)
include h

theorem Booked.terminate_iff (id : SessionId) (result : Except IoError Exit) :
    (registry.terminate id result).1.Booked ↔ registry.claims id = false := by
  obtain ⟨hnone, hclaims, howned, hsessions⟩ := registry.terminate_books id result
  rw [← hclaims]
  exact h.iff_at id (registry.terminate_frame id result).2 hsessions
    (bookedAt_ended hnone (howned (h id).owned).keyed)

theorem Booked.remove (id : SessionId) (result : Except IoError Exit) :
    (registry.remove id result).1.Booked := by
  obtain ⟨hnone, -, howned, hsessions⟩ := registry.terminate_books id result
  have hrecords := (registry.terminate_frame id result).2
  simp only [Registry.remove]
  split
  · next hrecord =>
    refine h.of_at id hrecords hsessions ((bookedAt_ended hnone (howned (h id).owned).keyed).mpr ?_)
    exact claims_of_notMem (AList.lookup_eq_none.mp hrecord)
  refine h.of_at id ?_ ?_ ((bookedAt_ended ?_ ?_).mpr (claims_of_notMem ?_))
  · intro other hother
    exact (AList.lookup_erase_ne hother).trans (hrecords other hother)
  · intro other hother
    exact (AList.lookup_erase_ne hother).trans (hsessions other hother)
  · exact fun hmem => (AList.mem_erase.mp hmem).1 rfl
  · exact fun _ hfound => absurd rfl (Table.lookup_erase_cases hfound).1
  · exact fun hmem => (AList.mem_erase.mp hmem).1 rfl

theorem Booked.archive_iff (id : SessionId) (result : Except IoError Exit) (now : DateMillis) :
    (registry.archive id result now).1.Booked ↔ registry.claims id = false := by
  unfold Registry.archive
  by_cases hmem : id ∈ registry.records
  · rw [if_neg (not_not.mpr hmem)]
    obtain ⟨hnone, hclaims, howned, hsessions⟩ := registry.terminate_books id result
    refine h.iff_at id ?_ hsessions ((bookedAt_awake ?_ ?_).trans ?_)
    · intro other hother
      exact (Table.lookup_adjust_ne hother _ _).trans
        ((registry.terminate_frame id result).2 other hother)
    · refine (howned (h id).owned).adjust ?_ fun hnow => absurd hnow hnone
      rw [Table.lookup_adjust_self, Option.map_map]
      rfl
    · exact frozen_of_notMem hnone
    · rw [← hclaims, claims, Table.lookup_adjust_self, Option.any_map]
      rfl
  · rw [if_pos hmem]
    exact iff_of_true h (claims_of_notMem hmem)

theorem Booked.unarchive (id : SessionId) (now : DateMillis) :
    (registry.unarchive id now).1.Booked := by
  rcases registry.unarchive_cases id now with ⟨result, hsame⟩ | hlisted
  · rw [hsame]
    exact h
  rw [hlisted]
  refine h.of_at id ?_ (fun _ _ => rfl) ?_
  · intro other hother
    exact Table.lookup_adjust_ne hother _ _
  obtain ⟨howned, hagrees, hended⟩ := h id
  refine ⟨howned.adjust ?_ howned.mem, ?_, fun record hrecord hexited => ?_⟩
  · rw [Table.lookup_adjust_self, Option.map_map]
    rfl
  · rw [claims, Table.lookup_adjust_self, Option.any_map]
    exact hagrees
  · rw [Table.lookup_adjust_self] at hrecord
    obtain ⟨old, hold, rfl⟩ := map_eq_some_iff.mp hrecord
    exact hended old hold hexited

theorem Booked.reopenLastClosed_iff (folderExists : String → Bool) :
    (registry.reopenLastClosed folderExists).1.Booked ↔ ∀ record rest,
      reopenable folderExists registry.recentlyClosed = some (record, rest) →
        record.hibernation.isSome = registry.frozen record.id ∧
          (record.status.isExited = true → record.hibernation = none) := by
  unfold Registry.reopenLastClosed
  cases hpopped : reopenable folderExists registry.recentlyClosed with
  | none =>
    refine iff_of_true (fun id => ?_) fun _ _ hsome => absurd hsome nofun
    exact ⟨⟨(h id).owned.mem, (h id).owned.keyed⟩, (h id).agrees, (h id).ended⟩
  | some popped =>
    obtain ⟨record, rest⟩ := popped
    refine h.iff_at record.id ?_ (fun _ _ => rfl) ⟨?_, ?_⟩
    · intro other hother
      exact AList.lookup_insert_ne hother
    · rintro hbooked _ _ hsame
      obtain ⟨rfl, rfl⟩ := Prod.mk.inj (some.inj hsame)
      have hrecord := AList.lookup_insert (b := record) (a := record.id) registry.records
      refine ⟨?_, hbooked.ended record hrecord⟩
      have hagrees := hbooked.agrees
      rw [claims_of_lookup hrecord] at hagrees
      exact hagrees
    intro hsays
    obtain ⟨hagrees, hended⟩ := hsays record rest rfl
    have hrecord := AList.lookup_insert (b := record) (a := record.id) registry.records
    refine ⟨⟨fun _ => Table.mem_of_lookup hrecord, fun other hother => ?_⟩, ?_,
      fun other hother => ?_⟩
    · rw [← some.inj (hrecord.symm.trans hother)]
    · rw [claims_of_lookup hrecord]
      exact hagrees
    · obtain rfl := some.inj (hrecord.symm.trans hother)
      exact hended

end

theorem setHibernated_hibernated (hibernated written : Bool) (session : LiveSession) :
    (session.setHibernated hibernated written).1.hibernated = hibernated := by
  unfold LiveSession.setHibernated
  cases hibernated with
  | true => rfl
  | false =>
    simp only [Bool.false_eq_true, if_false, LiveSession.writeRaw]
    by_cases hempty : session.queuedInput.isEmpty = true
    · rw [if_pos hempty]
    · rw [if_neg hempty]
      cases written <;> rfl

section
variable (h : registry.Booked)
include h

theorem Booked.hibernate_iff (id : SessionId) (reason : HibernationReason)
    (tree : List (Int32 × Int64)) (now : DateMillis) :
    (registry.hibernate id reason (.ok tree) now).1.Booked ↔ (id ∈ registry.sessions →
      ∀ record, registry.records.lookup id = some record → record.status.isExited = false) := by
  unfold Registry.hibernate
  by_cases hmem : id ∈ registry.sessions
  · rw [if_neg (not_not.mpr hmem)]
    obtain ⟨record, hrecord⟩ :=
      isSome_iff_exists.mp (AList.lookup_isSome.mpr ((h id).owned.mem hmem))
    obtain ⟨session, hsession⟩ := isSome_iff_exists.mp (AList.lookup_isSome.mpr hmem)
    refine h.iff_at id ?_ ?_ ⟨?_, ?_⟩
    · intro other hother
      exact Table.lookup_adjust_ne hother _ _
    · intro other hother
      exact Table.lookup_adjust_ne hother _ _
    · intro hbooked _ other hother
      by_contra hexited
      have hended := hbooked.ended
      simp only [setHibernation, Table.lookup_adjust_self, hother] at hended
      cases hended _ rfl (by simpa using hexited)
    intro hrunning
    refine ⟨(h id).owned.adjust ?_ fun _ => (h id).owned.mem hmem, ?_, ?_⟩
    · simp only [setHibernation, Table.lookup_adjust_self, Option.map_map]
      rfl
    · simp only [claims, frozen, setHibernation, Table.lookup_adjust_self, hrecord, hsession,
        map_some, any_some, setHibernated_hibernated, isSome_some]
    · intro changed hchanged hexited
      simp only [setHibernation, Table.lookup_adjust_self, hrecord] at hchanged
      obtain ⟨⟩ := hchanged
      rw [hrunning hmem record hrecord] at hexited
      cases hexited
  · rw [if_pos hmem]
    exact iff_of_true h fun hnow => absurd hnow hmem

theorem Booked.claims_hibernate (id : SessionId)
    (reason : HibernationReason) (tree : List (Int32 × Int64)) (now : DateMillis)
    (hmem : id ∈ registry.sessions) :
    (registry.hibernate id reason (.ok tree) now).1.claims id = true := by
  obtain ⟨record, hrecord⟩ :=
    isSome_iff_exists.mp (AList.lookup_isSome.mpr ((h id).owned.mem hmem))
  simp only [Registry.hibernate, if_neg (not_not.mpr hmem), claims, setHibernation,
    Table.lookup_adjust_self, hrecord, map_some, any_some, isSome_some]

theorem Booked.ensureSessionAwake (id : SessionId)
    (continued : Except IoError Unit) (written : Bool) (now : DateMillis) :
    (registry.ensureSessionAwake id continued written now).1.Booked := by
  simp only [Registry.ensureSessionAwake]
  by_cases hmem : id ∈ registry.sessions
  · rw [if_neg (not_not.mpr hmem)]
    cases continued with
    | error error => exact h
    | ok _ =>
      have hawake : ∀ {records : Table SessionId SessionRecord},
          Registry.frozen id { registry with
            sessions := registry.sessions.adjust id fun session =>
              (session.setHibernated false written).1, records := records } = false := by
        intro records
        simp only [frozen, Table.lookup_adjust_self]
        cases registry.sessions.lookup id with
        | none => rfl
        | some session =>
          simp only [map_some, any_some, setHibernated_hibernated]
      by_cases hknown : registry.knownHibernated id = true
      · rw [if_pos hknown]
        refine h.of_at id ?_ ?_ ((bookedAt_awake ?_ hawake).mpr ?_)
        · intro other hother
          exact Table.lookup_adjust_ne hother _ _
        · intro other hother
          exact Table.lookup_adjust_ne hother _ _
        · refine (h id).owned.adjust ?_ fun _ => (h id).owned.mem hmem
          simp only [Table.lookup_adjust_self, Option.map_map]
          rfl
        · simp only [claims, Table.lookup_adjust_self]
          cases registry.records.lookup id <;> rfl
      rw [if_neg hknown]
      refine h.of_at id (fun _ _ => rfl) ?_ ((bookedAt_awake ?_ hawake).mpr ?_)
      · intro other hother
        exact Table.lookup_adjust_ne hother _ _
      · exact ⟨fun _ => (h id).owned.mem hmem, (h id).owned.keyed⟩
      · simp only [knownHibernated, Bool.or_eq_true, not_or, Bool.not_eq_true] at hknown
        exact hknown.1
  rw [if_pos hmem]
  have hknown : registry.knownHibernated id = false := by
    simp only [knownHibernated, Bool.or_eq_false_iff]
    exact ⟨(bookedAt_ended hmem (h id).owned.keyed).mp (h id), frozen_of_notMem hmem⟩
  rw [hknown]
  exact h

theorem Booked.wakeSession (id : SessionId)
    (continued : Except IoError Unit) (written : Bool) (now : DateMillis) :
    (registry.wakeSession id continued written now).1.Booked := by
  unfold Registry.wakeSession
  split
  · exact h.ensureSessionAwake id continued written now
  · exact h

end

/-! ### A restore -/

/-- Some holder of the id answered, and was adopted. -/
def Answers (holders : List (SessionId × Option LiveSession)) (id : SessionId) : Prop :=
  ∃ session, (id, some session) ∈ holders

/-- A holder is adopted if its record has no session, and the session is flagged as the record
says; or nothing happens. -/
theorem adoptHolder_cases (registry : Registry) (holder : SessionId × Option LiveSession) :
    (registry.adoptHolder holder = registry ∧ (holder.1 ∈ registry.sessions ∨
      holder.1 ∉ registry.records ∨ holder.2 = none)) ∨
    ∃ session adopted, holder.2 = some session ∧ holder.1 ∉ registry.sessions ∧
      holder.1 ∈ registry.records ∧
      (session.hibernated = false → adopted.hibernated = registry.claims holder.1) ∧
      registry.adoptHolder holder
        = { registry with sessions := registry.sessions.insert holder.1 adopted } := by
  obtain ⟨id, answered⟩ := holder
  unfold adoptHolder
  cases hrecord : registry.records.lookup id with
  | none => exact .inl ⟨rfl, .inr (.inl (AList.lookup_eq_none.mp hrecord))⟩
  | some record =>
    rw [claims_of_lookup hrecord]
    cases hsession : registry.sessions.lookup id with
    | some live => exact .inl ⟨rfl, .inl (Table.mem_of_lookup hsession)⟩
    | none =>
      cases answered with
      | none => exact .inl ⟨rfl, .inr (.inr rfl)⟩
      | some session =>
        refine .inr ⟨session, _, rfl, AList.lookup_eq_none.mp hsession,
          Table.mem_of_lookup hrecord, fun hawake => ?_, rfl⟩
        cases record.hibernation with
        | none => exact hawake
        | some info => exact setHibernated_hibernated true false session

/-- Sessions that are there stay, and those that are adopted are flagged as their records say. -/
theorem adoptLiveHolders_sessions {holders : List (SessionId × Option LiveSession)}
    (hawake : ∀ holder ∈ holders, ∀ session, holder.2 = some session →
      session.hibernated = false) (registry : Registry) (id : SessionId) :
    (id ∈ registry.sessions → (registry.adoptLiveHolders holders).sessions.lookup id
      = registry.sessions.lookup id) ∧
    (id ∉ registry.sessions → (id ∈ (registry.adoptLiveHolders holders).sessions ↔
        id ∈ registry.records ∧ Answers holders id) ∧
      (id ∈ (registry.adoptLiveHolders holders).sessions →
        (registry.adoptLiveHolders holders).frozen id = registry.claims id)) := by
  induction holders generalizing registry with
  | nil =>
    refine ⟨fun _ => rfl, fun hnone => ⟨?_, fun hmem => absurd hmem hnone⟩⟩
    refine iff_of_false hnone ?_
    rintro ⟨-, session, hmem⟩
    cases hmem
  | cons holder rest ih =>
    have hrest := ih (fun other hother => hawake other (mem_cons_of_mem _ hother))
      (registry.adoptHolder holder)
    have hfold : registry.adoptLiveHolders (holder :: rest)
        = (registry.adoptHolder holder).adoptLiveHolders rest := rfl
    have hanswers : Answers (holder :: rest) id ↔
        (∃ session, holder = (id, some session)) ∨ Answers rest id := by
      simp only [Answers, mem_cons, exists_or, eq_comm]
    rw [hfold]
    rcases registry.adoptHolder_cases holder with ⟨hsame, hwhy⟩ |
      ⟨session, adopted, hsession, hnone, hrecord, hflag, hadopted⟩
    · rw [hsame] at hrest ⊢
      refine ⟨hrest.1, fun hmissing => ⟨?_, (hrest.2 hmissing).2⟩⟩
      rw [(hrest.2 hmissing).1, hanswers]
      refine and_congr_right fun hrecord => (or_iff_right ?_).symm
      rintro ⟨session, rfl⟩
      rcases hwhy with hmem | hnone | hsilent
      · exact hmissing hmem
      · exact hnone hrecord
      · cases hsilent
    rw [hadopted] at hrest ⊢
    by_cases hid : id = holder.1
    · subst hid
      have hlookup := hrest.1 ((AList.mem_insert _).mpr (.inl rfl))
      rw [AList.lookup_insert] at hlookup
      refine ⟨fun hmem => absurd hmem hnone, fun _ => ⟨?_, fun _ => ?_⟩⟩
      · refine iff_of_true (Table.mem_of_lookup hlookup) ⟨hrecord, hanswers.mpr (.inl ?_)⟩
        exact ⟨session, Prod.ext rfl hsession⟩
      · rw [frozen_of_lookup hlookup]
        exact hflag (hawake holder mem_cons_self session hsession)
    have hmem : id ∈ registry.sessions.insert holder.1 adopted ↔ id ∈ registry.sessions := by
      rw [AList.mem_insert]
      exact or_iff_right hid
    refine ⟨fun hthere => ?_, fun hmissing => ?_⟩
    · rw [hrest.1 (hmem.mpr hthere)]
      exact AList.lookup_insert_ne hid
    obtain ⟨hiff, hfrozen⟩ := hrest.2 fun hthere => hmissing (hmem.mp hthere)
    refine ⟨?_, hfrozen⟩
    rw [hiff, hanswers]
    refine and_congr_right fun _ => (or_iff_right ?_).symm
    rintro ⟨other, rfl⟩
    exact hid rfl

section Restoring

variable {holders : List (SessionId × Option LiveSession)}

theorem restore_lookup (registry : Registry) (id : SessionId) :
    (registry.restore holders).records.lookup id = (registry.records.lookup id).map fun record =>
      if (registry.adoptLiveHolders holders).isOrphan record then
        { record with status := .exited ⟨.daemonRestart, none, none⟩, needsInput := none }
      else record := by
  unfold Registry.restore reapOrphans
  rw [Table.lookup_mapValues, (registry.adoptLiveHolders_frame holders).1]

/-- What a record says of a hibernation outlives the daemon, even where the session did not. -/
theorem restore_claims (registry : Registry) (id : SessionId) :
    (registry.restore holders).claims id = registry.claims id := by
  rw [claims, restore_lookup, Option.any_map, claims]
  cases registry.records.lookup id with
  | none => rfl
  | some record =>
    simp only [any_some]
    split <;> rfl

theorem restore_lookup_of_mem (h : registry.OwnedAt id)
    (hmem : id ∈ (registry.restore holders).sessions) :
    (registry.restore holders).records.lookup id = registry.records.lookup id := by
  rw [restore_lookup]
  cases hrecord : registry.records.lookup id with
  | none => rfl
  | some record =>
    have hbacked : (registry.adoptLiveHolders holders).isOrphan record = false := by
      have hthere : id ∈ (registry.adoptLiveHolders holders).sessions := hmem
      simp [isOrphan, h.keyed record hrecord, hthere]
    simp only [map_some, hbacked, Bool.false_eq_true, if_false]

variable (hawake : ∀ holder ∈ holders, ∀ session, holder.2 = some session →
  session.hibernated = false)
include hawake

theorem OwnedAt.restore (h : registry.OwnedAt id) : (registry.restore holders).OwnedAt id := by
  obtain ⟨-, hadopted⟩ := registry.adoptLiveHolders_sessions hawake id
  refine h.adjust ?_ fun hmem => ?_
  · rw [restore_lookup, Option.map_map]
    congr 1
    funext record
    simp only [Function.comp_apply]
    split <;> rfl
  by_cases hthere : id ∈ registry.sessions
  · exact h.mem hthere
  · exact ((hadopted hthere).1.mp hmem).1

theorem BookedAt.restore (h : registry.BookedAt id) : (registry.restore holders).BookedAt id := by
  obtain ⟨hkept, hadopted⟩ := registry.adoptLiveHolders_sessions hawake id
  have howned := h.owned.restore hawake
  by_cases hthere : id ∈ registry.sessions
  · have hsession : (registry.restore holders).sessions.lookup id = registry.sessions.lookup id :=
      hkept hthere
    have hmem : id ∈ (registry.restore holders).sessions := by
      rw [← AList.lookup_isSome, hsession, AList.lookup_isSome]
      exact hthere
    refine ⟨howned, ?_, ?_⟩
    · rw [restore_claims, h.agrees, frozen, frozen, hsession]
    · rw [restore_lookup_of_mem h.owned hmem]
      exact h.ended
  have hclaims : registry.claims id = false := by rw [h.agrees, frozen_of_notMem hthere]
  refine (bookedAt_awake howned ?_).mpr ((restore_claims registry id).trans hclaims)
  by_cases hmem : id ∈ (registry.restore holders).sessions
  · exact ((hadopted hthere).2 hmem).trans hclaims
  · exact frozen_of_notMem hmem

/-- Where no session runs yet, a record that says "hibernated" needs a holder that answers. -/
theorem restore_bookedAt_iff (howned : registry.OwnedAt id) (hnone : id ∉ registry.sessions) :
    (registry.restore holders).BookedAt id ↔ ∀ record,
      registry.records.lookup id = some record → record.hibernation.isSome = true →
        record.status.isExited = false ∧ Answers holders id := by
  obtain ⟨-, hadopted⟩ := registry.adoptLiveHolders_sessions hawake id
  obtain ⟨hmem, hfrozen⟩ := hadopted hnone
  have hafter := howned.restore hawake
  constructor
  · intro h record hrecord hsome
    have hclaims : registry.claims id = true := (claims_of_lookup hrecord).trans hsome
    have hthere : id ∈ (registry.restore holders).sessions := by
      by_contra hmissing
      have hagrees := h.agrees
      rw [restore_claims, hclaims, frozen_of_notMem hmissing] at hagrees
      cases hagrees
    refine ⟨?_, (hmem.mp hthere).2⟩
    by_contra hexited
    have hended := h.ended record ((restore_lookup_of_mem howned hthere).trans hrecord)
      (by simpa using hexited)
    rw [hended] at hsome
    cases hsome
  intro hsays
  by_cases hclaims : registry.claims id = true
  · have hlisted : id ∈ registry.records := by
      by_contra hmissing
      rw [claims_of_notMem hmissing] at hclaims
      cases hclaims
    obtain ⟨record, hrecord⟩ := isSome_iff_exists.mp (AList.lookup_isSome.mpr hlisted)
    have hsome := (claims_of_lookup hrecord).symm.trans hclaims
    obtain ⟨hrunning, hanswers⟩ := hsays record hrecord hsome
    have hthere := hmem.mpr ⟨Table.mem_of_lookup hrecord, hanswers⟩
    refine ⟨hafter, (restore_claims registry id).trans (hfrozen hthere).symm, ?_⟩
    intro other hother hexited
    rw [restore_lookup_of_mem howned hthere, hrecord] at hother
    obtain ⟨⟩ := hother
    rw [hrunning] at hexited
    cases hexited
  have hquiet : registry.claims id = false := by simpa using hclaims
  refine (bookedAt_awake hafter ?_).mpr ((restore_claims registry id).trans hquiet)
  by_cases hthere : id ∈ (registry.restore holders).sessions
  · exact (hfrozen hthere).trans hquiet
  · exact frozen_of_notMem hthere

end Restoring

end Registry

/-! ### Runs -/

theorem Restart.exact_iff (restart : Restart) : restart.books.Exact ↔ restart.InBooks := by
  have hsound := Registry.Sound.loaded restart.records
  have hnone : ∀ id, id ∉ (Registry.loaded restart.records).sessions := by
    intro id
    rw [Registry.loaded_sessions]
    exact AList.notMem_empty id
  have hat := fun id => Registry.restore_bookedAt_iff restart.awake
    ⟨fun hmem => absurd hmem (hnone id), hsound.keyed id⟩ (hnone id)
  constructor
  · intro hexact id record hrecord hsome
    exact (hat id).mp (hexact.booked id) record hrecord hsome
  · intro hsays
    exact ⟨fun id => (hat id).mpr fun record => hsays id record, rfl⟩

section Steps

variable {chars : CharClass} {books after : Books} {operation : Operation}

/-- An operation that leaves no tree stopped is judged by the registry it leaves. -/
theorem Books.Exact.lost_iff (h : books.Exact) (hstep : books.step chars operation = some after)
    (hlost : (operation.stops books.registry).filter (fun id => !after.registry.claims id) = []) :
    after.Exact ↔ (operation.call.step chars books.registry).1.Booked := by
  obtain ⟨⟩ := hstep
  refine ⟨fun hexact => hexact.booked, fun hbooked => ⟨hbooked, ?_⟩⟩
  simp only [h.recorded, nil_append]
  exact hlost

theorem Books.Exact.quiet_iff (h : books.Exact) (hstep : books.step chars operation = some after)
    (hquiet : operation.stops books.registry = []) :
    after.Exact ↔ (operation.call.step chars books.registry).1.Booked := by
  refine h.lost_iff hstep ?_
  rw [hquiet, filter_nil]

theorem Registry.hibernate_failed (registry : Registry) (id : SessionId)
    (reason : HibernationReason) (error : IoError) (now : DateMillis) :
    (registry.hibernate id reason (.error error) now).1 = registry := by
  unfold Registry.hibernate
  split <;> rfl

theorem Books.Exact.hibernate_iff (h : books.Exact) {id : SessionId} {reason : HibernationReason}
    {stopped : Except IoError (List (Int32 × Int64))} {now : DateMillis}
    (hcall : operation.call = .hibernate id reason stopped now)
    (hstep : books.step chars operation = some after) : after.Exact ↔ operation.InBooks books := by
  have hregistry : after.registry = (books.registry.hibernate id reason stopped now).1 := by
    obtain ⟨⟩ := hstep
    simp only [hcall]
    rfl
  have hstops : operation.stops books.registry
      = if id ∈ books.registry.sessions ∧ (stopped.isOk ∨ operation.tookEffect) then [id]
        else [] := by
    simp only [Operation.stops, hcall]
  cases stopped with
  | ok tree =>
    rw [h.lost_iff hstep ?_, hcall]
    · simp only [Operation.InBooks, hcall]
      exact h.booked.hibernate_iff id reason tree now
    rw [hstops, hregistry]
    split
    · next hmem => simp [h.booked.claims_hibernate id reason tree now hmem.1]
    · rfl
  | error error =>
    rw [Registry.hibernate_failed] at hregistry
    have hlost : after.leftStopped
        = if id ∈ books.registry.sessions ∧ operation.tookEffect = true
            ∧ books.registry.claims id = false then [id] else [] := by
      have hafter : after.leftStopped = books.leftStopped ++
          (operation.stops books.registry).filter fun id => !after.registry.claims id := by
        obtain ⟨⟩ := hstep
        rfl
      rw [hafter, h.recorded, hstops, hregistry, nil_append]
      by_cases hmem : id ∈ books.registry.sessions
      · by_cases htook : operation.tookEffect = true
        · cases hclaims : books.registry.claims id <;> simp [hmem, htook, hclaims]
        · simp [htook, Except.isOk, Except.toBool]
      · simp [hmem]
    simp only [Operation.InBooks, hcall]
    constructor
    · intro hexact htook hmem
      by_contra hclaims
      have hnone := hlost.symm.trans hexact.recorded
      rw [if_pos ⟨hmem, htook, by simpa using hclaims⟩] at hnone
      cases hnone
    · intro hclaims
      refine ⟨hregistry ▸ h.booked, hlost.trans (if_neg ?_)⟩
      rintro ⟨hmem, htook, hquiet⟩
      rw [hclaims htook hmem] at hquiet
      cases hquiet

theorem Books.Exact.step_iff (h : books.Exact) (hstep : books.step chars operation = some after) :
    after.Exact ↔ operation.InBooks books := by
  obtain ⟨call, tookEffect, hlifecycle, hawake⟩ := operation
  cases call with
  | spawn record spawned =>
    rw [h.quiet_iff hstep rfl]
    cases spawned with
    | error error => exact iff_of_true h.booked trivial
    | ok session => exact h.booked.spawn_iff record hawake
  | adoptRemote id adopted =>
    rw [h.quiet_iff hstep rfl]
    cases adopted with
    | error error =>
      refine iff_of_true ?_ trivial
      rcases books.registry.adoptRemote_cases id (.error error) with
        ⟨_, hfailed⟩ | ⟨_, hsession, -⟩
      · simp only [RegistryCall.step, RegistryCall.reply, hfailed]
        exact h.booked
      · cases hsession
    | ok session => exact h.booked.adoptRemote_iff id hawake
  | respawn id spawned now =>
    rw [h.quiet_iff hstep rfl]
    cases spawned with
    | error error =>
      refine iff_of_true ?_ trivial
      rcases books.registry.respawn_cases id (.error error) now with
        ⟨_, hfailed⟩ | ⟨_, hsession, -⟩
      · simp only [RegistryCall.step, RegistryCall.reply, hfailed]
        exact h.booked
      · cases hsession
    | ok session => exact h.booked.respawn_iff id now hawake
  | restore holders =>
    rw [h.quiet_iff hstep rfl]
    exact iff_of_true (fun id => (h.booked id).restore hawake) trivial
  | terminate id result =>
    rw [h.quiet_iff hstep rfl]
    exact h.booked.terminate_iff id result
  | remove id result =>
    rw [h.quiet_iff hstep rfl]
    exact iff_of_true (h.booked.remove id result) trivial
  | reopenLastClosed folderExists =>
    rw [h.quiet_iff hstep rfl]
    exact h.booked.reopenLastClosed_iff folderExists
  | archive id result now =>
    rw [h.quiet_iff hstep rfl]
    exact h.booked.archive_iff id result now
  | unarchive id now =>
    rw [h.quiet_iff hstep rfl]
    exact iff_of_true (h.booked.unarchive id now) trivial
  | changedSince published now => cases hlifecycle
  | hibernate id reason stopped now => exact h.hibernate_iff rfl hstep
  | wakeSession id continued written now =>
    rw [h.quiet_iff hstep rfl]
    exact iff_of_true (h.booked.wakeSession id continued written now) trivial
  | ensureSessionAwake id continued written now =>
    rw [h.quiet_iff hstep rfl]
    exact iff_of_true (h.booked.ensureSessionAwake id continued written now) trivial
  | writeInput id bytes written | observe id view => cases hlifecycle

end Steps

theorem Books.run_isSome (chars : CharClass) (books : Books) (operations : List Operation) :
    ∃ last, partialRun (Books.step chars) books operations = some last := by
  induction operations generalizing books with
  | nil => exact ⟨books, rfl⟩
  | cons operation rest ih =>
    rw [partialRun_cons]
    exact ih _

/--
**The books on hibernation are exact after every operation of a run**, if and only if the
restart it begins with and every operation in it have what they need: no session ends or
begins anew while its record says "hibernated", a record that is reopened agrees with the
session of its id, none that is exited is stopped, and no `hibernate` fails after its
signal took effect.
-/
theorem bookkeeping_exact_iff (chars : CharClass) (restart : Restart)
    (operations : List Operation) :
    (restart.InBooks ∧ Meets Operation.InBooks (Books.step chars) restart.books operations) ↔
      ∀ done, done <+: operations → ∀ books,
        partialRun (Books.step chars) restart.books done = some books → books.Exact := by
  obtain ⟨last, hlast⟩ := Books.run_isSome chars restart.books operations
  constructor
  · rintro ⟨hrestart, hmeets⟩
    exact (Meets.iff_along (fun _ _ _ h hstep => h.step_iff hstep)
      (restart.exact_iff.mpr hrestart) hlast).mp hmeets
  · intro halong
    have hstart := halong [] nil_prefix restart.books rfl
    exact ⟨restart.exact_iff.mp hstart,
      (Meets.iff_along (fun _ _ _ h hstep => h.step_iff hstep) hstart hlast).mpr halong⟩

/-! ### A session that ends while it is stopped -/

/-- The daemon was restarted while the session ran on. -/
def outlivedRestart : Restart where
  records := [workingRecord]
  holders := [("s_1", some workingSession)]
  awake := by simp [workingSession]

def stopForMemory : Operation where
  call := .hibernate "s_1" .memoryPressure (.ok [(7, 1)]) ⟨1⟩
  lifecycle := rfl
  awake := trivial

def killStopped : Operation where
  call := .terminate "s_1" (.ok (.signal 9))
  lifecycle := rfl
  awake := trivial

/-- The session was stopped and then killed: its record is exited, and says "hibernated". -/
theorem killed_still_hibernated : outlivedRestart.books.Exact ∧ ∃ books,
      partialRun (Books.step asciiChars) outlivedRestart.books [stopForMemory, killStopped]
        = some books ∧ "s_1" ∉ books.registry.sessions ∧ books.registry.claims "s_1" = true ∧
      (books.registry.records.lookup "s_1").any (·.status.isExited) = true ∧ ¬books.Exact := by
  refine ⟨outlivedRestart.exact_iff.mpr ?_, _, rfl, by decide +kernel, by decide +kernel,
    by decide +kernel, fun hexact => ?_⟩
  · intro id record hrecord hsome
    have hquiet : (Registry.loaded outlivedRestart.records).records.All fun _ record =>
        record.hibernation.isSome = false := by decide +kernel
    rw [hquiet id record hrecord] at hsome
    cases hsome
  · have hagrees := (hexact.booked "s_1").agrees
    revert hagrees
    decide +kernel

end Diri
