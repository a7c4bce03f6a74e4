/-
A blob is what its name says.

A file comes to stand under a digest by a rename, after it has been hashed; so the file at
each digest has that hash (`Addressed`) unless it changes afterwards, or is not the file
that was hashed.  Both can happen, as the calls of different connections share one partial
file and one temporary file for each digest.  `Allows` leaves out the steps by which they
do: a write to a file that is in place already, or that another call has hashed and is
about to rename; a hash that is found right although the file has changed while it was
read; and a rename of another file than the one that was hashed.
-/
import Diri.Lib.Run
import Diri.Node.Blobs
import Diri.Proofs.Node.Hex

namespace Diri

open List Option

variable {sha256 : List UInt8 → String}

/-! ### What one system call does -/

/-- The file that a call is at work on. -/
def BlobPhase.file : BlobPhase → Option Nat
  | .writing file _ _ | .hashing file _ | .placing file => some file
  | _ => none

namespace BlobCall

/-- All that a step of a call can do. -/
inductive Does (sha256 : List UInt8 → String) (dir : BlobDir) (call : BlobCall) :
    BlobDir → BlobCall → Prop
  | quiet (phase : BlobPhase) (hphase : phase.file = none) :
      Does sha256 dir call dir { call with phase := phase }
  | opens (hphase : call.phase = .opening) :
      Does sha256 dir call (call.openSource dir).1
        { call with phase := .writing (call.openSource dir).2 0 call.toWrite }
  | writes (file position position' : Nat) (item : UInt8) (rest rest' bytes : List UInt8)
      (hphase : call.phase = .writing file position (item :: rest)) :
      Does sha256 dir call (dir.setContents file bytes)
        { call with phase := .writing file position' rest' }
  | starts (file : Nat) (hfile : call.source dir = some file) :
      Does sha256 dir call dir { call with phase := .hashing file [] }
  | reads (file count : Nat) (read : List UInt8) (hphase : call.phase = .hashing file read) :
      Does sha256 dir call dir
        { call with
          phase := .hashing file (read ++ ((dir.contents file).drop read.length).take count) }
  | finds (file : Nat) (read : List UInt8) (hphase : call.phase = .hashing file read)
      (hend : (dir.contents file).length ≤ read.length) (hhash : sha256 read = call.digest) :
      Does sha256 dir call dir { call with phase := .placing file }
  | renames (hashed file : Nat) (hphase : call.phase = .placing hashed)
      (hfile : call.source dir = some file) :
      Does sha256 dir call
        { call.eraseSource dir with
          blobs := (call.eraseSource dir).blobs.insert call.digest file }
        { call with phase := .ended (.ok true) }

variable (call : BlobCall)

theorem file_absent : call.absent.file = none := by
  unfold absent
  split <;> rfl

theorem file_compareOffset (current : Nat) : (call.compareOffset current).file = none := by
  unfold compareOffset
  split
  · split <;> rfl
  · rfl

theorem file_allWritten : call.allWritten.file = none := by
  unfold allWritten
  split <;> rfl

theorem file_synced : call.synced.file = none := by
  unfold synced
  split
  · split <;> rfl
  · rfl

theorem quiet_of_fails {dir dir' : BlobDir} {call call' : BlobCall}
    (hstep : call.step sha256 dir .fails = some (dir', call')) :
    dir' = dir ∧ ∃ phase, phase.file = none ∧ call' = { call with phase := phase } := by
  cases hphase : call.phase with
  | ended result => simp [step, hphase] at hstep
  | checking =>
    simp only [step, hphase, some.injEq, Prod.mk.injEq] at hstep
    exact ⟨hstep.1.symm, _, file_absent call, hstep.2.symm⟩
  | statting =>
    simp only [step, hphase, some.injEq, Prod.mk.injEq] at hstep
    exact ⟨hstep.1.symm, _, file_compareOffset call 0, hstep.2.symm⟩
  | _ =>
    simp only [step, hphase, some.injEq, Prod.mk.injEq] at hstep
    exact ⟨hstep.1.symm, _, rfl, hstep.2.symm⟩

theorem does_of_succeeds {dir dir' : BlobDir} {call call' : BlobCall} {count : Nat}
    (hstep : call.step sha256 dir (.does count) = some (dir', call')) :
    Does sha256 dir call dir' call' := by
  cases hphase : call.phase with
  | ended result => simp [step, hphase] at hstep
  | checking =>
    simp only [step, hphase, some.injEq, Prod.mk.injEq] at hstep
    obtain ⟨rfl, rfl⟩ := hstep
    refine .quiet _ ?_
    split
    · rfl
    · exact file_absent call
  | statting =>
    simp only [step, hphase, some.injEq, Prod.mk.injEq] at hstep
    obtain ⟨rfl, rfl⟩ := hstep
    exact .quiet _ (file_compareOffset call _)
  | opening =>
    simp only [step, hphase, some.injEq, Prod.mk.injEq] at hstep
    obtain ⟨rfl, rfl⟩ := hstep
    exact .opens hphase
  | writing file position rest =>
    cases rest with
    | nil =>
      simp only [step, hphase, some.injEq, Prod.mk.injEq] at hstep
      obtain ⟨rfl, rfl⟩ := hstep
      exact .quiet _ (file_allWritten call)
    | cons item rest =>
      simp only [step, hphase, some.injEq, Prod.mk.injEq] at hstep
      obtain ⟨rfl, rfl⟩ := hstep
      exact .writes file position _ item rest _ _ hphase
  | syncing =>
    simp only [step, hphase, some.injEq, Prod.mk.injEq] at hstep
    obtain ⟨rfl, rfl⟩ := hstep
    exact .quiet _ (file_synced call)
  | hashOpening =>
    simp only [step, hphase] at hstep
    split at hstep <;> obtain ⟨rfl, rfl⟩ := Prod.mk.inj (some.inj hstep)
    · exact .quiet _ rfl
    · exact .starts _ ‹_›
  | hashing file read =>
    simp only [step, hphase] at hstep
    split at hstep <;> obtain ⟨rfl, rfl⟩ := Prod.mk.inj (some.inj hstep)
    · rename_i hpiece
      by_cases hhash : sha256 read = call.digest
      · rw [if_pos hhash]
        refine .finds file read hphase ?_ hhash
        exact drop_eq_nil_iff.mp ((take_eq_nil_iff.mp hpiece).resolve_left (by omega))
      · rw [if_neg hhash]
        exact .quiet _ rfl
    · exact .reads file (max 1 count) read hphase
  | placing file =>
    simp only [step, hphase] at hstep
    split at hstep <;> obtain ⟨rfl, rfl⟩ := Prod.mk.inj (some.inj hstep)
    · exact .quiet _ rfl
    · exact .renames file _ hphase ‹_›

end BlobCall

/-! ### What is kept -/

namespace BlobDir

/-- The file at each digest has that hash. -/
def Addressed (sha256 : List UInt8 → String) (dir : BlobDir) : Prop :=
  ∀ digest file, dir.blobs.lookup digest = some file → sha256 (dir.contents file) = digest

/-- No name leads to a file that is still to be created. -/
structure Allocated (dir : BlobDir) : Prop where
  blobs : dir.blobs.All fun _ file => file < dir.next
  partials : dir.partials.All fun _ file => file < dir.next
  temporaries : dir.temporaries.All fun _ file => file < dir.next

/-- The file stands under some digest. -/
def Visible (dir : BlobDir) (file : Nat) : Prop := file ∈ dir.blobs.values

instance (dir : BlobDir) (file : Nat) : Decidable (dir.Visible file) :=
  inferInstanceAs (Decidable (_ ∈ _))

end BlobDir

namespace BlobStore

/-- Another call has found the file right, and is to rename it. -/
def Awaited (s : BlobStore) (file : Nat) : Prop := ∃ call ∈ s.calls, call.phase = .placing file

instance (s : BlobStore) (file : Nat) : Decidable (s.Awaited file) :=
  inferInstanceAs (Decidable (∃ call ∈ s.calls, _))

structure Sound (sha256 : List UInt8 → String) (s : BlobStore) : Prop where
  addressed : s.dir.Addressed sha256
  allocated : s.dir.Allocated
  opened : ∀ call ∈ s.calls, ∀ file, call.phase.file = some file → file < s.dir.next
  placed : ∀ call ∈ s.calls, ∀ file, call.phase = .placing file →
    sha256 (s.dir.contents file) = call.digest

/-! ### The condition -/

/-- The file is not in place, and no call waits to put it there. -/
def Loose (s : BlobStore) (file : Nat) : Prop := ¬s.dir.Visible file ∧ ¬s.Awaited file

instance (s : BlobStore) (file : Nat) : Decidable (s.Loose file) :=
  inferInstanceAs (Decidable (_ ∧ _))

/-- A call writes only to a loose file, and so it empties one; a file that is found right is
as it was read; and the file that is renamed is the one that was found right. -/
def Apart (sha256 : List UInt8 → String) (s : BlobStore) (call : BlobCall) : Prop :=
  match call.phase, call.work, call.source s.dir with
  | .writing file _ (_ :: _), _, _ => s.Loose file
  | .opening, .store _, some file => s.Loose file
  | .hashing file read, _, _ =>
    (s.dir.contents file).length ≤ read.length → sha256 read = call.digest →
      s.dir.contents file = read
  | .placing hashed, _, some file => file = hashed
  | _, _, _ => True

instance (s : BlobStore) (call : BlobCall) : Decidable (s.Apart sha256 call) := by
  unfold Apart
  split <;> infer_instance

def Allows (sha256 : List UInt8 → String) (s : BlobStore) : BlobEvent → Prop
  | .steps k (.does _) => ∀ call ∈ s.calls[k]?, s.Apart sha256 call
  | _ => True

instance (s : BlobStore) (event : BlobEvent) : Decidable (s.Allows sha256 event) := by
  unfold Allows
  split <;> infer_instance

/-! ### Each step -/

variable {call : BlobCall} {s : BlobStore}

theorem Awaited.of_mem {file : Nat} (hcall : call ∈ s.calls)
    (hphase : call.phase = .placing file) : s.Awaited file := ⟨call, hcall, hphase⟩

theorem Sound.set_call {k : Nat} (h : s.Sound sha256)
    (hopened : ∀ file, call.phase.file = some file → file < s.dir.next)
    (hplaced : ∀ file, call.phase = .placing file → sha256 (s.dir.contents file) = call.digest) :
    Sound sha256 { s with calls := s.calls.set k call } := by
  refine ⟨h.addressed, h.allocated, fun other hother file => ?_, fun other hother file => ?_⟩
  · rcases mem_or_eq_of_mem_set hother with hother | rfl
    · exact h.opened other hother file
    · exact hopened file
  · rcases mem_or_eq_of_mem_set hother with hother | rfl
    · exact h.placed other hother file
    · exact hplaced file

theorem Sound.set_dir {dir : BlobDir} (h : s.Sound sha256)
    (haddressed : dir.Addressed sha256) (hallocated : dir.Allocated) (hnext : s.dir.next ≤ dir.next)
    (hcontents : ∀ file, s.Awaited file → dir.contents file = s.dir.contents file) :
    Sound sha256 { s with dir := dir } := by
  refine ⟨haddressed, hallocated, fun call hcall file hfile => ?_, fun call hcall file hphase => ?_⟩
  · exact lt_of_lt_of_le (h.opened call hcall file hfile) hnext
  · show sha256 (dir.contents file) = call.digest
    rw [hcontents file (.of_mem hcall hphase)]
    exact h.placed call hcall file hphase

theorem Sound.write {file : Nat} (h : s.Sound sha256) (hloose : s.Loose file)
    (bytes : List UInt8) : Sound sha256 { s with dir := s.dir.setContents file bytes } := by
  refine h.set_dir (fun digest other hother => ?_)
    ⟨h.allocated.blobs, h.allocated.partials, h.allocated.temporaries⟩ le_rfl fun other hother => ?_
  · have hne : other ≠ file := by
      rintro rfl
      exact hloose.1 (Table.mem_values.mpr ⟨digest, hother⟩)
    show sha256 (Function.update s.dir.contents file bytes other) = digest
    rw [Function.update_of_ne hne]
    exact h.addressed digest other hother
  have hne : other ≠ file := by
    rintro rfl
    exact hloose.2 hother
  exact Function.update_of_ne hne _ _

theorem Sound.next_loose (h : s.Sound sha256) : s.Loose s.dir.next := by
  constructor
  · intro hvisible
    obtain ⟨digest, hdigest⟩ := Table.mem_values.mp hvisible
    exact lt_irrefl _ (h.allocated.blobs digest _ hdigest)
  · rintro ⟨call, hcall, hphase⟩
    exact lt_irrefl _ (h.opened call hcall _ (by rw [hphase]; rfl))

theorem source_lt {dir : BlobDir} (h : dir.Allocated) {file : Nat}
    (hsource : call.source dir = some file) : file < dir.next := by
  unfold BlobCall.source at hsource
  split at hsource
  · exact h.partials _ _ hsource
  · exact h.temporaries _ _ hsource

theorem openSource_lt {dir : BlobDir} (h : dir.Allocated) (call : BlobCall) :
    (call.openSource dir).2 < (call.openSource dir).1.next := by
  unfold BlobCall.openSource
  cases hsource : call.source dir with
  | none => exact Nat.lt_succ_self _
  | some file =>
    cases hwork : call.work with
    | put offset bytes eof | store copied => exact source_lt h hsource

theorem Sound.create (h : s.Sound sha256) (call : BlobCall) : Sound sha256 { s with
      dir := { (call.nameSource s.dir s.dir.next).setContents s.dir.next [] with
        next := s.dir.next + 1 } } := by
  have hup {table : Table String Nat} (htable : table.All fun _ file => file < s.dir.next) :
      table.All fun _ file => file < s.dir.next + 1 :=
    htable.mono fun _ _ hlt => Nat.lt_succ_of_lt hlt
  have hwritten := h.write h.next_loose []
  cases hwork : call.work with
  | put offset bytes eof =>
    simp only [BlobCall.nameSource, hwork]
    exact hwritten.set_dir hwritten.addressed ⟨hup h.allocated.blobs,
      (hup h.allocated.partials).insert (Nat.lt_succ_self _), hup h.allocated.temporaries⟩
      (Nat.le_succ _) fun _ _ => rfl
  | store copied =>
    simp only [BlobCall.nameSource, hwork]
    exact hwritten.set_dir hwritten.addressed ⟨hup h.allocated.blobs, hup h.allocated.partials, (hup
      h.allocated.temporaries).insert (Nat.lt_succ_self _)⟩ (Nat.le_succ _) fun _ _ => rfl

theorem Sound.open (h : s.Sound sha256)
    (hphase : call.phase = .opening) (hapart : s.Apart sha256 call) :
    Sound sha256 { s with dir := (call.openSource s.dir).1 } := by
  unfold BlobCall.openSource
  cases hsource : call.source s.dir with
  | none => exact h.create call
  | some file =>
    cases hwork : call.work with
    | put offset bytes eof => exact h
    | store copied =>
      simp only [Apart, hphase, hwork, hsource] at hapart
      exact h.write hapart []

theorem Sound.rename {file : Nat} (h : s.Sound sha256)
    (hhash : sha256 (s.dir.contents file) = call.digest) (hfile : file < s.dir.next) :
    Sound sha256 { s with dir := { call.eraseSource s.dir with
        blobs := (call.eraseSource s.dir).blobs.insert call.digest file } } := by
  have haddressed : ∀ digest other, (s.dir.blobs.insert call.digest file).lookup digest = some other →
      sha256 (s.dir.contents other) = digest := by
    intro digest other hother
    rcases Table.lookup_insert_cases hother with ⟨rfl, rfl⟩ | ⟨-, hother⟩
    · exact hhash
    · exact h.addressed digest other hother
  cases hwork : call.work with
  | put offset bytes eof =>
    simp only [BlobCall.eraseSource, hwork]
    exact h.set_dir haddressed ⟨h.allocated.blobs.insert hfile, h.allocated.partials.erase _,
      h.allocated.temporaries⟩ le_rfl fun _ _ => rfl
  | store copied =>
    simp only [BlobCall.eraseSource, hwork]
    exact h.set_dir haddressed ⟨h.allocated.blobs.insert hfile, h.allocated.partials,
      h.allocated.temporaries.erase _⟩ le_rfl fun _ _ => rfl

theorem Sound.does {k : Nat} {call call' : BlobCall} {dir' : BlobDir}
    (h : s.Sound sha256) (hcall : call ∈ s.calls) (hapart : s.Apart sha256 call)
    (hdoes : call.Does sha256 s.dir dir' call') : Sound sha256 ⟨dir', s.calls.set k call'⟩ := by
  cases hdoes with
  | quiet phase hquiet =>
    refine h.set_call (fun file hfile => ?_) fun file hplacing => ?_
    · simp [hquiet] at hfile
    · have hphase : phase = .placing file := hplacing
      simp [hphase, BlobPhase.file] at hquiet
  | opens hphase =>
    refine (h.open hphase hapart).set_call (fun file hfile => ?_) (by simp)
    obtain ⟨⟩ := hfile
    exact openSource_lt h.allocated call
  | writes file position position' item rest rest' bytes hphase =>
    have hloose : s.Loose file := by simpa only [Apart, hphase] using hapart
    refine (h.write hloose bytes).set_call (fun other hfile => ?_) (by simp)
    obtain ⟨⟩ := hfile
    exact h.opened call hcall _ (by rw [hphase]; rfl)
  | starts file hfile =>
    refine h.set_call (fun other hother => ?_) (by simp)
    obtain ⟨⟩ := hother
    exact source_lt h.allocated hfile
  | reads file count read hphase =>
    refine h.set_call (fun other hother => ?_) (by simp)
    obtain ⟨⟩ := hother
    exact h.opened call hcall _ (by rw [hphase]; rfl)
  | finds file read hphase hend hhash =>
    have hread : s.dir.contents file = read := by
      simp only [Apart, hphase] at hapart
      exact hapart hend hhash
    refine h.set_call (fun other hother => ?_) fun other hplacing => ?_
    · obtain ⟨⟩ := hother
      exact h.opened call hcall _ (by rw [hphase]; rfl)
    obtain rfl := BlobPhase.placing.inj hplacing
    rw [hread]
    exact hhash
  | renames hashed file hphase hfile =>
    have hsame : file = hashed := by simpa only [Apart, hphase, hfile] using hapart
    subst hsame
    refine (h.rename (h.placed call hcall _ hphase) ?_).set_call (by simp [BlobPhase.file])
      (by simp)
    exact h.opened call hcall _ (by rw [hphase]; rfl)

theorem file_put (params : BlobPutParams) : (BlobCall.put params).phase.file = none := by
  unfold BlobCall.put
  split <;> rfl

theorem Sound.add_call (h : s.Sound sha256)
    (hquiet : call.phase.file = none) : Sound sha256 { s with calls := s.calls ++ [call] } := by
  refine ⟨h.addressed, h.allocated, fun other hother file hfile => ?_, fun other hother file hplacing => ?_⟩
  · rcases mem_append.mp hother with hother | hnew
    · exact h.opened other hother file hfile
    · obtain rfl := mem_singleton.mp hnew
      simp [hquiet] at hfile
  · rcases mem_append.mp hother with hother | hnew
    · exact h.placed other hother file hplacing
    · obtain rfl := mem_singleton.mp hnew
      simp [hplacing, BlobPhase.file] at hquiet

theorem Sound.step {s s' : BlobStore} {event : BlobEvent} (h : s.Sound sha256)
    (hallows : s.Allows sha256 event) (hstep : s.step sha256 event = some s') :
    s'.Sound sha256 := by
  cases event with
  | put params =>
    obtain ⟨⟩ := hstep
    exact h.add_call (file_put params)
  | store contents copied =>
    obtain ⟨⟩ := hstep
    exact h.add_call rfl
  | steps k op =>
    simp only [BlobStore.step] at hstep
    split at hstep
    · cases hstep
    rename_i call hcall
    obtain ⟨⟨dir', call'⟩, hdoes, rfl⟩ := map_eq_some_iff.mp hstep
    have hmem : call ∈ s.calls := mem_of_getElem? hcall
    cases op with
    | fails =>
      obtain ⟨rfl, phase, hquiet, rfl⟩ := BlobCall.quiet_of_fails hdoes
      refine h.set_call (fun file hfile => ?_) fun file hplacing => ?_
      · simp [hquiet] at hfile
      · have hphase : phase = .placing file := hplacing
        simp [hphase, BlobPhase.file] at hquiet
    | does count =>
      have hapart : s.Apart sha256 call := hallows call hcall
      exact h.does hmem hapart (BlobCall.does_of_succeeds hdoes)

theorem sound_empty : Sound sha256 {} :=
  ⟨fun _ _ h => by simp at h, ⟨.empty, .empty, .empty⟩, by simp, by simp⟩

/-! ### Every interleaving -/

/--
**A blob is what its name says.**  Whatever calls any number of connections make, with
whatever arguments, and in whatever order their system calls come: as long as the steps are
allowed, the file at each digest has that hash.
-/
theorem blobs_addressed {events : List BlobEvent} {s : BlobStore}
    (hmeets : Meets (Allows sha256) (step sha256) {} events)
    (hrun : partialRun (step sha256) {} events = some s) :
    ∀ digest file, s.dir.blobs.lookup digest = some file → sha256 (s.dir.contents file) = digest :=
  (Meets.invariant (fun _ _ _ h hallows hstep => h.step hallows hstep) hmeets sound_empty
    hrun).addressed

end BlobStore

/-! ### One run that is allowed, and one that is not -/

namespace BlobStore

def sampleBlob : BlobPutParams := ⟨sampleSha256 [0x61], 0, "61", true⟩

/-- A call by itself, from its start to its end. -/
def alone (k : Nat) : List BlobEvent := List.replicate 10 (.steps k (.does 1))

theorem blobs_addressed_alone :
    ∃ s, partialRun (step sampleSha256) {} (.put sampleBlob :: alone 0) = some s ∧
      ∃ file, s.dir.blobs.lookup sampleBlob.digest = some file ∧
        sampleSha256 (s.dir.contents file) = sampleBlob.digest := by
  have hmeets : Meets (Allows sampleSha256) (step sampleSha256) {} (.put sampleBlob :: alone 0) := by
    decide
  exact ⟨_, rfl, 0, rfl, blobs_addressed hmeets rfl _ _ rfl⟩

/-- Two connections open the partial file; one puts the blob in place, then the other writes. -/
def lateWrite : List BlobEvent :=
  [.put sampleBlob, .put { sampleBlob with hex := "62", eof := false },
    .steps 0 (.does 1), .steps 0 (.does 1), .steps 1 (.does 1), .steps 1 (.does 1),
    .steps 0 (.does 1), .steps 1 (.does 1)] ++
    List.replicate 7 (.steps 0 (.does 1)) ++ [.steps 1 (.does 1)]

/-- A blob may change after it has been put in place. -/
theorem blob_overwritten : ¬∀ sha256 : List UInt8 → String, Function.Injective sha256 →
      ∀ (events : List BlobEvent) (s : BlobStore), partialRun (step sha256) {} events = some s →
          ∀ digest file, s.dir.blobs.lookup digest = some file →
            sha256 (s.dir.contents file) = digest := by
  intro h
  have hlost := h sampleSha256 sampleSha256_injective lateWrite _ rfl sampleBlob.digest 0 rfl
  revert hlost
  decide

end BlobStore

end Diri
