/-
When an interrupted transfer recovers.

Calls that come one after the other keep the directory in order (`Tidy`), however they are
cut off: a blob in place stays as it is, and no partial file is one.  So a later transfer
that is not interrupted finds one of three things.  The blob is there, and every chunk is
accepted; nothing is left of it, and the chunks build it up; or something is left, and the
first chunk, which the client always sends from the start, is refused.
-/
import Diri.Node.Transfer
import Diri.Proofs.Node.Blobs

namespace Diri

open Function List Table

variable {sha256 : List UInt8 → String}

/-- What a digest looks like. -/
def ValidDigest (digest : String) : Prop :=
  digest.utf8ByteSize = 64 ∧ digest.toList.all isAsciiHexDigit = true

instance (digest : String) : Decidable (ValidDigest digest) := inferInstanceAs (Decidable (_ ∧ _))

/-! ### Calls one after the other -/

/-- Blobs are what they should be, and each partial file is that of one blob in the making. -/
structure BlobDir.Tidy (sha256 : List UInt8 → String) (dir : BlobDir) : Prop where
  addressed : dir.Addressed sha256
  allocated : dir.Allocated
  loose : dir.partials.All fun _ file => ¬dir.Visible file
  distinct : ∀ digest other file, dir.partials.lookup digest = some file →
    dir.partials.lookup other = some file → digest = other

namespace BlobCall

def IsPut (call : BlobCall) : Prop :=
  match call.work with
  | .put _ _ _ => True
  | .store _ => False

/-- What a put that is alone with the directory knows of the file it is at work on. -/
def Holds (sha256 : List UInt8 → String) (dir : BlobDir) (call : BlobCall) : Prop :=
  match call.phase with
  | .writing file _ _ => dir.partials.lookup call.digest = some file
  | .hashing file read => dir.partials.lookup call.digest = some file ∧ read <+: dir.contents file
  | .placing file =>
    dir.partials.lookup call.digest = some file ∧ sha256 (dir.contents file) = call.digest
  | _ => True

structure Lone (sha256 : List UInt8 → String) (dir : BlobDir) (call : BlobCall) : Prop where
  tidy : dir.Tidy sha256
  isPut : call.IsPut
  holds : call.Holds sha256 dir

theorem IsPut.source {call : BlobCall} (h : call.IsPut) (dir : BlobDir) :
    call.source dir = dir.partials.lookup call.digest := by
  unfold BlobCall.source
  cases hwork : call.work with
  | put offset bytes eof => rfl
  | store copied => simp [IsPut, hwork] at h

theorem holds_of_file {dir : BlobDir} {call : BlobCall} (h : call.phase.file = none) :
    call.Holds sha256 dir := by
  unfold Holds
  cases hphase : call.phase with
  | writing _ _ _ | hashing _ _ | placing _ => simp [hphase, BlobPhase.file] at h
  | _ => trivial

end BlobCall

namespace BlobDir

variable {dir : BlobDir}

theorem Tidy.write {file : Nat} (h : dir.Tidy sha256) (hloose : ¬dir.Visible file)
    (bytes : List UInt8) : (dir.setContents file bytes).Tidy sha256 := by
  refine ⟨fun digest other hother => ?_,
    ⟨h.allocated.blobs, h.allocated.partials, h.allocated.temporaries⟩, h.loose, h.distinct⟩
  have hne : other ≠ file := by
    rintro rfl
    exact hloose (Table.mem_values.mpr ⟨digest, hother⟩)
  show sha256 (Function.update dir.contents file bytes other) = digest
  rw [update_of_ne hne]
  exact h.addressed digest other hother

theorem Tidy.next_fresh (h : dir.Tidy sha256) : ¬dir.Visible dir.next := by
  intro hvisible
  obtain ⟨digest, hdigest⟩ := Table.mem_values.mp hvisible
  exact lt_irrefl _ (h.allocated.blobs digest _ hdigest)

theorem Tidy.create (h : dir.Tidy sha256) (digest : String) :
    Tidy sha256 { dir.setContents dir.next [] with
      partials := dir.partials.insert digest dir.next
      next := dir.next + 1 } := by
  have hup {table : Table String Nat} (htable : table.All fun _ file => file < dir.next) :
      table.All fun _ file => file < dir.next + 1 :=
    htable.mono fun _ _ hlt => Nat.lt_succ_of_lt hlt
  have hfresh (other : String) : dir.partials.lookup other ≠ some dir.next := fun hother =>
    lt_irrefl _ (h.allocated.partials other _ hother)
  refine ⟨(h.write h.next_fresh []).addressed,
    ⟨hup h.allocated.blobs, (hup h.allocated.partials).insert (Nat.lt_succ_self _),
      hup h.allocated.temporaries⟩, h.loose.insert h.next_fresh, ?_⟩
  intro one other file hone hother
  rcases lookup_insert_cases hone with ⟨rfl, rfl⟩ | ⟨-, hone'⟩
  · rcases lookup_insert_cases hother with ⟨rfl, -⟩ | ⟨-, hother'⟩
    · rfl
    · exact absurd hother' (hfresh other)
  rcases lookup_insert_cases hother with ⟨rfl, rfl⟩ | ⟨-, hother'⟩
  · exact absurd hone' (hfresh one)
  · exact h.distinct one other file hone' hother'

theorem Tidy.rename {digest : String} {file : Nat} (h : dir.Tidy sha256)
    (hfile : dir.partials.lookup digest = some file) (hhash : sha256 (dir.contents file) = digest) :
    Tidy sha256 { dir with
      partials := dir.partials.erase digest
      blobs := dir.blobs.insert digest file } := by
  refine ⟨fun other found hfound => ?_, ⟨?_, h.allocated.partials.erase _, h.allocated.temporaries⟩,
    fun other found hfound hvisible => ?_, fun one other found hone hother => ?_⟩
  · rcases lookup_insert_cases hfound with ⟨rfl, rfl⟩ | ⟨-, hfound⟩
    · exact hhash
    · exact h.addressed other found hfound
  · exact h.allocated.blobs.insert (h.allocated.partials _ _ hfile)
  · obtain ⟨hne, hold⟩ := lookup_erase_cases hfound
    obtain ⟨name, hname⟩ := Table.mem_values.mp hvisible
    rcases lookup_insert_cases hname with ⟨rfl, rfl⟩ | ⟨-, hname⟩
    · exact hne (h.distinct other _ _ hold hfile)
    · exact h.loose other found hold (Table.mem_values.mpr ⟨name, hname⟩)
  · exact h.distinct one other found (lookup_erase_cases hone).2 (lookup_erase_cases hother).2

theorem tidy_empty : Tidy sha256 {} :=
  ⟨fun _ _ h => by simp at h, ⟨.empty, .empty, .empty⟩, .empty, fun _ _ _ h => by simp at h⟩

end BlobDir

namespace BlobCall

variable {dir : BlobDir}

theorem Lone.quiet {call : BlobCall} (h : call.Lone sha256 dir) {phase : BlobPhase}
    (hquiet : phase.file = none) : Lone sha256 dir { call with phase := phase } :=
  ⟨h.tidy, h.isPut, holds_of_file hquiet⟩

theorem Lone.open {call : BlobCall} (h : call.Lone sha256 dir) : Lone sha256 (call.openSource dir).1
      { call with phase := .writing (call.openSource dir).2 0 call.toWrite } := by
  have hput := h.isPut
  unfold IsPut at hput
  split at hput
  · rename_i offset bytes eof hwork
    unfold openSource
    cases hsource : call.source dir with
    | some file =>
      refine ⟨?_, h.isPut, ?_⟩
      · simpa only [hwork] using h.tidy
      · simp only [hwork, Holds]
        rw [← h.isPut.source, hsource]
    | none =>
      simp only [nameSource, hwork]
      exact ⟨h.tidy.create call.digest, trivial, AList.lookup_insert _⟩
  · exact hput.elim

theorem Lone.does {dir dir' : BlobDir} {call call' : BlobCall} (h : call.Lone sha256 dir)
    (hdoes : call.Does sha256 dir dir' call') : call'.Lone sha256 dir' := by
  cases hdoes with
  | quiet phase hquiet => exact h.quiet hquiet
  | opens hphase => exact h.open
  | writes file position position' item rest rest' bytes hphase =>
    have hfile : dir.partials.lookup call.digest = some file := by
      have hholds := h.holds
      simpa only [Holds, hphase] using hholds
    exact ⟨h.tidy.write (h.tidy.loose _ _ hfile) bytes, h.isPut, hfile⟩
  | starts file hfile =>
    exact ⟨h.tidy, h.isPut, (h.isPut.source dir).symm.trans hfile, nil_prefix⟩
  | reads file count read hphase =>
    have hholds := h.holds
    simp only [Holds, hphase] at hholds
    refine ⟨h.tidy, h.isPut, hholds.1, ?_⟩
    obtain ⟨rest, hrest⟩ := hholds.2
    rw [← hrest, drop_left, prefix_append_right_inj]
    exact take_prefix _ _
  | finds file read hphase hend hhash =>
    have hholds := h.holds
    simp only [Holds, hphase] at hholds
    have hread : read = dir.contents file :=
      hholds.2.eq_of_length (le_antisymm hholds.2.length_le hend)
    exact ⟨h.tidy, h.isPut, hholds.1, hread ▸ hhash⟩
  | renames hashed file hphase hfile =>
    have hholds := h.holds
    simp only [Holds, hphase] at hholds
    rw [h.isPut.source] at hfile
    obtain rfl := Option.some.inj (hholds.1.symm.trans hfile)
    have hput := h.isPut
    unfold IsPut at hput
    split at hput
    · rename_i hwork
      simp only [eraseSource, hwork]
      exact ⟨h.tidy.rename hfile hholds.2, trivial, trivial⟩
    · exact hput.elim

theorem Lone.step {dir dir' : BlobDir} {call call' : BlobCall} {op : BlobOp}
    (h : call.Lone sha256 dir) (hstep : call.step sha256 dir op = some (dir', call')) :
    call'.Lone sha256 dir' := by
  cases op with
  | fails =>
    obtain ⟨rfl, phase, hquiet, rfl⟩ := quiet_of_fails hstep
    exact h.quiet hquiet
  | does count => exact h.does (does_of_succeeds hstep)

theorem Lone.run {call : BlobCall} (h : call.Lone sha256 dir) (ops : List BlobOp) :
    (BlobCall.run sha256 dir call ops).2.Lone sha256 (BlobCall.run sha256 dir call ops).1 := by
  induction ops generalizing dir call with
  | nil => exact h
  | cons op ops ih =>
    unfold BlobCall.run
    split
    · exact h
    · exact ih (h.step ‹_›)

theorem lone_put (h : dir.Tidy sha256) (params : BlobPutParams) : (put params).Lone sha256 dir := by
  refine ⟨h, ?_, holds_of_file (BlobStore.file_put params)⟩
  unfold put
  split
  · trivial
  · trivial

end BlobCall

namespace BlobDir

theorem Tidy.servePut {dir : BlobDir} (h : dir.Tidy sha256) (params : BlobPutParams)
    (ops : List BlobOp) : (servePut sha256 dir params ops).1.Tidy sha256 :=
  ((BlobCall.lone_put h params).run ops).tidy

theorem Tidy.serve {α : Type} {dir : BlobDir} (h : dir.Tidy sha256)
    (script : Script ClientCall (Except NodeClientError ClientReply) α)
    (outcomes : List TransferOutcome) :
    (TransferAttempt.serve sha256 dir script outcomes).Tidy sha256 := by
  induction script generalizing dir outcomes with
  | done result => exact h
  | ask call next ih =>
    cases outcomes with
    | nil => exact h
    | cons outcome outcomes =>
      unfold TransferAttempt.serve
      split
      · rename_i ops ioText lost params
        have hput := h.servePut params ops
        generalize Diri.servePut sha256 dir params ops = served at hput ⊢
        obtain ⟨dir', result⟩ := served
        cases lost with
        | some error => exact ih _ hput outcomes
        | none =>
          cases result with
          | none | some result => exact ih _ hput outcomes
      · exact ih _ h outcomes
      · exact ih _ h outcomes
      · exact ih _ h outcomes

end BlobDir

theorem history_tidy (attempts : List TransferAttempt) :
    (TransferAttempt.history sha256 attempts).Tidy sha256 := by
  unfold TransferAttempt.history
  induction attempts using List.reverseRecOn with
  | nil => exact BlobDir.tidy_empty
  | append_singleton attempts attempt ih =>
    rw [foldl_append]
    exact ih.serve _ _

/-! ### A put whose system calls succeed -/

namespace BlobCall

/-- After so many system calls, however much each moves, the call has ended. -/
def Ends (sha256 : List UInt8 → String) (dir : BlobDir) (call : BlobCall) (n : Nat)
    (dir' : BlobDir) (result : Except NodeError Bool) : Prop :=
  ∀ counts : List Nat, n ≤ counts.length →
    (run sha256 dir call (counts.map .does)).1 = dir' ∧
      (run sha256 dir call (counts.map .does)).2.phase = .ended result

variable {dir dir' : BlobDir} {call : BlobCall} {n m : Nat} {result : Except NodeError Bool}

theorem Ends.mono (h : Ends sha256 dir call n dir' result) (hle : n ≤ m) :
    Ends sha256 dir call m dir' result :=
  fun counts hcounts => h counts (hle.trans hcounts)

theorem Ends.ended (hphase : call.phase = .ended result) : Ends sha256 dir call 0 dir result := by
  intro counts _
  cases counts with
  | nil => exact ⟨rfl, hphase⟩
  | cons count counts => simp [run, BlobCall.step, hphase]

theorem Ends.step (h : ∀ count, ∃ dir₁ call₁, call.step sha256 dir (.does count) =
      some (dir₁, call₁) ∧ Ends sha256 dir₁ call₁ n dir' result) :
    Ends sha256 dir call (n + 1) dir' result := by
  intro counts hcounts
  cases counts with
  | nil => simp at hcounts
  | cons count counts =>
    obtain ⟨dir₁, call₁, hstep, hends⟩ := h count
    have hrun : run sha256 dir call ((count :: counts).map .does) =
        run sha256 dir₁ call₁ (counts.map .does) := by
      rw [map_cons, run, hstep]
    rw [hrun]
    exact hends counts (Nat.le_of_succ_le_succ hcounts)

variable {digest : String} {offset file position : Nat} {bytes rest : List UInt8} {eof : Bool}

abbrev putAt (digest : String) (offset : Nat) (bytes : List UInt8) (eof : Bool) (phase : BlobPhase) :
    BlobCall := ⟨digest, .put offset bytes eof, phase⟩

theorem ends_placing (hfile : dir.partials.lookup digest = some file) :
    Ends sha256 dir (putAt digest offset bytes eof (.placing file)) 1 { dir with
        partials := dir.partials.erase digest
        blobs := dir.blobs.insert digest file } (.ok true) := by
  refine .step fun count => ⟨_, putAt digest offset bytes eof (.ended (.ok true)), ?_, .ended rfl⟩
  simp [BlobCall.step, source, hfile, eraseSource]

theorem ends_hashing {read : List UInt8} (hread : read <+: dir.contents file)
    (hends : Ends sha256 dir (putAt digest offset bytes eof
      (if sha256 (dir.contents file) = digest then .placing file
        else .ended (.error (mismatch sha256 (putAt digest offset bytes eof .syncing)
          (dir.contents file))))) n dir' result) :
    Ends sha256 dir (putAt digest offset bytes eof (.hashing file read))
      (n + ((dir.contents file).length - read.length) + 1) dir' result := by
  generalize hleft : (dir.contents file).length - read.length = left
  induction left using Nat.strongRecOn generalizing read with
  | ind left ih =>
    refine .step fun count => ?_
    by_cases hend : (dir.contents file).length ≤ read.length
    · obtain rfl := hread.eq_of_length (le_antisymm hread.length_le hend)
      refine ⟨dir, _, ?_, hends.mono (Nat.le_add_right _ _)⟩
      simp [BlobCall.step, mismatch]
    have hsplit := List.prefix_iff_eq_append.mp hread
    have hpiece : ((dir.contents file).drop read.length).take (max 1 count) ≠ [] := by
      rw [Ne, take_eq_nil_iff, drop_eq_nil_iff]
      omega
    have hlonger : read ++ ((dir.contents file).drop read.length).take (max 1 count) <+:
        dir.contents file := by
      conv_rhs => rw [← hsplit]
      exact (prefix_append_right_inj _).mpr (List.take_prefix _ _)
    have hpos := List.length_pos_iff.mpr hpiece
    have hlength : (read ++ ((dir.contents file).drop read.length).take (max 1 count)).length =
        read.length + (((dir.contents file).drop read.length).take (max 1 count)).length :=
      length_append
    refine ⟨dir, _, ?_, (ih _ ?_ hlonger rfl).mono ?_⟩
    · simp only [BlobCall.step]
    · omega
    · omega

theorem ends_writing (hends : Ends sha256 (dir.setContents file (dir.contents file ++ rest))
      (putAt digest offset bytes eof .syncing) n dir' result) :
    Ends sha256 dir (putAt digest offset bytes eof (.writing file position rest))
      (n + rest.length + 1) dir' result := by
  generalize hlength : rest.length = length
  induction length using Nat.strongRecOn generalizing dir position rest with
  | ind length ih =>
    refine .step fun count => ?_
    cases rest with
    | nil =>
      have hsame : dir.setContents file (dir.contents file ++ []) = dir := by
        rw [append_nil, BlobDir.setContents, update_eq_self]
      rw [hsame] at hends
      exact ⟨dir, _, rfl, hends.mono (Nat.le_add_right _ _)⟩
    | cons item rest =>
      generalize hwritten : dir.setContents file
        (dir.contents file ++ (item :: rest).take (max 1 count)) = dir₁
      have hmerge : dir₁.setContents file (dir₁.contents file ++
          (item :: rest).drop (max 1 count)) =
          dir.setContents file (dir.contents file ++ item :: rest) := by
        subst hwritten
        simp only [BlobDir.setContents, update_self, update_idem, append_assoc, take_append_drop]
      have hshort : ((item :: rest).drop (max 1 count)).length < length := by
        rw [length_drop, hlength]
        have hpos : 0 < length := hlength ▸ Nat.succ_pos _
        omega
      have hrest := @ih _ hshort dir₁ (position + ((item :: rest).take (max 1 count)).length) _
        (hmerge ▸ hends) rfl
      refine ⟨dir₁, _, ?_, hrest.mono (by omega)⟩
      simp only [BlobCall.step, written, hwritten]

theorem ends_hashOpening (hfile : dir.partials.lookup digest = some file)
    (hends : Ends sha256 dir (putAt digest offset bytes eof
      (if sha256 (dir.contents file) = digest then .placing file
        else .ended (.error (mismatch sha256 (putAt digest offset bytes eof .syncing)
          (dir.contents file))))) n dir' result) :
    Ends sha256 dir (putAt digest offset bytes eof .hashOpening)
      (n + (dir.contents file).length + 2) dir' result := by
  refine .step fun count => ⟨dir, _, ?_, ends_hashing nil_prefix hends⟩
  simp [BlobCall.step, source, hfile]

/-! The three things a put may find -/

theorem put_eq (hvalid : ValidDigest digest) (hlength : bytes.length ≤ maxChunkBytes) :
    put ⟨digest, offset, hexEncode bytes, eof⟩ = putAt digest offset bytes eof .checking := by
  have hchunk : (Handler.exec (chunk ⟨digest, offset, hexEncode bytes, eof⟩) {}).1 = .ok bytes := by
    unfold chunk validateDigest refuseIf
    rw [hexDecode_hexEncode]
    simp [hvalid.1, hvalid.2, Nat.not_lt.mpr hlength]
  simp [put, hchunk]

theorem ends_present (hpresent : digest ∈ dir.blobs) :
    Ends sha256 dir (putAt digest offset bytes eof .checking) 1 dir (.ok true) := by
  refine .step fun count => ⟨dir, putAt digest offset bytes eof (.ended (.ok true)), ?_, .ended rfl⟩
  simp [BlobCall.step, hpresent]

theorem ends_statting {next : BlobPhase}
    (hphase : compareOffset (putAt digest offset bytes eof .statting)
      (dir.leftover digest).length = next)
    (hends : Ends sha256 dir (putAt digest offset bytes eof next) n dir' result)
    (habsent : digest ∉ dir.blobs) :
    Ends sha256 dir (putAt digest offset bytes eof .checking) (n + 2) dir' result := by
  refine .step fun count => ⟨dir, putAt digest offset bytes eof .statting, ?_, .step fun count =>
    ⟨dir, putAt digest offset bytes eof next, ?_, hends⟩⟩
  · simp [BlobCall.step, habsent, absent]
  · subst hphase
    rfl

theorem ends_refused (habsent : digest ∉ dir.blobs)
    (hoffset : (dir.leftover digest).length ≠ offset) :
    Ends sha256 dir (putAt digest offset bytes eof .checking) 2 dir
      (.error (.conflict ("blob offset mismatch: expected "
        ++ toString (dir.leftover digest).length ++ ", got " ++ toString offset))) := by
  refine ends_statting ?_ (.ended rfl) habsent
  simp [compareOffset, hoffset]

/-- The partial file is there, with what is left of the blob, and nothing else has changed. -/
theorem openSource_put (dir : BlobDir) (phase : BlobPhase) :
    ((putAt digest offset bytes eof phase).openSource dir).1.partials.lookup digest =
        some ((putAt digest offset bytes eof phase).openSource dir).2 ∧
      ((putAt digest offset bytes eof phase).openSource dir).1.contents
        ((putAt digest offset bytes eof phase).openSource dir).2 = dir.leftover digest ∧
      ((putAt digest offset bytes eof phase).openSource dir).1.blobs = dir.blobs := by
  unfold openSource source
  cases hfile : dir.partials.lookup digest with
  | some file => exact ⟨hfile, by simp [BlobDir.leftover, hfile], rfl⟩
  | none =>
    refine ⟨AList.lookup_insert _, ?_, rfl⟩
    simp [BlobDir.setContents, BlobDir.leftover, hfile]

theorem ends_appended (habsent : digest ∉ dir.blobs)
    (hoffset : (dir.leftover digest).length = offset) :
    ∃ dir₁ file, dir₁.blobs = dir.blobs ∧ dir₁.partials.lookup digest = some file ∧
      dir₁.contents file = dir.leftover digest ++ bytes ∧
      ∀ n dir' result, Ends sha256 dir₁ (putAt digest offset bytes eof .syncing) n dir' result →
        Ends sha256 dir (putAt digest offset bytes eof .checking) (n + bytes.length + 4) dir'
          result := by
  generalize hcall : putAt digest offset bytes eof .opening = call
  obtain ⟨hfile, hcontents, hblobs⟩ := @openSource_put digest offset bytes eof dir .opening
  rw [hcall] at hfile hcontents hblobs
  refine ⟨(call.openSource dir).1.setContents (call.openSource dir).2
    (dir.leftover digest ++ bytes), (call.openSource dir).2, hblobs, hfile, ?_, ?_⟩
  · simp [BlobDir.setContents]
  intro n dir' result hends
  rw [← hcontents] at hends
  have hopens : Ends sha256 dir call (n + bytes.length + 2) dir' result := by
    refine .step fun count => ⟨(call.openSource dir).1, putAt digest offset bytes eof (.writing
      (call.openSource dir).2 0 bytes), ?_, ends_writing hends⟩
    subst hcall
    rfl
  have hphase : compareOffset (putAt digest offset bytes eof .statting)
      (dir.leftover digest).length = .opening := by
    simp [compareOffset, hoffset]
  exact ends_statting hphase (hcall ▸ hopens) habsent

end BlobCall

section Smooth

open BlobCall

variable {sizes : BlobPutParams → Nat → Nat} {dir dir' : BlobDir} {digest : String}
  {offset n : Nat} {bytes : List UInt8} {eof : Bool} {result : Except NodeError Bool}

theorem smoothPut_of_ends {params : BlobPutParams}
    (hends : Ends sha256 dir (put params) n dir' result) (hn : n ≤ callsEnough dir params) :
    smoothPut sha256 sizes dir params = (dir', some result) := by
  have hcounts := hends ((List.range (callsEnough dir params)).map (sizes params)) (by simpa using hn)
  rw [map_map] at hcounts
  obtain ⟨hdir, hphase⟩ := hcounts
  simp only [smoothPut, servePut, Prod.mk.injEq]
  refine ⟨hdir, ?_⟩
  simp only [comp_def] at hphase
  rw [hphase]

section
variable (hvalid : ValidDigest digest) (hlength : bytes.length ≤ maxChunkBytes)
include hvalid hlength

theorem smoothPut_present (hpresent : digest ∈ dir.blobs) :
    smoothPut sha256 sizes dir ⟨digest, offset, hexEncode bytes, eof⟩ = (dir, some (.ok true)) := by
  refine smoothPut_of_ends ((put_eq hvalid hlength).symm ▸ ends_present hpresent) ?_
  unfold callsEnough
  omega

theorem smoothPut_refused
    (habsent : digest ∉ dir.blobs) (hoffset : (dir.leftover digest).length ≠ offset) :
    ∃ error, smoothPut sha256 sizes dir ⟨digest, offset, hexEncode bytes, eof⟩ =
      (dir, some (.error error)) := by
  refine ⟨_, smoothPut_of_ends ((put_eq hvalid hlength).symm ▸ ends_refused habsent hoffset) ?_⟩
  unfold callsEnough
  omega

theorem smoothPut_more
    (habsent : digest ∉ dir.blobs) (hoffset : (dir.leftover digest).length = offset) :
    ∃ dir', smoothPut sha256 sizes dir ⟨digest, offset, hexEncode bytes, false⟩ =
        (dir', some (.ok false)) ∧ digest ∉ dir'.blobs ∧
      dir'.leftover digest = dir.leftover digest ++ bytes := by
  obtain ⟨dir₁, file, hblobs, hfile, hcontents, hends⟩ :=
    @ends_appended sha256 dir digest offset bytes false habsent hoffset
  have hsynced : Ends sha256 dir₁ (putAt digest offset bytes false .syncing) 1 dir₁ (.ok false) :=
    .step fun count => ⟨dir₁, putAt digest offset bytes false (.ended (.ok false)), rfl, .ended rfl⟩
  refine ⟨dir₁, smoothPut_of_ends ((put_eq hvalid hlength).symm ▸ hends _ _ _ hsynced) ?_, ?_, ?_⟩
  · simp only [callsEnough, utf8ByteSize_hexEncode]
    omega
  · rwa [hblobs]
  · rw [← hcontents]
    simp [BlobDir.leftover, hfile]

theorem smoothPut_last
    (habsent : digest ∉ dir.blobs) (hoffset : (dir.leftover digest).length = offset)
    (hhash : sha256 (dir.leftover digest ++ bytes) = digest) :
    ∃ dir', smoothPut sha256 sizes dir ⟨digest, offset, hexEncode bytes, true⟩ =
        (dir', some (.ok true)) ∧ dir'.blob digest = some (dir.leftover digest ++ bytes) := by
  obtain ⟨dir₁, file, hblobs, hfile, hcontents, hends⟩ :=
    @ends_appended sha256 dir digest offset bytes true habsent hoffset
  have hplaced : Ends sha256 dir₁ (putAt digest offset bytes true
      (if sha256 (dir₁.contents file) = digest then .placing file
        else .ended (.error (mismatch sha256 (putAt digest offset bytes true .syncing)
          (dir₁.contents file))))) 1
      { dir₁ with
        partials := dir₁.partials.erase digest
        blobs := dir₁.blobs.insert digest file } (.ok true) := by
    rw [if_pos (by rw [hcontents, hhash])]
    exact ends_placing hfile
  have hhashed := ends_hashOpening hfile hplaced
  have hsynced : Ends sha256 dir₁ (putAt digest offset bytes true .syncing) _ _ (.ok true) :=
    .step fun _ => ⟨dir₁, putAt digest offset bytes true .hashOpening, rfl, hhashed⟩
  refine ⟨_, smoothPut_of_ends ((put_eq hvalid hlength).symm ▸ hends _ _ _ hsynced) ?_, ?_⟩
  · simp only [callsEnough, utf8ByteSize_hexEncode, hcontents, length_append]
    omega
  · simp [BlobDir.blob, hcontents]

end

/-! ### Chunk after chunk -/

theorem play_typed {World α β : Type}
    {world : World → ClientCall → World × Except NodeClientError ClientReply} {s s' : World}
    {call : ClientCall} {reply : ClientReply} {read : ClientReply → Option α} {value : α}
    {f : α → NodeClient β} (hworld : world s call = (s', .ok reply))
    (hread : read reply = some value) :
    Script.play world s (NodeClient.typed call read >>= f).run = Script.play world s' (f value).run := by
  show Script.play world (world s call).1 _ = _
  simp only [hworld, Except.bind, hread]
  rfl

theorem play_typed_error {World α β : Type}
    {world : World → ClientCall → World × Except NodeClientError ClientReply} {s s' : World}
    {call : ClientCall} {error : NodeClientError} {read : ClientReply → Option α}
    {f : α → NodeClient β} (hworld : world s call = (s', .error error)) :
    Script.play world s (NodeClient.typed call read >>= f).run = (s', .error error) := by
  show Script.play world (world s call).1 _ = _
  simp only [hworld]
  rfl

section Play

variable {World β : Type} {world : World → ClientCall → World × Except NodeClientError ClientReply}
  {s s' : World}

theorem play_readBlob {chunk : BlobChunk} {f : BlobChunk → NodeClient β}
    (hworld : world s (.request .source (.checkpointBlobRead digest offset (512 * 1024))) =
      (s', .ok (.node (.chunk chunk)))) :
    Script.play world s (NodeClient.readBlob digest offset >>= f).run =
      Script.play world s' (f chunk).run :=
  play_typed hworld rfl

theorem play_putBlob {params : BlobPutParams} {complete : Bool} {f : Bool → NodeClient β}
    (hworld : world s (.request .target (.checkpointBlobPut params)) =
      (s', .ok (.node (.complete complete)))) :
    Script.play world s (NodeClient.putBlob params >>= f).run =
      Script.play world s' (f complete).run :=
  play_typed hworld rfl

theorem play_putBlob_error {params : BlobPutParams} {error : NodeClientError}
    {f : Bool → NodeClient β}
    (hworld : world s (.request .target (.checkpointBlobPut params)) = (s', .error error)) :
    Script.play world s (NodeClient.putBlob params >>= f).run = (s', .error error) :=
  play_typed_error hworld

end Play

/-- The chunk that a source sends from this offset on. -/
def chunkAt (bytes : List UInt8) (offset : Nat) : List UInt8 := (bytes.drop offset).take (512 * 1024)

theorem length_chunkAt (bytes : List UInt8) (offset : Nat) :
    (chunkAt bytes offset).length = min (512 * 1024) (bytes.length - offset) := by
  rw [chunkAt, length_take, length_drop]

variable {source : NodeDisk}

theorem readBlob_chunk (hvalid : ValidDigest digest)
    (hsource : source.blobs.lookup digest = some bytes) (hoffset : offset ≤ bytes.length) :
    smoothWorld sha256 sizes source dir (.request .source (.checkpointBlobRead digest offset
      (512 * 1024))) = (dir, .ok (.node (.chunk ⟨digest, offset, hexEncode (chunkAt bytes offset),
        offset + (chunkAt bytes offset).length = bytes.length⟩))) := by
  have hchunk : (Handler.exec (CheckpointStore.readBlob digest offset (512 * 1024))
      ⟨source, []⟩).1 = .ok ⟨digest, offset, hexEncode (chunkAt bytes offset),
        offset + (chunkAt bytes offset).length = bytes.length⟩ := by
    unfold CheckpointStore.readBlob validateDigest refuseIf readDisk fileOperation refuseIf
    simp [Handler.exec_bind, hvalid.1, hvalid.2, hsource, Nat.not_lt.mpr hoffset, chunkAt,
      maxChunkBytes]
    rfl
  simp [smoothWorld, hchunk]

theorem transfer_loop (before : Nat → BlobDir → Prop) (after : BlobDir → Prop)
    (hvalid : ValidDigest digest) (hsource : source.blobs.lookup digest = some bytes)
    (hsize : bytes.length < 2 ^ 64)
    (hput : ∀ offset dir, before offset dir → offset ≤ bytes.length → ∃ dir' complete,
      smoothPut sha256 sizes dir ⟨digest, offset, hexEncode (chunkAt bytes offset),
        offset + (chunkAt bytes offset).length = bytes.length⟩ = (dir', some (.ok complete)) ∧
      (offset + (chunkAt bytes offset).length = bytes.length → complete = true ∧ after dir') ∧
      (offset + (chunkAt bytes offset).length ≠ bytes.length →
        before (offset + (chunkAt bytes offset).length) dir'))
    {chunks : Nat} (hbefore : before offset dir) (hoffset : offset ≤ bytes.length)
    (hchunks : (bytes.length - offset) / (512 * 1024) < chunks) :
    ∃ dir', Script.play (smoothWorld sha256 sizes source) dir
      (NodeClient.transferBlob digest chunks offset).run = (dir', .ok ()) ∧ after dir' := by
  induction chunks generalizing offset dir with
  | zero => omega
  | succ chunks ih =>
    obtain ⟨dir', complete, hsmooth, hlast, hmore⟩ := hput offset dir hbefore hoffset
    have hlength := length_chunkAt bytes offset
    have hworld : smoothWorld sha256 sizes source dir (.request .target (.checkpointBlobPut
        ⟨digest, offset, hexEncode (chunkAt bytes offset),
          offset + (chunkAt bytes offset).length = bytes.length⟩)) =
        (dir', .ok (.node (.complete complete))) := by
      simp [smoothWorld, hsmooth, putReply]
    rw [NodeClient.transferBlob, play_readBlob (readBlob_chunk hvalid hsource hoffset),
      play_putBlob hworld]
    by_cases hend : offset + (chunkAt bytes offset).length = bytes.length
    · obtain ⟨rfl, hafter⟩ := hlast hend
      exact ⟨dir', by simp [hend]; rfl, hafter⟩
    have hnext : min (offset + (hexEncode (chunkAt bytes offset)).utf8ByteSize / 2)
        (2 ^ 64 - 1) = offset + (chunkAt bytes offset).length := by
      rw [utf8ByteSize_hexEncode]
      omega
    obtain ⟨dir'', hplay, hafter⟩ := ih (hmore hend) (by omega) (by omega)
    refine ⟨dir'', ?_, hafter⟩
    simp only [hend, decide_false, Bool.false_eq_true, if_false, hnext]
    exact hplay

theorem length_chunkAt_le (bytes : List UInt8) (offset : Nat) :
    (chunkAt bytes offset).length ≤ maxChunkBytes := by
  rw [length_chunkAt]
  exact (Nat.min_le_left _ _).trans (by decide)

theorem take_chunkAt (bytes : List UInt8) (offset : Nat) :
    bytes.take offset ++ chunkAt bytes offset =
      bytes.take (offset + (chunkAt bytes offset).length) := by
  rw [chunkAt, length_take, take_add, ← take_eq_take_min]

section
variable (hvalid : ValidDigest digest) (hsource : source.blobs.lookup digest = some bytes)
include hvalid hsource

theorem transfer_present (hsize : bytes.length < 2 ^ 64)
    {chunks : Nat} (hchunks : bytes.length / (512 * 1024) < chunks)
    (hpresent : digest ∈ dir.blobs) :
    smoothTransfer sha256 sizes source digest chunks dir = (dir, .ok ()) := by
  obtain ⟨dir', hplay, hsame⟩ := transfer_loop (fun _ d => d = dir) (· = dir) hvalid hsource hsize
    (fun offset d hd _ => ⟨d, true, smoothPut_present hvalid
      (length_chunkAt_le bytes offset) (hd ▸ hpresent), fun _ => ⟨rfl, hd⟩, fun _ => hd⟩)
    rfl (Nat.zero_le _) (by simpa using hchunks)
  exact hsame ▸ hplay

theorem transfer_absent (hsize : bytes.length < 2 ^ 64)
    (hhash : sha256 bytes = digest) {chunks : Nat} (hchunks : bytes.length / (512 * 1024) < chunks)
    (habsent : digest ∉ dir.blobs) (hleft : dir.leftover digest = []) :
    ∃ dir', smoothTransfer sha256 sizes source digest chunks dir = (dir', .ok ()) ∧
      dir'.blob digest = some bytes := by
  refine transfer_loop (fun offset d => digest ∉ d.blobs ∧ d.leftover digest = bytes.take offset)
    (fun d => d.blob digest = some bytes) hvalid hsource hsize ?_
    ⟨habsent, by simpa using hleft⟩ (Nat.zero_le _) (by simpa using hchunks)
  rintro offset d ⟨habsent, hleft⟩ hoffset
  have hlength : (d.leftover digest).length = offset := by
    rw [hleft, length_take]
    omega
  by_cases hend : offset + (chunkAt bytes offset).length = bytes.length
  · have hall : d.leftover digest ++ chunkAt bytes offset = bytes := by
      rw [hleft, take_chunkAt, hend, take_length]
    obtain ⟨d', hput, hblob⟩ := @smoothPut_last sha256 sizes _ _ _ _ hvalid
      (length_chunkAt_le bytes offset) habsent hlength (by rw [hall, hhash])
    exact ⟨d', true, by simpa [hend] using hput, fun _ => ⟨rfl, hall ▸ hblob⟩,
      fun hne => absurd hend hne⟩
  obtain ⟨d', hput, habsent', hleft'⟩ := @smoothPut_more sha256 sizes _ _ _ _ hvalid
    (length_chunkAt_le bytes offset) habsent hlength
  refine ⟨d', false, by simpa [hend] using hput, fun heq => absurd heq hend, fun _ => ⟨habsent', ?_⟩⟩
  rw [hleft', hleft, take_chunkAt]

theorem transfer_refused {chunks : Nat} (habsent : digest ∉ dir.blobs)
    (hleft : dir.leftover digest ≠ []) :
    ∃ error, smoothTransfer sha256 sizes source digest chunks dir = (dir, .error error) := by
  cases chunks with
  | zero => exact ⟨_, rfl⟩
  | succ chunks =>
    have hoffset : (dir.leftover digest).length ≠ 0 := by
      simpa using hleft
    obtain ⟨error, hput⟩ := @smoothPut_refused sha256 sizes dir digest 0 (chunkAt bytes 0) (0 +
      (chunkAt bytes 0).length = bytes.length) hvalid (length_chunkAt_le bytes 0) habsent hoffset
    have hworld : smoothWorld sha256 sizes source dir (.request .target (.checkpointBlobPut
        ⟨digest, 0, hexEncode (chunkAt bytes 0), 0 + (chunkAt bytes 0).length = bytes.length⟩)) =
        (dir, .error (.control (error.toControl ""))) := by
      simp only [smoothWorld, hput, putReply]
    refine ⟨.control (error.toControl ""), ?_⟩
    rw [smoothTransfer, NodeClient.transferBlob,
      play_readBlob (readBlob_chunk hvalid hsource (Nat.zero_le _)), play_putBlob_error hworld]

end

end Smooth

/-! ### Every history -/

/--
**An interrupted transfer recovers just where it has left nothing.**  After any transfers,
of any blobs, cut off anywhere and with anything for an answer, a transfer that is not
interrupted, from a source that has the blob, completes and leaves the blob on the target
if and only if the blob was there already or no part of it is left.
-/
theorem transfer_recovers_iff (hinjective : Function.Injective sha256) {source : NodeDisk}
    {bytes : List UInt8} (hvalid : ValidDigest (sha256 bytes))
    (hsource : source.blobs.lookup (sha256 bytes) = some bytes) (hsize : bytes.length < 2 ^ 64)
    {chunks : Nat} (hchunks : bytes.length / (512 * 1024) < chunks)
    (attempts : List TransferAttempt) (sizes : BlobPutParams → Nat → Nat) :
    let dir := TransferAttempt.history sha256 attempts
    let ended := smoothTransfer sha256 sizes source (sha256 bytes) chunks dir
    (ended.2 = .ok () ∧ ended.1.blob (sha256 bytes) = some bytes) ↔
      (sha256 bytes ∈ dir.blobs ∨ dir.leftover (sha256 bytes) = []) := by
  intro dir ended
  have htidy : dir.Tidy sha256 := history_tidy attempts
  by_cases hpresent : sha256 bytes ∈ dir.blobs
  · have hended : ended = (dir, .ok ()) := transfer_present hvalid hsource hsize hchunks hpresent
    obtain ⟨file, hfile⟩ := AList.lookup_isSome.mpr hpresent |> Option.isSome_iff_exists.mp
    have hcontents : dir.contents file = bytes := hinjective (htidy.addressed _ file hfile)
    simp [hended, hpresent, BlobDir.blob, hfile, hcontents]
  by_cases hleft : dir.leftover (sha256 bytes) = []
  · obtain ⟨dir', hended, hblob⟩ := transfer_absent hvalid hsource hsize rfl hchunks hpresent hleft
    have hended : ended = (dir', .ok ()) := hended
    simp [hended, hblob, hleft]
  obtain ⟨error, hended⟩ := transfer_refused hvalid hsource hpresent hleft
  have hended : ended = (dir, .error error) := hended
  simp [hended, hpresent, hleft]

/-! ### One blob, sent twice -/

def sampleSource : NodeDisk :=
  { blobs := (∅ : Table String (List UInt8)).insert (sampleSha256 [0x61]) [0x61] }

/-- The chunk is written, and is not synced. -/
def unsynced : TransferAttempt where
  digest := sampleSha256 [0x61]
  chunks := 1
  outcomes := [.answers (.node (.chunk ⟨sampleSha256 [0x61], 0, "61", true⟩)),
    .puts (List.replicate 5 (.does 1) ++ [.fails]) "No space left on device" none]

theorem transfer_recovers_iff_unsynced :
    (smoothTransfer sampleSha256 (fun _ _ => 1) sampleSource (sampleSha256 [0x61]) 1
        (TransferAttempt.history sampleSha256 [])).2 = .ok () ∧
      ¬((smoothTransfer sampleSha256 (fun _ _ => 1) sampleSource (sampleSha256 [0x61]) 1
          (TransferAttempt.history sampleSha256 [unsynced])).2 = .ok () ∧
        (smoothTransfer sampleSha256 (fun _ _ => 1) sampleSource (sampleSha256 [0x61]) 1
          (TransferAttempt.history sampleSha256 [unsynced])).1.blob (sampleSha256 [0x61]) =
            some [0x61]) := by
  have hvalid : ValidDigest (sampleSha256 [0x61]) := by decide
  have hsource : sampleSource.blobs.lookup (sampleSha256 [0x61]) = some [0x61] := rfl
  have hchunks : [(0x61 : UInt8)].length / (512 * 1024) < 1 := by decide
  have hiff (attempts : List TransferAttempt) := transfer_recovers_iff sampleSha256_injective
    hvalid hsource (by decide) hchunks attempts fun _ _ => 1
  exact ⟨((hiff []).mpr (.inr rfl)).1, fun h => absurd ((hiff [unsynced]).mp h) (by decide)⟩

/-- A transfer that has failed once may fail for ever. -/
theorem transfer_never_recovers : ¬∀ sha256 : List UInt8 → String, Function.Injective sha256 →
      ∀ (source : NodeDisk) (bytes : List UInt8), ValidDigest (sha256 bytes) →
        source.blobs.lookup (sha256 bytes) = some bytes → bytes.length < 2 ^ 64 →
        ∀ chunks, bytes.length / (512 * 1024) < chunks →
        ∀ (attempts : List TransferAttempt) (sizes : BlobPutParams → Nat → Nat),
          (smoothTransfer sha256 sizes source (sha256 bytes) chunks
            (TransferAttempt.history sha256 attempts)).2 = .ok () := by
  intro h
  have hvalid : ValidDigest (sampleSha256 [0x61]) := by decide
  have hdone := h sampleSha256 sampleSha256_injective sampleSource [0x61] hvalid rfl (by decide) 1
    (by decide) [unsynced] fun _ _ => 1
  revert hdone
  decide

end Diri
