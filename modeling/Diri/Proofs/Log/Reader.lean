/-
A reader of a log another process owns.

The reader keeps what it learned at its last refresh, a base and a tail, and a handle
on the file it learned it from.  A rotation puts a new file at the path, and the
retired one stays behind the handle, unchanged.  So every file there ever was holds a
snapshot of the stream (`Archive`), and a read through a handle on a file with the
base the reader knows is a read of the stream.

What goes wrong is outside of that.  The reader's oldest offset is the smaller of the
base and of the tail at the time it was opened, so a range asked for below a newer base
is not moved up to it before its end is computed.  And a handle that was dropped is
opened anew on whatever file is at the path by then.
-/
import Diri.Proofs.Log.Writer

namespace Diri

open List Option

/-- The owner's log, the disk, and the reader once it is open. -/
structure Pair where
  writer : OutputLog
  disk : Disk
  reader : Option OutputLog

/-- What the owner and the reader do, in any order. -/
inductive PairInput
  | append (data : List UInt8)
  | openReader (ringCapacity diskCapacity : Nat)
  | refresh
  | invalidate
  | read (fromOffset maxBytes : Nat)
  deriving DecidableEq, Repr

def pairStep (p : Pair) : PairInput → Option Pair
  | .append data => (p.writer.append data none p.disk).map fun r =>
    { p with writer := r.1, disk := r.2.1 }
  | .openReader ringCapacity diskCapacity =>
    let opened := OutputLog.openLog ringCapacity diskCapacity true p.disk
    some { p with reader := some opened.1, disk := opened.2 }
  | .refresh => some { p with reader := p.reader.map fun log => (log.refreshFromDisk p.disk).2 }
  | .invalidate => some { p with reader := p.reader.map OutputLog.invalidateReadHandle }
  | .read fromOffset maxBytes =>
    match p.reader with
    | none => some p
    | some log => (log.read fromOffset maxBytes p.disk).map fun r =>
      { p with reader := some r.2 }

/-- A new log, its owner's appends and a reader's calls; `none` is a panic. -/
def pairRun (ringCapacity diskCapacity : Nat) (inputs : List PairInput) : Option Pair :=
  let opened := OutputLog.openLog ringCapacity diskCapacity false .empty
  partialRun pairStep ⟨opened.1, opened.2, none⟩ inputs

def PairInput.data : PairInput → List UInt8
  | .append data => data
  | _ => []

def pairStream (inputs : List PairInput) : List UInt8 := inputs.flatMap PairInput.data

/-! ### Every file is a snapshot -/

/-- Every file there ever was, at the path or retired, is a header and a part of the stream. -/
def Archive (S : List UInt8) (disk : Disk) : Prop :=
  ∀ (inode : Inode) bytes, disk.inodes[inode]? = some bytes →
    ∃ base kept, bytes = header base ++ kept ∧ Snapshot S base kept

/-- A reader's tail is not before its base, and it holds nothing in memory. -/
structure Reads (log : OutputLog) : Prop where
  readOnly : log.readOnly = true
  base_le_tail : log.fileBaseOffset ≤ log.tailOffset

structure PairInv (S : List UInt8) (p : Pair) : Prop where
  writer : WriterInv S {} (p.writer, p.disk)
  archive : Archive S p.disk
  reader : ∀ log, p.reader = some log → Reads log

variable {S : List UInt8} {log : OutputLog}

theorem append_archive {log log' : OutputLog} {disk disk' : Disk}
    {data : List UInt8} {ok : Bool} (hwriter : WriterInv S {} (log, disk))
    (hwriter' : WriterInv (S ++ data) {} (log', disk')) (harchive : Archive S disk)
    (happend : log.append data none disk = some (log', disk', ok)) : Archive (S ++ data) disk' := by
  rcases append_eq happend with ⟨rfl, rfl, rfl⟩ | ⟨-, -, hdisk⟩
  · rw [append_nil]
    exact harchive
  intro inode bytes hbytes
  obtain ⟨current, kept, hfile, -, hkeeps⟩ := hwriter.file
  have hfile' : (appended data log).FileAt disk current kept :=
    ⟨hfile.path, hfile.write, hfile.cached, hfile.stored⟩
  have hcases := hfile'.appendToDisk_inodes hwriter.writer data
    (show ((appended data log).appendToDisk data none disk).2.1.inodes[inode]? = some bytes by
      rw [hdisk]
      exact hbytes)
  rw [hdisk] at hcases
  rcases hcases with hold | hwritten | hpath
  · obtain ⟨base, kept', rfl, hsnapshot⟩ := harchive inode bytes hold
    exact ⟨base, kept', rfl, hsnapshot.grow data⟩
  · exact ⟨_, _, hwritten, ((hkeeps.window rfl).append data).snapshot⟩
  obtain ⟨newest, kept', hnewest, -, hkeeps'⟩ := hwriter'.file
  obtain rfl : newest = inode := some.inj (hnewest.path.symm.trans hpath)
  obtain rfl := some.inj (hnewest.stored.symm.trans hbytes)
  exact ⟨_, _, rfl, (hkeeps'.window rfl).snapshot⟩

theorem write_whole (tail : Nat) (data : List UInt8) :
    ({} : Damage).write tail (reaching data none) data.length = {} := by
  unfold Damage.write reaching
  simp

theorem openReader_eq {w : OutputLog × Disk} (h : WriterInv S {} w)
    (ringCapacity diskCapacity : Nat) :
    ∃ log, OutputLog.openLog ringCapacity diskCapacity true w.2 = (log, w.2) ∧ Reads log := by
  obtain ⟨inode, kept, -, -, hexisting⟩ := h.existing rfl
  unfold OutputLog.openLog OutputLog.openOrRecover
  rw [hexisting]
  exact ⟨_, rfl, rfl, Nat.le_add_right _ _⟩

theorem Reads.readerHandle (h : Reads log) (disk : Disk) : Reads (log.readerHandle disk) := by
  unfold OutputLog.readerHandle
  split
  · exact ⟨h.readOnly, h.base_le_tail⟩
  · exact h

theorem Reads.refreshFromDisk (h : Reads log) (disk : Disk) :
    Reads (log.refreshFromDisk disk).2 := by
  have hhandle := h.readerHandle disk
  unfold OutputLog.refreshFromDisk
  rw [if_neg (by rw [h.readOnly]; exact Bool.false_ne_true)]
  dsimp only
  split
  · exact hhandle
  split
  · exact hhandle
  · exact ⟨hhandle.readOnly, Nat.le_add_right _ _⟩

theorem PairInv.step {p p' : Pair} (h : PairInv S p) {i : PairInput}
    (hstep : pairStep p i = some p') : PairInv (S ++ i.data) p' := by
  obtain ⟨hwriter, harchive, hreader⟩ := h
  cases i with
  | append data =>
    obtain ⟨⟨log', disk', ok⟩, happend, rfl⟩ := map_eq_some_iff.mp hstep
    have hwriter' := hwriter.append happend
    rw [write_whole] at hwriter'
    exact ⟨hwriter', append_archive hwriter hwriter' harchive happend, hreader⟩
  | openReader ringCapacity diskCapacity =>
    obtain ⟨log, hopen, hreads⟩ := openReader_eq hwriter ringCapacity diskCapacity
    have hopened : pairStep p (.openReader ringCapacity diskCapacity)
        = some { p with reader := some log } := by
      unfold pairStep
      dsimp only
      rw [show OutputLog.openLog ringCapacity diskCapacity true p.disk = (log, p.disk) from hopen]
    obtain rfl := some.inj (hopened.symm.trans hstep)
    rw [show (PairInput.openReader ringCapacity diskCapacity).data = [] from rfl, append_nil]
    refine ⟨hwriter, harchive, ?_⟩
    intro other hother
    obtain ⟨⟩ := hother
    exact hreads
  | refresh =>
    obtain ⟨⟩ := hstep
    rw [show PairInput.refresh.data = [] from rfl, append_nil]
    refine ⟨hwriter, harchive, ?_⟩
    intro other hother
    obtain ⟨log, hlog, rfl⟩ := map_eq_some_iff.mp hother
    exact (hreader log hlog).refreshFromDisk p.disk
  | invalidate =>
    obtain ⟨⟩ := hstep
    rw [show PairInput.invalidate.data = [] from rfl, append_nil]
    refine ⟨hwriter, harchive, ?_⟩
    intro other hother
    obtain ⟨log, hlog, rfl⟩ := map_eq_some_iff.mp hother
    exact ⟨(hreader log hlog).readOnly, (hreader log hlog).base_le_tail⟩
  | read fromOffset maxBytes =>
    rw [show (PairInput.read fromOffset maxBytes).data = [] from rfl, append_nil]
    unfold pairStep at hstep
    cases hlog : p.reader with
    | none =>
      rw [hlog] at hstep
      obtain ⟨⟩ := hstep
      exact ⟨hwriter, harchive, hreader⟩
    | some log =>
      rw [hlog] at hstep
      obtain ⟨⟨result, log'⟩, hread, rfl⟩ := map_eq_some_iff.mp hstep
      refine ⟨hwriter, harchive, ?_⟩
      intro other hother
      obtain ⟨⟩ := hother
      rcases read_fst hread with hsame | hhandle
      · rw [show log' = log from hsame]
        exact hreader log hlog
      · rw [show log' = log.readerHandle p.disk from hhandle]
        exact (hreader log hlog).readerHandle p.disk

theorem pairRun_inv {ringCapacity diskCapacity : Nat} {inputs : List PairInput} {p : Pair}
    (hrun : pairRun ringCapacity diskCapacity inputs = some p) : PairInv (pairStream inputs) p := by
  refine partialRun_induction (P := fun inputs p => PairInv (pairStream inputs) p) ?_ ?_ hrun
  · refine ⟨WriterInv.openLog ringCapacity diskCapacity, ?_, ?_⟩
    · intro inode bytes hbytes
      have hwriter := WriterInv.openLog ringCapacity diskCapacity
      obtain ⟨first, kept, hfile, -, hkeeps⟩ := hwriter.file
      have hone : inode = 0 := by
        obtain ⟨hlt, -⟩ := List.getElem?_eq_some_iff.mp hbytes
        exact Nat.lt_one_iff.mp hlt
      have hfirst : first = 0 := some.inj (hfile.path.symm.trans rfl)
      subst hone hfirst
      obtain rfl := some.inj (hfile.stored.symm.trans hbytes)
      exact ⟨_, _, rfl, (hkeeps.window rfl).snapshot⟩
    · intro log hlog
      exact absurd hlog (by simp)
  intro inputs p i p' ih hstep
  have hstream : pairStream (inputs ++ [i]) = pairStream inputs ++ i.data := by
    simp [pairStream]
  rw [hstream]
  exact ih.step hstep

/-! ### What a read gives -/

/-- The file a read will use has the base the reader knows. -/
def Synced (log : OutputLog) (disk : Disk) : Prop :=
  ∀ inode, (log.readerHandle disk).readHandle = some inode →
    readHeader (disk.content inode) = some log.fileBaseOffset

/-- There is nothing to read, or the range asked for ends at an offset, and not below
    the base. -/
def Serves (log : OutputLog) (fromOffset maxBytes : Nat) : Prop :=
  log.tailOffset ≤ log.readStart fromOffset ∨
    (log.readStart fromOffset + maxBytes < 2 ^ 64 ∧
      log.fileBaseOffset ≤ log.readStart fromOffset + maxBytes)

/-- What a read owes its caller. -/
structure Faithful (S : List UInt8) (log : OutputLog) (fromOffset maxBytes start : Nat)
    (bytes : List UInt8) : Prop where
  start_le : fromOffset ≤ start ∨ start = log.tailOffset
  isPrefix : bytes <+: S.drop start
  below : fromOffset + maxBytes ≤ log.fileBaseOffset → start = log.fileBaseOffset ∨ bytes = []

theorem Reads.read_eq (h : Reads log) (disk : Disk) (fromOffset maxBytes : Nat) :
    log.read fromOffset maxBytes disk =
      if log.tailOffset ≤ log.readStart fromOffset then some ((log.tailOffset, []), log)
      else if 2 ^ 64 ≤ log.readStart fromOffset + maxBytes then none
      else log.readFromDisk (log.readStart fromOffset)
        (min log.tailOffset (log.readStart fromOffset + maxBytes)) disk := by
  unfold OutputLog.read
  dsimp only
  rw [h.readOnly]
  simp only [Bool.not_true, Bool.false_and, Bool.false_eq_true, if_false]

theorem readFromDisk_eq {disk : Disk} {inode : Inode}
    (h : (log.readerHandle disk).readHandle = some inode) (fromOffset toOffset : Nat) :
    log.readFromDisk fromOffset toOffset disk =
      if toOffset < max fromOffset log.fileBaseOffset then none
      else some ((max fromOffset log.fileBaseOffset,
        ((disk.content inode).drop (headerSize + (max fromOffset log.fileBaseOffset
          - log.fileBaseOffset))).take (toOffset - max fromOffset log.fileBaseOffset)),
        log.readerHandle disk) := by
  unfold OutputLog.readFromDisk
  dsimp only
  rw [h]

theorem PairInv.handle {p : Pair} (h : PairInv S p) (log : OutputLog) :
    ∃ inode, (log.readerHandle p.disk).readHandle = some inode := by
  obtain ⟨inode, kept, hfile, -, -⟩ := h.writer.file
  unfold OutputLog.readerHandle
  cases hcached : log.readHandle with
  | none => exact ⟨inode, hfile.path⟩
  | some other => exact ⟨other, hcached⟩

theorem serves_iff (h : Reads log) {fromOffset maxBytes : Nat}
    (hinside : log.readStart fromOffset < log.tailOffset)
    (hfits : log.readStart fromOffset + maxBytes < 2 ^ 64) :
    Serves log fromOffset maxBytes ↔ ¬min log.tailOffset (log.readStart fromOffset + maxBytes)
        < max (log.readStart fromOffset) log.fileBaseOffset := by
  have hbase := h.base_le_tail
  unfold Serves
  omega

theorem PairInv.read_isSome {p : Pair} (h : PairInv S p)
    (hlog : p.reader = some log) (fromOffset maxBytes : Nat) :
    (log.read fromOffset maxBytes p.disk).isSome = true ↔ Serves log fromOffset maxBytes := by
  have hreads := h.reader log hlog
  obtain ⟨inode, hinode⟩ := h.handle log
  rw [hreads.read_eq]
  by_cases hpast : log.tailOffset ≤ log.readStart fromOffset
  · rw [if_pos hpast]
    exact ⟨fun _ => Or.inl hpast, fun _ => rfl⟩
  rw [if_neg hpast]
  by_cases hover : 2 ^ 64 ≤ log.readStart fromOffset + maxBytes
  · rw [if_pos hover]
    refine ⟨fun hnone => absurd hnone (by simp), fun hserves => ?_⟩
    rcases hserves with hpast' | ⟨hfits, -⟩
    · exact absurd hpast' hpast
    · omega
  rw [if_neg hover, readFromDisk_eq hinode,
    serves_iff hreads (Nat.lt_of_not_le hpast) (Nat.lt_of_not_le hover)]
  by_cases hunder : min log.tailOffset (log.readStart fromOffset + maxBytes)
      < max (log.readStart fromOffset) log.fileBaseOffset
  · rw [if_pos hunder]
    exact ⟨fun hnone => absurd hnone (by simp), fun hnot => absurd hunder hnot⟩
  · rw [if_neg hunder]
    exact ⟨fun _ => hunder, fun _ => rfl⟩

theorem PairInv.read_faithful {p : Pair} (h : PairInv S p)
    (hlog : p.reader = some log) (hsynced : Synced log p.disk)
    {fromOffset maxBytes start : Nat} {bytes : List UInt8} {log' : OutputLog}
    (hread : log.read fromOffset maxBytes p.disk = some ((start, bytes), log')) :
    Faithful S log fromOffset maxBytes start bytes := by
  have hreads := h.reader log hlog
  obtain ⟨inode, hinode⟩ := h.handle log
  have hfrom : fromOffset ≤ log.readStart fromOffset := Nat.le_max_left _ _
  rw [hreads.read_eq] at hread
  split at hread
  · obtain ⟨rfl, rfl⟩ : log.tailOffset = start ∧ [] = bytes := by
      simpa using congrArg Prod.fst (some.inj hread)
    exact ⟨Or.inr rfl, nil_prefix, fun _ => Or.inr rfl⟩
  split at hread
  · exact absurd hread (by simp)
  rw [readFromDisk_eq hinode] at hread
  split at hread
  · exact absurd hread (by simp)
  obtain ⟨rfl, rfl⟩ := Prod.mk.inj (congrArg Prod.fst (some.inj hread))
  refine ⟨Or.inl (Nat.le_trans hfrom (Nat.le_max_left _ _)), ?_, ?_⟩
  · -- the file behind the handle is a snapshot of the stream, with the reader's base
    have hheader := hsynced inode hinode
    cases hstored : p.disk.inodes[inode]? with
    | none =>
      have hempty : p.disk.content inode = [] := by
        unfold Disk.content
        rw [hstored]
        rfl
      rw [hempty] at hheader
      exact absurd hheader (by simp [readHeader, headerSize])
    | some contents =>
      obtain ⟨base, kept, rfl, hsnapshot⟩ := h.archive inode contents hstored
      rw [Disk.content_of_getElem? hstored] at hheader ⊢
      rw [readHeader_header (Nat.lt_of_le_of_lt hsnapshot.base_le h.writer.fits)] at hheader
      obtain ⟨⟩ := hheader
      rw [drop_header]
      exact hsnapshot.read (Nat.le_max_right _ _) _
  intro hbelow
  left
  have holdest : log.oldestAvailable ≤ log.fileBaseOffset := Nat.min_le_right _ _
  have hstart : log.readStart fromOffset ≤ log.fileBaseOffset :=
    Nat.max_le.mpr ⟨by omega, holdest⟩
  exact Nat.max_eq_right hstart

/--
**A reader's reads are total and faithful where they are served.**  After any run of
the owner's appends and the reader's calls, a read comes back exactly when it is
served; and through a file with the base the reader knows, it comes back with bytes of
the stream at the offset it names, not before the offset asked for, exactly then.
-/
theorem reader_reads_stream (ringCapacity diskCapacity : Nat) (inputs : List PairInput) (p : Pair)
    (hrun : pairRun ringCapacity diskCapacity inputs = some p) (log : OutputLog)
    (hlog : p.reader = some log) (fromOffset maxBytes : Nat) :
    ((log.read fromOffset maxBytes p.disk).isSome = true ↔ Serves log fromOffset maxBytes) ∧
    (Synced log p.disk →
      ((∃ start bytes log', log.read fromOffset maxBytes p.disk = some ((start, bytes), log') ∧
        Faithful (pairStream inputs) log fromOffset maxBytes start bytes) ↔
        Serves log fromOffset maxBytes)) := by
  have hinv := pairRun_inv hrun
  have htotal := hinv.read_isSome hlog fromOffset maxBytes
  refine ⟨htotal, fun hsynced => ⟨?_, ?_⟩⟩
  · rintro ⟨start, bytes, log', hread, -⟩
    exact htotal.mp (by rw [hread]; rfl)
  · intro hserves
    obtain ⟨⟨⟨start, bytes⟩, log'⟩, hread⟩ := isSome_iff_exists.mp (htotal.mpr hserves)
    exact ⟨start, bytes, log', hread, hinv.read_faithful hlog hsynced hread⟩

/-- A reader opened on four bytes, and ten more that rotate the file. -/
def overtaken : List PairInput :=
  [.append [48, 49, 50, 51], .openReader 4 8,
    .append [52, 53, 54, 55, 56, 57, 97, 98, 99, 100], .invalidate]

theorem reader_reads_stream_overtaken :
    ∃ p log, pairRun 4 8 (overtaken ++ [.refresh]) = some p ∧ p.reader = some log ∧
      ((log.read 4 10 p.disk).isSome = true ↔ Serves log 4 10) ∧
      ((∃ start bytes log', log.read 4 10 p.disk = some ((start, bytes), log') ∧
        Faithful (pairStream (overtaken ++ [.refresh])) log 4 10 start bytes) ↔ Serves log 4 10) :=
  have h := reader_reads_stream 4 8 (overtaken ++ [.refresh]) _ rfl _ rfl 4 10
  ⟨_, _, rfl, rfl, h.1, h.2 (by
    intro inode hinode
    obtain rfl : 1 = inode := some.inj hinode
    decide)⟩

/--
**A reader that was overtaken panics, or misaddresses bytes.**  After a refresh the two
bytes from offset 4, where it was opened, lie below the new base 10: the end of the
range is below its start, and the read panics.  Without the refresh, the handle is
opened on the new file, and the read of offset 0 gives the bytes of offset 10.
-/
theorem overtaken_reader_fails :
    (∃ p log, pairRun 4 8 (overtaken ++ [.refresh]) = some p ∧ p.reader = some log ∧
      log.read 4 2 p.disk = none) ∧
    (∃ p log log', pairRun 4 8 overtaken = some p ∧ p.reader = some log ∧
      log.read 0 4 p.disk = some ((0, [97, 98, 99, 100]), log') ∧
      ¬[97, 98, 99, 100] <+: (pairStream overtaken).drop 0) :=
  ⟨⟨_, _, rfl, rfl, rfl⟩, ⟨_, _, _, rfl, rfl, rfl, by decide⟩⟩

end Diri
