/-
The file under a log.

A writer's file is at the log's path, the write handle leads to it, and so does the
cached read handle if there is one: `FileAt`.  Each disk operation of the log is one
lemma about what it makes of that file and what it leaves alone in memory.

The writer's log refines a stream.

Let `S` be everything that was ever appended.  The ring is `S` from some offset on,
the file is `S` from another, each cut at the front on its own schedule, and a read is
a read of `S`.

A write that fails part way leaves a hole in the file, and as long as nothing is
written behind the hole the file is still a part of `S`.  `Damage` tracks the first
hole and whether something was written behind it.
-/
import Diri.Engine.Log
import Diri.Lib.Run
import Diri.Lib.Streams

namespace Diri

open List

/-! ### The header -/

@[simp] theorem length_header (base : Nat) : (header base).length = headerSize := by
  simp [header, headerSize]

theorem drop_header (base : Nat) (payload : List UInt8) (n : Nat) :
    (header base ++ payload).drop (headerSize + n) = payload.drop n := by
  rw [drop_append, length_header, Nat.add_sub_cancel_left,
    drop_eq_nil_of_le (by rw [length_header]; omega), nil_append]

theorem readHeader_header {base : Nat} (hbase : base < 2 ^ 64) (payload : List UInt8) :
    readHeader (header base ++ payload) = some base := by
  have hlong : ¬(header base ++ payload).length < headerSize := by
    rw [List.length_append, length_header]
    omega
  have hmagic : (header base ++ payload).take 4 = beBytes 4 magic := by
    unfold header
    rw [append_assoc, append_assoc, take_left' (length_beBytes _ _)]
  have hbytes : ((header base ++ payload).drop 8).take 8 = beBytes 8 base := by
    have hfront : (beBytes 4 magic ++ beBytes 4 version).length = 8 := by simp
    unfold header
    rw [append_assoc, drop_left' hfront, take_left' (length_beBytes _ _)]
  unfold readHeader
  rw [if_neg hlong, hmagic, hbytes, if_neg, beValue_beBytes]
  · exact hbase
  · simp [beValue_beBytes, magic]

/-! ### The disk -/

namespace Disk

theorem content_of_getElem? {disk : Disk} {inode : Inode} {bytes : List UInt8}
    (h : disk.inodes[inode]? = some bytes) : disk.content inode = bytes := by
  unfold content
  rw [h]
  rfl

theorem append_getElem? {disk : Disk} {inode : Inode} {bytes : List UInt8}
    (h : disk.inodes[inode]? = some bytes) (data : List UInt8) :
    (disk.append inode data).inodes[inode]? = some (bytes ++ data) := by
  simp [append, h]

theorem append_getElem?_ne (disk : Disk) {inode other : Inode} (hne : other ≠ inode)
    (data : List UInt8) : (disk.append inode data).inodes[other]? = disk.inodes[other]? := by
  simp [append, hne.symm]

theorem replace_getElem? (disk : Disk) (contents : List UInt8) :
    (disk.replace contents).inodes[disk.inodes.length]? = some contents := by
  simp [replace]

theorem getElem?_replace {disk : Disk} {inode : Inode} {bytes contents : List UInt8}
    (h : (disk.replace contents).inodes[inode]? = some bytes) :
    disk.inodes[inode]? = some bytes ∨ inode = disk.inodes.length := by
  unfold replace at h
  by_cases hlt : inode < disk.inodes.length
  · rw [getElem?_append_left hlt] at h
    exact Or.inl h
  obtain ⟨hle, -⟩ := List.getElem?_eq_some_iff.mp h
  rw [List.length_append, length_singleton] at hle
  exact Or.inr (Nat.le_antisymm (Nat.le_of_lt_succ hle) (Nat.le_of_not_lt hlt))

end Disk

/-! ### The writer's file -/

namespace OutputLog

def memory (log : OutputLog) : Nat × Nat × List UInt8 × Bool :=
  (log.tailOffset, log.ringStartOffset, log.ring, log.readOnly)

/-- The file a writer's handles lead to, with `kept` behind its header. -/
structure FileAt (log : OutputLog) (disk : Disk) (inode : Inode) (kept : List UInt8) : Prop where
  path : disk.path = some inode
  write : log.writeHandle = some inode
  /-- A cached read handle was opened on this very file. -/
  cached : ∀ other, log.readHandle = some other → other = inode
  stored : disk.inodes[inode]? = some (header log.fileBaseOffset ++ kept)

variable {log : OutputLog} {disk : Disk} {inode : Inode} {kept : List UInt8}

theorem truncateToHalf_eq (h : disk.path = some inode) : log.truncateToHalf disk = ({ log with
          readHandle := none
          fileBaseOffset := log.fileBaseOffset + (log.fileBytes - log.diskCapacity / 2)
          fileBytes := ((disk.content inode).drop
            (headerSize + (log.fileBytes - log.diskCapacity / 2))).length
          writeHandle := some disk.inodes.length
          syncPoints := log.syncPoints.filter
            (log.fileBaseOffset + (log.fileBytes - log.diskCapacity / 2) ≤ ·) },
        disk.replace (header (log.fileBaseOffset + (log.fileBytes - log.diskCapacity / 2)) ++
          (disk.content inode).drop (headerSize + (log.fileBytes - log.diskCapacity / 2))),
        true) := by
  unfold OutputLog.truncateToHalf
  rw [h]
  rfl

theorem appendToDisk_eq (hwriter : log.readOnly = false) (h : log.writeHandle = some inode)
    (data : List UInt8) : log.appendToDisk data none disk =
      if log.diskCapacity < log.fileBytes + data.length then
        OutputLog.truncateToHalf { log with fileBytes := log.fileBytes + data.length }
          (disk.append inode data)
      else ({ log with fileBytes := log.fileBytes + data.length }, disk.append inode data, true) := by
  unfold OutputLog.appendToDisk
  rw [if_neg (by rw [hwriter]; exact Bool.false_ne_true), h]

section
variable (h : log.FileAt disk inode kept)
include h

theorem FileAt.truncateToHalf :
    ∃ inode', (log.truncateToHalf disk).1.FileAt (log.truncateToHalf disk).2.1 inode'
        (kept.drop (log.fileBytes - log.diskCapacity / 2)) ∧
      (log.truncateToHalf disk).1.fileBaseOffset
        = log.fileBaseOffset + (log.fileBytes - log.diskCapacity / 2) ∧
      (log.truncateToHalf disk).1.fileBytes
        = (kept.drop (log.fileBytes - log.diskCapacity / 2)).length ∧
      (log.truncateToHalf disk).1.memory = log.memory := by
  have hkept : (disk.content inode).drop (headerSize + (log.fileBytes - log.diskCapacity / 2))
      = kept.drop (log.fileBytes - log.diskCapacity / 2) := by
    rw [Disk.content_of_getElem? h.stored, drop_header]
  rw [truncateToHalf_eq h.path, hkept]
  refine ⟨disk.inodes.length, ⟨rfl, rfl, ?_, Disk.replace_getElem? _ _⟩, rfl, rfl, rfl⟩
  intro other hother
  exact absurd hother (by simp)

/-- A write that succeeds appends all of the data, and may drop bytes at the front. -/
theorem FileAt.appendToDisk (hwriter : log.readOnly = false) (data : List UInt8) :
    ∃ inode' n, (log.appendToDisk data none disk).1.FileAt
        (log.appendToDisk data none disk).2.1 inode' ((kept ++ data).drop n) ∧
      n ≤ log.fileBytes + data.length ∧
      (log.appendToDisk data none disk).1.fileBaseOffset = log.fileBaseOffset + n ∧
      ((log.appendToDisk data none disk).1.fileBytes = ((kept ++ data).drop n).length ∨
        n = 0 ∧ (log.appendToDisk data none disk).1.fileBytes = log.fileBytes + data.length) ∧
      (log.appendToDisk data none disk).1.memory = log.memory := by
  have hfile : FileAt { log with fileBytes := log.fileBytes + data.length }
      (disk.append inode data) inode (kept ++ data) := by
    refine ⟨h.path, h.write, h.cached, ?_⟩
    rw [Disk.append_getElem? h.stored, append_assoc]
  rw [appendToDisk_eq hwriter h.write]
  by_cases hfull : log.diskCapacity < log.fileBytes + data.length
  · rw [if_pos hfull]
    obtain ⟨inode', hfile', hbase, hbytes, hmemory⟩ := hfile.truncateToHalf
    exact ⟨inode', _, hfile', Nat.sub_le _ _, hbase, Or.inl hbytes, hmemory⟩
  · rw [if_neg hfull]
    exact ⟨inode, 0, hfile, Nat.zero_le _, rfl, Or.inr ⟨rfl, rfl⟩, rfl⟩

theorem FileAt.appendToDisk_inodes
    (hwriter : log.readOnly = false) (data : List UInt8) {other : Inode} {bytes : List UInt8}
    (hother : (log.appendToDisk data none disk).2.1.inodes[other]? = some bytes) :
    disk.inodes[other]? = some bytes ∨ bytes = header log.fileBaseOffset ++ (kept ++ data) ∨
      (log.appendToDisk data none disk).2.1.path = some other := by
  have happended : ∀ {bytes}, (disk.append inode data).inodes[other]? = some bytes →
      disk.inodes[other]? = some bytes ∨ bytes = header log.fileBaseOffset ++ (kept ++ data) := by
    intro bytes hbytes
    by_cases hsame : other = inode
    · subst hsame
      rw [Disk.append_getElem? h.stored, append_assoc] at hbytes
      exact Or.inr (Option.some.inj hbytes).symm
    · rw [Disk.append_getElem?_ne disk hsame] at hbytes
      exact Or.inl hbytes
  rw [appendToDisk_eq hwriter h.write] at hother ⊢
  by_cases hfull : log.diskCapacity < log.fileBytes + data.length
  · rw [if_pos hfull] at hother ⊢
    rw [truncateToHalf_eq (show (disk.append inode data).path = some inode from h.path)] at hother ⊢
    rcases Disk.getElem?_replace hother with hold | hnew
    · rcases happended hold with hold | hwritten
      · exact Or.inl hold
      · exact Or.inr (Or.inl hwritten)
    · exact Or.inr (Or.inr (congrArg some hnew.symm))
  rw [if_neg hfull] at hother
  rcases happended hother with hold | hwritten
  · exact Or.inl hold
  · exact Or.inr (Or.inl hwritten)

theorem FileAt.appendToDisk_fault
    (hwriter : log.readOnly = false) (data : List UInt8) (written : Nat) :
    log.appendToDisk data (some written) disk
        = (log, disk.append inode (data.take written), false) ∧
      log.FileAt (disk.append inode (data.take written)) inode (kept ++ data.take written) := by
  refine ⟨?_, h.path, h.write, h.cached, ?_⟩
  · unfold OutputLog.appendToDisk
    rw [if_neg (by rw [hwriter]; exact Bool.false_ne_true)]
    simp only [h.write]
  · rw [Disk.append_getElem? h.stored, append_assoc]

theorem FileAt.readFromDisk {fromOffset toOffset : Nat}
    (hbase : log.fileBaseOffset ≤ fromOffset) (hto : fromOffset ≤ toOffset) :
    log.readFromDisk fromOffset toOffset disk =
      some ((fromOffset, (kept.drop (fromOffset - log.fileBaseOffset)).take
        (toOffset - fromOffset)), log.readerHandle disk) := by
  have hhandle : (log.readerHandle disk).readHandle = some inode := by
    unfold readerHandle
    cases hcached : log.readHandle with
    | none => exact h.path
    | some other =>
      obtain rfl := h.cached other hcached
      exact hcached
  have hdrop : (disk.content inode).drop (headerSize + (fromOffset - log.fileBaseOffset))
      = kept.drop (fromOffset - log.fileBaseOffset) := by
    rw [Disk.content_of_getElem? h.stored, drop_header]
  unfold OutputLog.readFromDisk
  simp only [hhandle, Nat.max_eq_left hbase, hdrop]
  rw [if_neg (Nat.not_lt.mpr hto)]

theorem FileAt.readerHandle : (log.readerHandle disk).FileAt disk inode kept ∧
      (log.readerHandle disk).memory = log.memory ∧
      (log.readerHandle disk).fileBytes = log.fileBytes ∧
      (log.readerHandle disk).fileBaseOffset = log.fileBaseOffset := by
  unfold OutputLog.readerHandle
  cases hcached : log.readHandle with
  | none =>
    refine ⟨⟨h.path, h.write, ?_, h.stored⟩, rfl, rfl, rfl⟩
    intro other hother
    exact Option.some.inj (hother.symm.trans h.path)
  | some other => exact ⟨h, rfl, rfl, rfl⟩

end

end OutputLog

end Diri

namespace Diri

/-! ### Runs of a writer -/

/-- What a writer's owner does with its log. -/
inductive WriterInput
  /-- With how much of the data reached the file, if the write failed. -/
  | append (data : List UInt8) (fault : Option Nat)
  | read (fromOffset maxBytes : Nat)
  | flush
  | reopen
  deriving DecidableEq, Repr

def writerStep (w : OutputLog × Disk) : WriterInput → Option (OutputLog × Disk)
  | .append data fault => (w.1.append data fault w.2).map fun r => (r.1, r.2.1)
  | .read fromOffset maxBytes => (w.1.read fromOffset maxBytes w.2).map fun r => (r.2, w.2)
  | .flush => some w
  | .reopen => some (OutputLog.openLog w.1.ringCapacity w.1.diskCapacity false w.2)

/-- A new log, run on `inputs`; `none` is a panic. -/
def writerRun (ringCapacity diskCapacity : Nat) (inputs : List WriterInput) :
    Option (OutputLog × Disk) :=
  partialRun writerStep (OutputLog.openLog ringCapacity diskCapacity false .empty) inputs

def WriterInput.data : WriterInput → List UInt8
  | .append data _ => data
  | _ => []

def stream (inputs : List WriterInput) : List UInt8 := inputs.flatMap WriterInput.data

theorem stream_concat (inputs : List WriterInput) (i : WriterInput) :
    stream (inputs ++ [i]) = stream inputs ++ i.data := by
  simp [stream]

/-- The first hole of the file, and whether bytes were written behind it. -/
structure Damage where
  hole : Option Nat := none
  buried : Bool := false
  deriving DecidableEq, Repr

/-- How much of an append reaches the file. -/
def reaching (data : List UInt8) (fault : Option Nat) : Nat :=
  min (fault.getD data.length) data.length

/-- What a write does to a file that should end at `tail`, if only `reached` bytes of
    `length` got there. -/
def Damage.write (damage : Damage) (tail reached length : Nat) : Damage :=
  match damage.hole with
  | some _ => { damage with buried := damage.buried || decide (0 < reached) }
  | none => if reached < length then { hole := some (tail + reached) } else damage

def Damage.next (tail : Nat) (damage : Damage) : WriterInput → Damage
  | .append data fault => damage.write tail (reaching data fault) data.length
  | _ => damage

def damage (inputs : List WriterInput) : Damage :=
  (inputs.foldl (fun d i => (d.1 + i.data.length, d.2.next d.1 i)) (0, ({} : Damage))).2

theorem damage_concat (inputs : List WriterInput) (i : WriterInput) :
    damage (inputs ++ [i]) = (damage inputs).next (stream inputs).length i := by
  have htail : (inputs.foldl (fun d i => (d.1 + i.data.length, d.2.next d.1 i))
      (0, ({} : Damage))).1 = (stream inputs).length := by
    induction inputs using List.reverseRecOn with
    | nil => rfl
    | append_singleton inputs i ih =>
      rw [List.foldl_append, stream_concat, List.length_append, ← ih]
      rfl
  unfold damage
  rw [List.foldl_append, ← htail]
  rfl

/-! ### The invariant -/

/-- The offset up to which the file has every byte in its place. -/
def Damage.sound (d : Damage) (S : List UInt8) : Nat := d.hole.getD S.length

/-- What a file keeps of the stream behind its base, given its damage. -/
structure Keeps (S : List UInt8) (d : Damage) (base : Nat) (kept : List UInt8) : Prop where
  hole_le : d.sound S ≤ S.length
  unhurt : d.hole = none → d.buried = false
  length_le : base + kept.length ≤ S.length
  sound : (S.take (d.sound S)).drop base <+: kept
  exact : d.buried = false → kept = (S.take (d.sound S)).drop base

/-- A writer's log and its file hold the stream `S`, up to what was damaged. -/
structure WriterInv (S : List UInt8) (d : Damage) (w : OutputLog × Disk) : Prop where
  writer : w.1.readOnly = false
  tail : w.1.tailOffset = S.length
  fits : S.length < 2 ^ 64
  ring : Window S w.1.ringStartOffset w.1.ring
  file : ∃ inode kept, w.1.FileAt w.2 inode kept ∧ w.1.fileBytes ≤ kept.length ∧
    Keeps S d w.1.fileBaseOffset kept

variable {d : Damage} {data : List UInt8} {S : List UInt8} {w : OutputLog × Disk}
  {fromOffset maxBytes : Nat}

variable {S kept : List UInt8}

theorem Keeps.window {base : Nat} (h : Keeps S d base kept)
    (hd : d.hole = none) : Window S base kept := by
  have heq := h.exact (h.unhurt hd)
  have hlength := h.length_le
  unfold Damage.sound at heq
  rw [hd, Option.getD_none, List.take_length] at heq
  exact ⟨by omega, heq⟩

theorem Keeps.write_unhurt {base : Nat}
    (h : Keeps S d base kept) (hd : d.hole = none) (data : List UInt8) {reached : Nat}
    (hr : reached ≤ data.length) {n : Nat} (hn : n ≤ kept.length + reached) :
    Keeps (S ++ data) (d.write S.length reached data.length) (base + n)
      ((kept ++ data.take reached).drop n) := by
  have hlength := h.length_le
  have hbase : base ≤ S.length := by omega
  have hlen : ((kept ++ data.take reached).drop n).length = kept.length + reached - n := by
    rw [List.length_drop, List.length_append, List.length_take, Nat.min_eq_left hr]
  have hsound : (d.write S.length reached data.length).sound (S ++ data)
      = S.length + reached := by
    unfold Damage.write Damage.sound
    rw [hd]
    by_cases hshort : reached < data.length
    · rw [if_pos hshort]
      rfl
    · rw [if_neg hshort, hd, Option.getD_none, List.length_append]
      omega
  have hunburied : (d.write S.length reached data.length).buried = false := by
    unfold Damage.write
    rw [hd]
    dsimp only
    split
    · rfl
    · exact h.unhurt hd
  have hkept : (kept ++ data.take reached).drop n
      = ((S ++ data).take (S.length + reached)).drop (base + n) := by
    rw [List.take_length_add_append, ← List.drop_drop, List.drop_append_of_le_length hbase,
      ← (h.window hd).eq_drop]
  refine ⟨?_, fun _ => hunburied, ?_, ?_, fun _ => ?_⟩
  · rw [hsound, List.length_append]
    omega
  · rw [hlen, List.length_append]
    omega
  · rw [hsound, hkept]
  · rw [hsound, hkept]

/-- A damaged file stays right up to its first hole, whatever is written behind it. -/
theorem Keeps.write_hurt {base : Nat}
    (h : Keeps S d base kept) {hole : Nat} (hd : d.hole = some hole) (data : List UInt8)
    {reached : Nat} (hr : reached ≤ data.length) {n : Nat} (hn : n ≤ kept.length + reached)
    (hstay : reached = 0 → n = 0) :
    Keeps (S ++ data) (d.write S.length reached data.length) (base + n)
      ((kept ++ data.take reached).drop n) := by
  obtain ⟨hole_le, -, hlength, sound, exact'⟩ := h
  unfold Damage.sound at hole_le sound exact'
  rw [hd, Option.getD_some] at hole_le sound exact'
  have hwrite : d.write S.length reached data.length
      = { d with buried := d.buried || decide (0 < reached) } := by
    unfold Damage.write
    rw [hd]
  have hsound : (d.write S.length reached data.length).sound (S ++ data) = hole := by
    rw [hwrite]
    unfold Damage.sound
    rw [hd, Option.getD_some]
  have hstream : (S ++ data).take hole = S.take hole := List.take_append_of_le_length hole_le
  have hlen : ((kept ++ data.take reached).drop n).length = kept.length + reached - n := by
    rw [List.length_drop, List.length_append, List.length_take, Nat.min_eq_left hr]
  refine ⟨?_, ?_, ?_, ?_, ?_⟩
  · rw [hsound, List.length_append]
    omega
  · intro hnone
    rw [hwrite] at hnone
    exact absurd (hd.symm.trans hnone) (by simp)
  · rw [hlen, List.length_append]
    omega
  · rw [hsound, hstream, ← List.drop_drop]
    exact (sound.trans (List.prefix_append _ _)).drop n
  intro hburied
  rw [hwrite] at hburied
  simp only [Bool.or_eq_false_iff, decide_eq_false_iff_not, Nat.not_lt, Nat.le_zero] at hburied
  obtain ⟨hclean, hzero⟩ := hburied
  rw [hsound, hstream, hzero, hstay hzero, List.take_zero, List.append_nil]
  exact exact' hclean

theorem Keeps.write {base : Nat} (h : Keeps S d base kept) (data : List UInt8) {reached : Nat}
    (hr : reached ≤ data.length) {n : Nat} (hn : n ≤ kept.length + reached)
    (hstay : reached = 0 → n = 0) :
    Keeps (S ++ data) (d.write S.length reached data.length) (base + n)
      ((kept ++ data.take reached).drop n) := by
  cases hd : d.hole with
  | none => exact h.write_unhurt hd data hr hn
  | some hole => exact h.write_hurt hd data hr hn hstay

/-! ### One step -/

/-- The log in memory after an append: the ring slides, the tail moves. -/
def appended (data : List UInt8) (log : OutputLog) : OutputLog :=
  (log.scanForSyncPoints data log.tailOffset).appendToRing data

theorem append_eq {log log' : OutputLog} {disk disk' : Disk}
    {fault : Option Nat} {ok : Bool} (h : log.append data fault disk = some (log', disk', ok)) :
    (data = [] ∧ log' = log ∧ disk' = disk) ∨ (data ≠ [] ∧ log.tailOffset + data.length < 2 ^ 64 ∧
        (appended data log).appendToDisk data fault disk = (log', disk', ok)) := by
  unfold OutputLog.append at h
  cases data with
  | nil =>
    simp only [List.isEmpty_nil, if_true, Option.some.injEq, Prod.mk.injEq] at h
    exact Or.inl ⟨rfl, h.1.symm, h.2.1.symm⟩
  | cons byte data =>
    rw [if_neg (by simp)] at h
    by_cases hfits : 2 ^ 64 ≤ log.tailOffset + (byte :: data).length
    · rw [if_pos hfits] at h
      exact absurd h (by simp)
    · rw [if_neg hfits] at h
      exact Or.inr ⟨by simp, Nat.lt_of_not_le hfits, Option.some.inj h⟩

/-- What an append leaves in memory, whatever becomes of its write. -/
structure Remembers (S : List UInt8) (log : OutputLog) : Prop where
  writer : log.readOnly = false
  tail : log.tailOffset = S.length
  fits : S.length < 2 ^ 64
  ring : Window S log.ringStartOffset log.ring

theorem WriterInv.remembers (h : WriterInv S d w) (hfits : w.1.tailOffset + data.length < 2 ^ 64) :
    Remembers (S ++ data) (appended data w.1) where
  writer := h.writer
  tail := by
    show w.1.tailOffset + data.length = _
    rw [h.tail, List.length_append]
  fits := by
    rw [List.length_append, ← h.tail]
    exact hfits
  ring := (h.ring.append data).dropFront (Nat.sub_le _ _)

theorem Damage.write_nil (d : Damage) (tail : Nat) (fault : Option Nat) :
    d.write tail (reaching [] fault) ([] : List UInt8).length = d := by
  have hzero : reaching [] fault = 0 := Nat.min_zero _
  unfold Damage.write
  rw [hzero]
  split
  · simp
  · rfl

theorem WriterInv.append_whole (h : WriterInv S d w) (hdata : data ≠ [])
    (hmem : Remembers (S ++ data) (appended data w.1)) {log' : OutputLog} {disk' : Disk} {ok : Bool}
    (hdisk : (appended data w.1).appendToDisk data none w.2 = (log', disk', ok)) :
    WriterInv (S ++ data) (d.write S.length data.length data.length) (log', disk') := by
  obtain ⟨inode, kept, hfile, hbytes, hkeeps⟩ := h.file
  have hfile' : (appended data w.1).FileAt w.2 inode kept :=
    ⟨hfile.path, hfile.write, hfile.cached, hfile.stored⟩
  obtain ⟨inode', n, hfile'', hn, hbase, hbytes', hmemory⟩ := hfile'.appendToDisk h.writer data
  rw [hdisk] at hfile'' hbase hbytes' hmemory
  simp only [OutputLog.memory, Prod.mk.injEq] at hmemory
  obtain ⟨mtail, mstart, mring, mwriter⟩ := hmemory
  have hbytes : (appended data w.1).fileBytes ≤ kept.length := hbytes
  have hpos : 0 < data.length := List.length_pos_iff.mpr hdata
  have hn' : n ≤ kept.length + data.length := by omega
  have hwrite := hkeeps.write data (Nat.le_refl _) hn' (fun hzero => by omega)
  rw [List.take_length] at hwrite
  have hbase' : log'.fileBaseOffset = w.1.fileBaseOffset + n := hbase
  refine ⟨mwriter.trans h.writer, mtail.trans hmem.tail, hmem.fits, ?_, inode', _, hfile'', ?_, ?_⟩
  · show Window _ log'.ringStartOffset log'.ring
    rw [mstart, mring]
    exact hmem.ring
  · show log'.fileBytes ≤ _
    rcases hbytes' with hexact | ⟨hzero, hsum⟩
    · exact Nat.le_of_eq hexact
    · rw [hsum, hzero, List.drop_zero, List.length_append]
      omega
  · show Keeps _ _ log'.fileBaseOffset _
    rw [hbase']
    exact hwrite

theorem WriterInv.append_short
    (h : WriterInv S d w) (hmem : Remembers (S ++ data) (appended data w.1))
    {written : Nat} {log' : OutputLog} {disk' : Disk} {ok : Bool}
    (hdisk : (appended data w.1).appendToDisk data (some written) w.2 = (log', disk', ok)) :
    WriterInv (S ++ data) (d.write S.length (reaching data (some written)) data.length)
      (log', disk') := by
  obtain ⟨inode, kept, hfile, hbytes, hkeeps⟩ := h.file
  have hfile' : (appended data w.1).FileAt w.2 inode kept :=
    ⟨hfile.path, hfile.write, hfile.cached, hfile.stored⟩
  obtain ⟨heq, hfile''⟩ := hfile'.appendToDisk_fault h.writer data written
  rw [hdisk, Prod.mk.injEq, Prod.mk.injEq] at heq
  obtain ⟨rfl, rfl, -⟩ := heq
  have hreach : data.take (reaching data (some written)) = data.take written := by
    unfold reaching
    rw [Option.getD_some, List.take_eq_take_iff]
    omega
  have hle : reaching data (some written) ≤ data.length := Nat.min_le_right _ _
  have hwrite := hkeeps.write data hle (Nat.zero_le _) (fun _ => rfl)
  rw [List.drop_zero, hreach] at hwrite
  refine ⟨hmem.writer, hmem.tail, hmem.fits, hmem.ring, inode, _, hfile'', ?_, hwrite⟩
  show w.1.fileBytes ≤ _
  rw [List.length_append]
  omega

theorem WriterInv.append (h : WriterInv S d w) {fault : Option Nat} {log' : OutputLog}
    {disk' : Disk} {ok : Bool} (happend : w.1.append data fault w.2 = some (log', disk', ok)) :
    WriterInv (S ++ data) (d.write S.length (reaching data fault) data.length) (log', disk') := by
  rcases append_eq happend with ⟨rfl, rfl, rfl⟩ | ⟨hdata, hfits, hdisk⟩
  · rw [Damage.write_nil, List.append_nil]
    exact h
  have hmem := h.remembers hfits
  cases fault with
  | none =>
    have hreach : reaching data none = data.length := Nat.min_self _
    rw [hreach]
    exact h.append_whole hdata hmem hdisk
  | some written => exact h.append_short hmem hdisk

theorem read_fst {log log' : OutputLog} {disk : Disk} {result : Nat × List UInt8}
    (h : log.read fromOffset maxBytes disk = some (result, log')) :
    log' = log ∨ log' = log.readerHandle disk := by
  unfold OutputLog.read at h
  dsimp only at h
  split at h
  · exact Or.inl (congrArg Prod.snd (Option.some.inj h)).symm
  split at h
  · exact absurd h (by simp)
  split at h
  · exact Or.inl (congrArg Prod.snd (Option.some.inj h)).symm
  unfold OutputLog.readFromDisk at h
  dsimp only at h
  split at h
  · exact Or.inr (congrArg Prod.snd (Option.some.inj h)).symm
  split at h
  · exact absurd h (by simp)
  · exact Or.inr (congrArg Prod.snd (Option.some.inj h)).symm

theorem WriterInv.readerHandle
    (h : WriterInv S d w) : WriterInv S d (w.1.readerHandle w.2, w.2) := by
  obtain ⟨writer, tail, fits, ring, inode, kept, hfile, hbytes, hkeeps⟩ := h
  obtain ⟨hfile', hmemory, hbytes', hbase⟩ := hfile.readerHandle
  simp only [OutputLog.memory, Prod.mk.injEq] at hmemory
  obtain ⟨mtail, mstart, mring, mwriter⟩ := hmemory
  refine ⟨mwriter.trans writer, mtail.trans tail, fits, ?_, inode, kept, hfile', ?_, ?_⟩
  · show Window S (w.1.readerHandle w.2).ringStartOffset (w.1.readerHandle w.2).ring
    rw [mstart, mring]
    exact ring
  · exact hbytes'.trans_le hbytes
  · show Keeps S d (w.1.readerHandle w.2).fileBaseOffset kept
    rw [hbase]
    exact hkeeps

theorem WriterInv.existing (h : WriterInv S d w) (hd : d.hole = none) :
    ∃ inode kept, w.1.FileAt w.2 inode kept ∧ Keeps S d w.1.fileBaseOffset kept ∧
      OutputLog.existing w.2 = some (inode, w.1.fileBaseOffset, kept.length) := by
  obtain ⟨inode, kept, hfile, -, hkeeps⟩ := h.file
  have hbase := Nat.lt_of_le_of_lt (hkeeps.window hd).base_le h.fits
  have hcontent := Disk.content_of_getElem? hfile.stored
  have hread := readHeader_header hbase kept
  refine ⟨inode, kept, hfile, hkeeps, ?_⟩
  unfold OutputLog.existing
  rw [hfile.path]
  simp only [Option.bind_some]
  rw [hcontent, hread, List.length_append, length_header, Nat.add_sub_cancel_left]
  rfl

theorem WriterInv.reopen
    (h : WriterInv S d w) (hd : d.hole = none) (ringCapacity diskCapacity : Nat) :
    WriterInv S d (OutputLog.openLog ringCapacity diskCapacity false w.2) := by
  obtain ⟨inode, kept, hfile, hkeeps, hexisting⟩ := h.existing hd
  have hlength := (hkeeps.window hd).length
  have hopen : OutputLog.openLog ringCapacity diskCapacity false w.2 =
      ({ ringCapacity := ringCapacity, diskCapacity := diskCapacity, readOnly := false,
         fileBaseOffset := w.1.fileBaseOffset, fileBytes := kept.length,
         tailOffset := w.1.fileBaseOffset + kept.length,
         ringStartOffset := w.1.fileBaseOffset + kept.length, writeHandle := w.2.path }, w.2) := by
    unfold OutputLog.openLog OutputLog.openOrRecover
    rw [hexisting]
    rfl
  rw [hopen, hlength]
  refine ⟨rfl, rfl, h.fits, Window.empty S, inode, kept, ?_, Nat.le_refl _, hkeeps⟩
  exact ⟨hfile.path, hfile.path, fun _ hnone => absurd hnone (by simp), hfile.stored⟩

theorem WriterInv.openLog (ringCapacity diskCapacity : Nat) :
    WriterInv [] {} (OutputLog.openLog ringCapacity diskCapacity false .empty) := by
  refine ⟨rfl, rfl, by decide, Window.nil, 0, [], ?_, Nat.le_refl _, ?_⟩
  · exact ⟨rfl, rfl, fun _ hnone => absurd hnone (by simp [OutputLog.openLog,
      OutputLog.openOrRecover, OutputLog.existing, Disk.empty, OutputLog.createFile,
      OutputLog.invalidateReadHandle]), rfl⟩
  · exact ⟨Nat.le_refl _, fun _ => rfl, Nat.le_refl _, List.prefix_rfl, fun _ => rfl⟩

/-- Whether an input may follow on a damaged file: a hole must not be reopened. -/
def WriterInput.Survives (d : Damage) (i : WriterInput) : Prop := i = .reopen → d.hole = none

theorem WriterInv.step {w w' : OutputLog × Disk}
    (h : WriterInv S d w) {i : WriterInput} (hi : i.Survives d)
    (hstep : writerStep w i = some w') : WriterInv (S ++ i.data) (d.next S.length i) w' := by
  cases i with
  | append data fault =>
    obtain ⟨⟨log', disk', ok⟩, happend, rfl⟩ := Option.map_eq_some_iff.mp hstep
    exact h.append happend
  | read fromOffset maxBytes =>
    obtain ⟨⟨result, log'⟩, hread, rfl⟩ := Option.map_eq_some_iff.mp hstep
    rw [show (WriterInput.read fromOffset maxBytes).data = [] from rfl, List.append_nil]
    rcases read_fst hread with rfl | rfl
    · exact h
    · exact h.readerHandle
  | flush =>
    obtain ⟨⟩ := hstep
    rw [show WriterInput.flush.data = [] from rfl, List.append_nil]
    exact h
  | reopen =>
    obtain ⟨⟩ := hstep
    rw [show WriterInput.reopen.data = [] from rfl, List.append_nil]
    exact h.reopen (hi rfl) _ _

theorem writerRun_inv {ringCapacity diskCapacity : Nat} {inputs : List WriterInput}
    (hrun : writerRun ringCapacity diskCapacity inputs = some w)
    (hsurvives : ∀ done i rest, inputs = done ++ i :: rest → i.Survives (damage done)) :
    WriterInv (stream inputs) (damage inputs) w := by
  have hinv : (∀ done i rest, inputs = done ++ i :: rest → i.Survives (damage done)) →
      WriterInv (stream inputs) (damage inputs) w := by
    refine partialRun_induction (P := fun inputs w =>
      (∀ done i rest, inputs = done ++ i :: rest → i.Survives (damage done)) →
        WriterInv (stream inputs) (damage inputs) w) ?_ ?_ hrun
    · intro _
      exact WriterInv.openLog ringCapacity diskCapacity
    intro inputs w i w' ih hstep hsurvives
    rw [stream_concat, damage_concat]
    refine (ih ?_).step (hsurvives inputs i [] rfl) hstep
    intro done j rest hsplit
    exact hsurvives done j (rest ++ [i]) (by rw [hsplit]; simp)
  exact hinv hsurvives

/-! ### Reading -/

/-- The end of a read, within the stream. -/
def readEnd (S : List UInt8) (start maxBytes : Nat) : Nat := min S.length (start + maxBytes)

section
variable (h : WriterInv S d w)
include h

theorem WriterInv.read_past (hpast : S.length ≤ w.1.readStart fromOffset) :
    w.1.read fromOffset maxBytes w.2 = some ((S.length, []), w.1) := by
  unfold OutputLog.read
  rw [h.tail]
  exact if_pos hpast

theorem WriterInv.read_overflow (hinside : w.1.readStart fromOffset < S.length)
    (hover : 2 ^ 64 ≤ w.1.readStart fromOffset + maxBytes) :
    w.1.read fromOffset maxBytes w.2 = none := by
  unfold OutputLog.read
  rw [h.tail]
  exact (if_neg (Nat.not_le.mpr hinside)).trans (if_pos hover)

theorem WriterInv.read_ring (hinside : w.1.readStart fromOffset < S.length)
    (hfits : w.1.readStart fromOffset + maxBytes < 2 ^ 64)
    (hring : w.1.ringStartOffset ≤ w.1.readStart fromOffset) : w.1.read fromOffset maxBytes w.2 =
      some ((w.1.readStart fromOffset, (S.drop (w.1.readStart fromOffset)).take
        (readEnd S (w.1.readStart fromOffset) maxBytes - w.1.readStart fromOffset)), w.1) := by
  have hlength := h.ring.length
  have hend : readEnd S (w.1.readStart fromOffset) maxBytes ≤ S.length := Nat.min_le_left _ _
  have hstart : w.1.readStart fromOffset ≤ readEnd S (w.1.readStart fromOffset) maxBytes :=
    Nat.le_min.mpr ⟨Nat.le_of_lt hinside, Nat.le_add_right _ _⟩
  have hmemory : (!w.1.readOnly && decide (w.1.ringStartOffset ≤ w.1.readStart fromOffset)
      && decide (readEnd S (w.1.readStart fromOffset) maxBytes - w.1.ringStartOffset
        ≤ w.1.ring.length)) = true := by
    have hroom : readEnd S (w.1.readStart fromOffset) maxBytes - w.1.ringStartOffset
        ≤ w.1.ring.length := by omega
    rw [h.writer, decide_eq_true hring, decide_eq_true hroom]
    rfl
  have hcount : readEnd S (w.1.readStart fromOffset) maxBytes - w.1.ringStartOffset
      - (w.1.readStart fromOffset - w.1.ringStartOffset)
      = readEnd S (w.1.readStart fromOffset) maxBytes - w.1.readStart fromOffset := by omega
  have hbytes := h.ring.read hring
    (readEnd S (w.1.readStart fromOffset) maxBytes - w.1.readStart fromOffset)
  rw [← hcount] at hbytes ⊢
  unfold OutputLog.read
  rw [h.tail]
  refine (if_neg (Nat.not_le.mpr hinside)).trans ((if_neg (Nat.not_le.mpr hfits)).trans ?_)
  refine (if_pos hmemory).trans ?_
  rw [← hbytes]
  rfl

theorem WriterInv.read_disk (hinside : w.1.readStart fromOffset < S.length)
    (hfits : w.1.readStart fromOffset + maxBytes < 2 ^ 64)
    (hring : w.1.readStart fromOffset < w.1.ringStartOffset) :
    ∃ kept log', Keeps S d w.1.fileBaseOffset kept ∧ w.1.fileBaseOffset ≤ w.1.readStart fromOffset ∧
      w.1.read fromOffset maxBytes w.2 = some ((w.1.readStart fromOffset,
          (kept.drop (w.1.readStart fromOffset - w.1.fileBaseOffset)).take
            (readEnd S (w.1.readStart fromOffset) maxBytes - w.1.readStart fromOffset)), log') := by
  obtain ⟨writer, tail, fits, ring, inode, kept, hfile, -, hkeeps⟩ := h
  have hbase : w.1.fileBaseOffset ≤ w.1.readStart fromOffset := by
    have hoffset : min w.1.ringStartOffset w.1.fileBaseOffset ≤ w.1.readStart fromOffset :=
      Nat.le_max_right _ _
    omega
  have hstart : w.1.readStart fromOffset ≤ readEnd S (w.1.readStart fromOffset) maxBytes :=
    Nat.le_min.mpr ⟨Nat.le_of_lt hinside, Nat.le_add_right _ _⟩
  have hdisk : ¬(!w.1.readOnly && decide (w.1.ringStartOffset ≤ w.1.readStart fromOffset)
      && decide (readEnd S (w.1.readStart fromOffset) maxBytes - w.1.ringStartOffset
        ≤ w.1.ring.length)) = true := by
    rw [decide_eq_false (Nat.not_le.mpr hring), Bool.and_false, Bool.false_and]
    exact Bool.false_ne_true
  refine ⟨kept, w.1.readerHandle w.2, hkeeps, hbase, ?_⟩
  unfold OutputLog.read
  rw [tail]
  refine (if_neg (Nat.not_le.mpr hinside)).trans ((if_neg (Nat.not_le.mpr hfits)).trans ?_)
  exact (if_neg hdisk).trans (hfile.readFromDisk hbase hstart)

end

/-! ### The log without faults -/

/-- The file system does what it is asked to. -/
def WriterInput.Succeeds : WriterInput → Prop
  | .append _ fault => fault = none
  | _ => True

instance : (i : WriterInput) → Decidable i.Succeeds
  | .append _ fault => inferInstanceAs (Decidable (fault = none))
  | .read _ _ | .flush | .reopen => .isTrue trivial

theorem damage_of_succeeds {inputs : List WriterInput} (h : ∀ i ∈ inputs, i.Succeeds) :
    (damage inputs).hole = none := by
  induction inputs using List.reverseRecOn with
  | nil => rfl
  | append_singleton inputs i ih =>
    have hprev := ih (fun j hj => h j (List.mem_append_left _ hj))
    have hlast := h i (List.mem_append_right _ (List.mem_singleton.mpr rfl))
    rw [damage_concat]
    cases i with
    | append data fault =>
      obtain rfl : fault = none := hlast
      have hreach : ¬reaching data none < data.length := by
        unfold reaching
        rw [Option.getD_none, Nat.min_self]
        exact Nat.lt_irrefl _
      unfold Damage.next Damage.write
      simp only [hprev]
      rw [if_neg hreach]
      exact hprev
    | _ => exact hprev

/-- What a read of the stream gives, from `start` on. -/
def readStream (S : List UInt8) (start maxBytes : Nat) : Nat × List UInt8 :=
  if S.length ≤ start then (S.length, [])
  else (start, (S.drop start).take (readEnd S start maxBytes - start))

/--
**The log refines the stream.**  After any run on which the file system did its part,
the tail is the length of the stream; the file is a header with some base and the
stream from that base on; the ring is the stream from its own start on; and a read
gives what a read of the stream would, from wherever it can be served, exactly when
there is nothing there to read or the end of the range is an offset at all.
-/
theorem log_refines_stream (ringCapacity diskCapacity : Nat) (inputs : List WriterInput)
    (hok : ∀ i ∈ inputs, i.Succeeds) (log : OutputLog) (disk : Disk)
    (hrun : writerRun ringCapacity diskCapacity inputs = some (log, disk)) :
    log.tailOffset = (stream inputs).length ∧
    (∃ inode, disk.path = some inode ∧ log.fileBaseOffset ≤ (stream inputs).length ∧
      disk.content inode = header log.fileBaseOffset ++ (stream inputs).drop log.fileBaseOffset) ∧
    log.ring = (stream inputs).drop log.ringStartOffset ∧
    ∀ fromOffset maxBytes, (log.read fromOffset maxBytes disk).map Prod.fst
          = some (readStream (stream inputs) (log.readStart fromOffset) maxBytes) ↔
        ((stream inputs).length ≤ log.readStart fromOffset ∨
          log.readStart fromOffset + maxBytes < 2 ^ 64) := by
  have hsurvives : ∀ done i rest, inputs = done ++ i :: rest → i.Survives (damage done) := by
    intro done i rest hsplit _
    refine damage_of_succeeds ?_
    intro j hj
    exact hok j (by rw [hsplit]; exact List.mem_append_left _ hj)
  have hinv := writerRun_inv hrun hsurvives
  have hhole := damage_of_succeeds hok
  obtain ⟨inode, kept, hfile, -, hkeeps⟩ := hinv.file
  have hwindow := hkeeps.window hhole
  refine ⟨hinv.tail, ⟨inode, hfile.path, hwindow.base_le, ?_⟩, hinv.ring.eq_drop, ?_⟩
  · rw [Disk.content_of_getElem? hfile.stored, hwindow.eq_drop]
  intro fromOffset maxBytes
  unfold readStream
  by_cases hpast : (stream inputs).length ≤ log.readStart fromOffset
  · rw [if_pos hpast, hinv.read_past hpast]
    exact ⟨fun _ => Or.inl hpast, fun _ => rfl⟩
  have hinside := Nat.lt_of_not_le hpast
  rw [if_neg hpast]
  by_cases hfits : log.readStart fromOffset + maxBytes < 2 ^ 64
  · refine ⟨fun _ => Or.inr hfits, fun _ => ?_⟩
    by_cases hring : log.ringStartOffset ≤ log.readStart fromOffset
    · rw [hinv.read_ring hinside hfits hring]
      rfl
    obtain ⟨kept', log', hkeeps', hbase, hread⟩ :=
      hinv.read_disk hinside hfits (Nat.lt_of_not_le hring)
    have hbytes := (hkeeps'.window hhole).read hbase
      (readEnd (stream inputs) (log.readStart fromOffset) maxBytes - log.readStart fromOffset)
    rw [hread, Option.map_some]
    exact congrArg (fun bytes => some (log.readStart fromOffset, bytes)) hbytes
  rw [hinv.read_overflow hinside (Nat.le_of_not_lt hfits)]
  refine ⟨fun hnone => absurd hnone (by simp), fun hcond => ?_⟩
  rcases hcond with hpast' | hfits'
  · exact absurd hpast' hpast
  · exact absurd hfits' hfits

/-- Ten digits, past the cap of the file, and three letters to the log opened anew. -/
def rotatedRun : List WriterInput :=
  [.append [48, 49, 50, 51, 52, 53, 54, 55, 56, 57] none, .read 0 4, .flush, .reopen,
    .append [97, 98, 99] none]

theorem log_refines_stream_rotated : ∃ log disk, writerRun 4 8 rotatedRun = some (log, disk) ∧
      log.tailOffset = 13 ∧ log.ring = (stream rotatedRun).drop log.ringStartOffset ∧
      ((log.read 0 8 disk).map Prod.fst
          = some (readStream (stream rotatedRun) (log.readStart 0) 8) ↔
        (13 ≤ log.readStart 0 ∨ log.readStart 0 + 8 < 2 ^ 64)) :=
  have h := log_refines_stream 4 8 rotatedRun (by decide) _ _ rfl
  ⟨_, _, rfl, h.1, h.2.2.1, h.2.2.2 0 8⟩

/--
**A read for as much as there is can panic.**  The range asked for, from 0 for
`2 ^ 64 - 1` bytes, ends at an offset; but the file was rotated, so the read starts
further on, and its end is not one.
-/
theorem read_all_panics :
    ∃ log disk, writerRun 4 8 [.append [48, 49, 50, 51, 52, 53, 54, 55, 56, 57] none]
        = some (log, disk) ∧ 0 + (2 ^ 64 - 1) < 2 ^ 64 ∧ log.readStart 0 = 6 ∧ log.tailOffset = 10 ∧
      log.read 0 (2 ^ 64 - 1) disk = none := by
  refine ⟨_, _, rfl, by decide, rfl, rfl, ?_⟩
  exact Option.isNone_iff_eq_none.mp (by decide +kernel)

/-! ### Writes that fail -/

/--
**A failed write misaddresses nothing until it is buried.**  Whatever writes failed,
and wherever, a read gives bytes of the stream at the offset it names, provided it is
served from memory, or nothing was written behind the first hole of the file, or it
ends before that hole.
-/
theorem faults_misaddress_nothing (ringCapacity diskCapacity : Nat)
    (inputs : List WriterInput) (hwriter : ∀ i ∈ inputs, i ≠ .reopen)
    (log : OutputLog) (disk : Disk)
    (hrun : writerRun ringCapacity diskCapacity inputs = some (log, disk))
    (fromOffset maxBytes start : Nat) (bytes : List UInt8) (log' : OutputLog)
    (hread : log.read fromOffset maxBytes disk = some ((start, bytes), log'))
    (hwhere : log.ringStartOffset ≤ log.readStart fromOffset ∨ (damage inputs).buried = false ∨
      ∀ hole, (damage inputs).hole = some hole →
        readEnd (stream inputs) (log.readStart fromOffset) maxBytes ≤ hole) :
    bytes <+: (stream inputs).drop start := by
  have hinv := writerRun_inv hrun (fun done i rest hsplit hreopen =>
    absurd hreopen (hwriter i (by rw [hsplit]; simp)))
  by_cases hpast : (stream inputs).length ≤ log.readStart fromOffset
  · rw [hinv.read_past hpast] at hread
    obtain ⟨rfl, rfl⟩ : (stream inputs).length = start ∧ [] = bytes := by
      simpa using congrArg Prod.fst (Option.some.inj hread)
    exact List.nil_prefix
  have hinside := Nat.lt_of_not_le hpast
  by_cases hfits : log.readStart fromOffset + maxBytes < 2 ^ 64
  swap
  · rw [hinv.read_overflow hinside (Nat.le_of_not_lt hfits)] at hread
    exact absurd hread (by simp)
  by_cases hring : log.ringStartOffset ≤ log.readStart fromOffset
  · rw [hinv.read_ring hinside hfits hring] at hread
    obtain ⟨rfl, rfl⟩ := Prod.mk.inj (congrArg Prod.fst (Option.some.inj hread))
    exact List.take_prefix _ _
  obtain ⟨kept, log'', hkeeps, hbase, hdisk⟩ :=
    hinv.read_disk hinside hfits (Nat.lt_of_not_le hring)
  rw [hdisk] at hread
  obtain ⟨rfl, rfl⟩ := Prod.mk.inj (congrArg Prod.fst (Option.some.inj hread))
  -- the file, from where the read starts, is a part of the stream there
  have hsound := hkeeps.sound.drop (log.readStart fromOffset - log.fileBaseOffset)
  rw [List.drop_drop, Nat.add_sub_cancel' hbase] at hsound
  have hcut : ∀ n, ((stream inputs).take n).drop (log.readStart fromOffset)
      <+: (stream inputs).drop (log.readStart fromOffset) := by
    intro n
    rw [List.drop_take]
    exact List.take_prefix _ _
  rcases hwhere with hmemory | hburied | hbefore
  · exact absurd hmemory hring
  · have hkept := hkeeps.exact hburied
    refine (List.take_prefix _ _).trans ?_
    rw [hkept, List.drop_drop, Nat.add_sub_cancel' hbase]
    exact hcut _
  -- the read ends before the hole, so it takes sound bytes only
  have hend : readEnd (stream inputs) (log.readStart fromOffset) maxBytes
      ≤ (damage inputs).sound (stream inputs) := by
    unfold Damage.sound
    cases hhole : (damage inputs).hole with
    | none => exact Nat.min_le_left _ _
    | some hole => exact hbefore hole hhole
  have hlong : readEnd (stream inputs) (log.readStart fromOffset) maxBytes
      - log.readStart fromOffset ≤ (((stream inputs).take
        ((damage inputs).sound (stream inputs))).drop (log.readStart fromOffset)).length := by
    have hle := hkeeps.hole_le
    rw [List.length_drop, List.length_take, Nat.min_eq_left hle]
    omega
  obtain ⟨more, hmore⟩ := hsound
  rw [← hmore, List.take_append_of_le_length hlong]
  exact (List.take_prefix _ _).trans (hcut _)

/-- A write of eight letters of which three reach the file, and eight more. -/
def tornRun : List WriterInput :=
  [.append [97, 98, 99, 100, 101, 102, 103, 104] (some 3),
    .append [105, 106, 107, 108, 109, 110, 111, 112] none]

theorem faults_misaddress_nothing_torn :
    ∃ log disk bytes log', writerRun 4 64 tornRun = some (log, disk) ∧
      log.read 0 3 disk = some ((0, bytes), log') ∧ bytes <+: (stream tornRun).drop 0 :=
  ⟨_, _, _, _, rfl, rfl, faults_misaddress_nothing 4 64 tornRun (by decide) _ _ rfl 0 3 0 _ _ rfl
    (.inr (.inr (fun hole hhole => by
      obtain rfl : 3 = hole := Option.some.inj hhole
      decide)))⟩

/--
**A buried hole misaddresses bytes.**  The eight letters from offset 0 come back as
`abcijklm`: from offset 3 on they are the bytes of offsets 8 and up.
-/
theorem buried_hole_misaddresses : ∃ log disk log', writerRun 4 64 tornRun = some (log, disk) ∧
      log.read 0 8 disk = some ((0, [97, 98, 99, 105, 106, 107, 108, 109]), log') ∧
      ¬[97, 98, 99, 105, 106, 107, 108, 109] <+: (stream tornRun).drop 0 :=
  ⟨_, _, _, rfl, rfl, by decide⟩

end Diri
