/-
The offset-addressed log of one session's raw output.

A log keeps the newest bytes in memory and spills everything to a file that is
rewritten to half its size when it grows past its cap.  Several logs (the writer in
the holder, a reader in the daemon) may look at one file, so the file system is
explicit: a `Disk` has numbered inodes, and the log's path names one of them.  A
rename gives the path a new inode; handles keep the one they opened.

Offsets are `u64` in the source and natural numbers here.  Where the source adds to
an offset, or subtracts one, without a guard, the function is partial: `none` is a
panic.  Syncing to the device changes nothing a reader can see, so `flush` and the
sync timer leave no trace.
-/
import Diri.Lib.Bytes

namespace Diri

/-! ### The file system, as the log uses it -/

/-- An open file, by its inode. -/
abbrev Inode := Nat

/-- The contents of every inode there ever was, and the one at the log's path. -/
structure Disk where
  inodes : List (List UInt8)
  path : Option Inode

namespace Disk

def empty : Disk := ⟨[], none⟩

def content (disk : Disk) (inode : Inode) : List UInt8 := (disk.inodes[inode]?).getD []

/-- `write_all` on a handle whose position is the end of the file. -/
def append (disk : Disk) (inode : Inode) (data : List UInt8) : Disk :=
  { disk with inodes := disk.inodes.modify inode (· ++ data) }

/-- A new inode at the path: a `write_private` next to it and a `rename` over it. -/
def replace (disk : Disk) (contents : List UInt8) : Disk where
  inodes := disk.inodes ++ [contents]
  path := some disk.inodes.length

/-- `write_private`: truncate what is at the path, or create it. -/
def writePrivate (disk : Disk) (contents : List UInt8) : Disk :=
  match disk.path with
  | some inode => { disk with inodes := disk.inodes.set inode contents }
  | none => disk.replace contents

end Disk

/-! ### The file format -/

/-- `"DIRJ"`. -/
def magic : Nat := 0x4449524A

def version : Nat := 1

def headerSize : Nat := 16

def header (baseOffset : Nat) : List UInt8 :=
  beBytes 4 magic ++ beBytes 4 version ++ beBytes 8 baseOffset

/-- The base offset in a header, if it is one. -/
def readHeader (content : List UInt8) : Option Nat :=
  if content.length < headerSize then none
  else if beValue (content.take 4) ≠ magic then none
  else some (beValue ((content.drop 8).take 8))

/-! ### The log -/

def maxSyncPoints : Nat := 64

structure OutputLog where
  ringCapacity : Nat
  diskCapacity : Nat
  tailOffset : Nat := 0
  /-- Oldest offset still resident in memory. -/
  ringStartOffset : Nat := 0
  ring : List UInt8 := []
  readOnly : Bool
  writeHandle : Option Inode := none
  readHandle : Option Inode := none
  fileBaseOffset : Nat := 0
  fileBytes : Nat := 0
  /-- Offsets where a full-screen reset begins, newest last. -/
  syncPoints : List Nat := []
  /-- Partial escape prefix carried across chunk boundaries. -/
  carry : List UInt8 := []

namespace OutputLog

def invalidateReadHandle (log : OutputLog) : OutputLog := { log with readHandle := none }

/-- The cached read handle, opening the path if there is none. -/
def readerHandle (log : OutputLog) (disk : Disk) : OutputLog :=
  if log.readHandle.isNone then { log with readHandle := disk.path } else log

def createFile (baseOffset : Nat) (log : OutputLog) (disk : Disk) : OutputLog × Disk :=
  let log := log.invalidateReadHandle
  let disk := disk.writePrivate (header baseOffset)
  let log := { log with fileBaseOffset := baseOffset, fileBytes := 0 }
  if !log.readOnly then ({ log with writeHandle := disk.path }, disk) else (log, disk)

/-- What `open` finds at the path: the inode, its base offset and its payload size. -/
def existing (disk : Disk) : Option (Inode × Nat × Nat) :=
  disk.path.bind fun inode =>
    (readHeader (disk.content inode)).map fun base =>
      (inode, base, (disk.content inode).length - headerSize)

def openOrRecover (log : OutputLog) (disk : Disk) : OutputLog × Disk :=
  match existing disk with
  | some (inode, base, bytes) =>
    let log := { log with
      fileBaseOffset := base
      fileBytes := bytes
      tailOffset := base + bytes
      ringStartOffset := base + bytes }
    if log.readOnly then ({ log with readHandle := some inode }, disk)
    else ({ log with writeHandle := disk.path }, disk)
  | none => log.createFile 0 disk

/-- `open`: opens, or recovers, or creates the log. -/
def openLog (ringCapacity diskCapacity : Nat) (readOnly : Bool) (disk : Disk) : OutputLog × Disk :=
  openOrRecover
    { ringCapacity := ringCapacity, diskCapacity := diskCapacity, readOnly := readOnly } disk

/-! ### Append -/

/-- Whether a reset sequence, ESC c or CSI 2 J, starts at this point of the text. -/
def startsReset : List UInt8 → Bool
  | 0x1B :: 0x63 :: _ => true
  | 0x1B :: 0x5B :: 0x32 :: 0x4A :: _ => true
  | _ => false

def pushSyncPoint (offset : Nat) (points : List Nat) : List Nat :=
  if points.getLast? = some offset then points
  else (points ++ [offset]).drop (points.length + 1 - maxSyncPoints)

/-- Look for resets in the carried bytes and the chunk together. -/
def scanForSyncPoints (data : List UInt8) (chunkStart : Nat) (log : OutputLog) : OutputLog :=
  let carryCount := log.carry.length
  let haystack := log.carry ++ data
  let log := { log with carry := haystack.drop (haystack.length - 3) }
  -- a sequence that begins in the carried bytes starts before the chunk
  let offset (i : Nat) : Nat := ((chunkStart : Int) + (i - carryCount : Int)).toNat
  let scan (points : List Nat) (i : Nat) : List Nat :=
    if startsReset (haystack.drop i) then pushSyncPoint (offset i) points else points
  { log with syncPoints := (List.range (haystack.length - 1)).foldl scan log.syncPoints }

/-- Rewrites the spill file keeping only the newest half; fails if there is no file. -/
def truncateToHalf (log : OutputLog) (disk : Disk) : OutputLog × Disk × Bool :=
  let log := log.invalidateReadHandle
  let keep := log.diskCapacity / 2
  let dropBytes := log.fileBytes - keep
  match disk.path with
  | none => (log, disk, false)
  | some inode =>
    let kept := (disk.content inode).drop (headerSize + dropBytes)
    let newBase := log.fileBaseOffset + dropBytes
    let disk := disk.replace (header newBase ++ kept)
    ({ log with
        fileBaseOffset := newBase
        fileBytes := kept.length
        writeHandle := disk.path
        syncPoints := log.syncPoints.filter (newBase ≤ ·) }, disk, true)

/--
`fault` is how many bytes reached the file before `write_all` failed, if it failed.
The last component says whether the write succeeded.
-/
def appendToDisk (data : List UInt8) (fault : Option Nat) (log : OutputLog) (disk : Disk) :
    OutputLog × Disk × Bool :=
  if log.readOnly then (log, disk, true)
  else match log.writeHandle with
    | none => (log, disk, true)
    | some inode =>
      match fault with
      | some written => (log, disk.append inode (data.take written), false)
      | none =>
        let disk := disk.append inode data
        let log := { log with fileBytes := log.fileBytes + data.length }
        if log.diskCapacity < log.fileBytes then log.truncateToHalf disk
        else (log, disk, true)

/-- The in-memory half of an append. -/
def appendToRing (data : List UInt8) (log : OutputLog) : OutputLog :=
  let ring := log.ring ++ data
  let drop := ring.length - log.ringCapacity
  { log with
    ring := ring.drop drop
    ringStartOffset := log.ringStartOffset + drop
    tailOffset := log.tailOffset + data.length }

/--
Appends a chunk.  In-memory state advances even when the disk write fails; an offset
beyond `u64` is a panic.
-/
def append (data : List UInt8) (fault : Option Nat) (log : OutputLog) (disk : Disk) :
    Option (OutputLog × Disk × Bool) :=
  if data.isEmpty then some (log, disk, true)
  else if 2 ^ 64 ≤ log.tailOffset + data.length then none
  else
    let log := log.scanForSyncPoints data log.tailOffset
    let log := log.appendToRing data
    some (log.appendToDisk data fault disk)

/-! ### Read -/

def readFromDisk (fromOffset toOffset : Nat) (log : OutputLog) (disk : Disk) :
    Option ((Nat × List UInt8) × OutputLog) :=
  let base := log.fileBaseOffset
  let tail := log.tailOffset
  let log := log.readerHandle disk
  match log.readHandle with
  | none => some ((tail, []), log)
  | some inode =>
    let start := max fromOffset base
    let pos := headerSize + (start - base)
    -- `to_offset - start` is not guarded
    if toOffset < start then none
    else some ((start, ((disk.content inode).drop pos).take (toOffset - start)), log)

/-- Oldest offset the log can serve. -/
def oldestAvailable (log : OutputLog) : Nat := min log.ringStartOffset log.fileBaseOffset

/-- Where a read from `fromOffset` starts. -/
def readStart (fromOffset : Nat) (log : OutputLog) : Nat := max fromOffset log.oldestAvailable

/-- Reads up to `maxBytes` from `fromOffset`: the actual start offset and the bytes. -/
def read (fromOffset maxBytes : Nat) (log : OutputLog) (disk : Disk) :
    Option ((Nat × List UInt8) × OutputLog) :=
  let start := log.readStart fromOffset
  if log.tailOffset ≤ start then some ((log.tailOffset, []), log)
  -- `start + max_bytes` is not guarded
  else if 2 ^ 64 ≤ start + maxBytes then none
  else
    let toOffset := min log.tailOffset (start + maxBytes)
    if !log.readOnly && decide (log.ringStartOffset ≤ start)
        && decide (toOffset - log.ringStartOffset ≤ log.ring.length) then
      let lower := start - log.ringStartOffset
      let upper := toOffset - log.ringStartOffset
      some ((start, (log.ring.drop lower).take (upper - lower)), log)
    else log.readFromDisk start toOffset disk

/-- Refreshes a read-only view after the owner appended or rotated the file. -/
def refreshFromDisk (log : OutputLog) (disk : Disk) : Bool × OutputLog :=
  if !log.readOnly then (false, log)
  else
    let log := log.readerHandle disk
    match log.readHandle with
    | none => (false, log)
    | some inode =>
      match readHeader (disk.content inode) with
      | none => (false, log)
      | some newBase =>
        let newBytes := (disk.content inode).length - headerSize
        let newTail := newBase + newBytes
        let changed := newTail != log.tailOffset || newBase != log.fileBaseOffset
        (changed, { log with
          fileBaseOffset := newBase
          fileBytes := newBytes
          tailOffset := newTail
          syncPoints := log.syncPoints.filter (newBase ≤ ·) })

end OutputLog

end Diri
