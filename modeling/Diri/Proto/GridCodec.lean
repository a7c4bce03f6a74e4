/-
The bytes of a grid update.

All integers are big-endian.  A row is its cells in runs of equal cells, after the number
of runs.  The decoder is a cursor over the payload; it ignores what stands behind the
last row.
-/
import Diri.Lib.Bytes
import Diri.Proto.Grid

namespace Diri

namespace TermColor

/-- Four-byte packed form `[tag][a][b][c]` used on the wire. -/
def packed : TermColor → UInt32
  | default => 0
  | defaultInverted => (1 : UInt32) <<< 24
  | ansi color => ((2 : UInt32) <<< 24) ||| color.toUInt32
  | rgb red green blue =>
    ((3 : UInt32) <<< 24) ||| (red.toUInt32 <<< 16) ||| (green.toUInt32 <<< 8) |||
      blue.toUInt32

/-- Every tag other than 0, 1 and 2 is interpreted as RGB. -/
def unpack (packed : UInt32) : TermColor :=
  match (packed >>> 24).toNat with
  | 0 => default
  | 1 => defaultInverted
  | 2 => ansi (packed &&& 0xff).toUInt8
  | _ =>
    rgb ((packed >>> 16) &&& 0xff).toUInt8 ((packed >>> 8) &&& 0xff).toUInt8
      (packed &&& 0xff).toUInt8

end TermColor

/-! ### Encoding -/

namespace GridRowCodec

/-- The runs of a row from a cell on that was seen `repeated` times; a run counts in a `u16`. -/
def runsFrom (cell : GridCell) (repeated : Nat) : List GridCell → List (Nat × GridCell)
  | [] => [(repeated, cell)]
  | next :: rest =>
    if next = cell ∧ repeated < 2 ^ 16 - 1 then runsFrom cell (repeated + 1) rest
    else (repeated, cell) :: runsFrom next 1 rest

def runs : List GridCell → List (Nat × GridCell)
  | [] => []
  | cell :: rest => runsFrom cell 1 rest

def runBytes (run : Nat × GridCell) : List UInt8 :=
  beBytes 2 run.1 ++ (beBytes 4 run.2.scalar.toNat ++ (beBytes 4 run.2.fg.packed.toNat ++
    (beBytes 4 run.2.bg.packed.toNat ++ beBytes 2 run.2.style.toNat)))

/-- `[runCount u16]` and the row's runs, without a `y` prefix. -/
def encodeRow (cells : List GridCell) : Except GridCodecError (List UInt8) :=
  if cells.length > 2 ^ 16 - 1 then .error (.tooManyCells cells.length)
  else .ok (beBytes 2 (runs cells).length ++ (runs cells).flatMap runBytes)

/-- The rows one behind the other, without their number. -/
def encodeRows : List (List GridCell) → Except GridCodecError (List UInt8)
  | [] => .ok []
  | row :: rest => do
    let bytes ← encodeRow row
    let more ← encodeRows rest
    return bytes ++ more

end GridRowCodec

namespace GridUpdate

/-- The listed rows, each after its `y`. -/
def encodeRows : List ChangedRow → Except GridCodecError (List UInt8)
  | [] => .ok []
  | row :: rest => do
      let bytes ← GridRowCodec.encodeRow row.cells
      let more ← encodeRows rest
      return beBytes 2 row.y ++ (bytes ++ more)

def flags (update : GridUpdate) : UInt8 :=
  update.cursorVisible.toUInt8 ||| (update.isFullSnapshot.toUInt8 <<< 1)

def encode (update : GridUpdate) : Except GridCodecError (List UInt8) :=
  if update.changedRows.length > 2 ^ 16 - 1 then .error (.tooManyRows update.changedRows.length)
  else do
    let rows ← encodeRows update.changedRows
    return beBytes 2 update.cols ++ (beBytes 2 update.rows ++ (beBytes 2 update.cursorCol ++
      (beBytes 2 update.cursorRow ++ ([update.flags] ++
        (beBytes 2 update.changedRows.length ++ rows)))))

end GridUpdate

/-! ### Decoding -/

structure Cursor where
  payload : List UInt8
  offset : Nat := 0

namespace Cursor

def take (needed : Nat) (cursor : Cursor) : Except GridCodecError (List UInt8 × Cursor) :=
  let remaining := cursor.payload.length - cursor.offset
  if remaining < needed then .error (.unexpectedEnd cursor.offset needed remaining)
  else
    .ok ((cursor.payload.drop cursor.offset).take needed,
      { cursor with offset := cursor.offset + needed })

def number (width : Nat) (cursor : Cursor) : Except GridCodecError (Nat × Cursor) := do
  let (bytes, cursor) ← cursor.take width
  return (beValue bytes, cursor)

def u8 : Cursor → Except GridCodecError (Nat × Cursor) := number 1

def u16 : Cursor → Except GridCodecError (Nat × Cursor) := number 2

def u32 : Cursor → Except GridCodecError (Nat × Cursor) := number 4

end Cursor

namespace GridRowCodec

def readRuns : (runCount : Nat) → (cells : List GridCell) → Cursor →
    Except GridCodecError (List GridCell × Cursor)
  | 0, cells, cursor => .ok (cells, cursor)
  | runCount + 1, cells, cursor => do
      let (repeated, cursor) ← cursor.u16
      let (scalar, cursor) ← cursor.u32
      let (fg, cursor) ← cursor.u32
      let (bg, cursor) ← cursor.u32
      let (style, cursor) ← cursor.u16
      let newLen := cells.length + repeated
      if newLen > 2 ^ 16 - 1 then throw (.decodedRowTooLong newLen)
      let cell : GridCell := ⟨.ofNat scalar, .unpack (.ofNat fg), .unpack (.ofNat bg), .ofNat style⟩
      readRuns runCount (cells ++ List.replicate repeated cell) cursor

def readRow (cursor : Cursor) : Except GridCodecError (List GridCell × Cursor) := do
  let (runCount, cursor) ← cursor.u16
  readRuns runCount [] cursor

/-- Exactly so many rows, one after another; what stands behind them is ignored. -/
def decodeRows : (rowCount : Nat) → Cursor → Except GridCodecError (List (List GridCell))
  | 0, _ => .ok []
  | rowCount + 1, cursor => do
      let (cells, cursor) ← readRow cursor
      let rows ← decodeRows rowCount cursor
      return cells :: rows

end GridRowCodec

namespace GridUpdate

def readRows : (rowCount : Nat) → Cursor → Except GridCodecError (List ChangedRow × Cursor)
  | 0, cursor => .ok ([], cursor)
  | rowCount + 1, cursor => do
      let (y, cursor) ← cursor.u16
      let (cells, cursor) ← GridRowCodec.readRow cursor
      let (rows, cursor) ← readRows rowCount cursor
      return (⟨y, cells⟩ :: rows, cursor)

def decode (payload : List UInt8) : Except GridCodecError GridUpdate := do
  let (cols, cursor) ← (Cursor.mk payload 0).u16
  let (rows, cursor) ← cursor.u16
  let (cursorCol, cursor) ← cursor.u16
  let (cursorRow, cursor) ← cursor.u16
  let (flags, cursor) ← cursor.u8
  let (rowCount, cursor) ← cursor.u16
  let (changedRows, _) ← readRows rowCount cursor
  return {
    cols := cols
    rows := rows
    cursorCol := cursorCol
    cursorRow := cursorRow
    cursorVisible := UInt8.ofNat flags &&& 1 ≠ 0
    isFullSnapshot := UInt8.ofNat flags &&& 2 ≠ 0
    changedRows := changedRows }

end GridUpdate

end Diri
