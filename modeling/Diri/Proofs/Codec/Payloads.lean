/-
Which grid payloads are accepted, and what they are worth.

What reads from a cursor looks at the bytes it passes over and at nothing behind them
(`Cursor.Reads`), so a payload that is cut short is never taken for a whole one.  An accepted
update has counts that fit in sixteen bits, and can be written again.
-/
import Diri.Lib.Checks
import Diri.Proofs.Codec.RoundTrip
import Mathlib.Data.List.Perm.Subperm
import Mathlib.Tactic.Ring

namespace Diri

open Cursor GridRowCodec GridUpdate List

/-- What is read is as `P` says, and comes from the bytes that are passed over. -/
def Cursor.Reads {α : Type} (P : α → Prop)
    (read : Cursor → Except GridCodecError (α × Cursor)) : Prop :=
  ∀ payload start a cursor, read ⟨payload, start⟩ = .ok (a, cursor) → start ≤ payload.length →
    P a ∧ ∃ stop, stop ≤ payload.length ∧ cursor = ⟨payload, stop⟩ ∧
      ∀ more, read ⟨payload ++ more, start⟩ = .ok (a, ⟨payload ++ more, stop⟩)

namespace Cursor.Reads

variable {α β : Type} {P : α → Prop} {Q : β → Prop} {a : α}
  {read : Cursor → Except GridCodecError (α × Cursor)}
  {next : α × Cursor → Except GridCodecError (β × Cursor)}

theorem pure (h : P a) : Reads P fun cursor => .ok (a, cursor) := by
  intro payload start b cursor hread hstart
  obtain ⟨⟩ := hread
  exact ⟨h, start, hstart, rfl, fun _ => rfl⟩

theorem bind (hread : Reads P read) (hnext : ∀ a, P a → Reads Q fun cursor => next (a, cursor)) :
    Reads Q fun cursor => read cursor >>= next := by
  intro payload start b cursor h hstart
  obtain ⟨⟨a, middle⟩, hfirst, hsecond⟩ := bind_eq_ok.mp h
  obtain ⟨hP, stop, hstop, rfl, hmore⟩ := hread _ _ _ _ hfirst hstart
  obtain ⟨hQ, last, hlast, rfl, hmore'⟩ := hnext a hP _ _ _ _ hsecond hstop
  refine ⟨hQ, last, hlast, rfl, fun more => ?_⟩
  exact bind_eq_ok.mpr ⟨_, hmore more, hmore' more⟩

end Cursor.Reads

/-! ### Numbers -/

/-- The two bytes of a payload from an index on. -/
def word (payload : List UInt8) (index : Nat) : Nat := beValue ((payload.drop index).take 2)

namespace Cursor

theorem number_eq {payload : List UInt8} {start width : Nat} (h : start + width ≤ payload.length) :
    number width ⟨payload, start⟩ =
      .ok (beValue ((payload.drop start).take width), ⟨payload, start + width⟩) := by
  unfold number take
  simp only
  rw [if_neg (by omega)]
  rfl

theorem number_ok {payload : List UInt8} {start width value : Nat} {cursor : Cursor}
    (h : number width ⟨payload, start⟩ = .ok (value, cursor)) (hwidth : 0 < width) :
    start + width ≤ payload.length ∧ cursor = ⟨payload, start + width⟩ := by
  by_cases hlong : start + width ≤ payload.length
  · rw [number_eq hlong] at h
    obtain ⟨⟩ := h
    exact ⟨hlong, rfl⟩
  unfold number take at h
  simp only at h
  rw [if_pos (by omega)] at h
  cases h

theorem reads_number {width : Nat} (hwidth : 0 < width) :
    Cursor.Reads (· < 256 ^ width) (number width) := by
  intro payload start value cursor h _
  have hend := (number_ok h hwidth).1
  rw [number_eq hend] at h
  obtain ⟨⟩ := h
  refine ⟨?_, start + width, hend, rfl, fun more => ?_⟩
  · have hlt := beValue_lt ((payload.drop start).take width)
    rwa [length_take, length_drop, Nat.min_eq_left (by omega)] at hlt
  · have hlong : start + width ≤ (payload ++ more).length := by
      rw [List.length_append]
      omega
    rw [number_eq hlong, drop_append_of_le_length (by omega),
      take_append_of_le_length (by rw [length_drop]; omega)]

end Cursor

/-! ### Rows -/

namespace GridRowCodec

theorem reads_readRuns (runCount : Nat) {cells : List GridCell} (h : cells.length < 2 ^ 16) :
    Cursor.Reads (fun cells => cells.length < 2 ^ 16) (readRuns runCount cells) := by
  induction runCount generalizing cells with
  | zero => exact .pure h
  | succ runCount ih =>
    refine (@reads_number 2 (by decide)).bind fun repeated _ => ?_
    refine (@reads_number 4 (by decide)).bind fun scalar _ => ?_
    refine (@reads_number 4 (by decide)).bind fun fg _ => ?_
    refine (@reads_number 4 (by decide)).bind fun bg _ => ?_
    refine (@reads_number 2 (by decide)).bind fun style _ => ?_
    by_cases hlong : cells.length + repeated > 2 ^ 16 - 1
    · simp only [if_pos hlong]
      exact fun _ _ _ _ hread => by cases hread
    simp only [if_neg hlong]
    refine ih ?_
    rw [List.length_append, List.length_replicate]
    omega

theorem reads_readRow : Cursor.Reads (fun cells => cells.length < 2 ^ 16) readRow :=
  (@reads_number 2 (by decide)).bind fun runCount _ =>
    reads_readRuns runCount (by decide)

end GridRowCodec

theorem GridUpdate.reads_readRows (rowCount : Nat) :
    Cursor.Reads (fun rows => rows.length = rowCount ∧
      ∀ row ∈ rows, row.y < 2 ^ 16 ∧ row.cells.length < 2 ^ 16) (readRows rowCount) := by
  induction rowCount with
  | zero => exact .pure ⟨rfl, fun _ hrow => by cases hrow⟩
  | succ rowCount ih =>
    refine (@reads_number 2 (by decide)).bind fun y hy => ?_
    refine reads_readRow.bind fun cells hcells => ?_
    refine ih.bind fun rows hrows => .pure ⟨congrArg (· + 1) hrows.1, ?_⟩
    rintro row (_ | ⟨_, hrow⟩)
    · exact ⟨hy, hcells⟩
    · exact hrows.2 row hrow

/-! ### Updates -/

namespace GridUpdate

variable {payload bytes : List UInt8} {update : GridUpdate}

/-- The update whose header stands at the front of a payload. -/
def headed (payload : List UInt8) (changedRows : List ChangedRow) : GridUpdate where
  cols := word payload 0
  rows := word payload 2
  cursorCol := word payload 4
  cursorRow := word payload 6
  cursorVisible := UInt8.ofNat (beValue ((payload.drop 8).take 1)) &&& 1 ≠ 0
  isFullSnapshot := UInt8.ofNat (beValue ((payload.drop 8).take 1)) &&& 2 ≠ 0
  changedRows := changedRows

theorem decode_long (h : 11 ≤ payload.length) : decode payload =
    (readRows (word payload 9) ⟨payload, 11⟩).map fun read => headed payload read.1 := by
  unfold decode
  simp only [Cursor.u16, Cursor.u8, bind, Except.bind]
  rw [number_eq (by omega)]
  simp only
  rw [number_eq (by omega)]
  simp only
  rw [number_eq (by omega)]
  simp only
  rw [number_eq (by omega)]
  simp only
  rw [number_eq (by omega)]
  simp only
  rw [number_eq (by omega)]
  simp only [Nat.zero_add, Nat.reduceAdd]
  unfold word
  cases readRows (beValue ((payload.drop 9).take 2)) ⟨payload, 11⟩ with
  | error error => rfl
  | ok read => rfl

theorem length_of_decode (h : decode payload = .ok update) : 11 ≤ payload.length := by
  obtain ⟨⟨_, _⟩, hread, h⟩ := bind_eq_ok.mp h
  obtain ⟨-, rfl⟩ := number_ok hread (by decide)
  obtain ⟨⟨_, _⟩, hread, h⟩ := bind_eq_ok.mp h
  obtain ⟨-, rfl⟩ := number_ok hread (by decide)
  obtain ⟨⟨_, _⟩, hread, h⟩ := bind_eq_ok.mp h
  obtain ⟨-, rfl⟩ := number_ok hread (by decide)
  obtain ⟨⟨_, _⟩, hread, h⟩ := bind_eq_ok.mp h
  obtain ⟨-, rfl⟩ := number_ok hread (by decide)
  obtain ⟨⟨_, _⟩, hread, h⟩ := bind_eq_ok.mp h
  obtain ⟨-, rfl⟩ := number_ok hread (by decide)
  obtain ⟨⟨_, _⟩, hread, h⟩ := bind_eq_ok.mp h
  exact (number_ok hread (by decide)).1

theorem decode_eq_ok : decode payload = .ok update ↔ 11 ≤ payload.length ∧
    ∃ cursor, readRows (word payload 9) ⟨payload, 11⟩ = .ok (update.changedRows, cursor) ∧
      update = headed payload update.changedRows := by
  constructor
  · intro h
    have hlong := length_of_decode h
    rw [decode_long hlong] at h
    cases hread : readRows (word payload 9) ⟨payload, 11⟩ with
    | error error =>
      rw [hread] at h
      cases h
    | ok read =>
      rw [hread] at h
      obtain ⟨⟩ := h
      exact ⟨hlong, read.2, rfl, rfl⟩
  · rintro ⟨hlong, cursor, hread, hupdate⟩
    rw [decode_long hlong, hread]
    exact congrArg Except.ok hupdate.symm

theorem word_lt (payload : List UInt8) (index : Nat) : word payload index < 2 ^ 16 :=
  (beValue_lt _).trans_le (Nat.pow_le_pow_right (by decide) (length_take_le 2 _))

theorem rows_of_decode (h : decode payload = .ok update) :
    update.changedRows.length = word payload 9 ∧
      ∀ row ∈ update.changedRows, row.y < 2 ^ 16 ∧ row.cells.length < 2 ^ 16 := by
  obtain ⟨hlong, cursor, hread, -⟩ := decode_eq_ok.mp h
  exact (reads_readRows _ _ _ _ _ hread hlong).1

theorem fits_of_decode (h : decode payload = .ok update) : update.Fits := by
  have hrows := (rows_of_decode h).2
  obtain ⟨-, -, -, hupdate⟩ := decode_eq_ok.mp h
  rw [hupdate]
  exact ⟨word_lt _ 0, word_lt _ 2, word_lt _ 4, word_lt _ 6, fun row hrow => (hrows row hrow).1⟩

/-! ### What is written -/

theorem encodeRows_fails (rows : List ChangedRow) : (∃ error, encodeRows rows = .error error) ↔
    ∃ row ∈ rows, 65535 < row.cells.length := by
  induction rows with
  | nil => simp [encodeRows]
  | cons row rest ih =>
    rw [exists_mem_cons_iff, ← ih, encodeRows, GridRowCodec.encodeRow]
    by_cases hlong : row.cells.length > 2 ^ 16 - 1
    · rw [if_pos hlong]
      exact iff_of_true ⟨_, rfl⟩ (.inl hlong)
    rw [if_neg hlong, or_iff_right (show ¬65535 < row.cells.length from hlong)]
    cases encodeRows rest with
    | error error => exact iff_of_true ⟨error, rfl⟩ ⟨error, rfl⟩
    | ok more => exact iff_of_false (fun ⟨_, h⟩ => by cases h) fun ⟨_, h⟩ => by cases h

theorem encode_fails (update : GridUpdate) : (∃ error, update.encode = .error error) ↔
    65535 < update.changedRows.length ∨ ∃ row ∈ update.changedRows, 65535 < row.cells.length := by
  rw [← encodeRows_fails]
  unfold encode
  by_cases hmany : update.changedRows.length > 2 ^ 16 - 1
  · rw [if_pos hmany]
    exact iff_of_true ⟨_, rfl⟩ (.inl hmany)
  rw [if_neg hmany, or_iff_right (show ¬65535 < update.changedRows.length from hmany)]
  cases encodeRows update.changedRows with
  | error error => exact iff_of_true ⟨error, rfl⟩ ⟨error, rfl⟩
  | ok more => exact iff_of_false (fun ⟨_, h⟩ => by cases h) fun ⟨_, h⟩ => by cases h

theorem encode_ok (h : update.encode = .ok bytes) : ∃ header rows, header.length = 11 ∧
    encodeRows update.changedRows = .ok rows ∧ bytes = header ++ rows := by
  unfold encode at h
  split at h
  · cases h
  obtain ⟨rows, hrows, ⟨⟩⟩ := bind_eq_ok.mp h
  refine ⟨beBytes 2 update.cols ++ (beBytes 2 update.rows ++ (beBytes 2 update.cursorCol ++
    (beBytes 2 update.cursorRow ++ ([update.flags] ++ beBytes 2 update.changedRows.length)))),
    rows, by simp, hrows, by simp⟩

theorem decode_part (hfits : update.Fits) (h : update.encode = .ok bytes) {part : List UInt8}
    (hpart : part <+: bytes) (hless : part ≠ bytes) : ∃ error, decode part = .error error := by
  obtain ⟨more, rfl⟩ := hpart
  cases hdecode : decode part with
  | error error => exact ⟨error, rfl⟩
  | ok other =>
    obtain ⟨hlong, cursor, hread, -⟩ := decode_eq_ok.mp hdecode
    obtain ⟨-, stop, hstop, rfl, hmore⟩ := reads_readRows _ _ _ _ _ hread hlong
    obtain ⟨header, rows, hheader, hrows, hbytes⟩ := encode_ok h
    obtain ⟨last, hlast, hrest⟩ := @readRows_rest _ _ [] ⟨part ++ more, 11⟩ hrows hfits.y
       (by rw [Cursor.rest, hbytes, ← hheader, drop_left, append_nil])
    -- the whole payload is read to its end, the part no further than it goes
    have hcount := (rows_of_decode (decode_encode hfits h)).1
    unfold word at hcount hmore
    rw [drop_append_of_le_length (by omega),
      take_append_of_le_length (by rw [length_drop]; omega)] at hcount
    rw [hcount, hmore more] at hlast
    obtain ⟨-, rfl⟩ := Prod.mk.inj (Except.ok.inj hlast)
    have hend : (part ++ more).length ≤ stop := drop_eq_nil_iff.mp hrest
    rw [List.length_append] at hend
    have hnone : more = [] := length_eq_zero_iff.mp (by omega)
    exact absurd (by rw [hnone, append_nil]) hless

end GridUpdate

theorem GridRowCodec.decodeRows_encodeRows {rows : List (List GridCell)} {bytes : List UInt8}
    {cursor : Cursor} (h : encodeRows rows = .ok bytes) (hcursor : cursor.rest = bytes) :
    decodeRows rows.length cursor = .ok rows := by
  induction rows generalizing bytes cursor with
  | nil => rfl
  | cons row rest ih =>
    obtain ⟨first, hfirst, h⟩ := bind_eq_ok.mp h
    obtain ⟨more, hmore, ⟨⟩⟩ := bind_eq_ok.mp h
    obtain ⟨after, hrow, hafter⟩ := readRow_rest hfirst hcursor
    exact bind_eq_ok.mpr ⟨_, hrow, bind_eq_ok.mpr ⟨_, ih hmore hafter, rfl⟩⟩

/--
**The grid codec loses nothing and takes nothing for more than it is.**  What is written
is read back, as an update or as bare rows, and no part of it is accepted; nothing is written
just if a count does not fit in sixteen bits; and what is accepted can be written again, for
the same update.
-/
theorem grid_codec_exact : (∀ (update : GridUpdate) bytes, update.Fits → update.encode = .ok bytes →
      GridUpdate.decode bytes = .ok update ∧
        ∀ part, part <+: bytes → part ≠ bytes → ∃ error, GridUpdate.decode part = .error error) ∧
    (∀ update : GridUpdate, (∃ error, update.encode = .error error) ↔
      65535 < update.changedRows.length ∨ ∃ row ∈ update.changedRows, 65535 < row.cells.length) ∧
    (∀ rows bytes, GridRowCodec.encodeRows rows = .ok bytes →
      GridRowCodec.decodeRows rows.length ⟨bytes, 0⟩ = .ok rows) ∧
    ∀ payload update, GridUpdate.decode payload = .ok update →
      ∃ bytes, update.encode = .ok bytes ∧ GridUpdate.decode bytes = .ok update := by
  refine ⟨fun update bytes hfits h => ⟨decode_encode hfits h, fun part =>
    decode_part hfits h⟩, GridUpdate.encode_fails, fun rows bytes h =>
    decodeRows_encodeRows h rfl, fun payload update h => ?_⟩
  cases hencode : update.encode with
  | ok bytes => exact ⟨bytes, rfl, decode_encode (fits_of_decode h) hencode⟩
  | error error =>
    obtain ⟨hcount, hrows⟩ := GridUpdate.rows_of_decode h
    have hword := word_lt payload 9
    rcases (GridUpdate.encode_fails update).mp ⟨error, hencode⟩ with hmany | ⟨row, hrow, hlong⟩
    · omega
    · have hshort := (hrows row hrow).2
      omega

end Diri

namespace Diri.Wire

/-! ### Sizes -/

theorem length_encodeRows {cols : Nat} {rows : List ChangedRow} {bytes : List UInt8}
    (hrows : ∀ row ∈ rows, row.cells.length = cols) (h : GridUpdate.encodeRows rows = .ok bytes) :
    bytes.length ≤ rows.length * (4 + 16 * cols) := by
  induction rows generalizing bytes with
  | nil =>
    obtain ⟨⟩ := h
    exact Nat.zero_le _
  | cons row rest ih =>
    obtain ⟨first, hfirst, h⟩ := bind_eq_ok.mp h
    obtain ⟨more, hmore, ⟨⟩⟩ := bind_eq_ok.mp h
    have hless := ih (fun row hrow => hrows row (List.mem_cons_of_mem _ hrow)) hmore
    have hruns := GridRowCodec.runCount_le row.cells
    rw [hrows row List.mem_cons_self] at hruns
    unfold GridRowCodec.encodeRow at hfirst
    split at hfirst <;> obtain ⟨⟩ := hfirst
    have hbytes : ((GridRowCodec.runs row.cells).flatMap GridRowCodec.runBytes).length =
        GridRowCodec.runCount row.cells * 16 := by
      rw [List.length_flatMap, List.map_congr_left (g := fun _ => 16) (by simp
        [GridRowCodec.runBytes]), List.map_const', List.sum_replicate, GridRowCodec.length_runs]
      rfl
    simp only [List.length_append, length_beBytes, hbytes, List.length_cons]
    rw [Nat.succ_mul]
    omega

namespace RemoteCodec

variable {json : SerdeJson}

/--
**Every valid full snapshot fits into a frame**, whatever its cells are: a cell costs sixteen
bytes at most and a row four, and rows that are distinct are no more than the grid has.
-/
theorem snapshot_fits_frame (json : SerdeJson) (value : GridMessage) (output : List UInt8)
    (hvalid : validateGridUpdate value.grid = .ok ()) (hfull : value.grid.isFullSnapshot = true)
    (hdistinct : (value.grid.changedRows.map (·.y)).Nodup) :
    ∃ bytes, encodeInto json (.fullSnapshot value) output = (.ok (), output ++ bytes) := by
  obtain ⟨hdimensions, -, hrows⟩ := Diri.validateGridUpdate_ok.mp (validateGridUpdate_ok hvalid)
  obtain ⟨-, -, hcols, hlines, hcells⟩ := validateTerminalDimensions_ok.mp hdimensions
  simp only [maxTerminalCols, maxTerminalRows, maxTerminalCells] at hcols hlines hcells
  have hmany : value.grid.changedRows.length ≤ value.grid.rows := by
    have hsub : (value.grid.changedRows.map (·.y)) ⊆ List.range value.grid.rows := by
      intro y hy
      obtain ⟨row, hrow, rfl⟩ := List.mem_map.mp hy
      exact List.mem_range.mpr (hrows row hrow).1
    simpa using (hdistinct.subperm hsub).length_le
  cases hgrid : value.grid.encode with
  | error error =>
    rcases (GridUpdate.encode_fails _).mp ⟨error, hgrid⟩ with hbad | ⟨row, hrow, hbad⟩
    · omega
    · rw [(hrows row hrow).2] at hbad
      omega
  | ok grid =>
    obtain ⟨header, rows, hheader, hencoded, rfl⟩ := GridUpdate.encode_ok hgrid
    have hless := length_encodeRows (fun row hrow => (hrows row hrow).2) hencoded
    have hbound : rows.length ≤ 4 * 4096 + 16 * 1000000 := calc
      rows.length ≤ value.grid.changedRows.length * (4 + 16 * value.grid.cols) := hless
      _ ≤ value.grid.rows * (4 + 16 * value.grid.cols) := Nat.mul_le_mul_right _ hmany
      _ = 4 * value.grid.rows + 16 * (value.grid.cols * value.grid.rows) := by ring
      _ ≤ 4 * 4096 + 16 * 1000000 := by omega
    have hpayload : payload json (.fullSnapshot value) = .ok (kindFullSnapshot,
        beBytes 8 value.sequence.toNat ++ ([modesByte value] ++ (header ++ rows))) := by
      simp only [payload, hvalid, hfull, gridPayload, hgrid]
      rfl
    have hlength : (beBytes 8 value.sequence.toNat ++ ([modesByte value] ++
        (header ++ rows))).length = 20 + rows.length := by
      simp only [List.length_append, length_beBytes, hheader, List.length_singleton]
      omega
    unfold encodeInto
    simp only [hpayload, bind, Except.bind, checkLength, hlength]
    rw [if_neg (by unfold maxFrameBytes; omega), if_neg (by rintro ⟨h, -⟩; cases h)]
    simp only [pure, Except.pure]
    rw [if_neg (by omega)]
    exact ⟨_, rfl⟩

theorem snapshot_fits_frame_cell : ∃ bytes, encodeInto releaseJson
    (.fullSnapshot { oneCellDelta with grid := { oneCellDelta.grid with isFullSnapshot := true } })
      [7] = (.ok (), [7] ++ bytes) :=
  snapshot_fits_frame releaseJson _ [7] rfl rfl (by decide)

/-! ### Cells -/

theorem decodeGrid_of_decodeMessage {kind : UInt8} {bytes : List UInt8} {message : RemoteMessage}
    {value : GridMessage} (h : decodeMessage json kind bytes = .ok message)
    (hgrid : message = .fullSnapshot value ∨ message = .gridDelta value) :
    decodeGrid bytes = .ok value := by
  unfold decodeMessage decodeTerminal at h
  split at h
  · split at h <;> rcases hgrid with rfl | rfl <;> cases h
  · simp only [bind, Except.bind, pure, Except.pure, throw, throwThe, MonadExceptOf.throw] at h
    split at h <;> rcases hgrid with rfl | rfl <;> grind

/--
**A grid that is decoded has a million cells at most just if its width times the number of
its rows says so**: of both the header tells, and nothing bounds the two together.
-/
theorem decoded_cells_iff {kind : UInt8} {bytes : List UInt8} {message : RemoteMessage}
    {value : GridMessage} (h : decodeMessage json kind bytes = .ok message)
    (hgrid : message = .fullSnapshot value ∨ message = .gridDelta value) :
    (value.grid.changedRows.map (·.cells.length)).sum ≤ maxTerminalCells ↔
      word bytes 9 * word bytes 18 ≤ maxTerminalCells := by
  have hdecode := decodeGrid_of_decodeMessage h hgrid
  unfold decodeGrid at hdecode
  split at hdecode
  · cases hdecode
  rename_i grid hread
  obtain ⟨⟨⟩, hvalid, ⟨⟩⟩ := bind_eq_ok.mp hdecode
  have hcount := (GridUpdate.rows_of_decode hread).1
  obtain ⟨-, -, -, hupdate⟩ := GridUpdate.decode_eq_ok.mp hread
  have hcols : grid.cols = word (bytes.drop 9) 0 := congrArg GridUpdate.cols hupdate
  have hrows := (Diri.validateGridUpdate_ok.mp (validateGridUpdate_ok hvalid)).2.2
  unfold word at hcols hcount
  rw [List.map_congr_left fun row hrow => (hrows row hrow).2, List.map_const', List.sum_replicate,
    hcount, hcols, List.drop_drop, List.drop_drop]
  show _ * _ ≤ _ ↔ _
  rw [Nat.mul_comm]
  rfl

theorem decoded_cells_iff_cell : ∃ bytes,
    ((oneCellDelta.grid.changedRows.map (·.cells.length)).sum ≤ maxTerminalCells ↔
      word bytes 9 * word bytes 18 ≤ maxTerminalCells) :=
  ⟨_, decoded_cells_iff (decode_payload releaseJson_roundTrips
    (show payload _ (.gridDelta oneCellDelta) = _ from rfl)).2 (.inr rfl)⟩

def repeatedRow : GridMessage where
  sequence := 1
  altScreen := false
  bracketedPaste := false
  mouseReporting := false
  grid :=
    { cols := 4096
      rows := 1
      cursorCol := 0
      cursorRow := 0
      cursorVisible := true
      isFullSnapshot := false
      changedRows := List.replicate 245 ⟨0, List.replicate 4096 .blank⟩ }

theorem decoded_cells_unbounded : ∃ bytes,
    decodeMessage releaseJson kindGridDelta bytes = .ok (.gridDelta repeatedRow) ∧
      ¬(repeatedRow.grid.changedRows.map (·.cells.length)).sum ≤ maxTerminalCells := by
  have hcells : ∀ row ∈ repeatedRow.grid.changedRows, row.cells.length = 4096 := by
    intro row hrow
    rw [List.eq_of_mem_replicate hrow]
    exact List.length_replicate
  have hcount : repeatedRow.grid.changedRows.length = 245 := List.length_replicate
  cases hencode : repeatedRow.grid.encode with
  | error error =>
    rcases (GridUpdate.encode_fails _).mp ⟨error, hencode⟩ with hbad | ⟨row, hrow, hbad⟩
    · omega
    · rw [hcells row hrow] at hbad
      omega
  | ok grid =>
    have hvalid : Diri.validateGridUpdate repeatedRow.grid = .ok () :=
      Diri.validateGridUpdate_ok.mpr ⟨rfl, by decide, fun row hrow =>
        ⟨by rw [List.eq_of_mem_replicate hrow]; exact Nat.one_pos, hcells row hrow⟩⟩
    have hpayload : payload releaseJson (.gridDelta repeatedRow) = .ok (kindGridDelta,
        beBytes 8 repeatedRow.sequence.toNat ++ ([modesByte repeatedRow] ++ grid)) := by
      simp only [payload, validateGridUpdate, hvalid, gridPayload, hencode]
      rfl
    refine ⟨_, (decode_payload releaseJson_roundTrips hpayload).2, ?_⟩
    rw [List.map_congr_left hcells, List.map_const', List.sum_replicate, hcount]
    decide

end RemoteCodec

end Diri.Wire

/-! ### `encode_into`: the buffer gains a frame, or nothing

Behind what the buffer held, a message that is written leaves a header without its length and its
payload; one that is not leaves what will be cut off (`Written`). -/

namespace Diri.Wire.RemoteCodec

open Handler Buffered List

variable {json : SerdeJson} {partly : (kind : ControlKind) → kind.Payload → List UInt8}
  {output : List UInt8} {payload : Except RemoteCodecError (UInt8 × List UInt8)} {m : Buffered}

/-- A buffer and the header that is not filled in yet. -/
def opened (output : List UInt8) : List UInt8 := output ++ List.replicate headerBytes 0

/-- What has become of the buffer, by the payload that was to be written. -/
def Written (output : List UInt8) (m : Buffered) :
    Except RemoteCodecError (UInt8 × List UInt8) → Prop
  | .ok (kind, bytes) =>
    exec m (opened output) = (.ok (), output ++ (kind :: List.replicate 4 0 ++ bytes))
  | .error error => ∃ after, exec m (opened output) = (.error error, after) ∧
      after.take output.length = output

theorem set_opened (output : List UInt8) (kind : UInt8) :
    (opened output).set output.length kind = output ++ (kind :: List.replicate 4 0) := by
  unfold opened
  rw [set_append_right _ _ (Nat.le_refl _), Nat.sub_self]
  rfl

theorem exec_rollback (start : Nat) (error : RemoteCodecError) (output : List UInt8) :
    exec (rollback start error) output = (.error error, output.take start) := rfl

theorem written_check {result : Except RemoteCodecError Unit} (h : Written output m payload) :
    Written output (check result >>= fun _ => m) (result >>= fun _ => payload) := by
  cases result with
  | ok _ => exact h
  | error error => exact ⟨opened output, rfl, take_left⟩

theorem written_json (kind : ControlKind) (value : kind.Payload) :
    Written output (writeJson json partly kind value output.length)
      (appendJson json kind value) := by
  unfold writeJson appendJson
  cases json.toWriter kind value with
  | ok bytes =>
    show exec (putKind _ _ >>= fun _ => extend bytes) (opened output) = _
    simp only [putKind, extend, exec_bind, exec_modify, set_opened, append_assoc]
  | error detail =>
    refine ⟨output ++ (kind.toByte :: List.replicate 4 0 ++ partly kind value), ?_, take_left⟩
    simp only [putKind, extend, exec_bind, exec_modify, exec_throw, set_opened, append_assoc]

theorem written_grid (kind : UInt8) (refused : Bool) (reason : String) (value : GridMessage) :
    Written output (writeGrid kind refused reason value output.length) (do
      validateGridUpdate value.grid if refused then throw (.invalidFullSnapshot reason)
      return (kind, ← gridPayload value)) := by
  refine written_check ?_
  unfold gridPayload
  cases refused with
  | true =>
    refine ⟨output, ?_, take_length⟩
    simp only [putKind, extend, rollback, exec_bind, exec_modify, set_opened, append_assoc,
      if_true, exec_throw, take_left]
  | false =>
    cases value.grid.encode with
    | ok bytes =>
      show exec _ (opened output) = _
      simp [putKind, extend, exec_bind, set_opened]
    | error error =>
      refine ⟨output ++ (kind :: List.replicate 4 0 ++ (beBytes 8 value.sequence.toNat ++
        [modesByte value])), ?_, take_left⟩
      simp [putKind, extend, exec_bind, set_opened]

variable (message : RemoteMessage)

/-- Every branch writes the payload behind an unfinished header, or fails as it does. -/
theorem written_message : Written output (writeMessage json partly message output.length)
      (RemoteCodec.payload json message) := by
  cases message with
  | terminal frame =>
    show exec (putKind _ _ >>= fun _ => extend frame.payload) (opened output) = _
    simp only [putKind, extend, exec_bind, exec_modify, set_opened, append_assoc]
  | hello value | helloAck value | acquireControl value | scrollbackRequest value =>
    exact written_check (written_json _ _)
  | fullSnapshot value | gridDelta value => exact written_grid _ _ _ value
  | processExit value | signal value | controlGranted value | controlRevoked value
  | releaseControl value | scrollbackResponse value | error value => exact written_json _ _

/-- **The steps come to the function.** -/
theorem exec_encodeBuffered :
    exec (encodeBuffered json partly message) output = encodeInto json message output := by
  have hwritten := @written_message json partly output message
  unfold encodeBuffered encodeInto
  simp only [exec_bind, exec_get, extend, exec_modify, exec_tryCatch]
  rw [← opened]
  cases hpayload : RemoteCodec.payload json message with
  | error error =>
    rw [hpayload] at hwritten
    obtain ⟨after, hexec, hafter⟩ := hwritten
    simp only [hexec, exec_rollback, hafter]
    rfl
  | ok found =>
    obtain ⟨kind, bytes⟩ := found
    rw [hpayload] at hwritten
    replace hwritten : exec _ (opened output) = (.ok (), _) := hwritten
    have hlength : (output ++ (kind :: List.replicate 4 0 ++ bytes)).length - output.length -
        headerBytes = bytes.length := by
      simp only [length_append, length_cons, length_replicate, headerBytes]
      omega
    have hkind : (output ++ (kind :: List.replicate 4 0 ++ bytes)).getD output.length 0 = kind := by
      simp [getD_eq_getElem?_getD]
    simp only [hwritten, hlength, hkind, bind, Except.bind, checkLength]
    by_cases hlong : bytes.length > maxFrameBytes
    · simp only [if_pos hlong, exec_rollback, take_left]
      rfl
    by_cases hcontrol : isControl kind ∧ bytes.length > maxControlFrameBytes
    · simp only [if_neg hlong, if_pos hcontrol, exec_rollback, take_left]
      rfl
    have hword : ¬bytes.length ≥ 2 ^ 32 := by
      unfold maxFrameBytes at hlong
      omega
    simp only [if_neg hlong, if_neg hcontrol, if_neg hword, exec_modify, pure, Except.pure]
    have htake : (output ++ (kind :: List.replicate 4 0 ++ bytes)).take (output.length + 1) =
        output ++ [kind] := by
      rw [take_append, take_of_length_le (Nat.le_succ _)]
      simp
    have hdrop : (output ++ (kind :: List.replicate 4 0 ++ bytes)).drop
        (output.length + headerBytes) = bytes := by
      rw [drop_append, drop_eq_nil_of_le (Nat.le_add_right _ _)]
      simp [headerBytes]
    rw [htake, hdrop]
    simp [Framing.header]

theorem encodeInto_eq : encodeInto json message output =
    match encode json message with
    | .ok bytes => (.ok (), output ++ bytes)
    | .error error => (.error error, output) := by
  unfold encode encodeInto
  dsimp only
  split <;> rfl

/--
**Encoding adds one frame to the buffer, or nothing.**  The length in its header is that of
its payload, which is within the bounds for its kind; and whatever fails, after whatever has
been written, the buffer holds what it held.
-/
theorem encode_into_frame_law (json : SerdeJson)
    (partly : (kind : ControlKind) → kind.Payload → List UInt8) (message : RemoteMessage)
    (output : List UInt8) : (∃ kind bytes, exec (encodeBuffered json partly message) output =
        (.ok (), output ++ (Framing.header kind bytes.length ++ bytes)) ∧
      beValue ((Framing.header kind bytes.length).drop 1) = bytes.length ∧
      bytes.length ≤ maxFrameBytes ∧
      (isControl kind = true → bytes.length ≤ maxControlFrameBytes)) ∨
    ∃ error, exec (encodeBuffered json partly message) output = (.error error, output) := by
  rw [exec_encodeBuffered, encodeInto_eq]
  cases hencode : encode json message with
  | error error => exact .inr ⟨error, rfl⟩
  | ok encoded =>
    obtain ⟨kind, bytes, -, hcheck, hlength, rfl⟩ := encode_frame hencode
    refine .inl ⟨kind, bytes, rfl, beValue_beBytes hlength, ?_⟩
    simp only [checkLength, bind, Except.bind, pure, Except.pure] at hcheck
    split at hcheck
    · cases hcheck
    split at hcheck
    · cases hcheck
    · next hcontrol =>
      exact ⟨by omega, fun hkind => Nat.not_lt.mp fun hlong => hcontrol ⟨hkind, hlong⟩⟩

end Diri.Wire.RemoteCodec
