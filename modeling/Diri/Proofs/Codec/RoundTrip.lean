/-
Chunks do not matter.

`RemoteCodec` and `FrameCodec` are both framings by kind, length and payload, so what
`Framing.chunkFree` says of every framing is true of them: the messages, the first error
and the bytes left over are those of the whole stream fed at once, and an error stays.
What is left over is less than a frame: less than a header, or less than its header
announces.

A grid update is read back as it was written.

A cursor that stands before the bytes of something reads that thing and then stands
behind them.  This is shown from the numbers up: numbers, the runs of a row, a row, the
rows, the update.  A row is its runs written out (`expand_runs`).

The fields are sixteen bits wide on the wire, so the update must fit; validation is what
makes it fit (`Proofs.Codec.RoundTrip`).

What the remote codec writes, it reads back.

For every message that the encoder accepts, `decodeMessage` undoes `payload`: there is one
case for each constructor, the JSON ones through `decode_control`.  The checks on both
sides are the same, the caps are the same, and the kinds that are written are the kinds
that are known.  A list of encodings is then a stream of frames (`Framing.Written`), which
is read to its end.

`serde_json` is taken to give back what it wrote.
-/
import Diri.Proto.RemoteCodec

namespace Diri

open List

/-- Less than a header, or less than the header announces. -/
def PartialFrame (buffer : List UInt8) : Prop :=
  buffer.length < headerBytes ∨ buffer.length < headerBytes + beValue ((buffer.drop 1).take 4)

theorem Framing.ChunkFree.partialFrame {ε μ : Type} {accept : UInt8 → Nat → Except ε Unit}
    {decode : UInt8 → List UInt8 → Except ε μ} {chunks : List (List UInt8)}
    (h : (Framing.prefixed accept decode).ChunkFree chunks)
    (hok : ∀ error, Except.error error ∉ ((Framing.prefixed accept decode).feedAll [] chunks).1) :
    PartialFrame ((Framing.prefixed accept decode).feedAll [] chunks).2 :=
  Framing.length_of_short accept decode (h.rest hok)

/-- **However a stream is cut into chunks, the codecs read the same from it.** -/
theorem decodes_however_cut (json : Wire.SerdeJson) (chunks : List (List UInt8)) :
    ((Wire.RemoteCodec.framing json).ChunkFree chunks ∧
      ((∀ error, Except.error error ∉ ((Wire.RemoteCodec.framing json).feedAll [] chunks).1) →
        PartialFrame ((Wire.RemoteCodec.framing json).feedAll [] chunks).2)) ∧
    (FrameCodec.framing.ChunkFree chunks ∧
      ((∀ error, Except.error error ∉ (FrameCodec.framing.feedAll [] chunks).1) →
        PartialFrame (FrameCodec.framing.feedAll [] chunks).2)) := by
  have hremote := (Wire.RemoteCodec.framing json).chunkFree chunks
  have hframe := FrameCodec.framing.chunkFree chunks
  exact ⟨⟨hremote, hremote.partialFrame⟩, ⟨hframe, hframe.partialFrame⟩⟩

/-! ### Frames -/

namespace FrameCodec

theorem toByte_of_tryFrom {value : UInt8} {frameType : FrameType}
    (h : FrameType.tryFrom value = .ok frameType) : frameType.toByte = value := by
  unfold FrameType.tryFrom at h
  split at h <;> cases h <;> exact UInt8.toNat_inj.mp (Eq.symm ‹_›)

theorem front_encode {frame : Frame} {bytes : List UInt8} (h : encode frame = .ok bytes)
    (more : List UInt8) : framing.front (bytes ++ more) = .frame frame bytes.length := by
  simp only [encode] at h
  split at h
  · cases h
  next hmax =>
    split at h <;> cases h
    refine Framing.prefixedFront_written accept decode ?_ ?_ (by omega) more
    · simp [accept, hmax, bind, Except.bind, pure, Except.pure]
    · simp [decode, bind, Except.bind, pure, Except.pure]

/-- A frame that is found is what it is written as. -/
theorem encode_of_front {buffer : List UInt8} {frame : Frame} {length : Nat}
    (h : framing.front buffer = .frame frame length) : encode frame = .ok (buffer.take length) := by
  change Framing.prefixedFront accept decode buffer = _ at h
  by_cases hshort : buffer.length < 5
  · rw [Framing.prefixedFront_short _ _ hshort] at h
    cases h
  obtain ⟨kind, b₁, b₂, b₃, b₄, rest, rfl⟩ := Framing.exists_header (not_lt.mp hshort)
  have hbytes := beBytes_beValue [b₁, b₂, b₃, b₄]
  rw [Framing.prefixedFront_cons] at h
  generalize beValue [b₁, b₂, b₃, b₄] = size at h hbytes
  cases htype : FrameType.tryFrom kind with
  | error error =>
    simp [accept, htype, bind, Except.bind] at h
  | ok frameType =>
    by_cases hmax : size > maxFrameBytes
    · simp [accept, htype, bind, Except.bind, hmax] at h
    simp [accept, decode, htype, bind, Except.bind, hmax, pure, Except.pure] at h
    split at h
    · cases h
    · next hlong =>
      cases h
      have hlength : (rest.take size).length = size :=
        length_take_of_le (not_lt.mp hlong)
      have hmost : maxFrameBytes < 2 ^ 32 := by decide
      simp only [encode, hlength]
      rw [if_neg hmax, if_neg (by omega), toByte_of_tryFrom htype, Nat.add_comm]
      simp only [Framing.header, take_succ_cons]
      exact congrArg (fun digits => Except.ok (kind :: digits ++ rest.take size)) hbytes

/-- What is read is what the frames are written as, and what is left. -/
theorem encode_of_scan {stream rest : List UInt8} {frames : List Frame}
    (h : framing.scan stream = .ok (frames, rest)) : ∃ encodings,
      Forall₂ (fun frame bytes => encode frame = .ok bytes) frames encodings ∧
        stream = encodings.flatten ++ rest := by
  induction stream using framing.scan_induction generalizing frames with
  | short stream hfront =>
    rw [Framing.scan_short hfront] at h
    cases h
    exact ⟨[], .nil, rfl⟩
  | bad stream error hfront =>
    rw [Framing.scan_bad hfront] at h
    cases h
  | frame stream frame length hfront ih =>
    rw [Framing.scan_frame hfront] at h
    cases hscan : framing.scan (stream.drop length) with
    | error error => simp [hscan, Except.map] at h
    | ok result =>
      rw [hscan] at h
      cases h
      obtain ⟨encodings, hencode, hdrop⟩ := ih hscan
      refine ⟨stream.take length :: encodings, .cons (encode_of_front hfront) hencode, ?_⟩
      rw [flatten_cons, append_assoc, ← hdrop, take_append_drop]

/-- **Streams of frames are lists of frames.**  However it is cut, a stream of frames that were
written is read as these and to its end; and a stream that is read without an error is the
frames it gave, written one after the other, and the part of a frame that is left. -/
theorem frame_stream_exact (chunks : List (List UInt8)) :
    (∀ frames encodings, Forall₂ (fun frame bytes => encode frame = .ok bytes) frames encodings →
      chunks.flatten = encodings.flatten → ∃ batches : List (List Frame),
        framing.feedAll [] chunks = (batches.map .ok, []) ∧ batches.flatten = frames) ∧
    ((∀ error, Except.error error ∉ (framing.feedAll [] chunks).1) →
      ∃ (batches : List (List Frame)) (encodings : List (List UInt8)),
        (framing.feedAll [] chunks).1 = batches.map .ok ∧
        Forall₂ (fun frame bytes => encode frame = .ok bytes) batches.flatten encodings ∧
        chunks.flatten = encodings.flatten ++ (framing.feedAll [] chunks).2 ∧
        PartialFrame (framing.feedAll [] chunks).2) := by
  have hcut := Framing.feedAll_eq framing.front_nil chunks
  rw [nil_append] at hcut
  constructor
  · intro frames encodings hencode hstream
    have hwritten : framing.Written frames encodings.flatten := by
      clear hstream
      induction hencode with
      | nil => exact .nil
      | cons hframe _ ih => exact .cons (front_encode hframe) ih
    rw [hstream, hwritten.scan] at hcut
    rcases hcut with ⟨batches, rest, hall, hscan⟩ | ⟨_, _, _, _, hscan⟩ <;> cases hscan
    exact ⟨batches, hall, rfl⟩
  · intro hok
    rcases hcut with ⟨batches, rest, hall, hscan⟩ | ⟨batches, n, error, hall, -⟩
    · obtain ⟨encodings, hencode, hstream⟩ := encode_of_scan hscan
      refine ⟨batches, encodings, by rw [hall], hencode, by rw [hstream, hall], ?_⟩
      exact (framing.chunkFree chunks).partialFrame hok
    · refine absurd ?_ (hok error)
      rw [hall]
      exact mem_append_right _ (mem_replicate.mpr ⟨by omega, rfl⟩)

end FrameCodec
/-! ### Colors -/

namespace TermColor

theorem toNat_or_of_lt {high low : UInt32} {i k : Nat} (hhigh : high.toNat = 2 ^ i * k)
    (hlow : low.toNat < 2 ^ i) : (high ||| low).toNat = high.toNat + low.toNat := by
  rw [UInt32.toNat_or, hhigh, ← Nat.two_pow_add_eq_or_of_lt hlow k]

theorem toNat_ansi (color : UInt8) : (packed (.ansi color)).toNat = 2 ^ 25 + color.toNat := by
  have hcolor := color.toNat_lt
  have htag : ((2 : UInt32) <<< 24).toNat = 2 ^ 25 * 1 := by decide
  show (((2 : UInt32) <<< 24) ||| color.toUInt32).toNat = _
  rw [toNat_or_of_lt htag (by rw [UInt8.toNat_toUInt32]; omega), htag, UInt8.toNat_toUInt32,
    Nat.mul_one]

theorem toNat_rgb (red green blue : UInt8) : (packed (.rgb red green blue)).toNat
      = 3 * 2 ^ 24 + red.toNat * 2 ^ 16 + green.toNat * 2 ^ 8 + blue.toNat := by
  have hred := red.toNat_lt
  have hgreen := green.toNat_lt
  have hblue := blue.toNat_lt
  have htag : ((3 : UInt32) <<< 24).toNat = 3 * 2 ^ 24 := by decide
  have hr : (red.toUInt32 <<< 16).toNat = red.toNat * 2 ^ 16 := by
    rw [UInt32.toNat_shiftLeft, UInt8.toNat_toUInt32, Nat.shiftLeft_eq]
    exact Nat.mod_eq_of_lt (by simp only [UInt32.reduceToNat, Nat.reduceMod, Nat.reducePow]; omega)
  have hg : (green.toUInt32 <<< 8).toNat = green.toNat * 2 ^ 8 := by
    rw [UInt32.toNat_shiftLeft, UInt8.toNat_toUInt32, Nat.shiftLeft_eq]
    exact Nat.mod_eq_of_lt (by simp only [UInt32.reduceToNat, Nat.reduceMod, Nat.reducePow]; omega)
  have hb : blue.toUInt32.toNat = blue.toNat := UInt8.toNat_toUInt32 blue
  show (((3 : UInt32) <<< 24) ||| (red.toUInt32 <<< 16) ||| (green.toUInt32 <<< 8) |||
    blue.toUInt32).toNat = _
  have h₁ : (((3 : UInt32) <<< 24) ||| (red.toUInt32 <<< 16)).toNat
      = 3 * 2 ^ 24 + red.toNat * 2 ^ 16 := by
    rw [toNat_or_of_lt (i := 24) (k := 3) (by rw [htag, Nat.mul_comm]) (by rw [hr]; omega),
      htag, hr]
  have h₂ : (((3 : UInt32) <<< 24) ||| (red.toUInt32 <<< 16) ||| (green.toUInt32 <<< 8)).toNat
      = 3 * 2 ^ 24 + red.toNat * 2 ^ 16 + green.toNat * 2 ^ 8 := by
    rw [toNat_or_of_lt (i := 16) (k := 3 * 2 ^ 8 + red.toNat) (by rw [h₁]; omega)
      (by rw [hg]; omega), h₁, hg]
  rw [toNat_or_of_lt (i := 8) (k := (3 * 2 ^ 8 + red.toNat) * 2 ^ 8 + green.toNat)
    (by rw [h₂]; omega) (by rw [hb]; omega), h₂, hb]

theorem byteAt (value shift : UInt32) (byte : UInt8)
    (h : value.toNat / 2 ^ (shift.toNat % 32) % 256 = byte.toNat) :
    ((value >>> shift) &&& 0xff).toUInt8 = byte := by
  apply UInt8.toNat_inj.mp
  rw [UInt32.toNat_toUInt8, UInt32.toNat_and, UInt32.toNat_shiftRight, Nat.shiftRight_eq_div_pow,
    show (0xff : UInt32).toNat = 2 ^ 8 - 1 from rfl, Nat.and_two_pow_sub_one_eq_mod, ← h]
  omega

@[simp] theorem unpack_packed (color : TermColor) : unpack color.packed = color := by
  cases color with
  | default => rfl
  | defaultInverted => rfl
  | ansi color =>
    have hcolor := color.toNat_lt
    have hvalue := toNat_ansi color
    have htag : (packed (.ansi color) >>> 24).toNat = 2 := by
      rw [UInt32.toNat_shiftRight, Nat.shiftRight_eq_div_pow, hvalue]
      simp only [UInt32.reduceToNat, Nat.reduceMod, Nat.reducePow]
      omega
    have hindex := byteAt (packed (.ansi color)) 0 color
      (by rw [hvalue]; simp only [UInt32.reduceToNat, Nat.reduceMod, Nat.reducePow]; omega)
    rw [UInt32.shiftRight_zero] at hindex
    unfold unpack
    rw [htag]
    simp only
    rw [hindex]
  | rgb red green blue =>
    have hred := red.toNat_lt
    have hgreen := green.toNat_lt
    have hblue := blue.toNat_lt
    have hvalue := toNat_rgb red green blue
    have htag : (packed (.rgb red green blue) >>> 24).toNat = 3 := by
      rw [UInt32.toNat_shiftRight, Nat.shiftRight_eq_div_pow, hvalue]
      simp only [UInt32.reduceToNat, Nat.reduceMod, Nat.reducePow]
      omega
    have hr := byteAt (packed (.rgb red green blue)) 16 red
      (by rw [hvalue]; simp only [UInt32.reduceToNat, Nat.reduceMod, Nat.reducePow]; omega)
    have hg := byteAt (packed (.rgb red green blue)) 8 green
      (by rw [hvalue]; simp only [UInt32.reduceToNat, Nat.reduceMod, Nat.reducePow]; omega)
    have hb := byteAt (packed (.rgb red green blue)) 0 blue
      (by rw [hvalue]; simp only [UInt32.reduceToNat, Nat.reduceMod, Nat.reducePow]; omega)
    rw [UInt32.shiftRight_zero] at hb
    unfold unpack
    rw [htag]
    simp only
    rw [hr, hg, hb]

end TermColor

/-! ### Runs -/

namespace GridRowCodec

def expand (run : Nat × GridCell) : List GridCell := List.replicate run.1 run.2

theorem expand_runsFrom (cell : GridCell) (repeated : Nat) (rest : List GridCell) :
    (runsFrom cell repeated rest).flatMap expand = List.replicate repeated cell ++ rest := by
  induction rest generalizing cell repeated with
  | nil => simp [runsFrom, expand]
  | cons next rest ih =>
    unfold runsFrom
    by_cases h : next = cell ∧ repeated < 2 ^ 16 - 1
    · rw [if_pos h, ih, h.1, replicate_succ']
      simp
    · rw [if_neg h, flatMap_cons, ih]
      rfl

variable (cells : List GridCell)

/-- **A row is its runs, written out.** -/
theorem expand_runs : (runs cells).flatMap expand = cells := by
  cases cells with
  | nil => rfl
  | cons cell rest => exact expand_runsFrom cell 1 rest

theorem runsFrom_le {cell : GridCell} {repeated : Nat} {rest : List GridCell}
    (h : repeated < 2 ^ 16) : ∀ run ∈ runsFrom cell repeated rest, run.1 < 2 ^ 16 := by
  induction rest generalizing cell repeated with
  | nil =>
    intro run hrun
    rw [mem_singleton.mp hrun]
    exact h
  | cons next rest ih =>
    unfold runsFrom
    by_cases hsame : next = cell ∧ repeated < 2 ^ 16 - 1
    · rw [if_pos hsame]
      exact ih (by omega)
    rw [if_neg hsame]
    intro run hrun
    rcases mem_cons.mp hrun with rfl | hrun
    · exact h
    · exact ih (by decide) run hrun

theorem runs_le : ∀ run ∈ runs cells, run.1 < 2 ^ 16 := by
  cases cells with
  | nil =>
    intro run hrun
    cases hrun
  | cons cell rest => exact runsFrom_le (by decide)

theorem length_runsFrom (cell : GridCell) (repeated : Nat) (rest : List GridCell) :
    (runsFrom cell repeated rest).length = countRuns cell repeated rest := by
  induction rest generalizing cell repeated with
  | nil => rfl
  | cons next rest ih =>
    unfold runsFrom countRuns
    by_cases h : next = cell ∧ repeated < 2 ^ 16 - 1
    · rw [if_pos h, if_pos h, ih]
    · rw [if_neg h, if_neg h, length_cons, ih, Nat.add_comm]

theorem length_runs : (runs cells).length = runCount cells := by
  cases cells with
  | nil => rfl
  | cons cell rest => exact length_runsFrom cell 1 rest

end GridRowCodec

/-! ### Reading -/

namespace Cursor

/-- What the cursor stands before. -/
def rest (cursor : Cursor) : List UInt8 := cursor.payload.drop cursor.offset

theorem take_rest {cursor : Cursor} {bytes post : List UInt8} (h : cursor.rest = bytes ++ post) :
    ∃ cursor' : Cursor, cursor.take bytes.length = .ok (bytes, cursor') ∧ cursor'.rest = post := by
  have hdrop : cursor.payload.drop cursor.offset = bytes ++ post := h
  have hlength : cursor.payload.length - cursor.offset = bytes.length + post.length := by
    rw [← length_drop, hdrop, List.length_append]
  refine ⟨{ cursor with offset := cursor.offset + bytes.length }, ?_, ?_⟩
  · unfold take
    simp only
    rw [if_neg (by omega), hdrop, take_left]
  · show cursor.payload.drop (cursor.offset + bytes.length) = post
    rw [← drop_drop, hdrop, drop_left]

theorem number_rest {cursor : Cursor} {width value : Nat} {post : List UInt8}
    (h : cursor.rest = beBytes width value ++ post) (hvalue : value < 256 ^ width) :
    ∃ cursor' : Cursor, cursor.number width = .ok (value, cursor') ∧ cursor'.rest = post := by
  obtain ⟨cursor', htake, hrest⟩ := take_rest h
  rw [length_beBytes] at htake
  refine ⟨cursor', ?_, hrest⟩
  unfold number
  rw [htake]
  simp only [bind, Except.bind, pure, Except.pure, beValue_beBytes hvalue]

end Cursor

namespace GridRowCodec

theorem readRuns_rest (runs : List (Nat × GridCell)) {cells : List GridCell} {cursor : Cursor}
    {post : List UInt8} (h : cursor.rest = runs.flatMap runBytes ++ post)
    (hcount : ∀ run ∈ runs, run.1 < 2 ^ 16)
    (hlength : (cells ++ runs.flatMap expand).length < 2 ^ 16) :
    ∃ cursor' : Cursor, readRuns runs.length cells cursor
        = .ok (cells ++ runs.flatMap expand, cursor') ∧ cursor'.rest = post := by
  induction runs generalizing cells cursor with
  | nil =>
    refine ⟨cursor, ?_, h⟩
    simp [readRuns]
  | cons run runs ih =>
    obtain ⟨repeated, cell⟩ := run
    have hrepeated : repeated < 2 ^ 16 := hcount _ mem_cons_self
    rw [flatMap_cons, runBytes] at h
    simp only [List.append_assoc] at h
    obtain ⟨c₁, hread₁, hrest₁⟩ := Cursor.number_rest h hrepeated
    obtain ⟨c₂, hread₂, hrest₂⟩ := Cursor.number_rest hrest₁ cell.scalar.toNat_lt
    obtain ⟨c₃, hread₃, hrest₃⟩ := Cursor.number_rest hrest₂ cell.fg.packed.toNat_lt
    obtain ⟨c₄, hread₄, hrest₄⟩ := Cursor.number_rest hrest₃ cell.bg.packed.toNat_lt
    obtain ⟨c₅, hread₅, hrest₅⟩ := Cursor.number_rest hrest₄ cell.style.toNat_lt
    have hexpand : cells ++ List.replicate repeated cell ++ runs.flatMap expand
        = cells ++ ((repeated, cell) :: runs).flatMap expand := by
      rw [flatMap_cons, List.append_assoc]
      rfl
    rw [← hexpand] at hlength ⊢
    obtain ⟨cursor', hread, hrest⟩ := ih hrest₅
      (fun run hrun => hcount run (mem_cons_of_mem _ hrun)) hlength
    have hshort : ¬cells.length + repeated > 2 ^ 16 - 1 := by
      simp only [List.length_append, length_replicate] at hlength
      omega
    refine ⟨cursor', ?_, hrest⟩
    rw [← hread, length_cons, readRuns]
    simp only [bind, Except.bind, Cursor.u16, Cursor.u32, hread₁, hread₂, hread₃, hread₄, hread₅,
      if_neg hshort, UInt32.ofNat_toNat, UInt16.ofNat_toNat, TermColor.unpack_packed]

/-- **A row that is written is read back.** -/
theorem readRow_rest {cells : List GridCell} {bytes post : List UInt8} {cursor : Cursor}
    (hencode : encodeRow cells = .ok bytes) (h : cursor.rest = bytes ++ post) :
    ∃ cursor' : Cursor, readRow cursor = .ok (cells, cursor') ∧ cursor'.rest = post := by
  unfold encodeRow at hencode
  by_cases hlong : cells.length > 2 ^ 16 - 1
  · rw [if_pos hlong] at hencode
    cases hencode
  rw [if_neg hlong] at hencode
  cases hencode
  have hruns : (runs cells).length < 2 ^ 16 := by
    have hle := runCount_le cells
    rw [length_runs]
    omega
  rw [List.append_assoc] at h
  obtain ⟨c₁, hread₁, hrest₁⟩ := Cursor.number_rest h hruns
  have hexpand := expand_runs cells
  have hlength : ([] ++ (runs cells).flatMap expand).length < 2 ^ 16 := by
    rw [List.nil_append, hexpand]
    omega
  obtain ⟨c₂, hread₂, hrest₂⟩ := readRuns_rest (runs cells) hrest₁ (runs_le cells) hlength
  rw [List.nil_append, hexpand] at hread₂
  refine ⟨c₂, ?_, hrest₂⟩
  unfold readRow
  simp only [bind, Except.bind, Cursor.u16, hread₁, hread₂]

end GridRowCodec

namespace GridUpdate

theorem readRows_rest {rows : List ChangedRow} {bytes post : List UInt8} {cursor : Cursor}
    (hencode : encodeRows rows = .ok bytes) (hy : ∀ row ∈ rows, row.y < 2 ^ 16)
    (h : cursor.rest = bytes ++ post) :
    ∃ cursor' : Cursor, readRows rows.length cursor = .ok (rows, cursor') ∧
      cursor'.rest = post := by
  induction rows generalizing bytes cursor with
  | nil =>
    cases hencode
    exact ⟨cursor, rfl, h⟩
  | cons row rest ih =>
    unfold encodeRows at hencode
    cases hrow : GridRowCodec.encodeRow row.cells with
    | error error =>
      rw [hrow] at hencode
      cases hencode
    | ok rowBytes =>
      cases hmore : encodeRows rest with
      | error error =>
        rw [hrow, hmore] at hencode
        cases hencode
      | ok more =>
        rw [hrow, hmore] at hencode
        cases hencode
        simp only [List.append_assoc] at h
        obtain ⟨c₁, hread₁, hrest₁⟩ := Cursor.number_rest h (hy row mem_cons_self)
        obtain ⟨c₂, hread₂, hrest₂⟩ := GridRowCodec.readRow_rest hrow hrest₁
        obtain ⟨c₃, hread₃, hrest₃⟩ :=
          ih hmore (fun row hmem => hy row (mem_cons_of_mem _ hmem)) hrest₂
        refine ⟨c₃, ?_, hrest₃⟩
        rw [length_cons, readRows]
        simp only [bind, Except.bind, Cursor.u16, hread₁, hread₂, hread₃, pure, Except.pure]

/-- The fields that are written in sixteen bits fit. -/
structure Fits (update : GridUpdate) : Prop where
  cols : update.cols < 2 ^ 16
  rows : update.rows < 2 ^ 16
  cursorCol : update.cursorCol < 2 ^ 16
  cursorRow : update.cursorRow < 2 ^ 16
  y : ∀ row ∈ update.changedRows, row.y < 2 ^ 16

theorem flags_visible (update : GridUpdate) :
    decide (update.flags &&& 1 ≠ 0) = update.cursorVisible := by
  unfold flags
  cases update.cursorVisible <;> cases update.isFullSnapshot <;> decide

theorem flags_snapshot (update : GridUpdate) :
    decide (update.flags &&& 2 ≠ 0) = update.isFullSnapshot := by
  unfold flags
  cases update.cursorVisible <;> cases update.isFullSnapshot <;> decide

/-- **An update that is written is read back.** -/
theorem decode_encode {update : GridUpdate} {bytes : List UInt8} (hfits : update.Fits)
    (h : update.encode = .ok bytes) : decode bytes = .ok update := by
  unfold encode at h
  by_cases hmany : update.changedRows.length > 2 ^ 16 - 1
  · rw [if_pos hmany] at h
    cases h
  rw [if_neg hmany] at h
  cases hrows : encodeRows update.changedRows with
  | error error =>
    rw [hrows] at h
    cases h
  | ok rowBytes =>
    rw [hrows] at h
    cases h
    have hstart : ∀ bytes : List UInt8, (Cursor.mk (beBytes 2 update.cols ++ bytes) 0).rest
          = beBytes 2 update.cols ++ bytes := fun _ => rfl
    have hflags : [update.flags] = beBytes 1 update.flags.toNat := by
      simp [beBytes]
    obtain ⟨c₁, hread₁, hrest₁⟩ :=
      Cursor.number_rest (hstart (beBytes 2 update.rows ++ (beBytes 2 update.cursorCol ++
        (beBytes 2 update.cursorRow ++ ([update.flags] ++
          (beBytes 2 update.changedRows.length ++ rowBytes)))))) hfits.cols
    obtain ⟨c₂, hread₂, hrest₂⟩ := Cursor.number_rest hrest₁ hfits.rows
    obtain ⟨c₃, hread₃, hrest₃⟩ := Cursor.number_rest hrest₂ hfits.cursorCol
    obtain ⟨c₄, hread₄, hrest₄⟩ := Cursor.number_rest hrest₃ hfits.cursorRow
    rw [hflags] at hrest₄
    obtain ⟨c₅, hread₅, hrest₅⟩ := Cursor.number_rest hrest₄ update.flags.toNat_lt
    obtain ⟨c₆, hread₆, hrest₆⟩ := Cursor.number_rest hrest₅ (by omega)
    obtain ⟨c₇, hread₇, -⟩ := readRows_rest hrows hfits.y
      (show c₆.rest = rowBytes ++ [] by rw [hrest₆, append_nil])
    unfold decode
    simp only [bind, Except.bind, Cursor.u8, Cursor.u16, hread₁, hread₂, hread₃, hread₄, hread₅,
      hread₆, hread₇, pure, Except.pure, UInt8.ofNat_toNat, flags_visible, flags_snapshot]

end GridUpdate

end Diri

namespace Diri.Wire

/-! ### Grids -/

theorem validateGridUpdate_ok {grid : GridUpdate} (h : validateGridUpdate grid = .ok ()) :
    Diri.validateGridUpdate grid = .ok () := by
  unfold validateGridUpdate at h
  split at h
  · assumption
  · cases h

theorem fits_of_validate {grid : GridUpdate} (h : validateGridUpdate grid = .ok ()) :
    grid.Fits := by
  obtain ⟨hdimensions, ⟨hcol, hrow⟩, hrows⟩ :=
    Diri.validateGridUpdate_ok.mp (validateGridUpdate_ok h)
  obtain ⟨-, -, hcols, hlines, -⟩ := validateTerminalDimensions_ok.mp hdimensions
  simp only [maxTerminalCols, maxTerminalRows] at hcols hlines
  refine ⟨by omega, by omega, by omega, by omega, fun row hrow => ?_⟩
  have hy := (hrows row hrow).1
  omega

namespace RemoteCodec

theorem modesByte_altScreen (value : GridMessage) :
    decide (modesByte value &&& 1 ≠ 0) = value.altScreen := by
  unfold modesByte
  cases value.altScreen <;> cases value.bracketedPaste <;> cases value.mouseReporting <;> decide

theorem modesByte_bracketedPaste (value : GridMessage) :
    decide (modesByte value &&& 2 ≠ 0) = value.bracketedPaste := by
  unfold modesByte
  cases value.altScreen <;> cases value.bracketedPaste <;> cases value.mouseReporting <;> decide

theorem modesByte_mouseReporting (value : GridMessage) :
    decide (modesByte value &&& 4 ≠ 0) = value.mouseReporting := by
  unfold modesByte
  cases value.altScreen <;> cases value.bracketedPaste <;> cases value.mouseReporting <;> decide

variable {bytes : List UInt8} {message : RemoteMessage}

theorem decodeGrid_gridPayload {value : GridMessage}
    (hvalid : validateGridUpdate value.grid = .ok ()) (h : gridPayload value = .ok bytes) :
    9 ≤ bytes.length ∧ decodeGrid bytes = .ok value := by
  unfold gridPayload at h
  cases hgrid : value.grid.encode with
  | error error =>
    rw [hgrid] at h
    cases h
  | ok grid =>
    rw [hgrid] at h
    cases h
    have hdecode := GridUpdate.decode_encode (fits_of_validate hvalid) hgrid
    have hsequence : (beBytes 8 value.sequence.toNat).length = 8 := length_beBytes 8 _
    constructor
    · simp only [List.length_append, hsequence, List.length_singleton]
      omega
    have hdrop : (beBytes 8 value.sequence.toNat ++ ([modesByte value] ++ grid)).drop 9
        = grid := by
      rw [← List.append_assoc]
      exact List.drop_left' (by simp)
    have hmodes : (beBytes 8 value.sequence.toNat ++ ([modesByte value] ++ grid)).getD 8 0
        = modesByte value := by
      rw [List.getD_eq_getElem?_getD, List.getElem?_append_right (by omega), hsequence]
      rfl
    unfold decodeGrid
    rw [hdrop, hdecode]
    simp only
    rw [hmodes, hvalid, List.take_left' hsequence, beValue_beBytes value.sequence.toNat_lt]
    simp only [bind, Except.bind, pure, Except.pure, UInt64.ofNat_toNat,
      modesByte_altScreen, modesByte_bracketedPaste, modesByte_mouseReporting]

/-! ### Messages -/

variable {json : SerdeJson}

theorem decode_control (hjson : json.RoundTrips) (kind : ControlKind)
    (check : kind.Payload → Except RemoteCodecError Unit) (make : kind.Payload → RemoteMessage)
    {value : kind.Payload} {byte : UInt8}
    (hpayload : (do
      check value
      appendJson json kind value) = .ok (byte, bytes))
    (hmessage : ∀ bytes, decodeMessage json kind.toByte bytes = do
      let value ← decodeJson json kind bytes
      check value
      return make value) :
    validateKind byte = .ok () ∧ decodeMessage json byte bytes = .ok (make value) := by
  cases hcheck : check value with
  | error error =>
    rw [hcheck] at hpayload
    cases hpayload
  | ok _ =>
    rw [hcheck] at hpayload
    simp only [bind, Except.bind, appendJson] at hpayload
    cases hwritten : json.toWriter kind value with
    | error detail =>
      rw [hwritten] at hpayload
      cases hpayload
    | ok written =>
      rw [hwritten] at hpayload
      cases hpayload
      have hdecode : decodeJson json kind bytes = .ok value := by
        rw [decodeJson, hjson kind value bytes hwritten]
      refine ⟨by cases kind <;> rfl, ?_⟩
      rw [hmessage, hdecode]
      simp only [bind, Except.bind, hcheck]
      rfl

theorem decode_grid (kind : UInt8) (refused : Bool → Bool) (reason : String)
    (make : GridMessage → RemoteMessage) {byte : UInt8} {value : GridMessage}
    (hkind : validateKind kind = .ok ())
    (hpayload : (do
      validateGridUpdate value.grid
      if refused value.grid.isFullSnapshot then throw (.invalidFullSnapshot reason)
      return (kind, ← gridPayload value)) = Except.ok (byte, bytes))
    (hmessage : ∀ bytes : List UInt8, 9 ≤ bytes.length → decodeMessage json kind bytes = do
      let value ← decodeGrid bytes
      if refused value.grid.isFullSnapshot then throw (.invalidFullSnapshot reason)
      return make value) :
    validateKind byte = .ok () ∧ decodeMessage json byte bytes = .ok (make value) := by
  cases hvalid : validateGridUpdate value.grid with
  | error error =>
    rw [hvalid] at hpayload
    cases hpayload
  | ok _ =>
    rw [hvalid] at hpayload
    by_cases hrefused : refused value.grid.isFullSnapshot
    · simp only [bind, Except.bind, hrefused] at hpayload
      cases hpayload
    simp only [bind, Except.bind, hrefused] at hpayload
    cases hgrid : gridPayload value with
    | error error =>
      rw [hgrid] at hpayload
      cases hpayload
    | ok written =>
      rw [hgrid] at hpayload
      cases hpayload
      obtain ⟨hlength, hdecode⟩ := decodeGrid_gridPayload hvalid hgrid
      refine ⟨hkind, ?_⟩
      rw [hmessage _ hlength, hdecode]
      simp only [bind, Except.bind, hrefused]
      rfl

/-- **A payload is decoded to its message**, one case for each kind. -/
theorem decode_payload (hjson : json.RoundTrips) {kind : UInt8}
    (h : payload json message = .ok (kind, bytes)) :
    validateKind kind = .ok () ∧ decodeMessage json kind bytes = .ok message := by
  cases message with
  | terminal frame =>
    obtain ⟨frameType, bytes⟩ := frame
    cases h
    cases frameType <;> exact ⟨rfl, rfl⟩
  | hello value => exact decode_control hjson .hello Hello.validate .hello h fun _ => rfl
  | helloAck value =>
    exact decode_control hjson .helloAck HelloAck.validate .helloAck h fun _ => rfl
  | fullSnapshot value =>
    refine decode_grid kindFullSnapshot (fun b => !b)
      "grid update is not marked as a full snapshot" .fullSnapshot rfl h ?_
    intro bytes hlength
    show (if bytes.length < 9 then _ else _) = _
    rw [if_neg (by omega)]
  | gridDelta value =>
    refine decode_grid kindGridDelta (fun b => b)
      "grid delta is marked as a full snapshot" .gridDelta rfl h ?_
    intro bytes hlength
    show (if bytes.length < 9 then _ else _) = _
    rw [if_neg (by omega)]
  | processExit value =>
    exact decode_control hjson .processExit (fun _ => .ok ()) .processExit h fun _ => rfl
  | signal value => exact decode_control hjson .signal (fun _ => .ok ()) .signal h fun _ => rfl
  | acquireControl value =>
    exact decode_control hjson .acquireControl
      (fun value => validateIdentifier "client nonce" value.clientNonce) .acquireControl h
      fun _ => rfl
  | controlGranted value =>
    exact decode_control hjson .controlGranted (fun _ => .ok ()) .controlGranted h fun _ => rfl
  | controlRevoked value =>
    exact decode_control hjson .controlRevoked (fun _ => .ok ()) .controlRevoked h fun _ => rfl
  | releaseControl value =>
    exact decode_control hjson .releaseControl (fun _ => .ok ()) .releaseControl h fun _ => rfl
  | scrollbackRequest value =>
    exact decode_control hjson .scrollbackRequest ScrollbackRequest.validate
      .scrollbackRequest h fun _ => rfl
  | scrollbackResponse value =>
    exact decode_control hjson .scrollbackResponse (fun _ => .ok ())
      .scrollbackResponse h fun _ => rfl
  | error value => exact decode_control hjson .error (fun _ => .ok ()) .error h fun _ => rfl

/-! ### Streams -/

theorem encode_frame {encoded : List UInt8} (h : encode json message = .ok encoded) :
    ∃ kind bytes, payload json message = .ok (kind, bytes) ∧
      checkLength kind bytes.length = .ok () ∧ bytes.length < 256 ^ 4 ∧
      encoded = Framing.header kind bytes.length ++ bytes := by
  unfold encode encodeInto at h
  cases hpayload : payload json message with
  | error error =>
    rw [hpayload] at h
    cases h
  | ok frame =>
    obtain ⟨kind, bytes⟩ := frame
    rw [hpayload] at h
    simp only [bind, Except.bind] at h
    cases hcheck : checkLength kind bytes.length with
    | error error =>
      rw [hcheck] at h
      cases h
    | ok _ =>
      rw [hcheck] at h
      by_cases hoverflow : bytes.length ≥ 2 ^ 32
      · rw [if_pos hoverflow] at h
        cases h
      rw [if_neg hoverflow] at h
      cases h
      exact ⟨kind, bytes, rfl, hcheck, by omega, rfl⟩

theorem front_encode (hjson : json.RoundTrips) {encoded : List UInt8}
    (h : encode json message = .ok encoded) (more : List UInt8) :
    (framing json).front (encoded ++ more) = .frame message encoded.length := by
  obtain ⟨kind, bytes, hpayload, hcheck, hlength, rfl⟩ := encode_frame h
  obtain ⟨hkind, hdecode⟩ := decode_payload hjson hpayload
  have haccept : accept kind bytes.length = .ok () := by
    unfold accept
    rw [hkind]
    exact hcheck
  exact Framing.prefixedFront_written accept (decodeMessage json) haccept hdecode hlength more

theorem written_encodings (hjson : json.RoundTrips) {messages : List RemoteMessage}
    {encodings : List (List UInt8)}
    (h : List.Forall₂ (fun message bytes => encode json message = .ok bytes) messages encodings) :
    (framing json).Written messages encodings.flatten := by
  induction h with
  | nil => exact .nil
  | cons hencode _ ih => exact .cons (front_encode hjson hencode) ih

/-- **What is encoded is fed back**, message by message, with nothing left over. -/
theorem feed_encodings (hjson : json.RoundTrips) (messages : List RemoteMessage)
    (encodings : List (List UInt8))
    (h : List.Forall₂ (fun message bytes => encode json message = .ok bytes) messages encodings) :
    (framing json).feed [] encodings.flatten = (.ok messages, []) := by
  unfold Framing.feed
  rw [List.nil_append, (written_encodings hjson h).scan]

/-- A `serde_json` that knows one value. -/
def releaseJson : SerdeJson where
  toWriter
    | .releaseControl, value =>
      if ReleaseControl.controllerEpoch value = 3 then
        .ok "\x7b\"controllerEpoch\":3\x7d".toByteArray.data.toList
      else .error "unknown"
    | _, _ => .error "unknown"
  fromSlice
    | .releaseControl, bytes =>
      if bytes = "\x7b\"controllerEpoch\":3\x7d".toByteArray.data.toList then .ok ⟨3⟩
      else .error "unknown"
    | _, _ => .error "unknown"

theorem releaseJson_roundTrips : releaseJson.RoundTrips := by
  intro kind value bytes h
  cases kind
  case releaseControl =>
    simp only [releaseJson] at h ⊢
    split at h
    · rename_i hvalue
      cases h
      rw [if_pos rfl, ← hvalue]
      rfl
    · cases h
  all_goals cases h

/-- A one-cell grid delta, for the round trip below. -/
def oneCellDelta : GridMessage where
  sequence := 7
  altScreen := true
  bracketedPaste := false
  mouseReporting := true
  grid :=
    { cols := 1
      rows := 1
      cursorCol := 0
      cursorRow := 0
      cursorVisible := true
      isFullSnapshot := false
      changedRows := [⟨0, [⟨65, .rgb 1 2 3, .ansi 4, 5⟩]⟩] }

theorem feed_encodings_three :
    ∃ encodings : List (List UInt8), (framing releaseJson).feed [] encodings.flatten
      = (.ok [.terminal (.input [104, 105]), .gridDelta oneCellDelta, .releaseControl ⟨3⟩], []) :=
  ⟨_, feed_encodings releaseJson_roundTrips
    [.terminal (.input [104, 105]), .gridDelta oneCellDelta, .releaseControl ⟨3⟩] _
    (.cons rfl (.cons rfl (.cons rfl .nil)))⟩

end RemoteCodec

end Diri.Wire
