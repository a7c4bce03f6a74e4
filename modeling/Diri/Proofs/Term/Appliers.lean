/-
The renderer's buffer and the protocol's own `apply`.

The buffer starts afresh where the size changes, the protocol's helper where the number of
cells does, and the buffer skips a row that is there already (`applyRow_of_same`).  As long
as every change of the size is a full snapshot they start afresh together, and then the
two hold the same cells (`appliers_agree`).
-/
import Diri.Proofs.Term.Damage

namespace Diri

open List

theorem setRow_rowOf {α : Type} (cols y : Nat) (buffer : List α) :
    setRow cols y (rowOf cols y buffer) buffer = buffer := by
  rw [setRow, rowOf, append_assoc, ← drop_drop, take_append_drop, take_append_drop]

namespace GridBuffer

open GridUpdate (applyRow fitRow)

/-- As many cells as the size says, and a generation and a dirty flag for each row. -/
structure Shaped (buffer : GridBuffer) : Prop where
  cells_length : buffer.cells.length = buffer.cols * buffer.rows
  generations_length : buffer.rowGenerations.length = buffer.rows
  dirty_length : buffer.dirtyRows.length = buffer.rows

theorem fitRow_of_same {cols : Nat} {target cells : List GridCell} (hlength : target.length = cols)
    (hsame : differs cols target cells = false) : fitRow cols cells = target := by
  rw [differs, Bool.or_eq_false_iff, bne_eq_false_iff_eq, any_eq_false] at hsame
  have hblank : target.drop (min cells.length cols) =
      List.replicate (cols - min cells.length cols) .blank := by
    refine List.eq_replicate_iff.mpr ⟨by rw [length_drop, hlength], fun cell hcell => ?_⟩
    simpa using hsame.2 cell hcell
  rw [fitRow, ← hblank, ← hsame.1, take_append_drop]

theorem applyRow_of_same {cols rows : Nat} {cells : List GridCell} {changedRow : ChangedRow}
    (hlength : cells.length = cols * rows) (hy : changedRow.y < rows)
    (hsame : differs cols (rowOf cols changedRow.y cells) changedRow.cells = false) :
    applyRow cols rows cells changedRow = cells := by
  rw [applyRow, if_neg (Nat.not_le.mpr hy), fitRow_of_same (length_rowOf hlength hy) hsame,
    setRow_rowOf]

/-- What becomes of a buffer whose rows are written: its cells, and which rows are dirty. -/
structure Wrote (start : GridBuffer × Bool) (cells : List GridCell) (state : GridBuffer × Bool) :
    Prop where
  written : ∃ dirtyRows, state.1 = { start.1 with cells := cells, dirtyRows := dirtyRows } ∧
    dirtyRows.length = start.1.dirtyRows.length
  same : state.2 = false → start.2 = false ∧ cells = start.1.cells

theorem wrote_patchRow {cols rows : Nat} {state : GridBuffer × Bool}
    (hlength : state.1.cells.length = cols * rows) (changedRow : ChangedRow) :
    Wrote state (applyRow cols rows state.1.cells changedRow)
      (patchRow cols rows state changedRow) := by
  obtain ⟨buffer, changed⟩ := state
  by_cases hy : changedRow.y ≥ rows
  · rw [applyRow, patchRow, if_pos hy, if_pos hy]
    exact ⟨⟨_, rfl, rfl⟩, fun h => ⟨h, rfl⟩⟩
  cases hsame : differs cols (rowOf cols changedRow.y buffer.cells) changedRow.cells with
  | false =>
    have hcells := applyRow_of_same hlength (Nat.not_le.mp hy) hsame
    rw [hcells, patchRow, if_neg hy, hsame, if_neg Bool.false_ne_true]
    exact ⟨⟨_, rfl, rfl⟩, fun h => ⟨h, rfl⟩⟩
  | true =>
    rw [applyRow, patchRow, if_neg hy, if_neg hy, hsame, if_pos rfl]
    exact ⟨⟨_, rfl, length_set⟩, fun h => Bool.noConfusion h⟩

theorem wrote_patchRows {cols rows : Nat} (changedRows : List ChangedRow)
    {state : GridBuffer × Bool} (hlength : state.1.cells.length = cols * rows) :
    Wrote state (changedRows.foldl (applyRow cols rows) state.1.cells)
      (changedRows.foldl (patchRow cols rows) state) := by
  induction changedRows generalizing state with
  | nil => exact ⟨⟨_, rfl, rfl⟩, fun h => ⟨h, rfl⟩⟩
  | cons changedRow rest ih =>
    obtain ⟨⟨dirtyRows, hfirst, hdirty⟩, hsame⟩ := wrote_patchRow hlength changedRow
    have hcells : (patchRow cols rows state changedRow).1.cells =
        applyRow cols rows state.1.cells changedRow := by rw [hfirst]
    obtain ⟨⟨dirtyRows', hrest, hdirty'⟩, hsame'⟩ :=
      ih (by rw [hcells]; exact GridUpdate.length_applyRow hlength changedRow)
    rw [foldl_cons, foldl_cons, ← hcells]
    refine ⟨⟨dirtyRows', by rw [hrest, hfirst], ?_⟩, fun hfalse => ?_⟩
    · rw [hdirty', hfirst]
      exact hdirty
    · obtain ⟨hflag, hkept⟩ := hsame' hfalse
      obtain ⟨hflag', hkept'⟩ := hsame hflag
      exact ⟨hflag', by rw [hkept, hcells, hkept']⟩

/-- Whether the buffer starts afresh. -/
def replaces (update : GridUpdate) (buffer : GridBuffer) : Bool :=
  update.isFullSnapshot || (buffer.cols != update.cols || buffer.rows != update.rows)

variable {buffer : GridBuffer}

theorem of_not_replaces {update : GridUpdate} (h : buffer.replaces update = false) :
    buffer.cols = update.cols ∧ buffer.rows = update.rows := by
  rw [replaces, Bool.or_eq_false_iff, Bool.or_eq_false_iff, bne_eq_false_iff_eq,
    bne_eq_false_iff_eq] at h
  exact h.2

/-- The storage the rows are written to. -/
def seeded (update : GridUpdate) (buffer : GridBuffer) : GridBuffer :=
  if buffer.replaces update then buffer.reseed update else buffer.undirty update

def patched (update : GridUpdate) (buffer : GridBuffer) : GridBuffer × Bool :=
  update.changedRows.foldl (patchRow update.cols update.rows)
    (buffer.seeded update, buffer.replaces update)

def placeCursor (cursor : CursorState) (buffer : GridBuffer) : GridBuffer :=
  if buffer.cursor != cursor then buffer.moveCursor cursor else buffer

theorem apply_eq (update : GridUpdate) (buffer : GridBuffer) :
    let cursor : CursorState := ⟨update.cursorCol, update.cursorRow, update.cursorVisible⟩
    let placed := (buffer.patched update).1.placeCursor cursor
    let changed := (buffer.patched update).2 || (buffer.patched update).1.cursor != cursor
    (buffer.apply update).2.changed = changed ∧
      (buffer.apply update).1 = if changed then placed.advanceGeneration else placed :=
  ⟨rfl, rfl⟩

theorem Shaped.seeded (h : buffer.Shaped) (update : GridUpdate) :
    (buffer.seeded update).Shaped ∧ (buffer.seeded update).cols = update.cols ∧
      (buffer.seeded update).rows = update.rows ∧ (buffer.seeded update).cursor = buffer.cursor ∧
      (buffer.seeded update).cells = if buffer.replaces update then
        List.replicate (update.cols * update.rows) .blank else buffer.cells := by
  cases hreplaces : buffer.replaces update with
  | true =>
    rw [GridBuffer.seeded, hreplaces, if_pos rfl, if_pos rfl]
    exact ⟨⟨length_replicate, takeD_length _ _ _, length_replicate⟩, rfl, rfl, rfl,
      rfl⟩
  | false =>
    obtain ⟨hcols, hrows⟩ := of_not_replaces hreplaces
    have hkept : ¬buffer.dirtyRows.length ≠ update.rows := by rw [h.dirty_length, hrows, not_not]
    rw [GridBuffer.seeded, hreplaces, if_neg Bool.false_ne_true, if_neg Bool.false_ne_true,
      undirty, if_neg hkept]
    exact ⟨⟨h.cells_length, h.generations_length, List.length_replicate.trans h.dirty_length⟩,
      hcols, hrows, rfl, rfl⟩

/-- A cursor that is placed, and a generation that is taken, leave the cells and the size. -/
theorem Shaped.finish (h : buffer.Shaped) (cursor : CursorState) (changed : Bool) :
    let placed := buffer.placeCursor cursor
    let after := if changed then placed.advanceGeneration else placed
    after.Shaped ∧ after.cols = buffer.cols ∧ after.rows = buffer.rows ∧
      after.cells = buffer.cells ∧ after.cursor = cursor := by
  have hplaced : (buffer.placeCursor cursor).Shaped ∧
      (buffer.placeCursor cursor).cols = buffer.cols ∧
      (buffer.placeCursor cursor).rows = buffer.rows ∧
      (buffer.placeCursor cursor).cells = buffer.cells ∧
      (buffer.placeCursor cursor).cursor = cursor := by
    unfold placeCursor
    split
    · refine ⟨⟨h.cells_length, h.generations_length, ?_⟩, rfl, rfl, rfl, rfl⟩
      rw [moveCursor, markDirtyRow, markDirtyRow, length_set, length_set]
      exact h.dirty_length
    · next hsame => exact ⟨h, rfl, rfl, rfl, by simpa using hsame⟩
  cases changed with
  | false => exact hplaced
  | true =>
    obtain ⟨hshaped, hkept⟩ := hplaced
    exact ⟨⟨hshaped.cells_length, (length_stamp _ _ _).trans hshaped.generations_length,
      hshaped.dirty_length⟩, hkept⟩

/-- What an update leaves of a buffer, and what it says of it. -/
structure Became (old : GridBuffer) (update : GridUpdate) (buffer : GridBuffer) (changed : Bool) :
    Prop where
  shaped : buffer.Shaped
  size : buffer.cols = update.cols ∧ buffer.rows = update.rows
  cells : buffer.cells = update.changedRows.foldl (applyRow update.cols update.rows)
    (if old.replaces update then List.replicate (update.cols * update.rows) .blank else old.cells)
  same : changed = false →
    old.replaces update = false ∧ buffer.cells = old.cells ∧ buffer.cursor = old.cursor

theorem Shaped.apply (h : buffer.Shaped) (update : GridUpdate) :
    Became buffer update (buffer.apply update).1 (buffer.apply update).2.changed := by
  obtain ⟨hseeded, hcols, hrows, hcursor, hcells⟩ := h.seeded update
  have hlength : (buffer.seeded update, buffer.replaces update).1.cells.length =
      update.cols * update.rows := by
    rw [hseeded.cells_length, hcols, hrows]
  obtain ⟨⟨dirtyRows, hpatched, hdirty⟩, hsame⟩ := wrote_patchRows update.changedRows hlength
  have hshaped : (buffer.patched update).1.Shaped := by
    rw [patched, hpatched]
    refine ⟨?_, hseeded.generations_length, hdirty.trans hseeded.dirty_length⟩
    exact (GridUpdate.length_foldl_applyRow hlength _).trans (by rw [hcols, hrows])
  obtain ⟨hchanged, hafter⟩ := apply_eq update buffer
  obtain ⟨hfinal, hcols', hrows', hcells', hcursor'⟩ := hshaped.finish
    ⟨update.cursorCol, update.cursorRow, update.cursorVisible⟩ (buffer.apply update).2.changed
  rw [hchanged, ← hafter] at hfinal hcols' hrows' hcells' hcursor'
  refine ⟨hfinal, ⟨?_, ?_⟩, ?_, fun hfalse => ?_⟩
  · rw [hcols', patched, hpatched]
    exact hcols
  · rw [hrows', patched, hpatched]
    exact hrows
  · rw [hcells', patched, hpatched, ← hcells]
  rw [hchanged, Bool.or_eq_false_iff, bne_eq_false_iff_eq] at hfalse
  obtain ⟨hkept, hwritten⟩ := hsame hfalse.1
  have hstays : ¬buffer.replaces update = true := ne_true_of_eq_false hkept
  refine ⟨hkept, ?_, ?_⟩
  · rw [hcells', patched, hpatched]
    exact hwritten.trans (hcells.trans (if_neg hstays))
  · rw [hcursor', ← hfalse.2, patched, hpatched]
    exact hcursor

theorem Became.cells_eq {old buffer : GridBuffer} {update : GridUpdate} {changed : Bool}
    (h : Became old update buffer changed) (hshaped : old.Shaped)
    (hseeds : update.isFullSnapshot = true ∨ (old.cols, old.rows) = (update.cols, update.rows)) :
    buffer.cells = update.apply old.cells := by
  rw [h.cells, GridUpdate.apply_eq, GridUpdate.ground]
  by_cases hfull : update.isFullSnapshot = true
  · rw [if_pos (by rw [replaces, hfull, Bool.true_or]), if_pos (.inl hfull)]
  obtain ⟨hcols, hrows⟩ := Prod.mk.inj (hseeds.resolve_left hfull)
  have hlength : old.cells.length = update.cols * update.rows := by
    rw [hshaped.cells_length, hcols, hrows]
  rw [if_neg (by simp [replaces, hfull, hcols, hrows]),
    if_neg (not_or.mpr ⟨hfull, not_not.mpr hlength⟩)]

/-! ### Any updates -/

def applyAll (updates : List GridUpdate) (buffer : GridBuffer) : GridBuffer :=
  updates.foldl (fun buffer update => (buffer.apply update).1) buffer

/-- Every change of the size came with a full snapshot. -/
def Reseeds : List GridUpdate → GridBuffer → Prop
  | [], _ => True
  | update :: rest, buffer =>
    (update.isFullSnapshot = true ∨ (buffer.cols, buffer.rows) = (update.cols, update.rows)) ∧
      Reseeds rest (buffer.apply update).1

theorem Shaped.applyAll (h : buffer.Shaped) (updates : List GridUpdate) :
    (buffer.applyAll updates).Shaped := by
  induction updates generalizing buffer with
  | nil => exact h
  | cons update rest ih => exact ih (h.apply update).shaped

theorem Shaped.cells_applyAll (h : buffer.Shaped) {updates : List GridUpdate}
    (hreseeds : Reseeds updates buffer) : (buffer.applyAll updates).cells =
      updates.foldl (fun cells update => update.apply cells) buffer.cells := by
  induction updates generalizing buffer with
  | nil => rfl
  | cons update rest ih =>
    have hbecame := h.apply update
    rw [foldl_cons, ← hbecame.cells_eq h hreseeds.1]
    exact ih hbecame.shaped hreseeds.2

/-- The buffer and the protocol's helper hold the same cells, whatever updates they are sent. -/
theorem appliers_agree {buffer : GridBuffer} (h : buffer.Shaped) (updates : List GridUpdate) :
    (buffer.applyAll updates).Shaped ∧ (Reseeds updates buffer → (buffer.applyAll updates).cells =
        updates.foldl (fun cells update => update.apply cells) buffer.cells) ∧
      ∀ update, ((buffer.applyAll updates).apply update).2.changed = false →
        let after := ((buffer.applyAll updates).apply update).1
        after.cells = (buffer.applyAll updates).cells ∧
          after.cols = (buffer.applyAll updates).cols ∧
          after.rows = (buffer.applyAll updates).rows ∧
          after.cursor = (buffer.applyAll updates).cursor := by
  have hshaped := h.applyAll updates
  refine ⟨hshaped, fun hreseeds => h.cells_applyAll hreseeds, fun update hfalse => ?_⟩
  have hbecame := hshaped.apply update
  obtain ⟨hkept, hcells, hcursor⟩ := hbecame.same hfalse
  obtain ⟨hcols, hrows⟩ := of_not_replaces hkept
  exact ⟨hcells, hbecame.size.1.trans hcols.symm, hbecame.size.2.trans hrows.symm, hcursor⟩

theorem Shaped.new (cols rows : Nat) : (GridBuffer.new cols rows).Shaped :=
  ⟨length_replicate, length_replicate, length_replicate⟩

/-- A row twice, too long and out of range, then a snapshot of the same area. -/
theorem appliers_agree_reshaped : let cell : GridCell := { GridCell.blank with scalar := 97 }
    let updates : List GridUpdate :=
      [⟨3, 2, 0, 0, true, false, [⟨1, [cell]⟩, ⟨1, [cell, cell, cell, cell]⟩, ⟨2, [cell]⟩]⟩,
        ⟨2, 3, 1, 2, true, true, [⟨2, [cell]⟩]⟩]
    ((GridBuffer.new 3 2).applyAll updates).cells =
      updates.foldl (fun cells update => update.apply cells) (GridBuffer.new 3 2).cells :=
  (appliers_agree (Shaped.new 3 2) _).2.1 ⟨.inr rfl, .inl rfl, trivial⟩

end GridBuffer

end Diri
