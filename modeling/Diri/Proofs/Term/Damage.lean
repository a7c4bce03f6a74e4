/-
Drawing what was damaged is drawing everything.

One `apply` either changes nothing, or takes a generation that no row has had and leaves
each row either stamped with it or as it was (`Applied`).  So a renderer that knows a
row's generation has that row's cells (`Known`), as long as the generations have not
wrapped and it is made to draw everything when its width changes.
-/
import Diri.Proofs.Grid.Update
import Diri.Term.Buffer

namespace Diri

open List Option

/-! ### Resized and stamped lists -/

theorem getElem?_takeD {α : Type} (n : Nat) (xs : List α) (a : α) (i : Nat) :
    (xs.takeD n a)[i]? = if i < n then some (xs.getD i a) else none := by
  induction n generalizing xs i with
  | zero => simp
  | succ n ih =>
    cases i with
    | zero => cases xs <;> simp
    | succ i =>
      rw [takeD_succ, getElem?_cons_succ, ih]
      cases xs <;> simp

namespace GridBuffer

theorem length_stamp (generation : UInt64) (dirtyRows : List Bool) (generations : List UInt64) :
    (stamp generation dirtyRows generations).length = generations.length := by
  induction dirtyRows generalizing generations with
  | nil => rfl
  | cons dirty dirtyRows ih =>
    cases generations with
    | nil => rfl
    | cons known generations => rw [stamp, length_cons, ih, length_cons]

theorem getElem?_stamp (generation : UInt64) {dirtyRows : List Bool} {generations : List UInt64}
    (hlength : dirtyRows.length = generations.length) (y : Nat) :
    (stamp generation dirtyRows generations)[y]? =
      if dirtyRows[y]? = some true then some generation else generations[y]? := by
  induction dirtyRows generalizing generations y with
  | nil => rfl
  | cons dirty dirtyRows ih =>
    cases generations with
    | nil => simp at hlength
    | cons known generations =>
      have hrest : dirtyRows.length = generations.length := by simpa using hlength
      cases y with
      | zero => cases dirty <;> simp [stamp]
      | succ y => simpa [stamp] using ih hrest y

/-! ### One update -/

/-- A whole buffer, none of whose rows is newer than the buffer. -/
structure Formed (buffer : GridBuffer) : Prop where
  cells_length : buffer.cells.length = buffer.cols * buffer.rows
  generations_length : buffer.rowGenerations.length = buffer.rows
  dirty_length : buffer.dirtyRows.length = buffer.rows
  generations_le : ∀ known ∈ buffer.rowGenerations, known ≤ buffer.generation

/-- Row `y` is the old buffer's, and so is its generation. -/
structure SameRow (old buffer : GridBuffer) (y : Nat) : Prop where
  cols_eq : buffer.cols = old.cols
  rows_eq : buffer.rows = old.rows
  row_eq : rowOf buffer.cols y buffer.cells = rowOf old.cols y old.cells
  generation_eq : buffer.rowGenerations[y]? = old.rowGenerations[y]?

theorem SameRow.refl (buffer : GridBuffer) (y : Nat) : SameRow buffer buffer y :=
  ⟨rfl, rfl, rfl, rfl⟩

/-- An update in progress: every row is dirty, or as it was. -/
structure Patched (old : GridBuffer) (cols rows : Nat) (state : GridBuffer × Bool) : Prop where
  formed : state.1.Formed
  cols_eq : state.1.cols = cols
  rows_eq : state.1.rows = rows
  generation_eq : state.1.generation = old.generation
  row_cases : ∀ y, y < rows → state.1.dirtyRows[y]? = some true ∨ SameRow old state.1 y
  unchanged : state.2 = false → ∀ y, SameRow old state.1 y

theorem Formed.new (cols rows : Nat) : (new cols rows).Formed where
  cells_length := length_replicate
  generations_length := length_replicate
  dirty_length := length_replicate
  generations_le known hknown := by
    rw [eq_of_mem_replicate hknown]
    exact UInt64.le_refl 0

theorem some_getD {α : Type} {xs : List α} {y : Nat} (hy : y < xs.length) {a : α} :
    some (xs.getD y a) = xs[y]? := by
  rw [getD_eq_getElem?_getD, getElem?_eq_getElem hy]
  rfl

theorem mem_takeD {α : Type} {n : Nat} {xs : List α} {a x : α} (h : x ∈ xs.takeD n a) :
    x ∈ xs ∨ x = a := by
  obtain ⟨y, hy⟩ := mem_iff_getElem?.mp h
  rw [getElem?_takeD] at hy
  by_cases hlt : y < n
  · rw [if_pos hlt, some.injEq, getD_eq_getElem?_getD] at hy
    cases hget : xs[y]? with
    | none => exact .inr (by rw [← hy, hget]; rfl)
    | some z =>
      rw [hget] at hy
      exact .inl (hy ▸ mem_of_getElem? hget)
  · rw [if_neg hlt] at hy
    cases hy

variable {old : GridBuffer} {cols rows : Nat} {buffer : GridBuffer}

theorem Patched.reseed (h : old.Formed) (update : GridUpdate) :
    Patched old update.cols update.rows (old.reseed update, true) where
  formed :=
    { cells_length := length_replicate
      generations_length := takeD_length _ _ _
      dirty_length := length_replicate
      generations_le := by
        intro known hknown
        rcases mem_takeD hknown with hold | rfl
        · exact h.generations_le known hold
        · exact UInt64.zero_le }
  cols_eq := rfl
  rows_eq := rfl
  generation_eq := rfl
  row_cases y hy := .inl (by simp [GridBuffer.reseed, hy])
  unchanged h := Bool.noConfusion h

theorem Patched.undirty (h : old.Formed) {update : GridUpdate}
    (hcols : old.cols = update.cols) (hrows : old.rows = update.rows) :
    Patched old update.cols update.rows (old.undirty update, false) := by
  have hsame : old.undirty update
      = { old with dirtyRows := List.replicate old.dirtyRows.length false } := by
    rw [GridBuffer.undirty, if_neg]
    rw [h.dirty_length, hrows]
    exact not_not.mpr rfl
  rw [hsame]
  exact {
    formed := ⟨h.cells_length, h.generations_length, by simp [h.dirty_length], h.generations_le⟩
    cols_eq := hcols
    rows_eq := hrows
    generation_eq := rfl
    row_cases := fun y _ => .inr ⟨rfl, rfl, rfl, rfl⟩
    unchanged := fun _ y => ⟨rfl, rfl, rfl, rfl⟩ }

theorem Patched.patchRow {state : GridBuffer × Bool}
    (h : Patched old cols rows state) (changedRow : ChangedRow) :
    Patched old cols rows (patchRow cols rows state changedRow) := by
  obtain ⟨buffer, changed⟩ := state
  simp only [GridBuffer.patchRow]
  by_cases hy : changedRow.y ≥ rows
  · rw [if_pos hy]
    exact h
  rw [if_neg hy]
  by_cases hdiffers : differs cols (rowOf cols changedRow.y buffer.cells) changedRow.cells = true
  · rw [if_pos hdiffers]
    have hlt : changedRow.y < rows := Nat.not_le.mp hy
    have hfit := GridUpdate.length_fitRow cols changedRow.cells
    have hcells : buffer.cells.length = cols * rows := by
      rw [← h.cols_eq, ← h.rows_eq]
      exact h.formed.cells_length
    have hdirty : changedRow.y < buffer.dirtyRows.length := by
      rw [h.formed.dirty_length, h.rows_eq]
      exact hlt
    refine ⟨⟨?_, h.formed.generations_length, ?_, h.formed.generations_le⟩, h.cols_eq, h.rows_eq,
      h.generation_eq, fun y hyrows => ?_, fun hfalse => Bool.noConfusion hfalse⟩
    · rw [h.cols_eq, h.rows_eq]
      exact length_setRow hcells hlt hfit
    · rw [length_set]
      exact h.formed.dirty_length
    by_cases hself : y = changedRow.y
    · left
      rw [hself, getElem?_set_self hdirty]
    rcases h.row_cases y hyrows with hmarked | hsame
    · left
      rw [getElem?_set_ne (Ne.symm hself)]
      exact hmarked
    right
    refine ⟨hsame.cols_eq, hsame.rows_eq, ?_, hsame.generation_eq⟩
    rw [← hsame.row_eq, h.cols_eq]
    exact rowOf_setRow_ne hcells hlt hself hfit
  · rw [if_neg hdiffers]
    exact h

theorem Patched.patchRows {state : GridBuffer × Bool}
    (h : Patched old cols rows state) (changedRows : List ChangedRow) :
    Patched old cols rows (changedRows.foldl (GridBuffer.patchRow cols rows) state) := by
  induction changedRows generalizing state with
  | nil => exact h
  | cons changedRow rest ih => exact ih (h.patchRow changedRow)

theorem Patched.markDirtyRow
    {changed : Bool} (h : Patched old cols rows (buffer, changed)) (row : Nat) :
    Patched old cols rows (buffer.markDirtyRow row, changed) where
  formed :=
    { cells_length := h.formed.cells_length
      generations_length := h.formed.generations_length
      dirty_length := by
        rw [GridBuffer.markDirtyRow, length_set]
        exact h.formed.dirty_length
      generations_le := h.formed.generations_le }
  cols_eq := h.cols_eq
  rows_eq := h.rows_eq
  generation_eq := h.generation_eq
  row_cases y hy := by
    rcases h.row_cases y hy with hmarked | hsame
    · left
      have hlt : y < buffer.dirtyRows.length := by
        rw [h.formed.dirty_length, h.rows_eq]
        exact hy
      rw [GridBuffer.markDirtyRow, getElem?_set]
      by_cases hrow : row = y
      · rw [if_pos hrow, if_pos (hrow ▸ hlt)]
      · rw [if_neg hrow]
        exact hmarked
    · exact .inr ⟨hsame.cols_eq, hsame.rows_eq, hsame.row_eq, hsame.generation_eq⟩
  unchanged hfalse y :=
    have hsame := h.unchanged hfalse y
    ⟨hsame.cols_eq, hsame.rows_eq, hsame.row_eq, hsame.generation_eq⟩

theorem Patched.moveCursor
    {changed : Bool} (h : Patched old cols rows (buffer, changed)) (cursor : CursorState) :
    Patched old cols rows (buffer.moveCursor cursor, true) := by
  have hmarked := (h.markDirtyRow buffer.cursor.row).markDirtyRow cursor.row
  exact {
    formed := ⟨hmarked.formed.cells_length, hmarked.formed.generations_length,
      hmarked.formed.dirty_length, hmarked.formed.generations_le⟩
    cols_eq := hmarked.cols_eq
    rows_eq := hmarked.rows_eq
    generation_eq := hmarked.generation_eq
    row_cases := fun y hy => (hmarked.row_cases y hy).imp_right fun hsame =>
      ⟨hsame.cols_eq, hsame.rows_eq, hsame.row_eq, hsame.generation_eq⟩
    unchanged := fun hfalse => Bool.noConfusion hfalse }

/--
What one `apply` does: nothing that a renderer could see, or it takes the next
generation, and every row gets it or is the row it was.
-/
inductive Applied (old buffer : GridBuffer) : Bool → Prop
  | unchanged (generation_eq : buffer.generation = old.generation)
      (rows : ∀ y, SameRow old buffer y) : Applied old buffer false
  | changed (generation_eq : buffer.generation = old.generation + 1)
      (rows : ∀ y, y < buffer.rows →
        buffer.rowGenerations[y]? = some (old.generation + 1) ∨ SameRow old buffer y) :
      Applied old buffer true

theorem Patched.finish {changed : Bool} (h : Patched old cols rows (buffer, changed))
    (hroom : old.generation.toNat + 1 < 2 ^ 64) :
    (if changed then buffer.advanceGeneration else buffer).Formed ∧
      Applied old (if changed then buffer.advanceGeneration else buffer) changed := by
  cases changed with
  | false => exact ⟨h.formed, .unchanged h.generation_eq (h.unchanged rfl)⟩
  | true =>
    have hgeneration : buffer.generation = old.generation := h.generation_eq
    have hnext : (old.generation + 1).toNat = old.generation.toNat + 1 := by
      rw [UInt64.toNat_add]
      exact Nat.mod_eq_of_lt hroom
    have hlength : buffer.dirtyRows.length = buffer.rowGenerations.length := by
      rw [h.formed.dirty_length, h.formed.generations_length]
    have hstamp := getElem?_stamp (buffer.generation + 1) hlength
    refine ⟨⟨h.formed.cells_length, ?_, h.formed.dirty_length, fun known hknown => ?_⟩,
      .changed (by rw [← hgeneration]; rfl) fun y hy => ?_⟩
    · exact (length_stamp _ _ _).trans h.formed.generations_length
    · obtain ⟨y, hy⟩ := mem_iff_getElem?.mp hknown
      rw [if_pos rfl, advanceGeneration, hstamp] at hy
      show known ≤ buffer.generation + 1
      by_cases hdirty : buffer.dirtyRows[y]? = some true
      · rw [if_pos hdirty, Option.some.injEq] at hy
        exact hy ▸ UInt64.le_refl _
      rw [if_neg hdirty] at hy
      have hle := h.formed.generations_le known (mem_of_getElem? hy)
      rw [UInt64.le_iff_toNat_le, hgeneration] at hle ⊢
      omega
    rw [if_pos rfl, advanceGeneration, hstamp, hgeneration]
    rcases h.row_cases y (h.rows_eq ▸ hy) with hdirty | hsame
    · left
      rw [if_pos hdirty]
    by_cases hdirty : buffer.dirtyRows[y]? = some true
    · left
      rw [if_pos hdirty]
    right
    refine ⟨hsame.cols_eq, hsame.rows_eq, hsame.row_eq, ?_⟩
    show (stamp _ buffer.dirtyRows buffer.rowGenerations)[y]? = _
    rw [← hsame.generation_eq, getElem?_stamp _ hlength, if_neg hdirty]

/-- An update keeps the buffer whole, and is either no damage or a generation of its own. -/
theorem Formed.apply (h : buffer.Formed) (update : GridUpdate)
    (hroom : buffer.generation.toNat + 1 < 2 ^ 64) : (buffer.apply update).1.Formed ∧
      Applied buffer (buffer.apply update).1 (buffer.apply update).2.changed := by
  -- the storage the rows are written to
  have hseeded : Patched buffer update.cols update.rows
      (if update.isFullSnapshot || (buffer.cols != update.cols || buffer.rows != update.rows)
        then buffer.reseed update else buffer.undirty update,
      update.isFullSnapshot || (buffer.cols != update.cols || buffer.rows != update.rows)) := by
    cases hreplace : update.isFullSnapshot ||
        (buffer.cols != update.cols || buffer.rows != update.rows) with
    | true => exact .reseed h update
    | false =>
      simp only [Bool.or_eq_false_iff, bne_eq_false_iff_eq] at hreplace
      exact .undirty h hreplace.2.1 hreplace.2.2
  have hpatched := hseeded.patchRows update.changedRows
  cases hstate : update.changedRows.foldl (GridBuffer.patchRow update.cols update.rows)
      (if update.isFullSnapshot || (buffer.cols != update.cols || buffer.rows != update.rows)
        then buffer.reseed update else buffer.undirty update,
      update.isFullSnapshot || (buffer.cols != update.cols || buffer.rows != update.rows)) with
  | mk patched rowsChanged =>
    rw [hstate] at hpatched
    simp only [GridBuffer.apply, hstate]
    by_cases hcursor : patched.cursor = ⟨update.cursorCol, update.cursorRow, update.cursorVisible⟩
    · simp only [hcursor, bne_self_eq_false, Bool.or_false]
      exact hpatched.finish hroom
    have hmoved := bne_iff_ne.mpr hcursor
    simp only [hmoved, if_true, Bool.or_true]
    exact (hpatched.moveCursor _).finish hroom

/-! ### One drawing -/

/-- What is drawn of row `y`. -/
def cutRow (buffer : GridBuffer) (colCount y : Nat) : List GridCell :=
  match buffer.row y with
  | none => []
  | some cells => cells.take colCount

theorem damageFrom_cons (buffer : GridBuffer) (colCount : Nat) (force : Bool) (row : Nat)
    (known : UInt64) (rest : List UInt64) : buffer.damageFrom colCount force row (known :: rest) =
      (buffer.rowGenerations.getD row 0 :: (buffer.damageFrom colCount force (row + 1) rest).1,
        if force = true ∨ known ≠ buffer.rowGenerations.getD row 0 then
          ⟨row, buffer.rowGenerations.getD row 0, buffer.cutRow colCount row⟩
            :: (buffer.damageFrom colCount force (row + 1) rest).2
        else (buffer.damageFrom colCount force (row + 1) rest).2) := by
  by_cases hdraw : force = true ∨ known ≠ buffer.rowGenerations.getD row 0
  · have htest : (force || known != buffer.rowGenerations.getD row 0) = true := by simpa using hdraw
    rw [if_pos hdraw, damageFrom]
    simp only [htest, if_true]
    rfl
  have htest : (force || known != buffer.rowGenerations.getD row 0) = false := by
    simpa using hdraw
  have hsame : known = buffer.rowGenerations.getD row 0 := by
    rw [not_or, not_not] at hdraw
    exact hdraw.2
  rw [if_neg hdraw, damageFrom]
  simp only [htest]
  rw [hsame]
  rfl

theorem getElem?_damageFrom_known (buffer : GridBuffer) (colCount : Nat) (force : Bool)
    (row : Nat) (known : List UInt64) (y : Nat) :
    (buffer.damageFrom colCount force row known).1[y]? =
      if y < known.length then some (buffer.rowGenerations.getD (row + y) 0) else none := by
  induction known generalizing row y with
  | nil => simp [damageFrom]
  | cons k rest ih =>
    rw [damageFrom_cons]
    cases y with
    | zero => simp
    | succ y =>
      rw [getElem?_cons_succ, ih, length_cons, Nat.add_right_comm, Nat.add_assoc]
      simp

theorem length_damageFrom_known (buffer : GridBuffer) (colCount : Nat) (force : Bool)
    (row : Nat) (known : List UInt64) :
    (buffer.damageFrom colCount force row known).1.length = known.length := by
  induction known generalizing row with
  | nil => rfl
  | cons k rest ih => rw [damageFrom_cons, length_cons, ih, length_cons]

private theorem getElem?_tail (k : UInt64) (rest : List UInt64) {row y : Nat} (h : row < y) :
    (k :: rest)[y - row]? = rest[y - (row + 1)]? := by
  obtain ⟨j, rfl⟩ : ∃ j, y = row + 1 + j := ⟨y - (row + 1), by omega⟩
  rw [show row + 1 + j - row = j + 1 by omega, show row + 1 + j - (row + 1) = j by omega,
    getElem?_cons_succ]

private theorem further {row y length : Nat} {p : Prop} (h : row < y) :
    (row + 1 ≤ y ∧ y < row + 1 + length ∧ p) ↔ (row ≤ y ∧ y < row + (length + 1) ∧ p) := by
  constructor
  · rintro ⟨-, hlt, hp⟩
    exact ⟨by omega, by omega, hp⟩
  · rintro ⟨-, hlt, hp⟩
    exact ⟨by omega, by omega, hp⟩

/-- Patching draws the rows whose generation was not the known one, and leaves the others. -/
theorem getElem?_patch (buffer : GridBuffer) (colCount : Nat) (force : Bool) (row : Nat)
    (known : List UInt64) (rows : List (Option (List GridCell)))
    (hlength : row + known.length ≤ rows.length) (y : Nat) :
    ((buffer.damageFrom colCount force row known).2.foldl
        (fun rows changed => rows.set changed.row (some changed.cells)) rows)[y]? =
      if row ≤ y ∧ y < row + known.length ∧
          (force = true ∨ known[y - row]? ≠ some (buffer.rowGenerations.getD y 0)) then
        some (some (buffer.cutRow colCount y)) else rows[y]? := by
  induction known generalizing row rows with
  | nil =>
    rw [if_neg]
    · rfl
    · simp only [length_nil]
      omega
  | cons k rest ih =>
    rw [length_cons] at hlength
    rw [damageFrom_cons]
    by_cases hdraw : force = true ∨ k ≠ buffer.rowGenerations.getD row 0
    · have hroom : row < rows.length := by omega
      rw [if_pos hdraw, foldl_cons,
        ih (row + 1) (rows.set row (some (buffer.cutRow colCount row))) (by simp; omega)]
      rcases Nat.lt_trichotomy y row with hlt | rfl | hgt
      · rw [if_neg (by omega), if_neg (by omega), getElem?_set_ne (by omega)]
      · rw [if_neg (by omega), getElem?_set_self hroom, if_pos]
        simpa using hdraw
      · rw [getElem?_set_ne (by omega), getElem?_tail k rest hgt]
        exact if_congr (further hgt) rfl rfl
    rw [if_neg hdraw, ih (row + 1) rows (by omega)]
    rw [not_or, not_not] at hdraw
    rcases Nat.lt_trichotomy y row with hlt | rfl | hgt
    · rw [if_neg (by omega), if_neg (by omega)]
    · rw [if_neg (by omega), if_neg]
      rintro ⟨-, -, hforce | hknown⟩
      · exact hdraw.1 hforce
      · simp [hdraw.2] at hknown
    · rw [getElem?_tail k rest hgt]
      exact if_congr (further hgt) rfl rfl

theorem row_of_lt {y : Nat} (hy : y < buffer.rows) :
    buffer.row y = some (rowOf buffer.cols y buffer.cells) := by
  rw [GridBuffer.row, if_neg (Nat.not_le.mpr hy)]

theorem cutRow_eq {y : Nat} (hy : y < buffer.rows) (visibleCols : Nat) :
    some (buffer.cutRow (min visibleCols buffer.cols) y)
      = (buffer.row y).map (·.take visibleCols) := by
  rw [cutRow, row_of_lt hy]
  show some ((rowOf buffer.cols y buffer.cells).take (min visibleCols buffer.cols))
    = some ((rowOf buffer.cols y buffer.cells).take visibleCols)
  rw [rowOf, take_take, take_take]
  congr 2
  omega

theorem getElem?_fullRows (visibleRows visibleCols : Nat) (buffer : GridBuffer) (y : Nat) :
    (buffer.fullRows visibleRows visibleCols)[y]? =
      if y < min visibleRows buffer.rows then some ((buffer.row y).map (·.take visibleCols))
      else none := by
  by_cases hy : y < min visibleRows buffer.rows
  · rw [if_pos hy, fullRows, getElem?_map, getElem?_range hy, Option.map_some]
  · rw [if_neg hy, getElem?_eq_none]
    simpa [fullRows] using Nat.not_lt.mp hy

end GridBuffer

namespace Renderer

open GridBuffer

/-- A renderer of this width that has the cells of every row whose generation it knows. -/
structure Known (visibleCols : Nat) (renderer : Renderer) : Prop where
  known_le : ∀ known ∈ renderer.known, known ≤ renderer.buffer.generation
  rows_length : renderer.rows.length = renderer.known.length
  row_eq : ∀ y, y < renderer.known.length → y < renderer.buffer.rows →
    renderer.known[y]? = renderer.buffer.rowGenerations[y]? →
      renderer.rows[y]? = some ((renderer.buffer.row y).map (·.take visibleCols))

variable {visibleCols : Nat}

theorem Known.apply {renderer : Renderer}
    (h : renderer.Known visibleCols) {buffer : GridBuffer} {changed : Bool}
    (happlied : Applied renderer.buffer buffer changed)
    (hroom : renderer.buffer.generation.toNat + 1 < 2 ^ 64) :
    Known visibleCols { renderer with buffer := buffer } := by
  have hkept : ∀ y, y < renderer.known.length → y < buffer.rows → SameRow renderer.buffer buffer y →
      renderer.known[y]? = buffer.rowGenerations[y]? →
        renderer.rows[y]? = some ((buffer.row y).map (·.take visibleCols)) := by
    intro y hknown hy hsame hgeneration
    have hold : y < renderer.buffer.rows := hsame.rows_eq ▸ hy
    rw [row_of_lt hy, hsame.row_eq, ← row_of_lt hold]
    exact h.row_eq y hknown hold (hgeneration.trans hsame.generation_eq)
  cases happlied with
  | unchanged hgeneration hrows =>
    refine ⟨fun known hknown => ?_, h.rows_length, fun y hknown hy => hkept y hknown hy (hrows y)⟩
    show known ≤ buffer.generation
    rw [hgeneration]
    exact h.known_le known hknown
  | changed hgeneration hrows =>
    have hnext : (renderer.buffer.generation + 1).toNat
        = renderer.buffer.generation.toNat + 1 := by
      rw [UInt64.toNat_add]
      exact Nat.mod_eq_of_lt hroom
    refine ⟨fun known hknown => ?_, h.rows_length, fun y hlt hy hknown => ?_⟩
    · have hle := h.known_le known hknown
      show known ≤ buffer.generation
      rw [UInt64.le_iff_toNat_le] at hle ⊢
      rw [hgeneration, hnext]
      omega
    rcases hrows y hy with hstamped | hsame
    · -- the new generation is not known yet
      have hmem := mem_of_getElem? (hknown.trans hstamped)
      have hle := h.known_le _ hmem
      rw [UInt64.le_iff_toNat_le, hnext] at hle
      omega
    · exact hkept y hlt hy hsame hknown

variable {renderer : Renderer}

theorem rowGeneration_ne (h : renderer.buffer.Formed)
    (hroom : renderer.buffer.generation.toNat + 1 < 2 ^ 64) (y : Nat) :
    UInt64.ofNat (2 ^ 64 - 1) ≠ renderer.buffer.rowGenerations.getD y 0 := by
  intro heq
  have hle : renderer.buffer.rowGenerations.getD y 0 ≤ renderer.buffer.generation := by
    rw [getD_eq_getElem?_getD]
    cases hget : renderer.buffer.rowGenerations[y]? with
    | none => exact UInt64.zero_le
    | some known => exact h.generations_le known (mem_of_getElem? hget)
  rw [← heq, UInt64.le_iff_toNat_le] at hle
  have hmax : (UInt64.ofNat (2 ^ 64 - 1)).toNat = 2 ^ 64 - 1 := rfl
  omega

section
variable (h : renderer.buffer.Formed) (hroom : renderer.buffer.generation.toNat + 1 < 2 ^ 64)
include h hroom

/--
A drawing shows every visible row as it is: either it draws them all, or the renderer
has those it leaves out.
-/
theorem draw_rows (visibleRows : Nat) {force : Bool}
    (hknown : force = true ∨ renderer.Known visibleCols) :
    (renderer.draw visibleRows visibleCols force).rows
      = renderer.buffer.fullRows visibleRows visibleCols := by
  refine ext_getElem? fun y => ?_
  rw [getElem?_fullRows]
  simp only [draw, snapshotDamage, patchRows]
  rw [getElem?_patch]
  · simp only [takeD_length, Nat.zero_add, Nat.zero_le, true_and, Nat.sub_zero, getElem?_takeD]
    by_cases hy : y < min visibleRows renderer.buffer.rows
    · have hrow : y < renderer.buffer.rows := Nat.lt_of_lt_of_le hy (Nat.min_le_right _ _)
      rw [if_pos hy, if_pos hy, if_pos hy, cutRow_eq hrow]
      by_cases hdraw : force = true ∨ some (renderer.known.getD y (UInt64.ofNat (2 ^ 64 - 1)))
          ≠ some (renderer.buffer.rowGenerations.getD y 0)
      · rw [if_pos ⟨hy, hdraw⟩]
      rw [if_neg fun hand => hdraw hand.2]
      rw [not_or, not_not] at hdraw
      have hknown := hknown.resolve_left hdraw.1
      have hsame := some.inj hdraw.2
      -- a row that is new to the renderer would have been drawn
      have hlt : y < renderer.known.length := by
        by_contra hge
        rw [getD_eq_getElem?_getD, getElem?_eq_none (Nat.not_lt.mp hge)] at hsame
        exact rowGeneration_ne h hroom y hsame
      have hgen : y < renderer.buffer.rowGenerations.length := by
        rw [h.generations_length]
        exact hrow
      have hrows : y < renderer.rows.length := by
        rw [hknown.rows_length]
        exact hlt
      have hdrawn := hknown.row_eq y hlt hrow (by
        rw [← some_getD hlt, ← some_getD hgen, hsame])
      rw [some_getD hrows]
      exact hdrawn
    · rw [if_neg fun hand => hy hand.1, if_neg hy, if_neg hy]
  · simp

theorem Known.draw (visibleRows : Nat) {force : Bool}
    (hknown : force = true ∨ renderer.Known visibleCols) :
    (renderer.draw visibleRows visibleCols force).Known visibleCols := by
  have hdrawn := draw_rows h hroom visibleRows hknown
  have hlength : (renderer.draw visibleRows visibleCols force).known.length
      = min visibleRows renderer.buffer.rows := by
    simp [Renderer.draw, snapshotDamage, length_damageFrom_known]
  refine ⟨fun known hmem => ?_, ?_, fun y hy hrow _ => ?_⟩
  · obtain ⟨y, hy⟩ := mem_iff_getElem?.mp hmem
    simp only [Renderer.draw, snapshotDamage, getElem?_damageFrom_known] at hy
    by_cases hlt : y < (List.takeD (min visibleRows renderer.buffer.rows) renderer.known
        (UInt64.ofNat (2 ^ 64 - 1))).length
    · rw [if_pos hlt, some.injEq, getD_eq_getElem?_getD] at hy
      show known ≤ renderer.buffer.generation
      cases hget : renderer.buffer.rowGenerations[0 + y]? with
      | none =>
        rw [hget] at hy
        exact hy ▸ UInt64.zero_le
      | some generation =>
        rw [hget] at hy
        exact hy ▸ h.generations_le generation (mem_of_getElem? hget)
    · rw [if_neg hlt] at hy
      cases hy
  · rw [hdrawn, hlength]
    simp [fullRows]
  · rw [hdrawn, getElem?_fullRows, if_pos (hlength ▸ hy)]
    rfl

end

end Renderer

/-! ### Any order of updates and drawings -/

namespace RenderStep

/-- What holds of the renderer, as long as the past forced what it must and wrapped nothing. -/
structure Drawn (renderer : Renderer) (past : List RenderStep) : Prop where
  formed : renderer.buffer.Formed
  generation_eq : renderer.buffer.generation.toNat = changes past
  known : ∀ visibleCols, lastCols past = some visibleCols → renderer.Known visibleCols
  rows_eq : ∀ step ∈ past, ∀ visibleRows visibleCols force,
    step.input = .draw visibleRows visibleCols force →
      step.after.rows = step.after.buffer.fullRows visibleRows visibleCols

theorem Drawn.apply {renderer : Renderer} {past : List RenderStep} (h : Drawn renderer past)
    (update : GridUpdate) (hroom : changes past < 2 ^ 64 - 1) :
    Drawn (renderer.step (.apply update)).1
      (taken Renderer.step renderer (.apply update) :: past) := by
  have hroom' : renderer.buffer.generation.toNat + 1 < 2 ^ 64 := by
    rw [h.generation_eq]
    omega
  obtain ⟨hformed, happlied⟩ := h.formed.apply update hroom'
  refine ⟨hformed, ?_, fun visibleCols hcols => (h.known visibleCols hcols).apply happlied hroom',
    fun step hstep visibleRows visibleCols force hinput => ?_⟩
  · have hcount : changes (taken Renderer.step renderer (.apply update) :: past)
        = changes past + (renderer.buffer.apply update).2.changed.toNat := by
      rw [changes, countP_cons]
      show _ + (if (renderer.buffer.apply update).2.changed = true then 1 else 0) = _
      cases (renderer.buffer.apply update).2.changed <;> rfl
    show (renderer.buffer.apply update).1.generation.toNat = _
    rw [hcount, ← h.generation_eq]
    generalize (renderer.buffer.apply update).2.changed = changed at happlied ⊢
    cases happlied with
    | unchanged hgeneration _ => rw [hgeneration]; rfl
    | changed hgeneration _ =>
      rw [hgeneration, UInt64.toNat_add]
      exact Nat.mod_eq_of_lt hroom'
  · rcases List.mem_cons.mp hstep with rfl | hpast
    · cases hinput
    · exact h.rows_eq step hpast visibleRows visibleCols force hinput

theorem Drawn.draw {renderer : Renderer} {past : List RenderStep} (h : Drawn renderer past)
    (visibleRows visibleCols : Nat) (force : Bool)
    (hforced : lastCols past = some visibleCols ∨ force = true)
    (hroom : changes past < 2 ^ 64 - 1) :
    Drawn (renderer.step (.draw visibleRows visibleCols force)).1
      (taken Renderer.step renderer (.draw visibleRows visibleCols force) :: past) := by
  have hroom' : renderer.buffer.generation.toNat + 1 < 2 ^ 64 := by
    rw [h.generation_eq]
    omega
  have hknown : force = true ∨ renderer.Known visibleCols :=
    hforced.symm.imp_right (h.known visibleCols)
  refine ⟨h.formed, ?_, fun cols hcols => ?_, fun step hstep rows cols forced hinput => ?_⟩
  · rw [changes, countP_cons]
    exact h.generation_eq
  · obtain rfl : visibleCols = cols := some.inj hcols
    exact .draw h.formed hroom' visibleRows hknown
  · rcases List.mem_cons.mp hstep with rfl | hpast
    · obtain ⟨rfl, rfl, rfl⟩ := RenderCall.draw.inj hinput
      exact Renderer.draw_rows h.formed hroom' _ hknown
    · exact h.rows_eq step hpast rows cols forced hinput

theorem changes_cons_ge (step : RenderStep) (past : List RenderStep) :
    changes past ≤ changes (step :: past) := by
  rw [changes, changes, countP_cons]
  exact Nat.le_add_right _ _

end RenderStep

/--
**Incremental drawing is full drawing.**  Updates of any kind and drawings of any height
come in any order; a drawing that is the first, or of another width than the one before,
is forced.  After every drawing the renderer's rows are the buffer's, cut to the width.
-/
theorem damage_rendering (cols rows : Nat) (known : List UInt64)
    (drawn : List (Option (List GridCell))) (calls : List RenderCall)
    (hforced : RenderStep.Forced (run Renderer.step ⟨.new cols rows, known, drawn⟩ calls).2)
    (hroom : RenderStep.changes
      (run Renderer.step ⟨.new cols rows, known, drawn⟩ calls).2 < 2 ^ 64 - 1) :
    ∀ step ∈ (run Renderer.step ⟨.new cols rows, known, drawn⟩ calls).2,
      ∀ visibleRows visibleCols force, step.input = .draw visibleRows visibleCols force →
        step.after.rows = step.after.buffer.fullRows visibleRows visibleCols := by
  have hdrawn := run_induction (f := Renderer.step) (s := ⟨.new cols rows, known, drawn⟩)
    (P := fun renderer past => RenderStep.Forced past → RenderStep.changes past < 2 ^ 64 - 1 →
      RenderStep.Drawn renderer past) ?_ ?_ calls
  · exact (hdrawn hforced hroom).rows_eq
  · intro _ _
    exact ⟨.new cols rows, rfl, fun _ h => by simp [RenderStep.lastCols] at h, by simp⟩
  intro renderer past call ih hforced hroom
  have hpast := Nat.lt_of_le_of_lt (RenderStep.changes_cons_ge _ past) hroom
  have hbefore := ih hforced.2 hpast
  cases call with
  | apply update => exact hbefore.apply update hpast
  | draw visibleRows visibleCols force =>
    exact hbefore.draw visibleRows visibleCols force hforced.1 hpast

/-- A grid that shrinks to one row and grows again while one row is shown. -/
theorem damage_rendering_shrunk :
    let shrunk : GridUpdate := ⟨1, 1, 0, 0, true, false, [⟨0, [⟨97, .default, .default, 0⟩]⟩]⟩
    let grown : GridUpdate := ⟨1, 2, 0, 1, true, true, [⟨1, [⟨98, .default, .default, 0⟩]⟩]⟩
    let calls : List RenderCall :=
      [.draw 2 1 true, .apply shrunk, .draw 1 1 false, .apply grown, .draw 2 1 false]
    ∀ step ∈ (run Renderer.step ⟨.new 1 2, [], []⟩ calls).2,
      ∀ visibleRows visibleCols force, step.input = .draw visibleRows visibleCols force →
        step.after.rows = step.after.buffer.fullRows visibleRows visibleCols :=
  damage_rendering 1 2 [] [] _
    ⟨.inl rfl, trivial, .inl rfl, trivial, .inr rfl, trivial⟩ (by decide +kernel)

end Diri
