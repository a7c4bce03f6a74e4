/-
What any order of calls leaves in a mirror.

A call that is refused changes nothing, since every check comes before the first write
(`exec_applySnapshotCall`, `exec_applyDeltaCall`).  A call that is accepted leaves a
whole picture: the cells of its size, with the cursor inside (`Pictured`).  From there
it is an induction over the calls; `mirror_law` puts the parts together.
-/
import Diri.Proofs.Attach.Session

namespace Diri

open Handler

namespace GridMirror

variable {mirror : GridMirror} {sequence : Nat} {grid : GridUpdate} {modes : Modes}

/-- What a handler leaves when the call it makes is refused or accepted as `result` says. -/
def outcome (mirror : GridMirror) (result : Except MirrorError GridMirror) :
    Except MirrorError Unit × GridMirror :=
  match result with
  | .ok mirror' => (.ok (), mirror')
  | .error error => (.error error, mirror)

theorem exec_write (sequence : Nat) (grid : GridUpdate) (modes : Modes) (mirror : GridMirror) :
    exec (write sequence grid modes) mirror = (.ok (), mirror.accept sequence grid modes) := rfl

theorem exec_check_write (sequence : Nat) (grid : GridUpdate) (modes : Modes)
    (mirror : GridMirror) : exec (do check (validateGrid grid); write sequence grid modes) mirror
      = mirror.outcome (do validateGrid grid; return mirror.accept sequence grid modes) := by
  cases validateGrid grid with
  | ok _ => rfl
  | error error => rfl

theorem exec_applySnapshotCall (sequence : Nat) (grid : GridUpdate) (modes : Modes)
    (mirror : GridMirror) : exec (applySnapshotCall sequence grid modes) mirror
      = mirror.outcome (mirror.applySnapshot sequence grid modes) := by
  unfold applySnapshotCall applySnapshot
  by_cases hfull : grid.isFullSnapshot = true
  · simp only [hfull]
    exact exec_check_write sequence grid modes mirror
  · simp only [hfull]
    rfl

theorem exec_applyDeltaCall (sequence : Nat) (grid : GridUpdate) (modes : Modes)
    (mirror : GridMirror) : exec (applyDeltaCall sequence grid modes) mirror
      = mirror.outcome (mirror.applyDelta sequence grid modes) := by
  unfold applyDeltaCall applyDelta
  rw [exec_bind_ok (exec_get mirror)]
  cases mirror.sequence with
  | none => rfl
  | some previous =>
    simp only []
    by_cases hover : previous + 1 > maxU64
    · rw [if_pos hover, if_pos hover]
      rfl
    rw [if_neg hover, if_neg hover]
    by_cases hgap : sequence ≠ previous + 1
    · rw [if_pos hgap, if_pos hgap]
      rfl
    rw [if_neg hgap, if_neg hgap]
    by_cases hsize : grid.isFullSnapshot = true ∨ grid.cols ≠ mirror.cols ∨ grid.rows ≠ mirror.rows
    · rw [if_pos hsize, if_pos hsize]
      rfl
    · rw [if_neg hsize, if_neg hsize]
      exact exec_check_write sequence grid modes mirror

theorem validateGrid_cursor (h : validateGrid grid = .ok ()) :
    grid.cursorCol < grid.cols ∧ grid.cursorRow < grid.rows := by
  unfold validateGrid at h
  by_cases hdims : grid.cols = 0 ∨ grid.rows = 0
  · rw [if_pos hdims] at h
    cases h
  rw [if_neg hdims] at h
  by_cases hcursor : grid.cursorCol ≥ grid.cols ∨ grid.cursorRow ≥ grid.rows
  · rw [if_pos hcursor] at h
    cases h
  · omega

/-- A mirror with a whole picture, the one the update with this sequence left. -/
structure Pictured (mirror : GridMirror) (sequence : Nat) : Prop where
  cells_length : mirror.cells.length = mirror.cols * mirror.rows
  cursorCol_lt : mirror.cursorCol < mirror.cols
  cursorRow_lt : mirror.cursorRow < mirror.rows
  sequence_eq : mirror.sequence = some sequence
  cols_lt : mirror.cols < 2 ^ 16
  rows_lt : mirror.rows < 2 ^ 16

theorem Pictured.accept (update : TypedUpdate) (h : validateGrid update.grid = .ok ())
    (mirror : GridMirror) (sequence : Nat) (modes : Modes) :
    (mirror.accept sequence update.grid modes).Pictured sequence where
  cells_length := update.grid.length_apply mirror.cells
  cursorCol_lt := (validateGrid_cursor h).1
  cursorRow_lt := (validateGrid_cursor h).2
  sequence_eq := rfl
  cols_lt := update.cols_lt
  rows_lt := update.rows_lt

theorem Pictured.validateGrid_fullUpdate (h : mirror.Pictured sequence) {update : GridUpdate}
    (hupdate : mirror.fullUpdate = some update) : validateGrid update = .ok () := by
  have hnot : ¬(mirror.sequence.isNone = true ∨
      mirror.cells.length ≠ mirror.cols * mirror.rows) := by
    rw [h.sequence_eq, not_or, not_not]
    exact ⟨by simp, h.cells_length⟩
  rw [GridMirror.fullUpdate, if_neg hnot] at hupdate
  obtain ⟨⟩ := hupdate
  have hcol := h.cursorCol_lt
  have hrow := h.cursorRow_lt
  unfold validateGrid
  rw [if_neg (by simp; omega), if_neg (by simp; omega), if_neg]
  rintro ⟨row, hmem, hbad⟩
  obtain ⟨y, hy, rfl⟩ := List.mem_map.mp hmem
  have hlt := List.mem_range.mp hy
  rcases hbad with hbelow | hwidth
  · rw [asU16_of_lt (Nat.lt_trans hlt h.rows_lt)] at hbelow
    exact Nat.not_le.mpr hlt hbelow
  · exact hwidth (length_rowOf h.cells_length hlt)

/-- The whole picture of a mirror is accepted by any other mirror, which then shows it. -/
theorem Pictured.fullUpdate (h : mirror.Pictured sequence) :
    ∃ update, mirror.fullUpdate = some update ∧
      ∀ (other : GridMirror) (next : Nat) (modes : Modes), ∃ other',
        exec (applySnapshotCall next update modes) other = (.ok (), other') ∧
          other'.cells = mirror.cells ∧ other'.size = mirror.size ∧
            other'.cursor = mirror.cursor := by
  obtain ⟨update, hupdate, hfull, hof⟩ := mirror.fullUpdate_of h.cols_lt h.rows_lt h.cells_length
    (by rw [h.sequence_eq]; rfl)
  refine ⟨update, hupdate, fun other next modes => ?_⟩
  have hvalid := h.validateGrid_fullUpdate hupdate
  refine ⟨other.accept next update modes, ?_, hof.gives other.cells (.inl hfull), hof.size,
    hof.cursor⟩
  rw [exec_applySnapshotCall, applySnapshot, hfull, hvalid]
  rfl

end GridMirror

/-! ### One call -/

namespace MirrorCall

variable {mirror : GridMirror}

/-- What a call says about the update it brings, when it is accepted. -/
structure Takes (call : MirrorCall) (mirror : GridMirror) : Prop where
  valid : validateGrid call.update.grid = .ok ()
  contiguous : call.isSnapshot = false → mirror.sequence.map (· + 1) = some call.sequence

/-- A call is refused and leaves the mirror alone, or it writes its whole update. -/
theorem step_cases (call : MirrorCall) (mirror : GridMirror) :
    (∃ error, step mirror call = (mirror, .error error)) ∨ (step mirror call
          = (mirror.accept call.sequence call.update.grid call.modes, .ok ()) ∧
        call.Takes mirror) := by
  cases call with
  | snapshot sequence update modes =>
    simp only [step, handler, GridMirror.exec_applySnapshotCall]
    cases happly : mirror.applySnapshot sequence.toNat update.grid modes with
    | error error => exact .inl ⟨error, rfl⟩
    | ok mirror' =>
      obtain ⟨-, hvalid, rfl⟩ := GridMirror.applySnapshot_cases happly
      exact .inr ⟨rfl, hvalid, fun h => Bool.noConfusion h⟩
  | delta sequence update modes =>
    simp only [step, handler, GridMirror.exec_applyDeltaCall]
    cases happly : mirror.applyDelta sequence.toNat update.grid modes with
    | error error => exact .inl ⟨error, rfl⟩
    | ok mirror' =>
      obtain ⟨hsequence, -, -, hvalid, rfl⟩ := GridMirror.applyDelta_cases happly
      exact .inr ⟨rfl, hvalid, fun _ => hsequence⟩

end MirrorCall

/-! ### Any order of calls -/

namespace MirrorStep

/-- What the accepted calls so far say about the mirror. -/
structure Law (mirror : GridMirror) (past : List MirrorStep) : Prop where
  sequence_eq : mirror.sequence = lastAccepted past
  pictured : ∀ sequence, mirror.sequence = some sequence → mirror.Pictured sequence

theorem Law.step {mirror : GridMirror} {past : List MirrorStep} (h : Law mirror past)
    (call : MirrorCall) :
    Law (MirrorCall.step mirror call).1 (taken MirrorCall.step mirror call :: past) := by
  rcases call.step_cases mirror with ⟨error, hstep⟩ | ⟨hstep, htakes⟩
  · have hrefused : ¬Accepted (taken MirrorCall.step mirror call) := by
      simp [Accepted, taken, hstep]
    rw [hstep]
    refine ⟨?_, h.pictured⟩
    rw [lastAccepted, if_neg hrefused]
    exact h.sequence_eq
  have haccepted : Accepted (taken MirrorCall.step mirror call) := by
    simp [Accepted, taken, hstep]
  rw [hstep]
  refine ⟨?_, fun sequence hsequence => ?_⟩
  · rw [lastAccepted, if_pos haccepted]
    rfl
  · obtain rfl : call.sequence = sequence := Option.some.inj hsequence
    exact .accept call.update htakes.valid mirror call.sequence call.modes

theorem law (calls : List MirrorCall) :
    Law (run MirrorCall.step {} calls).1 (run MirrorCall.step {} calls).2 := by
  have hnew : Law {} [] := by
    refine ⟨rfl, fun sequence hsequence => ?_⟩
    simp at hsequence
  exact run_induction hnew (fun _ _ call h => h.step call) calls

theorem exists_lastAccepted {past : List MirrorStep} (h : ∃ step ∈ past, Accepted step) :
    ∃ sequence, lastAccepted past = some sequence := by
  induction past with
  | nil => simp at h
  | cons step past ih =>
    by_cases haccepted : Accepted step
    · exact ⟨step.input.sequence, by rw [lastAccepted, if_pos haccepted]⟩
    rw [lastAccepted, if_neg haccepted]
    obtain ⟨other, hmem, hother⟩ := h
    rcases List.mem_cons.mp hmem with rfl | hpast
    · exact absurd hother haccepted
    · exact ih ⟨other, hpast, hother⟩

end MirrorStep

/--
**The state law of a mirror**, for any calls on a new one.  A call that is refused leaves
the mirror unchanged; an accepted delta has the sequence after the one accepted last;
and once a snapshot was accepted, the mirror has a whole picture with the sequence
accepted last, which `fullUpdate` carries over to any other mirror.
-/
theorem mirror_law (calls : List MirrorCall) : let mirror := (run MirrorCall.step {} calls).1
    let past := (run MirrorCall.step {} calls).2
    (∀ step ∈ past, ∀ error, step.output = .error error → step.after = step.before) ∧
    (∀ later step earlier, past = later ++ step :: earlier → MirrorStep.Accepted step →
      step.input.isSnapshot = false → ∃ previous,
        MirrorStep.lastAccepted earlier = some previous ∧ step.input.sequence = previous + 1) ∧
    ((∃ step ∈ past, MirrorStep.Accepted step ∧ step.input.isSnapshot = true) →
      mirror.cells.length = mirror.cols * mirror.rows ∧
      mirror.cursorCol < mirror.cols ∧ mirror.cursorRow < mirror.rows ∧
      (∃ sequence, mirror.sequence = some sequence ∧ MirrorStep.lastAccepted past = some sequence) ∧
      ∃ update, mirror.fullUpdate = some update ∧
        ∀ (other : GridMirror) (sequence : Nat) (modes : Modes), ∃ other',
          exec (GridMirror.applySnapshotCall sequence update modes) other = (.ok (), other') ∧
            other'.cells = mirror.cells ∧ other'.size = mirror.size ∧
              other'.cursor = mirror.cursor) := by
  refine ⟨fun step hstep error herror => ?_, fun later step earlier hsplit haccepted hdelta => ?_,
    fun hsnapshot => ?_⟩
  · rw [run_mem hstep] at herror ⊢
    rcases step.input.step_cases step.before with ⟨_, hrefused⟩ | ⟨haccepted, -⟩
    · rw [taken, hrefused]
    · rw [taken, haccepted] at herror
      cases herror
  · -- the mirror that took the delta is the one the earlier calls left
    obtain ⟨js, -, hjs⟩ := run_suffix calls hsplit
    obtain ⟨ks, -, hearlier, hstep⟩ := run_past hjs
    have hlaw := (MirrorStep.law ks).sequence_eq
    rw [hstep] at haccepted
    rcases step.input.step_cases (run MirrorCall.step {} ks).1 with
      ⟨error, hrefused⟩ | ⟨-, htakes⟩
    · simp [MirrorStep.Accepted, taken, hrefused] at haccepted
    obtain ⟨previous, hprevious, hnext⟩ := Option.map_eq_some_iff.mp (htakes.contiguous hdelta)
    rw [hlaw, hearlier] at hprevious
    exact ⟨previous, hprevious, hnext.symm⟩
  obtain ⟨step, hmem, haccepted, -⟩ := hsnapshot
  obtain ⟨sequence, hlast⟩ := MirrorStep.exists_lastAccepted ⟨step, hmem, haccepted⟩
  have hlaw := MirrorStep.law calls
  have hsequence := hlaw.sequence_eq.trans hlast
  have hpictured := hlaw.pictured sequence hsequence
  exact ⟨hpictured.cells_length, hpictured.cursorCol_lt, hpictured.cursorRow_lt,
    ⟨sequence, hsequence, hlast⟩, hpictured.fullUpdate⟩

end Diri
