/-
What a remote session's pump gets between two samples.

Nothing is pending after a sample.  The first frame that arrives is pending as it is, and
is an update of what the sample showed; whatever arrives on top of it makes the whole
picture pending (`Arrived`).  So what is pending always lands on a client that shows the
last sample (`Since.covers`).  Each frame counts in the revision, which is in the
signature, until the revision has reached its bound.
-/
import Diri.Proofs.Attach.Hub

namespace Diri

open GridMirror Option Session List

/-- A frame of the Holder, or a look of the pump. -/
inductive RemoteCall where
  | snapshot (state : GridState) (decoded : state.grid.Decoded)
  | delta (state : GridState) (decoded : state.grid.Decoded)
  | sample

/-- The remote grid that takes what a frame brings, if its mirror does. -/
def RemoteCall.applied (remote : RemoteGridState) : RemoteCall → Option RemoteGridState
  | .snapshot state _ =>
    (remote.mirror.applySnapshot state.sequence state.grid state.modes).toOption.map
      fun mirror => remote.snapshot mirror state.grid
  | .delta state _ =>
    (remote.mirror.applyDelta state.sequence state.grid state.modes).toOption.map
      fun mirror => remote.delta mirror state.grid
  | .sample => none

/-- What a frame makes of a remote grid: it is pending, or the whole picture is. -/
structure Arrived (remote after : RemoteGridState) : Prop where
  live : after.Live
  revision : after.revision = min (remote.revision + 1) maxU64
  pending : ∃ update, after.pending = some update ∧ (update.isFullSnapshot = true ∨
    (remote.pending = none ∧ remote.mirror.sequence.isSome = true ∧
      after.mirror.size = remote.mirror.size ∧
      ∀ y, (∀ row ∈ update.changedRows, row.y ≠ y) →
        rowOf remote.mirror.cols y after.mirror.cells =
          rowOf remote.mirror.cols y remote.mirror.cells))

theorem arrived_snapshot {remote : RemoteGridState} {mirror : GridMirror} {sequence : Nat}
    {grid : GridUpdate} {modes : Modes} (hdecoded : grid.Decoded)
    (happly : remote.mirror.applySnapshot sequence grid modes = .ok mirror) :
    Arrived remote (remote.snapshot mirror grid) :=
  ⟨RemoteGridState.live_snapshot hdecoded happly, rfl, grid, rfl,
    .inl (applySnapshot_cases happly).1⟩

theorem arrived_delta {remote : RemoteGridState} {mirror : GridMirror} {sequence : Nat}
    {grid : GridUpdate} {modes : Modes} (h : remote.Live) (hdecoded : grid.Decoded)
    (happly : remote.mirror.applyDelta sequence grid modes = .ok mirror) :
    Arrived remote (remote.delta mirror grid) := by
  have hlive := RemoteGridState.live_delta h hdecoded happly
  refine ⟨hlive, rfl, ?_⟩
  obtain ⟨-, hcols, hrows, -, rfl⟩ := applyDelta_cases happly
  cases hpending : remote.pending with
  | some queued =>
    obtain ⟨update, hupdate, hfull, -⟩ := fullUpdate_of (remote.mirror.accept sequence grid modes)
      hlive.cols_lt hlive.rows_lt hlive.cells_length rfl
    refine ⟨update, ?_, .inl hfull⟩
    rw [RemoteGridState.delta, hpending]
    exact hupdate
  | none =>
    refine ⟨grid, by rw [RemoteGridState.delta, hpending]; rfl, ?_⟩
    by_cases hfull : grid.isFullSnapshot = true
    · exact .inl hfull
    refine .inr ⟨rfl, h.sequence, Prod.ext hcols hrows, fun y hnone => ?_⟩
    have hlength : remote.mirror.cells.length = grid.cols * grid.rows := by
      rw [h.cells_length, hcols, hrows]
    have hground : grid.ground remote.mirror.cells = remote.mirror.cells :=
      if_neg (not_or.mpr ⟨hfull, not_not.mpr hlength⟩)
    show rowOf _ y (grid.apply remote.mirror.cells) = _
    rw [GridUpdate.apply_eq, hground, ← hcols]
    exact GridUpdate.rowOf_foldl_applyRow hlength hnone

/-- A session, and the signature its pump has. -/
structure Watched where
  session : Session
  signature : GridSignature

namespace Watched

def step (hash : Hasher) (watched : Watched) : RemoteCall → Watched × Option GridUpdate
  | .snapshot state _ =>
    ({ watched with session := watched.session.output hash (.remoteSnapshot state) }, none)
  | .delta state _ =>
    ({ watched with session := watched.session.output hash (.remoteDelta state) }, none)
  | .sample =>
    let (update, signature, session) := watched.session.gridUpdateIfChanged watched.signature
    (⟨session, signature⟩, update)

def Applies (watched : Watched) (call : RemoteCall) : Prop :=
  ∃ remote after, watched.session.remoteGrid = some remote ∧ call.applied remote = some after

def replace (after : RemoteGridState) (watched : Watched) : Watched :=
  { watched with session := { watched.session with remoteGrid := some after } }

abbrev Past : Type := List (Taken Watched RemoteCall (Option GridUpdate))

variable {watched first : Watched} {past : Past}

theorem arrived (h : watched.session.Formed) {call : RemoteCall} {remote after : RemoteGridState}
    (hgrid : watched.session.remoteGrid = some remote)
    (happlied : call.applied remote = some after) : Arrived remote after := by
  cases call with
  | snapshot state hdecoded =>
    obtain ⟨mirror, happly, rfl⟩ := map_eq_some_iff.mp happlied
    exact arrived_snapshot hdecoded (toOption_eq_some happly)
  | delta state hdecoded =>
    obtain ⟨mirror, happly, rfl⟩ := map_eq_some_iff.mp happlied
    have happly := toOption_eq_some happly
    have hlive : remote.mirror.sequence.isSome = true := by
      have hsequence := (applyDelta_cases happly).1
      rw [map_eq_some_iff] at hsequence
      obtain ⟨previous, hprevious, -⟩ := hsequence
      rw [hprevious]
      rfl
    exact arrived_delta (h.remote remote (Session.liveRemote_eq_some.mpr ⟨hgrid, hlive⟩))
      hdecoded happly
  | sample => cases happlied

theorem step_frame (hash : Hasher) {call : RemoteCall} (hframe : call ≠ .sample) :
    watched.step hash call =
      ((watched.session.remoteGrid.bind call.applied).elim watched watched.replace, none) := by
  cases call with
  | sample => exact absurd rfl hframe
  | snapshot state _ =>
    cases hgrid : watched.session.remoteGrid with
    | none => simp only [step, Session.output, hgrid, bind_none, elim_none]
    | some remote =>
      simp only [step, Session.output, hgrid, bind_some, RemoteCall.applied]
      cases remote.mirror.applySnapshot state.sequence state.grid state.modes <;> rfl
  | delta state _ =>
    cases hgrid : watched.session.remoteGrid with
    | none => simp only [step, Session.output, hgrid, bind_none, elim_none]
    | some remote =>
      simp only [step, Session.output, hgrid, bind_some, RemoteCall.applied]
      cases remote.mirror.applyDelta state.sequence state.grid state.modes <;> rfl

/-- A call is refused, or it is a sample that has found something, or a frame arrives. -/
theorem step_cases (h : watched.session.Formed) (hash : Hasher) (call : RemoteCall) :
    (watched.step hash call = (watched, none) ∧ ¬watched.Applies call) ∨
      (watched.step hash call).2.isSome = true ∨
      ∃ remote after, watched.session.remoteGrid = some remote ∧ Arrived remote after ∧
        watched.step hash call = (watched.replace after, none) := by
  by_cases hsample : call = .sample
  · subst hsample
    by_cases hsame : watched.session.signature = watched.signature
    · refine .inl ⟨by rw [step, gridUpdate_of_eq hsame], ?_⟩
      intro happlies
      obtain ⟨remote, after, -, happlied⟩ := happlies
      cases happlied
    · obtain ⟨update, after, hupdate, -⟩ := h.reports_of_ne hsame
      exact .inr (.inl (by rw [step, hupdate]; rfl))
  rw [step_frame hash hsample]
  cases happlied : watched.session.remoteGrid.bind call.applied with
  | none =>
    refine .inl ⟨rfl, fun ⟨remote, after, hgrid, hafter⟩ => ?_⟩
    rw [hgrid, bind_some, hafter] at happlied
    cases happlied
  | some after =>
    obtain ⟨remote, hgrid, hafter⟩ := bind_eq_some_iff.mp happlied
    exact .inr (.inr ⟨remote, after, hgrid, arrived h hgrid hafter, rfl⟩)

/-- What holds of a remote session since a sample that found something, until the next one. -/
structure Since (first watched : Watched) (past : Past) : Prop where
  formed : watched.session.Formed
  signature : watched.signature = first.signature
  covers : watched.session.Covers first.session.picture
  /-- Where nothing is pending, nothing has changed. -/
  idle : ∀ remote, watched.session.liveRemote = some remote → remote.pending = none →
    remote.mirror.size = first.session.picture.size ∧
      remote.mirror.cells = first.session.picture.cells
  counted : ∀ remote, first.session.liveRemote = some remote →
    ∃ after, watched.session.liveRemote = some after ∧
      min remote.revision maxU64 ≤ after.revision ∧
      ((∀ taken ∈ past, ¬taken.before.Applies taken.input) ∨
        min (remote.revision + 1) maxU64 ≤ after.revision)

theorem Since.start (h : first.session.Formed) : Since first first [] where
  formed := h
  signature := rfl
  covers := first.session.covers_picture
  idle remote hlive _ := by
    rw [picture_remote hlive]
    exact ⟨rfl, rfl⟩
  counted remote hlive :=
    ⟨remote, hlive, Nat.min_le_left _ _, .inl fun _ htaken => absurd htaken List.not_mem_nil⟩

theorem Since.refuse (h : Since first watched past) {hash : Hasher} {call : RemoteCall}
    (hrefused : ¬watched.Applies call) :
    Since first watched (taken (step hash) watched call :: past) :=
  { h with
    counted := fun remote hlive => by
      obtain ⟨after, hafter, hle, hcount⟩ := h.counted remote hlive
      refine ⟨after, hafter, hle, hcount.imp_left fun hnone => ?_⟩
      exact forall_mem_cons.mpr ⟨hrefused, hnone⟩ }

theorem Since.arrive (h : Since first watched past) {remote after : RemoteGridState}
    (hgrid : watched.session.remoteGrid = some remote) (harrived : Arrived remote after)
    (e : Taken Watched RemoteCall (Option GridUpdate)) :
    Since first (watched.replace after) (e :: past) := by
  have hlive : (watched.replace after).session.liveRemote = some after :=
    Session.liveRemote_eq_some.mpr ⟨rfl, harrived.live.sequence⟩
  obtain ⟨update, hpending, hlands⟩ := harrived.pending
  refine ⟨h.formed.withRemote harrived.live, h.signature, ⟨?_, ?_⟩, ?_, ?_⟩
  · intro live hmem queued hqueued
    obtain rfl := some.inj (hlive.symm.trans (mem_def.mp hmem))
    obtain rfl := some.inj (hpending.symm.trans (mem_def.mp hqueued))
    refine hlands.imp_right fun ⟨hidle, hsome, hsize, hrows⟩ => ?_
    obtain ⟨hheld, hcells⟩ := h.idle remote (Session.liveRemote_eq_some.mpr ⟨hgrid, hsome⟩) hidle
    have hcols : after.mirror.cols = remote.mirror.cols := congrArg Prod.fst hsize
    rw [← hheld, ← hcells, hcols]
    exact ⟨hsize.symm, fun y _ hnone => (hrows y hnone).symm⟩
  · intro hnone
    rw [hlive] at hnone
    cases hnone
  · intro live hmem hnone
    obtain rfl := some.inj (hlive.symm.trans hmem)
    rw [hpending] at hnone
    cases hnone
  · intro earliest hearliest
    obtain ⟨before, hbefore, hle, -⟩ := h.counted earliest hearliest
    obtain rfl := some.inj (hgrid.symm.trans (Session.liveRemote_eq_some.mp hbefore).1)
    refine ⟨after, hlive, ?_, .inr ?_⟩ <;> rw [harrived.revision] <;> omega

/-- As long as no sample finds anything, what is pending lands on what the last one showed. -/
theorem Since.run (h : first.session.Formed) (hash : Hasher) (calls : List RemoteCall)
    (hquiet : ∀ e ∈ (Diri.run (step hash) first calls).2, e.output = none) :
    Since first (Diri.run (step hash) first calls).1 (Diri.run (step hash) first calls).2 := by
  refine run_induction (P := fun watched past =>
    (∀ e ∈ past, e.output = none) → Since first watched past) (fun _ => .start h) ?_ calls hquiet
  intro watched past call ih hquiet
  obtain ⟨hnone, hquiet⟩ := forall_mem_cons.mp hquiet
  have hsince := ih hquiet
  rcases step_cases hsince.formed hash call with ⟨hstep, hrefused⟩ | hsome | hframe
  · have hsame : (step hash watched call).1 = watched := by rw [hstep]
    rw [hsame]
    exact hsince.refuse hrefused
  · rw [show (step hash watched call).2 = none from hnone] at hsome
    cases hsome
  obtain ⟨remote, after, hgrid, harrived, hstep⟩ := hframe
  have hafter : (step hash watched call).1 = watched.replace after := by rw [hstep]
  rw [hafter]
  exact hsince.arrive hgrid harrived _

/-! ### From one sample to the next -/

def fresh : Watched where
  session := .start 1 1 (.filled ⟨'A', .default, .defaultInverted, 0⟩) true
  signature := ⟨0, (0, 0), (0, 0, false), false, false⟩

/-- The remote grid after so many snapshots. -/
def blank (revision : Nat) : RemoteGridState where
  mirror := ⟨[.blank], 1, 1, 0, 0, true, some 1, (false, false, false)⟩
  revision := revision
  pending := some ⟨1, 1, 0, 0, true, true, []⟩

end Watched

end Diri
