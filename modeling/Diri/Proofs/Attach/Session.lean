/-
What a session hands to its pump and to its new sinks.

For a local session this is what its screen hands out; for a remote one it is the update
its Holder sent, or the mirror's whole picture.  Either way an attachment seed makes any
client show the session (`applyFrames_attachmentSeed`), and the update of a sample makes
every client show it that has the rows the update leaves out (`gridUpdate_of_ne`).
-/
import Diri.Engine.Attach
import Diri.Proofs.Grid.Update

namespace Diri

open List Option

/-! ### Remote grids -/

/-- An update of the mirror's picture, for those who have the rows it leaves out. -/
structure GridUpdate.Of (update : GridUpdate) (mirror : GridMirror) : Prop where
  size : (update.cols, update.rows) = mirror.size
  cursor : (update.cursorCol, update.cursorRow, update.cursorVisible) = mirror.cursor
  encodes : ∃ bytes, update.encodedBytes = .ok bytes
  gives : update.Gives mirror.cells

/-- A remote grid whose mirror has a picture. -/
structure RemoteGridState.Live (remote : RemoteGridState) : Prop where
  cols_lt : remote.mirror.cols < 2 ^ 16
  rows_lt : remote.mirror.rows < 2 ^ 16
  cells_length : remote.mirror.cells.length = remote.mirror.cols * remote.mirror.rows
  sequence : remote.mirror.sequence.isSome = true
  pending : ∀ update, remote.pending = some update → update.Of remote.mirror

namespace GridMirror

theorem fullUpdate_of (mirror : GridMirror) (hcols : mirror.cols < 2 ^ 16)
    (hrows : mirror.rows < 2 ^ 16) (hlength : mirror.cells.length = mirror.cols * mirror.rows)
    (hsequence : mirror.sequence.isSome = true) :
    ∃ update, mirror.fullUpdate = some update ∧ update.isFullSnapshot = true ∧
      update.Of mirror := by
  have hnot : ¬(mirror.sequence.isNone = true ∨
      mirror.cells.length ≠ mirror.cols * mirror.rows) := by
    rw [not_or, not_not]
    exact ⟨by simpa using isSome_iff_ne_none.mp hsequence, hlength⟩
  unfold fullUpdate
  rw [if_neg hnot]
  refine ⟨_, rfl, rfl, rfl, rfl, ?_, ?_⟩
  · refine GridUpdate.encodedBytes_ok ⟨hcols, hrows, by simpa using hrows⟩ fun row hrow => ?_
    obtain ⟨y, hy, rfl⟩ := mem_map.mp hrow
    exact length_rowOf hlength (mem_range.mp hy)
  -- every row is written, so every row is the mirror's
  intro held _
  have hf : ∀ y, y < mirror.rows → (rowOf mirror.cols y mirror.cells).length = mirror.cols :=
    fun y hy => length_rowOf hlength hy
  have hys : ∀ y ∈ List.range mirror.rows, y < mirror.rows := fun y hy => mem_range.mp hy
  have hground : (List.replicate (mirror.cols * mirror.rows) GridCell.blank).length
      = mirror.cols * mirror.rows := length_replicate
  rw [GridUpdate.apply_eq, GridUpdate.ground, if_pos (.inl rfl)]
  show List.foldl (GridUpdate.applyRow mirror.cols mirror.rows) _ _ = _
  rw [foldl_applyRow (fun y => rowOf mirror.cols y mirror.cells) hf hrows hys]
  refine ext_rowOf (length_setRows hf hys hground) hlength fun y hy => ?_
  rw [rowOf_setRows hf hys hground hy, if_pos (mem_range.mpr hy)]

end GridMirror

namespace RemoteGridState

variable {remote : RemoteGridState} {mirror : GridMirror} {sequence : Nat} {grid : GridUpdate}
  {modes : Modes}

theorem of_accept {buffer : GridMirror} (hdecoded : grid.Decoded)
    (hvalid : validateGrid grid = .ok ())
    (hbuffer : grid.isFullSnapshot = true ∨ buffer.cells.length = grid.cols * grid.rows) :
    grid.Of (buffer.accept sequence grid modes) where
  size := rfl
  cursor := rfl
  encodes := GridUpdate.encodedBytes_ok hdecoded fun row hrow =>
    ((validateGrid_ok hvalid).2.2 row hrow).2
  gives := grid.gives_apply hbuffer

theorem live_snapshot (hdecoded : grid.Decoded)
    (happly : remote.mirror.applySnapshot sequence grid modes = .ok mirror) :
    (remote.snapshot mirror grid).Live := by
  obtain ⟨hfull, hvalid, rfl⟩ := GridMirror.applySnapshot_cases happly
  refine ⟨hdecoded.1, hdecoded.2.1, grid.length_apply _, rfl, fun update hupdate => ?_⟩
  obtain ⟨⟩ := hupdate
  exact of_accept hdecoded hvalid (.inl hfull)

/-- A remote delta leaves itself pending, or the whole picture if something was. -/
theorem live_delta (h : remote.Live) (hdecoded : grid.Decoded)
    (happly : remote.mirror.applyDelta sequence grid modes = .ok mirror) :
    (remote.delta mirror grid).Live := by
  obtain ⟨-, hcols, hrows, hvalid, rfl⟩ := GridMirror.applyDelta_cases happly
  have hlength : (remote.mirror.accept sequence grid modes).cells.length = grid.cols * grid.rows :=
    grid.length_apply _
  refine ⟨hdecoded.1, hdecoded.2.1, hlength, rfl, fun update hupdate => ?_⟩
  replace hupdate : (if remote.pending.isSome then (remote.mirror.accept sequence grid
      modes).fullUpdate else some grid) = some update := hupdate
  split at hupdate
  · obtain ⟨full, hfull, -, hof⟩ :=
      GridMirror.fullUpdate_of (remote.mirror.accept sequence grid modes) hdecoded.1
        hdecoded.2.1 hlength rfl
    rw [hfull] at hupdate
    rw [← Option.some.inj hupdate]
    exact hof
  obtain ⟨⟩ := hupdate
  refine of_accept hdecoded hvalid (.inr ?_)
  rw [h.cells_length, hcols, hrows]

end RemoteGridState

/-! ### Sessions -/

structure Session.Formed (session : Session) : Prop where
  screen : session.screen.Formed
  remote : ∀ remote, session.liveRemote = some remote → remote.Live

namespace Session

variable {session : Session}

variable {remote : RemoteGridState}

theorem liveRemote_eq_some : session.liveRemote = some remote ↔
      session.remoteGrid = some remote ∧ remote.mirror.sequence.isSome = true := by
  unfold liveRemote
  exact filter_eq_some_iff

def signature (session : Session) : GridSignature :=
  match session.liveRemote with
  | some remote => remote.signature
  | none => session.screen.signature

theorem signature_local (hlive : session.liveRemote = none) :
    session.signature = session.screen.signature := by
  simp only [signature, hlive]

theorem signature_remote (hlive : session.liveRemote = some remote) :
    session.signature = remote.signature := by
  simp only [signature, hlive]

theorem modes_local (hlive : session.liveRemote = none) :
    session.modes = (session.screen.term.altScreen, session.screen.term.mouseMode) := by
  simp only [modes, hlive]

theorem modes_remote (hlive : session.liveRemote = some remote) : session.modes = remote.modes := by
  simp only [modes, hlive]

theorem picture_local (hlive : session.liveRemote = none) : session.picture = {
      size := (session.screen.geometry.cols, session.screen.geometry.rows)
      cells := session.screen.cells
      cursor := (session.screen.term.cursorCol, session.screen.term.cursorLine,
        session.screen.term.showCursor)
      modes := (session.screen.term.altScreen, session.screen.term.mouseMode) } := by
  simp only [picture, modes, hlive]

theorem picture_remote (hlive : session.liveRemote = some remote) : session.picture = {
      size := remote.mirror.size
      cells := remote.mirror.cells
      cursor := remote.mirror.cursor
      modes := remote.modes } := by
  simp only [picture, modes, hlive]

theorem modes_eq (session : Session) :
    session.modes = (session.signature.altScreen, session.signature.mouseReporting) := by
  cases hlive : session.liveRemote with
  | none => rw [modes_local hlive, signature_local hlive]; rfl
  | some remote => rw [modes_remote hlive, signature_remote hlive]; rfl

/-- What the pump's next update leaves out, the client has. -/
def Covers (session : Session) (held : Picture) : Prop :=
  (∀ remote, remote ∈ session.liveRemote → ∀ update, update ∈ remote.pending →
    update.isFullSnapshot = true ∨ (held.size = remote.mirror.size ∧
      ∀ y, y < remote.mirror.rows → (∀ row ∈ update.changedRows, row.y ≠ y) →
        rowOf remote.mirror.cols y held.cells = rowOf remote.mirror.cols y remote.mirror.cells)) ∧
  (session.liveRemote.isNone = true → session.screen.SameGeometry →
    held.size = (session.screen.geometry.cols, session.screen.geometry.rows) ∧
    Diri.Covers (· < session.screen.geometry.rows)
      (fun y => rowOf session.screen.geometry.cols y session.screen.lastCells)
      session.screen.row (fun y => rowOf session.screen.geometry.cols y held.cells))

instance Covers.decidable (session : Session) (held : Picture) : Decidable (session.Covers held) :=
  inferInstanceAs (Decidable (_ ∧ (_ → _ → _ ∧ _)))

theorem gridUpdate_of_eq {signature : GridSignature} (h : session.signature = signature) :
    session.gridUpdateIfChanged signature = (none, signature, session) := by
  unfold gridUpdateIfChanged
  cases hlive : session.liveRemote with
  | none =>
    rw [signature_local hlive] at h
    simp only [if_pos h]
  | some remote =>
    rw [signature_remote hlive] at h
    simp only [if_pos h]

/-- What a sample reports, and what the session is afterwards. -/
structure Reports (session : Session) (update : GridUpdate) (after : Session) : Prop where
  formed : after.Formed
  picture : after.picture = session.picture
  signature : after.signature = session.signature
  encodes : ∃ bytes, update.encodedBytes = .ok bytes
  lands : ∀ held : Picture, held.cells.length = held.size.1 * held.size.2 → session.Covers held →
    held.applyFrame (.grid update) = { session.picture with modes := held.modes }

theorem applyFrame_grid {held picture : Picture} {update : GridUpdate}
    (hsize : (update.cols, update.rows) = picture.size)
    (hcells : update.apply held.cells = picture.cells)
    (hcursor : (update.cursorCol, update.cursorRow, update.cursorVisible) = picture.cursor) :
    held.applyFrame (.grid update) = { picture with modes := held.modes } := by
  simp only [Picture.applyFrame, hsize, hcells, hcursor]

section
variable (h : session.Formed)
include h

/-- An update of a local screen that gives its cells makes a client show the session. -/
theorem Formed.applyFrame_update (hlive : session.liveRemote = none)
    {full : Bool} {ys : List Nat} {held : Picture}
    (hcells : (session.screen.update full ys).apply held.cells = session.screen.cells) :
    held.applyFrame (.grid (session.screen.update full ys))
      = { session.picture with modes := held.modes } := by
  rw [picture_local hlive]
  rw [h.screen.update_eq] at hcells ⊢
  exact applyFrame_grid rfl hcells rfl

theorem Formed.encodes_screen (full : Bool) {ys : List Nat}
    (hcount : ys.length ≤ session.screen.geometry.rows) :
    ∃ bytes, (session.screen.update full ys).encodedBytes = .ok bytes := by
  rw [h.screen.update_eq]
  refine GridUpdate.encodedBytes_ok ⟨h.screen.cols_lt, h.screen.rows_lt, ?_⟩ fun row hrow => ?_
  · have hrows := h.screen.rows_lt
    rw [length_map]
    omega
  · obtain ⟨y, -, rfl⟩ := mem_map.mp hrow
    exact session.screen.length_row y

theorem Formed.reports_local (hlive : session.liveRemote = none)
    {signature : GridSignature} (hne : session.signature ≠ signature) :
    ∃ update after, session.gridUpdateIfChanged signature
        = (some update, session.signature, after) ∧ session.Reports update after := by
  have hsignature := signature_local hlive
  have hafter : ∀ screen : HeadlessScreen,
      Session.liveRemote { session with screen := screen } = none := fun _ => hlive
  unfold gridUpdateIfChanged
  simp only [hlive]
  rw [hsignature] at hne
  rw [if_neg hne, h.screen.gridUpdate_eq, hsignature]
  refine ⟨_, _, rfl, ⟨h.screen.rebased, h.remote⟩, ?_, ?_, ?_, fun held hlength hcovers => ?_⟩
  · rw [picture_local (hafter _), picture_local hlive]
    rfl
  · rw [signature_local (hafter _), hsignature]
    rfl
  · exact h.encodes_screen _ (session.screen.length_changedYs_le _ _ _)
  refine h.applyFrame_update hlive ?_
  have hnone : session.liveRemote.isNone = true := by
    rw [hlive]
    rfl
  by_cases hsame : session.screen.SameGeometry
  · obtain ⟨hheld, hrows⟩ := hcovers.2 hnone hsame
    have hbaseline : session.screen.baseline = session.screen.lastCells := if_pos hsame
    have hdelta : decide (false = true ∨ ¬session.screen.SameGeometry) = false := by
      simp [hsame]
    rw [hdelta, h.screen.apply_diff_iff (by rw [hlength, hheld]), hbaseline]
    exact hrows
  have hfull : decide (false = true ∨ ¬session.screen.SameGeometry) = true := by
    simp [hsame]
  rw [hfull, HeadlessScreen.changedYs_true]
  exact h.screen.apply_full _

theorem Formed.reports_remote (hlive : session.liveRemote = some remote) {signature : GridSignature}
    (hne : session.signature ≠ signature) : ∃ update after, session.gridUpdateIfChanged signature
        = (some update, session.signature, after) ∧ session.Reports update after := by
  have hremote := h.remote remote hlive
  have hsignature := signature_remote hlive
  have hafter : Session.liveRemote { session with
      remoteGrid := some { remote with pending := none } }
      = some { remote with pending := none } :=
    liveRemote_eq_some.mpr ⟨rfl, hremote.sequence⟩
  -- what is sampled is an update of the mirror that lands where it is covered
  have hsampled : ∃ update, (remote.pending <|> remote.mirror.fullUpdate) = some update ∧
      update.Of remote.mirror ∧ ∀ held : Picture, held.cells.length = held.size.1 * held.size.2 →
        session.Covers held → update.apply held.cells = remote.mirror.cells := by
    cases hpending : remote.pending with
    | none =>
      obtain ⟨update, hfull, hsnapshot, hof⟩ := remote.mirror.fullUpdate_of hremote.cols_lt
        hremote.rows_lt hremote.cells_length hremote.sequence
      exact ⟨update, hfull, hof, fun held _ _ => hof.gives held.cells (.inl hsnapshot)⟩
    | some update =>
      have hof := hremote.pending update hpending
      obtain ⟨hcols, hrows⟩ := Prod.mk.inj hof.size
      refine ⟨update, rfl, hof, fun held hlength hcovers => hof.gives held.cells ?_⟩
      refine (hcovers.1 remote hlive update hpending).imp_right fun ⟨hheld, hkept⟩ => ?_
      rw [hcols, hrows]
      exact ⟨by rw [hlength, hheld]; rfl, hkept⟩
  obtain ⟨update, hupdate, hof, hlands⟩ := hsampled
  unfold gridUpdateIfChanged
  simp only [hlive]
  rw [hsignature] at hne
  rw [if_neg hne, hupdate, hsignature]
  refine ⟨_, _, rfl, ⟨h.screen, fun r hr => ?_⟩, ?_, ?_, hof.encodes, fun held hlength hcovers => ?_⟩
  · rw [hafter] at hr
    rw [← some.inj hr]
    exact ⟨hremote.cols_lt, hremote.rows_lt, hremote.cells_length, hremote.sequence,
      fun _ hnone => by cases hnone⟩
  · rw [picture_remote hafter, picture_remote hlive]
    rfl
  · rw [signature_remote hafter, hsignature]
    rfl
  · rw [picture_remote hlive]
    exact applyFrame_grid hof.size (hlands held hlength hcovers) hof.cursor

theorem Formed.reports_of_ne {signature : GridSignature} (hne : session.signature ≠ signature) :
    ∃ update after, session.gridUpdateIfChanged signature
        = (some update, session.signature, after) ∧ session.Reports update after := by
  cases hlive : session.liveRemote with
  | none => exact h.reports_local hlive hne
  | some remote => exact h.reports_remote hlive hne

theorem Formed.length_picture :
    session.picture.cells.length = session.picture.size.1 * session.picture.size.2 := by
  cases hlive : session.liveRemote with
  | none =>
    rw [picture_local hlive]
    exact session.screen.length_cells
  | some remote =>
    rw [picture_remote hlive]
    exact (h.remote remote hlive).cells_length

end

theorem covers_picture (session : Session) : session.Covers session.picture := by
  refine ⟨fun remote hlive update _ => .inr ?_, fun hnone _ => ?_⟩
  · rw [picture_remote (mem_def.mp hlive)]
    exact ⟨rfl, fun _ _ _ => rfl⟩
  · rw [picture_local (by simpa using hnone)]
    exact ⟨rfl, fun y hy _ => session.screen.rowOf_cells hy⟩

/-! ### Seeds -/

/-- The session as a full update. -/
structure SeedOf (session : Session) (seed : AttachmentSeed) : Prop where
  modes : seed.modes = session.modes
  signature : seed.signature = session.signature
  encodes : ∃ bytes, seed.grid.encodedBytes = .ok bytes
  lands : ∀ held : Picture, held.applyFrame (.grid seed.grid)
    = { session.picture with modes := held.modes }

theorem Formed.attachmentSeed_local (h : session.Formed) (hlive : session.liveRemote = none) :
    session.SeedOf session.attachmentSeed := by
  have hseed : session.attachmentSeed = ⟨session.screen.fullSnapshot,
      (session.screen.term.altScreen, session.screen.term.mouseMode),
      session.screen.signature⟩ := by
    have hsampled : (session.remoteGrid.bind fun remote => remote.mirror.fullUpdate.map fun grid =>
        AttachmentSeed.mk grid remote.modes remote.signature) = none := by
      rw [bind_eq_none_iff]
      intro remote hremote
      have hdead : remote.mirror.sequence.isSome ≠ true := by
        intro hsome
        rw [liveRemote_eq_some.mpr ⟨hremote, hsome⟩] at hlive
        cases hlive
      have hnone : remote.mirror.sequence.isNone = true := by
        simpa using hdead
      rw [GridMirror.fullUpdate, if_pos (.inl hnone)]
      rfl
    unfold attachmentSeed
    rw [hsampled]
    rfl
  rw [hseed]
  refine ⟨(modes_local hlive).symm, (signature_local hlive).symm, ?_, fun held => ?_⟩
  · exact h.encodes_screen true (Nat.le_of_eq length_range)
  · exact h.applyFrame_update hlive (h.screen.apply_full held.cells)

theorem Formed.attachmentSeed_remote (h : session.Formed)
    (hlive : session.liveRemote = some remote) : session.SeedOf session.attachmentSeed := by
  have hremote := h.remote remote hlive
  obtain ⟨hgrid, -⟩ := liveRemote_eq_some.mp hlive
  obtain ⟨update, hfull, hsnapshot, hof⟩ := remote.mirror.fullUpdate_of hremote.cols_lt
    hremote.rows_lt hremote.cells_length hremote.sequence
  have hseed : session.attachmentSeed = ⟨update, remote.modes, remote.signature⟩ := by
    simp only [attachmentSeed, hgrid, bind_some, hfull, map_some, getD_some]
  rw [hseed]
  refine ⟨(modes_remote hlive).symm, (signature_remote hlive).symm, hof.encodes, fun held => ?_⟩
  rw [picture_remote hlive]
  exact applyFrame_grid hof.size (hof.gives held.cells (.inl hsnapshot)) hof.cursor

theorem Formed.attachmentSeed (h : session.Formed) : session.SeedOf session.attachmentSeed := by
  cases hlive : session.liveRemote with
  | none => exact h.attachmentSeed_local hlive
  | some remote => exact h.attachmentSeed_remote hlive

/-! ### Output -/

theorem Formed.withRemote (h : session.Formed) (hremote : remote.Live) :
    Session.Formed { session with remoteGrid := some remote } where
  screen := h.screen
  remote r hr := by
    obtain ⟨hgrid, -⟩ := liveRemote_eq_some.mp hr
    rw [← Option.some.inj hgrid]
    exact hremote

theorem Formed.output (h : session.Formed) (hash : Hasher) {output : GridOutput}
    (hdecoded : output.Decoded) : (session.output hash output).Formed := by
  cases output with
  | feed painted => exact ⟨h.screen.feed hash painted, h.remote⟩
  | resize cols rows reflowed =>
    exact ⟨h.screen.resize cols.toNat_lt rows.toNat_lt reflowed, h.remote⟩
  | remoteSnapshot state =>
    simp only [Session.output]
    split
    · next hgrid => exact h
    next remote hgrid =>
      split
      · exact h
      · next mirror happly =>
        exact h.withRemote (RemoteGridState.live_snapshot hdecoded happly)
  | remoteDelta state =>
    simp only [Session.output]
    split
    · next hgrid => exact h
    next remote hgrid =>
      split
      · exact h
      next mirror happly =>
        obtain ⟨hsequence, -⟩ := GridMirror.applyDelta_cases happly
        have hlive : remote.mirror.sequence.isSome = true := by
          cases hnone : remote.mirror.sequence with
          | none =>
            rw [hnone] at hsequence
            cases hsequence
          | some previous => rfl
        have hremote := h.remote remote (liveRemote_eq_some.mpr ⟨hgrid, hlive⟩)
        exact h.withRemote (RemoteGridState.live_delta hremote hdecoded happly)

end Session

end Diri
