/-
The grid of a session, as its attached clients see it.

A local session shows its own screen.  A remote one shows the mirror of its Holder's
screen, once there was a snapshot; until then it too shows its own.  A client that
attaches is seeded with a full picture; the pump then asks for the next update whenever
the signature of what is visible has moved.

The local screen of a remote session follows the mirror for the status detector; no
client sees it again, so it is left alone here.
-/
import Diri.Proto.RemotePty

namespace Diri

/-- What the grid pump compares to decide whether anything observable changed. -/
structure GridSignature where
  contentSeq : Nat
  size : Nat × Nat
  cursor : Nat × Nat × Bool
  altScreen : Bool
  mouseReporting : Bool
  deriving DecidableEq, Repr

/-- `(alt_screen, mouse_reporting)`. -/
abbrev AttachModes := Bool × Bool

def HeadlessScreen.signature (screen : HeadlessScreen) : GridSignature where
  contentSeq := screen.contentSeq
  size := (screen.geometry.cols, screen.geometry.rows)
  cursor := screen.cursor
  altScreen := screen.term.altScreen
  mouseReporting := screen.term.mouseMode

structure RemoteGridState where
  mirror : GridMirror
  revision : Nat := 0
  pending : Option GridUpdate := none

namespace RemoteGridState

def modes (remote : RemoteGridState) : AttachModes :=
  (remote.mirror.modes.1, remote.mirror.modes.2.2)

def signature (remote : RemoteGridState) : GridSignature where
  contentSeq := remote.revision
  size := remote.mirror.size
  cursor := remote.mirror.cursor
  altScreen := remote.modes.1
  mouseReporting := remote.modes.2

/-- `apply_remote_snapshot`, with the mirror that accepted it. -/
def snapshot (mirror : GridMirror) (grid : GridUpdate) (remote : RemoteGridState) :
    RemoteGridState where
  mirror := mirror
  revision := min (remote.revision + 1) maxU64
  pending := some grid

/-- `apply_remote_delta`, with the mirror that accepted it. -/
def delta (mirror : GridMirror) (grid : GridUpdate) (remote : RemoteGridState) :
    RemoteGridState where
  mirror := mirror
  revision := min (remote.revision + 1) maxU64
  pending := if remote.pending.isSome then mirror.fullUpdate else some grid

end RemoteGridState

structure Session where
  screen : HeadlessScreen
  remoteGrid : Option RemoteGridState := none

structure AttachmentSeed where
  grid : GridUpdate
  modes : AttachModes
  signature : GridSignature
  deriving DecidableEq, Repr

namespace Session

/-- The remote grid, if its mirror has a picture. -/
def liveRemote (session : Session) : Option RemoteGridState :=
  session.remoteGrid.filter fun remote => remote.mirror.sequence.isSome

def modes (session : Session) : AttachModes :=
  match session.liveRemote with
  | some remote => remote.modes
  | none => (session.screen.term.altScreen, session.screen.term.mouseMode)

/-- A coherent full snapshot for a freshly attached sink. -/
def attachmentSeed (session : Session) : AttachmentSeed :=
  let sampled := session.remoteGrid.bind fun remote =>
    remote.mirror.fullUpdate.map fun grid => AttachmentSeed.mk grid remote.modes remote.signature
  sampled.getD
    ⟨session.screen.fullSnapshot, (session.screen.term.altScreen, session.screen.term.mouseMode),
      session.screen.signature⟩

/-- The next grid diff, if anything observable changed since `signature`. -/
def gridUpdateIfChanged (signature : GridSignature) (session : Session) :
    Option GridUpdate × GridSignature × Session :=
  match session.liveRemote with
  | some remote =>
    if remote.signature = signature then (none, signature, session)
    else
      -- `pending.take()`, or the whole picture
      (remote.pending <|> remote.mirror.fullUpdate, remote.signature,
        { session with remoteGrid := some { remote with pending := none } })
  | none =>
    if session.screen.signature = signature then (none, signature, session)
    else
      let (update, screen) := session.screen.gridUpdate false
      (some update, session.screen.signature, { session with screen := screen })

end Session

/-! ### What changes a session's grid -/

/-- A `u16` update that came in a frame. -/
def GridUpdate.Decoded (update : GridUpdate) : Prop :=
  update.cols < 2 ^ 16 ∧ update.rows < 2 ^ 16 ∧ update.changedRows.length < 2 ^ 16

instance (update : GridUpdate) : Decidable update.Decoded := inferInstanceAs (Decidable (_ ∧ _ ∧ _))

inductive GridOutput where
  | feed (painted : Painted)
  | resize (cols rows : UInt16) (reflowed : Term)
  | remoteSnapshot (state : GridState)
  | remoteDelta (state : GridState)

/-- The session after it; a remote message the mirror rejects changes nothing. -/
def Session.output (hash : Hasher) (session : Session) : GridOutput → Session
  | .feed painted => { session with screen := session.screen.feed hash painted }
  | .resize cols rows reflowed =>
    { session with screen := session.screen.resize cols.toNat rows.toNat reflowed }
  | .remoteSnapshot state =>
    match session.remoteGrid with
    | none => session
    | some remote =>
      match remote.mirror.applySnapshot state.sequence state.grid state.modes with
      | .error _ => session
      | .ok mirror => { session with remoteGrid := some (remote.snapshot mirror state.grid) }
  | .remoteDelta state =>
    match session.remoteGrid with
    | none => session
    | some remote =>
      match remote.mirror.applyDelta state.sequence state.grid state.modes with
      | .error _ => session
      | .ok mirror => { session with remoteGrid := some (remote.delta mirror state.grid) }

/-- Remote updates come in frames. -/
def GridOutput.Decoded : GridOutput → Prop
  | .remoteSnapshot state => state.grid.Decoded
  | .remoteDelta state => state.grid.Decoded
  | _ => True

instance (output : GridOutput) : Decidable output.Decoded := by
  cases output <;> unfold GridOutput.Decoded <;> infer_instance

end Diri
