/-
Messages from a remote Holder, as far as grids are concerned.

Every message that is not a grid is `other`, known by the length of its payload only.
The codec is kept to what the Holder depends on: which grids it refuses to encode, and
how many bytes the others take.
-/
import Diri.Proto.Frames
import Diri.Terminal.Mirror

namespace Diri

def maxTerminalCols : Nat := 4096

def maxTerminalRows : Nat := 4096

def maxTerminalCells : Nat := 1000000

def headerBytes : Nat := 5

inductive RemoteCodecError where
  | frameTooLarge (length max : Nat)
  | invalidFullSnapshot (detail : String)
  | invalidLaunch (detail : String)
  | grid (error : GridCodecError)
  deriving DecidableEq, Repr

def GridCodecError.display : GridCodecError → String
  | unexpectedEnd offset needed remaining =>
    "truncated grid payload at byte " ++ toString offset ++ ": need " ++ toString needed
      ++ " bytes, have " ++ toString remaining
  | tooManyRows count => "row count " ++ toString count ++ " does not fit in u16"
  | tooManyCells count => "row cell count " ++ toString count ++ " does not fit in u16"
  | decodedRowTooLong count =>
    "decoded row exceeds the u16 grid width (" ++ toString count ++ " cells)"

def RemoteCodecError.display : RemoteCodecError → String
  | frameTooLarge length max =>
    "remote frame is " ++ toString length ++ " bytes; maximum is " ++ toString max
  | invalidFullSnapshot detail => "invalid full snapshot: " ++ detail
  | invalidLaunch detail => "invalid launch request: " ++ detail
  | grid error => error.display

def validateTerminalDimensions (cols rows : Nat) : Except RemoteCodecError Unit :=
  if cols = 0 ∨ rows = 0 ∨ cols > maxTerminalCols ∨ rows > maxTerminalRows ∨
      cols * rows > maxTerminalCells then
    .error (.invalidLaunch <| "terminal dimensions must be non-zero, at most "
      ++ toString maxTerminalCols ++ "x" ++ toString maxTerminalRows ++ ", and at most "
      ++ toString maxTerminalCells ++ " cells")
  else .ok ()

theorem validateTerminalDimensions_ok {cols rows : Nat} :
    validateTerminalDimensions cols rows = .ok () ↔
      0 < cols ∧ 0 < rows ∧ cols ≤ maxTerminalCols ∧ rows ≤ maxTerminalRows ∧
        cols * rows ≤ maxTerminalCells := by
  unfold validateTerminalDimensions
  split
  · next hbad =>
    refine ⟨fun h => by simp at h, fun h => ?_⟩
    omega
  next hgood =>
    refine ⟨fun _ => ?_, fun _ => rfl⟩
    omega

/-- The payload of a `FullSnapshot` or a `GridDelta`. -/
structure GridState where
  sequence : Nat
  altScreen : Bool
  bracketedPaste : Bool
  mouseReporting : Bool
  grid : GridUpdate
  deriving DecidableEq, Repr

def GridState.modes (state : GridState) : Modes :=
  (state.altScreen, state.bracketedPaste, state.mouseReporting)

inductive RemoteMessage where
  | fullSnapshot (value : GridState)
  | gridDelta (value : GridState)
  | other (payloadLength : Nat)
  deriving DecidableEq, Repr

def RemoteMessage.isGrid : RemoteMessage → Bool
  | .other _ => false
  | _ => true

def validateGridUpdate (grid : GridUpdate) : Except RemoteCodecError Unit := do
  match validateTerminalDimensions grid.cols grid.rows with
  | .error error =>
    throw (.invalidFullSnapshot ("grid dimensions are invalid: " ++ error.display))
  | .ok () => pure ()
  if grid.cursorCol ≥ grid.cols ∨ grid.cursorRow ≥ grid.rows then
    throw (.invalidFullSnapshot "cursor is outside the terminal grid")
  if ∃ row ∈ grid.changedRows, row.y ≥ grid.rows ∨ row.cells.length ≠ grid.cols then
    throw (.invalidFullSnapshot "changed row is outside the grid or has the wrong width")

theorem validateGridUpdate_ok {grid : GridUpdate} : validateGridUpdate grid = .ok () ↔
    validateTerminalDimensions grid.cols grid.rows = .ok () ∧
      (grid.cursorCol < grid.cols ∧ grid.cursorRow < grid.rows) ∧
      ∀ row ∈ grid.changedRows, row.y < grid.rows ∧ row.cells.length = grid.cols := by
  unfold validateGridUpdate
  cases validateTerminalDimensions grid.cols grid.rows with
  | error error => simp [bind, Except.bind, throw, throwThe, MonadExceptOf.throw]
  | ok _ =>
    simp only [bind, Except.bind, pure, Except.pure, throw, throwThe, MonadExceptOf.throw]
    split
    · next hcursor => simpa using fun _ _ => by omega
    next hcursor =>
    split
    · next hbad =>
      refine iff_of_false nofun fun h => ?_
      obtain ⟨row, hrow, hbad⟩ := hbad
      have hgood := h.2.2 row hrow
      omega
    next hgood =>
    refine iff_of_true rfl ⟨trivial, by omega, fun row hrow => ?_⟩
    by_contra hbad
    exact hgood ⟨row, hrow, by omega⟩

namespace RemoteCodec

/-- The bytes of a grid message's payload: the sequence, the modes, and the grid. -/
def gridPayload (state : GridState) : Except RemoteCodecError Nat :=
  match state.grid.encodedBytes with
  | .error error => .error (.grid error)
  | .ok bytes => .ok (9 + bytes)

def payload : RemoteMessage → Except RemoteCodecError Nat
  | .other payloadLength => .ok payloadLength
  | .fullSnapshot value => do
      validateGridUpdate value.grid
      if !value.grid.isFullSnapshot then
        throw (.invalidFullSnapshot "grid update is not marked as a full snapshot")
      gridPayload value
  | .gridDelta value => do
      validateGridUpdate value.grid
      if value.grid.isFullSnapshot then
        throw (.invalidFullSnapshot "grid delta is marked as a full snapshot")
      gridPayload value

/-- How many bytes `encode_into` appends. -/
def encodeInto (message : RemoteMessage) : Except RemoteCodecError Nat := do
  let payloadLength ← payload message
  if payloadLength > maxFrameBytes then throw (.frameTooLarge payloadLength maxFrameBytes)
  return headerBytes + payloadLength

end RemoteCodec

/-- What a receiver does with a message. -/
def GridMirror.receive (message : RemoteMessage) (mirror : GridMirror) :
    Except MirrorError GridMirror :=
  match message with
  | .fullSnapshot value => mirror.applySnapshot value.sequence value.grid value.modes
  | .gridDelta value => mirror.applyDelta value.sequence value.grid value.modes
  | .other _ => .ok mirror

end Diri
