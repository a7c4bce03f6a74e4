/-
The per-session attach hub.

A client that attaches is seeded with the session's picture, then registered with the
session's sinks.  One pump serves all the sinks of a session: it samples the grid, and
broadcasts what it got to the sinks registered at that moment.  The steps here are the
hub's critical sections; they interleave in any order.  The pump waits to be woken before
it samples; here it may sample at any time.

A sink is known by what it shows once it has applied its frames.  Two fields are for
the proofs only and the hub does not look at them: the picture the pump last looked at
(`Pump.seen`), and the picture a sink's latest frames were made from (`Sink.made`).
-/
import Diri.Engine.Grid

namespace Diri

inductive AttachFrame where
  | grid (update : GridUpdate)
  | modes (altScreen mouseReporting : Bool)
  deriving DecidableEq, Repr

/-- What an attached client shows. -/
structure Picture where
  size : Nat × Nat := (0, 0)
  cells : List GridCell := []
  cursor : Nat × Nat × Bool := (0, 0, false)
  modes : AttachModes := (false, false)
  deriving DecidableEq, Repr

def Picture.applyFrame (picture : Picture) : AttachFrame → Picture
  | .grid update =>
    { picture with
      size := (update.cols, update.rows)
      cells := update.apply picture.cells
      cursor := (update.cursorCol, update.cursorRow, update.cursorVisible) }
  | .modes altScreen mouseReporting => { picture with modes := (altScreen, mouseReporting) }

def Picture.applyFrames (frames : List AttachFrame) (picture : Picture) : Picture :=
  frames.foldl Picture.applyFrame picture

/-- The session as it is to be shown. -/
def Session.picture (session : Session) : Picture where
  size :=
    match session.liveRemote with
    | some remote => remote.mirror.size
    | none => (session.screen.geometry.cols, session.screen.geometry.rows)
  cells :=
    match session.liveRemote with
    | some remote => remote.mirror.cells
    | none => session.screen.cells
  cursor :=
    match session.liveRemote with
    | some remote => remote.mirror.cursor
    | none =>
      (session.screen.term.cursorCol, session.screen.term.cursorLine,
        session.screen.term.showCursor)
  modes := session.modes

structure Sink where
  id : Nat
  shows : Picture
  made : Picture
  deriving DecidableEq, Repr

structure Pump where
  signature : GridSignature
  lastModes : Option AttachModes
  /-- Sampled, and not broadcast yet. -/
  frames : List AttachFrame := []
  seen : Picture
  deriving DecidableEq, Repr

/-- A pump starts from the seed of the sink that starts it. -/
def Pump.start (seed : AttachmentSeed) (seen : Picture) : Pump where
  signature := seed.signature
  lastModes := some seed.modes
  seen := seen

structure AttachHub where
  session : Session
  /-- Sinks that were seeded and are not registered yet. -/
  seeded : List (Sink × AttachmentSeed) := []
  sinks : List Sink := []
  pump : Option Pump := none

/-- `Frame::grid`: an update that does not encode makes no frame. -/
def gridFrame (update : GridUpdate) : List AttachFrame :=
  match update.encodedBytes with
  | .ok _ => [.grid update]
  | .error _ => []

namespace AttachHub

/-- The first half of `serve`: sample the seed and write it to the sink. -/
def seed (id : Nat) (hub : AttachHub) : AttachHub :=
  let seed := hub.session.attachmentSeed
  match gridFrame seed.grid with
  | [] => hub
  | frames =>
    let shows := Picture.applyFrames (frames ++ [.modes seed.modes.1 seed.modes.2]) {}
    { hub with seeded := hub.seeded ++ [(⟨id, shows, hub.session.picture⟩, seed)] }

def register (id : Nat) (hub : AttachHub) : Option AttachHub :=
  (hub.seeded.find? fun entry => entry.1.id = id).map fun (sink, seed) =>
    { hub with
      seeded := hub.seeded.eraseP fun entry => entry.1.id = id
      sinks := hub.sinks ++ [sink]
      -- a pump that runs already is not told about the seed
      pump := some (hub.pump.getD (.start seed sink.made)) }

def deregister (id : Nat) (hub : AttachHub) : AttachHub :=
  { hub with sinks := hub.sinks.filter fun sink => sink.id ≠ id }

/-- The pump looks at the session, unless it has frames to broadcast first. -/
def pumpSample (hub : AttachHub) : Option AttachHub :=
  hub.pump.bind fun pump =>
    if pump.frames ≠ [] then none
    else
      let (grid, signature, session) := hub.session.gridUpdateIfChanged pump.signature
      let modes := session.modes
      -- fresh sinks got their modes when they were seeded; only changes are broadcast
      let changed := pump.lastModes.any (· ≠ modes)
      let frames :=
        (grid.toList.flatMap gridFrame) ++ (if changed then [.modes modes.1 modes.2] else [])
      some { hub with
        session := session
        sinks := if grid.isSome then
            hub.sinks.map fun sink => { sink with made := session.picture }
          else hub.sinks
        pump := some {
          signature := signature
          lastModes := some modes
          frames := frames
          seen := if grid.isSome then session.picture else pump.seen } }

/-- The frames go to the sinks; those that are `gone` cannot be written to. -/
def pumpBroadcast (gone : List Nat) (hub : AttachHub) : Option AttachHub :=
  hub.pump.map fun pump =>
    { hub with
      sinks := (hub.sinks.map fun sink =>
        { sink with shows := sink.shows.applyFrames pump.frames }).filter fun sink =>
          sink.id ∉ gone
      pump := some { pump with frames := [] } }

/-- The pump ends when it has no sinks left. -/
def pumpExit (hub : AttachHub) : Option AttachHub :=
  hub.pump.bind fun pump =>
    if pump.frames = [] ∧ hub.sinks = [] then some { hub with pump := none } else none

end AttachHub

inductive AttachStep where
  | output (output : GridOutput)
  | seed (id : Nat)
  | register (id : Nat)
  | pumpSample
  | pumpBroadcast (gone : List Nat)
  | pumpExit
  | deregister (id : Nat)

/-- One step of the hub; `none` is a step that is not possible now. -/
def attachStep (hash : Hasher) (hub : AttachHub) : AttachStep → Option AttachHub
  | .output output =>
    if output.Decoded then some { hub with session := hub.session.output hash output } else none
  | .seed id => some (hub.seed id)
  | .register id => hub.register id
  | .pumpSample => hub.pumpSample
  | .pumpBroadcast gone => hub.pumpBroadcast gone
  | .pumpExit => hub.pumpExit
  | .deregister id => some (hub.deregister id)

/-- A sample now would report no change, and nothing sampled remains to broadcast. -/
def AttachHub.Quiescent (hub : AttachHub) : Prop :=
  ∃ pump, hub.pump = some pump ∧ pump.frames = [] ∧
    (hub.session.gridUpdateIfChanged pump.signature).1 = none ∧
    pump.lastModes = some hub.session.modes

/-- Every registered sink shows the session. -/
def AttachHub.Converged (hub : AttachHub) : Prop :=
  ∀ sink ∈ hub.sinks, sink.shows = hub.session.picture

instance AttachHub.Converged.decidable (hub : AttachHub) : Decidable hub.Converged :=
  inferInstanceAs (Decidable (∀ sink ∈ hub.sinks, _ = _))

end Diri
