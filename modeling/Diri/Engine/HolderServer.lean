/-
The exit record in the log of a held session.

When the child ends its holder appends a marker to the byte stream: an escape sequence
that no terminal shows, with the status in base64.  The payload's coding, in JSON and then
in base64, is outside this repository and an argument here.

How what a held child prints gets into the output log.

The pump reads the terminal and appends what it reads.  The exit watcher waits for the
child, tells the pump to finish, joins it, reads what is left, and appends the exit marker.
Every read, every append and every look at `finished` is a step of its own, and the child
and the two threads take theirs in any order.

A step that fails is one of the world's answers, with one exception: an append reaches the
file, and `none` is the panic of an offset beyond `u64`.
-/
import Diri.Engine.Log
import Diri.Lib.Pty

namespace Diri

inductive HolderExitReason where
  | exited
  | signaled
  deriving DecidableEq

/-- How the held child ended. -/
structure HolderExitStatus where
  reason : HolderExitReason
  code : Option Int32 := none
  signal : Option Int32 := none
  deriving DecidableEq

/-- The status in a payload, if it is one. -/
abbrev StatusDecoder : Type := List UInt8 → Option HolderExitStatus

/-- A status as JSON and then in base64, if `serde_json` takes it. -/
abbrev StatusEncoder : Type := HolderExitStatus → Option (List UInt8)

namespace HolderExitMarker

/-- `"\x1b]777;dirijor-exit="`. -/
def markerPrefix : List UInt8 :=
  [0x1b, 0x5d, 0x37, 0x37, 0x37, 0x3b, 0x64, 0x69, 0x72, 0x69, 0x6a, 0x6f, 0x72, 0x2d, 0x65, 0x78,
    0x69, 0x74, 0x3d]

def terminator : UInt8 := 0x07

/-- The marker that tells a status. -/
def encode (encoder : StatusEncoder) (status : HolderExitStatus) : List UInt8 :=
  match encoder status with
  | none => []
  | some payload => markerPrefix ++ payload ++ [terminator]

/-- Where `needle` first stands in `haystack`. -/
@[irreducible]
def find (haystack needle : List UInt8) : Option Nat :=
  (List.range (haystack.length + 1 - needle.length)).find? fun i =>
    (haystack.drop i).take needle.length = needle

def longestSuffixOfPrefix (data : List UInt8) : Nat :=
  let maxLength := min data.length (markerPrefix.length - 1)
  ((List.range' 1 maxLength).reverse.find? fun length =>
    data.drop (data.length - length) = markerPrefix.take length).getD 0

/-- What a drain gives: what to display, the last status found, and what stays buffered. -/
structure Drained where
  output : List UInt8 := []
  exit : Option HolderExitStatus := none
  buffer : List UInt8
  deriving DecidableEq

/-- One turn of the loop: whether it is the last one. -/
def drainStep (decode : StatusDecoder) (d : Drained) : Bool × Drained :=
  match find d.buffer markerPrefix with
  | some start =>
    if start > 0 then
      (false, { d with
        output := d.output ++ d.buffer.take start
        buffer := d.buffer.drop start })
    else
      match d.buffer.findIdx? (· = terminator) with
      | none => (true, d)
      | some stop =>
        (false, { d with
          exit := (decode ((d.buffer.take stop).drop markerPrefix.length)).or d.exit
          buffer := d.buffer.drop (stop + 1) })
  | none =>
    let emit := d.buffer.length - longestSuffixOfPrefix d.buffer
    (true, { d with
      output := d.output ++ d.buffer.take emit
      buffer := d.buffer.drop emit })

/-- Every turn but the last takes something off the buffer; `fuel` bounds the turns. -/
def drainLoop (decode : StatusDecoder) : (fuel : Nat) → Drained → Drained
  | 0, d => d
  | fuel + 1, d =>
    if d.buffer = [] then d
    else
      match drainStep decode d with
      | (true, d) => d
      | (false, d) => drainLoop decode fuel d

def drain (decode : StatusDecoder) (buffer : List UInt8) : Drained :=
  drainLoop decode (buffer.length + 1) { buffer := buffer }

end HolderExitMarker

/-- What the pump does next. -/
inductive PumpStage where
  | checking
  | waiting
  | reading
  | appending (data : List UInt8)
  | rechecking
  | returned
  deriving DecidableEq

/-- What the exit watcher does next, and the status it found. -/
inductive ExitStage where
  | waiting
  | finishing (exit : HolderExitStatus)
  | joining (exit : HolderExitStatus)
  | opening (exit : HolderExitStatus)
  | draining (exit : HolderExitStatus)
  | appending (exit : HolderExitStatus) (data : List UInt8)
  | marking (exit : HolderExitStatus)
  | marked (exit : HolderExitStatus)
  /-- Somebody else has finished the holder. -/
  | returned
  deriving DecidableEq

structure HolderServer where
  pty : Pty UInt8 := {}
  log : OutputLog × Disk
  finished : Bool := false
  pump : PumpStage := .checking
  watcher : ExitStage := .waiting

inductive HolderServerAction where
  | child (event : Pty.Event UInt8)
  /-- What `wait_readable` says, `none` for an error, and how much a read gives, likewise. -/
  | pumpPty (ready : Option Bool) (count : Option Nat)
  /-- The status of `waitpid`, whether there is another reader, and how much a read gives. -/
  | watchExit (status : Int32) (opened : Bool) (count : Option Nat)

namespace HolderServer

def readSize : Nat := 64 * 1024

/-- The status that `waitpid` gives, decoded. -/
def exitStatus (status : Int32) : HolderExitStatus :=
  if status &&& 0x7F ≠ 0 then ⟨.signaled, none, some (status &&& 0x7F)⟩
  else ⟨.exited, some ((status >>> 8) &&& 0xFF), none⟩

def append (data : List UInt8) (server : HolderServer) : Option HolderServer :=
  (server.log.1.append data none server.log.2).map fun result =>
    { server with log := (result.1, result.2.1) }

def pumpPty (ready : Option Bool) (count : Option Nat) (server : HolderServer) :
    Option HolderServer :=
  match server.pump with
  | .checking => some { server with pump := if server.finished then .returned else .waiting }
  | .waiting =>
    match ready with
    | none => some { server with pump := .returned }
    | some false => some { server with pump := .checking }
    | some true => if server.pty.readable then some { server with pump := .reading } else none
  | .reading =>
    match count with
    | none => some { server with pump := .returned }
    | some count =>
      match server.pty.read readSize count with
      | (.bytes data, pty) => some { server with
          pty := pty
          pump := .appending data }
      | (.wouldBlock, _) => some { server with pump := .checking }
      | (.eof, _) => some { server with pump := .returned }
  -- also when `finished` was set meanwhile: the watcher joins before it marks
  | .appending data => (server.append data).map fun server => { server with pump := .rechecking }
  | .rechecking => some { server with pump := if server.finished then .returned else .reading }
  | .returned => none

variable (encoder : StatusEncoder)

def watchExit (status : Int32) (opened : Bool) (count : Option Nat) (server : HolderServer) :
    Option HolderServer :=
  match server.watcher with
  | .waiting =>
    if server.pty.exited then some { server with watcher := .finishing (exitStatus status) }
    else none
  | .finishing exit =>
    if server.finished then some { server with watcher := .returned }
    else some { server with
      finished := true
      watcher := .joining exit }
  | .joining exit =>
    if server.pump = .returned then some { server with watcher := .opening exit } else none
  | .opening exit =>
    some { server with watcher := if opened then .draining exit else .marking exit }
  | .draining exit =>
    match count with
    | none => some { server with watcher := .marking exit }
    | some count =>
      match server.pty.read readSize count with
      | (.bytes data, pty) => some { server with
          pty := pty
          watcher := .appending exit data }
      | (_, _) => some { server with watcher := .marking exit }
  | .appending exit data =>
    (server.append data).map fun server => { server with watcher := .draining exit }
  | .marking exit =>
    (server.append (HolderExitMarker.encode encoder exit)).map fun server =>
      { server with watcher := .marked exit }
  | .marked _ => none
  | .returned => none

def step (server : HolderServer) : HolderServerAction → Option HolderServer
  | .child event => (server.pty.happen event).map fun pty => { server with pty := pty }
  | .pumpPty ready count => server.pumpPty ready count
  | .watchExit status opened count => server.watchExit encoder status opened count

end HolderServer

end Diri
