/-
Enumerating and signalling the held child's process tree.

The process table changes between any two system calls: `World.table` gives it for each of
them, and an operation counts the calls it has made (`Trace.clock`).  A check and the kill
that follows it at once see one table.  What an operation did is its trace: the walks it
took, each with what it saw and the samples it read afterwards, and the signals it sent.

Sets are iterated in an order of their own, which may change from call to call; how often
`killTree` looks before its half second is over is `World.rounds`.
-/
import Mathlib.Data.List.Dedup
import Mathlib.Data.List.Sort

namespace Diri

namespace ProcessTree

/-- A process's identity and tree-relevant relations at one observation. -/
structure Observed where
  pid : Int
  ppid : Int
  pgid : Int
  startSec : Int
  stopped : Bool
  deriving DecidableEq, Repr

structure HolderProcessSample where
  pid : Int
  startSec : Int
  deriving DecidableEq, Repr

inductive Signal
  | stop
  | cont
  | term
  | kill
  | other (number : Int)
  deriving DecidableEq, Repr

/-- Everything the operations find outside. -/
structure World where
  table : Nat → List Observed
  /-- The holder's own pid. -/
  holder : Int
  rounds : Nat
  pidOrder : Nat → Int → Int → Bool
  sampleOrder : Nat → HolderProcessSample → HolderProcessSample → Bool

/-- How the target of a signal was chosen. -/
inductive Aim
  /-- The root's group, or the root where the group is gone. -/
  | group
  /-- The root, to begin with. -/
  | root
  /-- A member of the tree whose start time was verified in the same moment. -/
  | checked
  /-- A member of the tree. -/
  | member
  deriving DecidableEq, Repr

inductive Event
  | walked (time : Nat) (all : List Observed) (samples : List HolderProcessSample)
  | killed (aim : Aim) (target : Int) (signal : Signal) (time : Nat)
  deriving DecidableEq, Repr

structure Trace where
  clock : Nat := 0
  events : List Event := []
  deriving DecidableEq, Repr

/-- The items in the order given; a stable sort. -/
def ordered {α : Type} (order : α → α → Bool) (items : List α) : List α :=
  items.insertionSort fun a b => order a b = true

variable (world : World)

/-! ### System calls -/

def lookup (time : Nat) (pid : Int) : Option Observed :=
  (world.table time).find? fun process => process.pid = pid

/-- The start time of a process at a moment, if it is there. -/
def startAt (time : Nat) (pid : Int) : Option Int := (lookup world time pid).map (·.startSec)

def observe (pid : Int) (trace : Trace) : Option Observed × Trace :=
  (lookup world trace.clock pid, { trace with clock := trace.clock + 1 })

def startTime (pid : Int) (trace : Trace) : Option Int × Trace :=
  let (process, trace) := observe world pid trace
  (process.map (·.startSec), trace)

def kill (aim : Aim) (target : Int) (signal : Signal) (trace : Trace) : Trace :=
  { clock := trace.clock + 1
    events := trace.events ++ [.killed aim target signal trace.clock] }

/-! ### The walk -/

/-- Observes one pid after the other, as the directory listed them. -/
def observeAll : List Int → Trace → List Observed × Trace
  | [], trace => ([], trace)
  | pid :: pids, trace =>
    let (process, trace) := observe world pid trace
    let (rest, trace) := observeAll pids trace
    (process.toList ++ rest, trace)

def snapshot (trace : Trace) : List Observed × Trace :=
  let pids := ((world.table trace.clock).map (·.pid)).filter fun pid => 1 < pid
  observeAll world pids { trace with clock := trace.clock + 1 }

/-- Children transitively, and every member of the group of a member. -/
def walk (all : List Observed) (holder : Int) : Nat → List Int → List Int → List Int → List Int
  | 0, _, seen, _ => seen
  | _ + 1, [], seen, _ => seen
  | fuel + 1, pid :: frontier, seen, groups =>
    if pid ≤ 1 ∨ pid = holder ∨ pid ∈ seen then walk all holder fuel frontier seen groups
    else
      let children := (all.filter fun process => process.ppid = pid).map (·.pid)
      let frontier := children.reverse ++ frontier
      match all.find? fun process => process.pid = pid with
      | none => walk all holder fuel frontier (pid :: seen) groups
      | some process =>
        if 1 < process.pgid ∧ process.pgid ∉ groups then
          let members := (all.filter fun member => member.pgid = process.pgid).map (·.pid)
          walk all holder fuel (members.reverse ++ frontier) (pid :: seen)
            (process.pgid :: groups)
        else walk all holder fuel frontier (pid :: seen) groups

/-- Each process is visited once, and adds its children and its group to the frontier. -/
def walkFuel (all : List Observed) : Nat := 1 + (all.length + 1) * (2 * all.length)

def members (all : List Observed) (holder root : Int) : List Int :=
  walk all holder (walkFuel all) [root] [] []

/-- Reads the start time of every member that is still there. -/
def sample : List Int → Trace → List HolderProcessSample × Trace
  | [], trace => ([], trace)
  | pid :: pids, trace =>
    let (start, trace) := startTime world pid trace
    let (rest, trace) := sample pids trace
    ((start.map fun startSec => ⟨pid, startSec⟩).toList ++ rest, trace)

def enumerate (root : Int) (trace : Trace) : List HolderProcessSample × Trace :=
  if root ≤ 1 then ([], trace)
  else
    let (all, trace) := snapshot world trace
    let seen := ordered (world.pidOrder trace.clock) (members all world.holder root)
    let (samples, trace) := sample world seen trace
    (samples, { trace with events := trace.events ++ [.walked trace.clock all samples] })

/-! ### Signals -/

/-- Whether nobody is left in the root's group, so that the kill says `ESRCH`. -/
def groupGone (root : Int) (time : Nat) : Bool :=
  (world.table time).all fun process => process.pgid ≠ root

def signalGroup (root : Int) (signal : Signal) (trace : Trace) : Trace :=
  let gone := groupGone world root trace.clock
  let trace := kill .group (-root) signal trace
  if gone then kill .group root signal trace else trace

/-- Sends signals to a process whose start time is still that of the sample. -/
def killChecked (signal : Signal) (sample : HolderProcessSample) (trace : Trace) : Trace :=
  if startAt world trace.clock sample.pid = some sample.startSec then
    kill .checked sample.pid signal trace
  else { trace with clock := trace.clock + 1 }

/-- Stops every member that is not observed stopped; says whether none was left. -/
def stopMembers : List HolderProcessSample → Trace → Bool × Trace
  | [], trace => (true, trace)
  | sample :: samples, trace =>
    if (lookup world trace.clock sample.pid).any fun process => !process.stopped then
      (false, (stopMembers samples (kill .member sample.pid .stop trace)).2)
    else stopMembers samples { trace with clock := trace.clock + 1 }

/-- Walks and stops until every member is observed stopped, a number of times at most. -/
def stopTree (root : Int) : Nat → List HolderProcessSample → Trace →
    List HolderProcessSample × Trace
  | 0, tree, trace => (tree, trace)
  | turns + 1, _, trace =>
    let (tree, trace) := enumerate world root trace
    let (allStopped, trace) := stopMembers world tree trace
    if allStopped then (tree, trace) else stopTree root turns tree trace

/-- The samples whose process is still the one it was. -/
def filterAlive : List HolderProcessSample → Trace → List HolderProcessSample × Trace
  | [], trace => ([], trace)
  | sample :: samples, trace =>
    let (start, trace) := startTime world sample.pid trace
    let (rest, trace) := filterAlive samples trace
    (if start = some sample.startSec then sample :: rest else rest, trace)

def signal (root : Int) (signal : Signal) (trace : Trace) : List HolderProcessSample × Trace :=
  if signal = .stop then
    let trace := kill .root root .stop trace
    let (tree, trace) := stopTree world root 6 [] trace
    filterAlive world tree trace
  else
    let (tree, trace) := enumerate world root trace
    let turns :=
      if signal = .cont then ordered (fun a b => decide (b.startSec ≤ a.startSec)) tree else tree
    let trace := signalGroup world root signal trace
    (tree, turns.foldl (fun trace sample => killChecked world signal sample trace) trace)

/-- Whether no process of the tree is the one it was; stops looking at the first that is. -/
def allGone : List HolderProcessSample → Trace → Bool × Trace
  | [], trace => (true, trace)
  | sample :: samples, trace =>
    let (start, trace) := startTime world sample.pid trace
    if start = some sample.startSec then (false, trace) else allGone samples trace

/-- Looks until the tree is gone or the time is up. -/
def awaitGone (tree : List HolderProcessSample) : Nat → Trace → Bool × Trace
  | 0, trace => (false, trace)
  | rounds + 1, trace =>
    let (gone, trace) := allGone world tree trace
    if gone then (true, trace) else awaitGone tree rounds trace

/-- Kills a process that is still the one of the sample, and continues it. -/
def killMember (sample : HolderProcessSample) (trace : Trace) : Trace :=
  if startAt world trace.clock sample.pid = some sample.startSec then
    kill .member sample.pid .cont (kill .checked sample.pid .kill trace)
  else { trace with clock := trace.clock + 1 }

def killTree (root : Int) (trace : Trace) : Trace :=
  let (tree, trace) := enumerate world root trace
  let (_, trace) := signal world root .term trace
  let (_, trace) := signal world root .cont trace
  let (gone, trace) := awaitGone world tree world.rounds trace
  if gone then trace
  else
    let (more, trace) := enumerate world root trace
    let trace := signalGroup world root .kill trace
    let unique := ordered (world.sampleOrder trace.clock) (tree ++ more).dedup
    unique.foldl (fun trace sample => killMember world sample trace) trace

end ProcessTree

end Diri
