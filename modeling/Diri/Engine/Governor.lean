/-
The resource governor's sweep.

A sweep copies the records, looks at each session in turn, and stops sessions by three
rules: a session that occupies too much, then every one that has been idle for long, and
at last, while the machine's budget is exceeded, those that have been idle longest.  It
holds no lock from one step to the next, so whatever else is done to the registry and to
the attached sinks is done in between (`Meanwhile`).

Every answer of the outside is an argument of the step that gets it: a session's child,
what its tree occupies, what became of a signal, the time, the memory of the machine.  So
is what is computed in floating point.  Ports and artifacts are left out, since no rule
looks at them, and so is a lock that is poisoned.
-/
import Diri.Engine.Registry

namespace Diri

/-- What is computed in floating point. -/
structure Floats (φ : Type) where
  isPositive : φ → Bool
  /-- `(now - since) / 1000.0 > seconds` -/
  longerThan : DateMillis → DateMillis → φ → Bool
  /-- `(memory as f64 * fraction) as u64` -/
  share : UInt64 → φ → UInt64

structure GovernorConfig (φ : Type) where
  idleThresholdSeconds : φ
  hardMemoryBytes : UInt64
  globalBudgetFraction : φ
  budgetMinIdleSeconds : φ
  hibernatedSampleEvery : UInt64

namespace SessionRecord

/-- The latest of the times that say something happened; `f64::max` drops what is no number. -/
def recency (record : SessionRecord) : Option DateMillis :=
  [record.lastTurnCompletedAt, some record.updatedAt, record.lastSeenAt].reduceOption.foldl
    (fun latest date =>
      match latest with
      | none => some date
      | some latest => some (if latest.sinceEpoch ≤ date.sinceEpoch then date else latest)) none

/-- Since when the session has been idle, if it may be stopped at all. -/
def idleSince (record : SessionRecord) (attached : Bool) : Option DateMillis :=
  if record.hibernation.isSome || record.pinned || attached then none
  else if record.status = .idle then some (record.recency.getD record.createdAt)
  else none

end SessionRecord

/-- The part of `apply_resource_sample` that the governor's own rules read again. -/
def Registry.applyResourceSample (id : SessionId) (memory : UInt64) (registry : Registry) :
    Registry :=
  { registry with
    records := registry.records.adjust id fun record => { record with memoryBytes := some memory } }

/-! ### The sweep -/

structure IdleCandidate where
  id : SessionId
  idleSince : DateMillis
  footprint : UInt64
  deriving DecidableEq, Repr

/-- What the sweep does next, and what it has in hand for it. -/
inductive SweepPoint where
  | look (records : List SessionRecord)
  | enumerate (record : SessionRecord) (rest : List SessionRecord)
  | testSinks (record : SessionRecord) (footprint : UInt64) (rest : List SessionRecord)
  | sample (record : SessionRecord) (footprint : UInt64) (attached : Bool)
      (rest : List SessionRecord)
  | judge (record : SessionRecord) (footprint : UInt64) (attached : Bool)
      (rest : List SessionRecord)
  | idle (rest : List IdleCandidate) (now : DateMillis)
  | budget (rest : List IdleCandidate) (excess : UInt64) (now : DateMillis)
  | done
  deriving DecidableEq, Repr

structure Sweep where
  tick : UInt64
  totalFootprint : UInt64 := 0
  idleCandidates : List IdleCandidate := []
  point : SweepPoint
  deriving DecidableEq, Repr

/-- A session the governor stopped, as it was when the signal went out. -/
structure Stop where
  id : SessionId
  reason : HibernationReason
  status : Option SessionStatus
  pinned : Bool
  hibernated : Bool
  attached : Bool
  deriving DecidableEq, Repr

structure Governed where
  registry : Registry
  /-- The sinks of each session that is attached. -/
  sinks : Table SessionId (List Nat) := ∅
  sweep : Sweep
  /-- For the proofs only. -/
  stops : List Stop := []

/-- What the outside answers to the step that asks. -/
structure GovernorAnswers where
  childPid : Int32 := 0
  footprint : UInt64 := 0
  stopped : Except IoError (List (Int32 × Int64)) := .ok []
  /-- A signal that failed stopped the tree all the same. -/
  tookEffect : Bool := false
  now : DateMillis := ⟨0⟩
  physicalMemory : UInt64 := 0

namespace Governed

variable {φ : Type} (floats : Floats φ) (config : GovernorConfig φ)

def hasSinks (id : SessionId) (state : Governed) : Bool :=
  (state.sinks.lookup id).any fun sinks => !sinks.isEmpty

def goTo (point : SweepPoint) (state : Governed) : Governed :=
  { state with sweep := { state.sweep with point := point } }

def occupy (footprint : UInt64) (state : Governed) : Governed :=
  { state with
    sweep := { state.sweep with totalFootprint := state.sweep.totalFootprint + footprint } }

def applySample (id : SessionId) (memory : UInt64) (state : Governed) : Governed :=
  { state with registry := state.registry.applyResourceSample id memory }

def stopOf (id : SessionId) (reason : HibernationReason) (state : Governed) : Stop where
  id := id
  reason := reason
  status := (state.registry.sessions.lookup id).map (·.view.status)
  pinned := (state.registry.records.lookup id).any (·.pinned)
  hibernated := (state.registry.records.lookup id).any (·.hibernation.isSome)
  attached := state.hasSinks id

/-- `hibernate`: the registry's own, under one lock; an error is dropped. -/
def hibernate (id : SessionId) (reason : HibernationReason) (answers : GovernorAnswers)
    (state : Governed) : Governed :=
  { state with
    registry := (state.registry.hibernate id reason answers.stopped answers.now).1
    stops :=
      if id ∈ state.registry.sessions ∧ (answers.stopped.isOk ∨ answers.tookEffect) then
        state.stops ++ [state.stopOf id reason]
      else state.stops }

def addCandidate (candidate : IdleCandidate) (state : Governed) : Governed :=
  { state with
    sweep := { state.sweep with idleCandidates := state.sweep.idleCandidates ++ [candidate] } }

/-- `tick.is_multiple_of(every)`: only zero is one of zero. -/
def isMultipleOf (tick every : UInt64) : Bool := tick % every = 0

def idleRule (now : DateMillis) (candidate : IdleCandidate) : Bool :=
  floats.isPositive config.idleThresholdSeconds &&
    floats.longerThan now candidate.idleSince config.idleThresholdSeconds

/-- Idle for long enough to be stopped for the budget. -/
def budgetRule (now : DateMillis) (candidate : IdleCandidate) : Bool :=
  floats.longerThan now candidate.idleSince config.budgetMinIdleSeconds

def byOldest (candidates : List IdleCandidate) : List IdleCandidate :=
  candidates.mergeSort fun a b => a.idleSince.sinceEpoch ≤ b.idleSince.sinceEpoch

/-- One step of the sweep. -/
def advance (answers : GovernorAnswers) (state : Governed) : Governed :=
  match state.sweep.point with
  | .look [] => state.goTo (.idle state.sweep.idleCandidates answers.now)
  | .look (record :: rest) =>
    if record.hibernation.isSome then
      -- a frozen tree barely changes
      if isMultipleOf state.sweep.tick config.hibernatedSampleEvery then
        ((state.occupy answers.footprint).applySample record.id answers.footprint).goTo (.look rest)
      else (state.occupy (record.memoryBytes.getD 0)).goTo (.look rest)
    else if record.id ∈ state.registry.sessions ∧ 1 < answers.childPid then
      state.goTo (.enumerate record rest)
    else state.goTo (.look rest)
  | .enumerate record rest =>
    (state.occupy answers.footprint).goTo (.testSinks record answers.footprint rest)
  | .testSinks record footprint rest =>
    state.goTo (.sample record footprint (state.hasSinks record.id) rest)
  | .sample record footprint attached rest =>
    (state.applySample record.id footprint).goTo (.judge record footprint attached rest)
  | .judge record footprint attached rest =>
    match record.idleSince attached with
    | none => state.goTo (.look rest)
    | some since =>
      if config.hardMemoryBytes < footprint then
        (state.hibernate record.id .memoryPressure answers).goTo (.look rest)
      else (state.addCandidate ⟨record.id, since, footprint⟩).goTo (.look rest)
  | .idle [] now =>
    let budget := floats.share answers.physicalMemory config.globalBudgetFraction
    if budget < state.sweep.totalFootprint then
      state.goTo (.budget (byOldest state.sweep.idleCandidates)
        (state.sweep.totalFootprint - budget) now)
    else state.goTo .done
  | .idle (candidate :: rest) now =>
    if idleRule floats config now candidate then
      (state.hibernate candidate.id .idle answers).goTo (.idle rest now)
    else state.goTo (.idle rest now)
  | .budget [] _ _ => state.goTo .done
  | .budget (candidate :: rest) excess now =>
    if excess = 0 then state.goTo .done
    else if budgetRule floats config now candidate then
      (state.hibernate candidate.id .memoryPressure answers).goTo
        (.budget rest (excess - min excess candidate.footprint) now)
    else state.goTo (.budget rest excess now)
  | .done => state

end Governed

/-! ### What else is done -/

inductive Meanwhile where
  | call (call : RegistryCall)
  | pin (id : SessionId) (pinned : Bool) (now : DateMillis)
  | attach (id : SessionId) (sink : Nat)
  | detach (id : SessionId) (sink : Nat)

namespace Governed

variable {φ : Type} (chars : CharClass) (floats : Floats φ) (config : GovernorConfig φ)

def meanwhile (event : Meanwhile) (state : Governed) : Governed :=
  match event with
  | .call call => { state with registry := (call.step chars state.registry).1 }
  | .pin id pinned now =>
    { state with
      registry := state.registry.updateRecord id (fun record => { record with pinned := pinned })
        now }
  | .attach id sink =>
    { state with sinks := state.sinks.insert id ((state.sinks.lookup id).getD [] ++ [sink]) }
  | .detach id sink =>
    { state with sinks := state.sinks.adjust id fun sinks => sinks.filter (· ≠ sink) }

end Governed

inductive GovernorStep where
  | sweep (answers : GovernorAnswers)
  | meanwhile (event : Meanwhile)

namespace Governed

variable {φ : Type} (chars : CharClass) (floats : Floats φ) (config : GovernorConfig φ)

def step (state : Governed) : GovernorStep → Option Governed
  | .sweep answers => some (state.advance floats config answers)
  | .meanwhile event => some (state.meanwhile chars event)

def start (resumes : String → String → Bool) (registry : Registry)
    (sinks : Table SessionId (List Nat)) (tick : UInt64) : Governed where
  registry := registry
  sinks := sinks
  sweep := { tick := tick, point := .look (registry.listRecords chars resumes) }

end Governed

end Diri
