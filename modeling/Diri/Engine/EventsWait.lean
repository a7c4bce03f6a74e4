/-
`events.wait`: one long poll for a session reaching one of the statuses asked for.

The call subscribes, reads the session's record, and then looks at the record, waits for an
event, and reads the record again, until the record is as asked or the time is up.  It is a
machine with a step for each point at which others may get in between.  What an event says
is not looked at: it only makes the call read the record again.

The watcher publishes the records of sessions that have changed.  It reads a session's version
and then its view, whose fields have a lock each, while others store into the fields and move
the version behind that.  It is given here for one session, lock by lock.
-/
import Diri.Engine.EventBus
import Diri.Engine.Registry

namespace Diri

/-- The alias table of the targets of a wait. -/
def satisfiesWaitTarget (status : SessionStatus) (target : String) : Bool :=
  if target = "idle" ∨ target = "done" then status = .idle
  else if target = "working" then status = .working
  else if target = "starting" then status = .starting
  else if target = "unknown" then status = .unknown
  else if target = "needsInput" ∨ target = "needs_input" ∨ target = "needs-input" ∨
      target = "needs_me" ∨ target = "blocked" then status.isNeedsInput
  else if target = "exited" ∨ target = "dead" then status.isExited
  else false

def sessionUpdated : String := "session.updated"

structure EventsWaitParams where
  sessionId : SessionId
  targets : List String
  timeoutMs : Int
  deriving DecidableEq, Repr

structure EventsWaitResult where
  session : SessionRecord
  timedOut : Bool
  deriving DecidableEq, Repr

inductive WaitError
  | badRequest (message : String)
  | notFound (message : String)
  deriving DecidableEq, Repr

/-- How far the call is.  `woken` keeps the event that was received, which no step looks at. -/
inductive WaitPhase (P : Type)
  | start
  | subscribed (stream deadline : Nat)
  | looking (stream deadline : Nat) (latest : SessionRecord)
  | receiving (stream deadline : Nat) (latest : SessionRecord)
  | woken (stream deadline : Nat) (latest : SessionRecord) (event : Event P)
  | replied (reply : Except WaitError EventsWaitResult)

namespace EventsWait

variable {P : Type} (bus : EventBus) (json : JsonCodec P) (chars : CharClass)
  (resumes : String → String → Bool) (params : EventsWaitParams)

/-- When the wait is over, in milliseconds. -/
def deadline (now : Nat) : Nat := now + (max 0 (min params.timeoutMs 600000)).toNat

def filter : Filter := .new (some [params.sessionId]) (some [sessionUpdated])

def current (registry : Registry) : Option SessionRecord :=
  (registry.listRecords chars resumes).find? fun record => record.id = params.sessionId

def isMatch (record : SessionRecord) : Bool :=
  params.targets.any fun target => satisfiesWaitTarget record.status target

/-- A call that ends drops its stream. -/
def reply (stream : Nat) (answer : Except WaitError EventsWaitResult) (state : BusState P) :
    BusState P × WaitPhase P :=
  ((state.close stream).unsubscribe stream, .replied answer)

/-- The next step of the call; one that has to wait stays where it is. -/
def step (state : BusState P) (registry : Registry) (now : Nat) :
    WaitPhase P → BusState P × WaitPhase P
  | .start =>
    if params.targets = [] then
      (state, .replied (.error (.badRequest "events.wait needs `until` statuses")))
    else
      (state.subscribe bus json none (filter params),
        .subscribed state.inner.nextSubscriber (deadline params now))
  | .subscribed stream deadline =>
    match current chars resumes params registry with
    | none => reply stream (.error (.notFound params.sessionId)) state
    | some record => (state, .looking stream deadline record)
  | .looking stream deadline latest =>
    if isMatch params latest then reply stream (.ok ⟨latest, false⟩) state
    else if deadline < now then reply stream (.ok ⟨latest, true⟩) state
    else (state, .receiving stream deadline latest)
  | .receiving stream deadline latest =>
    match state.receive stream with
    | (some event, state) => (state, .woken stream deadline latest event)
    | (none, _) =>
      if deadline ≤ now then (state, .looking stream deadline latest)
      else (state, .receiving stream deadline latest)
  | .woken stream deadline latest _ =>
    (state, .looking stream deadline ((current chars resumes params registry).getD latest))
  | .replied answer => (state, .replied answer)

end EventsWait

/-! ### The watcher -/

inductive ViewField
  | promptTitle
  | title
  | status
  | needsInput
  deriving DecidableEq, Repr

abbrev ViewField.Value : ViewField → Type
  | promptTitle | title => Option String
  | status => SessionStatus
  | needsInput => Option NeedsInputDetail

abbrev ViewFields : Type := (field : ViewField) → field.Value

/-- The title counts where there is none of a prompt. -/
def ViewFields.view (fields : ViewFields) : SessionView where
  status := fields .status
  needsInput := fields .needsInput
  title := (fields .promptTitle).or (fields .title)
  titleSource := some (if (fields .promptTitle).isSome then .firstPrompt else .agentProvided)

/-- A look at a session that began with a version: what was loaded, and where. -/
structure Look where
  version : Nat
  fields : ViewFields
  loaded : List ViewField := []

/-- A session and its watcher.  The version is a counter of 64 bits, of all `changes`. -/
structure RegistryWatcher where
  shared : ViewFields
  changes : Nat := 0
  /-- Who has stored into a field and not moved the version since. -/
  storing : List Nat := []
  reading : Option Look := none
  published : Option UInt64 := none
  view : Option SessionView := none

inductive WatcherStep
  | store (writer : Nat) (field : ViewField) (value : field.Value)
  | bump (writer : Nat)
  | look
  | load (field : ViewField)
  | publish

namespace RegistryWatcher

def stateVersion (watch : RegistryWatcher) : UInt64 := .ofNat watch.changes

def step (watch : RegistryWatcher) : WatcherStep → RegistryWatcher
  | .store writer field value =>
    { watch with
      shared := Function.update watch.shared field value
      storing := writer :: watch.storing }
  | .bump writer =>
    if writer ∈ watch.storing then
      { watch with
        storing := watch.storing.filter (· ≠ writer)
        changes := watch.changes + 1 }
    else watch
  | .look =>
    if watch.reading.isNone ∧ watch.published ≠ some watch.stateVersion then
      { watch with reading := some ⟨watch.changes, watch.shared, []⟩ }
    else watch
  | .load field =>
    { watch with
      reading := watch.reading.map fun look =>
        { look with
          fields := Function.update look.fields field (watch.shared field)
          loaded := field :: look.loaded } }
  | .publish =>
    match watch.reading with
    | some look =>
      if .promptTitle ∈ look.loaded ∧ .status ∈ look.loaded ∧ .needsInput ∈ look.loaded ∧
          ((look.fields .promptTitle).isSome ∨ .title ∈ look.loaded) then
        { watch with
          reading := none
          published := some (.ofNat look.version)
          view := some look.fields.view }
      else watch
    | none => watch

end RegistryWatcher

end Diri
