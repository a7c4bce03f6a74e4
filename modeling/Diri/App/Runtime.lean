/-
The store at work.

The store is called by the user interface, by the daemon's events and by the task that lists
the daemon's sessions after it has connected; the calls come in any order, one at a time.
Another task takes the effects out of the channel one by one, has the daemon perform each,
and tells the store of the outcome before it takes the next.
-/
import Diri.App.Store
import Diri.Lib.Run

namespace Diri.App

/-- A call of the store, but for those of the task that runs the effects. -/
inductive Call
  | hydrate (sessions : List SessionRecord) (projects : List Project)
  | handleEvent (event : SessionStore.StoreEvent)
  | setDaemonState (state : DaemonState)
  | select (id : SessionId)
  | sidebarClick (id : SessionId) (modifiers : ClickModifiers)
  | clearSidebarSelection
  | requestClose (ids : List SessionId)
  | removeSessions (ids : List SessionId)
  | confirmPendingClose
  | cancelPendingClose
  | archiveSessions (now : DateMillis) (ids : List SessionId)
  | reviveSessions (ids : List SessionId)
  | rename (id : SessionId) (title : String)
  | resume (id : SessionId)
  | reopenLast
  | spawn
  | spawnAuxiliaryTerminal (parent : SessionId)
  | migrateSession (id : SessionId) (targetHost : Option String)
  | setActive (active : Bool)
  | updatePreferences (update : Prefs → Prefs) (saved : Bool)
  | toggleSessionCollapsed (id : SessionId) (saved : Bool)
  | toggleArchiveExpanded (id : ProjectId) (saved : Bool)
  | reconcileSidebarOrder

/-- What became of an effect. -/
inductive Outcome
  | done
  | failed (error : String)
  | spawned (id : SessionId)
  | migrated (session : SessionRecord)
  | reopened (session : SessionRecord)

/-- The outcomes that an effect can have. -/
def StoreEffect.answers : StoreEffect → Outcome → Bool
  | .uiChanged, .done | .detachAttachment _, .done => true
  | .uiChanged, _ | .detachAttachment _, _ => false
  | _, .failed _ => true
  | .spawn, .spawned _ | .migrate .., .migrated _ | .reopenLast, .reopened _ => true
  | .spawn, _ | .migrate .., _ | .reopenLast, _ => false
  | _, .done => true
  | _, _ => false

namespace SessionStore

def perform (walks : Walks) (call : Call) (store : SessionStore) : SessionStore :=
  match call with
  | .hydrate sessions projects => store.hydrate walks sessions projects
  | .handleEvent event => store.handleEvent walks event
  | .setDaemonState state => { store with daemonState := state }
  | .select id => store.select id
  | .sidebarClick id modifiers => store.sidebarClick walks id modifiers
  | .clearSidebarSelection => { store with sidebarSelection := [] }
  | .requestClose ids => store.requestClose walks ids
  | .removeSessions ids => store.removeSessions walks ids
  | .confirmPendingClose => store.confirmPendingClose walks
  | .cancelPendingClose => store.cancelPendingClose
  | .archiveSessions now ids => store.archiveSessions walks now ids
  | .reviveSessions ids => store.reviveSessions ids
  | .rename id title => store.rename id title
  | .resume id => store.emit (.resume id false)
  | .reopenLast => store.emit .reopenLast
  | .spawn => store.emit .spawn
  | .spawnAuxiliaryTerminal parent => store.spawnAuxiliaryTerminal parent
  | .migrateSession id targetHost => store.migrateSession id targetHost
  | .setActive active => store.setActive active
  | .updatePreferences update saved => store.updatePreferences update saved
  | .toggleSessionCollapsed id saved => store.toggleSessionCollapsed id saved
  | .toggleArchiveExpanded id saved => store.toggleArchiveExpanded id saved
  | .reconcileSidebarOrder => store.reconcileSidebarOrder

/-- What the outcome of an effect makes of the store: the end of a turn of `run_effects`. -/
def finish (walks : Walks) (effect : StoreEffect) (outcome : Outcome) (store : SessionStore) :
    SessionStore :=
  let store :=
    match effect, outcome with
    | .resume id true, _ => store.finishAutoResume id
    | .spawn, .spawned id => store.focusSession id
    | .migrate id _, .migrated session => (store.finishMigration id).upsertSession walks session
    | .migrate id _, _ => store.finishMigration id
    | .reopenLast, .reopened session => (store.upsertSession walks session).select session.id
    | _, _ => store
  { store with
    lastActionError :=
      match outcome with
      | .failed error => some error
      | _ => none }

end SessionStore

/-- The store, and the effect that is being performed. -/
structure Runtime where
  store : SessionStore
  running : Option StoreEffect := none

inductive RuntimeStep
  | call (walks : Walks) (call : Call)
  /-- The next effect is taken out of the channel. -/
  | receive
  | finish (walks : Walks) (outcome : Outcome)

namespace Runtime

def start (prefs : Prefs) : Runtime := { store := .start prefs }

def step (runtime : Runtime) : RuntimeStep → Option Runtime
  | .call walks call => some { runtime with store := runtime.store.perform walks call }
  | .receive =>
    match runtime.running, runtime.store.effects with
    | none, effect :: rest =>
      some { store := { runtime.store with effects := rest }, running := some effect }
    | _, _ => none
  | .finish walks outcome =>
    match runtime.running with
    | some effect =>
      if effect.answers outcome then
        some { store := runtime.store.finish walks effect outcome, running := none }
      else none
    | none => none

/-- What the store sends in a step. -/
def sent (runtime : Runtime) (step : RuntimeStep) : List StoreEffect :=
  match step, runtime.step step with
  | .receive, _ | _, none => []
  | _, some next => next.store.effects.drop runtime.store.effects.length

/-- The effect is in the channel, or being performed. -/
def inFlight (runtime : Runtime) (effect : StoreEffect) : Prop :=
  effect ∈ runtime.store.effects ∨ runtime.running = some effect

instance (runtime : Runtime) (effect : StoreEffect) : Decidable (runtime.inFlight effect) :=
  inferInstanceAs (Decidable (_ ∨ _))

end Runtime

end Diri.App
