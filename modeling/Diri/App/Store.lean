/-
The app's store of sessions.

Every method of the store is a function of it.  What it sends to be done elsewhere, it
appends to `effects`: the channel, with all that nobody has received yet.  The projection of
the sidebar is built anew where the source may find it cached, since every change drops the
cache; the order its maps are walked in is a parameter of every method that asks for it.

Saving the preferences has no bearing on the store, and neither have the switcher and the
overview, which only name sessions to select or to close.
-/
import Diri.App.Projection

namespace Diri.App

inductive DaemonState
  | connecting
  | connected
  | unreachable (error : String)
  deriving DecidableEq, Repr

inductive StoreEffect
  | uiChanged
  | markSeen (id : SessionId)
  | remove (id : SessionId)
  | resume (id : SessionId) (automatic : Bool)
  | archive (id : SessionId)
  | unarchive (id : SessionId)
  | rename (id : SessionId) (title : String)
  | spawn
  | spawnAuxiliary
  | migrate (id : SessionId) (targetHost : Option String)
  | reopenLast
  | setActive (active : Bool)
  | configureGovernor
  | detachAttachment (id : SessionId)
  deriving DecidableEq, Repr

structure ClickModifiers where
  command : Bool := false
  shift : Bool := false
  deriving DecidableEq, Repr

structure SessionStore where
  daemonState : DaemonState := .connecting
  sessions : Sessions := .empty
  projects : Projects := .empty
  selectedSessionId : Option SessionId := none
  sidebarSelection : List SessionId := []
  pendingClose : Option (List SessionId) := none
  /-- Sessions with a `session.remove` in flight. -/
  closing : List SessionId := []
  autoResuming : List SessionId := []
  migrating : List SessionId := []
  prefs : Prefs := {}
  terminalResidency : TerminalResidency := default
  appIsActive : Bool := true
  lastActionError : Option String := none
  sidebarSelectionAnchor : Option SessionId := none
  mruOrder : List SessionId := []
  autoResumeAttempted : List SessionId := []
  effects : List StoreEffect := []

def insertId (id : SessionId) (ids : List SessionId) : List SessionId :=
  if id ∈ ids then ids else ids ++ [id]

def withoutId (id : SessionId) (ids : List SessionId) : List SessionId :=
  ids.filter fun candidate => candidate ≠ id

/-- `toggle_vec_member`. -/
def toggleMember (value : String) (values : List String) : List String :=
  if value ∈ values then values.erase value else values ++ [value]

namespace SessionStore

/-- A store that has heard of no session yet. -/
def start (prefs : Prefs) : SessionStore where
  prefs := prefs
  selectedSessionId := prefs.lastSelectedSession
  mruOrder := prefs.lastSelectedSession.toList

def emit (effect : StoreEffect) (store : SessionStore) : SessionStore :=
  { store with effects := store.effects ++ [effect] }

def sidebarProjection (walks : Walks) (store : SessionStore) : SidebarProjection :=
  (buildProjection walks store.sessions store.projects store.prefs store.selectedSessionId
    store.closing).getD default

/-- The session is stored and not archived. -/
def isUnarchived (id : SessionId) (store : SessionStore) : Bool :=
  (store.sessions.lookup id).any fun session => !session.isArchived

/-! ### The manual order -/

/-- `reconcile_order`: what is gone is dropped, what is new comes last. -/
def reconcileOrder (order live arriving : List String) : Option (List String) :=
  let next := order.filter fun id => live.contains id
  let appended := arriving.filter fun id => !order.contains id
  if next.length = order.length ∧ appended = [] then none else some (next ++ appended)

def retainLive (values live : List String) : Option (List String) :=
  let kept := values.filter fun id => live.contains id
  if kept.length ≠ values.length then some kept else none

def arrivals (store : SessionStore) : List SessionId :=
  (store.sessions.values.insertionSort fun left right =>
    (toLex (left.createdAt.sinceEpoch, left.id) : Nat ×ₗ String) ≤
      toLex (right.createdAt.sinceEpoch, right.id)).map (·.id)

/-- The projects as their oldest sessions arrived. -/
def projectArrivals (store : SessionStore) : List ProjectId :=
  let arrivalOf := fun id => arrival (store.sessions.values.filter fun session =>
    session.projectId = id)
  (store.projects.values.map (·.id)).insertionSort fun left right =>
    (toLex (arrivalOf left, left) : WithTop Nat ×ₗ String) ≤ toLex (arrivalOf right, right)

def reconcileSidebarOrder (store : SessionStore) : SessionStore :=
  let liveSessions := store.sessions.values.map (·.id)
  let liveProjects := store.projects.values.map (·.id)
  let prefs := store.prefs
  { store with
    prefs :=
      { prefs with
        sidebarSessionOrder :=
          (reconcileOrder prefs.sidebarSessionOrder liveSessions store.arrivals).getD
            prefs.sidebarSessionOrder
        sidebarProjectOrder :=
          (reconcileOrder prefs.sidebarProjectOrder liveProjects store.projectArrivals).getD
            prefs.sidebarProjectOrder
        sidebarCollapsedSessions :=
          (retainLive prefs.sidebarCollapsedSessions liveSessions).getD
            prefs.sidebarCollapsedSessions
        sidebarPinnedSessions :=
          (retainLive prefs.sidebarPinnedSessions liveSessions).getD prefs.sidebarPinnedSessions } }

/-! ### Focus -/

/-- The walk up the spawn chain that unfolds every session it comes to. -/
def unfoldAbove (sessions : Sessions) :
    Nat → List SessionId → Option SessionId → List SessionId → List SessionId
  | 0, _, _, collapsed => collapsed
  | _, _, none, collapsed => collapsed
  | fuel + 1, seen, some ancestor, collapsed =>
    if ancestor ∈ seen then collapsed
    else
      unfoldAbove sessions fuel (ancestor :: seen)
        ((sessions.lookup ancestor).bind (·.parent)) (collapsed.erase ancestor)

/-- `reveal`: whatever hides the session is unfolded. -/
def reveal (id : SessionId) (store : SessionStore) : SessionStore :=
  match store.sessions.lookup id with
  | none => store
  | some session =>
    let prefs := store.prefs
    { store with
      prefs :=
        { prefs with
          sidebarCollapsedProjects := prefs.sidebarCollapsedProjects.erase session.projectId
          sidebarExpandedArchives :=
            if session.isArchived && !prefs.sidebarExpandedArchives.contains session.projectId then
              prefs.sidebarExpandedArchives ++ [session.projectId]
            else prefs.sidebarExpandedArchives
          sidebarCollapsedSessions :=
            unfoldAbove store.sessions (store.sessions.values.length + 1) [id] session.parent
              prefs.sidebarCollapsedSessions } }

/-- A touch of the residency, and the detachment of what it lets go of. -/
def touchResidency (id : SessionId) (store : SessionStore) : SessionStore :=
  let (residency, evicted) := store.terminalResidency.touch id
  let store := { store with terminalResidency := residency }
  match evicted with
  | some evicted => store.emit (.detachAttachment evicted)
  | none => store

/-- A session taken from the residency, and its detachment. -/
def removeResidency (id : SessionId) (store : SessionStore) : SessionStore :=
  let (residency, removed) := store.terminalResidency.remove id
  let store := { store with terminalResidency := residency }
  if removed then store.emit (.detachAttachment id) else store

def autoResumeIfNeeded (id : SessionId) (store : SessionStore) : SessionStore :=
  let eligible := store.selectedSessionId = some id &&
    (store.sessions.lookup id).any fun session =>
      !session.isArchived && session.resumability = .resumable &&
        match session.status with
        | .exited info => info.reason = .daemonRestart
        | _ => false
  if eligible && !store.autoResumeAttempted.contains id then
    { store with
      autoResumeAttempted := insertId id store.autoResumeAttempted
      autoResuming := insertId id store.autoResuming }.emit (.resume id true)
  else store

def focusSession (id : SessionId) (store : SessionStore) : SessionStore :=
  let store := { store with selectedSessionId := some id }.reveal id
  let store :=
    { store with
      prefs := { store.prefs with lastSelectedSession := some id }
      mruOrder := id :: withoutId id store.mruOrder }
  let store := if store.isUnarchived id then store.touchResidency id else store
  let store := if store.isUnarchived id then store.emit (.markSeen id) else store
  (store.autoResumeIfNeeded id).emit .uiChanged

def setSelectedSurvivor (survivor : Option SessionId) (store : SessionStore) : SessionStore :=
  match survivor with
  | some id => store.focusSession id
  | none =>
    { store with
      selectedSessionId := none
      prefs := { store.prefs with lastSelectedSession := none } }

def autoSelectIfNeeded (walks : Walks) (store : SessionStore) : SessionStore :=
  if store.selectedSessionId.isSome then store
  else store.setSelectedSurvivor ((store.sidebarProjection walks).firstActive.map (·.id))

/-- The session that takes the focus when some are excluded. -/
def neighbor (walks : Walks) (excluded : List SessionId) (store : SessionStore) :
    Option SessionId :=
  let order := (store.sidebarProjection walks).orderedSessions.map (·.id)
  let eligible := fun id => !excluded.contains id
  let survivor := order.find? eligible
  match store.selectedSessionId with
  | none => survivor
  | some current =>
    match order.findIdx? (· = current) with
    | none => survivor
    | some index =>
      let project := (store.sessions.lookup current).map (·.projectId)
      let sameProject := fun id =>
        eligible id && (store.sessions.lookup id).map (·.projectId) = project
      (order.drop index).find? sameProject
        <|> (order.take index).reverse.find? sameProject
        <|> (order.drop index).find? eligible
        <|> (order.take index).reverse.find? eligible
        <|> survivor

def focusNeighbor (walks : Walks) (excluded : List SessionId) (store : SessionStore) :
    SessionStore :=
  store.setSelectedSurvivor (store.neighbor walks excluded)

def select (id : SessionId) (store : SessionStore) : SessionStore :=
  if store.sessions.contains id then
    { store with sidebarSelection := [], sidebarSelectionAnchor := some id }.focusSession id
  else store

def sidebarVisibleOrder (walks : Walks) (store : SessionStore) : List SessionId :=
  (store.sidebarProjection walks).projects.flatMap fun group =>
    group.sessions.map (·.session.id) ++
      if store.prefs.sidebarExpandedArchives.contains group.project.id then
        group.archived.map (·.id)
      else []

/-- A selection that is empty starts with the session in focus. -/
def startSelection (id : SessionId) (store : SessionStore) : SessionStore :=
  match store.selectedSessionId with
  | some focused =>
    if store.sidebarSelection = [] ∧ focused ≠ id ∧ store.sessions.contains focused then
      { store with sidebarSelection := [focused] }
    else store
  | none => store

/-- A click with the command key: the session joins the selection, or leaves it. -/
def commandClick (walks : Walks) (id : SessionId) (store : SessionStore) : SessionStore :=
  if id ∈ store.sidebarSelection then
    let store := { store with sidebarSelection := withoutId id store.sidebarSelection }
    let next := (store.sidebarProjection walks).displayOrder.find? fun id =>
      store.sidebarSelection.contains id
    match next with
    | some next => if store.selectedSessionId = some id then store.focusSession next else store
    | none => store
  else
    { store with
      sidebarSelection := insertId id store.sidebarSelection
      sidebarSelectionAnchor := some id }

/-- A click with the shift key: all that can be seen from the anchor on is selected. -/
def shiftClick (walks : Walks) (id : SessionId) (store : SessionStore) : SessionStore :=
  let order := store.sidebarVisibleOrder walks
  let position := fun id => order.findIdx? (· = id)
  match position id with
  | none => store
  | some clicked =>
    let anchor := ((store.sidebarSelectionAnchor.bind position)
      <|> (store.selectedSessionId.bind position)).getD clicked
    { store with
      sidebarSelection := (order.take (max anchor clicked + 1)).drop (min anchor clicked) }

def sidebarClick (walks : Walks) (id : SessionId) (modifiers : ClickModifiers)
    (store : SessionStore) : SessionStore :=
  if !store.sessions.contains id then store
  else if modifiers.shift then store.shiftClick walks id
  else if modifiers.command then (store.startSelection id).commandClick walks id
  else store.select id

/-! ### Closing -/

def firstOccurrences : List SessionId → List SessionId
  | [] => []
  | id :: rest => id :: (firstOccurrences rest).filter fun other => other ≠ id

def auxiliaryOf (walks : Walks) (ids : List SessionId) (store : SessionStore) : List SessionId :=
  ((walks.sessions.apply store.sessions.values).filter fun session =>
    (session.parent.any fun parent => ids.contains parent) && session.isAuxiliaryTerminal).map (·.id)

/-- One session leaves the sidebar, and its removal is asked for. -/
def dispatchRemoval (store : SessionStore) (id : SessionId) : SessionStore :=
  let store := { store with sidebarSelection := withoutId id store.sidebarSelection }.removeResidency id
  { store with closing := insertId id store.closing }.emit (.remove id)

def removeSessions (walks : Walks) (ids : List SessionId) (store : SessionStore) : SessionStore :=
  let ids := firstOccurrences (ids ++ store.auxiliaryOf walks ids)
  let store :=
    if store.selectedSessionId.any fun id => ids.contains id then store.focusNeighbor walks ids
    else store
  ids.foldl dispatchRemoval store

def requestClose (walks : Walks) (ids : List SessionId) (store : SessionStore) : SessionStore :=
  let ids := ids.filter fun id => !store.closing.contains id
  if ids = [] then store
  else
    let hasRunning := ids.any fun id =>
      (store.sessions.lookup id).any fun session => !session.status.isExited
    if store.prefs.confirmBeforeClosingSession && hasRunning then
      { store with pendingClose := some ids }
    else store.removeSessions walks ids

def confirmPendingClose (walks : Walks) (store : SessionStore) : SessionStore :=
  match store.pendingClose with
  | some ids => { store with pendingClose := none }.removeSessions walks ids
  | none => store

def cancelPendingClose (store : SessionStore) : SessionStore := { store with pendingClose := none }

/-! ### Records -/

/-- An exit that leaves nothing to go back to. -/
def leavesNothing (session : SessionRecord) : Bool :=
  match session.status with
  | .exited info =>
    info.reason = .exited && info.code = some 0 && session.resumability ≠ .resumable
  | _ => false

/-- The record closes its own session: it is not closing yet, and was not exited before. -/
def shouldAutoClose (session : SessionRecord) (store : SessionStore) : Bool :=
  !store.closing.contains session.id && leavesNothing session &&
    (store.sessions.lookup session.id).all fun record => !record.status.isExited

def upsertSession (walks : Walks) (session : SessionRecord) (store : SessionStore) : SessionStore :=
  let isNew := !store.sessions.contains session.id
  let shouldAutoClose := store.shouldAutoClose session
  let store := { store with sessions := store.sessions.insert session }
  let store :=
    if isNew && store.selectedSessionId = some session.id && !session.isArchived &&
        !store.terminalResidency.contains session.id then
      store.touchResidency session.id
    else store
  let store := if isNew then store.reconcileSidebarOrder else store
  if shouldAutoClose then store.removeSessions walks [session.id]
  else
    let store := store.autoResumeIfNeeded session.id
    if isNew then
      if store.selectedSessionId = some session.id then store.focusSession session.id
      else store.autoSelectIfNeeded walks
    else store

def removeSessionRecord (walks : Walks) (id : SessionId) (store : SessionStore) : SessionStore :=
  let store :=
    if store.selectedSessionId = some id then store.focusNeighbor walks [id] else store
  let store :=
    { store with
      sessions := store.sessions.erase id
      closing := withoutId id store.closing
      sidebarSelection := withoutId id store.sidebarSelection
      mruOrder := withoutId id store.mruOrder
      autoResuming := withoutId id store.autoResuming
      migrating := withoutId id store.migrating }
  (store.removeResidency id).reconcileSidebarOrder

def hydrate (walks : Walks) (sessions : List SessionRecord) (projects : List Project)
    (store : SessionStore) : SessionStore :=
  let store :=
    { store with
      closing := []
      sessions := .ofList sessions
      projects := .ofList projects }
  let store :=
    if store.selectedSessionId.any fun id => !store.sessions.contains id then
      { store with selectedSessionId := none }
    else store
  let store := store.reconcileSidebarOrder.autoSelectIfNeeded walks
  match store.selectedSessionId with
  | none => store
  | some id =>
    let store :=
      if store.isUnarchived id && !store.terminalResidency.contains id then
        store.touchResidency id
      else store
    store.autoResumeIfNeeded id

/-- One sample of the resources of a session. -/
structure SessionResources where
  id : SessionId
  memoryBytes : Option UInt64
  listeningPorts : Option (List PortInfo)
  artifacts : Option (List SessionArtifact)

/-- A daemon's event that the store looks at. -/
inductive StoreEvent
  | sessionUpdated (session : SessionRecord)
  | sessionResources (resources : SessionResources)
  | sessionRemoved (id : SessionId)
  | projectUpdated (project : Project)
  /-- An event of any other name. -/
  | other

def sampled (resources : SessionResources) (record : SessionRecord) : SessionRecord :=
  { record with
    memoryBytes := resources.memoryBytes <|> record.memoryBytes
    listeningPorts := resources.listeningPorts <|> record.listeningPorts
    artifacts := resources.artifacts <|> record.artifacts }

def handleEvent (walks : Walks) (event : StoreEvent) (store : SessionStore) : SessionStore :=
  match event with
  | .sessionUpdated session =>
    if store.sessions.lookup session.id = some session then store
    else store.upsertSession walks session
  | .sessionResources resources =>
    match store.sessions.lookup resources.id with
    | some record => { store with sessions := store.sessions.insert (sampled resources record) }
    | none => store
  | .sessionRemoved id =>
    if store.sessions.contains id then store.removeSessionRecord walks id else store
  | .projectUpdated project =>
    if store.projects.lookup project.id = some project then store
    else { store with projects := store.projects.insert project }.reconcileSidebarOrder
  | .other => store

/-! ### What the user asks for -/

def archiveOne (now : DateMillis) (store : SessionStore) (id : SessionId) : SessionStore :=
  let store := { store with sidebarSelection := withoutId id store.sidebarSelection }
  let store :=
    match store.sessions.lookup id with
    | some session =>
      { store with
        sessions := store.sessions.insert { session with archivedAt := some now } }
    | none => store
  (store.removeResidency id).emit (.archive id)

def archiveSessions (walks : Walks) (now : DateMillis) (ids : List SessionId)
    (store : SessionStore) : SessionStore :=
  let targets := ids.filter fun id => store.isUnarchived id
  let store :=
    if store.selectedSessionId.any fun id => targets.contains id then
      store.focusNeighbor walks targets
    else store
  targets.foldl (archiveOne now) store

/-- One session is taken back, if it was archived. -/
def reviveOne (revived : SessionStore × List SessionId) (id : SessionId) :
    SessionStore × List SessionId :=
  match revived.1.sessions.lookup id with
  | some session =>
    if session.isArchived then
      ({ revived.1 with
          sessions := revived.1.sessions.insert { session with archivedAt := none } }.emit
        (if session.resumability = Resumability.resumable then .resume id false else .unarchive id),
        revived.2 ++ [id])
    else revived
  | none => revived

def reviveSessions (ids : List SessionId) (store : SessionStore) : SessionStore :=
  let (store, revived) := ids.foldl reviveOne (store, [])
  match revived.head? with
  | some first => store.select first
  | none => store

def finishAutoResume (id : SessionId) (store : SessionStore) : SessionStore :=
  { store with autoResuming := withoutId id store.autoResuming }

def rename (id : SessionId) (title : String) (store : SessionStore) : SessionStore :=
  let store :=
    match store.sessions.lookup id with
    | some session =>
      { store with
        sessions := store.sessions.insert { session with title, titleSource := .userRename } }
    | none => store
  store.emit (.rename id title)

def migrateSession (id : SessionId) (targetHost : Option String) (store : SessionStore) :
    SessionStore :=
  match store.sessions.lookup id with
  | some session =>
    if session.kind ≠ "claude-code" ∨ session.host = targetHost ∨ id ∈ store.migrating then store
    else
      { store with migrating := insertId id store.migrating }.emit (.migrate id targetHost)
  | none => store

def finishMigration (id : SessionId) (store : SessionStore) : SessionStore :=
  { store with migrating := withoutId id store.migrating }

/-- `spawn_auxiliary_terminal`: one shell that is neither archived nor closing is enough. -/
def spawnAuxiliaryTerminal (parent : SessionId) (store : SessionStore) : SessionStore :=
  let shell := store.sessions.values.any fun session =>
    session.parent = some parent && session.isAuxiliaryTerminal && !session.isArchived &&
      !store.closing.contains session.id
  if store.sessions.contains parent && !shell then
    { store with lastActionError := none }.emit .spawnAuxiliary
  else store

def setActive (active : Bool) (store : SessionStore) : SessionStore :=
  if store.appIsActive = active then store
  else { store with appIsActive := active }.emit (.setActive active)

/-- `update_preferences`; `saved` tells whether writing them worked. -/
def updatePreferences (update : Prefs → Prefs) (saved : Bool) (store : SessionStore) :
    SessionStore :=
  let store := { store with prefs := update store.prefs }
  if saved && store.daemonState = .connected then store.emit .configureGovernor else store

/-- Whether the way up from the cursor comes to the ancestor. -/
def leadsTo (sessions : Sessions) (ancestor : SessionId) :
    Nat → List SessionId → Option SessionId → Bool
  | 0, _, _ => false
  | _, _, none => false
  | fuel + 1, seen, some node =>
    if node = ancestor then true
    else if node ∈ seen then false
    else leadsTo sessions ancestor fuel (node :: seen) ((sessions.lookup node).bind (·.parent))

def isDescendantOf (candidate ancestor : SessionId) (store : SessionStore) : Bool :=
  leadsTo store.sessions ancestor (store.sessions.values.length + 2) [candidate]
    ((store.sessions.lookup candidate).bind (·.parent))

/-- `toggle_session_collapsed`: folding a session takes the focus from what it hides. -/
def toggleSessionCollapsed (id : SessionId) (saved : Bool) (store : SessionStore) : SessionStore :=
  let hidesSelected := store.selectedSessionId.any fun selected => store.isDescendantOf selected id
  let store :=
    if !store.prefs.sidebarCollapsedSessions.contains id && hidesSelected then store.select id
    else store
  store.updatePreferences (fun prefs =>
    { prefs with
      sidebarCollapsedSessions := toggleMember id prefs.sidebarCollapsedSessions }) saved

/-- `toggle_archive_expanded`: archived rows that fold away are selected no more. -/
def toggleArchiveExpanded (id : ProjectId) (saved : Bool) (store : SessionStore) : SessionStore :=
  let store :=
    if store.prefs.sidebarExpandedArchives.contains id then
      { store with
        sidebarSelection := store.sidebarSelection.filter fun sessionId =>
          !(store.sessions.lookup sessionId).any fun session =>
            session.projectId = id && session.isArchived }
    else store
  store.updatePreferences (fun prefs =>
    { prefs with
      sidebarExpandedArchives := toggleMember id prefs.sidebarExpandedArchives }) saved

end SessionStore

end Diri.App
