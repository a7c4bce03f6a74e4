/-
What the app keeps of the daemon's records.

A session's record carries more here than the registry's own reads of it: where the session
stands in the sidebar, and the resources the daemon samples for it.  `TerminalResidency` is a
bounded list of the sessions whose terminals stay attached, most recently used first.

What the sidebar shows of the sessions.

`buildProjection` groups the sessions by project and arranges each group's active ones into
the forest of who spawned whom.  The parent a record names may be missing, archived, in
another project or on a cycle, so `resolveParents` decides which of these pointers count.

A session stands here for its index in the group, since no two of a group have one id.
Both loops of the source run on fuel, and a result is `none` only when the fuel runs out.
The maps the source walks are handed out in an order that is a parameter.
-/
import Diri.Lib.Path
import Diri.Lib.Table
import Diri.Proto.Model
import Mathlib.Data.List.Dedup
import Mathlib.Data.List.Sort
import Mathlib.Data.Prod.Lex
import Mathlib.Data.String.Basic
import Mathlib.Order.WithBot
import Mathlib.Algebra.Order.Monoid.Unbundled.WithTop
import Mathlib.Order.Lattice.Nat

namespace Diri.App

section

open List

abbrev ProjectId : Type := String

structure PortInfo where
  port : Int
  processName : String
  deriving DecidableEq, Repr

inductive ArtifactKind
  | pullRequest
  | linearIssue
  | preview
  | link
  | unknown
  deriving DecidableEq, Repr

structure SessionArtifact where
  kind : ArtifactKind
  url : String
  firstSeenAt : DateMillis
  deriving DecidableEq, Repr

structure SessionRecord extends Diri.SessionRecord where
  projectId : ProjectId
  worktreePath : Option String := none
  parent : Option SessionId := none
  artifacts : Option (List SessionArtifact) := none
  listeningPorts : Option (List PortInfo) := none
  deriving DecidableEq, Repr

namespace SessionRecord

def isArchived (session : SessionRecord) : Bool := session.archivedAt.isSome

/-- `is_auxiliary_terminal`: a shell with a parent belongs to its parent's workbench. -/
def isAuxiliaryTerminal (session : SessionRecord) : Bool :=
  session.kind = "shell" && session.parent.isSome

end SessionRecord

structure Project where
  id : ProjectId
  root : String
  name : String
  pinnedOrder : Option Int64 := none
  deriving DecidableEq, Repr

abbrev Sessions : Type := Index fun session : SessionRecord => session.id

abbrev Projects : Type := Index fun project : Project => project.id

/-- The preferences that the sidebar and the closing of a session read. -/
structure Prefs where
  confirmBeforeClosingSession : Bool := true
  sidebarProjectOrder : List ProjectId := []
  sidebarSessionOrder : List SessionId := []
  sidebarPinnedProjects : List ProjectId := []
  sidebarPinnedSessions : List SessionId := []
  sidebarCollapsedProjects : List ProjectId := []
  sidebarCollapsedSessions : List SessionId := []
  sidebarExpandedArchives : List ProjectId := []
  lastSelectedSession : Option SessionId := none
  deriving DecidableEq, Repr

structure TerminalResidency where
  capacity : Nat
  order : List SessionId
  nodup : order.Nodup
  fits : order.length ≤ capacity

namespace TerminalResidency

def new (capacity : Nat) : TerminalResidency := ⟨capacity, [], nodup_nil, Nat.zero_le _⟩

/-- `TerminalResidency::default`: only the terminal that is shown. -/
instance : Inhabited TerminalResidency := ⟨new 1⟩

variable (residency : TerminalResidency) (id : SessionId)

/-- The session first, before any is let go. -/
def fronted : List SessionId := id :: residency.order.filter fun candidate => candidate ≠ id

theorem fronted_nodup : (residency.fronted id).Nodup :=
  List.nodup_cons.mpr ⟨by simp, residency.nodup.filter _⟩

theorem fronted_length : (residency.fronted id).length ≤ residency.capacity + 1 := by
  have hle := length_filter_le (fun candidate => decide (candidate ≠ id)) residency.order
  have hfits := residency.fits
  simp only [fronted, length_cons]
  omega

/-- `touch`, and the session it lets go of. -/
def touch : TerminalResidency × Option SessionId :=
  if h : residency.capacity < (residency.fronted id).length then
    ({ capacity := residency.capacity
       order := (residency.fronted id).dropLast
       nodup := (residency.fronted_nodup id).sublist (dropLast_sublist _)
       fits := by
        rw [length_dropLast]
        have hlength := residency.fronted_length id
        omega },
      (residency.fronted id).getLast?)
  else
    ({ capacity := residency.capacity
       order := residency.fronted id
       nodup := residency.fronted_nodup id
       fits := Nat.le_of_not_lt h }, none)

/-- `remove`, and whether the session was there. -/
def remove : TerminalResidency × Bool :=
  ({ capacity := residency.capacity
     order := residency.order.filter fun candidate => candidate ≠ id
     nodup := residency.nodup.filter _
     fits := Nat.le_trans (length_filter_le _ _) residency.fits },
    residency.order.contains id)

def contains : Bool := residency.order.contains id

end TerminalResidency

end

/-! ### The sidebar -/

/-- The rank of an item the manual order has never seen: `usize::MAX`. -/
def unranked : Nat := 2 ^ 64 - 1

/-- `rank_of` in the `rank_map` of an order: of an item listed twice the last place counts. -/
def rankOf (order : List String) (id : String) : Nat :=
  match order.zipIdx.reverse.find? fun entry => entry.1 = id with
  | some entry => entry.2
  | none => unranked

structure SidebarRow where
  session : SessionRecord
  depth : Nat
  hasChildren : Bool
  collapsed : Bool
  pinned : Bool
  rails : Nat
  deriving DecidableEq, Repr

structure SidebarProject where
  project : Project
  host : Option String
  sessions : List SidebarRow
  active : List SessionRecord
  archived : List SessionRecord
  pinned : Bool
  deriving DecidableEq, Repr

structure SidebarProjection where
  projects : List SidebarProject := []
  orderedSessions : List SessionRecord := []
  displayOrder : List SessionId := []
  deriving DecidableEq, Repr, Inhabited

namespace SidebarProjection

def firstActive (projection : SidebarProjection) : Option SessionRecord :=
  projection.projects.findSome? fun group => group.active.head?

end SidebarProjection

/-! ### Parents -/

/-- The parent a session names, where it is another session of the group. -/
def namedParent (active : List SessionRecord) (id : SessionId) : Option SessionId :=
  (active.find? fun session => session.id = id).bind fun session =>
    session.parent.filter fun parent =>
      (active.any fun other => other.id = parent) && parent ≠ id

/-- Whether the way up from the cursor comes back to a session it has seen. -/
def climb (parents : SessionId → Option SessionId) :
    Nat → List SessionId → Option SessionId → Option Bool
  | _, _, none => some false
  | 0, _, some _ => none
  | fuel + 1, seen, some node =>
    if node ∈ seen then some true else climb parents fuel (node :: seen) (parents node)

/-- One turn of the loop over the sessions: a session that leads into a cycle loses its parent. -/
def breakCycle (fuel : Nat) (parents : SessionId → Option SessionId) (start : SessionId) :
    Option (SessionId → Option SessionId) :=
  (climb parents fuel [start] (parents start)).map fun looped =>
    if looped then Function.update parents start none else parents

def resolveParents (active : List SessionRecord) : Option (SessionId → Option SessionId) :=
  (active.map (·.id)).foldlM (breakCycle active.length) (namedParent active)

/-! ### The forest of a group -/

/-- Pinned sessions lead, then the manual order, then arrival; the id decides a tie. -/
def siblingKey (prefs : Prefs) (session : SessionRecord) : Bool ×ₗ Nat ×ₗ Nat ×ₗ String :=
  toLex (!prefs.sidebarPinnedSessions.contains session.id,
    toLex (rankOf prefs.sidebarSessionOrder session.id,
      toLex (session.createdAt.sinceEpoch, session.id)))

/-- The sessions whose resolved parent is the given one, or which have none, in sibling order. -/
def childrenOf (prefs : Prefs) (parents : SessionId → Option SessionId)
    (active : List SessionRecord) (parent : Option SessionId) : List SessionRecord :=
  (active.filter fun session => parents session.id = parent).insertionSort
    fun left right => siblingKey prefs left ≤ siblingKey prefs right

/-- An entry of the stack that the forest is flattened with. -/
structure Frame where
  session : SessionRecord
  depth : Nat
  visible : Bool
  rails : Nat
  deriving DecidableEq, Repr

namespace Frame

variable (prefs : Prefs) (children : SessionId → List SessionRecord) (frame : Frame)

def hasChildren : Bool := !(children frame.session.id).isEmpty

def collapsed : Bool :=
  frame.hasChildren children && prefs.sidebarCollapsedSessions.contains frame.session.id

def row : SidebarRow where
  session := frame.session
  depth := frame.depth
  hasChildren := frame.hasChildren children
  collapsed := frame.collapsed prefs children
  pinned := prefs.sidebarPinnedSessions.contains frame.session.id
  rails := frame.rails

/--
The entries a row pushes, the first child topmost.  Each child but the last lights the
column beside the row.  The depth is a `u16` and wraps.
-/
def push : List Frame :=
  (children frame.session.id).mapIdx fun position child =>
    { session := child
      depth := (frame.depth + 1) % 2 ^ 16
      visible := frame.visible && !frame.collapsed prefs children
      rails :=
        if position + 1 = (children frame.session.id).length then frame.rails
        else frame.rails ||| 1 <<< min frame.depth 31 }

end Frame

/-- The loop over the stack: the rows that are visible, and every session in tree order. -/
def flatten (prefs : Prefs) (children : SessionId → List SessionRecord) :
    Nat → List Frame → List SidebarRow → List SessionRecord →
      Option (List SidebarRow × List SessionRecord)
  | _, [], rows, treeOrder => some (rows, treeOrder)
  | 0, _ :: _, _, _ => none
  | fuel + 1, frame :: stack, rows, treeOrder =>
    flatten prefs children fuel (frame.push prefs children ++ stack)
      (if frame.visible then rows ++ [frame.row prefs children] else rows)
      (treeOrder ++ [frame.session])

def buildTree (prefs : Prefs) (active : List SessionRecord) (projectExpanded : Bool) :
    Option (List SidebarRow × List SessionRecord) := do
  let parents ← resolveParents active
  let children := fun id => childrenOf prefs parents active (some id)
  let roots := childrenOf prefs parents active none
  flatten prefs children active.length
    (roots.map fun root =>
      { session := root, depth := 0, visible := projectExpanded, rails := 0 })
    [] []

/-! ### The groups -/

/-- The last of the sessions created latest: `max_by`. -/
def latest (sessions : List SessionRecord) : Option SessionRecord :=
  sessions.foldl (fun best session =>
    match best with
    | none => some session
    | some best =>
      if best.createdAt.sinceEpoch ≤ session.createdAt.sinceEpoch then some session
      else some best) none

/-- `synthetic_project`: a project the daemon has sent no record of. -/
def syntheticProject (id : ProjectId) (sessions : List SessionRecord) : Project :=
  let root := ((latest sessions).map fun session => session.worktreePath.getD session.cwd).getD id
  { id, root
    name := ((Path.fileName root).filter fun name => name ≠ "").getD root }

/-- When the oldest session of a group was created. -/
def arrival (group : List SessionRecord) : WithTop Nat :=
  group.foldl (fun oldest session => min oldest session.createdAt.sinceEpoch) ⊤

/-- Most recently archived first; the id decides a tie. -/
def archivedKey (session : SessionRecord) : (WithBot Nat)ᵒᵈ ×ₗ String :=
  toLex (OrderDual.toDual ((session.archivedAt.map (·.sinceEpoch) : Option Nat) : WithBot Nat),
    session.id)

/-- Pinned projects lead, then the manual order, then arrival; the id decides a tie. -/
def projectKey (prefs : Prefs) (ranked : WithTop Nat × SidebarProject) :
    Bool ×ₗ Nat ×ₗ WithTop Nat ×ₗ String :=
  toLex (!ranked.2.pinned,
    toLex (rankOf prefs.sidebarProjectOrder ranked.2.project.id,
      toLex (ranked.1, ranked.2.project.id)))

/-- The orders that the maps of one build are walked in. -/
structure Walks where
  sessions : Walk SessionRecord
  groups : Walk ProjectId

namespace Walks

def inOrder : Walks := ⟨.inOrder, .inOrder⟩

end Walks

/-- Closing sessions and the shells of a workbench are in no group. -/
def isShown (closing : List SessionId) (session : SessionRecord) : Bool :=
  !closing.contains session.id && !session.isAuxiliaryTerminal

def buildGroup (projects : Projects) (prefs : Prefs) (projectId : ProjectId)
    (group : List SessionRecord) : Option (WithTop Nat × SidebarProject) := do
  let project := (projects.lookup projectId).getD (syntheticProject projectId group)
  let archived := (group.filter (·.isArchived)).insertionSort
    fun left right => archivedKey left ≤ archivedKey right
  let expanded := !prefs.sidebarCollapsedProjects.contains projectId
  let (sessions, active) ← buildTree prefs (group.filter (!·.isArchived)) expanded
  pure (arrival group,
    { project
      host := group.head?.bind (·.host)
      sessions, active, archived
      pinned := prefs.sidebarPinnedProjects.contains project.id })

/-- The flat order of the rows, and the archived row that is selected. -/
def SidebarProject.ordered (selected : Option SessionId) (group : SidebarProject) :
    List SessionRecord :=
  group.sessions.map (·.session) ++ group.archived.filter fun session => selected = some session.id

def buildProjection (walks : Walks) (sessions : Sessions) (projects : Projects) (prefs : Prefs)
    (selected : Option SessionId) (closing : List SessionId) : Option SidebarProjection := do
  let shown := (walks.sessions.apply sessions.values).filter (isShown closing)
  let projectIds := walks.groups.apply (shown.map (·.projectId)).dedup
  let ranked ← projectIds.mapM fun projectId =>
    buildGroup projects prefs projectId (shown.filter fun session => session.projectId = projectId)
  let result := (ranked.insertionSort fun left right =>
    projectKey prefs left ≤ projectKey prefs right).map (·.2)
  pure
    { projects := result
      orderedSessions := result.flatMap (·.ordered selected)
      displayOrder := result.flatMap fun group =>
        (group.active ++ group.archived).map (·.id) }

end Diri.App
