/-
How the app adds the usage of the execution nodes to its own.

Every host with a node gets a task of its own, and the tasks finish in an order that the
world decides.  What a node reports, and whether its task comes to an end with it, the
world decides too.  Counts are far from the ends of an `i64`.  A cost is whatever can be
added: nothing is assumed of the addition, which for an `f64` rounds.
-/
import Diri.Node.Checkpoint

namespace Diri.App.Fleet

variable {κ : Type}

/-- The totals of a node. -/
structure NodeTotals (κ : Type) where
  inputTokens : Int
  outputTokens : Int
  cacheReadTokens : Int
  cacheWriteTokens : Int
  estimatedUsd : κ
  billedUsd : κ

structure UsageQueryResult (κ : Type) where
  byProvider : Table ProviderKind (NodeTotals κ)
  authoritativeBillingAvailable : Bool

structure UsageTotals (κ : Type) where
  inputTokens : Int
  outputTokens : Int
  cacheReadTokens : Int
  cacheWriteTokens : Int
  cost : κ
  deriving DecidableEq

structure ProviderUsage (κ : Type) where
  session : UsageTotals κ
  today : UsageTotals κ
  month : UsageTotals κ
  deriving DecidableEq

structure UsageSnapshot (κ : Type) where
  claude : ProviderUsage κ
  codex : ProviderUsage κ
  sessionCost : Option κ
  sessionStartedAt : Option Int
  sessionEndsAt : Option Int
  sessionRemainingSeconds : Option Int
  updatedAt : Int

def UsageTotals.add [Add κ] (totals rhs : UsageTotals κ) : UsageTotals κ where
  inputTokens := totals.inputTokens + rhs.inputTokens
  outputTokens := totals.outputTokens + rhs.outputTokens
  cacheReadTokens := totals.cacheReadTokens + rhs.cacheReadTokens
  cacheWriteTokens := totals.cacheWriteTokens + rhs.cacheWriteTokens
  cost := totals.cost + rhs.cost

def convert (totals : NodeTotals κ) (authoritative : Bool) : UsageTotals κ where
  inputTokens := totals.inputTokens
  outputTokens := totals.outputTokens
  cacheReadTokens := totals.cacheReadTokens
  cacheWriteTokens := totals.cacheWriteTokens
  cost := if authoritative then totals.billedUsd else totals.estimatedUsd

/-- What a node reports of the usage of one provider. -/
def UsageQueryResult.totals (result : UsageQueryResult κ) (provider : ProviderKind) :
    Option (UsageTotals κ) :=
  (result.byProvider.lookup provider).map (convert · result.authoritativeBillingAvailable)

/-- One part of `merge_window`. -/
def UsageTotals.addReported [Add κ] (totals : UsageTotals κ) :
    Option (UsageTotals κ) → UsageTotals κ
  | some reported => totals.add reported
  | none => totals

def mergeWindow [Add κ] (destination : ProviderUsage κ) (today month : UsageQueryResult κ)
    (provider : ProviderKind) : ProviderUsage κ :=
  { destination with
    today := destination.today.addReported (today.totals provider)
    month := destination.month.addReported (month.totals provider) }

/-! ### Tasks -/

structure HostNodeConfig where
  endpoint : String
  tokenFile : String
  nodeId : Option String
  deriving DecidableEq, Repr

/-- A host of the catalog, and how far its task gets. -/
structure FleetHost where
  id : String
  node : Option HostNodeConfig
  /-- The task panics. -/
  panics : Bool
  /-- The task is done within four seconds. -/
  timely : Bool
  /-- `NodeClient::from_host` returns a client. -/
  client : Bool
  /-- The node answers the query for today. -/
  today : Bool
  /-- And the one for the month. -/
  month : Bool
  deriving DecidableEq, Repr

/-- What a node reports when it is asked. -/
structure Reports (κ : Type) where
  today : UsageQueryResult κ
  month : UsageQueryResult κ

/-- `none` is a task that panicked. -/
abbrev JoinResult (κ : Type) : Type := Option (Option (Reports κ))

/-- What `join_next` returns of a task. -/
def FleetHost.joined (host : FleetHost) (reports : Reports κ) : JoinResult κ :=
  if host.panics then none
  else some (if host.timely ∧ host.client ∧ host.today ∧ host.month then some reports else none)

/-- The loop over the tasks, in the order in which they finish. -/
def drain [Add κ] (snapshot : UsageSnapshot κ) : List (JoinResult κ) → UsageSnapshot κ
  | some (some reports) :: rest =>
    drain { snapshot with
      claude := mergeWindow snapshot.claude reports.today reports.month .claude
      codex := mergeWindow snapshot.codex reports.today reports.month .codex } rest
  | _ => snapshot

abbrev Task : Type := FleetHost × Nat

def spawned (hosts : List FleetHost) : List Task :=
  hosts.zipIdx.filter fun task => task.1.node.isSome

/-- A catalog, and its tasks in the order in which they finish. -/
structure FleetRun where
  hosts : List FleetHost
  finished : List Task
  order : finished.Perm (spawned hosts)

/-- `reports` has what the node of the host at each place of the catalog reports. -/
def mergeFleetUsage [Add κ] (snapshot : UsageSnapshot κ) (run : FleetRun)
    (reports : Nat → Reports κ) : UsageSnapshot κ :=
  drain snapshot (run.finished.map fun task => task.1.joined (reports task.2))

end Diri.App.Fleet
