/-
What a node answers when it is asked for the usage in its ledger.

The counts and the costs come from the database, over all that the query selects and then for
each provider.  Whether a bill is among what the query selects is asked for all providers at
once.

A cost is whatever can be added up, and how the database adds it up is an argument: nothing is
known of a sum but that a sum of nothing, which is `NULL`, is made zero.
-/
import Diri.App.Fleet
import Diri.Node.Usage

namespace Diri.Ledger

open App.Fleet (NodeTotals)

variable {κ : Type}

/-- A row of `usage_events`. -/
structure LedgerRow (κ : Type) extends UsageEvent where
  estimatedUsd : Option κ
  billedUsd : Option κ

structure UsageQueryParams where
  fromTime : Option Int := none
  toTime : Option Int := none
  provider : Option ProviderKind := none
  profileId : Option String := none
  sessionId : Option String := none
  deriving DecidableEq, Repr

/-- The `WHERE` that all statements share, for a provider or for every one. -/
def UsageQueryParams.selects (query : UsageQueryParams) (provider : Option ProviderKind)
    (row : LedgerRow κ) : Bool :=
  query.fromTime.all (fun time => time ≤ row.occurredAt) &&
    query.toTime.all (fun time => row.occurredAt < time) &&
    provider.all (fun kind => row.provider = kind) &&
    query.profileId.all (fun profile => row.profileId = some profile) &&
    query.sessionId.all fun session => row.sessionId = some session

structure UsageTotals (κ : Type) extends NodeTotals κ where
  events : Nat

structure UsageQueryResult (κ : Type) where
  nodeId : String
  totals : UsageTotals κ
  byProvider : Table ProviderKind (UsageTotals κ)
  authoritativeBillingAvailable : Bool
  updatedAt : Int

section

variable [Zero κ] (sum : List κ → κ)

/-- `COALESCE(SUM(..), 0.0)`. -/
def coalescedSum (costs : List κ) : κ := if costs.isEmpty then 0 else sum costs

def aggregate (rows : List (LedgerRow κ)) (query : UsageQueryParams)
    (providerOverride : Option ProviderKind) : UsageTotals κ :=
  let selected := rows.filter (query.selects (providerOverride <|> query.provider))
  { inputTokens := (selected.map fun row => row.inputTokens).sum
    outputTokens := (selected.map fun row => row.outputTokens).sum
    cacheReadTokens := (selected.map fun row => row.cacheReadTokens).sum
    cacheWriteTokens := (selected.map fun row => row.cacheWriteTokens).sum
    estimatedUsd := coalescedSum sum (selected.filterMap LedgerRow.estimatedUsd)
    billedUsd := coalescedSum sum (selected.filterMap LedgerRow.billedUsd)
    events := selected.length }

/-- The totals of a provider, unless it has no events. -/
def addProvider (rows : List (LedgerRow κ)) (query : UsageQueryParams)
    (byProvider : Table ProviderKind (UsageTotals κ)) (kind : ProviderKind) :
    Table ProviderKind (UsageTotals κ) :=
  let totals := aggregate sum rows query (some kind)
  if totals.events ≠ 0 then byProvider.insert kind totals else byProvider

def query (nodeId : String) (now : Int) (rows : List (LedgerRow κ)) (query : UsageQueryParams) :
    UsageQueryResult κ where
  nodeId := nodeId
  totals := aggregate sum rows query none
  byProvider := [ProviderKind.claude, .codex].foldl (addProvider sum rows query) ∅
  authoritativeBillingAvailable :=
    rows.any fun row => row.billedUsd.isSome && query.selects query.provider row
  updatedAt := now

end

/-- What the app takes of the answer. -/
def UsageQueryResult.received (result : UsageQueryResult κ) : App.Fleet.UsageQueryResult κ where
  byProvider := result.byProvider.mapValues fun _ totals => totals.toNodeTotals
  authoritativeBillingAvailable := result.authoritativeBillingAvailable

end Diri.Ledger
