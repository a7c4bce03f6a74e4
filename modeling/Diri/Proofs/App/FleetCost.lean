/-
What the merged usage takes the cost of a provider to be.

The bills of a provider are taken, or its estimates, as the whole answer has a bill or not.
So the estimates are lost to a provider without a bill of its own as soon as the other one
has a bill; its cost is then zero.
-/
import Diri.Node.Ledger

namespace Diri.Ledger

open List

variable {κ : Type} {rows : List (LedgerRow κ)} {query : UsageQueryParams}
  {provider : ProviderKind}

/-- A query that is not for one provider, as those of the app are. -/
def UsageQueryParams.window (query : UsageQueryParams) : UsageQueryParams :=
  { query with provider := none }

def eventsOf (query : UsageQueryParams) (provider : ProviderKind) (rows : List (LedgerRow κ)) :
    List (LedgerRow κ) :=
  rows.filter (query.selects (some provider))

def HasBill (query : UsageQueryParams) (provider : ProviderKind) (rows : List (LedgerRow κ)) :
    Prop :=
  ∃ row ∈ eventsOf query provider rows, row.billedUsd.isSome

/-- A bill is among what is selected for all providers. -/
def Billed (query : UsageQueryParams) (rows : List (LedgerRow κ)) : Prop :=
  ∃ row ∈ rows, query.window.selects none row ∧ row.billedUsd.isSome

theorem HasBill.billed (h : HasBill query provider rows) : Billed query rows := by
  obtain ⟨row, hrow, hbill⟩ := h
  obtain ⟨hmem, hselects⟩ := mem_filter.mp hrow
  refine ⟨row, hmem, ?_, hbill⟩
  simp only [UsageQueryParams.selects, UsageQueryParams.window, Bool.and_eq_true] at hselects ⊢
  exact ⟨⟨⟨hselects.1.1.1, rfl⟩, hselects.1.2⟩, hselects.2⟩

theorem not_billed_iff : ¬Billed query rows ↔
    ∀ row ∈ rows, query.window.selects none row → row.billedUsd = none := by
  simp [Billed]

/-! ### Other bills -/

/-- Other bills for all but one provider. -/
def rebill (provider : ProviderKind) (bills : LedgerRow κ → Option κ) (row : LedgerRow κ) :
    LedgerRow κ :=
  if row.provider = provider then row else { row with billedUsd := bills row }

theorem rebill_selects (bills : LedgerRow κ → Option κ) (row : LedgerRow κ)
    (kind : Option ProviderKind) :
    query.selects kind (rebill provider bills row) = query.selects kind row := by
  unfold rebill
  split
  · rfl
  · rfl

theorem eventsOf_rebill (query : UsageQueryParams) (provider : ProviderKind)
    (rows : List (LedgerRow κ)) (bills : LedgerRow κ → Option κ) :
    eventsOf query provider (rows.map (rebill provider bills)) = eventsOf query provider rows := by
  unfold eventsOf
  rw [filter_map]
  have hsame : (query.selects (some provider)) ∘ rebill provider bills =
      query.selects (some provider) (κ := κ) := funext fun row => rebill_selects bills row _
  rw [hsame]
  refine (map_congr_left fun row hrow => ?_).trans (map_id _)
  have hselects := (mem_filter.mp hrow).2
  simp only [UsageQueryParams.selects, Bool.and_eq_true, Option.all_some, decide_eq_true_eq]
    at hselects
  exact if_pos hselects.1.1.2

/-! ### The merge -/

/-- What a merge adds to a cost. -/
def plus [Add κ] (cost : κ) : Option κ → κ
  | none => cost
  | some added => cost + added

theorem addReported_cost [Add κ] (totals : App.Fleet.UsageTotals κ)
    (reported : Option (App.Fleet.UsageTotals κ)) : (totals.addReported reported).cost =
      plus totals.cost (reported.map fun totals => totals.cost) := by
  cases reported with
  | none | some reported => rfl

/-! ### The answer -/

variable [Zero κ] {sum : List κ → κ}

/-- What some events cost: by their bills if one of them has a bill, else by estimate. -/
def costOf (sum : List κ → κ) (events : List (LedgerRow κ)) : κ :=
  if events.any fun row => row.billedUsd.isSome then
    coalescedSum sum (events.filterMap LedgerRow.billedUsd)
  else coalescedSum sum (events.filterMap LedgerRow.estimatedUsd)

/-- The cost that the app is to add, if there is anything to be added. -/
def costDue (sum : List κ → κ) (query : UsageQueryParams) (provider : ProviderKind)
    (rows : List (LedgerRow κ)) : Option κ :=
  match eventsOf query provider rows with
  | [] => none
  | row :: events => some (costOf sum (row :: events))

def costAdded (result : App.Fleet.UsageQueryResult κ) (provider : ProviderKind) : Option κ :=
  (result.totals provider).map fun totals => totals.cost

/-- The provider has no events, or one with a bill, or no provider has a bill, or its estimates
come to zero. -/
def OwnBill (sum : List κ → κ) (query : UsageQueryParams) (provider : ProviderKind)
    (rows : List (LedgerRow κ)) : Prop :=
  eventsOf query provider rows = [] ∨
    (∃ row ∈ eventsOf query provider rows, row.billedUsd.isSome) ∨
    (∀ row ∈ rows, query.window.selects none row → row.billedUsd = none) ∨
    coalescedSum sum ((eventsOf query provider rows).filterMap LedgerRow.estimatedUsd) = 0

theorem lookup_addProvider (byProvider : Table ProviderKind (UsageTotals κ)) (kind : ProviderKind) :
    (addProvider sum rows query byProvider kind).lookup provider =
      if kind = provider ∧ eventsOf query kind rows ≠ [] then
        some (aggregate sum rows query (some kind)) else byProvider.lookup provider := by
  have hevents : (aggregate sum rows query (some kind)).events ≠ 0 ↔
      eventsOf query kind rows ≠ [] := not_congr length_eq_zero_iff
  unfold addProvider
  by_cases hnone : eventsOf query kind rows = []
  · rw [if_neg (mt hevents.mp (not_not_intro hnone)), if_neg fun h => h.2 hnone]
  rw [if_pos (hevents.mpr hnone)]
  by_cases hkind : kind = provider
  · rw [if_pos ⟨hkind, hnone⟩, hkind, AList.lookup_insert]
  · rw [if_neg fun h => hkind h.1, AList.lookup_insert_ne (Ne.symm hkind)]

variable (nodeId : String)

theorem lookup_byProvider (now : Int) :
    (Ledger.query sum nodeId now rows query).byProvider.lookup provider =
      if eventsOf query provider rows ≠ [] then some (aggregate sum rows query (some provider))
      else none := by
  show (addProvider sum rows query (addProvider sum rows query ∅ .claude) .codex).lookup
    provider = _
  rw [lookup_addProvider, lookup_addProvider, AList.lookup_empty]
  cases provider with
  | claude | codex => simp

theorem authoritative_window (now : Int) :
    (Ledger.query sum nodeId now rows query.window).authoritativeBillingAvailable = true ↔
      Billed query rows := by
  show (rows.any fun row => row.billedUsd.isSome && query.window.selects none row) = true ↔ _
  simp [Billed, and_comm]

theorem costAdded_none (now : Int) (hnone : eventsOf query provider rows = []) :
    costAdded (Ledger.query sum nodeId now rows query.window).received provider = none := by
  unfold costAdded App.Fleet.UsageQueryResult.totals UsageQueryResult.received
  have hnone' : eventsOf query.window provider rows = [] := hnone
  rw [Table.lookup_mapValues, lookup_byProvider, if_neg (not_not_intro hnone')]
  rfl

theorem costAdded_some (now : Int) (hsome : eventsOf query provider rows ≠ []) :
    costAdded (Ledger.query sum nodeId now rows query.window).received provider =
      some (if (Ledger.query sum nodeId now rows query.window).authoritativeBillingAvailable then
        coalescedSum sum ((eventsOf query provider rows).filterMap LedgerRow.billedUsd)
      else coalescedSum sum ((eventsOf query provider rows).filterMap LedgerRow.estimatedUsd)) := by
  unfold costAdded App.Fleet.UsageQueryResult.totals UsageQueryResult.received
  have hsome' : eventsOf query.window provider rows ≠ [] := hsome
  rw [Table.lookup_mapValues, lookup_byProvider, if_pos hsome']
  rfl

theorem costDue_some (hsome : eventsOf query provider rows ≠ []) :
    costDue sum query provider rows = some (costOf sum (eventsOf query provider rows)) := by
  unfold costDue
  cases hevents : eventsOf query provider rows with
  | nil => exact absurd hevents hsome
  | cons row events => rfl

theorem HasBill.cost (sum : List κ → κ) (nodeId : String) (now : Int)
    (h : HasBill query provider rows) :
    costAdded (Ledger.query sum nodeId now rows query.window).received provider =
        some (coalescedSum sum ((eventsOf query provider rows).filterMap LedgerRow.billedUsd)) ∧
      costDue sum query provider rows =
        some (coalescedSum sum ((eventsOf query provider rows).filterMap LedgerRow.billedUsd)) := by
  have hsome : eventsOf query provider rows ≠ [] := by
    obtain ⟨row, hrow, -⟩ := h
    exact List.ne_nil_of_mem hrow
  constructor
  · rw [costAdded_some nodeId now hsome, if_pos ((authoritative_window nodeId now).mpr h.billed)]
  · rw [costDue_some hsome, costOf, if_pos (any_eq_true.mpr h)]

open Classical in
/-- Without one its cost is the estimate, or zero if another provider has a bill. -/
theorem cost_of_no_bill (sum : List κ → κ) (nodeId : String) (now : Int)
    (hsome : eventsOf query provider rows ≠ []) (hbill : ¬HasBill query provider rows) :
    costAdded (Ledger.query sum nodeId now rows query.window).received provider =
        some (if Billed query rows then 0 else
          coalescedSum sum ((eventsOf query provider rows).filterMap LedgerRow.estimatedUsd)) ∧
      costDue sum query provider rows = some (coalescedSum sum
          ((eventsOf query provider rows).filterMap LedgerRow.estimatedUsd)) := by
  have hbills : (eventsOf query provider rows).filterMap LedgerRow.billedUsd = [] := by
    rw [filterMap_eq_nil_iff]
    intro row hrow
    exact Option.not_isSome_iff_eq_none.mp fun h => hbill ⟨row, hrow, h⟩
  constructor
  · rw [costAdded_some nodeId now hsome, hbills]
    congr 1
    exact if_congr (authoritative_window nodeId now) rfl rfl
  · rw [costDue_some hsome, costOf, if_neg fun h => hbill (any_eq_true.mp h)]

theorem ownBill_of_no_bill (hsome : eventsOf query provider rows ≠ [])
    (hbill : ¬HasBill query provider rows) : OwnBill sum query provider rows ↔ (Billed query rows →
      coalescedSum sum ((eventsOf query provider rows).filterMap LedgerRow.estimatedUsd) = 0) := by
  unfold OwnBill
  rw [← not_billed_iff, imp_iff_not_or]
  exact ⟨fun h => (h.resolve_left hsome).resolve_left hbill, fun h => .inr (.inr h)⟩

theorem cost_iff (sum : List κ → κ) (nodeId : String) (now : Int) (rows : List (LedgerRow κ))
    (query : UsageQueryParams) (provider : ProviderKind) :
    costAdded (Ledger.query sum nodeId now rows query.window).received provider =
        costDue sum query provider rows ↔ OwnBill sum query provider rows := by
  by_cases hsome : eventsOf query provider rows = []
  · refine iff_of_true ?_ (.inl hsome)
    rw [costAdded_none nodeId now hsome, costDue, hsome]
  by_cases hbill : HasBill query provider rows
  · obtain ⟨hadded, hdue⟩ := hbill.cost sum nodeId now
    exact iff_of_true (hadded.trans hdue.symm) (.inr (.inl hbill))
  obtain ⟨hadded, hdue⟩ := cost_of_no_bill sum nodeId now hsome hbill
  rw [hadded, hdue, ownBill_of_no_bill hsome hbill, Option.some_inj]
  by_cases hbilled : Billed query rows
  · rw [if_pos hbilled]
    exact ⟨fun h _ => h.symm, fun h => (h hbilled).symm⟩
  · rw [if_neg hbilled]
    exact iff_of_true rfl fun h => absurd h hbilled

/-- Other bills of the other provider change the cost just if they change whether it is right. -/
theorem rebill_cost_iff (sum : List κ → κ) (nodeId : String) (now : Int)
    (rows : List (LedgerRow κ)) (query : UsageQueryParams) (provider : ProviderKind)
    (bills : LedgerRow κ → Option κ) :
    costAdded (Ledger.query sum nodeId now (rows.map (rebill provider bills))
          query.window).received provider =
        costAdded (Ledger.query sum nodeId now rows query.window).received provider ↔
      (OwnBill sum query provider (rows.map (rebill provider bills)) ↔
        OwnBill sum query provider rows) := by
  have hevents := eventsOf_rebill query provider rows bills
  generalize rows.map (rebill provider bills) = rows' at *
  by_cases hsome : eventsOf query provider rows = []
  · have hsome' := hevents.trans hsome
    refine iff_of_true ?_ (iff_of_true (.inl hsome') (.inl hsome))
    rw [costAdded_none nodeId now hsome, costAdded_none nodeId now hsome']
  have hsome' := hevents.trans_ne hsome
  by_cases hbill : HasBill query provider rows
  · have hbill' : HasBill query provider rows' := by
      unfold HasBill
      rw [hevents]
      exact hbill
    refine iff_of_true ?_ (iff_of_true (.inr (.inl hbill')) (.inr (.inl hbill)))
    rw [(hbill.cost sum nodeId now).1, (hbill'.cost sum nodeId now).1, hevents]
  have hbill' : ¬HasBill query provider rows' := by
    unfold HasBill
    rw [hevents]
    exact hbill
  rw [(cost_of_no_bill sum nodeId now hsome hbill).1,
    (cost_of_no_bill sum nodeId now hsome' hbill').1, ownBill_of_no_bill hsome hbill,
    ownBill_of_no_bill hsome' hbill', hevents, Option.some_inj]
  generalize coalescedSum sum _ = estimate
  by_cases hbilled : Billed query rows
  · by_cases hbilled' : Billed query rows'
    · simp [hbilled, hbilled']
    · simp [hbilled, hbilled']
  by_cases hbilled' : Billed query rows'
  · simp [hbilled, hbilled', eq_comm]
  · simp [hbilled, hbilled']

/-- What a merge adds for a provider is what is due to it, just if it has no events, a bill of
its own, no bill beside it, or nothing estimated; and other bills of the other provider leave
it alone just if they leave that alone. -/
theorem fleet_cost_iff [Add κ] (sum : List κ → κ) (nodeId : String) (now : Int)
    (rows : List (LedgerRow κ)) (query : UsageQueryParams) (provider : ProviderKind) :
    (∀ (destination : App.Fleet.ProviderUsage κ) today month,
      (App.Fleet.mergeWindow destination today month provider).today.cost =
          plus destination.today.cost (costAdded today provider) ∧
        (App.Fleet.mergeWindow destination today month provider).month.cost =
          plus destination.month.cost (costAdded month provider)) ∧
    (costAdded (Ledger.query sum nodeId now rows query.window).received provider =
        costDue sum query provider rows ↔ OwnBill sum query provider rows) ∧
    ∀ bills : LedgerRow κ → Option κ,
      costAdded (Ledger.query sum nodeId now (rows.map (rebill provider bills))
          query.window).received provider =
        costAdded (Ledger.query sum nodeId now rows query.window).received provider ↔
      (OwnBill sum query provider (rows.map (rebill provider bills)) ↔
        OwnBill sum query provider rows) := by
  refine ⟨fun destination today month => ⟨addReported_cost _ _, addReported_cost _ _⟩, cost_iff sum
    nodeId now rows query provider, rebill_cost_iff sum nodeId now rows query provider⟩

/-- Claude has an estimate and no bill, Codex a bill. -/
def billedCodex : List (LedgerRow Int) :=
  [{ id := "request-1", occurredAt := 10, provider := .claude, profileId := none
     sessionId := none, model := none, inputTokens := 100, outputTokens := 20
     cacheReadTokens := 0, cacheWriteTokens := 0, estimatedUsd := some 5, billedUsd := none },
   { id := "request-2", occurredAt := 11, provider := .codex, profileId := none
     sessionId := none, model := none, inputTokens := 10, outputTokens := 2
     cacheReadTokens := 0, cacheWriteTokens := 0, estimatedUsd := some 1, billedUsd := some 3 }]

/-- Nothing is added for Claude, for which five is due; without the bill of Codex it is. -/
theorem estimate_lost :
    costAdded (Ledger.query List.sum "forge" 20 billedCodex { fromTime := some 0 }).received
        .claude = some 0 ∧
      costDue List.sum { fromTime := some 0 } .claude billedCodex = some 5 ∧
      costAdded (Ledger.query List.sum "forge" 20
          (billedCodex.map (rebill .claude fun _ => none)) { fromTime := some 0 }).received
        .claude = some 5 := by
  decide

end Diri.Ledger
