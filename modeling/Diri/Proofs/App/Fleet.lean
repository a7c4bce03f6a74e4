/-
What the merged usage of the fleet is made of.

The loop stops at the first task that did not come to an end with its reports, so it merges
the hosts that finish before any other host fails.  These are all that answered exactly if
no failing host finishes before an answering one.
-/
import Diri.App.Fleet
import Mathlib.Algebra.BigOperators.Group.List.Basic

namespace Diri.App.Fleet

open List

variable {κ : Type}

inductive Counter
  | input
  | output
  | cacheRead
  | cacheWrite

inductive Window
  | today
  | month

def UsageTotals.count (totals : UsageTotals κ) : Counter → Int
  | .input => totals.inputTokens
  | .output => totals.outputTokens
  | .cacheRead => totals.cacheReadTokens
  | .cacheWrite => totals.cacheWriteTokens

def UsageSnapshot.provider (snapshot : UsageSnapshot κ) : ProviderKind → ProviderUsage κ
  | .claude => snapshot.claude
  | .codex => snapshot.codex

def ProviderUsage.window (usage : ProviderUsage κ) : Window → UsageTotals κ
  | .today => usage.today
  | .month => usage.month

/-- What a node reports of a window of a provider. -/
def Reports.totals (reports : Reports κ) (provider : ProviderKind) : Window → Option (UsageTotals κ)
  | .today => reports.today.totals provider
  | .month => reports.month.totals provider

/-- The node answered, and its task came to an end with that. -/
def FleetHost.Answers (host : FleetHost) : Prop :=
  host.panics = false ∧ host.timely ∧ host.client ∧ host.today ∧ host.month

instance (host : FleetHost) : Decidable host.Answers := inferInstanceAs (Decidable (_ ∧ _))

def answered (reports : Nat → Reports κ) (tasks : List Task) : List (Reports κ) :=
  (tasks.filter fun task => task.1.Answers).map fun task => reports task.2

def totalsOf (provider : ProviderKind) (window : Window) (reports : List (Reports κ)) :
    List (UsageTotals κ) :=
  reports.filterMap (·.totals provider window)

/-- The local usage and that of exactly the hosts that answered.  The counts are sums, in
whatever order the tasks finish; the costs are added in that order. -/
structure PlusAnswered [Add κ] (snapshot : UsageSnapshot κ) (run : FleetRun)
    (reports : Nat → Reports κ) (merged : UsageSnapshot κ) : Prop where
  counts : ∀ provider window counter,
    ((merged.provider provider).window window).count counter =
      ((snapshot.provider provider).window window).count counter +
        ((totalsOf provider window (answered reports (spawned run.hosts))).map
          (·.count counter)).sum
  costs : ∀ provider window,
    ((merged.provider provider).window window).cost =
      (totalsOf provider window (answered reports run.finished)).foldl (· + ·.cost)
        ((snapshot.provider provider).window window).cost
  session : ∀ provider, (merged.provider provider).session = (snapshot.provider provider).session
  rest : (merged.sessionCost, merged.sessionStartedAt, merged.sessionEndsAt,
      merged.sessionRemainingSeconds, merged.updatedAt) =
    (snapshot.sessionCost, snapshot.sessionStartedAt, snapshot.sessionEndsAt,
      snapshot.sessionRemainingSeconds, snapshot.updatedAt)

/-! ### The loop -/

/-- One turn of the loop. -/
def UsageSnapshot.merge [Add κ] (snapshot : UsageSnapshot κ) (reports : Reports κ) :
    UsageSnapshot κ :=
  { snapshot with
    claude := mergeWindow snapshot.claude reports.today reports.month .claude
    codex := mergeWindow snapshot.codex reports.today reports.month .codex }

/-- The tasks that finish before any that fails. -/
def prompt (tasks : List Task) : List Task := tasks.takeWhile fun task => task.1.Answers

theorem joined_of_answers {host : FleetHost} (h : host.Answers) (reports : Reports κ) :
    host.joined reports = some (some reports) := by
  obtain ⟨hpanics, hdone⟩ := h
  unfold FleetHost.joined
  rw [hpanics, if_neg Bool.false_ne_true, if_pos hdone]

theorem joined_of_not_answers {host : FleetHost} (h : ¬host.Answers) (reports : Reports κ) :
    host.joined reports = none ∨ host.joined reports = some none := by
  unfold FleetHost.joined
  by_cases hpanics : host.panics = true
  · rw [if_pos hpanics]
    exact .inl rfl
  · rw [if_neg hpanics, if_neg fun hdone => h ⟨Bool.not_eq_true _ ▸ hpanics, hdone⟩]
    exact .inr rfl

theorem prompt_cons_of_answers {task : Task} (h : task.1.Answers) (rest : List Task) :
    prompt (task :: rest) = task :: prompt rest :=
  takeWhile_cons_of_pos (decide_eq_true h)

theorem prompt_cons_of_not_answers {task : Task} (h : ¬task.1.Answers) (rest : List Task) :
    prompt (task :: rest) = [] :=
  takeWhile_cons_of_neg (by simpa using h)

theorem drain_finished [Add κ] (reports : Nat → Reports κ) (tasks : List Task)
    (snapshot : UsageSnapshot κ) :
    drain snapshot (tasks.map fun task => task.1.joined (reports task.2)) =
      ((prompt tasks).map fun task => reports task.2).foldl UsageSnapshot.merge snapshot := by
  induction tasks generalizing snapshot with
  | nil => rfl
  | cons task rest ih =>
    by_cases hanswers : task.1.Answers
    · rw [map_cons, joined_of_answers hanswers, prompt_cons_of_answers hanswers]
      exact ih _
    rw [map_cons, prompt_cons_of_not_answers hanswers]
    obtain hjoined | hjoined := joined_of_not_answers hanswers (reports task.2)
    · rw [hjoined]
      rfl
    · rw [hjoined]
      rfl

theorem mergeFleetUsage_prompt [Add κ] (snapshot : UsageSnapshot κ) (run : FleetRun)
    (reports : Nat → Reports κ) : mergeFleetUsage snapshot run reports =
      ((prompt run.finished).map fun task => reports task.2).foldl UsageSnapshot.merge snapshot :=
  drain_finished reports run.finished snapshot

/-! ### What is merged -/

section Merged

variable [Add κ]

theorem window_merge (snapshot : UsageSnapshot κ) (reports : Reports κ) (provider : ProviderKind)
    (window : Window) : ((snapshot.merge reports).provider provider).window window =
      ((snapshot.provider provider).window window).addReported
        (reports.totals provider window) := by
  cases provider with
  | claude | codex => cases window with | today => rfl | month => rfl

theorem count_add (totals rhs : UsageTotals κ) (counter : Counter) :
    (totals.add rhs).count counter = totals.count counter + rhs.count counter := by
  cases counter with
  | input | output | cacheRead | cacheWrite => rfl

theorem window_foldl (reports : List (Reports κ)) (snapshot : UsageSnapshot κ)
    (provider : ProviderKind) (window : Window) :
    ((reports.foldl UsageSnapshot.merge snapshot).provider provider).window window =
      (totalsOf provider window reports).foldl UsageTotals.add
        ((snapshot.provider provider).window window) := by
  induction reports generalizing snapshot with
  | nil => rfl
  | cons first rest ih =>
    rw [foldl_cons, ih, window_merge]
    unfold totalsOf
    rw [filterMap_cons]
    cases first.totals provider window with
    | none | some totals => rfl

theorem count_foldl (added : List (UsageTotals κ)) (totals : UsageTotals κ) (counter : Counter) :
    (added.foldl UsageTotals.add totals).count counter =
      totals.count counter + (added.map (·.count counter)).sum := by
  induction added generalizing totals with
  | nil => simp
  | cons first rest ih =>
    rw [foldl_cons, ih, count_add, map_cons, sum_cons, Int.add_assoc]

theorem cost_foldl (added : List (UsageTotals κ)) (totals : UsageTotals κ) :
    (added.foldl UsageTotals.add totals).cost = added.foldl (· + ·.cost) totals.cost := by
  induction added generalizing totals with
  | nil => rfl
  | cons first rest ih => exact ih (totals.add first)

theorem session_foldl (reports : List (Reports κ)) (snapshot : UsageSnapshot κ)
    (provider : ProviderKind) :
    ((reports.foldl UsageSnapshot.merge snapshot).provider provider).session =
      (snapshot.provider provider).session := by
  induction reports generalizing snapshot with
  | nil => rfl
  | cons first rest ih =>
    rw [foldl_cons, ih]
    cases provider with
    | claude | codex => rfl

theorem rest_foldl (reports : List (Reports κ)) (snapshot : UsageSnapshot κ) :
    let merged := reports.foldl UsageSnapshot.merge snapshot
    (merged.sessionCost, merged.sessionStartedAt, merged.sessionEndsAt,
      merged.sessionRemainingSeconds, merged.updatedAt) =
    (snapshot.sessionCost, snapshot.sessionStartedAt, snapshot.sessionEndsAt,
      snapshot.sessionRemainingSeconds, snapshot.updatedAt) := by
  induction reports generalizing snapshot with
  | nil => rfl
  | cons first rest ih => exact ih (snapshot.merge first)

end Merged

/-! ### Who answered -/

/-- No failing host finishes before an answering one. -/
def FailuresLast (tasks : List Task) : Prop :=
  tasks.Pairwise fun earlier later => later.1.Answers → earlier.1.Answers

/-- Then the prompt hosts are those that answered, and otherwise they are fewer. -/
theorem prompt_cases (tasks : List Task) :
    (FailuresLast tasks ∧ prompt tasks = tasks.filter fun task => task.1.Answers) ∨
    (¬FailuresLast tasks ∧
      (prompt tasks).length < (tasks.filter fun task => task.1.Answers).length) := by
  induction tasks with
  | nil => exact .inl ⟨.nil, rfl⟩
  | cons task rest ih =>
    unfold FailuresLast at ih ⊢
    rw [pairwise_cons]
    by_cases hanswers : task.1.Answers
    · have hkept : ((task :: rest).filter fun task => task.1.Answers) =
          task :: rest.filter fun task => task.1.Answers :=
        filter_cons_of_pos (decide_eq_true hanswers)
      rw [prompt_cons_of_answers hanswers, hkept]
      rcases ih with ⟨hlast, hprompt⟩ | ⟨hlast, hfewer⟩
      · exact .inl ⟨⟨fun _ _ _ => hanswers, hlast⟩, congrArg _ hprompt⟩
      · exact .inr ⟨fun hboth => hlast hboth.2, Nat.succ_lt_succ hfewer⟩
    have hdropped : ((task :: rest).filter fun task => task.1.Answers) =
        rest.filter fun task => task.1.Answers :=
      filter_cons_of_neg (by simpa using hanswers)
    rw [prompt_cons_of_not_answers hanswers, hdropped]
    by_cases hlater : ∃ later ∈ rest, later.1.Answers
    · obtain ⟨later, hmem, hlate⟩ := hlater
      refine .inr ⟨fun hboth => hanswers (hboth.1 later hmem hlate), ?_⟩
      exact length_pos_of_mem (List.mem_filter.mpr ⟨hmem, decide_eq_true hlate⟩)
    have hnone : ∀ later ∈ rest, ¬later.1.Answers := by
      intro later hmem hlate
      exact hlater ⟨later, hmem, hlate⟩
    refine .inl ⟨⟨fun later hmem hlate => absurd hlate (hnone later hmem), ?_⟩, ?_⟩
    · exact pairwise_of_forall_mem_list fun _ _ later hmem hlate =>
        absurd hlate (hnone later hmem)
    rw [List.filter_eq_nil_iff.mpr]
    intro later hmem
    simpa using hnone later hmem

theorem counts_perm {tasks tasks' : List Task} (h : tasks.Perm tasks') (reports : Nat → Reports κ)
    (provider : ProviderKind) (window : Window) (counter : Counter) :
    ((totalsOf provider window (answered reports tasks)).map (·.count counter)).sum =
      ((totalsOf provider window (answered reports tasks')).map (·.count counter)).sum :=
  List.Perm.sum_eq ((((h.filter _).map _).filterMap _).map _)

def nothing [Inhabited κ] : UsageTotals κ := ⟨0, 0, 0, 0, default⟩

/-- A node that used one token of input of Claude today. -/
def oneToken [Inhabited κ] : Reports κ where
  today := {
    byProvider := AList.singleton .claude ⟨1, 0, 0, 0, default, default⟩
    authoritativeBillingAvailable := false }
  month := {
    byProvider := ∅
    authoritativeBillingAvailable := false }

theorem count_oneToken [Inhabited κ] (tasks : List Task) :
    ((totalsOf .claude .today (tasks.map fun _ => (oneToken : Reports κ))).map
      (·.count .input)).sum = tasks.length := by
  induction tasks with
  | nil => rfl
  | cons task rest ih =>
    have hfirst : ((totalsOf .claude .today
        ((task :: rest).map fun _ => (oneToken : Reports κ))).map (·.count .input)).sum =
        1 + ((totalsOf .claude .today (rest.map fun _ => (oneToken : Reports κ))).map
          (·.count .input)).sum := rfl
    rw [hfirst, ih, length_cons]
    omega

/-- The merged usage is right whatever was used, exactly if no host that fails finishes before
one that answers. -/
theorem mergeFleetUsage_plusAnswered [Add κ] [Inhabited κ] (run : FleetRun) :
    (∀ (snapshot : UsageSnapshot κ) (reports : Nat → Reports κ),
      PlusAnswered snapshot run reports (mergeFleetUsage snapshot run reports)) ↔
      FailuresLast run.finished := by
  constructor
  · intro hright
    obtain ⟨hlast, -⟩ | ⟨-, hfewer⟩ := prompt_cases run.finished
    · exact hlast
    have hcounts := (hright ⟨⟨nothing, nothing, nothing⟩, ⟨nothing, nothing, nothing⟩, none,
      none, none, none, 0⟩ fun _ => oneToken).counts .claude .today .input
    rw [mergeFleetUsage_prompt, window_foldl, count_foldl, ← counts_perm run.order,
      count_oneToken] at hcounts
    unfold answered at hcounts
    rw [count_oneToken] at hcounts
    omega
  intro hlast snapshot reports
  have hprompt : prompt run.finished = run.finished.filter fun task => task.1.Answers := by
    obtain ⟨-, hprompt⟩ | ⟨hnot, -⟩ := prompt_cases run.finished
    · exact hprompt
    · exact absurd hlast hnot
  rw [mergeFleetUsage_prompt, hprompt]
  refine ⟨fun provider window counter => ?_, fun provider window => ?_,
    session_foldl _ snapshot, rest_foldl _ snapshot⟩
  · rw [window_foldl, count_foldl, ← counts_perm run.order]
    rfl
  · rw [window_foldl, cost_foldl]
    rfl

/-- One host cannot be reached, and the other one answers after that. -/
def unreachableFirst : FleetRun where
  hosts := [
    ⟨"attic", some ⟨"tcp://10.0.0.1:7337", "attic.token", none⟩, false, true, true, false, false⟩,
    ⟨"cellar", some ⟨"tcp://10.0.0.2:7337", "cellar.token", none⟩, false, true, true, true, true⟩]
  finished := [
    (⟨"attic", some ⟨"tcp://10.0.0.1:7337", "attic.token", none⟩, false, true, true, false,
      false⟩, 0),
    (⟨"cellar", some ⟨"tcp://10.0.0.2:7337", "cellar.token", none⟩, false, true, true, true,
      true⟩, 1)]
  order := .refl _

theorem unreachableFirst_hides_cellar :
    ¬∀ (snapshot : UsageSnapshot Int) (reports : Nat → Reports Int),
      PlusAnswered snapshot unreachableFirst reports
        (mergeFleetUsage snapshot unreachableFirst reports) := by
  intro hright
  have hcounts := (hright ⟨⟨⟨0, 0, 0, 0, 0⟩, ⟨0, 0, 0, 0, 0⟩, ⟨0, 0, 0, 0, 0⟩⟩,
    ⟨⟨0, 0, 0, 0, 0⟩, ⟨0, 0, 0, 0, 0⟩, ⟨0, 0, 0, 0, 0⟩⟩, none, none, none, none, 0⟩
    fun _ => oneToken).counts .claude .today .input
  have hmissed : (0 : Int) = 0 + 1 := hcounts
  omega

end Diri.App.Fleet
