/-
What the windows of the shown usage are made of.

What the hours of a window come to is what its entries come to, so a window has, besides the
entries since it started, those of the same hour before that.  The session is made of the
entries in the last block of the hours there are, for the fold over the hours begins a block
where the partition does.
-/
import Diri.App.UsageHours
import Mathlib.Data.Finset.Sort
import Mathlib.Data.List.TakeWhile

namespace Diri.App

open List

open Fleet (UsageTotals ProviderUsage UsageSnapshot)

variable {κ : Type} {entries : List (UsageEntry κ)}

def kept (cutoffHour : Int) (entries : List (UsageEntry κ)) : List (UsageEntry κ) :=
  entries.filter fun entry => cutoffHour ≤ entry.hour

theorem kept_concat_old {cutoffHour : Int} (entries : List (UsageEntry κ)) {entry : UsageEntry κ}
    (h : entry.hour < cutoffHour) :
    kept cutoffHour (entries ++ [entry]) = kept cutoffHour entries := by
  simp [kept, h]

theorem kept_concat {cutoffHour : Int} (entries : List (UsageEntry κ)) {entry : UsageEntry κ}
    (h : ¬entry.hour < cutoffHour) :
    kept cutoffHour (entries ++ [entry]) = kept cutoffHour entries ++ [entry] := by
  simp [kept, not_lt.mp h]

/-! ### Windows -/

def since (startedAt : Int) (entries : List (UsageEntry κ)) : List (UsageEntry κ) :=
  entries.filter fun entry => startedAt ≤ entry.timestamp

/-- Those before it started in the same hour. -/
def sameHourBefore (startedAt : Int) (entries : List (UsageEntry κ)) : List (UsageEntry κ) :=
  entries.filter fun entry => entry.timestamp < startedAt && entry.hour = startedAt.tdiv 3600

/-! ### Blocks -/

def activeHours (entries : List (UsageEntry κ)) : List Int :=
  (entries.map UsageEntry.hour).toFinset.sort (· ≤ ·)

/-- The last of the blocks that these hours fall into from the left. -/
def lastBlock (entries : List (UsageEntry κ)) : Option (List Int) :=
  (blocks (fun first hour => hour < first + blockHours) (activeHours entries)).getLast?

/-- Whether an hour is in the block that another one begins. -/
def within (first entry : Int × UsageHourAgg κ) : Bool := entry.1 < first.1 + blockHours

theorem getLast_blocks {hours last : List (Int × UsageHourAgg κ)}
    (hascending : hours.Pairwise fun left right => left.1 < right.1)
    (hlast : (blocks within hours).getLast? = some last) :
    ∃ first rest, last = first :: rest ∧ last = hours.filter fun entry => first.1 ≤ entry.1 := by
  induction hours using blocks.induct within with
  | case1 =>
    rw [blocks] at hlast
    cases hlast
  | case2 first rest ih =>
    obtain ⟨hfirst, hrest⟩ := pairwise_cons.mp hascending
    have hsplit := takeWhile_append_dropWhile (p := within first) (l := rest)
    rw [blocks] at hlast
    cases hdrop : rest.dropWhile (within first) with
    | nil =>
      rw [hdrop, append_nil] at hsplit
      rw [hdrop, blocks, hsplit] at hlast
      obtain ⟨⟩ := hlast
      refine ⟨first, rest, rfl, (filter_eq_self.mpr fun entry hentry => ?_).symm⟩
      rcases mem_cons.mp hentry with rfl | hmem
      · exact decide_eq_true (le_refl _)
      · exact decide_eq_true (le_of_lt (hfirst entry hmem))
    | cons next others =>
      rw [hdrop] at hsplit ih
      rw [hdrop, blocks, getLast?_cons_cons, ← blocks] at hlast
      rw [← hsplit] at hrest hfirst
      obtain ⟨start, rest', hstart, hfilter⟩ := ih (pairwise_append.mp hrest).2.1 hlast
      have hmem : start ∈ next :: others := by
        have hin : start ∈ last := by
          rw [hstart]
          exact mem_cons_self
        rw [hfilter] at hin
        exact (mem_filter.mp hin).1
      have hbefore : ∀ entry ∈ first :: rest.takeWhile (within first), ¬start.1 ≤ entry.1 := by
        intro entry hentry
        rcases mem_cons.mp hentry with rfl | htake
        · exact not_le.mpr (hfirst start (mem_append_right _ hmem))
        · exact not_le.mpr ((pairwise_append.mp hrest).2.2 entry htake start hmem)
      refine ⟨start, rest', hstart, hfilter.trans ?_⟩
      have hnone : (first :: rest.takeWhile (within first)).filter
          (fun entry => start.1 ≤ entry.1) = [] :=
        filter_eq_nil_iff.mpr fun entry hentry h =>
          hbefore entry hentry (of_decide_eq_true h)
      rw [← hsplit, ← cons_append, filter_append, hnone, nil_append]

/-! ### Sums -/

variable [AddCommMonoid κ]

instance : AddCommMonoid (UsageHourAgg κ) where
  add_assoc _ _ _ := UsageHourAgg.ext (add_assoc _ _ _) (add_assoc _ _ _) (add_assoc _ _ _)
    (add_assoc _ _ _) (add_assoc _ _ _)
  zero_add _ := UsageHourAgg.ext (zero_add _) (zero_add _) (zero_add _) (zero_add _) (zero_add _)
  add_zero _ := UsageHourAgg.ext (add_zero _) (add_zero _) (add_zero _) (add_zero _) (add_zero _)
  add_comm _ _ := UsageHourAgg.ext (add_comm _ _) (add_comm _ _) (add_comm _ _) (add_comm _ _)
    (add_comm _ _)
  nsmul := nsmulRec

def UsageHourAgg.totals (aggregate : UsageHourAgg κ) : UsageTotals κ :=
  ⟨aggregate.i, aggregate.o, aggregate.cr, aggregate.cw, aggregate.c⟩

theorem addHour_totals (totals aggregate : UsageHourAgg κ) :
    addHour totals.totals aggregate = (totals + aggregate).totals := rfl

theorem foldl_addHour (totals : UsageHourAgg κ) (hours : List (Int × UsageHourAgg κ)) :
    hours.foldl (fun totals entry => addHour totals entry.2) totals.totals =
      (totals + (hours.map Prod.snd).sum).totals := by
  induction hours generalizing totals with
  | nil => simp
  | cons entry hours ih =>
    rw [foldl_cons, addHour_totals, ih, map_cons, sum_cons, add_assoc]

/-! ### Entries by the hour -/

def total (entries : List (UsageEntry κ)) : UsageHourAgg κ :=
  (entries.map UsageEntry.aggregate).sum

variable (cutoffHour : Int)

theorem ofEntries_concat (entries : List (UsageEntry κ)) (entry : UsageEntry κ) :
    UsageHours.ofEntries cutoffHour (entries ++ [entry]) =
      (UsageHours.ofEntries cutoffHour entries).count cutoffHour entry := by
  unfold UsageHours.ofEntries
  rw [foldl_append]
  rfl

theorem sumOver_ofEntries (entries : List (UsageEntry κ)) (keep : Int → Bool) :
    (UsageHours.ofEntries cutoffHour entries).sumOver keep =
      total ((kept cutoffHour entries).filter fun entry => keep entry.hour) := by
  induction entries using reverseRecOn with
  | nil => rfl
  | append_singleton entries entry ih =>
    rw [ofEntries_concat, UsageHours.count]
    by_cases hold : entry.hour < cutoffHour
    · rw [if_pos hold, kept_concat_old entries hold, ih]
    · rw [if_neg hold, kept_concat entries hold, OrderedTable.sumOver_add, ih, filter_append]
      cases hkeep : keep entry.hour <;> simp [total, hkeep]

theorem mem_keys_ofEntries (entries : List (UsageEntry κ)) (hour : Int) :
    hour ∈ (UsageHours.ofEntries cutoffHour entries).keys ↔
      hour ∈ (kept cutoffHour entries).map UsageEntry.hour := by
  induction entries using reverseRecOn with
  | nil => exact Iff.rfl
  | append_singleton entries entry ih =>
    rw [ofEntries_concat, UsageHours.count]
    by_cases hold : entry.hour < cutoffHour
    · rw [if_pos hold, kept_concat_old entries hold, ih]
    rw [if_neg hold, kept_concat entries hold]
    refine (OrderedTable.keys_addTo _ _ _ _).trans ?_
    rw [map_append, mem_append, ← ih, or_comm]
    exact or_congr Iff.rfl mem_singleton.symm

/-! ### What a window comes to -/

theorem totalsFrom_eq (hours : UsageHours κ) (startHour : Int) :
    hours.totalsFrom startHour = (hours.sumOver fun hour => startHour ≤ hour).totals := by
  have hfold := foldl_addHour 0 (hours.entries.filter fun entry => startHour ≤ entry.1)
  rw [foldl_filter, zero_add] at hfold
  simp only [decide_eq_true_eq] at hfold
  exact hfold

theorem total_cons (entry : UsageEntry κ) (entries : List (UsageEntry κ)) :
    total (entry :: entries) = entry.aggregate + total entries := sum_cons

theorem total_from_hour (startedAt : Int) (entries : List (UsageEntry κ)) :
    total (entries.filter fun entry => startedAt.tdiv 3600 ≤ entry.hour) =
      total (since startedAt entries) + total (sameHourBefore startedAt entries) := by
  unfold since sameHourBefore
  induction entries with
  | nil => exact (zero_add _).symm
  | cons entry entries ih =>
    by_cases hsince : startedAt ≤ entry.timestamp
    · have hhour : startedAt.tdiv 3600 ≤ entry.hour := Int.tdiv_le_tdiv (by omega) hsince
      simp [hsince, hhour, total_cons, ih, add_assoc, not_lt.mpr hsince]
    have hbefore := not_le.mp hsince
    have hle : entry.hour ≤ startedAt.tdiv 3600 :=
      Int.tdiv_le_tdiv (by omega) (Int.le_of_lt hbefore)
    by_cases hhour : entry.hour = startedAt.tdiv 3600
    · simp [hsince, hbefore, hhour, total_cons, ih, add_left_comm]
    · have hlt : ¬startedAt.tdiv 3600 ≤ entry.hour := by omega
      simp [hsince, hhour, hlt, ih]

/-- The entries since the start, and those before it in its hour. -/
structure WindowsOf (entries : List (UsageEntry κ)) (reading : ClockReading)
    (usage : ProviderUsage κ) : Prop where
  today : usage.today = (total (since reading.todayStartedAt entries) +
    total (sameHourBefore reading.todayStartedAt entries)).totals
  month : usage.month = (total (since reading.monthStartedAt entries) +
    total (sameHourBefore reading.monthStartedAt entries)).totals

theorem window_eq (entries : List (UsageEntry κ)) (startedAt : Int) :
    (UsageHours.ofEntries cutoffHour entries).totalsFrom (startedAt.tdiv 3600) =
      (total (since startedAt (kept cutoffHour entries)) +
        total (sameHourBefore startedAt (kept cutoffHour entries))).totals := by
  rw [totalsFrom_eq, sumOver_ofEntries, total_from_hour]

/-! ### The session -/

/-- The block that is shown while it lasts: when it starts, and what its entries come to. -/
def sessionOf (entries : List (UsageEntry κ)) (now : Int) : Option (Int × UsageHourAgg κ) :=
  match lastBlock entries with
  | some (start :: rest) =>
    if now < (start + blockHours) * 3600 then
      some (start, total (entries.filter fun entry => entry.hour ∈ start :: rest))
    else none
  | _ => none

structure ShowsSession (session : Option (Int × UsageHourAgg κ)) (now : Int)
    (snapshot : UsageSnapshot κ) : Prop where
  claude : snapshot.claude.session = (session.map fun block => block.2.totals).getD noTotals
  codex : snapshot.codex.session = noTotals
  cost : snapshot.sessionCost = session.map fun block => block.2.c
  startedAt : snapshot.sessionStartedAt = session.map fun block => block.1 * 3600
  endsAt : snapshot.sessionEndsAt = session.map fun block => (block.1 + blockHours) * 3600
  remaining : snapshot.sessionRemainingSeconds =
    session.map fun block => (block.1 + blockHours) * 3600 - now

theorem activeHours_kept (entries : List (UsageEntry κ)) :
    activeHours (kept cutoffHour entries) = (UsageHours.ofEntries cutoffHour entries).keys := by
  have hsame : ((kept cutoffHour entries).map UsageEntry.hour).toFinset =
      (UsageHours.ofEntries cutoffHour entries).keys.toFinset := by
    ext hour
    rw [mem_toFinset, mem_toFinset, mem_keys_ofEntries]
  have hsorted := (UsageHours.ofEntries cutoffHour entries).keys_ascending
  unfold activeHours
  rw [hsame]
  exact (toFinset_sort _ (hsorted.imp ne_of_lt)).mpr (hsorted.imp le_of_lt)

theorem foldl_extend_within (start : Int) (totals : UsageHourAgg κ)
    (hours : List (Int × UsageHourAgg κ)) (h : ∀ entry ∈ hours, entry.1 < start + blockHours) :
    hours.foldl Block.extend ⟨some start, totals.totals⟩ =
      ⟨some start, (totals + (hours.map Prod.snd).sum).totals⟩ := by
  rw [← foldl_addHour]
  induction hours generalizing totals with
  | nil => rfl
  | cons entry hours ih =>
    obtain ⟨hfirst, hrest⟩ := forall_mem_cons.mp h
    rw [foldl_cons, foldl_cons, addHour_totals, ← ih (totals + entry.2) hrest]
    congr 1
    exact if_pos (decide_eq_true hfirst)

theorem extend_new {block : Block κ} {entry : Int × UsageHourAgg κ}
    (hnew : ∀ start, block.start = some start → ¬entry.1 < start + blockHours) :
    block.extend entry = ⟨some entry.1, entry.2.totals⟩ := by
  have hnot : ¬(block.start.any fun start => entry.1 < start + blockHours) = true := by
    cases hstart : block.start with
    | none => exact Bool.false_ne_true
    | some start => simpa using hnew start hstart
  have htotals : addHour noTotals entry.2 = (0 + entry.2).totals := rfl
  unfold Block.extend
  rw [if_neg hnot, htotals, zero_add]

theorem foldl_extend (hours : List (Int × UsageHourAgg κ)) (block : Block κ)
    (hnew : ∀ start, block.start = some start →
      ∀ first, hours.head? = some first → ¬first.1 < start + blockHours) :
    hours.foldl Block.extend block = match (blocks within hours).getLast? with
      | none => block
      | some last => ⟨last.head?.map Prod.fst, (last.map Prod.snd).sum.totals⟩ := by
  induction hours using blocks.induct within generalizing block with
  | case1 => rw [blocks]; rfl
  | case2 first rest ih =>
    have hbegin := extend_new fun start hstart => hnew start hstart first rfl
    have hin : ∀ entry ∈ rest.takeWhile (within first), entry.1 < first.1 + blockHours :=
      fun entry hentry => of_decide_eq_true (mem_takeWhile_imp (p := within first) hentry)
    have hout : ∀ next, (rest.dropWhile (within first)).head? = some next →
        ¬next.1 < first.1 + blockHours := by
      intro next hnext
      have := head?_dropWhile_not (within first) rest
      rw [hnext] at this
      exact of_decide_eq_false this
    rw [foldl_cons, hbegin, blocks]
    conv_lhs => rw [← takeWhile_append_dropWhile (p := within first) (l := rest)]
    rw [foldl_append, foldl_extend_within _ _ _ hin, ih _ ?_]
    · cases hlast : blocks within (rest.dropWhile (within first)) with
      | nil => rfl
      | cons next others =>
        rw [getLast?_cons_cons, getLast?_cons]
    intro start hstart next hnext
    cases hstart
    exact hout next hnext

theorem lastBlock_kept (entries : List (UsageEntry κ)) : lastBlock (kept cutoffHour entries) =
      (blocks within (UsageHours.ofEntries cutoffHour entries).entries).getLast?.map
        (List.map Prod.fst) := by
  unfold lastBlock
  rw [activeHours_kept, OrderedTable.keys, blocks_map, getLast?_map]
  rfl

theorem total_last (entries : List (UsageEntry κ)) {last : List (Int × UsageHourAgg κ)}
    (hlast : (blocks within (UsageHours.ofEntries cutoffHour entries).entries).getLast? =
      some last) :
    total ((kept cutoffHour entries).filter fun entry => entry.hour ∈ last.map Prod.fst) =
      (last.map Prod.snd).sum := by
  obtain ⟨first, rest, -, hfilter⟩ :=
    getLast_blocks (UsageHours.ofEntries cutoffHour entries).ascending hlast
  have hsum := sumOver_ofEntries cutoffHour entries fun hour => first.1 ≤ hour
  unfold OrderedTable.sumOver at hsum
  rw [← hfilter] at hsum
  rw [hsum]
  congr 1
  refine filter_congr fun entry hentry => decide_eq_decide.mpr ?_
  have hkey := (mem_keys_ofEntries cutoffHour entries entry.hour).mpr (mem_map_of_mem hentry)
  obtain ⟨hour, hhour, heq⟩ := mem_map.mp hkey
  rw [← heq, hfilter]
  constructor
  · intro hmem
    obtain ⟨other, hother, hsame⟩ := mem_map.mp hmem
    rw [← hsame]
    exact of_decide_eq_true (mem_filter.mp hother).2
  · intro hle
    exact mem_map_of_mem (mem_filter.mpr ⟨hhour, decide_eq_true hle⟩)

theorem sessionOf_last {entries : List (UsageEntry κ)} {start : Int} {rest : List Int}
    (hlast : lastBlock entries = some (start :: rest)) (now : Int) : sessionOf entries now =
      if now < (start + blockHours) * 3600 then
        some (start, total (entries.filter fun entry => entry.hour ∈ start :: rest)) else none := by
  unfold sessionOf
  rw [hlast]

theorem showsSession_snapshot (claude : List (UsageEntry κ)) (codexHours : UsageHours κ)
    (reading : ClockReading) :
    ShowsSession (sessionOf (kept reading.cutoffHour claude) reading.unixSeconds)
      reading.unixSeconds
      (snapshot (UsageHours.ofEntries reading.cutoffHour claude) codexHours reading) := by
  have hfold := foldl_extend (UsageHours.ofEntries reading.cutoffHour claude).entries
    ⟨none, noTotals⟩ fun _ h => by cases h
  have hblock := lastBlock_kept reading.cutoffHour claude
  unfold snapshot
  dsimp only
  cases hlast : (blocks within
      (UsageHours.ofEntries reading.cutoffHour claude).entries).getLast? with
  | none =>
    rw [hlast] at hfold hblock
    rw [hfold, sessionOf, hblock]
    exact ⟨rfl, rfl, rfl, rfl, rfl, rfl⟩
  | some last =>
    obtain ⟨first, rest, rfl, -⟩ := getLast_blocks
      (UsageHours.ofEntries reading.cutoffHour claude).ascending hlast
    have htotal := total_last reading.cutoffHour claude hlast
    rw [hlast, Option.map_some, map_cons] at hblock
    rw [hlast] at hfold
    rw [hfold, sessionOf_last hblock, ← map_cons, htotal]
    dsimp only [head?_cons, Option.map_some]
    by_cases hopen : reading.unixSeconds < (first.1 + blockHours) * 3600
    · rw [if_pos hopen, if_pos hopen]
      exact ⟨rfl, rfl, rfl, rfl, rfl, rfl⟩
    · rw [if_neg hopen, if_neg hopen]
      exact ⟨rfl, rfl, rfl, rfl, rfl, rfl⟩

theorem snapshot_windows (claudeHours codexHours : UsageHours κ) (reading : ClockReading) :
    (snapshot claudeHours codexHours reading).claude.today =
        claudeHours.totalsFrom (reading.todayStartedAt.tdiv 3600) ∧
      (snapshot claudeHours codexHours reading).claude.month =
        claudeHours.totalsFrom (reading.monthStartedAt.tdiv 3600) ∧
      (snapshot claudeHours codexHours reading).codex = codexHours.windows reading := by
  unfold snapshot
  dsimp only
  split
  · exact ⟨rfl, rfl, rfl⟩
  split
  · exact ⟨rfl, rfl, rfl⟩
  · exact ⟨rfl, rfl, rfl⟩

/-- Each window has the entries since it started and those before in the same hour; the session
is the last block of the active hours of Claude. -/
theorem snapshot_exact (claude codex : List (UsageEntry κ)) (reading : ClockReading) :
    WindowsOf (kept reading.cutoffHour claude) reading
        (snapshot (UsageHours.ofEntries reading.cutoffHour claude)
          (UsageHours.ofEntries reading.cutoffHour codex) reading).claude ∧
      WindowsOf (kept reading.cutoffHour codex) reading
        (snapshot (UsageHours.ofEntries reading.cutoffHour claude)
          (UsageHours.ofEntries reading.cutoffHour codex) reading).codex ∧
      ShowsSession (sessionOf (kept reading.cutoffHour claude) reading.unixSeconds)
        reading.unixSeconds (snapshot (UsageHours.ofEntries reading.cutoffHour claude)
          (UsageHours.ofEntries reading.cutoffHour codex) reading) := by
  obtain ⟨htoday, hmonth, hcodex⟩ := snapshot_windows (UsageHours.ofEntries reading.cutoffHour
    claude) (UsageHours.ofEntries reading.cutoffHour codex) reading
  refine ⟨⟨?_, ?_⟩, ⟨?_, ?_⟩, showsSession_snapshot claude _ reading⟩
  · rw [htoday, window_eq]
  · rw [hmonth, window_eq]
  · rw [hcodex]
    exact window_eq _ _ _
  · rw [hcodex]
    exact window_eq _ _ _

/-- The day begins at 18:30 UTC, and the entry is of 18:20. -/
theorem yesterday_counted : let reading : ClockReading := ⟨1784747400, 1784745000, 1784745000⟩
    let entries : List (UsageEntry Int) := [⟨1784744400, ⟨10, 0, 0, 0, 3⟩⟩]
    (snapshot (UsageHours.ofEntries reading.cutoffHour entries) ∅ reading).claude.today =
        ⟨10, 0, 0, 0, 3⟩ ∧ total (since reading.todayStartedAt entries) = ⟨0, 0, 0, 0, 0⟩ := by
  decide

end Diri.App
