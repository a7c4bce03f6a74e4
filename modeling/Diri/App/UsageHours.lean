/-
What the app shows of the usage that it has counted.

Usage is kept by the hour since 1970 in which it was, and the windows are made of whole
hours: the one in which a window starts is in it.  The hours of Claude fall into blocks of
five, of which the last is shown as the session while it lasts.

A cost is whatever can be added up in any order, so that what rounding does is left aside.
-/
import Diri.App.Fleet
import Diri.Lib.Ordered

namespace Diri.App

open Fleet (UsageTotals ProviderUsage UsageSnapshot)

structure ClockReading where
  unixSeconds : Int
  todayStartedAt : Int
  monthStartedAt : Int
  deriving DecidableEq, Repr

/-- Hours are kept for 35 days. -/
def ClockReading.cutoffHour (reading : ClockReading) : Int :=
  reading.unixSeconds.tdiv 3600 - 35 * 24

/-- The counts of an hour, or of a line: input, output, cache reads and writes, and the cost. -/
@[ext] structure UsageHourAgg (κ : Type) where
  i : Int
  o : Int
  cr : Int
  cw : Int
  c : κ
  deriving DecidableEq, Repr

variable {κ : Type}

namespace UsageHourAgg

instance [Zero κ] : Zero (UsageHourAgg κ) := ⟨⟨0, 0, 0, 0, 0⟩⟩

instance [Add κ] : Add (UsageHourAgg κ) :=
  ⟨fun aggregate other => ⟨aggregate.i + other.i, aggregate.o + other.o, aggregate.cr + other.cr,
    aggregate.cw + other.cw, aggregate.c + other.c⟩⟩

end UsageHourAgg

/-- What a line counts, and when it was. -/
structure UsageEntry (κ : Type) where
  timestamp : Int
  aggregate : UsageHourAgg κ
  deriving DecidableEq, Repr

def UsageEntry.hour (entry : UsageEntry κ) : Int := entry.timestamp.tdiv 3600

abbrev UsageHours (κ : Type) : Type := OrderedTable Int (UsageHourAgg κ)

section
variable [Zero κ] [Add κ]

/-- A line is counted unless it is too old. -/
def UsageHours.count (cutoffHour : Int) (hours : UsageHours κ) (entry : UsageEntry κ) :
    UsageHours κ :=
  if entry.hour < cutoffHour then hours else hours.add entry.hour entry.aggregate

def UsageHours.ofEntries (cutoffHour : Int) (entries : List (UsageEntry κ)) : UsageHours κ :=
  entries.foldl (UsageHours.count cutoffHour) ∅

end

/-! ### Windows -/

section
variable [Zero κ]

/-- `UsageTotals::default`. -/
def noTotals : UsageTotals κ := ⟨0, 0, 0, 0, 0⟩

def addHour [Add κ] (totals : UsageTotals κ) (rhs : UsageHourAgg κ) : UsageTotals κ where
  inputTokens := totals.inputTokens + rhs.i
  outputTokens := totals.outputTokens + rhs.o
  cacheReadTokens := totals.cacheReadTokens + rhs.cr
  cacheWriteTokens := totals.cacheWriteTokens + rhs.cw
  cost := totals.cost + rhs.c

/-- The hours from one on. -/
def UsageHours.totalsFrom [Add κ] (hours : UsageHours κ) (startHour : Int) : UsageTotals κ :=
  hours.entries.foldl
    (fun totals entry => if startHour ≤ entry.1 then addHour totals entry.2 else totals) noTotals

def UsageHours.windows [Add κ] (hours : UsageHours κ) (reading : ClockReading) :
    ProviderUsage κ where
  session := noTotals
  today := hours.totalsFrom (reading.todayStartedAt.tdiv 3600)
  month := hours.totalsFrom (reading.monthStartedAt.tdiv 3600)

def blockHours : Int := 5

/-- The block that the hours so far end in. -/
structure Block (κ : Type) where
  start : Option Int
  totals : UsageTotals κ

def Block.extend [Add κ] (block : Block κ) (entry : Int × UsageHourAgg κ) : Block κ :=
  if block.start.any fun start => entry.1 < start + blockHours then
    { block with totals := addHour block.totals entry.2 }
  else ⟨some entry.1, addHour noTotals entry.2⟩

def snapshot [Add κ] (claudeHours codexHours : UsageHours κ) (reading : ClockReading) :
    UsageSnapshot κ :=
  let result : UsageSnapshot κ := {
    claude := claudeHours.windows reading
    codex := codexHours.windows reading
    sessionCost := none
    sessionStartedAt := none
    sessionEndsAt := none
    sessionRemainingSeconds := none
    updatedAt := reading.unixSeconds }
  let block := claudeHours.entries.foldl Block.extend ⟨none, noTotals⟩
  match block.start with
  | none => result
  | some start =>
    let stop := (start + blockHours) * 3600
    if reading.unixSeconds < stop then
      { result with
        claude := { result.claude with session := block.totals }
        sessionCost := some block.totals.cost
        sessionStartedAt := some (start * 3600)
        sessionEndsAt := some stop
        sessionRemainingSeconds := some (stop - reading.unixSeconds) }
    else result

end

end Diri.App
