/-
The wire model the engine and its clients share: what a session is doing, why it
needs input, how it died.

Only the types the rest of the development reads are here, with the source's own
fields.  Every string enumeration of the source carries an extra `unknown` case
for a value introduced by a newer peer; it is kept, since a reducer that matched
on one of these enumerations would have to cover it.

The record of a session, as it is stored and sent to clients.

Of its fields those are here that the registry and the governor read or write.
-/


namespace Diri

/-- Nanoseconds since the epoch; a clock may read before it. -/
abbrev SystemTime := Int

/-- Nanoseconds. -/
abbrev Duration := Nat

namespace SystemTime

/-- `now.duration_since(earlier)`: an error when the clock ran backwards. -/
def durationSince (now earlier : SystemTime) : Option Duration :=
  if earlier ≤ now then some (now - earlier).toNat else none

/-- `now.duration_since(earlier).unwrap_or_default()`. -/
def elapsedSince (now earlier : SystemTime) : Duration :=
  (now.durationSince earlier).getD 0

theorem elapsedSince_eq (now earlier : SystemTime) :
    now.elapsedSince earlier = Int.toNat (now - earlier) := by
  unfold elapsedSince durationSince
  split
  · rfl
  · rename_i h
    exact (Int.toNat_eq_zero.mpr (Int.sub_nonpos_of_le (Int.le_of_not_le h))).symm

theorem elapsedSince_anti (now : SystemTime) {a b : SystemTime} (h : a ≤ b) :
    now.elapsedSince b ≤ now.elapsedSince a := by
  rw [elapsedSince_eq, elapsedSince_eq]
  exact Int.toNat_le_toNat (Int.sub_le_sub_left h now)

end SystemTime

inductive NeedsInputKind
  | permission
  | question
  | unknown
  deriving DecidableEq, Repr

inductive RiskHint
  | destructive
  | network
  | fileWrite
  | neutral
  | unknown
  deriving DecidableEq, Repr

inductive NeedsInputSource
  | claudePermissionHook
  | claudeNotificationHook
  | codexNotify
  | screenScrape
  | unknown
  deriving DecidableEq, Repr

/--
A wire timestamp.  The source keeps milliseconds as a float computed from the time
since the epoch; the exact time it is computed from is kept here instead.
-/
structure DateMillis where
  sinceEpoch : Duration
  deriving DecidableEq, Repr

/-- Times before the epoch clamp to zero. -/
def DateMillis.ofSystemTime (time : SystemTime) : DateMillis :=
  ⟨time.elapsedSince 0⟩

structure NeedsInputDetail where
  kind : NeedsInputKind
  source : NeedsInputSource
  toolName : Option String
  summary : String
  promptExcerpt : Option String
  options : Option (List String)
  riskHint : RiskHint
  occurredAt : DateMillis
  deriving DecidableEq, Repr

inductive ExitReason
  | exited
  | signaled
  | daemonRestart
  | external
  | archived
  | unknown
  deriving DecidableEq, Repr

structure ExitInfo where
  reason : ExitReason
  code : Option Int32
  signal : Option Int32
  deriving DecidableEq, Repr

inductive SessionStatus
  | starting
  | idle
  | working
  | needsInput (kind : NeedsInputKind)
  | exited (info : ExitInfo)
  | unknown
  deriving DecidableEq, Repr

namespace SessionStatus

/-- `matches!(status, SessionStatus::Exited(_))`. -/
def isExited : SessionStatus → Bool
  | exited _ => true
  | _ => false

/-- `matches!(status, SessionStatus::NeedsInput(_))`. -/
def isNeedsInput : SessionStatus → Bool
  | needsInput _ => true
  | _ => false

end SessionStatus

abbrev SessionId : Type := String

inductive TitleSource
  | placeholder
  | firstPrompt
  | agentProvided
  | dirijorAssigned
  | userRename
  | unknown
  deriving DecidableEq, Repr

inductive Resumability
  | live
  | resumable
  | transcriptMissing
  | notResumable
  | unknown
  deriving DecidableEq, Repr

inductive HibernationReason
  | idle
  | memoryPressure
  | manual
  | unknown
  deriving DecidableEq, Repr

structure HibernationInfo where
  since : DateMillis
  reason : HibernationReason
  treePids : List Int32
  treeStartTimes : Option (List (Int32 × Int64))
  deriving DecidableEq, Repr

structure SessionRecord where
  id : SessionId
  kind : String
  cwd : String
  title : String
  titleSource : TitleSource
  agentSessionId : Option String := none
  status : SessionStatus
  needsInput : Option NeedsInputDetail := none
  resumability : Resumability
  createdAt : DateMillis
  updatedAt : DateMillis
  lastTurnCompletedAt : Option DateMillis := none
  lastSeenAt : Option DateMillis := none
  pinned : Bool := false
  archivedAt : Option DateMillis := none
  /-- The host of a session that runs through a remote Holder; none is local. -/
  host : Option String := none
  hibernation : Option HibernationInfo := none
  memoryBytes : Option UInt64 := none
  deriving DecidableEq, Repr

end Diri
