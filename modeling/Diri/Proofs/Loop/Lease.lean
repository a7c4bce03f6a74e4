/-
The controller's lease.

Whoever brings something about holds the largest epoch granted so far, epochs grow, and a
connector that is not admitted changes nothing (`LeaseSafe`): this is so in every run.

That the installed connection has the current epoch is not: a connector that is admitted
and closed within one read has taken the epoch with it, and the controller that is still
installed is refused from then on.  It holds in runs without such a read.
-/
import Diri.Proofs.Loop.Turn

namespace Diri.Wire

open Wire.Holder List

/-! ### What is claimed of a history -/

/-- Whoever brought something about held the largest epoch granted before. -/
def Leased (history : List Event) : Prop :=
  ∀ before client epoch effect after, history = before ++ .took client epoch effect :: after →
    .granted client epoch ∈ before ∧ ∀ other e, .granted other e ∈ before → e ≤ epoch

/-- Every epoch is larger than those granted before, until the counter is full. -/
def Increasing (history : List Event) : Prop :=
  ∀ before client epoch after, history = before ++ .granted client epoch :: after →
    ∀ other e, .granted other e ∈ before → e < epoch ∨ e = maxU64 ∧ epoch = maxU64

/-- What a connector that is not admitted leaves alone. -/
structure SameSession (holder holder' : Holder) : Prop where
  controllerEpoch : holder'.state.controllerEpoch = holder.state.controllerEpoch
  snapshotSequence : holder'.state.snapshotSequence = holder.state.snapshotSequence
  size : (holder'.state.cols, holder'.state.rows) = (holder.state.cols, holder.state.rows)
  screen : holder'.screen = holder.screen
  connection : holder'.connection = holder.connection

structure LeaseSafe (host : Host) (holder : Holder) : Prop where
  leased : Leased holder.history
  increasing : Increasing holder.history
  unadmitted : ∀ reads flushed c, holder.pendingConnection = some c →
    Holder.admits host c.unread reads holder = none →
      SameSession holder (holder.readPendingConnection host reads flushed)
  accepting : SameSession holder holder.acceptConnection

/-! ### Histories that grow -/

theorem split_append {α : Type} {l m before after : List α} {x : α}
    (h : l ++ m = before ++ x :: after) :
    (∃ rest, l = before ++ x :: rest) ∨ ∃ front, before = l ++ front ∧ m = front ++ x :: after := by
  rcases append_eq_append_iff.mp h with ⟨front, hbefore, hm⟩ | ⟨rest, hl, hx⟩
  · exact Or.inr ⟨front, hbefore, hm⟩
  cases rest with
  | nil => exact Or.inr ⟨[], by simpa using hl.symm, by simpa using hx.symm⟩
  | cons y rest =>
    obtain ⟨rfl, -⟩ := List.cons.inj hx
    exact Or.inl ⟨rest, hl⟩

variable {history : List Event}

theorem granted_mem_append {client epoch c e : Nat} {effects : List Effect} (front : List Event)
    (hfront : front <+: effects.map (.took client epoch)) :
    .granted c e ∈ history ++ front ↔ .granted c e ∈ history := by
  constructor
  · intro h
    rcases mem_append.mp h with h | h
    · exact h
    · obtain ⟨effect, -, heffect⟩ := mem_map.mp (hfront.subset h)
      cases heffect
  · exact mem_append_left _

theorem Leased.effects (h : Leased history) {client epoch : Nat}
    (hgranted : .granted client epoch ∈ history)
    (hlargest : ∀ other e, .granted other e ∈ history → e ≤ epoch) (effects : List Effect) :
    Leased (history ++ effects.map (.took client epoch)) := by
  intro before c e effect after heq
  rcases split_append heq with ⟨rest, hhistory⟩ | ⟨front, rfl, hmap⟩
  · exact h before c e effect rest hhistory
  have hmem : Event.took c e effect ∈ effects.map (.took client epoch) := by
    rw [hmap]
    simp
  obtain ⟨effect', -, htook⟩ := mem_map.mp hmem
  cases htook
  have hfront : front <+: effects.map (.took client epoch) := ⟨_, hmap.symm⟩
  refine ⟨(granted_mem_append front hfront).mpr hgranted, ?_⟩
  intro other e hother
  exact hlargest other e ((granted_mem_append front hfront).mp hother)

theorem Increasing.effects (h : Increasing history) (client epoch : Nat)
    (effects : List Effect) : Increasing (history ++ effects.map (.took client epoch)) := by
  intro before c e after heq
  rcases split_append heq with ⟨rest, hhistory⟩ | ⟨front, rfl, hmap⟩
  · exact h before c e rest hhistory
  have hmem : Event.granted c e ∈ effects.map (.took client epoch) := by
    rw [hmap]
    simp
  obtain ⟨effect, -, htook⟩ := mem_map.mp hmem
  cases htook

theorem Leased.granted (h : Leased history) (client epoch : Nat) :
    Leased (history ++ [.granted client epoch]) := by
  intro before c e effect after heq
  rcases split_append heq with ⟨rest, hhistory⟩ | ⟨front, -, hsingle⟩
  · exact h before c e effect rest hhistory
  have hmem : Event.took c e effect ∈ [Event.granted client epoch] := by
    rw [hsingle]
    simp
  cases mem_singleton.mp hmem

theorem Increasing.granted (h : Increasing history) {client epoch : Nat}
    (hnext : ∀ other e, .granted other e ∈ history → e < epoch ∨ e = maxU64 ∧ epoch = maxU64) :
    Increasing (history ++ [.granted client epoch]) := by
  intro before c e after heq
  rcases split_append heq with ⟨rest, hhistory⟩ | ⟨front, rfl, hsingle⟩
  · exact h before c e rest hhistory
  cases front with
  | nil =>
    obtain ⟨hgranted, -⟩ := List.cons.inj hsingle
    cases hgranted
    rw [append_nil]
    exact hnext
  | cons event front => simp at hsingle

/-! ### The invariant -/

structure LeaseInv (holder : Holder) : Prop where
  leased : Leased holder.history
  increasing : Increasing holder.history
  largest : ∀ client epoch, .granted client epoch ∈ holder.history →
    epoch ≤ holder.state.controllerEpoch
  bounded : holder.state.controllerEpoch ≤ maxU64
  installed : ∀ c, holder.connection = some c →
    ∃ epoch, c.epoch = some epoch ∧ .granted c.client epoch ∈ holder.history
  pending : ∀ c, holder.pendingConnection = some c → c.epoch = none

namespace LeaseInv

variable {host : Host} {turn after : Turn} {client epoch : Nat}

theorem effects (h : LeaseInv turn.holder) (hgranted : .granted client epoch ∈ turn.holder.history)
    (hcurrent : epoch = turn.holder.state.controllerEpoch)
    (hkeeps : Keeps client epoch turn after) : LeaseInv after.holder := by
  obtain ⟨effects, hhistory⟩ := hkeeps.history
  have hmem : ∀ c e, .granted c e ∈ after.holder.history ↔ .granted c e ∈ turn.holder.history := by
    intro c e
    rw [hhistory]
    exact granted_mem_append _ prefix_rfl
  refine ⟨?_, ?_, ?_, ?_, ?_, ?_⟩
  · rw [hhistory]
    exact h.leased.effects hgranted (by rw [hcurrent]; exact h.largest) effects
  · rw [hhistory]
    exact h.increasing.effects client epoch effects
  · intro c e hother
    rw [hkeeps.controllerEpoch]
    exact h.largest c e ((hmem c e).mp hother)
  · rw [hkeeps.controllerEpoch]
    exact h.bounded
  · intro c hc
    rw [hkeeps.connection] at hc
    obtain ⟨e, hepoch, hother⟩ := h.installed c hc
    exact ⟨e, hepoch, (hmem _ _).mpr hother⟩
  · intro c hc
    rw [hkeeps.pendingConnection] at hc
    exact h.pending c hc

theorem grant (h : LeaseInv turn.holder) (acknowledged : Option Nat) :
    LeaseInv (Holder.grant acknowledged turn).holder where
  leased := h.leased.granted _ _
  increasing := by
    refine h.increasing.granted ?_
    intro other e hother
    have hle := h.largest other e hother
    have hbounded := h.bounded
    unfold saturatingSucc
    omega
  largest := by
    intro c e hother
    rcases List.mem_append.mp hother with hother | hother
    · exact Nat.le_trans (h.largest c e hother) (Nat.le_min.mpr ⟨Nat.le_succ _, h.bounded⟩)
    · cases List.mem_singleton.mp hother
      exact Nat.le_refl _
  bounded := Nat.min_le_right _ _
  installed := by
    intro c hc
    obtain ⟨e, hepoch, hother⟩ := h.installed c hc
    exact ⟨e, hepoch, mem_append_left _ hother⟩
  pending := h.pending

/-! ### Steps -/

variable {holder holder' : Holder}

section
variable (h : LeaseInv holder)
include h

theorem sends (hsends : Sends holder holder') : LeaseInv holder' where
  leased := by rw [hsends.history]; exact h.leased
  increasing := by rw [hsends.history]; exact h.increasing
  largest := by rw [hsends.history, hsends.controllerEpoch]; exact h.largest
  bounded := by rw [hsends.controllerEpoch]; exact h.bounded
  installed := by
    intro c' hc'
    obtain ⟨c, hc, hsame⟩ := hsends.connection c' hc'
    rw [hsends.history, hsame.epoch, hsame.client]
    exact h.installed c hc
  pending := by rw [hsends.pendingConnection]; exact h.pending

theorem acceptConnection : LeaseInv holder.acceptConnection :=
  { h with
    pending := by
      intro c hc
      obtain ⟨⟩ := hc
      rfl }

theorem install {connection : Option Connection} (hconnection : ∀ c, connection = some c →
      ∃ epoch, c.epoch = some epoch ∧ .granted c.client epoch ∈ holder.history) :
    LeaseInv { holder with connection := connection } :=
  { h with installed := hconnection }

theorem wait {connection : Option Connection}
    (hconnection : ∀ c, connection = some c → c.epoch = none) :
    LeaseInv { holder with pendingConnection := connection } :=
  { h with pending := hconnection }

theorem retire (c : Connection) : LeaseInv (holder.retire c) := { h with }

theorem readConnection (reads : List Holder.Read) :
    LeaseInv (holder.readConnection host reads) := by
  unfold Holder.readConnection
  cases hconnection : holder.connection with
  | none => exact h
  | some c =>
    obtain ⟨epoch, hepoch, hgranted⟩ := h.installed c hconnection
    have hout : LeaseInv { holder with connection := none } := h.install (by simp)
    have hquiet := @quiet_readMessages host c.client epoch reads
      ⟨{ holder with connection := none }, c⟩ rfl hepoch
    have hread : LeaseInv
        (Holder.readMessages host reads ⟨{ holder with connection := none }, c⟩).1.holder := by
      by_cases hcurrent : epoch = holder.state.controllerEpoch
      · exact hout.effects hgranted hcurrent hquiet.toKeeps
      · rw [readMessages_stale reads hepoch hcurrent]
        exact hout
    simp only
    cases hresult : Holder.readMessages host reads ⟨{ holder with connection := none }, c⟩ with
    | mk turn ending =>
      rw [hresult] at hquiet hread
      cases ending with
      | some ending => exact hread.retire _
      | none =>
        refine hread.install ?_
        intro c' hc'
        obtain ⟨⟩ := hc'
        obtain ⟨effects, hhistory⟩ := hquiet.history
        refine ⟨epoch, hquiet.sameEpoch.trans hepoch, ?_⟩
        rw [hquiet.sameClient, hhistory]
        exact mem_append_left _ hgranted

end

theorem revoke_history (flushed : Writes) :
    (holder.revoke host flushed).history = holder.history := by
  unfold Holder.revoke
  cases holder.connection with
  | none | some previous => rfl

theorem revoke_controllerEpoch (flushed : Writes) :
    (holder.revoke host flushed).state.controllerEpoch = holder.state.controllerEpoch := by
  unfold Holder.revoke
  cases holder.connection with
  | none | some previous => rfl

theorem revoke (h : LeaseInv holder) (flushed : Writes) :
    LeaseInv (holder.revoke host flushed) := by
  unfold Holder.revoke
  cases holder.connection with
  | none => exact h
  | some previous => exact (h.install (by simp)).retire _

theorem readPending (h : LeaseInv turn.holder) (hepoch : turn.connection.epoch = none)
    (reads : List Holder.Read) (hafter : (Holder.readMessages host reads turn).1 = after) :
    LeaseInv after.holder ∧ ∀ epoch, after.connection.epoch = some epoch →
      .granted after.connection.client epoch ∈ after.holder.history := by
  cases hadmits : Holder.admits host turn.connection.unread reads turn.holder with
  | none =>
    obtain ⟨unread, hunread⟩ := readMessages_unadmitted reads hepoch hadmits
    rw [← hafter, hunread]
    refine ⟨h, ?_⟩
    intro epoch hsome
    rw [show (turn.setUnread unread).connection.epoch = none from hepoch] at hsome
    cases hsome
  | some acknowledged =>
    obtain ⟨unread, hkeeps⟩ := readMessages_granted reads hepoch hadmits
    rw [hafter] at hkeeps
    have hgranted : Event.granted turn.connection.client
          (saturatingSucc turn.holder.state.controllerEpoch)
        ∈ (Holder.grant acknowledged (turn.setUnread unread)).holder.history :=
      mem_append_right _ (mem_singleton.mpr rfl)
    have hgrant : LeaseInv (Holder.grant acknowledged (turn.setUnread unread)).holder :=
      @grant (turn.setUnread unread) h acknowledged
    refine ⟨hgrant.effects hgranted rfl hkeeps, ?_⟩
    intro epoch hsome
    obtain ⟨effects, hhistory⟩ := hkeeps.history
    rw [hkeeps.sameEpoch] at hsome
    obtain ⟨⟩ := hsome
    rw [hkeeps.sameClient, hhistory]
    exact mem_append_left _ hgranted

theorem readPendingConnection (h : LeaseInv holder) (reads : List Holder.Read)
    (flushed : Writes) : LeaseInv (holder.readPendingConnection host reads flushed) := by
  unfold Holder.readPendingConnection
  cases hpending : holder.pendingConnection with
  | none => exact h
  | some c =>
    have hout : LeaseInv { holder with pendingConnection := none } := h.wait (by simp)
    simp only
    cases hresult : Holder.readMessages host reads
        ⟨{ holder with pendingConnection := none }, c⟩ with
    | mk turn ending =>
      obtain ⟨hread, hgranted⟩ := @readPending host
        ⟨{ holder with pendingConnection := none }, c⟩ turn hout (h.pending c hpending) reads
        (by rw [hresult])
      cases ending with
      | some ending => exact hread.retire _
      | none =>
        simp only
        cases hepoch : turn.connection.epoch with
        | none =>
          refine hread.wait ?_
          intro c' hc'
          obtain ⟨⟩ := hc'
          exact hepoch
        | some epoch =>
          refine (hread.revoke flushed).install ?_
          intro c' hc'
          obtain ⟨⟩ := hc'
          refine ⟨epoch, hepoch, ?_⟩
          rw [revoke_history]
          exact hgranted epoch hepoch

theorem step (h : LeaseInv holder) {action : LoopAction}
    (hstep : loopStep host holder action = some holder') : LeaseInv holder' := by
  cases action with
  | acceptConnection =>
    obtain ⟨⟩ := hstep
    exact h.acceptConnection
  | drainPty bytes painted => exact h.sends (drainPty_sends hstep)
  | flushInput writes =>
    rw [flushInput_cases hstep]
    exact { h with }
  | recordExit exit =>
    rcases recordExit_cases hstep with rfl | hpublishes
    · exact h
    · exact h.sends hpublishes.sends
  | readConnection reads =>
    obtain ⟨⟩ := hstep
    exact h.readConnection reads
  | flushConnection writes => exact h.sends (flushConnection_sends hstep)
  | readPendingConnection reads flushed =>
    obtain ⟨⟩ := hstep
    exact h.readPendingConnection reads flushed
  | emitGridDelta =>
    rcases emitGridDelta_cases hstep with rfl | hpublishes
    · exact h
    · exact h.sends hpublishes.sends

theorem new (sessionId sessionIncarnation : String) (pid : UInt32) (cols rows : Nat)
    (term : Term) : LeaseInv (.new sessionId sessionIncarnation pid cols rows term) where
  leased before client epoch effect after h := by simp [Holder.new] at h
  increasing before client epoch after h := by simp [Holder.new] at h
  largest client epoch h := by cases h
  bounded := Nat.zero_le _
  installed c h := by cases h
  pending c h := by cases h

end LeaseInv

/-! ### Connectors that are not admitted -/

theorem unadmitted_sameSession {host : Host} {holder : Holder} {c : Connection}
    (reads : List Holder.Read) (flushed : Writes) (hpending : holder.pendingConnection = some c)
    (hepoch : c.epoch = none) (hadmits : Holder.admits host c.unread reads holder = none) :
    SameSession holder (holder.readPendingConnection host reads flushed) := by
  obtain ⟨unread, hunread⟩ := @readMessages_unadmitted host reads
    ⟨{ holder with pendingConnection := none }, c⟩ hepoch hadmits
  unfold Holder.readPendingConnection
  rw [hpending]
  simp only
  cases hresult : Holder.readMessages host reads
      ⟨{ holder with pendingConnection := none }, c⟩ with
  | mk turn ending =>
    rw [hresult] at hunread
    subst hunread
    cases ending with
    | some ending => exact ⟨rfl, rfl, rfl, rfl, rfl⟩
    | none =>
      have hnone : ¬(Turn.setUnread unread
          ⟨{ holder with pendingConnection := none }, c⟩).connection.epoch.isSome := by
        rw [show (Turn.setUnread unread _).connection.epoch = c.epoch from rfl, hepoch]
        simp
      simp only
      rw [if_neg hnone]
      exact ⟨rfl, rfl, rfl, rfl, rfl⟩

/-! ### The installed connection -/

/-- The installed connection has the current epoch. -/
def Current (holder : Holder) : Prop :=
  ∀ c, holder.connection = some c → c.epoch = some holder.state.controllerEpoch

/--
A connector that is admitted while another connection is installed is still there at the
end of the read that admitted it.
-/
def StaysOpen (host : Host) (holder : Holder) : LoopAction → Prop
  | .readPendingConnection reads _ => ∀ c ∈ holder.pendingConnection,
      holder.connection.isSome → (Holder.admits host c.unread reads holder).isSome →
        (Holder.readMessages host reads ⟨{ holder with pendingConnection := none }, c⟩).2.isNone
  | _ => True

instance StaysOpen.decidable (host : Host) :
    ∀ (holder : Holder) (action : LoopAction), Decidable (StaysOpen host holder action)
  | holder, .readPendingConnection reads _ =>
    inferInstanceAs (Decidable (∀ c ∈ holder.pendingConnection,
      holder.connection.isSome → (Holder.admits host c.unread reads holder).isSome →
        (Holder.readMessages host reads ⟨{ holder with pendingConnection := none }, c⟩).2.isNone))
  | _, .acceptConnection | _, .drainPty _ _ | _, .flushInput _ | _, .recordExit _
  | _, .readConnection _ | _, .flushConnection _ | _, .emitGridDelta => .isTrue trivial

namespace Current

variable {host : Host} {holder holder' : Holder}

theorem sends (h : Current holder) (hsends : Sends holder holder') : Current holder' := by
  intro c' hc'
  obtain ⟨c, hc, hsame⟩ := hsends.connection c' hc'
  rw [hsends.controllerEpoch, hsame.epoch]
  exact h c hc

theorem readConnection (h : Current holder) (reads : List Holder.Read) :
    Current (holder.readConnection host reads) := by
  unfold Holder.readConnection
  cases hconnection : holder.connection with
  | none => exact h
  | some c =>
    have hepoch := h c hconnection
    have hquiet := @quiet_readMessages host c.client _ reads
      ⟨{ holder with connection := none }, c⟩ rfl hepoch
    simp only
    cases hresult : Holder.readMessages host reads ⟨{ holder with connection := none }, c⟩ with
    | mk turn ending =>
      rw [hresult] at hquiet
      intro c' hc'
      cases ending with
      | some ending =>
        have hnone : turn.holder.connection = some c' := hc'
        rw [hquiet.connection] at hnone
        cases hnone
      | none =>
        obtain ⟨⟩ := hc'
        show turn.connection.epoch = some turn.holder.state.controllerEpoch
        rw [hquiet.sameEpoch, hquiet.controllerEpoch]
        exact hepoch

theorem readPendingConnection (h : Current holder) (hinv : LeaseInv holder)
    (reads : List Holder.Read) (flushed : Writes)
    (hopen : StaysOpen host holder (.readPendingConnection reads flushed)) :
    Current (holder.readPendingConnection host reads flushed) := by
  cases hpending : holder.pendingConnection with
  | none =>
    unfold Holder.readPendingConnection
    rw [hpending]
    exact h
  | some c =>
    have hnone := hinv.pending c hpending
    cases hadmits : Holder.admits host c.unread reads holder with
    | none =>
      have hsame := unadmitted_sameSession reads flushed hpending hnone hadmits
      intro c' hc'
      rw [hsame.connection] at hc'
      rw [hsame.controllerEpoch]
      exact h c' hc'
    | some acknowledged =>
      obtain ⟨unread, hkeeps⟩ := @readMessages_granted host reads
        ⟨{ holder with pendingConnection := none }, c⟩ acknowledged hnone hadmits
      have hstays := hopen c (by rw [hpending]; rfl)
      rw [hadmits] at hstays
      unfold Holder.readPendingConnection
      rw [hpending]
      simp only
      cases hresult : Holder.readMessages host reads
          ⟨{ holder with pendingConnection := none }, c⟩ with
      | mk turn ending =>
        rw [hresult] at hkeeps hstays
        intro c' hc'
        cases ending with
        | some ending =>
          -- the slip: only a Holder without a controller gets here
          have hinstalled : holder.connection = some c' := by
            rw [← hc']
            exact hkeeps.connection.symm
          rw [hinstalled] at hstays
          simp at hstays
        | none =>
          have hepoch : turn.connection.epoch
              = some turn.holder.state.controllerEpoch := by
            rw [hkeeps.sameEpoch, hkeeps.controllerEpoch]
            rfl
          simp only [hepoch, Option.isSome_some, if_true] at hc' ⊢
          obtain ⟨⟩ := hc'
          rw [hepoch, LeaseInv.revoke_controllerEpoch]

theorem step (h : Current holder) (hinv : LeaseInv holder) {action : LoopAction}
    (hopen : StaysOpen host holder action) (hstep : loopStep host holder action = some holder') :
    Current holder' := by
  cases action with
  | acceptConnection =>
    obtain ⟨⟩ := hstep
    exact h
  | drainPty bytes painted => exact h.sends (drainPty_sends hstep)
  | flushInput writes =>
    rw [flushInput_cases hstep]
    exact h
  | recordExit exit =>
    rcases recordExit_cases hstep with rfl | hpublishes
    · exact h
    · exact h.sends hpublishes.sends
  | readConnection reads =>
    obtain ⟨⟩ := hstep
    exact h.readConnection reads
  | flushConnection writes => exact h.sends (flushConnection_sends hstep)
  | readPendingConnection reads flushed =>
    obtain ⟨⟩ := hstep
    exact h.readPendingConnection hinv reads flushed hopen
  | emitGridDelta =>
    rcases emitGridDelta_cases hstep with rfl | hpublishes
    · exact h
    · exact h.sends hpublishes.sends

end Current

/-! ### Runs -/

/--
**The controller's lease.**  In every run only the holder of the largest epoch brings
something about, epochs grow, and a connector that is not admitted changes nothing; in a
run in which no connector is admitted and closed by one read while a controller is
installed, the installed connection has the current epoch.
-/
theorem controller_lease (host : Host) (sessionId sessionIncarnation : String) (pid : UInt32)
    (cols rows : Nat) (term : Term) (actions : List LoopAction) (holder : Holder)
    (hrun : partialRun (loopStep host) (.new sessionId sessionIncarnation pid cols rows term)
      actions = some holder) : LeaseSafe host holder ∧ (Meets (StaysOpen host) (loopStep host)
        (.new sessionId sessionIncarnation pid cols rows term) actions → Current holder) := by
  have hstart := LeaseInv.new sessionId sessionIncarnation pid cols rows term
  have hinv : LeaseInv holder :=
    partialRun_induction (P := fun _ holder => LeaseInv holder) hstart
      (fun _ _ _ _ h hstep => h.step hstep) hrun
  refine ⟨⟨hinv.leased, hinv.increasing, ?_, ⟨rfl, rfl, rfl, rfl, rfl⟩⟩, ?_⟩
  · intro reads flushed c hpending hadmits
    exact unadmitted_sameSession reads flushed hpending (hinv.pending c hpending) hadmits
  · intro hmeets
    have hboth := hmeets.invariant (P := fun holder => LeaseInv holder ∧ Current holder)
      (fun _ _ _ h hopen hstep => ⟨h.1.step hstep, h.2.step h.1 hopen hstep⟩)
      ⟨hstart, by intro c hc; cases hc⟩ hrun
    exact hboth.2

/-- A client attaches and types, a second one takes over and types. -/
def takeOver : List LoopAction :=
  [.acceptConnection, .readPendingConnection [helloRead none] ⟨0, .wouldBlock⟩,
    .readConnection [.ok [2, 0, 0, 0, 1, 65] fun _ => demoWorld], .acceptConnection,
    .readPendingConnection [helloRead none] ⟨0, .wouldBlock⟩,
    .readConnection [.ok [2, 0, 0, 0, 1, 66] fun _ => demoWorld]]

theorem controller_lease_takeOver :
    ∃ holder, partialRun (loopStep demoHost) demoHolder takeOver = some holder ∧
      LeaseSafe demoHost holder ∧ Current holder := by
  have hsome : (partialRun (loopStep demoHost) demoHolder takeOver).isSome = true := by
    decide +kernel
  have hmeets : Meets (StaysOpen demoHost) (loopStep demoHost) demoHolder takeOver := by
    decide +kernel
  obtain ⟨holder, hrun⟩ := Option.isSome_iff_exists.mp hsome
  obtain ⟨hsafe, hcurrent⟩ := controller_lease demoHost "s" "i" 7 1 1 blankTerm takeOver holder hrun
  exact ⟨holder, hrun, hsafe, hcurrent hmeets⟩

/-- A client attaches; a second one says `Hello` and hangs up. -/
def hangUp : List LoopAction :=
  [.acceptConnection, .readPendingConnection [helloRead none] ⟨0, .wouldBlock⟩, .acceptConnection,
    .readPendingConnection [helloRead none, .ok [] fun _ => demoWorld] ⟨0, .wouldBlock⟩]

theorem hangUp_epochs : (partialRun (loopStep demoHost) demoHolder hangUp).map
        (fun holder => (holder.connection.map Connection.epoch, holder.state.controllerEpoch))
      = some (some (some 1), 2) := by
  decide +kernel

/-- So the installed connection does not always have the current epoch. -/
theorem hangUp_lease_fails : ¬∀ (actions : List LoopAction) (holder : Holder),
      partialRun (loopStep demoHost) demoHolder actions = some holder → Current holder := by
  intro h
  obtain ⟨holder, hrun, hepochs⟩ := Option.map_eq_some_iff.mp hangUp_epochs
  obtain ⟨hconnection, hcontroller⟩ := Prod.mk.inj hepochs
  obtain ⟨c, hc, hepoch⟩ := Option.map_eq_some_iff.mp hconnection
  have hcurrent := h hangUp holder hrun c hc
  rw [hepoch, hcontroller] at hcurrent
  cases hcurrent

end Diri.Wire
