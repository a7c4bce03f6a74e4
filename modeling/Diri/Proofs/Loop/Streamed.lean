/-
The controller is queued all output, also when its buffer is discarded.

`Proofs.Loop.Output` says nothing of a connection that was told of a reseed.  But a reseed
discards what waits to be sent, not the order of what was queued: the next output is queued
at the tail again, so the connection has been queued every byte since it attached.
-/
import Diri.Proofs.Loop.Output

namespace Diri.Wire

open Wire.Holder List Option

/-! ### Queueing -/

/-- The controller afterwards is the one of before, with the message queued, and perhaps quiet
ones behind it. -/
def Queued (message : RemoteMessage) (holder holder' : Holder) : Prop :=
  ∀ c', holder'.connection = some c' → ∃ c more, holder.connection = some c ∧
    c'.attached = c.attached ∧ c'.queued = c.queued ++ message :: more ∧
    ∀ other ∈ more, other.streams = false

namespace Holder

variable {host : Host} {holder holder' : Holder}

theorem reseed_queued {c : Connection} (h : holder.reseed host c = some holder') :
    ∃ c' more, holder'.connection = some c' ∧ c'.attached = c.attached ∧
      c'.queued = c.queued ++ more ∧ ∀ other ∈ more, other.streams = false := by
  unfold reseed at h
  simp only [bind_eq_bind, Option.pure_def] at h
  obtain ⟨c₁, herror, h⟩ := bind_eq_some_iff.mp h
  obtain ⟨c₂, hsnapshot, h⟩ := bind_eq_some_iff.mp h
  obtain ⟨⟩ := h
  obtain ⟨hqueued₁, -, -, hattached₁, -⟩ := Connection.queue_ok (toOption_eq_some herror)
  obtain ⟨hqueued₂, -, -, hattached₂, -⟩ := Connection.queue_ok (toOption_eq_some hsnapshot)
  rw [hqueued₁, append_assoc] at hqueued₂
  refine ⟨c₂, _, rfl, hattached₂.trans hattached₁, hqueued₂, ?_⟩
  intro other hother
  rcases List.mem_cons.mp hother with rfl | hother
  · rfl
  · rw [List.mem_singleton.mp hother]
    rfl

theorem queue_queued {message : RemoteMessage} (h : holder.queue host message = some holder') :
    Queued message holder holder' := by
  intro c' hc'
  unfold queue at h
  cases hconnection : holder.connection with
  | none =>
    rw [hconnection] at h
    obtain ⟨⟩ := h
    rw [hconnection] at hc'
    cases hc'
  | some c =>
    rw [hconnection] at h
    obtain ⟨c₁, hqueue, h⟩ := bind_eq_some_iff.mp h
    obtain ⟨hqueued, -, -, hattached, -⟩ := Connection.queue_ok (toOption_eq_some hqueue)
    by_cases hlong : c₁.outbound.length > maxOutboundBytes
    · rw [if_pos hlong] at h
      by_cases hsent : c₁.sent ≠ 0
      · rw [if_pos hsent] at h
        obtain ⟨⟩ := h
        cases hc'
      rw [if_neg hsent] at h
      obtain ⟨c₂, more, hc₂, hattached₂, hqueued₂, hmore⟩ := reseed_queued h
      obtain rfl := some.inj (hc'.symm.trans hc₂)
      refine ⟨c, more, rfl, hattached₂.trans hattached, ?_, hmore⟩
      rw [hqueued₂, hqueued, append_assoc, singleton_append]
    rw [if_neg hlong] at h
    obtain ⟨⟩ := h
    obtain ⟨⟩ := hc'
    exact ⟨c, [], rfl, hattached, hqueued, by simp⟩

theorem queue_stream {message : RemoteMessage} (h : holder.queue host message = some holder') :
    holder'.stream = holder.stream := by
  cases queue_cases h <;> rfl

theorem queue_reading {message : RemoteMessage} (h : holder.queue host message = some holder') :
    holder'.reading = holder.reading := by
  cases queue_cases h <;> rfl

/-- While there is a reader, what is drained goes to the stream; the end drops the reader. -/
theorem drainPty_stream {bytes : List UInt8} {painted : Painted} (hreading : holder.reading = true)
    (h : holder.drainPty host bytes painted = some holder') :
    holder'.stream = holder.stream ++ bytes ∧ (bytes ≠ [] → holder'.reading = true) := by
  unfold drainPty at h
  rw [if_neg (by simp [hreading])] at h
  by_cases hbytes : bytes = []
  · rw [if_pos hbytes] at h
    obtain ⟨⟩ := h
    exact ⟨by rw [hbytes, append_nil], fun hne => absurd hbytes hne⟩
  rw [if_neg hbytes] at h
  simp only at h
  split at h
  · exact ⟨queue_stream h, fun _ => (queue_reading h).trans hreading⟩
  · obtain ⟨⟩ := h
    exact ⟨rfl, fun _ => hreading⟩

theorem Publishes.stream {json : SerdeJson} (h : Publishes json holder holder') :
    holder'.stream = holder.stream := by
  obtain ⟨changed, message, -, hstream, -, -, -, -, hqueues⟩ := h.published
  rw [← hstream]
  cases hqueues <;> rfl

end Holder

/-! ### The invariant -/

/-- Nothing that the terminal gave was kept from the controller. -/
structure Streamed (holder : Holder) : Prop extends OutputInv holder where
  covered : ∀ c, holder.connection = some c → Gapless holder.stream holder.stream.length c

namespace Streamed

variable {host : Host} {holder holder' changed : Holder}

theorem queues {message : RemoteMessage} (h : Streamed holder)
    (hqueue : changed.queue host message = some holder') (hquiet : message.streams = false)
    (hconnection : changed.connection = holder.connection)
    (hstream : changed.stream = holder.stream) :
    ∀ c, holder'.connection = some c → Gapless holder'.stream holder'.stream.length c := by
  intro c' hc'
  obtain ⟨c, more, hc, hattached, hqueued, hmore⟩ := queue_queued hqueue c' hc'
  rw [queue_stream hqueue, hstream]
  refine (h.covered c (hconnection ▸ hc)).quiet hattached hqueued ?_
  intro other hother
  rcases List.mem_cons.mp hother with rfl | hother
  · exact hquiet
  · exact hmore other hother

section
variable (h : Streamed holder)
include h

theorem drainPty {bytes : List UInt8} {painted : Painted}
    (hstep : holder.drainPty host bytes painted = some holder') : Streamed holder' := by
  refine ⟨h.toOutputInv.drainPty hstep, ?_⟩
  unfold Holder.drainPty at hstep
  by_cases hreading : holder.reading
  · by_cases hbytes : bytes = []
    · rw [if_neg (by simp [hreading]), if_pos hbytes] at hstep
      obtain ⟨⟩ := hstep
      exact h.covered
    · rw [if_neg (by simp [hreading]), if_neg hbytes] at hstep
      simp only at hstep
      split at hstep
      · intro c' hc'
        obtain ⟨c, more, hc, hattached, hqueued, hmore⟩ := queue_queued hstep c' hc'
        rw [queue_stream hstep]
        rw [(h.logged.append bytes).1] at hqueued
        have houtput : Gapless (holder.stream ++ bytes) (holder.stream ++ bytes).length { c with
            queued := c.queued ++ [.terminal (.output holder.stream.length bytes)] } :=
          (h.covered c hc).output rfl rfl hbytes
        refine houtput.quiet hattached ?_ hmore
        rw [hqueued, append_assoc, singleton_append]
      rename_i hidle
      obtain ⟨⟩ := hstep
      intro c hc
      refine absurd ?_ hidle
      show holder.connection.any _ = true
      rw [show holder.connection = some c from hc]
      exact (h.installed c hc).1
  rw [if_pos (by simp [hreading])] at hstep
  obtain ⟨⟩ := hstep
  exact h.covered

theorem emitGridDelta (hstep : holder.emitGridDelta host = some holder') :
    ∀ c, holder'.connection = some c → Gapless holder'.stream holder'.stream.length c := by
  unfold Holder.emitGridDelta at hstep
  split at hstep
  · obtain ⟨⟩ := hstep
    exact h.covered
  simp only at hstep
  split at hstep
  · exact h.queues hstep rfl rfl rfl
  · exact h.queues hstep rfl rfl rfl

theorem recordExit {exit : ProcessExit} (hstep : holder.recordExit host exit = some holder') :
    ∀ c, holder'.connection = some c → Gapless holder'.stream holder'.stream.length c := by
  unfold Holder.recordExit at hstep
  split at hstep
  · obtain ⟨⟩ := hstep
    exact h.covered
  · exact h.queues hstep rfl rfl rfl

theorem flushConnection {writes : Writes} (hstep : holder.flushConnection writes = some holder') :
    ∀ c, holder'.connection = some c → Gapless holder'.stream holder'.stream.length c := by
  rcases flushConnection_cases hstep with rfl | ⟨c, hconnection, rfl | rfl⟩
  · exact h.covered
  · intro c' hc'
    obtain ⟨⟩ := hc'
    obtain ⟨hsame, hqueued⟩ := flush_same writes c
    exact (h.covered c hconnection).quiet hsame.attached (hqueued.trans (append_nil _).symm)
      (by simp)
  · intro c' hc'
    cases hc'

theorem readConnection (reads : List Holder.Read) :
    (holder.readConnection host reads).stream = holder.stream ∧
      ∀ c, (holder.readConnection host reads).connection = some c →
        Gapless holder.stream holder.stream.length c := by
  unfold Holder.readConnection
  cases hconnection : holder.connection with
  | none =>
    refine ⟨rfl, ?_⟩
    intro c hc
    exact h.covered c hc
  | some c =>
    obtain ⟨epoch, hepoch⟩ := isSome_iff_exists.mp (h.installed c hconnection).1
    have hquiet := @quiet_readMessages host c.client epoch reads
      ⟨{ holder with connection := none }, c⟩ rfl hepoch
    simp only
    cases hresult : Holder.readMessages host reads ⟨{ holder with connection := none }, c⟩ with
    | mk turn ending =>
      rw [hresult] at hquiet
      obtain ⟨more, hqueued, hmore⟩ := hquiet.queued
      have hstream : turn.holder.stream = holder.stream := hquiet.stream
      have hgapless : Gapless holder.stream holder.stream.length turn.connection :=
        (h.covered c hconnection).quiet hquiet.attached hqueued hmore
      cases ending with
      | some ending =>
        refine ⟨hstream, fun c' hc' => ?_⟩
        have hnone : turn.holder.connection = none := hquiet.connection
        cases hnone.symm.trans hc'
      | none =>
        refine ⟨hstream, fun c' hc' => ?_⟩
        obtain ⟨⟩ := hc'
        exact hgapless

end

/-- Reading from a connection that has not authenticated leaves the controller alone. -/
theorem readPending_rest {turn after : Turn} {ending : Option Holder.Ending}
    (hepoch : turn.connection.epoch = none) (reads : List Holder.Read)
    (hafter : Holder.readMessages host reads turn = (after, ending)) :
    after.holder.connection = turn.holder.connection ∧
      after.holder.stream = turn.holder.stream := by
  cases hadmits : Holder.admits host turn.connection.unread reads turn.holder with
  | none =>
    obtain ⟨unread, hunread⟩ := readMessages_unadmitted reads hepoch hadmits
    rw [hafter] at hunread
    simp only at hunread
    subst hunread
    exact ⟨rfl, rfl⟩
  | some acknowledged =>
    obtain ⟨unread, hkeeps⟩ := readMessages_granted reads hepoch hadmits
    rw [hafter] at hkeeps
    exact ⟨hkeeps.connection, hkeeps.stream⟩

theorem readPendingConnection (h : Streamed holder) (reads : List Holder.Read) (flushed : Writes) :
    (holder.readPendingConnection host reads flushed).stream = holder.stream ∧
      ∀ c, (holder.readPendingConnection host reads flushed).connection = some c →
        Gapless holder.stream holder.stream.length c := by
  unfold Holder.readPendingConnection
  cases hpending : holder.pendingConnection with
  | none => exact ⟨rfl, h.covered⟩
  | some c =>
    obtain ⟨hepoch, hqueued⟩ := h.pending c hpending
    have hout : OutputInv { holder with pendingConnection := none } := h.toOutputInv.wait (by simp)
    simp only
    cases hresult : Holder.readMessages host reads
        ⟨{ holder with pendingConnection := none }, c⟩ with
    | mk turn ending =>
      obtain ⟨-, -, hopen⟩ := @OutputInv.readPending host
        ⟨{ holder with pendingConnection := none }, c⟩ turn ending hout hepoch hqueued reads
        hresult
      obtain ⟨hconnection, hstream⟩ := @readPending_rest host
        ⟨{ holder with pendingConnection := none }, c⟩ turn ending hepoch reads hresult
      have hstream : turn.holder.stream = holder.stream := hstream
      have hrest : ∀ c, turn.holder.connection = some c →
          Gapless holder.stream holder.stream.length c := by
        rw [hconnection]
        exact h.covered
      cases ending with
      | some ending => exact ⟨hstream, hrest⟩
      | none =>
        simp only
        rcases hopen rfl with ⟨hnone, -⟩ | ⟨hgranted, hgapless⟩
        · rw [if_neg (by rw [hnone]; simp)]
          exact ⟨hstream, hrest⟩
        rw [if_pos hgranted]
        refine ⟨(OutputInv.revoke_stream flushed).trans hstream, fun c' hc' => ?_⟩
        obtain ⟨⟩ := hc'
        rw [← hstream]
        exact hgapless

theorem stream_eq (h : Streamed holder) {action : LoopAction}
    (haction : ∀ bytes painted, action ≠ .drainPty bytes painted)
    (hstep : loopStep host holder action = some holder') : holder'.stream = holder.stream := by
  cases action with
  | acceptConnection =>
    obtain ⟨⟩ := hstep
    rfl
  | drainPty bytes painted => exact absurd rfl (haction bytes painted)
  | flushInput writes =>
    rw [flushInput_cases hstep]
  | recordExit exit =>
    rcases recordExit_cases hstep with rfl | hpublishes
    · rfl
    · exact hpublishes.stream
  | readConnection reads =>
    obtain ⟨⟩ := hstep
    exact (h.readConnection reads).1
  | flushConnection writes =>
    rcases flushConnection_cases hstep with rfl | ⟨c, -, rfl | rfl⟩ <;> rfl
  | readPendingConnection reads flushed =>
    obtain ⟨⟩ := hstep
    exact (h.readPendingConnection reads flushed).1
  | emitGridDelta =>
    rcases emitGridDelta_cases hstep with rfl | hpublishes
    · rfl
    · exact hpublishes.stream

theorem step (h : Streamed holder) {action : LoopAction}
    (hstep : loopStep host holder action = some holder') : Streamed holder' := by
  refine ⟨h.toOutputInv.step hstep, ?_⟩
  cases action with
  | acceptConnection =>
    obtain ⟨⟩ := hstep
    exact h.covered
  | drainPty bytes painted => exact (h.drainPty hstep).covered
  | flushInput writes =>
    rw [flushInput_cases hstep]
    exact h.covered
  | recordExit exit => exact h.recordExit hstep
  | readConnection reads =>
    obtain ⟨⟩ := hstep
    obtain ⟨hstream, hcovered⟩ := @readConnection host holder h reads
    rw [hstream]
    exact hcovered
  | flushConnection writes => exact h.flushConnection hstep
  | readPendingConnection reads flushed =>
    obtain ⟨⟩ := hstep
    obtain ⟨hstream, hcovered⟩ := @readPendingConnection host holder h reads flushed
    rw [hstream]
    exact hcovered
  | emitGridDelta => exact h.emitGridDelta hstep

theorem new (sessionId sessionIncarnation : String) (pid : UInt32) (cols rows : Nat)
    (term : Term) : Streamed (.new sessionId sessionIncarnation pid cols rows term) where
  toOutputInv := .new sessionId sessionIncarnation pid cols rows term
  covered c h := by cases h

end Streamed

end Diri.Wire
