/-
Every controller gets the output without a gap.

`Covers` says which stretch of the PTY's stream the output frames of a list of messages
carry, one right after the other.  What a connection that stays open was queued is its
`HelloAck`, the replay it is owed, and then everything since (`Gapless`).

Two things meet at the seam.  The replay ends at the tail at which the connection
attached, and the next output is appended, hence framed, at that very offset, because no
output can come between.  And the log never forgets more than what the replay's budget
leaves out: when it drops its older half, sixteen mebibytes stay, and a replay goes back
four.
-/
import Diri.Proofs.Loop.Turn

namespace Diri.Wire

open Wire.Holder List

/-! ### Covering a stretch of the stream -/

/-- The output frames among the messages carry the stream from `start` up to `stop`. -/
inductive Covers (stream : List UInt8) (start : Nat) : Nat → List RemoteMessage → Prop
  | nil : Covers stream start start []
  | other {stop : Nat} {messages : List RemoteMessage} {message : RemoteMessage} :
      Covers stream start stop messages → message.streams = false →
        Covers stream start stop (messages ++ [message])
  | output {stop : Nat} {messages : List RemoteMessage} {bytes : List UInt8} :
      Covers stream start stop messages → bytes <+: stream.drop stop → bytes ≠ [] →
        Covers stream start (stop + bytes.length) (messages ++ [.terminal (.output stop bytes)])

namespace Covers

variable {stream : List UInt8} {start middle stop : Nat} {messages more : List RemoteMessage}

theorem trans (h : Covers stream start middle messages) (h' : Covers stream middle stop more) :
    Covers stream start stop (messages ++ more) := by
  induction h' with
  | nil => simpa using h
  | other _ hquiet ih =>
    rw [← append_assoc]
    exact .other ih hquiet
  | output _ hbytes hne ih =>
    rw [← append_assoc]
    exact .output ih hbytes hne

theorem quiet (h : Covers stream start stop messages)
    (hquiet : ∀ message ∈ more, message.streams = false) :
    Covers stream start stop (messages ++ more) := by
  induction more using reverseRecOn with
  | nil => simpa using h
  | append_singleton more message ih =>
    rw [← append_assoc]
    refine .other (ih fun m hm => hquiet m (mem_append_left _ hm)) (hquiet message ?_)
    simp

theorem grow (h : Covers stream start stop messages) (bytes : List UInt8) :
    Covers (stream ++ bytes) start stop messages := by
  induction h with
  | nil => exact .nil
  | other _ hquiet ih => exact .other ih hquiet
  | output _ hbytes hne ih =>
    refine .output ih (hbytes.trans ?_) hne
    rw [drop_append]
    exact prefix_append _ _

end Covers

/-! ### What a connection was queued -/

/-- The replay that is owed to a client that attaches at `tail`. -/
inductive Replayed (stream : List UInt8) (acknowledged : Option Nat) (tail : Nat) :
    List RemoteMessage → Prop
  | nothing : tail ≤ acknowledged.getD tail → Replayed stream acknowledged tail []
  | owed {outputs : List RemoteMessage} : acknowledged.getD tail < tail →
      Covers stream (max (acknowledged.getD tail) (tail - replayBudgetBytes)) tail outputs →
      (∀ message ∈ outputs, message.streams = true) →
        Replayed stream acknowledged tail
          (.terminal (.replayBegin (max (acknowledged.getD tail) (tail - replayBudgetBytes)))
            :: outputs ++ [.terminal (.replayEnd tail)])

/-- The acknowledgement, the replay, and everything from then on up to `stop`. -/
def Gapless (stream : List UInt8) (stop : Nat) (c : Connection) : Prop :=
  ∃ acknowledged tail ack replay live, c.attached = some (acknowledged, tail) ∧
    c.queued = .helloAck ack :: replay ++ live ∧ Replayed stream acknowledged tail replay ∧
    Covers stream tail stop live

/-- A handshake that broke off: no output at all, or a replay that breaks off. -/
def BrokenOff (stream : List UInt8) (c : Connection) : Prop :=
  (∀ message ∈ c.queued, message.streams = false) ∨
  ∃ start stop before outputs,
    c.queued = before ++ .terminal (.replayBegin start) :: outputs ∧
      (∀ message ∈ before, message.streams = false) ∧ Covers stream start stop outputs

variable {c c' : Connection} {more : List RemoteMessage} {stream : List UInt8}

theorem Gapless.quiet {stop : Nat} (h : Gapless stream stop c)
    (hattached : c'.attached = c.attached) (hqueued : c'.queued = c.queued ++ more)
    (hquiet : ∀ message ∈ more, message.streams = false) : Gapless stream stop c' := by
  obtain ⟨acknowledged, tail, ack, replay, live, hat, hmessages, hreplayed, hlive⟩ := h
  refine ⟨acknowledged, tail, ack, replay, live ++ more, hattached.trans hat, ?_, hreplayed,
    hlive.quiet hquiet⟩
  rw [hqueued, hmessages, append_assoc]

variable {c : Connection}

theorem BrokenOff.of_replay {ack : HelloAck}
    {replay : List RemoteMessage} (hqueued : c.queued = .helloAck ack :: replay)
    (hreplay : replay = [] ∨ ∃ start stop outputs,
      replay = .terminal (.replayBegin start) :: outputs ∧ Covers stream start stop outputs) :
    BrokenOff stream c := by
  have hack : ∀ message ∈ [RemoteMessage.helloAck ack], message.streams = false := by
    intro message hmessage
    rw [mem_singleton.mp hmessage]
    rfl
  rcases hreplay with rfl | ⟨start, stop, outputs, rfl, hcovers⟩
  · exact Or.inl (hqueued ▸ hack)
  · exact Or.inr ⟨start, stop, [.helloAck ack], outputs, hqueued, hack, hcovers⟩

theorem BrokenOff.quiet (h : BrokenOff stream c) (hqueued : c'.queued = c.queued ++ more)
    (hquiet : ∀ message ∈ more, message.streams = false) : BrokenOff stream c' := by
  rcases h with h | ⟨start, stop, before, outputs, hmessages, hbefore, houtputs⟩
  · refine Or.inl ?_
    intro message hmessage
    rw [hqueued] at hmessage
    rcases mem_append.mp hmessage with hmessage | hmessage
    · exact h message hmessage
    · exact hquiet message hmessage
  · refine Or.inr ⟨start, stop, before, outputs ++ more, ?_, hbefore, houtputs.quiet hquiet⟩
    rw [hqueued, hmessages, append_assoc, cons_append]

theorem Gapless.grow {stop : Nat}
    (h : Gapless stream stop c) (bytes : List UInt8) : Gapless (stream ++ bytes) stop c := by
  obtain ⟨acknowledged, tail, ack, replay, live, hat, hmessages, hreplayed, hlive⟩ := h
  refine ⟨acknowledged, tail, ack, replay, live, hat, hmessages, ?_, hlive.grow bytes⟩
  cases hreplayed with
  | nothing hnothing => exact .nothing hnothing
  | owed howed hcovers houtputs => exact .owed howed (hcovers.grow bytes) houtputs

theorem BrokenOff.grow (h : BrokenOff stream c)
    (bytes : List UInt8) : BrokenOff (stream ++ bytes) c := by
  rcases h with h | ⟨start, stop, before, outputs, hmessages, hbefore, houtputs⟩
  · exact Or.inl h
  · exact Or.inr ⟨start, stop, before, outputs, hmessages, hbefore, houtputs.grow bytes⟩

theorem Gapless.output {bytes : List UInt8}
    (h : Gapless stream stream.length c) (hattached : c'.attached = c.attached)
    (hqueued : c'.queued = c.queued ++ [.terminal (.output stream.length bytes)])
    (hne : bytes ≠ []) : Gapless (stream ++ bytes) (stream ++ bytes).length c' := by
  obtain ⟨acknowledged, tail, ack, replay, live, hat, hmessages, hreplayed, hlive⟩ := h.grow bytes
  refine ⟨acknowledged, tail, ack, replay, live ++ [.terminal (.output stream.length bytes)],
    hattached.trans hat, ?_, hreplayed, ?_⟩
  · rw [hqueued, hmessages, append_assoc]
  · rw [length_append]
    refine .output hlive ?_ hne
    rw [drop_left]

/-! ### The log -/

/-- The file is a window on the stream that reaches back far enough for every replay. -/
structure Logged (stream : List UInt8) (log : OutputLog) : Prop where
  window : Window stream log.baseOffset log.payload
  floor : log.baseOffset = 0 ∨ log.baseOffset + replayBudgetBytes ≤ log.tailOffset

namespace Logged

variable {stream : List UInt8} {log : OutputLog}

section
variable (h : Logged stream log)
include h

theorem tailOffset : log.tailOffset = stream.length := h.window.length

theorem append (bytes : List UInt8) :
    (log.append bytes).1 = stream.length ∧ Logged (stream ++ bytes) (log.append bytes).2 := by
  refine ⟨h.tailOffset, ?_⟩
  have hwindow := h.window.append bytes
  unfold OutputLog.append
  simp only
  by_cases hfull : (log.payload ++ bytes).length > diskCapacity
  · rw [if_pos hfull]
    unfold OutputLog.truncateToHalf
    obtain ⟨dropped, hdropped⟩ : ∃ dropped,
      dropped = (log.payload ++ bytes).length - diskCapacity / 2 := ⟨_, rfl⟩
    simp only
    rw [← hdropped]
    unfold diskCapacity at hfull hdropped
    refine ⟨hwindow.dropFront (by omega), Or.inr ?_⟩
    unfold OutputLog.tailOffset replayBudgetBytes
    simp only [length_drop]
    omega
  rw [if_neg hfull]
  refine ⟨hwindow, ?_⟩
  rcases h.floor with hzero | hfloor
  · exact Or.inl hzero
  right
  unfold OutputLog.tailOffset at hfloor ⊢
  rw [length_append]
  omega

theorem base_le (requested : Nat) :
    log.baseOffset ≤ max requested (stream.length - replayBudgetBytes) := by
  have htail := h.tailOffset
  rcases h.floor with hzero | hfloor
  · omega
  · omega

theorem read {offset maximum : Nat} (hbase : log.baseOffset ≤ offset)
    (htail : offset < stream.length) (hmaximum : 0 < maximum) :
    ∃ bytes, log.read offset maximum = (offset, bytes) ∧ bytes ≠ [] ∧
      bytes <+: stream.drop offset := by
  have hlength := h.tailOffset
  have hmax : max offset log.baseOffset = offset := Nat.max_eq_left hbase
  refine ⟨(stream.drop offset).take (min (stream.length - offset) maximum), ?_, ?_, take_prefix _ _⟩
  · unfold OutputLog.read
    rw [hmax, hlength, if_neg (by omega), h.window.read hbase]
  · intro hnil
    have hzero := congrArg List.length hnil
    rw [length_take, length_drop, length_nil] at hzero
    omega

end

end Logged

/-! ### The handshake -/

namespace Holder

open Handler

variable {host : Host}

/-- Queueing throws and changes nothing, or queues the message and nothing else. -/
theorem exec_queueTo_queued (message : RemoteMessage) (turn : Turn) :
    (∃ error, (queueTo host message).exec turn = (.error error, turn)) ∨
      ∃ c, (queueTo host message).exec turn = (.ok (), { turn with connection := c }) ∧
        c.queued = turn.connection.queued ++ [message] ∧
        c.attached = turn.connection.attached := by
  rcases @exec_queueTo host message turn with herror | ⟨c, hqueue, hexec⟩
  · exact Or.inl herror
  · obtain ⟨hqueued, -, -, hattached, -⟩ := Connection.queue_ok hqueue
    exact Or.inr ⟨c, hexec, hqueued, hattached⟩

/-- The loop queues the stream from its offset on, up to the tail unless it throws. -/
theorem exec_replayLoop {tail fuel offset : Nat} {turn : Turn}
    (hlogged : Logged turn.holder.stream turn.holder.log)
    (htail : tail = turn.holder.stream.length) (hbase : turn.holder.log.baseOffset ≤ offset)
    (hoffset : offset ≤ tail) (hfuel : tail - offset ≤ fuel) :
    ∃ outputs stop, ((replayLoop host tail fuel offset).exec turn).2.connection.queued
        = turn.connection.queued ++ outputs ∧ Covers turn.holder.stream offset stop outputs ∧
      (∀ message ∈ outputs, message.streams = true) ∧
      (((replayLoop host tail fuel offset).exec turn).1 = .ok () → stop = tail) := by
  induction fuel generalizing offset turn with
  | zero =>
    refine ⟨[], offset, by simp [replayLoop], .nil, by simp, fun _ => ?_⟩
    omega
  | succ fuel ih =>
    unfold replayLoop
    by_cases hmore : offset < tail
    · obtain ⟨bytes, hread, hne, hbytes⟩ :=
        hlogged.read hbase (htail ▸ hmore) (by omega : 0 < 64 * 1024)
      have hcovers : Covers turn.holder.stream offset (offset + bytes.length)
          [.terminal (.output offset bytes)] := .output .nil hbytes hne
      rw [if_pos hmore, exec_bind_ok (exec_get turn), hread]
      simp only
      rw [if_neg hne]
      rcases @exec_queueTo_queued host (.terminal (.output offset bytes)) turn with
        ⟨error, hexec⟩ | ⟨c, hexec, hqueued, -⟩
      · rw [exec_bind_error hexec]
        exact ⟨[], offset, by simp, .nil, by simp, by simp⟩
      rw [exec_bind_ok hexec]
      have hlength := hbytes.length_le
      rw [length_drop] at hlength
      have hpos := length_pos_iff.mpr hne
      obtain ⟨outputs, stop, houtputs, hrest, hstreams, hstop⟩ :=
        @ih (offset + bytes.length) { turn with connection := c } hlogged htail
          (Nat.le_add_right_of_le hbase) (by omega) (by omega)
      refine ⟨.terminal (.output offset bytes) :: outputs, stop, ?_, hcovers.trans hrest, ?_, hstop⟩
      · rw [houtputs, hqueued, append_assoc, singleton_append]
      · intro message hmessage
        rcases mem_cons.mp hmessage with rfl | hmessage
        · rfl
        · exact hstreams message hmessage
    rw [if_neg hmore]
    refine ⟨[], offset, by simp, .nil, by simp, fun _ => ?_⟩
    omega

theorem exec_queueReplay {acknowledged : Option Nat} {turn : Turn}
    (hlogged : Logged turn.holder.stream turn.holder.log) :
    ∃ replay, ((queueReplay host acknowledged).exec turn).2.connection.queued
        = turn.connection.queued ++ replay ∧
      (Replayed turn.holder.stream acknowledged turn.holder.stream.length replay ∨
        ((queueReplay host acknowledged).exec turn).1 ≠ .ok () ∧
          (replay = [] ∨ ∃ start stop outputs, replay = .terminal (.replayBegin start) :: outputs ∧
            Covers turn.holder.stream start stop outputs)) := by
  unfold queueReplay
  rw [exec_bind_ok (exec_get turn)]
  simp only
  rw [hlogged.tailOffset]
  by_cases howed : turn.holder.stream.length ≤ acknowledged.getD turn.holder.stream.length
  · rw [if_pos howed]
    exact ⟨[], by simp, Or.inl (.nothing howed)⟩
  rw [if_neg howed]
  obtain ⟨start, hstart⟩ : ∃ start, start = max (acknowledged.getD turn.holder.stream.length)
      (turn.holder.stream.length - replayBudgetBytes) := ⟨_, rfl⟩
  rw [← hstart]
  have hpositive : 0 < replayBudgetBytes := by decide
  have hbase : turn.holder.log.baseOffset ≤ start := by
    rw [hstart]
    exact hlogged.base_le _
  rcases @exec_queueTo_queued host (.terminal (.replayBegin start)) turn with
    ⟨error, hexec⟩ | ⟨c, hexec, hqueued, -⟩
  · rw [exec_bind_error hexec]
    exact ⟨[], by simp, Or.inr ⟨by simp, Or.inl rfl⟩⟩
  rw [exec_bind_ok hexec]
  obtain ⟨outputs, stop, houtputs, hcovers, hstreams, hstop⟩ :=
    @exec_replayLoop host turn.holder.stream.length (turn.holder.stream.length - start) start
      { turn with connection := c } hlogged rfl hbase (by omega) (Nat.le_refl _)
  cases hloop : (replayLoop host turn.holder.stream.length
      (turn.holder.stream.length - start) start).exec { turn with connection := c } with
  | mk result next =>
    rw [hloop] at houtputs hstop
    have hfront : next.connection.queued
        = turn.connection.queued ++ (.terminal (.replayBegin start) :: outputs) := by
      rw [houtputs, hqueued, append_assoc, singleton_append]
    cases result with
    | error error =>
      rw [exec_bind_error hloop]
      exact ⟨_, hfront, Or.inr ⟨by simp, Or.inr ⟨start, stop, outputs, rfl, hcovers⟩⟩⟩
    | ok _ =>
      rw [exec_bind_ok hloop]
      obtain rfl := hstop rfl
      rcases @exec_queueTo_queued host
          (.terminal (.replayEnd turn.holder.stream.length)) next with
        ⟨error, hexec⟩ | ⟨c', hexec, hqueued', -⟩
      · rw [hexec]
        exact ⟨_, hfront, Or.inr ⟨by simp, Or.inr ⟨start, _, outputs, rfl, hcovers⟩⟩⟩
      rw [hexec]
      refine ⟨_, hqueued'.trans (by rw [hfront, append_assoc]), Or.inl ?_⟩
      rw [hstart] at hcovers ⊢
      exact .owed (by omega) hcovers hstreams

theorem exec_handshake_queued {hello : Hello} {world : World} {turn : Turn}
    (hlogged : Logged turn.holder.stream turn.holder.log) (hqueued : turn.connection.queued = [])
    (hcheck : turn.holder.checkHello host hello world = .ok ()) :
    Gapless turn.holder.stream turn.holder.stream.length
        ((handshake host hello world).exec turn).2.connection ∨
      ((handshake host hello world).exec turn).1 ≠ .ok () ∧
        BrokenOff turn.holder.stream ((handshake host hello world).exec turn).2.connection := by
  unfold handshake
  rw [exec_bind_ok (exec_get turn), hcheck]
  simp only
  rw [exec_bind_ok (exec_modify _ _), exec_bind_ok (exec_get _)]
  obtain ⟨acknowledged, hacknowledged⟩ : ∃ acknowledged,
    acknowledged = hello.lastAcknowledgedOutputOffset.map UInt64.toNat := ⟨_, rfl⟩
  rw [← hacknowledged]
  obtain ⟨ack, hack⟩ : ∃ ack, ack = (grant acknowledged turn).holder.helloAck host := ⟨_, rfl⟩
  rw [← hack]
  have hattached : (grant acknowledged turn).connection.attached
      = some (acknowledged, turn.holder.stream.length) := by
    rw [← hlogged.tailOffset]
    rfl
  rcases @exec_queueTo_queued host (.helloAck ack) (grant acknowledged turn) with
    ⟨error, hexec⟩ | ⟨c, hexec, hfirst, hat⟩
  · rw [exec_bind_error hexec]
    refine Or.inr ⟨by simp, Or.inl ?_⟩
    rw [show (grant acknowledged turn).connection.queued = turn.connection.queued from rfl, hqueued]
    simp
  rw [exec_bind_ok hexec]
  rw [show (grant acknowledged turn).connection.queued = turn.connection.queued from rfl,
    hqueued, nil_append] at hfirst
  obtain ⟨replay, hreplay, hcases⟩ := @exec_queueReplay host acknowledged
    { grant acknowledged turn with connection := c } hlogged
  have hkeeps := @keeps_queueReplay host 0 0 acknowledged
    { grant acknowledged turn with connection := c }
  cases hrun : (queueReplay host acknowledged).exec
      { grant acknowledged turn with connection := c } with
  | mk result next =>
    rw [hrun] at hreplay hcases hkeeps
    have hnext : next.connection.queued = .helloAck ack :: replay := by
      rw [hreplay, hfirst, singleton_append]
    have hstart : Replayed turn.holder.stream acknowledged turn.holder.stream.length replay →
        Gapless turn.holder.stream turn.holder.stream.length next.connection := by
      intro hreplayed
      exact ⟨acknowledged, _, _, replay, [], hkeeps.attached.trans (hat.trans hattached),
        hnext.trans (append_nil _).symm, hreplayed, .nil⟩
    cases result with
    | error error =>
      rw [exec_bind_error hrun]
      rcases hcases with hreplayed | ⟨-, hbroken⟩
      · exact Or.inl (hstart hreplayed)
      · exact Or.inr ⟨by simp, .of_replay hnext hbroken⟩
    | ok _ =>
      rw [exec_bind_ok hrun]
      rcases hcases with hreplayed | ⟨hok, -⟩
      · have hquiet := @quiet_finishHandshake host 0 0 world next
        obtain ⟨more, hmore, hnone⟩ := hquiet.queued
        exact Or.inl ((hstart hreplayed).quiet hquiet.attached hmore hnone)
      · exact absurd rfl hok

end Holder

/-! ### The invariant -/

/-- An installed connection: nothing is missing, unless it was told so. -/
def Attached (stream : List UInt8) (c : Connection) : Prop :=
  c.epoch.isSome ∧ (c.reseeded = false → Gapless stream stream.length c)

/-- A connection that is gone: nothing is missing up to where it stopped. -/
def Stopped (stream : List UInt8) (c : Connection) : Prop :=
  c.epoch.isSome → c.reseeded = false → (∃ stop, Gapless stream stop c) ∨ BrokenOff stream c

structure OutputInv (holder : Holder) : Prop where
  logged : Logged holder.stream holder.log
  installed : ∀ c, holder.connection = some c → Attached holder.stream c
  pending : ∀ c, holder.pendingConnection = some c → c.epoch = none ∧ c.queued = []
  past : ∀ c ∈ holder.past, Stopped holder.stream c

theorem reseeded_of_append
    (hqueued : c'.queued = c.queued ++ more) (h : c'.reseeded = false) : c.reseeded = false := by
  unfold Connection.reseeded at h ⊢
  rw [hqueued, any_append] at h
  exact (Bool.or_eq_false_iff.mp h).1

theorem Attached.quiet
    (h : Attached stream c) (hepoch : c'.epoch = c.epoch) (hattached : c'.attached = c.attached)
    (hqueued : c'.queued = c.queued ++ more)
    (hquiet : ∀ message ∈ more, message.streams = false) : Attached stream c' := by
  refine ⟨by rw [hepoch]; exact h.1, fun hreseeded => ?_⟩
  exact (h.2 (reseeded_of_append hqueued hreseeded)).quiet hattached hqueued hquiet

theorem Attached.stopped (h : Attached stream c) : Stopped stream c := by
  intro _ hreseeded
  exact Or.inl ⟨_, h.2 hreseeded⟩

theorem Stopped.grow (h : Stopped stream c) (bytes : List UInt8) : Stopped (stream ++ bytes) c := by
  intro hepoch hreseeded
  rcases h hepoch hreseeded with ⟨stop, hgapless⟩ | hbroken
  · exact Or.inl ⟨stop, hgapless.grow bytes⟩
  · exact Or.inr (hbroken.grow bytes)

namespace OutputInv

variable {host : Host} {holder holder' : Holder}

theorem retire (h : OutputInv holder) {c : Connection} (hc : Stopped holder.stream c) :
    OutputInv (holder.retire c) :=
  { h with
    past := by
      intro other hother
      rcases mem_append.mp hother with hother | hother
      · exact h.past other hother
      · rw [mem_singleton.mp hother]
        exact hc }

theorem install (h : OutputInv holder) {connection : Option Connection}
    (hconnection : ∀ c, connection = some c → Attached holder.stream c) :
    OutputInv { holder with connection := connection } :=
  { h with installed := hconnection }

theorem wait (h : OutputInv holder) {connection : Option Connection}
    (hconnection : ∀ c, connection = some c → c.epoch = none ∧ c.queued = []) :
    OutputInv { holder with pendingConnection := connection } :=
  { h with pending := hconnection }

theorem queues {message : RemoteMessage} (hlogged : Logged holder.stream holder.log)
    (hpending : ∀ c, holder.pendingConnection = some c → c.epoch = none ∧ c.queued = [])
    (hpast : ∀ c ∈ holder.past, Stopped holder.stream c)
    (hepoch : ∀ c, holder.connection = some c → c.epoch.isSome)
    (hnext : ∀ c c', holder.connection = some c → c.queue host.json message = .ok c' →
      Attached holder.stream c')
    (h : Queues host.json message holder holder') : OutputInv holder' := by
  have hnone : OutputInv { holder with connection := none } := ⟨hlogged, by simp, hpending, hpast⟩
  cases h with
  | idle hidle =>
    refine ⟨hlogged, ?_, hpending, hpast⟩
    intro c hc
    rw [hidle] at hc
    cases hc
  | queued hconnection hqueue =>
    refine hnone.install ?_
    intro c hc
    obtain ⟨⟩ := hc
    exact hnext _ _ hconnection hqueue
  | dropped hconnection hqueue => exact hnone.retire (hnext _ _ hconnection hqueue).stopped
  | reseeded hconnection hsame hreseeded =>
    refine ⟨hlogged, ?_, hpending, hpast⟩
    intro c hc
    obtain ⟨⟩ := hc
    refine ⟨by rw [hsame.epoch]; exact hepoch _ hconnection, fun hfalse => ?_⟩
    rw [hfalse] at hreseeded
    cases hreseeded

theorem publishes (h : OutputInv holder) (hpublishes : Holder.Publishes host.json holder holder') :
    OutputInv holder' := by
  obtain ⟨changed, message, hlog, hstream, hconnection, hpast, hsends, hquiet, hqueues⟩ :=
    hpublishes.published
  refine queues ?_ ?_ ?_ ?_ ?_ hqueues
  · rw [hlog, hstream]
    exact h.logged
  · rw [hsends.pendingConnection]
    exact h.pending
  · rw [hpast, hstream]
    exact h.past
  · intro c hc
    exact (h.installed c (hconnection ▸ hc)).1
  intro c c' hc hqueue
  obtain ⟨hqueued, -, hepoch, hattached, -⟩ := Connection.queue_ok hqueue
  rw [hstream]
  refine (h.installed c (hconnection ▸ hc)).quiet hepoch hattached hqueued ?_
  intro other hother
  rw [mem_singleton.mp hother]
  exact hquiet

/-- **Output is framed at the tail, where the connection's coverage ends.** -/
theorem drainPty (h : OutputInv holder) {bytes : List UInt8} {painted : Painted}
    (hstep : holder.drainPty host bytes painted = some holder') : OutputInv holder' := by
  rcases drainPty_cases hstep with (rfl | rfl) |
    ⟨hbytes, logged, hlog, hstream, hconnection, hpast, hsends, hcases⟩
  · exact h
  · exact { h with }
  obtain ⟨hoffset, happended⟩ := h.logged.append bytes
  have hlogged : Logged logged.stream logged.log := by
    rw [hlog, hstream]
    exact happended
  have hpending : ∀ c, logged.pendingConnection = some c → c.epoch = none ∧ c.queued = [] := by
    rw [hsends.pendingConnection]
    exact h.pending
  have hstopped : ∀ c ∈ logged.past, Stopped logged.stream c := by
    intro c hc
    rw [hstream]
    exact (h.past c (hpast ▸ hc)).grow bytes
  have hepoch : ∀ c, logged.connection = some c → c.epoch.isSome := by
    intro c hc
    exact (h.installed c (hconnection ▸ hc)).1
  rcases hcases with ⟨hidle, rfl⟩ | ⟨-, hqueues⟩
  · refine ⟨hlogged, ?_, hpending, hstopped⟩
    intro c hc
    have hsome := (h.installed c (hconnection ▸ hc)).1
    rw [hconnection] at hc
    unfold Holder.attached at hidle
    rw [hc, Option.any_some, hsome] at hidle
    cases hidle
  refine queues hlogged hpending hstopped hepoch ?_ hqueues
  intro c c' hc hqueue
  have hinstalled := h.installed c (hconnection ▸ hc)
  obtain ⟨hqueued, -, hepoch', hattached, -⟩ := Connection.queue_ok hqueue
  refine ⟨by rw [hepoch']; exact hinstalled.1, fun hreseeded => ?_⟩
  rw [hoffset] at hqueued
  rw [hstream]
  exact (hinstalled.2 (reseeded_of_append hqueued hreseeded)).output hattached hqueued hbytes

theorem flushConnection (h : OutputInv holder) {writes : Writes}
    (hstep : holder.flushConnection writes = some holder') : OutputInv holder' := by
  have hflushed : ∀ c, holder.connection = some c →
      Attached holder.stream (c.flush writes).2 := by
    intro c hc
    obtain ⟨hsame, hqueued⟩ := flush_same writes c
    have hqueued' : (c.flush writes).2.queued = c.queued ++ [] := by
      rw [hqueued, append_nil]
    exact (h.installed c hc).quiet hsame.epoch hsame.attached hqueued' (by simp)
  rcases flushConnection_cases hstep with rfl | ⟨c, hconnection, rfl | rfl⟩
  · exact h
  · refine h.install ?_
    intro c' hc'
    obtain ⟨⟩ := hc'
    exact hflushed c hconnection
  · exact (h.install (by simp)).retire (hflushed c hconnection).stopped

theorem keeps {turn after : Turn} {client epoch : Nat} (h : OutputInv turn.holder)
    (hkeeps : Keeps client epoch turn after) : OutputInv after.holder where
  logged := by rw [hkeeps.stream, hkeeps.log]; exact h.logged
  installed := by rw [hkeeps.stream, hkeeps.connection]; exact h.installed
  pending := by rw [hkeeps.pendingConnection]; exact h.pending
  past := by rw [hkeeps.stream, hkeeps.past]; exact h.past

theorem readConnection (h : OutputInv holder) (reads : List Holder.Read) :
    OutputInv (holder.readConnection host reads) := by
  unfold Holder.readConnection
  cases hconnection : holder.connection with
  | none => exact h
  | some c =>
    have hattached := h.installed c hconnection
    obtain ⟨epoch, hepoch⟩ := Option.isSome_iff_exists.mp hattached.1
    have hout : OutputInv { holder with connection := none } := h.install (by simp)
    have hquiet := @quiet_readMessages host c.client epoch reads
      ⟨{ holder with connection := none }, c⟩ rfl hepoch
    simp only
    cases hresult : Holder.readMessages host reads ⟨{ holder with connection := none }, c⟩ with
    | mk turn ending =>
      rw [hresult] at hquiet
      obtain ⟨more, hqueued, hnone⟩ := hquiet.queued
      have hread : OutputInv turn.holder :=
        @keeps ⟨{ holder with connection := none }, c⟩ turn _ _ hout hquiet.toKeeps
      have hafter : Attached turn.holder.stream turn.connection := by
        rw [hquiet.stream]
        exact hattached.quiet hquiet.sameEpoch hquiet.attached hqueued hnone
      cases ending with
      | some ending => exact hread.retire hafter.stopped
      | none =>
        refine hread.install ?_
        intro c' hc'
        obtain ⟨⟩ := hc'
        exact hafter

theorem revoke (h : OutputInv holder) (flushed : Writes) :
    OutputInv (holder.revoke host flushed) := by
  unfold Holder.revoke
  cases hconnection : holder.connection with
  | none => exact h
  | some previous =>
    have hattached := h.installed previous hconnection
    refine (h.install (by simp)).retire ?_
    obtain ⟨hsame, hqueued⟩ := flush_same flushed
      ((previous.queue host.json (.controlRevoked ⟨.ofNat (previous.epoch.getD 0),
        "superseded by a newer authenticated attach"⟩)).toOption.getD previous)
    refine (Attached.quiet ?_ hsame.epoch hsame.attached
      (hqueued.trans (append_nil _).symm) (by simp)).stopped
    cases hqueue : previous.queue host.json (.controlRevoked ⟨.ofNat (previous.epoch.getD 0),
        "superseded by a newer authenticated attach"⟩) with
    | error error => exact hattached
    | ok told =>
      obtain ⟨htold, -, hepoch, hat, -⟩ := Connection.queue_ok hqueue
      refine hattached.quiet hepoch hat htold ?_
      intro message hmessage
      rw [mem_singleton.mp hmessage]
      rfl

theorem revoke_stream (flushed : Writes) : (holder.revoke host flushed).stream = holder.stream := by
  unfold Holder.revoke
  cases holder.connection with
  | none => rfl
  | some previous => rfl

/--
What comes of a connection that has not authenticated: it still has not, or it was granted
an epoch and nothing is missing, unless it is closed.
-/
theorem readPending {turn after : Turn} {ending : Option Holder.Ending}
    (h : OutputInv turn.holder) (hepoch : turn.connection.epoch = none)
    (hqueued : turn.connection.queued = []) (reads : List Holder.Read)
    (hafter : Holder.readMessages host reads turn = (after, ending)) :
    OutputInv after.holder ∧ Stopped after.holder.stream after.connection ∧
      (ending = none → after.connection.epoch = none ∧ after.connection.queued = [] ∨
        after.connection.epoch.isSome ∧
          Gapless after.holder.stream after.holder.stream.length after.connection) := by
  cases hadmits : Holder.admits host turn.connection.unread reads turn.holder with
  | none =>
    obtain ⟨unread, hunread⟩ := readMessages_unadmitted reads hepoch hadmits
    rw [hafter] at hunread
    simp only at hunread
    subst hunread
    refine ⟨h, ?_, fun _ => Or.inl ⟨hepoch, hqueued⟩⟩
    intro hsome
    rw [show (turn.setUnread unread).connection.epoch = none from hepoch] at hsome
    cases hsome
  | some acknowledged =>
    obtain ⟨unread, hkeeps⟩ := readMessages_granted reads hepoch hadmits
    obtain ⟨unread', hello, world, hcheck, -, hquiet, hopen⟩ :=
      readMessages_admitted reads hepoch hadmits
    rw [hafter] at hkeeps hquiet hopen
    have hgranted : OutputInv (Holder.grant acknowledged (turn.setUnread unread)).holder :=
      { h with }
    have hsome : after.connection.epoch.isSome := by
      rw [hkeeps.sameEpoch]
      rfl
    have hstream : after.holder.stream = turn.holder.stream := hkeeps.stream
    obtain ⟨more, hmore, hnone⟩ := hquiet.queued
    have hshaken := @exec_handshake_queued host hello world (turn.setUnread unread')
      h.logged hqueued hcheck
    refine ⟨hgranted.keeps hkeeps, ?_, ?_⟩
    · intro _ _
      rw [hstream]
      rcases hshaken with hgapless | ⟨-, hbroken⟩
      · exact Or.inl ⟨_, hgapless.quiet hquiet.attached hmore hnone⟩
      · exact Or.inr (hbroken.quiet hmore hnone)
    intro hnotClosed
    right
    rcases hshaken with hgapless | ⟨herror, -⟩
    · refine ⟨hsome, ?_⟩
      rw [hstream]
      exact hgapless.quiet hquiet.attached hmore hnone
    cases hresult : ((Holder.handshake host hello world).exec
        (turn.setUnread unread')).1 with
    | ok _ => exact absurd hresult herror
    | error error => exact absurd hnotClosed (hopen error hresult)

theorem readPendingConnection (h : OutputInv holder) (reads : List Holder.Read)
    (flushed : Writes) : OutputInv (holder.readPendingConnection host reads flushed) := by
  unfold Holder.readPendingConnection
  cases hpending : holder.pendingConnection with
  | none => exact h
  | some c =>
    obtain ⟨hepoch, hqueued⟩ := h.pending c hpending
    have hout : OutputInv { holder with pendingConnection := none } := h.wait (by simp)
    simp only
    cases hresult : Holder.readMessages host reads
        ⟨{ holder with pendingConnection := none }, c⟩ with
    | mk turn ending =>
      obtain ⟨hread, hstopped, hopen⟩ := @readPending host
        ⟨{ holder with pendingConnection := none }, c⟩ turn ending hout hepoch hqueued reads
        hresult
      cases ending with
      | some ending => exact hread.retire hstopped
      | none =>
        simp only
        rcases hopen rfl with ⟨hnone, hempty⟩ | ⟨hgranted, hgapless⟩
        · rw [if_neg (by rw [hnone]; simp)]
          refine hread.wait ?_
          intro c' hc'
          obtain ⟨⟩ := hc'
          exact ⟨hnone, hempty⟩
        rw [if_pos hgranted]
        refine (hread.revoke flushed).install ?_
        intro c' hc'
        obtain ⟨⟩ := hc'
        rw [revoke_stream]
        exact ⟨hgranted, fun _ => hgapless⟩

theorem step (h : OutputInv holder) {action : LoopAction}
    (hstep : loopStep host holder action = some holder') : OutputInv holder' := by
  cases action with
  | acceptConnection =>
    obtain ⟨⟩ := hstep
    refine { h with pending := ?_ }
    intro c hc
    obtain ⟨⟩ := hc
    exact ⟨rfl, rfl⟩
  | drainPty bytes painted => exact h.drainPty hstep
  | flushInput writes =>
    rw [flushInput_cases hstep]
    exact { h with }
  | recordExit exit =>
    rcases recordExit_cases hstep with rfl | hpublishes
    · exact h
    · exact h.publishes hpublishes
  | readConnection reads =>
    obtain ⟨⟩ := hstep
    exact h.readConnection reads
  | flushConnection writes => exact h.flushConnection hstep
  | readPendingConnection reads flushed =>
    obtain ⟨⟩ := hstep
    exact h.readPendingConnection reads flushed
  | emitGridDelta =>
    rcases emitGridDelta_cases hstep with rfl | hpublishes
    · exact h
    · exact h.publishes hpublishes

theorem new (sessionId sessionIncarnation : String) (pid : UInt32) (cols rows : Nat)
    (term : Term) : OutputInv (.new sessionId sessionIncarnation pid cols rows term) where
  logged := ⟨.nil, Or.inl rfl⟩
  installed c h := by cases h
  pending c h := by cases h
  past c h := by cases h

end OutputInv

/-! ### Runs -/

end Diri.Wire
