/-
What the bound on a client's buffer measures.

`queue` compares the whole buffer with the bound, and a flush empties the buffer only when
it has sent all of it.  So bytes that the client has long taken count as its backlog; the
bound is one on the backlog just where they make no difference (`SentMakesNoDifference`).
-/
import Diri.Proofs.Codec.Payloads
import Diri.Lib.Run
import Diri.Remote.EventLoop

namespace Diri.Wire

open List

def Connection.extended (message : RemoteMessage) (frame : List UInt8) (c : Connection) :
    Connection :=
  { c with
    outbound := c.outbound ++ frame
    queued := c.queued ++ [message] }

theorem Connection.queue_eq (json : SerdeJson) (message : RemoteMessage) (c : Connection) :
    c.queue json message =
      (RemoteCodec.encode json message).map fun frame => c.extended message frame := by
  unfold Connection.queue
  rw [RemoteCodec.encodeInto_eq]
  cases RemoteCodec.encode json message with
  | error error => rfl
  | ok frame => rfl

def Holder.withConnection (c : Connection) (holder : Holder) : Holder :=
  { holder with connection := some c }

inductive BacklogStep where
  | queue (message : RemoteMessage)
  | flush (writes : Writes)

namespace Holder

def backlogStep (host : Host) (holder : Holder) : BacklogStep → Option Holder
  | .queue message => holder.queue host message
  | .flush writes => holder.flushConnection writes

/-- A message that is queued stays queued, and all before it, unless too much is unsent. -/
def Measured (host : Host) (holder : Holder) : BacklogStep → Prop
  | .queue message => ∀ c frame after, holder.connection = some c →
      RemoteCodec.encode host.json message = .ok frame → holder.queue host message = some after →
      after.connection = some (c.extended message frame) ∨
      maxOutboundBytes < c.outbound.length + frame.length - c.sent
  | .flush _ => True

/-- If the buffer is beyond the bound with what was sent, it is beyond it without. -/
def SentMakesNoDifference (host : Host) (holder : Holder) : BacklogStep → Prop
  | .queue message => ∀ c frame, holder.connection = some c →
      RemoteCodec.encode host.json message = .ok frame →
      maxOutboundBytes < c.outbound.length + frame.length →
      maxOutboundBytes < c.outbound.length + frame.length - c.sent
  | .flush _ => True

variable {host : Host} {holder : Holder} {c : Connection} {frame : List UInt8}
  {message : RemoteMessage}

section
variable (hconnection : holder.connection = some c)
  (hframe : RemoteCodec.encode host.json message = .ok frame)
include hconnection hframe

theorem queue_within (h : ¬maxOutboundBytes < c.outbound.length + frame.length) :
    holder.queue host message = some (holder.withConnection (c.extended message frame)) := by
  unfold queue
  simp only [hconnection, Connection.queue_eq, hframe, Except.map, Except.toOption,
    Option.bind_eq_bind, Option.bind_some, Connection.extended, length_append]
  rw [if_neg h]
  rfl

theorem queue_beyond (h : maxOutboundBytes < c.outbound.length + frame.length)
    (hsent : c.sent ≠ 0) :
    ∃ after, holder.queue host message = some after ∧ after.connection = none := by
  unfold queue
  simp only [hconnection, Connection.queue_eq, hframe, Except.map, Except.toOption,
    Option.bind_eq_bind, Option.bind_some, Connection.extended, length_append]
  rw [if_pos h, if_pos hsent]
  exact ⟨_, rfl, rfl⟩

end

theorem measured_iff (step : BacklogStep) :
    Measured host holder step ↔ SentMakesNoDifference host holder step := by
  cases step with
  | flush writes => exact Iff.rfl
  | queue message =>
    constructor
    · intro h c frame hconnection hframe hlong
      by_contra hless
      obtain ⟨after, hqueue, hnone⟩ :=
        queue_beyond hconnection hframe hlong fun hzero => hless (by rwa [hzero])
      rcases h c frame after hconnection hframe hqueue with hkept | hmore
      · rw [hnone] at hkept
        cases hkept
      · exact hless hmore
    intro h c frame after hconnection hframe hqueue
    by_cases hlong : maxOutboundBytes < c.outbound.length + frame.length
    · exact .inr (h c frame hconnection hframe hlong)
    rw [queue_within hconnection hframe hlong] at hqueue
    obtain ⟨⟩ := hqueue
    exact .inl rfl

/--
**The bound is one on the backlog exactly where what was sent makes no difference to it**: in
a run each message that is queued leaves the connection with all it holds, or finds more
than the bound unsent, just if at each of them the buffer that is beyond the bound with what
was sent of it is beyond it without.
-/
theorem backlog_measured_iff (host : Host) (holder : Holder) (steps : List BacklogStep) :
    Meets (Measured host) (backlogStep host) holder steps ↔
      Meets (SentMakesNoDifference host) (backlogStep host) holder steps := by
  induction steps generalizing holder with
  | nil => exact Iff.rfl
  | cons step steps ih =>
    exact and_congr (measured_iff step)
      (forall_congr' fun after => imp_congr_right fun _ => ih after)

theorem flush_partly {writes : Writes} (hconnection : holder.connection = some c)
    (hwrites : writes.ending = .wouldBlock) (h : c.sent + writes.accepted < c.outbound.length) :
    holder.flushConnection writes =
      some (holder.withConnection { c with sent := c.sent + writes.accepted }) := by
  have hmin : min (c.sent + writes.accepted) c.outbound.length = c.sent + writes.accepted :=
    Nat.min_eq_left (Nat.le_of_lt h)
  unfold flushConnection Connection.flush
  simp only [hconnection, hmin]
  rw [if_neg (Nat.ne_of_lt h), if_pos hwrites]
  rfl

/-! ### A client that is nearly up to date -/

def chunk (bytes : List UInt8) : RemoteMessage := .terminal (.output 0 bytes)

/-- The client takes all of a chunk but one byte. -/
def lagging (bytes : List UInt8) : List BacklogStep :=
  [.queue (chunk bytes), .flush ⟨bytes.length + 12, .wouldBlock⟩]

def laggingHolder : Holder := demoHolder.withConnection { client := 0, epoch := some 1 }

variable {bytes : List UInt8}

theorem encode_chunk (json : SerdeJson) (hbytes : bytes.length = 65536) :
    ∃ frame, RemoteCodec.encode json (chunk bytes) = .ok frame ∧ frame.length = 65549 := by
  have hlength : (Frame.output 0 bytes).payload.length = 65544 := by
    show (beBytes 8 0 ++ bytes).length = _
    rw [length_append, length_beBytes, hbytes]
  have hcontrol : RemoteCodec.isControl FrameType.output.toByte = false := by decide
  refine ⟨Framing.header FrameType.output.toByte 65544 ++ (Frame.output 0 bytes).payload, ?_, ?_⟩
  · have htype : (Frame.output 0 bytes).frameType = .output := rfl
    simp [chunk, RemoteCodec.encode, RemoteCodec.encodeInto, RemoteCodec.payload,
      RemoteCodec.checkLength, bind, Except.bind, hlength, htype, hcontrol, maxFrameBytes, pure,
      Except.pure, Except.map]
  · rw [length_append, Framing.length_header, hlength]

theorem lagging_run (hbytes : bytes.length = 65536) (n : Nat) (hn : n < 320) : ∃ holder c,
    partialRun (backlogStep demoHost) laggingHolder (List.replicate n (lagging bytes)).flatten =
      some holder ∧ holder.connection = some c ∧
    c.outbound.length = n * 65549 ∧ c.sent = n * 65548 := by
  induction n with
  | zero => exact ⟨_, _, rfl, rfl, rfl, rfl⟩
  | succ n ih =>
    obtain ⟨holder, c, hrun, hconnection, hlength, hsent⟩ := ih (by omega)
    obtain ⟨frame, hframe, hlong⟩ := encode_chunk demoHost.json hbytes
    have hlonger : (c.extended (chunk bytes) frame).outbound.length = (n + 1) * 65549 := by
      show (c.outbound ++ frame).length = _
      rw [length_append]
      omega
    have hstill : (c.extended (chunk bytes) frame).sent = n * 65548 := hsent
    have hqueue := queue_within hconnection hframe (by unfold maxOutboundBytes; omega)
    have hflush := @flush_partly (holder.withConnection (c.extended (chunk bytes) frame)) _
      ⟨bytes.length + 12, .wouldBlock⟩ rfl rfl (by simp only; omega)
    have hsteps : partialRun (backlogStep demoHost) laggingHolder
        (List.replicate (n + 1) (lagging bytes)).flatten =
        (holder.queue demoHost (chunk bytes)).bind fun after =>
          after.flushConnection ⟨bytes.length + 12, .wouldBlock⟩ := by
      rw [replicate_succ', flatten_concat]
      unfold lagging at hrun ⊢
      rw [append_cons, partialRun_concat, partialRun_concat, hrun]
      rfl
    rw [hqueue] at hsteps
    refine ⟨_, _, hsteps.trans hflush, rfl, hlonger, ?_⟩
    show (c.extended (chunk bytes) frame).sent + (bytes.length + 12) = _
    omega

theorem lagging_client_is_dropped : ¬Meets (Measured demoHost) (backlogStep demoHost) laggingHolder
      ((List.replicate 319 (lagging (List.replicate 65536 0))).flatten ++
        [.queue (chunk (List.replicate 65536 0))]) := by
  have hbytes : (List.replicate 65536 (0 : UInt8)).length = 65536 := length_replicate
  generalize List.replicate 65536 (0 : UInt8) = bytes at hbytes ⊢
  intro hmeets
  obtain ⟨holder, c, hrun, hconnection, hlength, hsent⟩ := lagging_run hbytes 319 (by decide)
  obtain ⟨frame, hframe, hlong⟩ := encode_chunk demoHost.json hbytes
  have hmore := (measured_iff _).mp (hmeets.split hrun).2.1 c frame hconnection hframe
  unfold maxOutboundBytes at hmore
  omega

end Holder

end Diri.Wire
