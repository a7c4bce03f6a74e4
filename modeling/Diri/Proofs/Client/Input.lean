/-
The order of the input across reconnects.

The client is a relay of input: bytes are taken by `write`, wait in the queue while there
is no controller epoch, and are sent to the channel of the day.  Every call but one moves
the relay as `Relay.Follows` wants.  A `write` that reaches the channel does so only when
the queue is empty, and between `accept_hello` and `grant_control` it need not be.

What a grant of control that fails leaves in the queues.

The grant takes the size and the input out of their queues before it writes them, and puts
nothing back.  So a grant that is refused at once leaves the queues alone, and one whose
write fails does not.
-/
import Diri.Engine.RemoteClient
import Diri.Lib.Relay
import Diri.Proofs.Codec.RoundTrip

namespace Diri.Wire

open Handler List

variable {json : SerdeJson}

namespace RemoteSessionClient

/-- The client as a relay of input, after `accepted` was taken. -/
def relay (accepted : List UInt8) (client : RemoteSessionClient) : Relay UInt8 where
  accepted := accepted
  waiting := client.writer.queuedInput
  sent := client.sentInput

/-- As far as input goes the client only moves on. -/
def Forwards (client client' : RemoteSessionClient) : Prop :=
  ∀ accepted, (client.relay accepted).Follows (client'.relay accepted)

instance forwards_steps : Steps Forwards where
  refl _ _ := .refl _
  trans h₁ h₂ accepted := (h₁ accepted).trans (h₂ accepted)

theorem forwards_of_eq {client client' : RemoteSessionClient}
    (hqueue : client'.writer.queuedInput = client.writer.queuedInput)
    (htaken : client'.taken = client.taken) : Forwards client client' := by
  intro accepted
  have hrelay : client'.relay accepted = client.relay accepted := by
    unfold relay sentInput
    rw [hqueue, htaken]
  rw [hrelay]
  exact .refl _

theorem moves_onWriter {change : WriterState → WriterState}
    (h : ∀ writer, (change writer).queuedInput = writer.queuedInput) :
    Moves Forwards (modify (onWriter change) : Calls PUnit) := by
  apply Moves.modify
  intro client
  exact forwards_of_eq (h client.writer) rfl

theorem moves_terminateCurrent : Moves Forwards terminateCurrent := moves_onWriter fun _ => rfl

theorem moves_clearEpoch : Moves Forwards clearEpoch := moves_onWriter fun _ => rfl

variable (generation : Nat)

theorem moves_requireGeneration : Moves Forwards (requireGeneration generation) := by
  refine Moves.bind (Moves.read) fun client => ?_
  exact Moves.ite (fun _ => Moves.throw _) fun _ => Moves.pure _

/-! ### Messages -/

theorem exec_writeMessage (json : SerdeJson) (message : RemoteMessage)
    (client : RemoteSessionClient) :
    (∃ input encoded, RemoteCodec.encode json message = .ok encoded ∧
      client.writer.input = some input ∧ client.answers.headD false = true ∧
      exec (writeMessage json message) client = (.ok (), { client with
          answers := client.answers.drop 1
          taken := client.taken ++ [(input, message)] })) ∨
    ∃ error answers, exec (writeMessage json message) client =
      (.error error, { client with answers := answers }) := by
  unfold writeMessage
  rw [exec_bind_ok (exec_get client)]
  cases hencode : RemoteCodec.encode json message with
  | error error => exact .inr ⟨.codec error, client.answers, rfl⟩
  | ok bytes =>
    cases hinput : client.writer.input with
    | none => exact .inr ⟨_, client.answers, rfl⟩
    | some input =>
      dsimp only
      rw [exec_bind_ok (exec_modify _ client)]
      unfold answer
      cases hanswer : client.answers.headD false with
      | true => exact .inl ⟨input, bytes, rfl, rfl, rfl, rfl⟩
      | false => exact .inr ⟨.os, client.answers.drop 1, rfl⟩

theorem sentInput_taken (client : RemoteSessionClient) (answers : List Bool) (input : Nat)
    (message : RemoteMessage) :
    ({ client with
      answers := answers
      taken := client.taken ++ [(input, message)] } : RemoteSessionClient).sentInput =
        client.sentInput ++ message.inputBytes := by
  unfold sentInput
  simp

theorem moves_writeMessage {message : RemoteMessage} (h : message.inputBytes = []) :
    Moves Forwards (writeMessage json message) := by
  intro client
  obtain ⟨input, -, -, -, -, hexec⟩ | ⟨error, answers, hexec⟩ :=
    exec_writeMessage json message client
  · rw [hexec]
    intro accepted
    unfold relay
    rw [sentInput_taken, h, append_nil]
    exact .refl _
  · rw [hexec]
    exact forwards_of_eq rfl rfl

/-! ### Calls -/

theorem moves_connect (attached : Option RemoteChannel) : Moves Forwards (connect attached) := by
  cases attached with
  | none => exact Moves.throw _
  | some channel =>
    exact Moves.bind moves_terminateCurrent fun _ => moves_onWriter fun _ => rfl

theorem moves_acceptHello (epoch : UInt64) : Moves Forwards (acceptHello generation epoch) :=
  Moves.bind (moves_requireGeneration generation) fun _ =>
    moves_onWriter fun _ => rfl

theorem moves_sendQueuedResize : Moves Forwards (sendQueuedResize json) := by
  refine Moves.bind (Moves.read) fun client => ?_
  cases client.writer.queuedResize with
  | none => exact Moves.pure _
  | some size =>
    exact Moves.bind (moves_onWriter fun _ => rfl) fun _ =>
      moves_writeMessage rfl

theorem moves_sendQueuedInput : Moves Forwards (sendQueuedInput json) := by
  apply Moves.get_bind
  intro client
  by_cases hempty : client.writer.queuedInput = []
  · rw [if_pos hempty]
    exact forwards_steps.refl client
  rw [if_neg hempty, exec_bind_ok (exec_modify _ client)]
  intro accepted
  obtain ⟨input, -, -, -, -, hexec⟩ | ⟨error, answers, hexec⟩ :=
    exec_writeMessage json (.terminal (.input client.writer.queuedInput))
      (client.onWriter fun writer => { writer with queuedInput := [] })
  · rw [hexec]
    unfold relay
    rw [sentInput_taken]
    exact Relay.follows_flush (client.relay accepted)
  · rw [hexec]
    exact Relay.follows_lose (client.relay accepted)

theorem moves_grantControl (epoch : UInt64) :
    Moves Forwards (grantControl json generation epoch) := by
  refine Moves.bind (moves_requireGeneration generation) fun _ => ?_
  refine Moves.bind (Moves.read) fun client => ?_
  refine Moves.ite (fun _ => Moves.throw _) fun _ => ?_
  exact Moves.bind moves_sendQueuedResize fun _ => moves_sendQueuedInput

theorem moves_resize (cols rows : Nat) : Moves Forwards (resize json cols rows) := by
  refine Moves.bind (Moves.read) fun client => ?_
  cases validateTerminalDimensions cols rows with
  | error error => exact Moves.throw _
  | ok _ =>
    refine Moves.ite (fun _ => moves_onWriter fun _ => rfl) fun _ => ?_
    refine Moves.tryCatch (moves_writeMessage rfl) fun _ => ?_
    refine Moves.bind (moves_onWriter fun _ => rfl) fun _ => ?_
    exact Moves.bind moves_terminateCurrent fun _ => moves_clearEpoch

theorem moves_signal (number : Int32) : Moves Forwards (signal json number) := by
  refine Moves.bind (Moves.read) fun client => ?_
  cases client.writer.controllerEpoch with
  | none => exact Moves.throw _
  | some epoch => exact moves_writeMessage rfl

theorem moves_readScrollbackCells (request : ScrollbackRequest) :
    Moves Forwards (readScrollbackCells json request) := by
  refine Moves.bind (Moves.read) fun client => ?_
  exact Moves.ite (fun _ => Moves.throw _) fun _ => moves_writeMessage rfl

theorem moves_disconnect : Moves Forwards (disconnect generation) := by
  refine Moves.bind (Moves.read) fun client => ?_
  refine Moves.ite (fun _ => ?_) fun _ => Moves.pure _
  exact Moves.bind moves_terminateCurrent fun _ => moves_clearEpoch

theorem moves_close : Moves Forwards close :=
  Moves.bind moves_terminateCurrent fun _ => moves_clearEpoch

/-- A write does not wait: there is an epoch, and an input to write to. -/
def Open (client : RemoteSessionClient) : Prop :=
  client.writer.controllerEpoch ≠ none ∧ client.writer.input ≠ none

instance (client : RemoteSessionClient) : Decidable client.Open :=
  inferInstanceAs (Decidable (_ ∧ _))

theorem length_le_of_encode {bytes encoded : List UInt8}
    (h : RemoteCodec.encode json (.terminal (.input bytes)) = .ok encoded) :
    bytes.length ≤ maxFrameBytes := by
  obtain ⟨kind, payload, hpayload, hcheck, -, -⟩ := RemoteCodec.encode_frame h
  obtain ⟨rfl, rfl⟩ := Prod.mk.inj (Except.ok.inj hpayload)
  by_contra hle
  have hlong : (Frame.input bytes).payload.length > maxFrameBytes := Nat.lt_of_not_le hle
  rw [RemoteCodec.checkLength, if_pos hlong] at hcheck
  cases hcheck

theorem exec_queueInput (bytes : List UInt8) (client : RemoteSessionClient) :
    exec (queueInput bytes) client = (.ok (), client.onWriter fun writer =>
      { writer with queuedInput := writer.queuedInput ++ bytes }) ∨
    ∃ error, exec (queueInput bytes) client = (.error error, client) := by
  unfold queueInput
  rw [exec_bind_ok (exec_get client)]
  by_cases hfull : client.writer.queuedInput.length + bytes.length > maxQueuedInput
  · rw [if_pos hfull]
    exact .inr ⟨_, rfl⟩
  · rw [if_neg hfull]
    exact .inl rfl

/-- What `write` does with bytes: it drops them with an error, queues them, or sends them. -/
theorem exec_write (json : SerdeJson) (bytes : List UInt8) (client : RemoteSessionClient) :
    (∃ error client', exec (write json bytes) client = (.error error, client') ∧
      client'.writer.queuedInput = client.writer.queuedInput ∧ client'.taken = client.taken) ∨
    (∃ client', exec (write json bytes) client = (.ok (), client') ∧
      client'.writer.queuedInput = client.writer.queuedInput ++ bytes ∧
      client'.taken = client.taken) ∨
    ∃ input answers, client.Open ∧ client.answers.headD false = true ∧ bytes ≠ [] ∧
      bytes.length ≤ maxFrameBytes ∧ exec (write json bytes) client = (.ok (), { client with
        answers := answers
        taken := client.taken ++ [(input, .terminal (.input bytes))] }) := by
  unfold write
  rw [exec_bind_ok (exec_get client)]
  by_cases hempty : bytes = []
  · rw [if_pos hempty, hempty]
    exact .inr (.inl ⟨client, rfl, by simp, rfl⟩)
  rw [if_neg hempty]
  by_cases hwait : client.writer.controllerEpoch = none ∨ client.writer.input = none
  · rw [if_pos hwait]
    obtain hqueued | ⟨error, hfull⟩ := exec_queueInput bytes client
    · exact .inr (.inl ⟨_, hqueued, rfl, rfl⟩)
    · exact .inl ⟨error, client, hfull, rfl, rfl⟩
  rw [if_neg hwait, exec_tryCatch]
  obtain ⟨input, encoded, hencode, hinput, hanswer, hexec⟩ | ⟨error, answers, hexec⟩ :=
    exec_writeMessage json (.terminal (.input bytes)) client
  · rw [hexec]
    exact .inr (.inr ⟨input, _, not_or.mp hwait, hanswer, hempty, length_le_of_encode hencode, rfl⟩)
  -- the channel is gone, and the bytes wait for the next one if there is room
  rw [hexec]
  dsimp only
  obtain hqueued | ⟨error, hfull⟩ := exec_queueInput bytes { client with answers := answers }
  · rw [exec_bind_ok hqueued]
    exact .inr (.inl ⟨_, rfl, rfl, rfl⟩)
  · rw [exec_bind_error hfull]
    exact .inl ⟨error, _, rfl, rfl, rfl⟩

end RemoteSessionClient

/-! ### Runs -/

open RemoteSessionClient

/-- The bytes that a call writes to the channel, if the client is open. -/
def ClientCall.direct : ClientCall → List UInt8
  | write bytes => if bytes.length ≤ maxFrameBytes then bytes else []
  | _ => []

/-- A write goes to a channel that takes it while older input still waits. -/
def Overtakes (r : ClientRun) (s : ClientStep) : Prop :=
  s.call.direct ≠ [] ∧ r.client.Open ∧ s.answers.headD false = true ∧
    r.client.writer.queuedInput ≠ []

instance (r : ClientRun) (s : ClientStep) : Decidable (Overtakes r s) :=
  inferInstanceAs (Decidable (_ ∧ _))

def ClientRun.relay (r : ClientRun) : Relay UInt8 := r.client.relay r.accepted

theorem follows_write {r r' : ClientRun} {s : ClientStep} {bytes : List UInt8}
    (hcall : s.call = .write bytes) (hcond : ¬Overtakes r s) (hstep : r.step json s = some r') :
    r.relay.Follows r'.relay := by
  obtain ⟨⟩ := hstep
  unfold ClientRun.relay
  rw [hcall]
  dsimp only [ClientCall.calls]
  obtain ⟨error, client', hexec, hqueue, htaken⟩ | ⟨client', hexec, hqueue, htaken⟩ |
      ⟨input, answers, hopen, hanswer, hbytes, hlength, hexec⟩ :=
    exec_write json bytes { r.client with answers := s.answers }
  · rw [hexec]
    dsimp only [ClientCall.accepts]
    rw [append_nil]
    exact forwards_of_eq hqueue htaken r.accepted
  · rw [hexec]
    have hrelay : client'.relay (r.accepted ++ bytes) = (r.client.relay r.accepted).hold bytes := by
      unfold RemoteSessionClient.relay sentInput
      rw [hqueue, htaken]
      rfl
    exact hrelay ▸ Relay.follows_hold bytes _
  rw [hexec]
  have hdirect : s.call.direct ≠ [] := by
    rw [hcall, ClientCall.direct, if_pos hlength]
    exact hbytes
  have hempty : r.client.writer.queuedInput = [] := by
    by_contra hqueue
    exact hcond ⟨hdirect, hopen, hanswer, hqueue⟩
  unfold RemoteSessionClient.relay
  rw [sentInput_taken]
  exact Relay.follows_pass bytes hempty

theorem moves_calls (json : SerdeJson) {call : ClientCall} (h : ∀ bytes, call ≠ .write bytes) :
    Moves Forwards (call.calls json) := by
  cases call with
  | connect attached => exact moves_connect attached
  | acceptHello generation epoch => exact moves_acceptHello generation epoch
  | grantControl generation epoch => exact moves_grantControl generation epoch
  | write bytes => exact absurd rfl (h bytes)
  | resize cols rows => exact moves_resize cols rows
  | signal number => exact moves_signal number
  | readScrollbackCells request => exact moves_readScrollbackCells request
  | disconnect generation => exact moves_disconnect generation
  | close => exact moves_close

theorem follows_step {r r' : ClientRun} {s : ClientStep} (hcond : ¬Overtakes r s)
    (hstep : r.step json s = some r') : r.relay.Follows r'.relay := by
  by_cases hwrite : ∃ bytes, s.call = .write bytes
  · obtain ⟨bytes, hcall⟩ := hwrite
    exact follows_write hcall hcond hstep
  have hother : ∀ bytes, s.call ≠ .write bytes := not_exists.mp hwrite
  obtain ⟨⟩ := hstep
  have hforward := moves_calls json hother { r.client with answers := s.answers } r.accepted
  have hnothing : ∀ result, s.call.accepts result = [] := by
    intro result
    unfold ClientCall.accepts
    split
    · exact absurd ‹s.call = _› (hother _)
    · rfl
  rw [hnothing, append_nil]
  exact hforward

/-- A run in which no write overtakes older input is that of a first-in-first-out relay. -/
theorem follows_run {is : List ClientStep} {r r' : ClientRun}
    (hmeets : Meets (fun r s => ¬Overtakes r s) (ClientRun.step json) r is)
    (hrun : partialRun (ClientRun.step json) r is = some r') : r.relay.Follows r'.relay := by
  refine hmeets.invariant (P := fun r' => r.relay.Follows r'.relay) ?_ (Relay.Follows.refl _) hrun
  intro r₁ s r₂ hbefore hcond hstep
  exact hbefore.trans (follows_step hcond hstep)

/-- The input that the channels took is part of what the writes took, in order.  What waited
at any moment is sent before anything written later. -/
theorem input_fifo (json : SerdeJson) {is js : List ClientStep} {r r' : ClientRun}
    (hmeets : Meets (fun r s => ¬Overtakes r s) (ClientRun.step json) {} (is ++ js))
    (hrun : partialRun (ClientRun.step json) {} is = some r)
    (hrest : partialRun (ClientRun.step json) r js = some r') :
    r'.client.sentInput.Sublist r'.accepted ∧
      ∃ late kept news : List UInt8, r'.accepted = r.accepted ++ late ∧
        r'.client.sentInput = r.client.sentInput ++ (kept ++ news) ∧
        kept.Sublist r.client.writer.queuedInput ∧ news.Sublist late := by
  obtain ⟨hfirst, hlast⟩ := hmeets.split hrun
  have hsince := follows_run hlast hrest
  exact ⟨((follows_run hfirst hrun).trans hsince).sent_sublist, hsince.sent_split⟩

/-! ### A write between the hello and the grant -/

/-- No message of a run below is JSON. -/
def silentJson : SerdeJson where
  toWriter _ _ := .error ""
  fromSlice _ _ := .error ""

/-- Something is typed before there is a channel, and more once control is granted. -/
def typedAround : List ClientStep :=
  [⟨.write [97], []⟩, ⟨.connect (some ⟨1, 1⟩), []⟩, ⟨.acceptHello 1 7, []⟩,
    ⟨.grantControl 1 7, [true]⟩, ⟨.write [98], [true]⟩]

theorem input_fifo_typedAround :
    ∃ r r' : ClientRun, partialRun (ClientRun.step silentJson) {} (typedAround.take 1) = some r ∧
      partialRun (ClientRun.step silentJson) r (typedAround.drop 1) = some r' ∧
      r.client.writer.queuedInput = [97] ∧ r'.client.sentInput = [97, 98] ∧
      r'.client.sentInput.Sublist r'.accepted ∧
      ∃ late kept news : List UInt8, r'.accepted = r.accepted ++ late ∧
        r'.client.sentInput = r.client.sentInput ++ (kept ++ news) ∧
        kept.Sublist r.client.writer.queuedInput ∧ news.Sublist late := by
  have hmeets : Meets (fun r s => ¬Overtakes r s) (ClientRun.step silentJson) {}
      (typedAround.take 1 ++ typedAround.drop 1) := by
    decide +kernel
  exact ⟨_, _, rfl, rfl, by decide +kernel, by decide +kernel, input_fifo silentJson hmeets rfl rfl⟩

/-- The second byte is typed when the channel has said hello and not yet granted control: it
goes to the channel at once, and the first one, which waits for the grant, after it. -/
def typedBetween : List ClientStep :=
  [⟨.write [97], []⟩, ⟨.connect (some ⟨1, 1⟩), []⟩, ⟨.acceptHello 1 7, []⟩,
    ⟨.write [98], [true]⟩, ⟨.grantControl 1 7, [true]⟩]

theorem typedBetween_reorders :
    ∃ r : ClientRun, partialRun (ClientRun.step silentJson) {} typedBetween = some r ∧
      r.accepted = [97, 98] ∧ r.client.sentInput = [98, 97] ∧
      ¬r.client.sentInput.Sublist r.accepted := by
  refine ⟨_, rfl, ?_, ?_, ?_⟩
  · decide +kernel
  · decide +kernel
  · decide +kernel

end Diri.Wire

namespace Diri.Wire

open Handler

namespace WriterState

def resizeMessages (writer : WriterState) : List RemoteMessage :=
  (writer.queuedResize.map fun size => .terminal (.resize size.1 size.2)).toList

def inputMessages (writer : WriterState) : List RemoteMessage :=
  if writer.queuedInput = [] then [] else [.terminal (.input writer.queuedInput)]

/-- What a grant of control writes. -/
def queued (writer : WriterState) : List RemoteMessage :=
  writer.resizeMessages ++ writer.inputMessages

end WriterState

namespace RemoteSessionClient

variable {json : SerdeJson} {client client' : RemoteSessionClient} {generation : Nat}
  {epoch : UInt64}

/-- The grant is for another channel, or for another epoch than the hello. -/
def Refuses (client : RemoteSessionClient) (generation : Nat) (epoch : UInt64) : Prop :=
  client.writer.generation ≠ generation ∨ client.writer.input = none ∨
    client.writer.controllerEpoch ≠ some epoch

/-- Every message can be encoded, and the channel takes it. -/
def Takes (json : SerdeJson) : (answers : List Bool) → List RemoteMessage → Prop
  | _, [] => True
  | answers, message :: rest =>
    (∃ encoded, RemoteCodec.encode json message = .ok encoded) ∧ answers.headD false = true ∧
      Takes json (answers.drop 1) rest

/-- The next channel, its hello, and its grant. -/
def grantNext (json : SerdeJson) (channel : RemoteChannel) (epoch : UInt64) : Calls Unit := do
  connect (some channel)
  let client ← get
  acceptHello client.writer.generation epoch
  grantControl json client.writer.generation epoch

/-- A grant of control that fails changes nothing in the queues, and the next one sends them. -/
structure GrantAtomic (json : SerdeJson) (client : RemoteSessionClient) (generation : Nat)
    (epoch : UInt64) : Prop where
  unchanged : ∀ error client', exec (grantControl json generation epoch) client =
      (.error error, client') →
    client'.writer.queuedResize = client.writer.queuedResize ∧
      client'.writer.queuedInput = client.writer.queuedInput
  sentOnce : ∀ error client', exec (grantControl json generation epoch) client =
      (.error error, client') →
    ∀ channel epoch' answers client'',
      exec (grantNext json channel epoch') { client' with answers := answers } =
        (.ok (), client'') →
      client''.taken = client'.taken ++ client.writer.queued.map (channel.input, ·)

theorem exec_requireGeneration (client : RemoteSessionClient) (generation : Nat) :
    exec (requireGeneration generation) client =
      if client.writer.generation ≠ generation ∨ client.writer.input = none then
        (.error (.io .notConnected "SSH channel was superseded"), client)
      else (.ok (), client) := by
  unfold requireGeneration
  rw [exec_bind_ok (exec_get client)]
  split <;> rfl

theorem exec_grantControl_refused (h : client.Refuses generation epoch) :
    ∃ error, exec (grantControl json generation epoch) client = (.error error, client) := by
  have hrequired := exec_requireGeneration client generation
  unfold grantControl
  by_cases hchannel : client.writer.generation ≠ generation ∨ client.writer.input = none
  · rw [if_pos hchannel] at hrequired
    exact ⟨_, exec_bind_error hrequired⟩
  rw [if_neg hchannel] at hrequired
  rw [exec_bind_ok hrequired, exec_bind_ok (exec_get client)]
  have hepoch : client.writer.controllerEpoch ≠ some epoch := by
    rcases h with h | h | h
    · exact absurd (.inl h) hchannel
    · exact absurd (.inr h) hchannel
    · exact h
  rw [if_pos hepoch]
  exact ⟨_, rfl⟩

theorem exec_grantControl (h : ¬client.Refuses generation epoch) :
    exec (grantControl json generation epoch) client =
      exec (do sendQueuedResize json; sendQueuedInput json) client := by
  simp only [Refuses, not_or, not_not] at h
  obtain ⟨hgeneration, hinput, hepoch⟩ := h
  have hrequired := exec_requireGeneration client generation
  rw [if_neg (by simp [hgeneration, hinput])] at hrequired
  unfold grantControl
  rw [exec_bind_ok hrequired, exec_bind_ok (exec_get client), if_neg (by simp [hepoch])]

theorem exec_sendQueuedResize {size : Nat × Nat} (h : client.writer.queuedResize = some size) :
    exec (sendQueuedResize json) client =
      exec (writeMessage json (.terminal (.resize size.1 size.2)))
        (client.onWriter fun writer => { writer with queuedResize := none }) := by
  unfold sendQueuedResize
  rw [exec_bind_ok (exec_get client), h]
  exact exec_bind_ok (exec_modify _ client)

theorem exec_sendQueuedInput (h : client.writer.queuedInput ≠ []) :
    exec (sendQueuedInput json) client =
      exec (writeMessage json (.terminal (.input client.writer.queuedInput)))
        (client.onWriter fun writer => { writer with queuedInput := [] }) := by
  unfold sendQueuedInput
  rw [exec_bind_ok (exec_get client), if_neg h]
  exact exec_bind_ok (exec_modify _ client)

/-! ### Both queues -/

theorem takes_append (messages rest : List RemoteMessage) (answers : List Bool) :
    Takes json answers (messages ++ rest) ↔
      Takes json answers messages ∧ Takes json (answers.drop messages.length) rest := by
  induction messages generalizing answers with
  | nil => simp [Takes]
  | cons message messages ih =>
    simp only [List.cons_append, Takes, ih, List.drop_drop, List.length_cons, and_assoc,
      Nat.add_comm 1]

theorem exec_writeMessage_takes {message : RemoteMessage} {input : Nat}
    (hinput : client.writer.input = some input) :
    (Takes json client.answers [message] ∧ exec (writeMessage json message) client =
      (.ok (), { client with
        answers := client.answers.drop 1
        taken := client.taken ++ [(input, message)] })) ∨
    (¬Takes json client.answers [message] ∧ ∃ error answers,
      exec (writeMessage json message) client = (.error error, { client with answers })) := by
  unfold writeMessage
  rw [exec_bind_ok (exec_get client)]
  cases hencode : RemoteCodec.encode json message with
  | error error =>
    refine .inr ⟨fun htakes => ?_, .codec error, client.answers, rfl⟩
    obtain ⟨encoded, hencoded⟩ := htakes.1
    rw [hencode] at hencoded
    cases hencoded
  | ok encoded =>
    rw [hinput]
    dsimp only
    rw [exec_bind_ok (exec_modify _ client)]
    unfold answer
    cases hanswer : client.answers.headD false with
    | true => exact .inl ⟨⟨⟨encoded, hencode⟩, hanswer, trivial⟩, rfl⟩
    | false =>
      refine .inr ⟨fun htakes => ?_, .os, client.answers.drop 1, rfl⟩
      rw [htakes.2.1] at hanswer
      cases hanswer

/-- What the client is once its channel took some messages. -/
def tookAll (client : RemoteSessionClient) (input : Nat) (messages : List RemoteMessage)
    (writer : WriterState) : RemoteSessionClient where
  writer := writer
  answers := client.answers.drop messages.length
  taken := client.taken ++ messages.map (input, ·)

theorem tookAll_append (client : RemoteSessionClient) (input : Nat)
    (messages rest : List RemoteMessage) (writer writer' : WriterState) :
    (client.tookAll input messages writer).tookAll input rest writer' =
      client.tookAll input (messages ++ rest) writer' := by
  simp [tookAll, List.drop_drop]

theorem tookAll_nil (client : RemoteSessionClient) (input : Nat) :
    client.tookAll input [] client.writer = client := by
  simp [tookAll]

theorem exec_sendQueuedResize_takes {input : Nat} (hinput : client.writer.input = some input) :
    (Takes json client.answers client.writer.resizeMessages ∧ exec (sendQueuedResize json) client =
        (.ok (), client.tookAll input client.writer.resizeMessages
          { client.writer with queuedResize := none })) ∨
    (¬Takes json client.answers client.writer.resizeMessages ∧ ∃ error answers,
      exec (sendQueuedResize json) client = (.error error, { client with
        writer := { client.writer with queuedResize := none }
        answers })) := by
  cases hqueued : client.writer.queuedResize with
  | none =>
    have hmessages : client.writer.resizeMessages = [] := by
      unfold WriterState.resizeMessages
      rw [hqueued]
      rfl
    have hwriter : { client.writer with queuedResize := none } = client.writer := by
      rw [← hqueued]
    rw [hmessages, hwriter, tookAll_nil]
    refine .inl ⟨trivial, ?_⟩
    unfold sendQueuedResize
    rw [exec_bind_ok (exec_get client), hqueued]
    rfl
  | some size =>
    have hmessages : client.writer.resizeMessages = [.terminal (.resize size.1 size.2)] := by
      unfold WriterState.resizeMessages
      rw [hqueued]
      rfl
    rw [hmessages, exec_sendQueuedResize hqueued]
    exact @exec_writeMessage_takes json
      (client.onWriter fun writer => { writer with queuedResize := none }) _ _ hinput

theorem exec_sendQueuedInput_takes {input : Nat} (hinput : client.writer.input = some input) :
    (Takes json client.answers client.writer.inputMessages ∧ exec (sendQueuedInput json) client =
        (.ok (), client.tookAll input client.writer.inputMessages
          { client.writer with queuedInput := [] })) ∨
    (¬Takes json client.answers client.writer.inputMessages ∧ ∃ error answers,
      exec (sendQueuedInput json) client = (.error error, { client with
        writer := { client.writer with queuedInput := [] }
        answers })) := by
  by_cases hqueued : client.writer.queuedInput = []
  · have hmessages : client.writer.inputMessages = [] := if_pos hqueued
    have hwriter : { client.writer with queuedInput := [] } = client.writer := by
      rw [← hqueued]
    rw [hmessages, hwriter, tookAll_nil]
    refine .inl ⟨trivial, ?_⟩
    unfold sendQueuedInput
    rw [exec_bind_ok (exec_get client), if_pos hqueued]
    rfl
  have hmessages : client.writer.inputMessages =
      [.terminal (.input client.writer.queuedInput)] := if_neg hqueued
  rw [hmessages, exec_sendQueuedInput hqueued]
  exact @exec_writeMessage_takes json
    (client.onWriter fun writer => { writer with queuedInput := [] }) _ _ hinput

/-- The channel takes all that was queued, or the grant fails and part of it is gone. -/
theorem exec_grantControl_takes (h : ¬client.Refuses generation epoch) :
    (∃ input, client.writer.input = some input ∧ Takes json client.answers client.writer.queued ∧
      exec (grantControl json generation epoch) client =
        (.ok (), client.tookAll input client.writer.queued
          { client.writer with queuedResize := none, queuedInput := [] })) ∨
    (¬Takes json client.answers client.writer.queued ∧ ∃ error client',
      exec (grantControl json generation epoch) client = (.error error, client') ∧
      (client'.writer.queuedResize ≠ client.writer.queuedResize ∨
        client'.writer.queuedInput ≠ client.writer.queuedInput)) := by
  obtain ⟨input, hinput⟩ : ∃ input, client.writer.input = some input := by
    refine Option.ne_none_iff_exists'.mp fun hnone => h ?_
    exact .inr (.inl hnone)
  rw [exec_grantControl h]
  unfold WriterState.queued
  rw [takes_append]
  rcases @exec_sendQueuedResize_takes json client input hinput with
    ⟨htakes, hresize⟩ | ⟨hlost, error, answers, hresize⟩
  · rw [exec_bind_ok hresize]
    rcases @exec_sendQueuedInput_takes json (client.tookAll input client.writer.resizeMessages
        { client.writer with queuedResize := none }) input hinput with
      ⟨htakesInput, hsent⟩ | ⟨hlost, error, answers, hsent⟩
    · refine .inl ⟨input, hinput, ⟨htakes, htakesInput⟩, hsent.trans ?_⟩
      rw [tookAll_append]
      rfl
    refine .inr ⟨fun hboth => hlost hboth.2, error, _, hsent, .inr fun hkept => hlost ?_⟩
    -- what was queued is not empty, or it would have been taken
    have hqueued : client.writer.inputMessages = [] := if_pos hkept.symm
    exact hqueued.symm ▸ trivial
  rw [exec_bind_error hresize]
  refine .inr ⟨fun hboth => hlost hboth.1, error, _, rfl, .inl fun hkept => hlost ?_⟩
  have hqueued : client.writer.resizeMessages = [] := by
    unfold WriterState.resizeMessages
    rw [← hkept]
    rfl
  exact hqueued.symm ▸ trivial

/-! ### The next grant -/

theorem exec_grantNext {channel : RemoteChannel}
    (h : exec (grantNext json channel epoch) client = (.ok (), client')) :
    client'.taken = client.taken ++ client.writer.queued.map (channel.input, ·) := by
  -- the client as the new channel finds it, and as its hello leaves it
  let connected : RemoteSessionClient := client.onWriter fun writer => { writer with
    generation := saturatingSucc writer.generation
    controllerEpoch := none
    child := some channel.child
    input := some channel.input }
  let greeted : RemoteSessionClient :=
    connected.onWriter fun writer => { writer with controllerEpoch := some epoch }
  have hconnect : exec (connect (some channel)) client = (.ok (), connected) := rfl
  have hrequired := exec_requireGeneration connected connected.writer.generation
  rw [if_neg (by simp [connected, onWriter])] at hrequired
  have hhello : exec (acceptHello connected.writer.generation epoch) connected =
      (.ok (), greeted) := exec_bind_ok hrequired
  have hgrants : ¬greeted.Refuses connected.writer.generation epoch := by
    rintro (hgeneration | hinput | hepoch)
    · exact hgeneration rfl
    · cases hinput
    · exact hepoch rfl
  unfold grantNext at h
  rw [exec_bind_ok hconnect, exec_bind_ok (exec_get connected), exec_bind_ok hhello] at h
  rcases exec_grantControl_takes hgrants with
    ⟨input, hinput, -, hgrant⟩ | ⟨-, error, lost, hgrant, -⟩
  · obtain rfl : channel.input = input := Option.some.inj hinput
    rw [hgrant] at h
    obtain rfl := congrArg Prod.snd h
    rfl
  · rw [hgrant] at h
    cases congrArg Prod.fst h

/-- A grant of control that fails leaves the queues alone exactly if it is refused at once, or
cannot fail at all: each of the queued messages can be encoded and the channel takes it. -/
theorem grantControl_atomic_iff (json : SerdeJson) (client : RemoteSessionClient)
    (generation : Nat) (epoch : UInt64) : GrantAtomic json client generation epoch ↔
      client.Refuses generation epoch ∨ Takes json client.answers client.writer.queued := by
  constructor
  · intro hatomic
    by_contra hneither
    obtain ⟨hgrants, hlost⟩ := not_or.mp hneither
    rcases exec_grantControl_takes hgrants with
      ⟨input, -, htakes, -⟩ | ⟨-, error, client', hgrant, hchanged⟩
    · exact hlost htakes
    · obtain ⟨hresize, hinput⟩ := hatomic.unchanged error client' hgrant
      exact hchanged.elim (· hresize) (· hinput)
  intro hcond
  have hfails : ∀ error client', exec (grantControl json generation epoch) client =
      (.error error, client') → client' = client := by
    intro error client' hgrant
    by_cases hrefuses : client.Refuses generation epoch
    · obtain ⟨error', hrefused⟩ := exec_grantControl_refused hrefuses
      rw [hrefused] at hgrant
      exact (congrArg Prod.snd hgrant).symm
    rcases exec_grantControl_takes hrefuses with
      ⟨input, -, -, htook⟩ | ⟨hlost, -⟩
    · rw [htook] at hgrant
      cases congrArg Prod.fst hgrant
    · exact absurd (hcond.resolve_left hrefuses) hlost
  refine ⟨fun error client' hgrant => ?_, fun error client' hgrant => ?_⟩
  · rw [hfails error client' hgrant]
    exact ⟨rfl, rfl⟩
  · rw [hfails error client' hgrant]
    intro channel epoch' answers client'' hnext
    have hsent := exec_grantNext hnext
    exact hsent

/-- A size and a byte wait for the grant, and the channel takes nothing any more. -/
def brokenChannel : RemoteSessionClient where
  writer := {
    child := some 1
    input := some 1
    generation := 1
    controllerEpoch := some 7
    queuedInput := [97]
    queuedResize := some (80, 24) }
  answers := [false]

theorem brokenChannel_loses_size : ¬GrantAtomic silentJson brokenChannel 1 7 := by
  intro hatomic
  obtain ⟨hresize, -⟩ := hatomic.unchanged .os _ rfl
  cases hresize

end RemoteSessionClient

end Diri.Wire
