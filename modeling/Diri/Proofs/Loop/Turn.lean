/-
What reading from a connection can change.

While a connection is read it is outside the Holder.  A message of an authenticated
connection changes neither the epoch nor the log nor any other connection, and what it
brings about is recorded under the connection's own epoch (`Keeps`); it queues nothing
that belongs to the output stream (`Quiet`).  The one other thing that can happen is a
`Hello` that passes the checks: then the epoch is granted (`grant`), and from there on
the same is true.

So a whole read leaves a connection that has not authenticated and the Holder as they
were, or grants it an epoch (`readMessages_pending`).

What the steps that read from no connection can change.

Output, grid deltas and the exit are queued to the current connection.  A message is
queued to it, or the connection is dropped with the message queued, or its buffer is
discarded and it is told so (`Queues`).  None of these steps touches the epoch, the
history or the connection that is pending, and none installs another connection
(`Sends`).
-/
import Diri.Remote.EventLoop

namespace Diri.Wire

open List

/-- A frame of the output stream: output, or where a replay begins or ends. -/
def RemoteMessage.streams : RemoteMessage → Bool
  | .terminal frame =>
    frame.frameType = .output || frame.frameType = .replayBegin || frame.frameType = .replayEnd
  | _ => false

/-- What stays, and under which name something is recorded. -/
structure Keeps (client epoch : Nat) (s s' : Turn) : Prop where
  controllerEpoch : s'.holder.state.controllerEpoch = s.holder.state.controllerEpoch
  connection : s'.holder.connection = s.holder.connection
  pendingConnection : s'.holder.pendingConnection = s.holder.pendingConnection
  log : s'.holder.log = s.holder.log
  stream : s'.holder.stream = s.holder.stream
  past : s'.holder.past = s.holder.past
  sameClient : s'.connection.client = s.connection.client
  sameEpoch : s'.connection.epoch = s.connection.epoch
  attached : s'.connection.attached = s.connection.attached
  history : ∃ effects : List Effect,
    s'.holder.history = s.holder.history ++ effects.map (.took client epoch)

/-- And nothing of the output stream is queued. -/
structure Quiet (client epoch : Nat) (s s' : Turn) : Prop extends Keeps client epoch s s' where
  queued : ∃ more : List RemoteMessage, s'.connection.queued = s.connection.queued ++ more ∧
    ∀ message ∈ more, message.streams = false

theorem Connection.queue_ok {json : SerdeJson} {message : RemoteMessage}
    {c c' : Connection} (h : c.queue json message = .ok c') :
    c'.queued = c.queued ++ [message] ∧ c'.client = c.client ∧ c'.epoch = c.epoch ∧
      c'.attached = c.attached ∧ c'.unread = c.unread := by
  unfold Connection.queue at h
  split at h <;> cases h
  exact ⟨rfl, rfl, rfl, rfl, rfl⟩

section

variable {client epoch : Nat}

instance Keeps.steps : Handler.Steps (Keeps client epoch) where
  refl s := ⟨rfl, rfl, rfl, rfl, rfl, rfl, rfl, rfl, rfl, [], by simp⟩
  trans := by
    intro s₁ s₂ s₃ h₁ h₂
    obtain ⟨effects₁, hhistory₁⟩ := h₁.history
    obtain ⟨effects₂, hhistory₂⟩ := h₂.history
    refine ⟨h₂.controllerEpoch.trans h₁.controllerEpoch, h₂.connection.trans h₁.connection,
      h₂.pendingConnection.trans h₁.pendingConnection, h₂.log.trans h₁.log,
      h₂.stream.trans h₁.stream, h₂.past.trans h₁.past, h₂.sameClient.trans h₁.sameClient,
      h₂.sameEpoch.trans h₁.sameEpoch, h₂.attached.trans h₁.attached, effects₁ ++ effects₂, ?_⟩
    rw [hhistory₂, hhistory₁, map_append, append_assoc]

instance Quiet.steps : Handler.Steps (Quiet client epoch) where
  refl s := ⟨Keeps.steps.refl s, [], by simp, by simp⟩
  trans := by
    intro s₁ s₂ s₃ h₁ h₂
    obtain ⟨more₁, hqueued₁, hquiet₁⟩ := h₁.queued
    obtain ⟨more₂, hqueued₂, hquiet₂⟩ := h₂.queued
    refine ⟨Keeps.steps.trans h₁.toKeeps h₂.toKeeps, more₁ ++ more₂, ?_, ?_⟩
    · rw [hqueued₂, hqueued₁, append_assoc]
    · intro message hmessage
      rcases List.mem_append.mp hmessage with h | h
      · exact hquiet₁ message h
      · exact hquiet₂ message h

end

namespace Holder

open Handler

variable {host : Host} {client epoch : Nat}

/-! ### Queueing -/

variable (message : RemoteMessage)

theorem exec_queueTo (turn : Turn) :
    (∃ error, (queueTo host message).exec turn = (.error error, turn)) ∨
      ∃ c, turn.connection.queue host.json message = .ok c ∧
        (queueTo host message).exec turn = (.ok (), { turn with connection := c }) := by
  unfold queueTo
  rw [exec_bind_ok (exec_get turn)]
  cases h : turn.connection.queue host.json message with
  | error error => exact Or.inl ⟨.codec error, rfl⟩
  | ok c => exact Or.inr ⟨c, rfl, rfl⟩

theorem quiet_queueTo {message : RemoteMessage} (h : message.streams = false) :
    Moves (Quiet client epoch) (queueTo host message) := by
  intro turn
  rcases @exec_queueTo host message turn with ⟨error, hexec⟩ | ⟨c, hqueue, hexec⟩
  · rw [hexec]
    exact Quiet.steps.refl turn
  obtain ⟨hqueued, hclient, hepoch, hattached, -⟩ := Connection.queue_ok hqueue
  rw [hexec]
  refine ⟨⟨rfl, rfl, rfl, rfl, rfl, rfl, hclient, hepoch, hattached, [], by simp⟩,
    [message], hqueued, ?_⟩
  intro other hother
  rw [List.mem_singleton.mp hother]
  exact h

theorem quiet_queueSnapshot : Moves (Quiet client epoch) (queueSnapshot host) := by
  refine Moves.get_bind ?_
  intro turn
  exact quiet_queueTo rfl turn

/-! ### What a controller's message does -/

/-- A change of the Holder that is recorded under the connection's epoch, or not at all. -/
theorem quiet_onHolder {change : Holder → Holder}
    (h : ∀ holder c, Keeps client epoch ⟨holder, c⟩ ⟨change holder, c⟩) :
    Moves (Quiet client epoch) (modify (Turn.onHolder change) : Turns PUnit) := by
  refine Moves.modify ?_
  intro turn
  exact ⟨h turn.holder turn.connection, [], by simp [Turn.onHolder], by simp⟩

theorem quiet_throw {α : Type} (error : HandleError) :
    Moves (Quiet client epoch) (throw error : Turns α) :=
  Moves.throw error

theorem quiet_pure : Moves (Quiet client epoch) (pure () : Turns Unit) := Moves.pure ()

theorem quiet_writeInput (bytes : List UInt8) (world : World) :
    Moves (Quiet client epoch) (writeInput client epoch bytes world) := by
  refine Moves.get_bind ?_
  intro turn
  refine Moves.ite (fun _ => quiet_pure) (fun _ => ?_) turn
  refine Moves.ite (fun _ => quiet_throw _) (fun _ => ?_)
  refine Moves.bind (quiet_onHolder ?_) (fun _ => Moves.get_bind ?_)
  · intro holder c
    exact ⟨rfl, rfl, rfl, rfl, rfl, rfl, rfl, rfl, rfl, [.wrote bytes], rfl⟩
  intro turn
  refine Moves.bind (quiet_onHolder ?_) (fun _ => ?_) turn
  · intro holder c
    exact ⟨rfl, rfl, rfl, rfl, rfl, rfl, rfl, rfl, rfl, [], (append_nil _).symm⟩
  · exact Moves.ite (fun _ => quiet_throw _) (fun _ => quiet_pure)

theorem quiet_resize (frame : Frame) (world : World) :
    Moves (Quiet client epoch) (resize host client epoch frame world) := by
  unfold resize
  cases frame.resizePayload with
  | none => exact quiet_throw _
  | some size =>
    refine Moves.ite (fun _ => quiet_throw _) (fun _ => ?_)
    refine Moves.ite (fun _ => quiet_throw _) (fun _ => ?_)
    refine Moves.bind (quiet_onHolder ?_) (fun _ => ?_)
    · intro holder c
      exact ⟨rfl, rfl, rfl, rfl, rfl, rfl, rfl, rfl, rfl, [.resized size.1 size.2], rfl⟩
    · exact Moves.ite (fun _ => quiet_throw _) (fun _ => quiet_queueSnapshot)

theorem quiet_handleTerminal (frame : Frame) (world : World) :
    Moves (Quiet client epoch) (handleTerminal host client epoch frame world) := by
  unfold handleTerminal
  cases frame.frameType with
  | input => exact quiet_writeInput _ _
  | resize => exact quiet_resize _ _
  | ping => exact quiet_queueTo rfl
  | scroll =>
    cases frame.scrollPayload with
    | none => exact quiet_throw _
    | some scroll =>
      refine Moves.get_bind ?_
      intro turn
      exact quiet_writeInput _ _ turn
  | output | replayBegin | replayEnd | pong | grid | modes => exact quiet_throw _

/-- **A controller's message keeps to the controller's own epoch**, one case for each kind. -/
theorem quiet_handleControl (world : World) :
    Moves (Quiet client epoch) (handleControl host client epoch message world) := by
  cases message with
  | terminal frame => exact quiet_handleTerminal _ _
  | signal signal =>
    refine Moves.ite (fun _ => quiet_throw _) (fun _ => ?_)
    refine Moves.bind (quiet_onHolder ?_) (fun _ => ?_)
    · intro holder c
      exact ⟨rfl, rfl, rfl, rfl, rfl, rfl, rfl, rfl, rfl, [.signalled signal.signal], rfl⟩
    · exact Moves.ite (fun _ => quiet_throw _) (fun _ => quiet_pure)
  | acquireControl acquire | scrollbackRequest request => exact quiet_queueTo rfl
  | releaseControl release =>
    exact Moves.ite (fun _ => quiet_throw _) (fun _ => quiet_throw _)
  | hello value | helloAck value | fullSnapshot value | gridDelta value | processExit value
  | controlGranted value | controlRevoked value | scrollbackResponse value | error value =>
    exact quiet_throw _

/-! ### The handshake -/

theorem quiet_finishHandshake (world : World) :
    Moves (Quiet client epoch) (finishHandshake host world) := by
  refine Moves.bind (quiet_onHolder ?_) (fun _ => ?_)
  · intro holder c
    exact ⟨rfl, rfl, rfl, rfl, rfl, rfl, rfl, rfl, rfl, [], (append_nil _).symm⟩
  refine Moves.bind quiet_queueSnapshot (fun _ => Moves.get_bind ?_)
  intro turn
  refine Moves.bind (quiet_queueTo rfl) (fun _ => ?_) turn
  exact Moves.ite (fun _ => quiet_throw _) (fun _ => quiet_pure)

theorem keeps_queueTo : Moves (Keeps client epoch) (queueTo host message) := by
  intro turn
  rcases @exec_queueTo host message turn with ⟨error, hexec⟩ | ⟨c, hqueue, hexec⟩
  · rw [hexec]
    exact Keeps.steps.refl turn
  obtain ⟨-, hclient, hepoch, hattached, -⟩ := Connection.queue_ok hqueue
  rw [hexec]
  exact ⟨rfl, rfl, rfl, rfl, rfl, rfl, hclient, hepoch, hattached, [], by simp⟩

theorem keeps_replayLoop (tail fuel offset : Nat) :
    Moves (Keeps client epoch) (replayLoop host tail fuel offset) := by
  induction fuel generalizing offset with
  | zero => exact Moves.pure ()
  | succ fuel ih =>
    refine Moves.ite (fun _ => ?_) (fun _ => Moves.pure ())
    refine Moves.get_bind ?_
    intro turn
    refine Moves.ite (fun _ => Moves.pure ()) (fun _ => ?_) turn
    exact Moves.bind (keeps_queueTo _) fun _ => ih _

theorem keeps_queueReplay (acknowledged : Option Nat) :
    Moves (Keeps client epoch) (queueReplay host acknowledged) := by
  refine Moves.get_bind ?_
  intro turn
  refine Moves.ite (fun _ => Moves.pure ()) (fun _ => ?_) turn
  refine Moves.bind (keeps_queueTo _) fun _ => ?_
  exact Moves.bind (keeps_replayLoop _ _ _) fun _ => keeps_queueTo _

theorem exec_handshake (hello : Hello) (world : World) (turn : Turn) :
    (∃ error, turn.holder.checkHello host hello world = .error error ∧
      (handshake host hello world).exec turn = (.error error, turn)) ∨
    (turn.holder.checkHello host hello world = .ok () ∧
      Keeps client epoch (grant (hello.lastAcknowledgedOutputOffset.map UInt64.toNat) turn)
        ((handshake host hello world).exec turn).2) := by
  unfold handshake
  rw [exec_bind_ok (exec_get turn)]
  cases h : turn.holder.checkHello host hello world with
  | error error => exact Or.inl ⟨error, rfl, rfl⟩
  | ok _ =>
    refine Or.inr ⟨rfl, ?_⟩
    simp only
    rw [exec_bind_ok (exec_modify _ _), exec_bind_ok (exec_get _)]
    refine Moves.bind (keeps_queueTo _) (fun _ => ?_) _
    refine Moves.bind (keeps_queueReplay _) fun _ => ?_
    intro turn
    exact (quiet_finishHandshake world turn).toKeeps

/-! ### Reading an authenticated connection -/

theorem exec_handleMessage_stale {turn : Turn} (hepoch : turn.connection.epoch = some epoch)
    (hstale : epoch ≠ turn.holder.state.controllerEpoch) (message : RemoteMessage) (world : World) :
    (handleMessage host message world).exec turn
      = (.error (.io "controller epoch was revoked"), turn) := by
  unfold handleMessage
  rw [exec_bind_ok (exec_get turn), hepoch]
  simp only [if_pos hstale]
  rfl

theorem quiet_handleMessage {turn : Turn} (hclient : turn.connection.client = client)
    (hepoch : turn.connection.epoch = some epoch) (message : RemoteMessage) (world : World) :
    Quiet client epoch turn ((handleMessage host message world).exec turn).2 := by
  by_cases hcurrent : epoch = turn.holder.state.controllerEpoch
  · unfold handleMessage
    rw [exec_bind_ok (exec_get turn), hepoch]
    simp only [hcurrent, ne_eq, not_true, if_false]
    rw [← hclient]
    exact quiet_handleControl message world turn
  · rw [exec_handleMessage_stale hepoch hcurrent]
    exact Quiet.steps.refl turn

theorem quiet_handleMessages (messages : List RemoteMessage) {turn : Turn}
    (hclient : turn.connection.client = client) (hepoch : turn.connection.epoch = some epoch)
    (world : Nat → World) :
    Quiet client epoch turn ((handleMessages host messages world).exec turn).2 := by
  induction messages generalizing turn world with
  | nil => exact Quiet.steps.refl turn
  | cons message messages ih =>
    have hfirst := @quiet_handleMessage host client epoch turn hclient hepoch message (world 0)
    unfold handleMessages
    rw [exec_bind]
    cases hexec : (handleMessage host message (world 0)).exec turn with
    | mk result next =>
      rw [hexec] at hfirst
      cases result with
      | error error => exact hfirst
      | ok _ =>
        exact Quiet.steps.trans hfirst
          (ih (hfirst.sameClient.trans hclient) (hfirst.sameEpoch.trans hepoch) _)

theorem quiet_unread (unread : List UInt8) (turn : Turn) :
    Quiet client epoch turn (turn.setUnread unread) :=
  ⟨⟨rfl, rfl, rfl, rfl, rfl, rfl, rfl, rfl, rfl, [], by simp [Turn.setUnread, Turn.onConnection]⟩,
    [], by simp [Turn.setUnread, Turn.onConnection], by simp⟩

variable (reads : List Read)

/-- **A read of an authenticated connection keeps to the connection's epoch.** -/
theorem quiet_readMessages {turn : Turn}
    (hclient : turn.connection.client = client) (hepoch : turn.connection.epoch = some epoch) :
    Quiet client epoch turn (readMessages host reads turn).1 := by
  induction reads generalizing turn with
  | nil => exact Quiet.steps.refl turn
  | cons read reads ih =>
    cases read with
    | failed => exact Quiet.steps.refl turn
    | ok bytes world =>
      unfold readMessages
      by_cases hbytes : bytes = []
      · rw [if_pos hbytes]
        exact Quiet.steps.refl turn
      rw [if_neg hbytes]
      cases hfeed : (RemoteCodec.framing host.json).feed turn.connection.unread bytes with
      | mk result unread =>
        have hunread := @quiet_unread client epoch unread turn
        cases result with
        | error error => exact hunread
        | ok messages =>
          have hhandled := @quiet_handleMessages host client epoch messages _
            (hunread.sameClient.trans hclient) (hunread.sameEpoch.trans hepoch) world
          simp only
          cases hexec : (handleMessages host messages world).exec
              (turn.setUnread unread) with
          | mk result next =>
            rw [hexec] at hhandled
            have hnext := Quiet.steps.trans hunread hhandled
            cases result with
            | error error => exact hnext
            | ok _ =>
                exact Quiet.steps.trans hnext
                  (ih (hnext.sameClient.trans hclient) (hnext.sameEpoch.trans hepoch))

theorem readMessages_stale {turn : Turn} (hepoch : turn.connection.epoch = some epoch)
    (hstale : epoch ≠ turn.holder.state.controllerEpoch) :
    (readMessages host reads turn).1.holder = turn.holder := by
  induction reads generalizing turn with
  | nil => rfl
  | cons read reads ih =>
    cases read with
    | failed => rfl
    | ok bytes world =>
      unfold readMessages
      by_cases hbytes : bytes = []
      · rw [if_pos hbytes]
      rw [if_neg hbytes]
      cases hfeed : (RemoteCodec.framing host.json).feed turn.connection.unread bytes with
      | mk result unread =>
        cases result with
        | error error => rfl
        | ok messages =>
          simp only
          cases messages with
          | nil => exact ih hepoch hstale
          | cons message messages =>
            have hunread : (turn.setUnread unread).connection.epoch = some epoch := hepoch
            unfold handleMessages
            rw [exec_bind_error (exec_handleMessage_stale hunread hstale message _)]
            rfl

/-! ### Reading a connection that has not authenticated -/

/-- The first message that a connection's reads give. -/
def firstMessage (host : Host) : List UInt8 → List Read → Option (RemoteMessage × World)
  | _, [] => none
  | _, .failed :: _ => none
  | unread, .ok bytes world :: reads =>
    if bytes = [] then none
    else
      match (RemoteCodec.framing host.json).feed unread bytes with
      | (.error _, _) => none
      | (.ok [], unread) => firstMessage host unread reads
      | (.ok (message :: _), _) => some (message, world 0)

/-- The acknowledged offset of a `Hello` that comes first and passes the checks. -/
def admits (host : Host) (unread : List UInt8) (reads : List Read) (holder : Holder) :
    Option (Option Nat) :=
  match firstMessage host unread reads with
  | some (.hello hello, world) =>
    match holder.checkHello host hello world with
    | .ok () => some (hello.lastAcknowledgedOutputOffset.map UInt64.toNat)
    | .error _ => none
  | _ => none

/-- The first message of a connection: it passes the checks, or nothing changes. -/
theorem exec_handleMessage_first {turn : Turn} (hepoch : turn.connection.epoch = none)
    (message : RemoteMessage) (world : World) :
    (∃ error, (handleMessage host message world).exec turn = (.error error, turn) ∧
      ∀ hello, message = .hello hello → turn.holder.checkHello host hello world ≠ .ok ()) ∨
    ∃ hello, message = .hello hello ∧ turn.holder.checkHello host hello world = .ok () ∧
      (handleMessage host message world).exec turn = (handshake host hello world).exec turn := by
  by_cases hmessage : ∃ hello, message = .hello hello
  · obtain ⟨hello, rfl⟩ := hmessage
    have hexec : (handleMessage host (.hello hello) world).exec turn =
        (handshake host hello world).exec turn := by
      unfold handleMessage
      rw [exec_bind_ok (exec_get turn), hepoch]
    rcases @exec_handshake host 0 0 hello world turn with
      ⟨error, hcheck, hfailed⟩ | ⟨hcheck, -⟩
    · refine Or.inl ⟨error, hexec.trans hfailed, ?_⟩
      intro hello' heq
      cases heq
      rw [hcheck]
      simp
    · exact Or.inr ⟨hello, rfl, hcheck, hexec⟩
  refine Or.inl ⟨.io "Hello must be the first attach message", ?_, fun hello heq =>
    absurd ⟨hello, heq⟩ hmessage⟩
  unfold handleMessage
  rw [exec_bind_ok (exec_get turn), hepoch]
  cases message with
  | hello hello => exact absurd ⟨hello, rfl⟩ hmessage
  | _ => rfl

/-- A `Hello` that is not admitted leaves everything as it was, but for the codec. -/
theorem readMessages_unadmitted {turn : Turn} (hepoch : turn.connection.epoch = none)
    (h : admits host turn.connection.unread reads turn.holder = none) :
    ∃ unread, (readMessages host reads turn).1 = turn.setUnread unread := by
  induction reads generalizing turn with
  | nil => exact ⟨turn.connection.unread, rfl⟩
  | cons read reads ih =>
    cases read with
    | failed => exact ⟨turn.connection.unread, rfl⟩
    | ok bytes world =>
      unfold readMessages
      unfold admits firstMessage at h
      by_cases hbytes : bytes = []
      · rw [if_pos hbytes]
        exact ⟨turn.connection.unread, rfl⟩
      rw [if_neg hbytes] at h ⊢
      cases hfeed : (RemoteCodec.framing host.json).feed turn.connection.unread bytes with
      | mk result unread =>
        rw [hfeed] at h
        cases result with
        | error error => exact ⟨unread, rfl⟩
        | ok messages =>
          cases messages with
          | nil =>
            obtain ⟨unread', hread⟩ := @ih (turn.setUnread unread) hepoch h
            exact ⟨unread', hread⟩
          | cons message messages =>
            have hunread : (turn.setUnread unread).connection.epoch = none := hepoch
            rcases @exec_handleMessage_first host _ hunread message (world 0)
              with ⟨error, hexec, -⟩ | ⟨hello, rfl, hcheck, -⟩
            · refine ⟨unread, ?_⟩
              simp only [handleMessages]
              rw [exec_bind_error hexec]
            have hcheck' : turn.holder.checkHello host hello (world 0) = .ok () :=
              hcheck
            simp only [hcheck'] at h
            cases h

theorem readMessages_hello {messages : List RemoteMessage} {hello : Hello}
    {bytes unread : List UInt8} {world : Nat → World} {turn : Turn}
    (hepoch : turn.connection.epoch = none) (hbytes : bytes ≠ [])
    (hfeed : (RemoteCodec.framing host.json).feed turn.connection.unread bytes
      = (.ok (.hello hello :: messages), unread))
    (hcheck : turn.holder.checkHello host hello (world 0) = .ok ()) :
    Quiet turn.connection.client (saturatingSucc turn.holder.state.controllerEpoch)
      ((handshake host hello (world 0)).exec (turn.setUnread unread)).2
      (readMessages host (.ok bytes world :: reads) turn).1 ∧
    ∀ error, ((handshake host hello (world 0)).exec (turn.setUnread unread)).1 = .error error →
      (readMessages host (.ok bytes world :: reads) turn).2 ≠ none := by
  have hexec : (handleMessage host (.hello hello) (world 0)).exec (turn.setUnread unread)
      = (handshake host hello (world 0)).exec (turn.setUnread unread) := by
    unfold handleMessage
    rw [exec_bind_ok (exec_get _), show (turn.setUnread unread).connection.epoch = none from hepoch]
  have hkeeps := (@exec_handshake host turn.connection.client
    (saturatingSucc turn.holder.state.controllerEpoch) hello (world 0) (turn.setUnread unread)).resolve_left (by
      rintro ⟨error, hfailed, -⟩
      rw [show (turn.setUnread unread).holder = turn.holder from rfl, hcheck] at hfailed
      cases hfailed)
  unfold readMessages
  rw [if_neg hbytes, hfeed]
  simp only [handleMessages]
  rw [exec_bind, hexec]
  cases hshaken : (handshake host hello (world 0)).exec (turn.setUnread unread) with
  | mk result next =>
    rw [hshaken] at hkeeps
    cases result with
    | error error => exact ⟨Quiet.steps.refl _, by simp⟩
    | ok _ =>
      have hclient := hkeeps.2.sameClient
      have hnext := hkeeps.2.sameEpoch
      have hhandled := @quiet_handleMessages host _ _ messages _ hclient hnext
        fun n => world (n + 1)
      simp only
      cases hrest : (handleMessages host messages fun n => world (n + 1)).exec next with
      | mk result last =>
        rw [hrest] at hhandled
        cases result with
        | error error => exact ⟨hhandled, by simp⟩
        | ok _ =>
          refine ⟨Quiet.steps.trans hhandled (quiet_readMessages reads
            (hhandled.sameClient.trans hclient) (hhandled.sameEpoch.trans hnext)), ?_⟩
          simp

/--
**A `Hello` that is admitted brings about its handshake**, and then only what a controller
may do; if the handshake fails the connection is closed.
-/
theorem readMessages_admitted {turn : Turn} {acknowledged : Option Nat}
    (hepoch : turn.connection.epoch = none)
    (h : admits host turn.connection.unread reads turn.holder = some acknowledged) :
    ∃ unread hello world, turn.holder.checkHello host hello world = .ok () ∧
      acknowledged = hello.lastAcknowledgedOutputOffset.map UInt64.toNat ∧
      Quiet turn.connection.client (saturatingSucc turn.holder.state.controllerEpoch)
        ((handshake host hello world).exec (turn.setUnread unread)).2
        (readMessages host reads turn).1 ∧
      ∀ error, ((handshake host hello world).exec (turn.setUnread unread)).1 = .error error →
        (readMessages host reads turn).2 ≠ none := by
  induction reads generalizing turn with
  | nil => cases h
  | cons read reads ih =>
    cases read with
    | failed => cases h
    | ok bytes world =>
      unfold admits firstMessage at h
      by_cases hbytes : bytes = []
      · rw [if_pos hbytes] at h
        cases h
      rw [if_neg hbytes] at h
      cases hfeed : (RemoteCodec.framing host.json).feed turn.connection.unread bytes with
      | mk result unread =>
        rw [hfeed] at h
        cases result with
        | error error => cases h
        | ok messages =>
          cases messages with
          | nil =>
            unfold readMessages
            rw [if_neg hbytes, hfeed]
            exact @ih (turn.setUnread unread) hepoch h
          | cons message messages =>
            simp only at h
            split at h
            · rename_i hello _ heq
              obtain ⟨rfl, rfl⟩ := Prod.mk.inj (Option.some.inj heq)
              split at h
              · rename_i hcheck
                exact ⟨unread, hello, world 0, hcheck, (Option.some.inj h).symm,
                  readMessages_hello reads hepoch hbytes hfeed hcheck⟩
              · cases h
            · cases h

theorem readMessages_granted {turn : Turn} {acknowledged : Option Nat}
    (hepoch : turn.connection.epoch = none)
    (h : admits host turn.connection.unread reads turn.holder = some acknowledged) :
    ∃ unread, Keeps turn.connection.client (saturatingSucc turn.holder.state.controllerEpoch)
      (grant acknowledged (turn.setUnread unread)) (readMessages host reads turn).1 := by
  obtain ⟨unread, hello, world, hcheck, rfl, hquiet, -⟩ := readMessages_admitted reads hepoch h
  refine ⟨unread, ?_⟩
  rcases @exec_handshake host turn.connection.client
    (saturatingSucc turn.holder.state.controllerEpoch) hello world (turn.setUnread unread)
    with ⟨error, hfailed, -⟩ | ⟨-, hkeeps⟩
  · have hcheck' : turn.holder.checkHello host hello world = .error error := hfailed
    rw [hcheck] at hcheck'
    cases hcheck'
  · exact Keeps.steps.trans hkeeps hquiet.toKeeps

end Holder

end Diri.Wire

namespace Diri.Wire

/-- The message that tells a client that its output was discarded. -/
def RemoteMessage.isReseed : RemoteMessage → Bool
  | .error value => value.code = "slow_client_reseed"
  | _ => false

/-- Whether the client was told that its output was discarded. -/
def Connection.reseeded (c : Connection) : Bool := c.queued.any RemoteMessage.isReseed

/-- The same client in the same place, whatever was queued. -/
structure SameClient (c c' : Connection) : Prop where
  client : c'.client = c.client
  epoch : c'.epoch = c.epoch
  attached : c'.attached = c.attached

/-- What queueing a message to the current connection comes to. -/
inductive Queues (json : SerdeJson) (message : RemoteMessage) (holder : Holder) : Holder → Prop
  | idle : holder.connection = none → Queues json message holder holder
  | queued {c c' : Connection} : holder.connection = some c → c.queue json message = .ok c' →
      Queues json message holder { holder with connection := some c' }
  | dropped {c c' : Connection} : holder.connection = some c → c.queue json message = .ok c' →
      Queues json message holder ({ holder with connection := none }.retire c')
  | reseeded {c c' : Connection} : holder.connection = some c → SameClient c c' →
      c'.reseeded = true →
        Queues json message holder { holder.bumpSequence with connection := some c' }

/-- No other connection, no epoch, no effect. -/
structure Sends (holder holder' : Holder) : Prop where
  controllerEpoch : holder'.state.controllerEpoch = holder.state.controllerEpoch
  history : holder'.history = holder.history
  pendingConnection : holder'.pendingConnection = holder.pendingConnection
  connection : ∀ c', holder'.connection = some c' →
    ∃ c, holder.connection = some c ∧ SameClient c c'

namespace Sends

theorem refl (holder : Holder) : Sends holder holder :=
  ⟨rfl, rfl, rfl, fun c hc => ⟨c, hc, rfl, rfl, rfl⟩⟩

theorem trans {h₁ h₂ h₃ : Holder} (h : Sends h₁ h₂) (h' : Sends h₂ h₃) : Sends h₁ h₃ := by
  refine ⟨h'.controllerEpoch.trans h.controllerEpoch, h'.history.trans h.history,
    h'.pendingConnection.trans h.pendingConnection, ?_⟩
  intro c₃ hc₃
  obtain ⟨c₂, hc₂, hsame₂⟩ := h'.connection c₃ hc₃
  obtain ⟨c₁, hc₁, hsame₁⟩ := h.connection c₂ hc₂
  exact ⟨c₁, hc₁, hsame₂.client.trans hsame₁.client, hsame₂.epoch.trans hsame₁.epoch,
    hsame₂.attached.trans hsame₁.attached⟩

end Sends

theorem Connection.queue_same {json : SerdeJson} {message : RemoteMessage} {c c' : Connection}
    (h : c.queue json message = .ok c') : SameClient c c' := by
  obtain ⟨-, hclient, hepoch, hattached, -⟩ := Connection.queue_ok h
  exact ⟨hclient, hepoch, hattached⟩

namespace Holder

variable {host : Host} {holder holder' : Holder}

theorem reseed_ok {c : Connection} (h : holder.reseed host c = some holder') :
    ∃ c', SameClient c c' ∧ c'.reseeded = true ∧
      holder' = { holder.bumpSequence with connection := some c' } := by
  unfold reseed at h
  simp only [Option.bind_eq_bind, Option.pure_def] at h
  obtain ⟨c₁, herror, h⟩ := Option.bind_eq_some_iff.mp h
  obtain ⟨c₂, hsnapshot, h⟩ := Option.bind_eq_some_iff.mp h
  obtain ⟨⟩ := h
  have herror' := toOption_eq_some herror
  have hsnapshot' := toOption_eq_some hsnapshot
  obtain ⟨hqueued₁, hclient₁, hepoch₁, hattached₁, -⟩ := Connection.queue_ok herror'
  obtain ⟨hqueued₂, hclient₂, hepoch₂, hattached₂, -⟩ := Connection.queue_ok hsnapshot'
  refine ⟨c₂, ⟨hclient₂.trans hclient₁, hepoch₂.trans hepoch₁, hattached₂.trans hattached₁⟩, ?_,
    rfl⟩
  unfold Connection.reseeded
  rw [hqueued₂, hqueued₁]
  simp [RemoteMessage.isReseed]

/-- **What queueing a message comes to.** -/
theorem queue_cases {message : RemoteMessage} (h : holder.queue host message = some holder') :
    Queues host.json message holder holder' := by
  unfold queue at h
  cases hconnection : holder.connection with
  | none =>
    rw [hconnection] at h
    obtain ⟨⟩ := h
    exact .idle hconnection
  | some c =>
    rw [hconnection] at h
    obtain ⟨c', hqueue, h⟩ := Option.bind_eq_some_iff.mp h
    have hqueue' := toOption_eq_some hqueue
    by_cases hlong : c'.outbound.length > maxOutboundBytes
    · rw [if_pos hlong] at h
      by_cases hsent : c'.sent ≠ 0
      · rw [if_pos hsent] at h
        obtain ⟨⟩ := h
        exact .dropped hconnection hqueue'
      rw [if_neg hsent] at h
      obtain ⟨c'', hsame, hreseeded, rfl⟩ := reseed_ok h
      have hsame' := Connection.queue_same hqueue'
      exact .reseeded hconnection ⟨hsame.client.trans hsame'.client,
        hsame.epoch.trans hsame'.epoch, hsame.attached.trans hsame'.attached⟩ hreseeded
    rw [if_neg hlong] at h
    obtain ⟨⟩ := h
    exact .queued hconnection hqueue'

end Holder

theorem Queues.sends {json : SerdeJson} {message : RemoteMessage} {holder holder' : Holder}
    (h : Queues json message holder holder') : Sends holder holder' := by
  cases h with
  | idle hnone => exact Sends.refl holder
  | queued hconnection hqueue =>
    refine ⟨rfl, rfl, rfl, ?_⟩
    intro c' hc'
    obtain ⟨⟩ := hc'
    exact ⟨_, hconnection, Connection.queue_same hqueue⟩
  | dropped hconnection hqueue =>
    refine ⟨rfl, rfl, rfl, ?_⟩
    intro c' hc'
    cases hc'
  | reseeded hconnection hsame hreseeded =>
    refine ⟨rfl, rfl, rfl, ?_⟩
    intro c' hc'
    obtain ⟨⟩ := hc'
    exact ⟨_, hconnection, hsame⟩

namespace Holder

variable {host : Host} {holder holder' : Holder}

/-! ### The steps -/

theorem drainPty_cases {bytes : List UInt8} {painted : Painted}
    (h : holder.drainPty host bytes painted = some holder') :
    (holder' = holder ∨ holder' = { holder with reading := false }) ∨
    bytes ≠ [] ∧ ∃ logged, logged.log = (holder.log.append bytes).2 ∧
      logged.stream = holder.stream ++ bytes ∧ logged.connection = holder.connection ∧
      logged.past = holder.past ∧ Sends holder logged ∧
      ((holder.attached = false ∧ holder' = logged) ∨ holder.attached = true ∧ Queues host.json
          (.terminal (.output (holder.log.append bytes).1 bytes)) logged holder') := by
  unfold drainPty at h
  by_cases hreading : holder.reading
  · by_cases hbytes : bytes = []
    · rw [if_neg (by simp [hreading]), if_pos hbytes] at h
      exact Or.inl (Or.inr (Option.some.inj h).symm)
    · rw [if_neg (by simp [hreading]), if_neg hbytes] at h
      refine Or.inr ⟨hbytes, { holder with
        log := (holder.log.append bytes).2
        stream := holder.stream ++ bytes
        state := { holder.state with outputOffset := (holder.log.append bytes).2.tailOffset }
        screen := holder.screen.feed host.hasher painted }, rfl, rfl, rfl, rfl,
        ⟨rfl, rfl, rfl, fun c hc => ⟨c, hc, rfl, rfl, rfl⟩⟩, ?_⟩
      by_cases hattached : holder.attached
      · exact Or.inr ⟨hattached, queue_cases (by rw [← h]; exact (if_pos hattached).symm)⟩
      have hfalse : holder.attached = false := by simpa using hattached
      refine Or.inl ⟨hfalse, ?_⟩
      exact Option.some.inj (h.symm.trans (if_neg hattached))
  · rw [if_pos (by simp [hreading])] at h
    exact Or.inl (Or.inl (Option.some.inj h).symm)

/-- Something that is not output is queued, after a change that is none of the stream's. -/
structure Publishes (json : SerdeJson) (holder holder' : Holder) : Prop where
  published : ∃ changed message, changed.log = holder.log ∧ changed.stream = holder.stream ∧
    changed.connection = holder.connection ∧ changed.past = holder.past ∧
    Sends holder changed ∧ message.streams = false ∧ Queues json message changed holder'

theorem emitGridDelta_cases (h : holder.emitGridDelta host = some holder') :
    holder' = holder ∨ Publishes host.json holder holder' := by
  unfold emitGridDelta at h
  by_cases hattached : holder.attached
  · rw [if_neg (by simp [hattached])] at h
    right
    refine ⟨?_⟩
    let drawn := { holder with screen := (holder.screen.gridUpdate false).2 }.bumpSequence
    let grid := (holder.screen.gridUpdate false).1
    have hsends : Sends holder drawn := ⟨rfl, rfl, rfl, fun c hc => ⟨c, hc, rfl, rfl, rfl⟩⟩
    have hqueue : (if grid.isFullSnapshot then drawn.queue host (.fullSnapshot (drawn.gridMessage grid))
        else drawn.queue host (.gridDelta (drawn.gridMessage grid))) = some holder' := h
    by_cases hfull : grid.isFullSnapshot
    · rw [if_pos hfull] at hqueue
      exact ⟨drawn, .fullSnapshot _, rfl, rfl, rfl, rfl, hsends, rfl, queue_cases hqueue⟩
    · rw [if_neg hfull] at hqueue
      exact ⟨drawn, .gridDelta _, rfl, rfl, rfl, rfl, hsends, rfl, queue_cases hqueue⟩
  · rw [if_pos (by simpa using hattached)] at h
    exact Or.inl (Option.some.inj h).symm

theorem recordExit_cases {exit : ProcessExit} (h : holder.recordExit host exit = some holder') :
    holder' = holder ∨ Publishes host.json holder holder' := by
  unfold recordExit at h
  by_cases hwatching : holder.watching
  · rw [if_neg (by simp [hwatching])] at h
    have hqueues := queue_cases h
    right
    refine ⟨_, .processExit exit, ?_, ?_, ?_, ?_, ?_, rfl, hqueues⟩
    · rfl
    · rfl
    · rfl
    · rfl
    · exact ⟨rfl, rfl, rfl, fun c hc => ⟨c, hc, rfl, rfl, rfl⟩⟩
  · rw [if_pos (by simpa using hwatching)] at h
    exact Or.inl (Option.some.inj h).symm

theorem flushInput_cases {writes : Writes} (h : holder.flushInput writes = some holder') :
    holder' = { holder with pendingInput := holder.pendingInput.drop writes.accepted } := by
  unfold flushInput at h
  split at h
  · cases h
  · exact (Option.some.inj h).symm

theorem flush_same (writes : Writes) (c : Connection) :
    SameClient c (c.flush writes).2 ∧ (c.flush writes).2.queued = c.queued := by
  unfold Connection.flush
  simp only
  split <;> exact ⟨⟨rfl, rfl, rfl⟩, rfl⟩

theorem flushConnection_cases {writes : Writes} (h : holder.flushConnection writes = some holder') :
    holder' = holder ∨ ∃ c, holder.connection = some c ∧
      (holder' = { holder with connection := some (c.flush writes).2 } ∨
        holder' = { holder with connection := none }.retire (c.flush writes).2) := by
  unfold flushConnection at h
  cases hconnection : holder.connection with
  | none =>
    rw [hconnection] at h
    exact Or.inl (Option.some.inj h).symm
  | some c =>
    rw [hconnection] at h
    refine Or.inr ⟨c, rfl, ?_⟩
    cases hflush : c.flush writes with
    | mk ending flushed =>
      simp only [hflush] at h
      cases ending with
      | none => exact Or.inl (Option.some.inj h).symm
      | some ending =>
        cases ending with
        | broken => exact Or.inr (Option.some.inj h).symm
        | wouldBlock | failed => cases h

theorem drainPty_sends {bytes : List UInt8} {painted : Painted}
    (h : holder.drainPty host bytes painted = some holder') : Sends holder holder' := by
  rcases drainPty_cases h with (rfl | rfl) | ⟨-, logged, -, -, -, -, hsends, ⟨-, rfl⟩ | ⟨-, hqueues⟩⟩
  · exact Sends.refl _
  · exact ⟨rfl, rfl, rfl, fun c hc => ⟨c, hc, rfl, rfl, rfl⟩⟩
  · exact hsends
  · exact hsends.trans hqueues.sends

theorem Publishes.sends {json : SerdeJson} (h : Publishes json holder holder') :
    Sends holder holder' := by
  obtain ⟨changed, message, -, -, -, -, hsends, -, hqueues⟩ := h.published
  exact hsends.trans hqueues.sends

theorem flushConnection_sends {writes : Writes}
    (h : holder.flushConnection writes = some holder') : Sends holder holder' := by
  rcases flushConnection_cases h with rfl | ⟨c, hconnection, rfl | rfl⟩
  · exact Sends.refl _
  · refine ⟨rfl, rfl, rfl, ?_⟩
    intro c' hc'
    obtain ⟨⟩ := hc'
    exact ⟨c, hconnection, (flush_same writes c).1⟩
  refine ⟨rfl, rfl, rfl, ?_⟩
  intro c' hc'
  cases hc'

end Holder

end Diri.Wire
