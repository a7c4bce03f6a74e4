/-
What the client asks for in a handoff, and in which order.

The client's script keeps to a protocol.  Until the target has committed, nothing that is
asked commits the source; from then on the source is asked to commit under the same lease,
or both sides are asked to abort; and only where both have committed does the handoff end
well.
-/
import Diri.Node.Service

namespace Diri

/-- How far the handoff has come, by what the client has heard. -/
inductive HandoffMode
  /-- The checkpoint is still to be prepared. -/
  | start
  /-- There will be no checkpoint. -/
  | unprepared
  | transferring (id : String)
  | failed (id : String)
  /-- The target has committed. -/
  | settled (id lease : String)
  | both (id lease : String)

/-- A request that is asked of the node before the target has committed. -/
def NodeRequest.Opens (id : String) : NodeSide → NodeRequest → Prop
  | .target, .checkpointManifestPut manifest => manifest.checkpointId = id
  | .target, .checkpointStage checkpointId => checkpointId = id
  | .target, .moveCommit params => params.checkpointId = id
  | _, .moveAbort params => params.checkpointId = id
  | _, .checkpointBlobHas _ | _, .checkpointBlobRead _ _ _ | _, .checkpointBlobPut _ => True
  | _, _ => False

/-- A request that is asked of the node once the target has committed. -/
def NodeRequest.Settles (id lease : String) : NodeSide → NodeRequest → Prop
  | .source, .moveCommit params => params.checkpointId = id ∧ params.leaseId = lease
  | _, .moveAbort params => params.checkpointId = id
  | _, _ => False

namespace HandoffMode

/-- What may be asked of a node, or may still be under way to it. -/
def Permits (mode : HandoffMode) (call : NodeSide × NodeRequest) : Prop :=
  match mode with
  | .start | .unprepared => call.1 = .source ∧ ∃ params, call.2 = .checkpointPrepare params
  | .transferring id | .failed id => call.2.Opens id call.1
  | .settled id lease | .both id lease => call.2.Settles id lease call.1

def allows (mode : HandoffMode) : ClientCall → Prop
  | .request side request =>
    mode.Permits (side, request) ∧
      match mode with
      | .unprepared | .both _ _ => False
      | .failed _ => ∃ params, request = .moveAbort params
      | _ => True
  | _ => True

def next (mode : HandoffMode) (call : ClientCall) (answer : Except NodeClientError ClientReply) :
    HandoffMode :=
  match mode, call, answer with
  | .start, .request _ _, .ok (.node (.manifest manifest)) => .transferring manifest.checkpointId
  | .start, .request _ _, _ => .unprepared
  | .transferring _, .request .target (.moveCommit params), .ok (.node (.movement _)) =>
    .settled params.checkpointId params.leaseId
  | .transferring id, .request _ (.moveCommit _), _ => .failed id
  | .transferring id, .request _ (.moveAbort _), _ => .failed id
  | .transferring id, .request _ _, .error _ => .failed id
  | .settled id lease, .request .source (.moveCommit _), .ok (.node (.movement _)) =>
    .both id lease
  | mode, _, _ => mode

end HandoffMode

def handoffProtocol :
    Script.Protocol ClientCall (Except NodeClientError ClientReply) HandoffMode where
  allows := HandoffMode.allows
  next := HandoffMode.next

namespace NodeClient

open Script

variable {α β : Type}

/-- What holds of the mode when the script ends, by how it ends. -/
abbrev Follows (mode : HandoffMode) (script : NodeClient α) (ends : HandoffMode → α → Prop)
    (fails : HandoffMode → Prop) : Prop :=
  Script.Keeps handoffProtocol (Script.Keeps.Either ends fails) mode script.run

variable {mode : HandoffMode} {id lease : String} {ends : HandoffMode → α → Prop}
  {fails : HandoffMode → Prop}

theorem Follows.bind {ends' : HandoffMode → β → Prop} {script : NodeClient α}
    {f : α → NodeClient β} (h : Follows mode script ends fails)
    (hNext : ∀ mode result, ends mode result → Follows mode (f result) ends' fails) :
    Follows mode (script >>= f) ends' fails :=
  Script.Keeps.bindExcept _ h hNext

theorem Follows.pure {value : α} (h : ends mode value) :
    Follows mode (pure value : NodeClient α) ends fails := h

theorem Follows.throw {error : NodeClientError} (h : fails mode) :
    Follows mode (throw error : NodeClient α) ends fails := h

variable {call : ClientCall} {read : ClientReply → Option α}

theorem typed_keeps {Mode : Type}
    {P : Protocol ClientCall (Except NodeClientError ClientReply) Mode} {mode : Mode}
    {ends : Mode → α → Prop} {fails : Mode → Prop} (hAllows : P.allows mode call)
    (hEnds : ∀ reply value, read reply = some value → ends (P.next mode call (.ok reply)) value)
    (hFails : ∀ answer, (∀ reply, answer = .ok reply → read reply = none) →
      fails (P.next mode call answer)) :
    Script.Keeps P (Script.Keeps.Either ends fails) mode (typed call read).run := by
  refine ⟨hAllows, fun answer => ?_⟩
  cases answer with
  | error error => exact hFails (.error error) (by intro reply h; cases h)
  | ok reply =>
    cases hread : read reply with
    | some value =>
      simp only [Except.bind, hread]
      exact hEnds reply value hread
    | none =>
      simp only [Except.bind, hread]
      exact hFails (.ok reply) (by intro other h; cases h; exact hread)

theorem Follows.typed (hAllows : mode.allows call)
    (hEnds : ∀ reply value, read reply = some value → ends (mode.next call (.ok reply)) value)
    (hFails : ∀ answer, (∀ reply, answer = .ok reply → read reply = none) →
      fails (mode.next call answer)) : Follows mode (typed call read) ends fails :=
  typed_keeps hAllows hEnds hFails

/-- The modes in which both sides may be asked to abort. -/
def Undoable (id : String) (mode : HandoffMode) : Prop :=
  mode = .transferring id ∨ mode = .failed id ∨ ∃ lease, mode = .settled id lease

/-! ### Until the target has committed -/

theorem Follows.transfer {side : NodeSide} {request : NodeRequest} (hOpens : request.Opens id side)
    (hcommit : ∀ params, request ≠ .moveCommit params)
    (habort : ∀ params, request ≠ .moveAbort params) :
    Follows (.transferring id) (NodeClient.typed (.request side request) read)
      (fun mode _ => mode = .transferring id) (Undoable id) := by
  have hok : ∀ reply, HandoffMode.next (.transferring id) (.request side request) (.ok reply)
      = .transferring id := by
    intro reply
    cases request with
    | moveCommit params => exact absurd rfl (hcommit params)
    | moveAbort params => exact absurd rfl (habort params)
    | _ => cases side <;> rfl
  have herror : ∀ error, HandoffMode.next (.transferring id) (.request side request)
      (.error error) = .failed id := by
    intro error
    cases request with
    | moveCommit params => exact absurd rfl (hcommit params)
    | moveAbort params => exact absurd rfl (habort params)
    | _ => cases side <;> rfl
  refine .typed ⟨hOpens, trivial⟩ (fun reply _ _ => hok reply) fun answer _ => ?_
  cases answer with
  | ok reply => exact .inl (hok reply)
  | error error => exact .inr (.inl (herror error))

theorem Follows.aside (hcall : ∀ side request, call ≠ .request side request) (hfails : fails mode) :
    Follows mode (NodeClient.typed call read) (fun mode' _ => mode' = mode) fails := by
  have hstays : ∀ answer, mode.next call answer = mode := by
    intro answer
    cases call with
    | request side request => exact absurd rfl (hcall side request)
    | _ => cases mode <;> rfl
  refine .typed ?_ (fun reply _ _ => hstays _) fun answer _ => ?_
  · cases call with
    | request side request => exact absurd rfl (hcall side request)
    | _ => trivial
  show fails (mode.next call answer)
  rw [hstays answer]
  exact hfails

theorem transferBlob_follows (digest : String) (chunks offset : Nat) :
    Follows (.transferring id) (transferBlob digest chunks offset)
      (fun mode _ => mode = .transferring id) (Undoable id) := by
  induction chunks generalizing offset with
  | zero => exact .throw (.inl rfl)
  | succ chunks ih =>
    refine .bind (.transfer trivial (by simp) (by simp)) ?_
    rintro _ chunk rfl
    refine .bind (.transfer trivial (by simp) (by simp)) ?_
    rintro _ complete rfl
    by_cases heof : chunk.eof = true
    · rw [if_pos heof]
      cases complete with
      | true => exact .pure rfl
      | false => exact .throw (.inl rfl)
    · rw [if_neg heof]
      exact ih _

theorem transferBlobs_follows (chunks : Nat) (digests : List String) :
    Follows (.transferring id) (transferBlobs chunks digests)
      (fun mode _ => mode = .transferring id) (Undoable id) := by
  induction digests with
  | nil => exact .pure rfl
  | cons digest rest ih =>
    refine .bind (transferBlob_follows digest chunks 0) ?_
    rintro _ _ rfl
    exact ih

/-! ### The two commits -/

theorem targetCommit_follows (params : MoveCommitParams) :
    Follows (.transferring params.checkpointId) (commitMove .target params)
      (fun mode _ => mode = .settled params.checkpointId params.leaseId)
      (Undoable params.checkpointId) := by
  refine .typed ⟨rfl, trivial⟩ ?_ ?_
  · intro reply movement hread
    split at hread
    · rfl
    · cases hread
  intro answer hread
  rcases answer with error | reply
  · exact .inr (.inl rfl)
  have hreply := hread reply rfl
  rcases reply with _ | _ | reply | _ | _
  · exact .inr (.inl rfl)
  · exact .inr (.inl rfl)
  · cases reply with
    | movement movement => cases hreply
    | _ => exact .inr (.inl rfl)
  · exact .inr (.inl rfl)
  · exact .inr (.inl rfl)

theorem sourceCommit_follows (params : MoveCommitParams) :
    Follows (.settled params.checkpointId params.leaseId) (commitMove .source params)
      (fun mode _ => mode = .both params.checkpointId params.leaseId)
      (Undoable params.checkpointId) := by
  refine .typed ⟨⟨rfl, rfl⟩, trivial⟩ ?_ ?_
  · intro reply movement hread
    split at hread
    · rfl
    · cases hread
  intro answer hread
  have hsettled : Undoable params.checkpointId
      (.settled params.checkpointId params.leaseId) := .inr (.inr ⟨_, rfl⟩)
  rcases answer with error | reply
  · exact hsettled
  have hreply := hread reply rfl
  rcases reply with _ | _ | reply | _ | _
  · exact hsettled
  · exact hsettled
  · cases reply with
    | movement movement => cases hreply
    | _ => exact hsettled
  · exact hsettled
  · exact hsettled

theorem operation_follows (chunks : Nat) (params : CheckpointPrepareParams)
    (targetNodeId : String) (checkpoint : CheckpointManifest) (providerSessionId : String) :
    Follows (.transferring checkpoint.checkpointId)
      (operation chunks params targetNodeId checkpoint providerSessionId)
      (fun mode result => ∃ lease, mode = .both result.checkpoint.checkpointId lease)
      (Undoable checkpoint.checkpointId) := by
  refine .bind (.transfer rfl (by simp) (by simp)) ?_
  rintro _ _ rfl
  refine .bind (.transfer trivial (by simp) (by simp)) ?_
  rintro _ missing rfl
  refine .bind (transferBlobs_follows chunks missing) ?_
  rintro _ _ rfl
  refine .bind (.transfer rfl (by simp) (by simp)) ?_
  rintro _ staged rfl
  refine .bind (.aside (by simp) (.inl rfl)) ?_
  rintro _ providerResult rfl
  refine .bind (.aside (by simp) (.inl rfl)) ?_
  rintro _ leaseId rfl
  refine .bind (targetCommit_follows ⟨checkpoint.checkpointId, targetNodeId, leaseId⟩) ?_
  rintro _ targetCommit rfl
  refine .bind (sourceCommit_follows ⟨checkpoint.checkpointId, targetNodeId, leaseId⟩) ?_
  rintro _ sourceCommit rfl
  exact .pure ⟨leaseId, rfl⟩

/-! ### The whole -/

theorem abortMove_follows {side : NodeSide} {params : MoveAbortParams}
    (h : Undoable params.checkpointId mode) :
    Follows mode (abortMove side params) (fun mode _ => Undoable params.checkpointId mode)
      (fun _ => True) := by
  rcases h with rfl | rfl | ⟨lease, rfl⟩
  · exact ⟨⟨by cases side <;> rfl, trivial⟩, fun answer => .inr (.inl (by cases side <;> rfl))⟩
  · exact ⟨⟨by cases side <;> rfl, _, rfl⟩, fun answer => .inr (.inl rfl)⟩
  · exact ⟨⟨by cases side <;> rfl, trivial⟩,
      fun answer => .inr (.inr ⟨lease, by cases side <;> rfl⟩)⟩

theorem abortBestEffort_follows {reason : String} (h : Undoable id mode) :
    Follows mode (abortBestEffort id reason) (fun mode _ => Undoable id mode) (fun _ => True) :=
  .bind (abortMove_follows h) fun _ _ hmode => abortMove_follows hmode

theorem prepareCheckpoint_follows (params : CheckpointPrepareParams) :
    Follows .start (prepareCheckpoint params)
      (fun mode checkpoint => mode = .transferring checkpoint.checkpointId) (fun _ => True) := by
  refine .typed ⟨⟨rfl, params, rfl⟩, trivial⟩ ?_ fun _ _ => trivial
  intro reply checkpoint hread
  split at hread
  · rw [← Option.some.inj hread]
    rfl
  · cases hread

theorem handoff_follows (chunks : Nat) (params : CheckpointPrepareParams) :
    Follows .start (handoff chunks params)
      (fun mode result => ∃ lease, mode = .both result.checkpoint.checkpointId lease)
      (fun _ => True) := by
  refine .bind (.aside (by simp) trivial) ?_
  rintro _ ⟨targetNodeId, displayName⟩ rfl
  refine .bind (.aside (by simp) trivial) ?_
  rintro _ status rfl
  by_cases hready : status = .ready
  · simp only [hready, ne_eq, not_true_eq_false, if_false]
    refine .bind (prepareCheckpoint_follows params) ?_
    rintro _ checkpoint rfl
    cases hsession : checkpoint.providerSessionId with
    | none => exact .throw trivial
    | some providerSessionId =>
      refine Script.Keeps.tryCatch (operation_follows chunks params targetNodeId checkpoint
        providerSessionId) fun mode error hmode => ?_
      exact Follows.bind (abortBestEffort_follows hmode) fun _ _ _ => .throw trivial
  · simp only [hready, ne_eq, not_false_eq_true, if_true]
    exact .throw trivial

end NodeClient

end Diri
