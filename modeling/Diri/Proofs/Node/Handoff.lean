/-
Every run of a handoff.

A run is at some mode of the client's protocol: the client still keeps to it from there, the
disks are as that mode knows them, and nothing is under way that the mode does not permit.
Each event keeps that, whatever becomes of the request that is asked, and whenever one that
was given up arrives.
-/
import Diri.Proofs.Node.Agreement

namespace Diri

open Script List

/-! ### The modes -/

namespace HandoffMode

variable {mode : HandoffMode} {call : ClientCall} {side : NodeSide} {request : NodeRequest}
  {answer : Except NodeClientError ClientReply}

/-- Nothing is under way yet that the client does not wait for. -/
def Waits : HandoffMode → Prop
  | .start | .transferring _ => True
  | _ => False

theorem next_aside (hcall : ∀ side request, call ≠ .request side request) :
    mode.next call answer = mode := by
  cases call with
  | request side request => exact absurd rfl (hcall side request)
  | _ => cases mode <;> rfl

theorem next_failed (id : String) : (failed id).next call answer = failed id := by
  cases call <;> rfl

theorem next_settled (id lease : String) (call : ClientCall)
    (answer : Except NodeClientError ClientReply) :
    (settled id lease).next call answer = settled id lease ∨
      (settled id lease).next call answer = both id lease := by
  unfold next
  split <;> simp_all

/-- After an error, what was asked is still permitted, and no longer waited for. -/
theorem next_error (hallows : mode.allows (.request side request)) (error : NodeClientError) :
    (mode.next (.request side request) (.error error)).Permits (side, request) ∧
      ¬(mode.next (.request side request) (.error error)).Waits := by
  obtain ⟨hpermits, hmore⟩ := hallows
  cases mode with
  | start => exact ⟨hpermits, id⟩
  | unprepared | both _ _ => exact hmore.elim
  | transferring c =>
    have hfailed : (transferring c).next (.request side request) (.error error) = .failed c := by
      cases request <;> cases side <;> rfl
    rw [hfailed]
    exact ⟨hpermits, id⟩
  | failed c =>
    rw [next_failed]
    exact ⟨hpermits, id⟩
  | settled c lease =>
    have hsettled : (settled c lease).next (.request side request) (.error error)
        = .settled c lease := by
      cases request <;> cases side <;> rfl
    rw [hsettled]
    exact ⟨hpermits, id⟩

theorem Holds.next_error {source target : NodeDisk} (h : mode.Holds source target)
    (error : NodeClientError) : (mode.next call (.error error)).Holds source target := by
  cases call with
  | request side request =>
    cases mode with
    | start => trivial
    | unprepared => cases request <;> trivial
    | transferring c => cases request <;> cases side <;> exact h
    | failed c =>
      rw [next_failed]
      exact h
    | settled c lease => cases request <;> cases side <;> exact h
    | both c lease => cases request <;> exact h
  | _ =>
    rw [next_aside (by simp)]
    exact h

theorem Holds.next_replied {source target : NodeDisk} {reply : Except NodeError NodeReply}
    (h : mode.Holds source target) (hallows : mode.allows (.request side request))
    (hprepared : ∀ params manifest, request = .checkpointPrepare params →
      reply = .ok (.manifest manifest) → ¬source.InPhase manifest.checkpointId .committed)
    (hcommitted : ∀ params movement, request = .moveCommit params →
      reply = .ok (.movement movement) →
      (match side with | .source => source | .target => target).CommittedUnder
        params.checkpointId params.leaseId) (ioText : String) :
    (mode.next (.request side request) (HandoffRun.replyOf ioText reply)).Holds source target := by
  obtain ⟨hpermits, hmore⟩ := hallows
  cases reply with
  | error error => exact h.next_error _
  | ok reply =>
    cases mode with
    | start =>
      obtain ⟨-, params, rfl⟩ := hpermits
      cases reply with
      | manifest manifest => exact hprepared params manifest rfl rfl
      | _ => trivial
    | unprepared | both _ _ => exact hmore.elim
    | failed c =>
      rw [next_failed]
      exact h
    | transferring c =>
      cases request with
      | moveCommit params =>
        cases side with
        | source => exact hpermits.elim
        | target =>
          cases reply with
          | movement movement => exact hcommitted params movement rfl rfl
          | _ => exact h
      | _ => cases side <;> exact h
    | settled c lease =>
      cases request with
      | moveCommit params =>
        cases side with
        | target => exact hpermits.elim
        | source =>
          cases reply with
          | movement movement =>
            have hsource := hcommitted params movement rfl rfl
            obtain ⟨rfl, rfl⟩ := hpermits
            exact ⟨hsource, h⟩
          | _ => exact h
      | _ => cases side <;> exact h

end HandoffMode

/-! ### The invariant -/

structure InHandoff (id : String) (mode : HandoffMode) (run : HandoffRun) : Prop extends
    Paired id mode run.source run.target where
  flight : ∀ call ∈ run.inFlight, mode.Permits call
  waits : mode.Waits → run.inFlight = []
  client : Script.Keeps handoffProtocol
    (Script.Keeps.Either
      (fun mode result => ∃ lease, mode = .both result.checkpoint.checkpointId lease)
      fun _ => True) mode run.client

section Steps

variable {nodes : NodePair} {id : String} {mode : HandoffMode} {run : HandoffRun}
  {call : ClientCall}
  {next : Except NodeClientError ClientReply → Script ClientCall
    (Except NodeClientError ClientReply) (Except NodeClientError SessionHandoffResult)}

theorem InHandoff.flight_next (h : InHandoff id mode run) (call : ClientCall)
    (answer : Except NodeClientError ClientReply) :
    (∀ other ∈ run.inFlight, (mode.next call answer).Permits other) ∧
      ((mode.next call answer).Waits → run.inFlight = []) := by
  cases mode with
  | start | transferring c =>
    have hnone : run.inFlight = [] := h.waits trivial
    rw [hnone]
    exact ⟨by simp, fun _ => rfl⟩
  | unprepared =>
    have hover : HandoffMode.unprepared.next call answer = .unprepared := by cases call <;> rfl
    rw [hover]
    exact ⟨h.flight, False.elim⟩
  | failed c =>
    rw [HandoffMode.next_failed]
    exact ⟨h.flight, False.elim⟩
  | settled c lease =>
    rcases HandoffMode.next_settled c lease call answer with hn | hn
    · rw [hn]
      exact ⟨h.flight, False.elim⟩
    · rw [hn]
      exact ⟨h.flight, False.elim⟩
  | both c lease =>
    have hboth : (HandoffMode.both c lease).next call answer = .both c lease := by
      cases call <;> rfl
    rw [hboth]
    exact ⟨h.flight, False.elim⟩

theorem InHandoff.fails (h : InHandoff id mode run) (hclient : run.client = .ask call next)
    (error : NodeClientError) :
    InHandoff id (mode.next call (.error error)) { run with client := next (.error error) } := by
  have hkeeps := h.client
  rw [hclient] at hkeeps
  obtain ⟨hflight, hwaits⟩ := h.flight_next call (.error error)
  exact ⟨⟨h.sourceKeyed, h.targetKeyed, h.behind, h.holds.next_error error⟩, hflight, hwaits,
    hkeeps.2 _⟩

theorem InHandoff.givenUp {side : NodeSide} {request : NodeRequest} (h : InHandoff id mode run)
    (hclient : run.client = .ask (.request side request) next) (error : NodeClientError) :
    InHandoff id (mode.next (.request side request) (.error error)) { run with
        inFlight := run.inFlight ++ [(side, request)]
        client := next (.error error) } := by
  have hkeeps := h.client
  rw [hclient] at hkeeps
  obtain ⟨hpermits, hwaits⟩ := HandoffMode.next_error hkeeps.1 error
  obtain ⟨hflight, -⟩ := h.flight_next (.request side request) (.error error)
  refine ⟨⟨h.sourceKeyed, h.targetKeyed, h.behind, h.holds.next_error error⟩, ?_,
    fun hw => absurd hw hwaits, hkeeps.2 _⟩
  intro other hother
  rcases mem_append.mp hother with hold | hnew
  · exact hflight other hold
  · rw [mem_singleton.mp hnew]
    exact hpermits

theorem served_source (request : NodeRequest) (outside : NodeOutside) :
    Served nodes.source run.source (run.serve nodes (.source, request) outside).1.source request
      outside (run.serve nodes (.source, request) outside).2 := by
  have hserve : nodes.source.serve run.source (request, outside) = (_, _) := rfl
  exact NodeService.serve_served hserve

theorem served_target (request : NodeRequest) (outside : NodeOutside) :
    Served nodes.target run.target (run.serve nodes (.target, request) outside).1.target request
      outside (run.serve nodes (.target, request) outside).2 := by
  have hserve : nodes.target.serve run.target (request, outside) = (_, _) := rfl
  exact NodeService.serve_served hserve

theorem InHandoff.serve (nodes : NodePair) {call : NodeSide × NodeRequest} (h : InHandoff id mode run)
    (hpermits : mode.Permits call) (outside : NodeOutside) :
    InHandoff id mode (run.serve nodes call outside).1 := by
  obtain ⟨side, request⟩ := call
  cases side with
  | source =>
    exact ⟨h.toPaired.sourceServed hpermits (served_source _ outside), h.flight, h.waits, h.client⟩
  | target =>
    exact ⟨h.toPaired.targetServed hpermits (served_target _ outside), h.flight, h.waits, h.client⟩

theorem InHandoff.replies {side : NodeSide} {request : NodeRequest} (h : InHandoff id mode run)
    (hclient : run.client = .ask (.request side request) next) (outside : NodeOutside)
    (ioText : String) : ∃ mode', InHandoff id mode' (run.step nodes (.replies outside ioText)) := by
  have hkeeps := h.client
  rw [hclient] at hkeeps
  have hallows := hkeeps.1
  have hserved := h.serve nodes hallows.1 outside
  have hstep : run.step nodes (.replies outside ioText) =
      { (run.serve nodes (side, request) outside).1 with
        client := next (HandoffRun.replyOf ioText
          (run.serve nodes (side, request) outside).2) } := by
    unfold HandoffRun.step
    rw [hclient]
  rw [hstep]
  obtain ⟨hflight, hwaits⟩ := hserved.flight_next (.request side request)
    (HandoffRun.replyOf ioText (run.serve nodes (side, request) outside).2)
  refine ⟨_, ⟨hserved.sourceKeyed, hserved.targetKeyed, hserved.behind, ?_⟩, hflight, hwaits,
    hkeeps.2 _⟩
  refine hserved.holds.next_replied hallows ?_ ?_ ioText
  · rintro params manifest rfl hreply
    cases side with
    | source => exact (hreply ▸ served_source _ outside).justPrepared
    | target =>
      have hnot : ¬mode.Permits (.target, .checkpointPrepare params) := by
        cases mode <;> simp [HandoffMode.Permits, NodeRequest.Opens, NodeRequest.Settles]
      exact absurd hallows.1 hnot
  rintro params movement rfl hreply
  cases side with
  | source => exact (hreply ▸ served_source _ outside).committedUnder h.sourceKeyed
  | target => exact (hreply ▸ served_target _ outside).committedUnder h.targetKeyed

theorem InHandoff.erase (h : InHandoff id mode run) (k : Nat) :
    InHandoff id mode { run with inFlight := run.inFlight.eraseIdx k } where
  toPaired := h.toPaired
  flight call hcall := h.flight call (List.mem_of_mem_eraseIdx hcall)
  waits hw := by
    show run.inFlight.eraseIdx k = []
    rw [h.waits hw]
    rfl
  client := h.client

theorem InHandoff.step (nodes : NodePair) (h : InHandoff id mode run) (event : HandoffEvent) :
    ∃ mode', InHandoff id mode' (run.step nodes event) := by
  have hsame : ∃ mode', InHandoff id mode' run := ⟨mode, h⟩
  cases event with
  | late k outside =>
    cases hcall : run.inFlight[k]? with
    | none => simpa only [HandoffRun.step, hcall] using hsame
    | some call =>
      have hserved := h.serve nodes (h.flight call (mem_of_getElem? hcall)) outside
      exact ⟨mode, by simpa only [HandoffRun.step, hcall] using hserved.erase k⟩
  | dropped k => exact ⟨mode, h.erase k⟩
  | fails error =>
    cases hclient : run.client with
    | done result => simpa only [HandoffRun.step, hclient] using hsame
    | ask call next =>
      exact ⟨_, by simpa only [HandoffRun.step, hclient] using h.fails hclient error⟩
  | replies outside ioText =>
    cases hclient : run.client with
    | done result => simpa only [HandoffRun.step, hclient] using hsame
    | ask call next =>
      cases call with
      | request side request => exact h.replies hclient outside ioText
      | _ => simpa only [HandoffRun.step, hclient] using hsame
  | replyLost outside error =>
    cases hclient : run.client with
    | done result => simpa only [HandoffRun.step, hclient] using hsame
    | ask call next =>
      cases call with
      | request side request =>
        have hkeeps := h.client
        rw [hclient] at hkeeps
        have hserved := h.serve nodes hkeeps.1.1 outside
        have hclient' : (run.serve nodes (side, request) outside).1.client =
            .ask (.request side request) next := by
          rw [← hclient]
          cases side <;> rfl
        exact ⟨_, by simpa only [HandoffRun.step, hclient] using hserved.fails hclient' error⟩
      | _ => simpa only [HandoffRun.step, hclient] using hsame
  | givenUp error =>
    cases hclient : run.client with
    | done result => simpa only [HandoffRun.step, hclient] using hsame
    | ask call next =>
      cases call with
      | request side request =>
        exact ⟨_, by simpa only [HandoffRun.step, hclient] using h.givenUp hclient error⟩
      | _ => simpa only [HandoffRun.step, hclient] using hsame
  | answers reply =>
    cases hclient : run.client with
    | done result => simpa only [HandoffRun.step, hclient] using hsame
    | ask call next =>
      have hkeeps := h.client
      rw [hclient] at hkeeps
      have hnext : (∀ side request, call ≠ .request side request) →
          InHandoff id mode { run with client := next (.ok reply) } := by
        intro hcall
        have haside := hkeeps.2 (.ok reply)
        rw [show handoffProtocol.next mode call (.ok reply) = mode from
          HandoffMode.next_aside hcall] at haside
        exact ⟨h.toPaired, h.flight, h.waits, haside⟩
      cases call with
      | request side request => simpa only [HandoffRun.step, hclient] using hsame
      | _ => exact ⟨mode, by simpa only [HandoffRun.step, hclient] using hnext (by simp)⟩

end Steps

/-! ### The condition, and the whole run -/

namespace HandoffRun

/-- The request that an event has a node serve. -/
def serves (run : HandoffRun) : HandoffEvent → Option (NodeSide × NodeRequest)
  | .replies _ _ | .replyLost _ _ =>
    match run.client with
    | .ask (.request side request) _ => some (side, request)
    | _ => none
  | .late k _ => run.inFlight[k]?
  | _ => none

/-- Whatever the event has a node serve may be served with the disks as they are. -/
def Safe (run : HandoffRun) (event : HandoffEvent) : Prop :=
  (run.serves event).all fun call => SafeCall run.source run.target call

instance (run : HandoffRun) (event : HandoffEvent) : Decidable (run.Safe event) :=
  inferInstanceAs (Decidable (_ = true))

variable (nodes : NodePair)

/-- Each event is safe where it happens. -/
def Conforms (run : HandoffRun) : List HandoffEvent → Prop
  | [] => True
  | event :: rest => run.Safe event ∧ Conforms (run.step nodes event) rest

instance Conforms.decidable : (run : HandoffRun) → (events : List HandoffEvent) →
    Decidable (run.Conforms nodes events)
  | _, [] => .isTrue trivial
  | run, event :: rest =>
    have := Conforms.decidable (run.step nodes event) rest
    inferInstanceAs (Decidable (_ ∧ _))

def result (run : HandoffRun) : Option (Except NodeClientError SessionHandoffResult) :=
  match run.client with
  | .done result => some result
  | .ask _ _ => none

variable {nodes} {run : HandoffRun} {id : String} {mode : HandoffMode}

/-- The disks after an event are those before it, or what one node makes of a request. -/
theorem step_disks (nodes : NodePair) (run : HandoffRun) (event : HandoffEvent) :
    ((run.step nodes event).source = run.source ∧ (run.step nodes event).target = run.target) ∨
    ∃ call outside, run.serves event = some call ∧
      (run.step nodes event).source = (run.serve nodes call outside).1.source ∧
      (run.step nodes event).target = (run.serve nodes call outside).1.target := by
  cases event with
  | late k outside =>
    cases hcall : run.inFlight[k]? with
    | none => exact .inl (by simp only [step, hcall, and_self])
    | some call => exact .inr ⟨call, outside, hcall, by simp only [step, hcall, and_self]⟩
  | dropped k => exact .inl ⟨rfl, rfl⟩
  | replies outside ioText | replyLost outside error =>
    cases hclient : run.client with
    | done result => exact .inl (by simp only [step, hclient, and_self])
    | ask call next =>
      cases call with
      | request side request =>
        exact .inr ⟨(side, request), outside, by simp only [serves, hclient],
          by simp only [step, hclient, and_self]⟩
      | _ => exact .inl (by simp only [step, hclient, and_self])
  | fails error | givenUp error | answers reply =>
    cases hclient : run.client with
    | done result => exact .inl (by simp only [step, hclient, and_self])
    | ask call next => cases call <;> exact .inl (by simp only [step, hclient, and_self])

section
variable (h : InHandoff id mode run) (htorn : ¬Torn run.source run.target id)
include h htorn

theorem not_torn_step {event : HandoffEvent} (hsafe : run.Safe event) :
    ¬Torn (run.step nodes event).source (run.step nodes event).target id := by
  rcases run.step_disks nodes event with
    ⟨hsource, htarget⟩ | ⟨⟨side, request⟩, outside, hserves, hsource, htarget⟩
  · rw [hsource, htarget]
    exact htorn
  rw [hsource, htarget]
  rw [Safe, hserves, Option.all_some, decide_eq_true_eq] at hsafe
  cases side with
  | source => exact not_torn_sourceServed htorn h.sourceKeyed hsafe (served_source _ outside)
  | target => exact not_torn_targetServed htorn h.targetKeyed hsafe (served_target _ outside)

theorem inHandoff_steps {events : List HandoffEvent} (hconforms : run.Conforms nodes events) :
    (∃ mode', InHandoff id mode' (run.steps nodes events)) ∧
      ¬Torn (run.steps nodes events).source (run.steps nodes events).target id := by
  induction events generalizing run mode with
  | nil => exact ⟨⟨mode, h⟩, htorn⟩
  | cons event rest ih =>
    obtain ⟨mode', hstep⟩ := h.step nodes event
    exact ih hstep (not_torn_step h htorn hconforms.1) hconforms.2

end

/-- Two nodes, whatever they have served before, agree on a checkpoint that is new to the
source, in every state that a handoff reaches by safe events; and if it ends well, both have
committed under one lease. -/
theorem handoff_agrees (sourceCalls targetCalls : List (NodeRequest × NodeOutside))
    (chunks : Nat) (params : CheckpointPrepareParams) (events : List HandoffEvent) (id : String)
    (hnew : (nodes.source.run {} sourceCalls).moves.lookup id = none)
    (hconforms : (start (nodes.source.run {} sourceCalls) (nodes.target.run {} targetCalls)
      chunks params).Conforms nodes events) :
    let last := (start (nodes.source.run {} sourceCalls) (nodes.target.run {} targetCalls)
      chunks params).steps nodes events
    Agreed last.source last.target id ∧ ∀ result, last.result = some (.ok result) → ∃ lease,
        last.source.CommittedUnder result.checkpoint.checkpointId lease ∧
        last.target.CommittedUnder result.checkpoint.checkpointId lease := by
  intro last
  have hkeyed : NodeDisk.Keyed {} := by
    intro id movement h
    cases h
  have hstart : InHandoff id .start (start (nodes.source.run {} sourceCalls)
      (nodes.target.run {} targetCalls) chunks params) :=
    { sourceKeyed := nodes.source.run_keyed hkeyed sourceCalls
      targetKeyed := nodes.target.run_keyed hkeyed targetCalls
      behind := by
        intro s hs _
        cases hnew.symm.trans hs
      holds := trivial
      flight := by simp [start]
      waits := fun _ => rfl
      client := NodeClient.handoff_follows chunks params }
  have htorn : ¬Torn (nodes.source.run {} sourceCalls) (nodes.target.run {} targetCalls) id := by
    rintro ⟨-, s, hs, -⟩
    cases hnew.symm.trans hs
  obtain ⟨⟨mode, hlast⟩, hwhole⟩ := inHandoff_steps hstart htorn hconforms
  refine ⟨hlast.behind.agreed hwhole, fun result hresult => ?_⟩
  have hkeeps := hlast.client
  have hdone : last.client = .done (.ok result) := by
    unfold HandoffRun.result at hresult
    split at hresult
    · next hclient => rw [hclient, Option.some.inj hresult]
    · cases hresult
  rw [show ((start _ _ _ _).steps nodes events).client = .done (.ok result) from hdone] at hkeeps
  obtain ⟨lease, rfl⟩ := hkeeps
  exact ⟨lease, hlast.holds⟩

/-! ### A reply that is lost -/

def samplePair : NodePair where
  source := ⟨⟨"n1", "/node", fun _ => "", 0⟩, fun text => text⟩
  target := ⟨⟨"n2", "/node", fun _ => "", 0⟩, fun text => text⟩

def sampleParams : CheckpointPrepareParams where
  sessionId := "s1"
  provider := .claude
  profileId := "work"
  workspaceRoot := "/w"
  providerSessionId := some "p1"
  mode := .move

def sampleOutside : NodeOutside where
  random := .ok (List.replicate 16 0)
  workspace := ⟨.ok "/w", true, [], [], .ok ⟨⟩⟩
  accounts := [⟨"work", .claude⟩]

def sampleCheckpoint : String := "cp-00000000000000000000000000000000"

/-- Everything up to the lease goes well. -/
def sampleTransfer : List HandoffEvent :=
  [.answers (.hello "n2" "two"), .answers (.status .ready)] ++
    List.replicate 4 (.replies sampleOutside "") ++
    [.answers (.provided "{}"), .answers (.random [0])]

def sampleRun (events : List HandoffEvent) : HandoffRun :=
  (start (samplePair.source.run {} []) (samplePair.target.run {} []) 1 sampleParams).steps
    samplePair (sampleTransfer ++ events)

def sampleKept : List HandoffEvent := List.replicate 2 (.replies sampleOutside "")

/-- The phases on the source and on the target, whether anything is still under way, and
whether the handoff ended well. -/
def sampleOutcome (events : List HandoffEvent) :
    Option MovePhase × Option MovePhase × Nat × Option Bool :=
  let run := sampleRun events
  ((run.source.moves.lookup sampleCheckpoint).map (·.phase),
    (run.target.moves.lookup sampleCheckpoint).map (·.phase),
    run.inFlight.length, run.result.map fun result => result.toOption.isSome)

def sampleLost : List HandoffEvent :=
  [.replyLost sampleOutside (.timeout "node request `move.commit` timed out"),
    .replies sampleOutside "", .replies sampleOutside ""]

/-- The target commits, and its reply is lost: the client asks both sides to abort, and the
source does. -/
theorem handoff_torn : sampleOutcome sampleLost = (some .aborted, some .committed, 0, some false) ∧
    ¬∀ nodes chunks params events id, let last := (start {} {} chunks params).steps nodes events
      last.inFlight = [] → last.result.isSome → Agreed last.source last.target id := by
  have htorn : Torn (sampleRun sampleLost).source (sampleRun sampleLost).target
      sampleCheckpoint := by
    refine ⟨?_, ?_⟩ <;> decide +kernel
  refine ⟨by decide +kernel, fun hagree => ?_⟩
  have hagreed := hagree samplePair 1 sampleParams (sampleTransfer ++ sampleLost)
    sampleCheckpoint (List.length_eq_zero_iff.mp (by decide +kernel)) (by decide +kernel)
  exact hagreed.sourceAborted htorn

theorem handoff_agrees_kept :
    sampleOutcome sampleKept = (some .committed, some .committed, 0, some true) ∧
    Agreed (sampleRun sampleKept).source (sampleRun sampleKept).target sampleCheckpoint := by
  have hconforms : (start (samplePair.source.run {} []) (samplePair.target.run {} []) 1
      sampleParams).Conforms samplePair (sampleTransfer ++ sampleKept) := by decide +kernel
  exact ⟨by decide +kernel, (handoff_agrees [] [] 1 sampleParams (sampleTransfer ++ sampleKept)
    sampleCheckpoint rfl hconforms).1⟩

end HandoffRun

end Diri
