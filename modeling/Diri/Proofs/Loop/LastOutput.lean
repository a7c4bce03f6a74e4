/-
The last output survives the exit, if the poll that finds the leader gone has seen it.

What the leader wrote was read, or still waits in the terminal (`Pty.Accounts`), and all
that was read went to the log and to the controller (`Streamed`).  So the exit may be
recorded once nothing waits.  A turn that finds the terminal readable drains it before it
records the exit; a turn that found nothing there does not, and what the leader wrote
between that look and its exit is lost.
-/
import Diri.Proofs.Held.Server
import Diri.Proofs.Loop.Streamed
import Diri.Remote.Poll

namespace Diri.Wire

open Option

/-- From the look at the terminal until it has been drained. -/
def LoopStage.undrained : LoopStage → Bool
  | .lookExit | .lookConnection | .lookPending | .acceptConnection | .drainPty => true
  | _ => false

namespace PolledHolder

variable {host : Host} {s s' : PolledHolder}

/-- A look that finds the leader gone comes behind one that found its output, or there is none. -/
def Sees (s : PolledHolder) : PollAction → Prop
  | .look _ _ => s.stage = .lookExit → s.holder.watching = true → s.pty.exited = true →
      s.revents.pty = true ∨ s.pty.buffered = []
  | _ => True

instance (s : PolledHolder) : ∀ action, Decidable (Sees s action)
  | .look _ _ => by unfold Sees; infer_instance
  | .leader _ | .interrupt | .drainPty _ _ | .recordExit _ | .handle _ | .pass =>
    inferInstanceAs (Decidable True)

/-- Nothing is lost, and a turn that found the leader gone records it with nothing left. -/
structure Kept (s : PolledHolder) : Prop where
  streamed : Streamed s.holder
  taken : s.holder.stream = s.pty.taken
  accounts : s.pty.Accounts
  unseen : s.stage = .lookPty → s.revents.exit = false
  reading : s.stage.undrained = true → s.revents.pty = true → s.holder.reading = true
  found : s.revents.exit = true → s.pty.exited = true ∧
    (s.pty.buffered = [] ∨ s.stage.undrained = true ∧ s.revents.pty = true)
  recorded : ∀ connection, s.recorded = some connection →
    s.pty.exited = true ∧ s.pty.buffered = [] ∧
      ∀ c, connection = some c → Gapless s.pty.written s.pty.written.length c

theorem due_cases {action : LoopAction} {stays : Bool} (h : s.due action = some stays) :
    (action = .acceptConnection ∧ stays = true) ∨
    (stays = false ∧ (∀ bytes painted, action ≠ .drainPty bytes painted) ∧
      s.stage.undrained = false ∧ s.stage ≠ .lookListener ∧ s.stage ≠ .lookPty) := by
  cases action with
  | acceptConnection =>
    simp only [due, ite_none_right_eq_some, some.injEq] at h
    exact Or.inl ⟨rfl, h.2.symm⟩
  | drainPty bytes painted | recordExit exit => cases h
  | emitGridDelta =>
    simp only [due, ite_none_right_eq_some, some.injEq] at h
    obtain ⟨hstage, rfl⟩ := h
    simp [hstage, LoopStage.undrained]
  | flushInput _ | readConnection _ | flushConnection _ | readPendingConnection _ _ =>
    simp only [due, ite_none_right_eq_some, some.injEq] at h
    obtain ⟨⟨hstage, -⟩, rfl⟩ := h
    simp [hstage, LoopStage.undrained]

namespace Kept

/-! ### The leader -/

theorem leader (h : s.Kept) {event : Pty.Event UInt8} {pty : Pty UInt8}
    (hstep : s.pty.happen event = some pty) : Kept { s with pty := pty } := by
  have haccounts := h.accounts.happen hstep
  rcases Pty.happen_cases hstep with ⟨data, hlive, rfl⟩ | ⟨hwritten, htaken, hbuffered, hexited⟩
  · have hnotGone : s.pty.exited ≠ true := by
      rw [hlive]
      simp
    refine ⟨h.streamed, h.taken, haccounts, h.unseen, h.reading,
      fun hexit => absurd (h.found hexit).1 hnotGone, ?_⟩
    intro connection hconnection
    exact absurd (h.recorded connection hconnection).1 hnotGone
  refine ⟨h.streamed, h.taken.trans htaken.symm, haccounts, h.unseen, h.reading, ?_, ?_⟩
  · intro hexit
    obtain ⟨hgone, hleft⟩ := h.found hexit
    refine ⟨hexited hgone, ?_⟩
    show pty.buffered = [] ∨ _
    rw [hbuffered]
    exact hleft
  intro connection hconnection
  obtain ⟨hgone, hempty, hgapless⟩ := h.recorded connection hconnection
  refine ⟨hexited hgone, hbuffered.trans hempty, ?_⟩
  show ∀ c, _ → Gapless pty.written pty.written.length c
  rw [hwritten]
  exact hgapless

/-! ### The looks -/

theorem looks (h : s.Kept) {stage : LoopStage} {revents : Revents}
    (hbefore : s.stage.undrained = true) (hafter : stage.undrained = true)
    (hpty : revents.pty = s.revents.pty) (hexit : revents.exit = s.revents.exit) : Kept { s with
      stage := stage
      revents := revents } := by
  refine ⟨h.streamed, h.taken, h.accounts, ?_, ?_, ?_, h.recorded⟩
  · intro hstage
    rw [show stage = .lookPty from hstage] at hafter
    cases hafter
  · intro _ hready
    exact h.reading hbefore (hpty.symm.trans hready)
  · intro hgone
    obtain ⟨hexited, hleft⟩ := h.found (hexit.symm.trans hgone)
    refine ⟨hexited, hleft.imp id ?_⟩
    rintro ⟨-, hready⟩
    exact ⟨hafter, hpty.trans hready⟩

theorem look (h : s.Kept) {ready writable : Bool} (hsees : Sees s (.look ready writable))
    (hstep : s.look ready writable = some s') : s'.Kept := by
  unfold PolledHolder.look at hstep
  cases hstage : s.stage with
  | lookListener =>
    rw [hstage] at hstep
    obtain ⟨⟩ := hstep
    exact ⟨h.streamed, h.taken, h.accounts, fun _ => rfl, (fun _ hready => by cases hready),
      (fun hgone => by cases hgone), h.recorded⟩
  | lookPty =>
    rw [hstage] at hstep
    obtain ⟨⟩ := hstep
    have hunseen := h.unseen hstage
    refine ⟨h.streamed, h.taken, h.accounts, (fun hnext => by cases hnext), ?_, ?_, h.recorded⟩
    · intro _ hready
      exact (Bool.and_eq_true_iff.mp hready).1
    · intro hgone
      rw [show s.revents.exit = true from hgone] at hunseen
      cases hunseen
  | lookExit =>
    rw [hstage] at hstep
    obtain ⟨⟩ := hstep
    refine ⟨h.streamed, h.taken, h.accounts, (fun hnext => by cases hnext), ?_, ?_, h.recorded⟩
    · intro _ hready
      exact h.reading (by rw [hstage]; rfl) hready
    · intro hgone
      obtain ⟨hwatching, hexited⟩ := Bool.and_eq_true_iff.mp hgone
      refine ⟨hexited, ?_⟩
      exact (hsees hstage hwatching hexited).symm.imp id fun hready => ⟨rfl, hready⟩
  | lookConnection | lookPending =>
    rw [hstage] at hstep
    obtain ⟨⟩ := hstep
    exact h.looks (by rw [hstage]; rfl) rfl rfl rfl
  | _ =>
    rw [hstage] at hstep
    cases hstep

/-! ### The handlers -/

theorem drained (h : s.Kept) {stage : LoopStage} {holder : Holder} (hstreamed : Streamed holder)
    (hstream : holder.stream = s.holder.stream) (hstage : stage.undrained = false)
    (hnext : stage ≠ .lookPty)
    (hempty : s.revents.exit = true → s.pty.buffered = []) :
    Kept { s with
      holder := holder
      stage := stage } := by
  refine ⟨hstreamed, hstream.trans h.taken, h.accounts, fun heq => absurd heq hnext, ?_, ?_,
    h.recorded⟩
  · intro hundrained
    rw [show stage.undrained = true from hundrained] at hstage
    cases hstage
  · intro hgone
    exact ⟨(h.found hgone).1, Or.inl (hempty hgone)⟩

section
variable (h : s.Kept)
include h

theorem drainPty {count : Nat} {painted : Painted}
    (hstep : s.drainPty host count painted = some s') : s'.Kept := by
  unfold PolledHolder.drainPty at hstep
  by_cases hdue : s.stage = .drainPty ∧ s.revents.pty = true ∧ s.holder.reading = true
  · rw [if_pos hdue] at hstep
    obtain ⟨hstage, hready, hreading⟩ := hdue
    rcases Pty.read_cases readSize count s.pty with
      ⟨data, rest, hne, hbuffered, hread⟩ | ⟨hempty, hread | hread⟩
    · rw [hread] at hstep
      obtain ⟨holder, hloop, rfl⟩ := map_eq_some_iff.mp hstep
      obtain ⟨hstream, hstill⟩ := Holder.drainPty_stream hreading hloop
      refine ⟨h.streamed.step hloop, ?_, h.accounts.read hbuffered, ?_, fun _ _ => hstill hne,
        ?_, ?_⟩
      · rw [hstream, h.taken]
      · intro heq
        rw [hstage] at heq
        cases heq
      · intro hgone
        exact ⟨(h.found hgone).1, Or.inr ⟨by rw [hstage]; rfl, hready⟩⟩
      · intro connection hconnection
        obtain ⟨hexited, hempty, hgapless⟩ := h.recorded connection hconnection
        rw [hempty] at hbuffered
        exact ⟨hexited, (List.append_eq_nil_iff.mp hbuffered.symm).2, hgapless⟩
    · rw [hread] at hstep
      obtain ⟨⟩ := hstep
      rw [hstage]
      exact h.drained h.streamed rfl rfl (by simp [LoopStage.next]) fun _ => hempty
    rw [hread] at hstep
    obtain ⟨holder, hloop, rfl⟩ := map_eq_some_iff.mp hstep
    obtain ⟨hstream, -⟩ := Holder.drainPty_stream hreading hloop
    rw [List.append_nil] at hstream
    rw [hstage]
    exact h.drained (h.streamed.step hloop) hstream rfl (by simp [LoopStage.next]) fun _ => hempty
  · rw [if_neg hdue] at hstep
    cases hstep

/-- At the stages behind the drain nothing is left of a leader that was found gone. -/
theorem empty (hstage : s.stage.undrained = false) (hexit : s.revents.exit = true) :
    s.pty.buffered = [] := by
  rcases (h.found hexit).2 with hempty | ⟨hundrained, -⟩
  · exact hempty
  · rw [hstage] at hundrained
    cases hundrained

theorem recordExit {exit : ProcessExit} (hstep : s.recordExit host exit = some s') : s'.Kept := by
  unfold PolledHolder.recordExit at hstep
  by_cases hdue : s.stage = .recordExit ∧ s.revents.exit = true
  · rw [if_pos hdue] at hstep
    obtain ⟨hstage, hexit⟩ := hdue
    obtain ⟨holder, hloop, rfl⟩ := map_eq_some_iff.mp hstep
    have hempty := h.empty (by rw [hstage]; rfl) hexit
    have hstream := h.streamed.stream_eq (by simp) hloop
    have hkept : Kept { s with
        holder := holder
        stage := s.stage.next } :=
      h.drained (h.streamed.step hloop) hstream (by rw [hstage]; rfl)
        (by rw [hstage]; simp [LoopStage.next]) fun _ => hempty
    refine { hkept with recorded := ?_ }
    intro connection hconnection
    obtain ⟨⟩ := hconnection
    refine ⟨(h.found hexit).1, hempty, ?_⟩
    rw [← h.accounts.taken_eq hempty, ← h.taken]
    exact h.streamed.covered
  · rw [if_neg hdue] at hstep
    cases hstep

theorem proceeds {holder : Holder} (hstreamed : Streamed holder)
    (hstream : holder.stream = s.holder.stream) (hstage : s.stage.undrained = false)
    (hlistener : s.stage ≠ .lookListener) (hpty : s.stage ≠ .lookPty) :
    Kept { s with
      holder := holder
      stage := s.stage.next } := by
  refine h.drained hstreamed hstream ?_ ?_ (h.empty hstage)
  · revert hstage hlistener hpty
    cases s.stage <;> decide
  · revert hstage hlistener
    cases s.stage <;> decide

theorem handle {action : LoopAction} (hstep : s.handle host action = some s') : s'.Kept := by
  obtain ⟨stays, hdue, hstep⟩ := bind_eq_some_iff.mp hstep
  obtain ⟨holder, hloop, rfl⟩ := map_eq_some_iff.mp hstep
  have hstreamed := h.streamed.step hloop
  rcases due_cases hdue with ⟨rfl, rfl⟩ | ⟨rfl, haction, hstage, hlistener, hpty⟩
  · obtain ⟨⟩ := hloop
    exact ⟨hstreamed, h.taken, h.accounts, h.unseen, h.reading, h.found, h.recorded⟩
  · exact h.proceeds hstreamed (h.streamed.stream_eq haction hloop) hstage hlistener hpty

theorem pass (hpasses : s.passes = true) : Kept { s with stage := s.stage.next } := by
  unfold passes at hpasses
  by_cases haccept : s.stage = .acceptConnection
  · exact h.looks (by rw [haccept]; rfl) (by rw [haccept]; rfl) rfl rfl
  by_cases hdrain : s.stage = .drainPty
  · rw [hdrain] at hpasses ⊢
    refine h.drained h.streamed rfl rfl (by simp [LoopStage.next]) fun hexit => ?_
    rcases (h.found hexit).2 with hempty | ⟨hundrained, hready⟩
    · exact hempty
    · have hreading := h.reading hundrained hready
      simp [hready, hreading] at hpasses
  have hbehind : s.stage.undrained = false ∧ s.stage ≠ .lookListener ∧ s.stage ≠ .lookPty := by
    revert hpasses haccept hdrain
    cases s.stage <;> simp [LoopStage.undrained]
  exact h.proceeds h.streamed rfl hbehind.1 hbehind.2.1 hbehind.2.2

theorem step {action : PollAction} (hsees : Sees s action)
    (hstep : s.step host action = some s') : s'.Kept := by
  cases action with
  | leader event =>
    obtain ⟨pty, hpty, rfl⟩ := map_eq_some_iff.mp hstep
    exact h.leader hpty
  | interrupt =>
    unfold PolledHolder.step at hstep
    simp only at hstep
    split at hstep <;> obtain ⟨⟩ := hstep
    exact ⟨h.streamed, h.taken, h.accounts, fun _ => rfl, (fun _ hready => by cases hready),
      (fun hgone => by cases hgone), h.recorded⟩
  | look ready writable => exact h.look hsees hstep
  | drainPty count painted => exact h.drainPty hstep
  | recordExit exit => exact h.recordExit hstep
  | handle action => exact h.handle hstep
  | pass =>
    unfold PolledHolder.step at hstep
    simp only at hstep
    split at hstep
    · rename_i hpasses
      obtain ⟨⟩ := hstep
      exact h.pass hpasses
    · cases hstep

end

theorem start {holder : Holder} (h : Streamed holder) (hempty : holder.stream = []) :
    Kept { holder := holder } :=
  ⟨h, hempty, rfl, fun _ => rfl, (fun _ hready => by cases hready),
    (fun hgone => by cases hgone), (fun connection hconnection => by cases hconnection)⟩

end Kept

/-- Everything the leader wrote is in the log, and the controller was queued all of it. -/
structure Complete (s : PolledHolder) (controller : Option Connection) : Prop where
  exited : s.pty.exited = true
  logged : Logged s.pty.written s.holder.log
  queued : ∀ c, controller = some c → Gapless s.pty.written s.pty.written.length c

theorem Kept.complete (h : s.Kept) {controller : Option Connection}
    (hrecorded : s.recorded = some controller) : s.Complete controller := by
  obtain ⟨hexited, hempty, hgapless⟩ := h.recorded controller hrecorded
  refine ⟨hexited, ?_, hgapless⟩
  rw [← h.accounts.taken_eq hempty, ← h.taken]
  exact h.streamed.logged

end PolledHolder

/-! ### Runs -/

/--
**The last output survives the exit**, of a held child whose final drain gets to read, and of
a leader that every poll that finds it gone finds with its output.  When the marker is in the
log, or the exit is recorded, the log has what was written and nothing else behind it, and
the controller that is told of the exit was queued all of it before.
-/
theorem last_output_survives (host : Host) (encoder : StatusEncoder)
    (sessionId sessionIncarnation : String) (pid : UInt32) (cols rows : Nat) (term : Term)
    {earlier : List UInt8} {log : Diri.OutputLog × Disk} {held : List HolderServerAction}
    {server : HolderServer} {actions : List PollAction} {s : PolledHolder}
    (hlog : WriterInv earlier {} log)
    (hdrains : Meets HolderServer.Drains (HolderServer.step encoder) { log := log } held)
    (hheld : partialRun (HolderServer.step encoder) { log := log } held = some server)
    (hsees : Meets PolledHolder.Sees (PolledHolder.step host)
      { holder := .new sessionId sessionIncarnation pid cols rows term } actions)
    (hrun : partialRun (PolledHolder.step host)
      { holder := .new sessionId sessionIncarnation pid cols rows term } actions = some s) :
    (∀ exit, server.watcher = .marked exit → server.pty.exited = true ∧
      WriterInv (earlier ++ server.pty.written ++ HolderExitMarker.encode encoder exit) {}
        server.log) ∧
    ∀ controller, s.recorded = some controller → s.Complete controller := by
  refine ⟨fun exit hmarked => HolderServer.marker_last encoder hlog hdrains hheld hmarked, ?_⟩
  intro controller hrecorded
  have hkept : s.Kept :=
    Meets.invariant (fun _ _ _ h hsees hstep => h.step hsees hstep) hsees
      (.start (.new sessionId sessionIncarnation pid cols rows term) rfl) hrun
  exact hkept.complete hrecorded

/-! ### Two runs that meet the conditions, and one that does not -/

/-- `serde_json`, for a child that exited with zero. -/
def zeroEncoder : StatusEncoder
  | ⟨.exited, some 0, none⟩ =>
    some "eyJyZWFzb24iOiJleGl0ZWQiLCJjb2RlIjowfQ==".toByteArray.data.toList
  | _ => none

/-- The demo's `serde_json`, with the exit of such a child. -/
def exitingHost : Host :=
  { demoHost with
    json :=
      { demoHost.json with
        toWriter := fun kind value =>
          match kind, value with
          | .processExit, ⟨some 0, none⟩ =>
            .ok "\x7b\"code\":0,\"signal\":null\x7d".toByteArray.data.toList
          | kind, value => demoHost.json.toWriter kind value } }

/-- The pump reads one byte of three; the rest comes while it appends, and with the exit. -/
def heldBurst : List HolderServerAction :=
  [.child (.write [65, 66]), .pumpPty none none, .pumpPty (some true) none, .pumpPty none (some 1),
    .child (.write [67]), .child .close, .child .exit, .watchExit 0 true none,
    .watchExit 0 true none, .pumpPty none none, .pumpPty none none, .watchExit 0 true none,
    .watchExit 0 true none, .watchExit 0 true (some 8), .watchExit 0 true none,
    .watchExit 0 true (some 8), .watchExit 0 true none]

/-- A controller attaches; the leader writes before a look at the terminal, and exits behind it. -/
def seenBurst : List PollAction :=
  [.look true false, .look false false, .look false false, .look false false, .look false false,
    .handle .acceptConnection, .pass, .pass, .pass, .pass, .pass, .pass, .pass, .pass,
    .look false false, .look false false, .look false false, .look false false, .look true false,
    .pass, .pass, .pass, .pass, .pass, .pass,
    .handle (.readPendingConnection [helloRead none] ⟨0, .wouldBlock⟩), .pass,
    .leader (.write [65]), .look false false, .look false false, .leader (.write [66]),
    .leader .close, .leader .exit, .look false false, .look false false, .look false false, .pass,
    .drainPty 8 ⟨blankTerm, none, false⟩, .drainPty 8 ⟨blankTerm, none, false⟩, .pass,
    .recordExit ⟨some 0, none⟩]

theorem last_output_survives_burst : (∃ server, partialRun (HolderServer.step zeroEncoder)
        { log := Diri.OutputLog.openLog 16 64 false .empty } heldBurst = some server ∧
      server.pty.written = [65, 66, 67] ∧
      WriterInv ([] ++ server.pty.written ++ HolderExitMarker.encode zeroEncoder
        ⟨.exited, some 0, none⟩) {} server.log) ∧
    ∃ s controller, partialRun (PolledHolder.step exitingHost) { holder := demoHolder } seenBurst
        = some s ∧ s.pty.written = [65, 66] ∧ s.recorded = some (some controller) ∧
      s.Complete (some controller) := by
  have hdrains : Meets HolderServer.Drains (HolderServer.step zeroEncoder)
      { log := Diri.OutputLog.openLog 16 64 false .empty } heldBurst := by
    decide +kernel
  have hheld : (partialRun (HolderServer.step zeroEncoder)
      { log := Diri.OutputLog.openLog 16 64 false .empty } heldBurst).map
        (fun server => (server.pty.written, server.watcher))
      = some ([65, 66, 67], .marked ⟨.exited, some 0, none⟩) := by
    decide +kernel
  have hsees : Meets PolledHolder.Sees (PolledHolder.step exitingHost)
      { holder := demoHolder } seenBurst := by
    decide +kernel
  have hrun : (partialRun (PolledHolder.step exitingHost) { holder := demoHolder } seenBurst).map
      (fun s => (s.pty.written, s.recorded.map Option.isSome)) = some ([65, 66], some true) := by
    decide +kernel
  obtain ⟨server, hserver, hend⟩ := map_eq_some_iff.mp hheld
  obtain ⟨hwritten, hmarked⟩ := Prod.mk.inj hend
  obtain ⟨s, hs, hend'⟩ := map_eq_some_iff.mp hrun
  obtain ⟨hwritten', hsome⟩ := Prod.mk.inj hend'
  obtain ⟨hheldEnd, hrunEnd⟩ := last_output_survives exitingHost zeroEncoder "s" "i" 7 1 1 blankTerm
    (WriterInv.openLog 16 64) hdrains hserver hsees hs
  obtain ⟨recorded, hrecorded, hcontroller⟩ := map_eq_some_iff.mp hsome
  obtain ⟨controller, rfl⟩ := isSome_iff_exists.mp hcontroller
  exact ⟨⟨server, hserver, hwritten, (hheldEnd _ hmarked).2⟩, s, controller, hs, hwritten',
    hrecorded, hrunEnd _ hrecorded⟩

/-- The leader writes and exits between the look at the terminal and that at the watcher. -/
def missedBurst : List PollAction :=
  [.look false false, .look false false, .leader (.write [65]), .leader .close, .leader .exit,
    .look false false, .look false false, .look false false, .pass, .pass, .pass,
    .recordExit ⟨some 0, none⟩]

/-- **What the leader wrote last is lost** when `poll` has looked at the terminal before. -/
theorem last_burst_lost : ¬∀ (actions : List PollAction) (s : PolledHolder),
      partialRun (PolledHolder.step exitingHost) { holder := demoHolder } actions = some s →
        ∀ controller, s.recorded = some controller → s.Complete controller := by
  intro h
  have hend : (partialRun (PolledHolder.step exitingHost) { holder := demoHolder } missedBurst).map
      (fun s => (s.recorded.isSome, s.pty.written, s.holder.log.tailOffset))
      = some (true, [65], 0) := by
    decide +kernel
  obtain ⟨s, hrun, hs⟩ := map_eq_some_iff.mp hend
  simp only [Prod.mk.injEq] at hs
  obtain ⟨hrecorded, hwritten, htail⟩ := hs
  obtain ⟨controller, hcontroller⟩ := isSome_iff_exists.mp hrecorded
  have hlogged := (h missedBurst s hrun controller hcontroller).logged
  have hlength := hlogged.tailOffset
  rw [hwritten, htail] at hlength
  cases hlength

end Diri.Wire
