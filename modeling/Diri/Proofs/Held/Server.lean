/-
A held child's last output is in the log before the exit marker.

A byte that was read is in the log, or in the hand of the thread that read it, which
appends it next (`Kept.logged`).  The watcher reads nothing before the pump has returned,
so no two threads hold bytes at once and the log has them in order; and it marks only when
it has found nothing more to read after the child was gone.
-/
import Diri.Engine.HolderServer
import Diri.Proofs.Log.Writer

namespace Diri

open List

/-! ### What the stages say -/

/-- The bytes that the pump has read and not appended yet. -/
def PumpStage.hand : PumpStage → List UInt8
  | .appending data => data
  | _ => []

namespace ExitStage

/-- The bytes that the watcher has read and not appended yet. -/
def hand : ExitStage → List UInt8
  | .appending _ data => data
  | _ => []

def reaped : ExitStage → Bool
  | .waiting | .returned => false
  | _ => true

def joined : ExitStage → Bool
  | .opening _ | .draining _ | .appending _ _ | .marking _ | .marked _ => true
  | _ => false

def drained : ExitStage → Bool
  | .marking _ | .marked _ => true
  | _ => false

def marker (encoder : StatusEncoder) : ExitStage → List UInt8
  | .marked exit => HolderExitMarker.encode encoder exit
  | _ => []

theorem reaped_of_drained {stage : ExitStage} (h : stage.drained = true) : stage.reaped = true := by
  cases stage with
  | marking _ | marked _ => rfl
  | _ => cases h

end ExitStage

namespace HolderServer

variable {encoder : StatusEncoder} {earlier : List UInt8} {server server' : HolderServer}

/-- The log holds what was there before, then what was read but for what is in hand, then the
marker. -/
structure Kept (encoder : StatusEncoder) (earlier : List UInt8) (server : HolderServer) : Prop where
  accounts : server.pty.Accounts
  logged : ∃ output, server.pty.taken = output ++ server.pump.hand ++ server.watcher.hand ∧
    WriterInv (earlier ++ output ++ server.watcher.marker encoder) {} server.log
  reaped : server.watcher.reaped = true → server.pty.exited = true
  joined : server.watcher.joined = true → server.pump = .returned
  drained : server.watcher.drained = true → server.pty.buffered = []

/-- The final drain gets its reader, and its reads do not fail, unless nothing is left. -/
def Drains (server : HolderServer) : HolderServerAction → Prop
  | .watchExit _ opened count =>
    match server.watcher with
    | .opening _ => opened = true ∨ server.pty.buffered = []
    | .draining _ => count.isSome ∨ server.pty.buffered = []
    | _ => True
  | _ => True

instance (server : HolderServer) : ∀ action, Decidable (Drains server action)
  | .watchExit _ _ _ => by unfold Drains; cases server.watcher <;> infer_instance
  | .child _ | .pumpPty _ _ => inferInstanceAs (Decidable True)

theorem append_logged {stream data : List UInt8} (h : WriterInv stream {} server.log)
    (happend : server.append data = some server') :
    ∃ log, server' = { server with log := log } ∧ WriterInv (stream ++ data) {} log := by
  obtain ⟨⟨log, disk, ok⟩, hlog, rfl⟩ := Option.map_eq_some_iff.mp happend
  refine ⟨_, rfl, ?_⟩
  have hnext := h.append hlog
  have hwhole : ({} : Damage).write stream.length (reaching data none) data.length = {} := by
    unfold reaching Damage.write
    simp
  rwa [hwhole] at hnext

namespace Kept

/-! ### The child -/

theorem child (h : Kept encoder earlier server) {event : Pty.Event UInt8} {pty : Pty UInt8}
    (hstep : server.pty.happen event = some pty) :
    Kept encoder earlier { server with pty := pty } := by
  have haccounts := h.accounts.happen hstep
  rcases Pty.happen_cases hstep with ⟨data, hlive, rfl⟩ | ⟨-, htaken, hbuffered, hexited⟩
  · have hunreaped : server.watcher.reaped ≠ true := by
      intro hreaped
      rw [h.reaped hreaped] at hlive
      cases hlive
    refine ⟨haccounts, h.logged, fun hreaped => absurd hreaped hunreaped, h.joined, ?_⟩
    intro hdrained
    exact absurd (ExitStage.reaped_of_drained hdrained) hunreaped
  refine ⟨haccounts, ?_, fun hreaped => hexited (h.reaped hreaped), h.joined, ?_⟩
  · show ∃ output, pty.taken = _ ∧ _
    rw [htaken]
    exact h.logged
  · show _ → pty.buffered = []
    rw [hbuffered]
    exact h.drained

/-! ### The pump -/

section
variable (h : Kept encoder earlier server)
include h

theorem watcher_hand (hrunning : server.pump ≠ .returned) :
    server.watcher.hand = [] ∧ server.watcher.marker encoder = [] := by
  have hunjoined : server.watcher.joined ≠ true := fun hjoined => hrunning (h.joined hjoined)
  cases hwatcher : server.watcher <;> rw [hwatcher] at hunjoined <;>
    first | exact ⟨rfl, rfl⟩ | exact absurd rfl hunjoined

theorem pumps {stage : PumpStage}
    (hrunning : server.pump ≠ .returned) (hbefore : server.pump.hand = [])
    (hafter : stage.hand = []) : Kept encoder earlier { server with pump := stage } := by
  refine ⟨h.accounts, ?_, h.reaped, fun hjoined => absurd (h.joined hjoined) hrunning, h.drained⟩
  obtain ⟨output, htaken, hlog⟩ := h.logged
  refine ⟨output, ?_, hlog⟩
  show server.pty.taken = output ++ stage.hand ++ server.watcher.hand
  rw [hafter, ← hbefore]
  exact htaken

theorem pumpPty {ready : Option Bool} {count : Option Nat}
    (hstep : server.pumpPty ready count = some server') : Kept encoder earlier server' := by
  unfold HolderServer.pumpPty at hstep
  cases hpump : server.pump with
  | checking =>
    rw [hpump] at hstep
    obtain ⟨⟩ := hstep
    refine h.pumps (by rw [hpump]; simp) (by rw [hpump]; rfl) ?_
    by_cases hfinished : server.finished = true <;> simp [hfinished, PumpStage.hand]
  | waiting =>
    rw [hpump] at hstep
    have hmoves : ∀ stage : PumpStage, stage.hand = [] →
        Kept encoder earlier { server with pump := stage } := fun stage hstage =>
      h.pumps (by rw [hpump]; simp) (by rw [hpump]; rfl) hstage
    cases ready with
    | none =>
      obtain ⟨⟩ := hstep
      exact hmoves _ rfl
    | some ready =>
      cases ready with
      | false =>
        obtain ⟨⟩ := hstep
        exact hmoves _ rfl
      | true =>
        simp only at hstep
        split at hstep <;> obtain ⟨⟩ := hstep
        exact hmoves _ rfl
  | reading =>
    rw [hpump] at hstep
    have hrunning : server.pump ≠ .returned := by
      rw [hpump]
      simp
    have hmoves : ∀ stage : PumpStage, stage.hand = [] →
        Kept encoder earlier { server with pump := stage } := fun stage hstage =>
      h.pumps hrunning (by rw [hpump]; rfl) hstage
    cases count with
    | none =>
      obtain ⟨⟩ := hstep
      exact hmoves _ rfl
    | some count =>
      simp only at hstep
      rcases Pty.read_cases readSize count server.pty with
        ⟨data, rest, -, hbuffered, hread⟩ | ⟨-, hread | hread⟩
      · rw [hread] at hstep
        obtain ⟨⟩ := hstep
        obtain ⟨output, htaken, hlog⟩ := h.logged
        obtain ⟨hhand, -⟩ := h.watcher_hand hrunning
        rw [hpump, hhand] at htaken
        refine ⟨h.accounts.read hbuffered, ⟨output, ?_, hlog⟩, h.reaped,
          fun hjoined => absurd (h.joined hjoined) hrunning, ?_⟩
        · show server.pty.taken ++ data = output ++ data ++ server.watcher.hand
          rw [htaken, hhand]
          simp [PumpStage.hand]
        · intro hdrained
          rw [h.drained hdrained] at hbuffered
          exact (List.append_eq_nil_iff.mp hbuffered.symm).2
      · rw [hread] at hstep
        obtain ⟨⟩ := hstep
        exact hmoves _ rfl
      rw [hread] at hstep
      obtain ⟨⟩ := hstep
      exact hmoves _ rfl
  | appending data =>
    rw [hpump] at hstep
    have hrunning : server.pump ≠ .returned := by
      rw [hpump]
      simp
    obtain ⟨appended, happend, rfl⟩ := Option.map_eq_some_iff.mp hstep
    obtain ⟨output, htaken, hlog⟩ := h.logged
    obtain ⟨hhand, hmarker⟩ := h.watcher_hand hrunning
    rw [hmarker, append_nil] at hlog
    obtain ⟨log, rfl, hnext⟩ := append_logged hlog happend
    refine ⟨h.accounts, ⟨output ++ data, ?_, ?_⟩, h.reaped,
      fun hjoined => absurd (h.joined hjoined) hrunning, h.drained⟩
    · show server.pty.taken = output ++ data ++ [] ++ server.watcher.hand
      rw [htaken, hpump, append_nil]
      rfl
    · show WriterInv (earlier ++ (output ++ data) ++ server.watcher.marker encoder) {} log
      rw [hmarker, append_nil, ← append_assoc]
      exact hnext
  | rechecking =>
    rw [hpump] at hstep
    obtain ⟨⟩ := hstep
    refine h.pumps (by rw [hpump]; simp) (by rw [hpump]; rfl) ?_
    by_cases hfinished : server.finished = true <;> simp [hfinished, PumpStage.hand]
  | returned =>
    rw [hpump] at hstep
    cases hstep

end

/-! ### The exit watcher -/

section
variable (h : Kept encoder earlier server)
include h

/-- The watcher moves on with nothing in its hand, and no marker, before and after. -/
theorem watches {stage : ExitStage}
    (hbefore : server.watcher.hand = [] ∧ server.watcher.marker encoder = [])
    (hafter : stage.hand = [] ∧ stage.marker encoder = [])
    (hreaped : stage.reaped = true → server.pty.exited = true)
    (hjoined : stage.joined = true → server.pump = .returned)
    (hdrained : stage.drained = true → server.pty.buffered = []) (finished : Bool) :
    Kept encoder earlier { server with
      finished := finished
      watcher := stage } := by
  obtain ⟨output, htaken, hlog⟩ := h.logged
  refine ⟨h.accounts, ⟨output, ?_, ?_⟩, hreaped, hjoined, hdrained⟩
  · show server.pty.taken = output ++ server.pump.hand ++ stage.hand
    rw [hafter.1, ← hbefore.1]
    exact htaken
  · show WriterInv (earlier ++ output ++ stage.marker encoder) {} server.log
    rw [hafter.2, ← hbefore.2]
    exact hlog

theorem watchExit {status : Int32} {opened : Bool}
    {count : Option Nat} (hdrains : Drains server (.watchExit status opened count))
    (hstep : server.watchExit encoder status opened count = some server') :
    Kept encoder earlier server' := by
  unfold HolderServer.watchExit at hstep
  unfold Drains at hdrains
  cases hwatcher : server.watcher with
  | waiting =>
    rw [hwatcher] at hstep
    by_cases hexited : server.pty.exited = true
    · rw [if_pos hexited] at hstep
      obtain ⟨⟩ := hstep
      exact h.watches (by rw [hwatcher]; exact ⟨rfl, rfl⟩) ⟨rfl, rfl⟩ (fun _ => hexited)
        (fun hjoined => by cases hjoined) (fun hdrained => by cases hdrained) _
    · rw [if_neg hexited] at hstep
      cases hstep
  | finishing exit =>
    rw [hwatcher] at hstep
    simp only at hstep
    have hexited : server.pty.exited = true := h.reaped (by rw [hwatcher]; rfl)
    by_cases hfinished : server.finished = true
    · rw [if_pos hfinished] at hstep
      obtain ⟨⟩ := hstep
      exact h.watches (by rw [hwatcher]; exact ⟨rfl, rfl⟩) ⟨rfl, rfl⟩ (fun _ => hexited)
        (fun hjoined => by cases hjoined) (fun hdrained => by cases hdrained) _
    rw [if_neg hfinished] at hstep
    obtain ⟨⟩ := hstep
    exact h.watches (by rw [hwatcher]; exact ⟨rfl, rfl⟩) ⟨rfl, rfl⟩ (fun _ => hexited)
      (fun hjoined => by cases hjoined) (fun hdrained => by cases hdrained) _
  | joining exit =>
    rw [hwatcher] at hstep
    simp only at hstep
    by_cases hreturned : server.pump = .returned
    · rw [if_pos hreturned] at hstep
      obtain ⟨⟩ := hstep
      exact h.watches (by rw [hwatcher]; exact ⟨rfl, rfl⟩) ⟨rfl, rfl⟩
        (fun _ => h.reaped (by rw [hwatcher]; rfl)) (fun _ => hreturned)
        (fun hdrained => by cases hdrained) _
    · rw [if_neg hreturned] at hstep
      cases hstep
  | opening exit =>
    rw [hwatcher] at hstep hdrains
    obtain ⟨⟩ := hstep
    have hexited : server.pty.exited = true := h.reaped (by rw [hwatcher]; rfl)
    have hjoined : server.pump = .returned := h.joined (by rw [hwatcher]; rfl)
    by_cases hopened : opened = true
    · rw [if_pos hopened]
      exact h.watches (by rw [hwatcher]; exact ⟨rfl, rfl⟩) ⟨rfl, rfl⟩ (fun _ => hexited)
        (fun _ => hjoined) (fun hdrained => by cases hdrained) _
    rw [if_neg hopened]
    exact h.watches (by rw [hwatcher]; exact ⟨rfl, rfl⟩) ⟨rfl, rfl⟩ (fun _ => hexited)
      (fun _ => hjoined) (fun _ => hdrains.resolve_left hopened) _
  | draining exit =>
    rw [hwatcher] at hstep hdrains
    have hexited : server.pty.exited = true := h.reaped (by rw [hwatcher]; rfl)
    have hjoined : server.pump = .returned := h.joined (by rw [hwatcher]; rfl)
    have hmarks : server.pty.buffered = [] →
        Kept encoder earlier { server with watcher := .marking exit } := fun hempty =>
      h.watches (by rw [hwatcher]; exact ⟨rfl, rfl⟩) ⟨rfl, rfl⟩ (fun _ => hexited)
        (fun _ => hjoined) (fun _ => hempty) _
    cases count with
    | none =>
      obtain ⟨⟩ := hstep
      exact hmarks (hdrains.resolve_left (by simp))
    | some count =>
      simp only at hstep
      rcases Pty.read_cases readSize count server.pty with
        ⟨data, rest, -, hbuffered, hread⟩ | ⟨hempty, hread | hread⟩
      · rw [hread] at hstep
        obtain ⟨⟩ := hstep
        obtain ⟨output, htaken, hlog⟩ := h.logged
        refine ⟨h.accounts.read hbuffered, ⟨output, ?_, ?_⟩, fun _ => hexited, fun _ => hjoined,
          fun hdrained => by cases hdrained⟩
        · show server.pty.taken ++ data = output ++ server.pump.hand ++ data
          rw [htaken, hwatcher]
          simp [ExitStage.hand]
        · rw [hwatcher] at hlog
          exact hlog
      · rw [hread] at hstep
        obtain ⟨⟩ := hstep
        exact hmarks hempty
      rw [hread] at hstep
      obtain ⟨⟩ := hstep
      exact hmarks hempty
  | appending exit data =>
    rw [hwatcher] at hstep
    have hexited : server.pty.exited = true := h.reaped (by rw [hwatcher]; rfl)
    have hjoined : server.pump = .returned := h.joined (by rw [hwatcher]; rfl)
    obtain ⟨appended, happend, rfl⟩ := Option.map_eq_some_iff.mp hstep
    obtain ⟨output, htaken, hlog⟩ := h.logged
    rw [hwatcher] at hlog htaken
    have hlog' : WriterInv (earlier ++ output) {} server.log := by
      rw [← append_nil (earlier ++ output)]
      exact hlog
    obtain ⟨log, rfl, hnext⟩ := append_logged hlog' happend
    refine ⟨h.accounts, ⟨output ++ data, ?_, ?_⟩, fun _ => hexited, fun _ => hjoined,
      fun hdrained => by cases hdrained⟩
    · show server.pty.taken = output ++ data ++ server.pump.hand ++ []
      rw [htaken, hjoined]
      simp [PumpStage.hand, ExitStage.hand]
    · show WriterInv (earlier ++ (output ++ data) ++ []) {} log
      rw [append_nil, ← append_assoc]
      exact hnext
  | marking exit =>
    rw [hwatcher] at hstep
    have hexited : server.pty.exited = true := h.reaped (by rw [hwatcher]; rfl)
    have hjoined : server.pump = .returned := h.joined (by rw [hwatcher]; rfl)
    have hempty : server.pty.buffered = [] := h.drained (by rw [hwatcher]; rfl)
    obtain ⟨appended, happend, rfl⟩ := Option.map_eq_some_iff.mp hstep
    obtain ⟨output, htaken, hlog⟩ := h.logged
    rw [hwatcher] at hlog htaken
    have hlog' : WriterInv (earlier ++ output) {} server.log := by
      rw [← append_nil (earlier ++ output)]
      exact hlog
    obtain ⟨log, rfl, hnext⟩ := append_logged hlog' happend
    exact ⟨h.accounts, ⟨output, htaken, hnext⟩, fun _ => hexited, fun _ => hjoined, fun _ => hempty⟩
  | marked exit | returned =>
    rw [hwatcher] at hstep
    cases hstep

theorem step {action : HolderServerAction}
    (hdrains : Drains server action) (hstep : server.step encoder action = some server') :
    Kept encoder earlier server' := by
  cases action with
  | child event =>
    obtain ⟨pty, hpty, rfl⟩ := Option.map_eq_some_iff.mp hstep
    exact h.child hpty
  | pumpPty ready count => exact h.pumpPty hstep
  | watchExit status opened count => exact h.watchExit hdrains hstep

end

theorem start {log : OutputLog × Disk} (h : WriterInv earlier {} log) :
    Kept encoder earlier { log := log } := by
  refine ⟨rfl, ⟨[], rfl, ?_⟩, (fun hreaped => by cases hreaped), (fun hjoined => by cases hjoined),
    (fun hdrained => by cases hdrained)⟩
  show WriterInv (earlier ++ [] ++ []) {} log
  rw [append_nil, append_nil]
  exact h

theorem marked (h : Kept encoder earlier server) {exit : HolderExitStatus}
    (hmarked : server.watcher = .marked exit) : server.pty.exited = true ∧
      WriterInv (earlier ++ server.pty.written ++ HolderExitMarker.encode encoder exit) {}
        server.log := by
  have hempty := h.drained (by rw [hmarked]; rfl)
  have hreturned := h.joined (by rw [hmarked]; rfl)
  obtain ⟨output, htaken, hlog⟩ := h.logged
  rw [hreturned, hmarked] at htaken
  have houtput : output = server.pty.written := by
    rw [← h.accounts.taken_eq hempty, htaken]
    simp [PumpStage.hand, ExitStage.hand]
  rw [hmarked, houtput] at hlog
  exact ⟨h.reaped (by rw [hmarked]; rfl), hlog⟩

end Kept

/-- In every run whose final drains get to read, everything the child wrote stands before the
marker, and nothing behind it. -/
theorem marker_last (encoder : StatusEncoder) {log : OutputLog × Disk}
    {actions : List HolderServerAction} (hlog : WriterInv earlier {} log)
    (hmeets : Meets Drains (HolderServer.step encoder) { log := log } actions)
    (hrun : partialRun (HolderServer.step encoder) { log := log } actions = some server)
    {exit : HolderExitStatus} (hmarked : server.watcher = .marked exit) :
    server.pty.exited = true ∧
      WriterInv (earlier ++ server.pty.written ++ HolderExitMarker.encode encoder exit) {}
        server.log := by
  have hkept : Kept encoder earlier server :=
    Meets.invariant (fun _ _ _ h hdrains hstep => h.step hdrains hstep) hmeets (.start hlog) hrun
  exact hkept.marked hmarked

end HolderServer

end Diri
