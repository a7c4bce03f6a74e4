/-
Whom the accept loops of a manager process serve.

A server's own numbers stay its own: its listener's until its finish path closes it, and
those of the connections it accepted until it closes them (`Holding`).  So nobody closes
what is not his, and a loop whose `accept` fails for want of a socket finds that its
server is finished.  That holds in every run.

What a loop calls `accept` on is another matter.  Once its number is closed, a listener
that is opened before the loop calls again may be given that very number, and the loop
takes the clients of that one.  As long as no listener is given the number of a loop that
may still call (`Careful`), each loop serves its own socket (`Alone`).
-/
import Diri.Engine.AcceptLoop
import Diri.Lib.Run

namespace Diri

open Descriptors List Table Option

namespace ManagerProcess

variable {descriptors after : Descriptors Opened} {id : Nat} {server : AcceptServer}
  {process next : ManagerProcess}

/-! ### A server's own numbers -/

structure Holding (descriptors : Descriptors Opened) (id : Nat) (server : AcceptServer) :
    Prop where
  listening : ∀ number, server.listenFd = some number →
    descriptors.entry number = some (.listener id)
  closing : ∀ stage, server.closing = some stage →
    server.listenFd = none ∧ descriptors.entry stage.number = some (.listener id)
  busy : ∀ number, server.stage = .busy number → descriptors.entry number = some (.client id)
  unfinished : server.finished = false → server.reportsError = false →
    server.listenFd = some server.number ∧ server.shutDown = false
  waits : server.finished = false → ∀ listener, server.stage = .blocked listener → listener = id
  gone : server.stage = .failed .gone → server.finished = true
  reports : server.stage ≠ .reported .gone

section
variable (h : Holding descriptors id server)
include h

theorem Holding.frame (hkept : ∀ number opened, descriptors.entry number = some opened →
      opened = .listener id ∨ opened = .client id → after.entry number = some opened) :
    Holding after id server where
  listening number hnumber := hkept _ _ (h.listening number hnumber) (.inl rfl)
  closing stage hstage :=
    ⟨(h.closing stage hstage).1, hkept _ _ (h.closing stage hstage).2 (.inl rfl)⟩
  busy number hbusy := hkept _ _ (h.busy number hbusy) (.inr rfl)
  unfinished := h.unfinished
  waits := h.waits
  gone := h.gone
  reports := h.reports

theorem Holding.put (opened : Opened) : Holding (descriptors.put opened) id server :=
  h.frame fun _ _ hentry _ => entry_put_of_open hentry opened

theorem Holding.close {number : Nat} (hlistener : descriptors.entry number ≠ some (.listener id))
    (hclient : descriptors.entry number ≠ some (.client id)) :
    Holding (descriptors.close number) id server := by
  refine h.frame fun other opened hentry hown => ?_
  rw [entry_close_ne, hentry]
  rintro rfl
  rcases hown with rfl | rfl
  · exact hlistener hentry
  · exact hclient hentry

end

variable {stage : AcceptStage} {f : AcceptServer → AcceptServer}

theorem Holding.moves (h : Holding descriptors id server) (hearlier : server.reportsError = false)
    (hbusy : ∀ number, stage = .busy number → descriptors.entry number = some (.client id))
    (hwaits : server.finished = false → ∀ listener, stage = .blocked listener → listener = id)
    (hgone : stage = .failed .gone → server.finished = true) (hreports : stage ≠ .reported .gone) :
    Holding descriptors id { server with stage := stage } where
  listening := h.listening
  closing := h.closing
  busy := hbusy
  unfinished hunfinished _ := h.unfinished hunfinished hearlier
  waits := hwaits
  gone := hgone
  reports := hreports

structure Inv (process : ManagerProcess) : Prop where
  holding : process.servers.All (Holding process.descriptors)
  /-- Each closed its own. -/
  closed : ∀ entry ∈ process.closed,
    entry.2 = some (.listener entry.1) ∨ entry.2 = some (.client entry.1)

theorem holding_adjust {servers : Table Nat AcceptServer} (h : servers.All (Holding descriptors))
    (hothers : ∀ other server, other ≠ id → Holding descriptors other server →
      Holding after other server)
    (hown : ∀ server, servers.lookup id = some server → Holding after id (f server)) :
    (servers.adjust id f).All (Holding after) := by
  intro other found hfound
  rcases lookup_adjust hfound with ⟨hother, hold⟩ | ⟨rfl, old, hold, rfl⟩
  · exact hothers other found hother (h other found hold)
  · exact hown old hold

theorem Inv.change (h : process.Inv) (hown : ∀ server, process.servers.lookup id = some server →
      Holding process.descriptors id server → Holding process.descriptors id (f server)) :
    (process.change id f).Inv where
  holding := holding_adjust h.holding (fun _ _ _ hother => hother)
    fun server hserver => hown server hserver (h.holding id server hserver)
  closed := h.closed

theorem inv_initial : initial.Inv where
  holding := .empty
  closed _ hmem := by cases hmem

theorem Holding.found (h : Holding process.descriptors id server)
    (hcalling : server.stage = .calling) (hunfinished : server.finished = false) :
    process.found server.number = .blocked id := by
  have hown := h.listening _ (h.unfinished hunfinished (by
    rw [AcceptServer.reportsError, hcalling])).1
  rw [ManagerProcess.found, hown]

/-- A server whose number was taken is finished, or its loop has reported an error. -/
theorem Holding.over_of_closing (h : Holding descriptors id server) {stage : CloseStage}
    (hclosing : server.closing = some stage) (hunfinished : server.finished = false) :
    server.reportsError = true := by
  by_contra hquiet
  have hown := (h.unfinished hunfinished (by simpa using hquiet)).1
  rw [(h.closing stage hclosing).1] at hown
  cases hown

theorem Holding.shutSocket (h : Holding process.descriptors id server) {stage : CloseStage}
    (hclosing : server.closing = some stage) : process.shutSocket stage.number
      = process.change id fun server => { server with shutDown := true } := by
  rw [ManagerProcess.shutSocket, (h.closing stage hclosing).2]

section
variable (h : Holding descriptors id server)
include h

theorem Holding.shuts {number : Nat} (hclosing : server.closing = some (.shutting number)) :
    Holding descriptors id { server with shutDown := true, closing := some (.closing number) } where
  listening := h.listening
  closing := by
    rintro stage hstage
    obtain ⟨htaken, hentry⟩ := h.closing _ hclosing
    rw [← Option.some.inj hstage]
    exact ⟨htaken, hentry⟩
  busy := h.busy
  unfinished hunfinished hquiet := by
    have hreports : server.reportsError = false := hquiet
    rw [h.over_of_closing hclosing hunfinished] at hreports
    cases hreports
  waits := h.waits
  gone := h.gone
  reports := h.reports

theorem Holding.closes {number : Nat} (hclosing : server.closing = some (.closing number)) :
    Holding (descriptors.close number) id { server with shutDown := true, closing := none } where
  listening other hother := by
    rw [(h.closing _ hclosing).1] at hother
    cases hother
  closing := nofun
  busy other hbusy := by
    rw [entry_close_ne, h.busy other hbusy]
    rintro rfl
    have hentry := (h.closing _ hclosing).2
    rw [CloseStage.number, h.busy other hbusy] at hentry
    cases hentry
  unfinished hunfinished hquiet := by
    have hreports : server.reportsError = false := hquiet
    rw [h.over_of_closing hclosing hunfinished] at hreports
    cases hreports
  waits := h.waits
  gone := h.gone
  reports := h.reports

theorem Holding.replies {client : Nat} (hstage : server.stage = .busy client) :
    Holding (descriptors.close client) id { server with stage := .calling } := by
  have hkept : ∀ number, descriptors.entry number = some (.listener id) →
      (descriptors.close client).entry number = some (.listener id) := by
    intro number hnumber
    rw [entry_close_ne, hnumber]
    rintro rfl
    rw [h.busy number hstage] at hnumber
    cases hnumber
  refine ⟨fun number hnumber => hkept _ (h.listening number hnumber), fun stage hstage => ?_, nofun,
    fun hunfinished _ => ?_, fun _ _ => nofun, nofun, nofun⟩
  · exact ⟨(h.closing stage hstage).1, hkept _ (h.closing stage hstage).2⟩
  · exact h.unfinished hunfinished (by rw [AcceptServer.reportsError, hstage])

theorem Holding.takes {afterError : Bool}
    (hover : server.finished = false → server.reportsError = true) :
    Holding descriptors id (server.takeFd afterError) where
  listening := nofun
  closing stage hstage := by
    refine ⟨rfl, ?_⟩
    unfold AcceptServer.takeFd at hstage
    split at hstage
    · exact (h.closing stage hstage).2
    next number hnumber =>
      rw [← Option.some.inj hstage]
      cases afterError <;> exact h.listening number hnumber
  busy := h.busy
  unfinished hunfinished hquiet := by
    have hreports : server.reportsError = false := hquiet
    rw [hover hunfinished] at hreports
    cases hreports
  waits := h.waits
  gone := h.gone
  reports := h.reports

theorem Holding.finishes : Holding descriptors id { server with finished := true } where
  listening := h.listening
  closing := h.closing
  busy := h.busy
  unfinished := nofun
  waits := nofun
  gone _ := rfl
  reports := h.reports

theorem Holding.waiting (waiting : Nat) :
    Holding descriptors id { server with waiting := waiting } where
  listening := h.listening
  closing := h.closing
  busy := h.busy
  unfinished := h.unfinished
  waits := h.waits
  gone := h.gone
  reports := h.reports

end

/-! ### Steps -/

section
variable (h : process.Inv)
include h

theorem Inv.listen {isManager : Bool}
    (hstep : process.step (.listen id isManager) = some next) : next.Inv := by
  simp only [step] at hstep
  split at hstep <;> obtain ⟨⟩ := hstep
  refine ⟨?_, h.closed⟩
  intro other found hfound
  rcases lookup_insert_cases hfound with ⟨rfl, rfl⟩ | ⟨-, hold⟩
  · have hentry := process.descriptors.entry_put_lowest (.listener other)
    refine ⟨?_, nofun, nofun, fun _ _ => ⟨rfl, rfl⟩, fun _ _ => nofun, nofun, nofun⟩
    intro number hnumber
    rw [← some.inj hnumber]
    exact hentry
  · exact (h.holding other found hold).put _

theorem Inv.call (hstep : process.step (.call id) = some next) : next.Inv := by
  obtain ⟨server, hserver, hstep⟩ := bind_eq_some_iff.mp hstep
  split at hstep <;> obtain ⟨⟩ := hstep
  next hcalling =>
  refine h.change fun found hfound hown => ?_
  obtain rfl := some.inj (hserver.symm.trans hfound)
  have hnothing : ∀ number, process.found server.number ≠ .busy number := by
    intro number hbusy
    unfold found at hbusy
    split at hbusy <;> cases hbusy
  refine hown.moves (by rw [AcceptServer.reportsError, hcalling]) ?_ ?_ ?_ ?_
  · exact fun number hbusy => absurd hbusy (hnothing number)
  · intro hunfinished listener hlistener
    rw [hown.found hcalling hunfinished] at hlistener
    exact (AcceptStage.blocked.inj hlistener).symm
  · intro hgone
    by_contra hunfinished
    rw [hown.found hcalling (by simpa using hunfinished)] at hgone
    cases hgone
  · unfold found
    split <;> exact nofun

theorem Inv.accept (hstep : process.step (.accept id) = some next) : next.Inv := by
  obtain ⟨server, hserver, hstep⟩ := bind_eq_some_iff.mp hstep
  split at hstep
  case h_2 => cases hstep
  next listener hstage =>
  obtain ⟨listening, hlistening, hstep⟩ := bind_eq_some_iff.mp hstep
  split at hstep <;> obtain ⟨⟩ := hstep
  have hwaiting : (process.change listener fun server =>
      { server with waiting := server.waiting - 1 }).Inv :=
    h.change fun _ _ hown => hown.waiting _
  refine ⟨holding_adjust hwaiting.holding (fun _ _ _ hother => hother.put _) ?_, h.closed⟩
  intro found hfound
  have hstill : found.stage = .blocked listener := by
    rcases lookup_adjust hfound with ⟨-, hold⟩ | ⟨rfl, old, hold, rfl⟩
    · rw [← some.inj (hserver.symm.trans hold), hstage]
    · rw [← some.inj (hserver.symm.trans hold), hstage]
  refine ((hwaiting.holding id found hfound).put (.client id)).moves ?_ ?_
    (fun _ _ => nofun) nofun nofun
  · rw [AcceptServer.reportsError, hstill]
  intro number hnumber
  rw [← AcceptStage.busy.inj hnumber]
  exact process.descriptors.entry_put_lowest _

theorem Inv.leaves
    (hserver : process.servers.lookup id = some server) (hearlier : server.reportsError = false)
    (hplain : stage = .calling ∨ stage = .failed .own) : (process.goTo id stage).Inv := by
  refine h.change fun found hfound hown => ?_
  obtain rfl := some.inj (hserver.symm.trans hfound)
  rcases hplain with rfl | rfl
  · exact hown.moves hearlier nofun (fun _ _ => nofun) nofun nofun
  · exact hown.moves hearlier nofun (fun _ _ => nofun) nofun nofun

theorem Inv.wake (hstep : process.step (.wake id) = some next) : next.Inv := by
  obtain ⟨server, hserver, hstep⟩ := bind_eq_some_iff.mp hstep
  split at hstep
  case h_2 => cases hstep
  next listener hstage =>
  obtain ⟨listening, hlistening, hstep⟩ := bind_eq_some_iff.mp hstep
  split at hstep
  · next hshut =>
    obtain ⟨⟩ := hstep
    refine h.change fun found hfound hown => ?_
    obtain rfl := some.inj (hserver.symm.trans hfound)
    have hearlier : server.reportsError = false := by
      rw [AcceptServer.reportsError, hstage]
    refine hown.moves hearlier nofun (fun _ _ => nofun) (fun _ => ?_) nofun
    by_contra hunfinished
    have hrunning : server.finished = false := by simpa using hunfinished
    obtain rfl := hown.waits hrunning listener hstage
    obtain rfl := some.inj (hserver.symm.trans hlistening)
    rw [(hown.unfinished hrunning hearlier).2] at hshut
    cases hshut
  · cases hstep

theorem Inv.check (hstep : process.step (.check id) = some next) : next.Inv := by
  obtain ⟨server, hserver, hstep⟩ := bind_eq_some_iff.mp hstep
  split at hstep <;> obtain ⟨⟩ := hstep
  next cause hstage =>
  refine h.change fun found hfound hown => ?_
  obtain rfl := some.inj (hserver.symm.trans hfound)
  have hearlier : server.reportsError = false := by rw [AcceptServer.reportsError, hstage]
  by_cases hfinished : server.finished = true
  · rw [if_pos hfinished]
    exact hown.moves hearlier nofun (fun _ _ => nofun) nofun nofun
  rw [if_neg hfinished]
  refine hown.moves hearlier nofun (fun _ _ => nofun) nofun ?_
  rintro hgone
  rw [AcceptStage.reported.inj hgone] at hstage
  exact hfinished (hown.gone hstage)

theorem Inv.reply (hstep : process.step (.reply id) = some next) : next.Inv := by
  obtain ⟨server, hserver, hstep⟩ := bind_eq_some_iff.mp hstep
  split at hstep <;> obtain ⟨⟩ := hstep
  next client hstage =>
  have hentry := (h.holding id server hserver).busy client hstage
  refine ⟨holding_adjust h.holding ?_ ?_, ?_⟩
  · intro other found hother hheld
    refine hheld.close ?_ ?_
    · simp [hentry]
    · simp [hentry, Ne.symm hother]
  · intro found hfound
    obtain rfl := some.inj (hserver.symm.trans hfound)
    exact (h.holding id server hserver).replies hstage
  · simp only [goTo, ManagerProcess.change, closeNumber, mem_append, mem_singleton]
    rintro entry (hold | rfl)
    · exact h.closed entry hold
    · exact .inr hentry

theorem Inv.take {afterError : Bool}
    (hstep : process.step (.take id afterError) = some next) : next.Inv := by
  obtain ⟨server, hserver, hstep⟩ := bind_eq_some_iff.mp hstep
  split at hstep <;> obtain ⟨⟩ := hstep
  next hmay =>
  refine h.change fun found hfound hown => ?_
  obtain rfl := some.inj (hserver.symm.trans hfound)
  refine hown.takes fun hunfinished => ?_
  unfold AcceptServer.mayTake at hmay
  cases afterError with
  | true => exact (Bool.and_eq_true _ _ ▸ hmay).2
  | false =>
    rw [if_neg (by decide), hunfinished] at hmay
    cases hmay

theorem Inv.shut (hstep : process.step (.shut id) = some next) : next.Inv := by
  obtain ⟨server, hserver, hstep⟩ := bind_eq_some_iff.mp hstep
  split at hstep <;> obtain ⟨⟩ := hstep
  next number hclosing =>
  have hown := h.holding id server hserver
  have hsocket := hown.shutSocket hclosing
  rw [CloseStage.number] at hsocket
  rw [hsocket]
  refine ⟨?_, h.closed⟩
  intro other found hfound
  rcases lookup_adjust hfound with ⟨hother, hfound⟩ | ⟨rfl, old, hold, rfl⟩
  · rcases lookup_adjust hfound with ⟨-, hold⟩ | ⟨rfl, -⟩
    · exact h.holding other found hold
    · exact absurd rfl hother
  rcases lookup_adjust hold with ⟨hother, -⟩ | ⟨-, older, holder, rfl⟩
  · exact absurd rfl hother
  · obtain rfl := some.inj (hserver.symm.trans holder)
    exact hown.shuts hclosing

theorem Inv.close (hstep : process.step (.close id) = some next) : next.Inv := by
  obtain ⟨server, hserver, hstep⟩ := bind_eq_some_iff.mp hstep
  split at hstep <;> obtain ⟨⟩ := hstep
  next number hclosing =>
  have hown := h.holding id server hserver
  have hentry := (hown.closing _ hclosing).2
  have hsocket := hown.shutSocket hclosing
  rw [CloseStage.number] at hsocket hentry
  rw [hsocket]
  refine ⟨?_, ?_⟩
  · intro other found hfound
    rcases lookup_adjust hfound with ⟨hother, hfound⟩ | ⟨rfl, old, hold, rfl⟩
    · rcases lookup_adjust hfound with ⟨-, hold⟩ | ⟨rfl, -⟩
      · refine (h.holding other found hold).close ?_ ?_
        · simp [hentry, Ne.symm hother]
        · simp [hentry]
      · exact absurd rfl hother
    rcases lookup_adjust hold with ⟨hother, -⟩ | ⟨-, older, holder, rfl⟩
    · exact absurd rfl hother
    · obtain rfl := some.inj (hserver.symm.trans holder)
      exact hown.closes hclosing
  · simp only [ManagerProcess.change, closeNumber, mem_append, mem_singleton]
    rintro entry (hold | rfl)
    · exact h.closed entry hold
    · exact .inl hentry

theorem Inv.step (step : AcceptStep) (hstep : process.step step = some next) : next.Inv := by
  cases step with
  | listen id isManager => exact h.listen hstep
  | connect id =>
    obtain ⟨server, hserver, hstep⟩ := bind_eq_some_iff.mp hstep
    split at hstep <;> obtain ⟨⟩ := hstep
    exact h.change fun _ _ hown => hown.waiting _
  | call id => exact h.call hstep
  | accept id => exact h.accept hstep
  | interrupt id =>
    obtain ⟨server, hserver, hstep⟩ := bind_eq_some_iff.mp hstep
    split at hstep <;> obtain ⟨⟩ := hstep
    next hstage =>
    exact h.leaves hserver (by rw [AcceptServer.reportsError, hstage]) (.inl rfl)
  | fail id =>
    obtain ⟨server, hserver, hstep⟩ := bind_eq_some_iff.mp hstep
    split at hstep <;> obtain ⟨⟩ := hstep
    next hstage =>
    exact h.leaves hserver (by rw [AcceptServer.reportsError, hstage]) (.inr rfl)
  | wake id => exact h.wake hstep
  | check id => exact h.check hstep
  | reply id => exact h.reply hstep
  | finish id =>
    obtain ⟨server, hserver, hstep⟩ := bind_eq_some_iff.mp hstep
    split at hstep <;> obtain ⟨⟩ := hstep
    exact h.change fun _ _ hown => hown.finishes
  | take id afterError => exact h.take hstep
  | shut id => exact h.shut hstep
  | close id => exact h.close hstep
  | openOther =>
    obtain ⟨⟩ := hstep
    exact ⟨fun id server hserver => (h.holding id server hserver).put _, h.closed⟩
  | closeOther number =>
    simp only [ManagerProcess.step] at hstep
    split at hstep <;> obtain ⟨⟩ := hstep
    next hother =>
    refine ⟨fun id server hserver => ?_, h.closed⟩
    refine (h.holding id server hserver).close ?_ ?_
    · simp [hother]
    · simp [hother]

end

/-! ### A number of one's own -/

/-- What the loop calls `accept` on, and what it waits on, is its own listener or none. -/
structure Alone (descriptors : Descriptors Opened) (id : Nat) (server : AcceptServer) : Prop where
  number : server.over = false → ∀ other,
    descriptors.entry server.number = some (.listener other) → other = id
  waits : ∀ listener, server.stage = .blocked listener → listener = id

theorem Alone.frame (h : Alone descriptors id server)
    (hlisteners : ∀ number other, after.entry number = some (.listener other) →
      descriptors.entry number = some (.listener other)) : Alone after id server where
  number hover other hother := h.number hover other (hlisteners _ _ hother)
  waits := h.waits

theorem listener_of_put {opened : Opened} (hopened : ∀ other, opened ≠ .listener other)
    (number other : Nat) (h : (descriptors.put opened).entry number = some (.listener other)) :
    descriptors.entry number = some (.listener other) := by
  by_cases hnumber : number = descriptors.lowest
  · rw [hnumber, entry_put_lowest] at h
    exact absurd (some.inj h) (hopened other)
  · rw [entry_put_ne hnumber] at h
    exact h

theorem listener_of_close (closed number other : Nat)
    (h : (descriptors.close closed).entry number = some (.listener other)) :
    descriptors.entry number = some (.listener other) := by
  by_cases hnumber : number = closed
  · rw [hnumber, entry_close_self] at h
    cases h
  · rw [entry_close_ne hnumber] at h
    exact h

theorem Alone.moves (h : Alone descriptors id server)
    (hover : server.over = false) (hwaits : ∀ listener, stage = .blocked listener → listener = id) :
    Alone descriptors id { server with stage := stage } where
  number _ := h.number hover
  waits := hwaits

/-- Every loop calls and waits on its own listener, and has served its own socket only. -/
structure Apart (process : ManagerProcess) : Prop where
  alone : process.servers.All (Alone process.descriptors)
  accepted : ∀ pair ∈ process.accepted, pair.1 = pair.2

section
variable (h : process.Apart)
include h

theorem Apart.change (hown : ∀ server, process.servers.lookup id = some server →
      Alone process.descriptors id server → Alone process.descriptors id (f server)) :
    (process.change id f).Apart where
  alone := Table.All.adjust h.alone fun server hserver =>
    hown server hserver (h.alone id server hserver)
  accepted := h.accepted

theorem Apart.keeps (hnumber : ∀ server, (f server).number = server.number)
    (hstage : ∀ server, (f server).stage = server.stage) : (process.change id f).Apart := by
  refine h.change fun server _ hown => ⟨?_, ?_⟩
  · intro hover other hother
    rw [hnumber] at hother
    refine hown.number ?_ other hother
    rw [AcceptServer.over, hstage] at hover
    exact hover
  · rw [hstage]
    exact hown.waits

theorem Apart.goTo (hserver : process.servers.lookup id = some server) (hover : server.over = false)
    (hwaits : ∀ listener, stage = .blocked listener → listener = id) :
    (process.goTo id stage).Apart := by
  refine h.change fun found hfound hown => ?_
  obtain rfl := some.inj (hserver.symm.trans hfound)
  exact hown.moves hover hwaits

theorem Apart.shutSocket (number : Nat) : (process.shutSocket number).Apart := by
  unfold ManagerProcess.shutSocket
  split
  · exact h.keeps (fun _ => rfl) fun _ => rfl
  · exact h

theorem Apart.closeNumber (id number : Nat) : (process.closeNumber id number).Apart where
  alone := Table.All.mono h.alone fun _ _ hown => hown.frame (listener_of_close number)
  accepted := h.accepted

end

/-- What a step needs: no listener is given the number of a loop that may still call. -/
def Careful (process : ManagerProcess) : AcceptStep → Prop
  | .listen _ _ => process.servers.All fun _ server =>
    server.over = false → server.number ≠ process.descriptors.lowest
  | _ => True

instance (process : ManagerProcess) : ∀ step, Decidable (process.Careful step)
  | .listen _ _ => inferInstanceAs (Decidable (process.servers.All _))
  | .connect _ | .call _ | .accept _ | .interrupt _ | .fail _ | .wake _ | .check _ | .reply _
  | .finish _ | .take _ _ | .shut _ | .close _ | .openOther | .closeOther _ => .isTrue trivial

theorem Apart.listen (h : process.Apart) {isManager : Bool}
    (hcareful : process.Careful (.listen id isManager))
    (hstep : process.step (.listen id isManager) = some next) : next.Apart := by
  simp only [step] at hstep
  split at hstep
  · cases hstep
  obtain ⟨⟩ := hstep
  refine ⟨?_, h.accepted⟩
  intro other found hfound
  rcases lookup_insert_cases hfound with ⟨rfl, rfl⟩ | ⟨-, hold⟩
  · refine ⟨fun _ server hentry => ?_, fun _ => nofun⟩
    have hown := process.descriptors.entry_put_lowest (.listener other)
    exact (Opened.listener.inj (some.inj (hown.symm.trans hentry))).symm
  refine ⟨fun hover server hentry => ?_, (h.alone other found hold).waits⟩
  rw [entry_put_ne (hcareful other found hold hover)] at hentry
  exact (h.alone other found hold).number hover server hentry

theorem Apart.accept (h : process.Apart) (hstep : process.step (.accept id) = some next) :
    next.Apart := by
  obtain ⟨server, hserver, hstep⟩ := bind_eq_some_iff.mp hstep
  split at hstep
  case h_2 => cases hstep
  next listener hstage =>
  obtain ⟨listening, hlistening, hstep⟩ := bind_eq_some_iff.mp hstep
  split at hstep <;> obtain ⟨⟩ := hstep
  obtain rfl := (h.alone id server hserver).waits listener hstage
  have hserved : (process.change listener fun server =>
      { server with waiting := server.waiting - 1 }).Apart :=
    h.keeps (fun _ => rfl) fun _ => rfl
  have hmoved : ((process.change listener fun server =>
      { server with waiting := server.waiting - 1 }).goTo listener
        (.busy process.descriptors.lowest)).Apart := by
    have hchanged := (lookup_adjust_self listener (fun server : AcceptServer =>
      { server with waiting := server.waiting - 1 }) process.servers).trans (congrArg _ hserver)
    refine hserved.goTo hchanged ?_ fun _ => nofun
    rw [AcceptServer.over, hstage]
  refine ⟨?_, ?_⟩
  · exact Table.All.mono hmoved.alone fun _ _ hown => hown.frame (listener_of_put nofun)
  · simp only [takeClient, mem_append, mem_singleton]
    rintro pair (hold | rfl)
    · exact h.accepted pair hold
    · rfl

theorem Apart.step (h : process.Apart) (step : AcceptStep) (hcareful : process.Careful step)
    (hstep : process.step step = some next) : next.Apart := by
  cases step with
  | listen id isManager => exact h.listen hcareful hstep
  | connect id =>
    obtain ⟨server, hserver, hstep⟩ := bind_eq_some_iff.mp hstep
    split at hstep <;> obtain ⟨⟩ := hstep
    exact h.keeps (fun _ => rfl) fun _ => rfl
  | call id =>
    obtain ⟨server, hserver, hstep⟩ := bind_eq_some_iff.mp hstep
    split at hstep <;> obtain ⟨⟩ := hstep
    next hcalling =>
    have hover : server.over = false := by rw [AcceptServer.over, hcalling]
    refine h.goTo hserver hover fun listener hlistener => ?_
    unfold found at hlistener
    split at hlistener
    · next other hentry =>
      rw [← AcceptStage.blocked.inj hlistener]
      exact (h.alone id server hserver).number hover other hentry
    · cases hlistener
  | accept id => exact h.accept hstep
  | interrupt id | fail id =>
    obtain ⟨server, hserver, hstep⟩ := bind_eq_some_iff.mp hstep
    split at hstep <;> obtain ⟨⟩ := hstep
    next hstage =>
    exact h.goTo hserver (by rw [AcceptServer.over, hstage]) fun _ => nofun
  | wake id =>
    obtain ⟨server, hserver, hstep⟩ := bind_eq_some_iff.mp hstep
    split at hstep
    case h_2 => cases hstep
    next hstage =>
    obtain ⟨listening, hlistening, hstep⟩ := bind_eq_some_iff.mp hstep
    split at hstep <;> obtain ⟨⟩ := hstep
    exact h.goTo hserver (by rw [AcceptServer.over, hstage]) fun _ => nofun
  | check id =>
    obtain ⟨server, hserver, hstep⟩ := bind_eq_some_iff.mp hstep
    split at hstep <;> obtain ⟨⟩ := hstep
    next hstage =>
    refine h.goTo hserver (by rw [AcceptServer.over, hstage]) fun listener hlistener => ?_
    split at hlistener <;> cases hlistener
  | reply id =>
    obtain ⟨server, hserver, hstep⟩ := bind_eq_some_iff.mp hstep
    split at hstep <;> obtain ⟨⟩ := hstep
    next client hstage =>
    exact (h.closeNumber id client).goTo hserver (by rw [AcceptServer.over, hstage]) fun _ => nofun
  | finish id =>
    obtain ⟨server, hserver, hstep⟩ := bind_eq_some_iff.mp hstep
    split at hstep
    · cases hstep
    · obtain ⟨⟩ := hstep
      exact h.keeps (fun _ => rfl) fun _ => rfl
  | take id afterError =>
    obtain ⟨server, hserver, hstep⟩ := bind_eq_some_iff.mp hstep
    split at hstep <;> obtain ⟨⟩ := hstep
    exact h.keeps (fun _ => rfl) fun _ => rfl
  | shut id =>
    obtain ⟨server, hserver, hstep⟩ := bind_eq_some_iff.mp hstep
    split at hstep <;> obtain ⟨⟩ := hstep
    exact (h.shutSocket _).keeps (fun _ => rfl) fun _ => rfl
  | close id =>
    obtain ⟨server, hserver, hstep⟩ := bind_eq_some_iff.mp hstep
    split at hstep <;> obtain ⟨⟩ := hstep
    exact ((h.shutSocket _).closeNumber _ _).keeps (fun _ => rfl) fun _ => rfl
  | openOther =>
    obtain ⟨⟩ := hstep
    exact ⟨Table.All.mono h.alone fun _ _ hown => hown.frame (listener_of_put nofun), h.accepted⟩
  | closeOther number =>
    simp only [ManagerProcess.step] at hstep
    split at hstep <;> obtain ⟨⟩ := hstep
    exact ⟨Table.All.mono h.alone fun _ _ hown => hown.frame (listener_of_close number), h.accepted⟩

end ManagerProcess

/--
**A request reaches only the holder that owns the socket**, in every run in which no
listener is given the number of a loop that may still call `accept` on it.  In every run
whatsoever, each thread closes only numbers that are its own, and no loop reports an error
because its socket is gone.
-/
theorem requests_reach_their_holder (steps : List AcceptStep) {process : ManagerProcess}
    (hrun : partialRun ManagerProcess.step .initial steps = some process) :
    (Meets ManagerProcess.Careful ManagerProcess.step .initial steps →
      ∀ pair ∈ process.accepted, pair.1 = pair.2) ∧ (∀ entry ∈ process.closed,
      entry.2 = some (.listener entry.1) ∨ entry.2 = some (.client entry.1)) ∧
    ∀ id server, process.servers.lookup id = some server → server.stage ≠ .reported .gone := by
  have hinv : process.Inv := partialRun_induction (P := fun _ process => process.Inv)
    ManagerProcess.inv_initial (fun _ _ step _ h hstep => h.step step hstep) hrun
  refine ⟨fun hcareful => ?_, hinv.closed, fun id server hserver =>
    (hinv.holding id server hserver).reports⟩
  have hapart : process.Apart := hcareful.invariant (fun _ step _ h hcareful hstep =>
    ManagerProcess.Apart.step h step hcareful hstep) ⟨.empty, fun _ hmem => by cases hmem⟩ hrun
  exact hapart.accepted

/-! ### A number that is used again -/

/-- The manager is server 0, and serves one session, whose child exits while a request is
answered. -/
def exitsWhileBusy : List AcceptStep :=
  [.listen 0 true, .listen 1 false, .connect 1, .call 1, .accept 1, .finish 1, .take 1 false,
    .shut 1, .close 1]

/-- The next session listens once the loop has found its listener closed. -/
theorem requests_reach_their_holder_later : ∃ process, partialRun ManagerProcess.step .initial
        (exitsWhileBusy ++ [.reply 1, .call 1, .check 1, .listen 2 false, .connect 2, .call 2,
          .accept 2]) = some process ∧
      process.accepted = [(1, 1), (2, 2)] ∧ ∀ pair ∈ process.accepted, pair.1 = pair.2 := by
  refine ⟨_, rfl, by decide +kernel, ?_⟩
  refine (requests_reach_their_holder (exitsWhileBusy ++ [.reply 1, .call 1, .check 1,
    .listen 2 false, .connect 2, .call 2, .accept 2]) rfl).1 ?_
  decide +kernel

/-- It listens before, on the number that was just closed: what its clients ask for, the loop of
the session that is over carries out. -/
theorem next_listener_is_stolen : ∃ process, partialRun ManagerProcess.step .initial
        (exitsWhileBusy ++ [.listen 2 false, .reply 1, .connect 2, .call 1, .accept 1])
          = some process ∧
      process.accepted = [(1, 1), (1, 2)] ∧ ∃ pair ∈ process.accepted, pair.1 ≠ pair.2 := by
  refine ⟨_, rfl, by decide +kernel, ?_⟩
  decide +kernel

end Diri
