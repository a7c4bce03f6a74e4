/-
One run of a holder, step by step.

What a run has done agrees with its stage (`Orderly`), as long as it fails only where it
does not listen and returns only when its listener is closed.  A run claims its session
from its own check until it has neither a child nor anything to write.
-/
import Diri.Engine.Hosting

namespace Diri

open Option

/-! ### One run -/

/-- Whether the holder listens, where its stage says so. -/
def RunStage.listens : RunStage → Option Bool
  | .writing | .pumping | .watching => some true
  | .accepting => none
  | _ => some false

/-- There is no child yet. -/
def RunStage.early : RunStage → Bool
  | .probing | .creating | .opening | .spawning => true
  | _ => false

/-- The run has passed its own check, and its loop has not begun. -/
def RunStage.starts : RunStage → Bool
  | .probing | .accepting | .returned => false
  | _ => true

def WatchExitStage.joined : WatchExitStage → Bool
  | .waiting | .finishing | .joining => false
  | _ => true

def WatchExitStage.unmarked : WatchExitStage → Bool
  | .removing | .closing => false
  | _ => true

namespace HolderRun

variable {run next : HolderRun}

def hasChild (run : HolderRun) : Bool :=
  run.child = .live && (run.stage ≠ .returned || run.pumping || run.watching.isSome)

def writes (run : HolderRun) : Bool :=
  run.pumping || run.watching.any (·.unmarked)

/-- The run is to have a child, has one, or writes. -/
def claims (run : HolderRun) : Bool := run.stage.starts || run.hasChild || run.writes

structure Orderly (run : HolderRun) : Prop where
  listens : ∀ listens, run.stage.listens = some listens → run.listening = listens
  closed : run.listening = false → run.pumping = false ∧ run.watching = none
  watches : ∀ stage, run.watching = some stage → run.stage = .accepting ∧
    (stage.joined = true → run.pumping = false) ∧ (stage ≠ .waiting → run.child = .reaped)
  early : run.stage.early = true → run.child = .unborn
  finished : run.finished = true → run.child = .reaped
  /-- Only a thread of the manager's is on its way. -/
  foreign : run.hosted = false → run.stage = .accepting ∨ run.stage = .returned

theorem Orderly.unclaimed (h : run.Orderly) (hreturned : run.stage = .returned) :
    run.claims = false := by
  have hclosed : run.listening = false := h.listens false (by rw [hreturned]; rfl)
  obtain ⟨hpump, hwatch⟩ := h.closed hclosed
  simp [claims, hasChild, writes, RunStage.starts, hreturned, hpump, hwatch]

theorem orderly_standing (sessionId : String) : (standing sessionId).Orderly where
  listens _ h := by cases h
  closed h := by cases h
  watches stage h := by
    obtain ⟨⟩ := h
    exact ⟨rfl, nofun, fun hne => absurd rfl hne⟩
  early h := by cases h
  finished h := by cases h
  foreign _ := .inl rfl

theorem orderly_new (sessionId : String) : Orderly { sessionId := sessionId, hosted := true } where
  listens _ h := Option.some.inj h
  closed _ := ⟨rfl, rfl⟩
  watches _ h := by cases h
  early _ := rfl
  finished h := by cases h
  foreign h := by cases h

/-- What a step of one run leaves alone. -/
structure Follows (run next : HolderRun) : Prop where
  sessionId : next.sessionId = run.sessionId
  hosted : next.hosted = run.hosted
  orderly : next.Orderly
  ended : run.ended = true → next.ended = true

theorem Orderly.unwatched (h : run.Orderly) (hstage : run.stage ≠ .accepting) :
    run.watching = none := by
  cases hwatch : run.watching with
  | none => rfl
  | some stage => exact absurd (h.watches stage hwatch).1 hstage

theorem Orderly.hosted (h : run.Orderly) (haccepting : run.stage ≠ .accepting)
    (hreturned : run.stage ≠ .returned) : run.hosted = true := by
  by_contra hforeign
  rcases h.foreign (by simpa using hforeign) with hstage | hstage
  · exact haccepting hstage
  · exact hreturned hstage

theorem Orderly.goTo (h : run.Orderly) {stage : RunStage} (hwatch : run.watching = none)
    (hlistens : ∀ listens, stage.listens = some listens → run.listening = listens)
    (hearly : stage.early = true → run.stage.early = true)
    (hforeign : run.hosted = false → stage = .accepting ∨ stage = .returned) :
    Orderly { run with stage := stage } where
  listens := hlistens
  closed := h.closed
  watches other hother := by rw [hwatch] at hother; cases hother
  early hstage := h.early (hearly hstage)
  finished := h.finished
  foreign := hforeign

theorem Follows.check {alive : Bool} (h : run.Orderly) (hstep : run.check alive = some next) :
    Follows run next := by
  unfold HolderRun.check at hstep
  split at hstep
  case isFalse => cases hstep
  have hstage : run.stage = .probing := ‹_›
  have hwatch : run.watching = none := h.unwatched (by simp [hstage])
  have hhosted : run.hosted = true := h.hosted (by simp [hstage]) (by simp [hstage])
  have hlistening : run.listening = false := h.listens false (by rw [hstage]; rfl)
  split at hstep
  · split at hstep <;> obtain ⟨⟩ := hstep
    refine ⟨rfl, rfl, h.goTo hwatch (fun _ hl => hlistening.trans (some.inj hl)) nofun
      fun _ => .inr rfl, fun _ => rfl⟩
  obtain ⟨⟩ := hstep
  refine ⟨rfl, rfl, h.goTo hwatch (fun _ hl => hlistening.trans (some.inj hl)) ?_ ?_,
    fun hended => ?_⟩
  · exact fun _ => by rw [hstage]; rfl
  · exact fun hforeign => by rw [hhosted] at hforeign; cases hforeign
  · simpa [HolderRun.ended, hstage] using hended

section
variable (h : run.Orderly)
include h

theorem Follows.goTo {stage : RunStage} (hwatch : run.watching = none)
    (hlistens : ∀ listens, stage.listens = some listens → run.listening = listens)
    (hearly : stage.early = true → run.stage.early = true)
    (hforeign : run.hosted = false → stage = .accepting ∨ stage = .returned)
    (hreturned : run.stage ≠ .returned) : Follows run { run with stage := stage } where
  sessionId := rfl
  hosted := rfl
  orderly := h.goTo hwatch hlistens hearly hforeign
  ended hended := by
    simp only [HolderRun.ended, hreturned, decide_false, Bool.false_or] at hended
    simp only [HolderRun.ended, Bool.or_assoc, hended, Bool.or_true]

theorem Follows.proceed (hclosed : run.stage = .accepting → run.listening = false)
    (hstep : run.proceed = some next) : Follows run next := by
  unfold HolderRun.proceed at hstep
  have hquiet : run.stage ≠ .accepting → run.stage ≠ .returned →
      run.watching = none ∧ ∀ P : Prop, run.hosted = false → P := by
    intro haccepting hreturned
    refine ⟨h.unwatched haccepting, fun P hforeign => ?_⟩
    rw [h.hosted haccepting hreturned] at hforeign
    cases hforeign
  cases hstage : run.stage with
  | probing | returned => simp [hstage] at hstep
  | creating | opening | reading | writing =>
    obtain ⟨hwatch, hforeign⟩ := hquiet (by simp [hstage]) (by simp [hstage])
    simp only [hstage, some.injEq] at hstep
    subst hstep
    refine .goTo h hwatch (fun listens hl => ?_) (fun hearly => ?_) (hforeign _) (by simp [hstage])
    · exact h.listens listens (by rw [hstage]; exact hl)
    · first | rw [hstage]; rfl | cases hearly
  | spawning =>
    obtain ⟨hwatch, hforeign⟩ := hquiet (by simp [hstage]) (by simp [hstage])
    have hchild : run.child = .unborn := h.early (by rw [hstage]; rfl)
    have hlistening : run.listening = false := h.listens false (by rw [hstage]; rfl)
    simp only [hstage, some.injEq] at hstep
    subst hstep
    exact ⟨rfl, rfl, {
      listens := fun _ hl => hlistening.trans (some.inj hl)
      closed := h.closed
      watches := fun stage hsome => by rw [hwatch] at hsome; cases hsome
      early := nofun
      finished := fun hfinished => by rw [h.finished hfinished] at hchild; cases hchild
      foreign := hforeign _ },
      fun hended => by simp [HolderRun.ended, hstage, hchild] at hended⟩
  | listening =>
    obtain ⟨hwatch, hforeign⟩ := hquiet (by simp [hstage]) (by simp [hstage])
    simp only [hstage, some.injEq] at hstep
    subst hstep
    exact ⟨rfl, rfl, {
      listens := fun _ hl => some.inj hl
      closed := nofun
      watches := fun stage hsome => by rw [hwatch] at hsome; cases hsome
      early := nofun
      finished := h.finished
      foreign := hforeign _ },
      fun hended => by simpa [HolderRun.ended, hstage] using hended⟩
  | pumping =>
    obtain ⟨hwatch, hforeign⟩ := hquiet (by simp [hstage]) (by simp [hstage])
    have hlistening : run.listening = true := h.listens true (by rw [hstage]; rfl)
    simp only [hstage, some.injEq] at hstep
    subst hstep
    exact ⟨rfl, rfl, {
      listens := fun _ hl => hlistening.trans (some.inj hl)
      closed := fun hopen => by rw [hlistening] at hopen; cases hopen
      watches := fun stage hsome => by rw [hwatch] at hsome; cases hsome
      early := nofun
      finished := h.finished
      foreign := hforeign _ },
      fun hended => by simpa [HolderRun.ended, hstage] using hended⟩
  | watching =>
    obtain ⟨hwatch, hforeign⟩ := hquiet (by simp [hstage]) (by simp [hstage])
    have hlistening : run.listening = true := h.listens true (by rw [hstage]; rfl)
    simp only [hstage, some.injEq] at hstep
    subst hstep
    exact ⟨rfl, rfl, {
      listens := nofun
      closed := fun hopen => by rw [hlistening] at hopen; cases hopen
      watches := fun stage hsome => by
        obtain ⟨⟩ := hsome
        exact ⟨rfl, nofun, fun hne => absurd rfl hne⟩
      early := nofun
      finished := h.finished
      foreign := hforeign _ },
      fun hended => by simpa [HolderRun.ended, hstage] using hended⟩
  | accepting =>
    have hlistening := hclosed hstage
    simp only [hstage] at hstep
    split at hstep <;> obtain ⟨⟩ := hstep
    exact .goTo h (h.closed hlistening).2 (fun _ hl => hlistening.trans (some.inj hl))
      nofun (fun _ => .inr rfl) (by simp [hstage])

theorem Follows.fail (hclosed : run.listening = false)
    (hstep : run.fail = some next) : Follows run next := by
  have hreturns : run.stage ≠ .returned → Follows run { run with stage := .returned } :=
    .goTo h (h.closed hclosed).2 (fun _ hl => hclosed.trans (some.inj hl)) nofun
      fun _ => .inr rfl
  unfold HolderRun.fail at hstep
  split at hstep
  · cases hstep
  · split at hstep <;> obtain ⟨⟩ := hstep
    exact hreturns (by simp [*])
  · cases hstep
  · obtain ⟨⟩ := hstep
    exact hreturns ‹_›

theorem Follows.exit (hstep : run.exit = some next) : Follows run next := by
  unfold HolderRun.exit at hstep
  split at hstep
  case isFalse => cases hstep
  have hlive : run.child = .live := ‹_›
  obtain ⟨⟩ := hstep
  exact ⟨rfl, rfl, {
    listens := h.listens
    closed := h.closed
    watches := fun stage hwatch => by
      obtain ⟨haccepting, hjoined, hreaped⟩ := h.watches stage hwatch
      refine ⟨haccepting, hjoined, fun hne => ?_⟩
      rw [hreaped hne] at hlive
      cases hlive
    early := fun hearly => by rw [h.early hearly] at hlive; cases hlive
    finished := fun hfinished => by rw [h.finished hfinished] at hlive; cases hlive
    foreign := h.foreign },
    fun _ => by simp [HolderRun.ended]⟩

theorem Follows.endPump (hstep : run.endPump = some next) : Follows run next := by
  unfold HolderRun.endPump at hstep
  split at hstep <;> obtain ⟨⟩ := hstep
  exact ⟨rfl, rfl, {
    listens := h.listens
    closed := fun hclosed => ⟨rfl, (h.closed hclosed).2⟩
    watches := fun stage hwatch =>
      ⟨(h.watches stage hwatch).1, fun _ => rfl, (h.watches stage hwatch).2.2⟩
    early := h.early
    finished := h.finished
    foreign := h.foreign }, id⟩

theorem Follows.watchTo {stage other : WatchExitStage}
    (hwatch : run.watching = some stage) (hreaped : run.child = .reaped)
    (hjoined : other.joined = true → run.pumping = false) :
    Follows run { run with watching := some other } where
  sessionId := rfl
  hosted := rfl
  orderly := {
    listens := h.listens
    closed := fun hclosed => by rw [(h.closed hclosed).2] at hwatch; cases hwatch
    watches := fun found hfound => by
      obtain ⟨⟩ := hfound
      exact ⟨(h.watches stage hwatch).1, hjoined, fun _ => hreaped⟩
    early := h.early
    finished := h.finished
    foreign := h.foreign }
  ended := id

theorem Follows.watch (hstep : run.watch = some next) : Follows run next := by
  unfold HolderRun.watch at hstep
  cases hwatch : run.watching with
  | none => simp [hwatch] at hstep
  | some stage =>
    obtain ⟨haccepting, hjoined, hreaped⟩ := h.watches stage hwatch
    have hopen : run.listening = false → False := fun hclosed => by
      rw [(h.closed hclosed).2] at hwatch
      cases hwatch
    cases stage with
    | waiting =>
      simp only [hwatch] at hstep
      split at hstep <;> obtain ⟨⟩ := hstep
      exact ⟨rfl, rfl, {
        listens := h.listens
        closed := fun hclosed => (hopen hclosed).elim
        watches := fun found hfound => by
          obtain ⟨⟩ := hfound
          exact ⟨haccepting, nofun, fun _ => rfl⟩
        early := fun hearly => by rw [haccepting] at hearly; cases hearly
        finished := fun _ => rfl
        foreign := h.foreign },
        fun _ => by simp [HolderRun.ended]⟩
    | finishing =>
      simp only [hwatch, some.injEq] at hstep
      subst hstep
      exact ⟨rfl, rfl, {
        listens := h.listens
        closed := fun hclosed => (hopen hclosed).elim
        watches := fun found hfound => by
          obtain ⟨⟩ := hfound
          exact ⟨haccepting, nofun, fun _ => hreaped nofun⟩
        early := h.early
        finished := fun _ => hreaped nofun
        foreign := h.foreign }, id⟩
    | joining =>
      simp only [hwatch] at hstep
      split at hstep <;> obtain ⟨⟩ := hstep
      exact .watchTo h hwatch (hreaped nofun) fun _ => by simpa using ‹¬run.pumping = true›
    | draining | marking | removing =>
      simp only [hwatch, some.injEq] at hstep
      subst hstep
      exact .watchTo h hwatch (hreaped nofun) fun _ => hjoined rfl
    | closing =>
      simp only [hwatch, some.injEq] at hstep
      subst hstep
      exact ⟨rfl, rfl, {
        listens := fun _ hl => by rw [haccepting] at hl; cases hl
        closed := fun _ => ⟨hjoined rfl, rfl⟩
        watches := nofun
        early := h.early
        finished := h.finished
        foreign := h.foreign }, id⟩

end

/-! ### Who claims a session, and when a run is over -/

theorem claims_of_proceed (hstep : run.proceed = some next) (hclaims : next.claims = true) :
    run.claims = true := by
  unfold HolderRun.proceed at hstep
  cases hstage : run.stage with
  | probing | returned => simp [hstage] at hstep
  | accepting =>
    simp only [hstage] at hstep
    split at hstep <;> obtain ⟨⟩ := hstep
    simp only [claims, hasChild, writes, RunStage.starts, hstage] at hclaims ⊢
    grind
  | _ => simp [claims, RunStage.starts, hstage]

theorem claims_of_fail (hstep : run.fail = some next) (hclaims : next.claims = true) :
    run.claims = true := by
  have hreturns : claims { run with stage := .returned } = true → run.claims = true := by
    intro hclaims
    simp only [claims, hasChild, writes, RunStage.starts] at hclaims ⊢
    grind
  unfold HolderRun.fail at hstep
  split at hstep
  · cases hstep
  · split at hstep <;> obtain ⟨⟩ := hstep
    exact hreturns hclaims
  · cases hstep
  · obtain ⟨⟩ := hstep
    exact hreturns hclaims

theorem claims_of_exit (hstep : run.exit = some next) (hclaims : next.claims = true) :
    run.claims = true := by
  unfold HolderRun.exit at hstep
  split at hstep <;> obtain ⟨⟩ := hstep
  simp only [claims, hasChild, writes] at hclaims ⊢
  grind

theorem claims_of_endPump (hstep : run.endPump = some next) : run.claims = true := by
  unfold HolderRun.endPump at hstep
  split at hstep
  · simp [claims, writes, *]
  · cases hstep

theorem claims_of_watch (hstep : run.watch = some next) (hclaims : next.claims = true) :
    run.claims = true := by
  unfold HolderRun.watch at hstep
  cases hwatch : run.watching with
  | none => simp [hwatch] at hstep
  | some stage =>
    cases stage with
    | waiting | finishing | joining | draining | marking =>
      simp [claims, writes, WatchExitStage.unmarked, hwatch]
    | removing | closing =>
      simp only [hwatch, some.injEq] at hstep
      subst hstep
      simp only [claims, hasChild, writes, hwatch, WatchExitStage.unmarked] at hclaims ⊢
      grind

/-- Only an exit, a failure and a check that finds another holder end what was not over. -/
theorem ended_of_proceed (h : run.Orderly) (hstep : run.proceed = some next)
    (hended : next.ended = true) : run.ended = true := by
  unfold HolderRun.proceed at hstep
  cases hstage : run.stage with
  | probing | returned => simp [hstage] at hstep
  | accepting =>
    simp only [hstage] at hstep
    split at hstep
    · simp [HolderRun.ended, h.finished ‹_›]
    · cases hstep
  | spawning =>
    simp only [hstage, some.injEq] at hstep
    subst hstep
    simp [HolderRun.ended] at hended
  | _ =>
    simp only [hstage, some.injEq] at hstep
    subst hstep
    simpa [HolderRun.ended, hstage] using hended

theorem ended_of_endPump (hstep : run.endPump = some next) (hended : next.ended = true) :
    run.ended = true := by
  unfold HolderRun.endPump at hstep
  split at hstep <;> obtain ⟨⟩ := hstep
  exact hended

theorem ended_of_watch (hstep : run.watch = some next) (hended : next.ended = true) :
    run.ended = true := by
  unfold HolderRun.watch at hstep
  split at hstep
  · cases hstep
  · split at hstep
    · simp [HolderRun.ended, *]
    · cases hstep
  · obtain ⟨⟩ := hstep
    exact hended
  · split at hstep <;> obtain ⟨⟩ := hstep
    exact hended
  all_goals
    obtain ⟨⟩ := hstep
    exact hended

end HolderRun

/-! ### One run of a session -/

/-- At most one of a session's runs has the property. -/
def AtMostOne (P : HolderRun → Bool) (runs : Table Nat HolderRun) : Prop :=
  ∀ id id' run run', runs.lookup id = some run → runs.lookup id' = some run' →
    run.sessionId = run'.sessionId → P run = true → P run' = true → id = id'

variable {P : HolderRun → Bool} {runs : Table Nat HolderRun} {id : Nat} {run next : HolderRun}

/-- None of the other runs of its session has the property. -/
def Alone (P : HolderRun → Bool) (runs : Table Nat HolderRun) (id : Nat) (run : HolderRun) : Prop :=
  ∀ other found, runs.lookup other = some found → found.sessionId = run.sessionId →
    P found = true → other = id

theorem AtMostOne.alone (h : AtMostOne P runs) (hlookup : runs.lookup id = some run)
    (hrun : P run = true) : Alone P runs id run :=
  fun other found hfound hsession hP => h other id found run hfound hlookup hsession hP hrun

theorem AtMostOne.adjust (h : AtMostOne P runs) (hlookup : runs.lookup id = some run)
    (hsession : next.sessionId = run.sessionId)
    (hnext : P next = true → P run = true ∨ Alone P runs id run) :
    AtMostOne P (runs.adjust id fun _ => next) := by
  have halone : P next = true → Alone P runs id run := fun hP =>
    (hnext hP).elim (h.alone hlookup) fun halone => halone
  intro id₁ id₂ run₁ run₂ h₁ h₂ hsame hP₁ hP₂
  rcases Table.lookup_adjust h₁ with ⟨-, hold₁⟩ | ⟨rfl, -, -, rfl⟩ <;>
    rcases Table.lookup_adjust h₂ with ⟨-, hold₂⟩ | ⟨rfl, -, -, rfl⟩
  · exact h id₁ id₂ run₁ run₂ hold₁ hold₂ hsame hP₁ hP₂
  · exact halone hP₂ id₁ run₁ hold₁ (hsame.trans hsession) hP₁
  · exact (halone hP₁ id₂ run₂ hold₂ (hsame.symm.trans hsession) hP₂).symm
  · rfl

theorem AtMostOne.insert (h : AtMostOne P runs)
    (hrun : P run = true → Alone P runs id run) : AtMostOne P (AList.insert id run runs) := by
  intro id₁ id₂ run₁ run₂ h₁ h₂ hsame hP₁ hP₂
  rcases Table.lookup_insert_cases h₁ with ⟨rfl, rfl⟩ | ⟨-, hold₁⟩ <;>
    rcases Table.lookup_insert_cases h₂ with ⟨rfl, rfl⟩ | ⟨-, hold₂⟩
  · rfl
  · exact (hrun hP₁ id₂ run₂ hold₂ hsame.symm hP₂).symm
  · exact hrun hP₂ id₁ run₁ hold₁ hsame hP₁
  · exact h id₁ id₂ run₁ run₂ hold₁ hold₂ hsame hP₁ hP₂

end Diri
