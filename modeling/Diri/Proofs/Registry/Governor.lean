/-
What the governor stops, and how often.

What a sweep may still stop it has in hand (`hands`): the records it copied that looked
idle, the candidates it collected, and, once the time is known, only those of them that a
rule still to come may pick.  Each step takes out of the hand what it stops or passes
over.  A session in hand is `Ready` if stopping it now would be right; whoever else is at
work in between may end that (`Careful`), and so may the sweep itself, which looks for
the budget at the same candidates that it has just stopped for being idle.
-/
import Diri.Engine.Governor
import Diri.Proofs.Registry.Orphans

namespace Diri

open List

/-- The session was idle and nobody's, and ran. -/
structure Stop.Unattended (stop : Stop) : Prop where
  idle : stop.status = some .idle
  unpinned : stop.pinned = false
  running : stop.hibernated = false
  unattached : stop.attached = false

namespace Governed

variable {φ : Type} {chars : CharClass} {floats : Floats φ} {config : GovernorConfig φ}
  {state next : Governed}

/-! ### What the sweep has in hand -/

/-- Copied records that may be stopped, as far as the copy says. -/
def eligible (records : List SessionRecord) : List (SessionId × Bool) :=
  (records.filter fun record => (record.idleSince false).isSome).map fun record =>
    (record.id, false)

def current (record : SessionRecord) (attached : Bool) : List (SessionId × Bool) :=
  if (record.idleSince attached).isSome then [(record.id, true)] else []

def tested (candidates : List IdleCandidate) : List (SessionId × Bool) :=
  candidates.map fun candidate => (candidate.id, true)

/-- The sessions that the sweep may still stop, and whether it looked for sinks of theirs. -/
def hands (floats : Floats φ) (config : GovernorConfig φ) (candidates : List IdleCandidate) :
    SweepPoint → List (SessionId × Bool)
  | .look records => eligible records ++ tested candidates
  | .enumerate record rest => eligible (record :: rest) ++ tested candidates
  | .testSinks record _ rest => eligible (record :: rest) ++ tested candidates
  | .sample record _ attached rest =>
    current record attached ++ (eligible rest ++ tested candidates)
  | .judge record _ attached rest =>
    current record attached ++ (eligible rest ++ tested candidates)
  | .idle rest now =>
    tested (candidates.filter fun candidate =>
      candidate ∈ rest || !idleRule floats config now candidate)
  | .budget rest _ now =>
    tested (rest.filter fun candidate => !idleRule floats config now candidate)
  | .done => []

/-- If the session is there, then it is idle and nobody's, and runs. -/
def Ready (state : Governed) (hand : SessionId × Bool) : Prop :=
  ∀ session ∈ state.registry.sessions.lookup hand.1,
    session.view.status = .idle ∧
    (state.registry.records.lookup hand.1).any (·.pinned) = false ∧
    (state.registry.records.lookup hand.1).any (·.hibernation.isSome) = false ∧
    (hand.2 = true → state.hasSinks hand.1 = false)

instance (state : Governed) (hand : SessionId × Bool) : Decidable (state.Ready hand) :=
  inferInstanceAs (Decidable (∀ session ∈ state.registry.sessions.lookup hand.1, _))

/-- What is still to be passed over in the idle pass was collected. -/
def Within (candidates : List IdleCandidate) : SweepPoint → Prop
  | .idle rest _ => rest.Sublist candidates
  | _ => True

structure Inv (floats : Floats φ) (config : GovernorConfig φ) (state : Governed) : Prop where
  ready : ∀ hand ∈ hands floats config state.sweep.idleCandidates state.sweep.point,
    state.Ready hand
  nodup : ((hands floats config state.sweep.idleCandidates state.sweep.point).map (·.1)).Nodup
  distinct : (state.sweep.idleCandidates.map (·.id)).Nodup
  within : Within state.sweep.idleCandidates state.sweep.point
  spared : ∀ stop ∈ state.stops,
    stop.id ∉ (hands floats config state.sweep.idleCandidates state.sweep.point).map (·.1)
  once : (state.stops.map (·.id)).Nodup
  unattended : ∀ stop ∈ state.stops, stop.Unattended

/-! ### Steps that stop nothing -/

theorem Inv.quiet (h : Inv floats config state)
    (hhands : ((hands floats config next.sweep.idleCandidates next.sweep.point).map
      (·.1)).Subperm ((hands floats config state.sweep.idleCandidates state.sweep.point).map (·.1)))
    (hready : ∀ hand ∈ hands floats config next.sweep.idleCandidates next.sweep.point,
      next.Ready hand)
    (hdistinct : (next.sweep.idleCandidates.map (·.id)).Nodup)
    (hwithin : Within next.sweep.idleCandidates next.sweep.point)
    (hstops : next.stops = state.stops) : Inv floats config next where
  ready := hready
  nodup := by
    obtain ⟨ids, hperm, hsub⟩ := hhands
    exact hperm.nodup_iff.mp (h.nodup.sublist hsub)
  distinct := hdistinct
  within := hwithin
  spared := by
    rw [hstops]
    exact fun stop hstop hmem => h.spared stop hstop (hhands.subset hmem)
  once := by
    rw [hstops]
    exact h.once
  unattended := by
    rw [hstops]
    exact h.unattended

variable {point : SweepPoint} {record : SessionRecord}

theorem Inv.goTo (h : Inv floats config state) (hframe : ∀ hand, state.Ready hand → next.Ready hand)
    (hsweep : next.sweep.idleCandidates = state.sweep.idleCandidates)
    (hpoint : next.sweep.point = point) (hstops : next.stops = state.stops)
    (hhands : (hands floats config state.sweep.idleCandidates point).Subperm
      (hands floats config state.sweep.idleCandidates state.sweep.point))
    (hwithin : Within state.sweep.idleCandidates point) : Inv floats config next := by
  subst hpoint
  rw [← hsweep] at hhands hwithin
  refine h.quiet ?_ ?_ ?_ hwithin hstops
  · rw [← hsweep]
    obtain ⟨kept, hperm, hsub⟩ := hhands
    exact ⟨kept.map (·.1), hperm.map _, hsub.map _⟩
  · intro hand hhand
    refine hframe hand (h.ready hand ?_)
    rw [← hsweep]
    exact hhands.subset hhand
  · rw [hsweep]
    exact h.distinct

/-! ### The world between two steps -/

theorem ready_occupy (footprint : UInt64) (point : SweepPoint) :
    ∀ hand, state.Ready hand → ((state.occupy footprint).goTo point).Ready hand :=
  fun _ hready => hready

theorem ready_applySample (id : SessionId) (memory : UInt64) (point : SweepPoint) :
    ∀ hand, state.Ready hand → ((state.applySample id memory).goTo point).Ready hand := by
  intro hand hready session hsession
  obtain ⟨hidle, hpinned, hrunning, hfree⟩ := hready session hsession
  have hkept : ∀ p : SessionRecord → Bool,
      (∀ record, p { record with memoryBytes := some memory } = p record) →
        ((state.registry.applyResourceSample id memory).records.lookup hand.1).any p
          = (state.registry.records.lookup hand.1).any p := by
    intro p hp
    unfold Registry.applyResourceSample
    by_cases hid : hand.1 = id
    · rw [hid, Table.lookup_adjust_self, Option.any_map]
      congr 1
      funext record
      exact hp record
    · rw [Table.lookup_adjust_ne hid]
  refine ⟨hidle, ?_, ?_, hfree⟩
  · exact (hkept (·.pinned) fun _ => rfl).trans hpinned
  · exact (hkept (·.hibernation.isSome) fun _ => rfl).trans hrunning

theorem ready_hibernate {id : SessionId} {reason : HibernationReason}
    {answers : GovernorAnswers} {hand : SessionId × Bool}
    (hother : hand.1 ≠ id) (hready : state.Ready hand) :
    ((state.hibernate id reason answers).goTo point).Ready hand := by
  intro session hsession
  simp only [hibernate, Governed.goTo] at hsession
  rcases state.registry.hibernate_cases id reason answers.stopped answers.now with
    ⟨error, hfailed⟩ | ⟨info, hstopped⟩
  · rw [hfailed] at hsession
    simp only [hibernate, Governed.goTo, hfailed]
    exact hready session hsession
  rw [hstopped] at hsession
  simp only [Registry.setHibernation, Table.lookup_adjust_ne hother] at hsession
  simp only [hibernate, Governed.goTo, hstopped, Registry.setHibernation,
    Table.lookup_adjust_ne hother]
  exact hready session hsession

/-! ### A stop -/

theorem Inv.stop (h : Inv floats config state) {id : SessionId} (reason : HibernationReason)
    (answers : GovernorAnswers)
    (hhand : (id, true) ∈ hands floats config state.sweep.idleCandidates state.sweep.point)
    (hhands : (hands floats config state.sweep.idleCandidates point).Sublist
      (hands floats config state.sweep.idleCandidates state.sweep.point))
    (hout : id ∉ (hands floats config state.sweep.idleCandidates point).map (·.1))
    (hwithin : Within state.sweep.idleCandidates point) :
    Inv floats config ((state.hibernate id reason answers).goTo point) where
  ready hand hmem := by
    refine ready_hibernate ?_ (h.ready hand (hhands.subset hmem))
    rintro rfl
    exact hout (mem_map_of_mem hmem)
  nodup := h.nodup.sublist (hhands.map _)
  distinct := h.distinct
  within := hwithin
  spared stop hstop hmem := by
    simp only [hibernate, Governed.goTo] at hstop
    split at hstop
    · rcases List.mem_append.mp hstop with hold | hnew
      · exact h.spared stop hold ((hhands.map _).subset hmem)
      · rw [List.mem_singleton.mp hnew] at hmem
        exact hout hmem
    · exact h.spared stop hstop ((hhands.map _).subset hmem)
  once := by
    simp only [hibernate, Governed.goTo]
    split
    · rw [map_append, map_singleton, nodup_append]
      refine ⟨h.once, nodup_singleton _, ?_⟩
      rintro other hother _ hnew rfl
      obtain ⟨stop, hstop, hid⟩ := List.mem_map.mp hother
      refine h.spared stop hstop ?_
      rw [hid, List.mem_singleton.mp hnew]
      exact mem_map_of_mem hhand
    · exact h.once
  unattended stop hstop := by
    simp only [hibernate, Governed.goTo] at hstop
    split at hstop
    · next hstopped =>
      rcases List.mem_append.mp hstop with hold | hnew
      · exact h.unattended stop hold
      rw [List.mem_singleton.mp hnew]
      obtain ⟨session, hsession⟩ :=
        Option.isSome_iff_exists.mp (AList.lookup_isSome.mpr hstopped.1)
      obtain ⟨hidle, hpinned, hrunning, hfree⟩ := h.ready _ hhand session hsession
      refine ⟨?_, hpinned, hrunning, hfree rfl⟩
      rw [stopOf, hsession, Option.map_some, hidle]
    · exact h.unattended stop hstop

/-! ### One step of the sweep -/

theorem eligible_tail (record : SessionRecord) (rest : List SessionRecord) :
    (eligible rest).Sublist (eligible (record :: rest)) :=
  ((sublist_cons_self record rest).filter _).map _

theorem free_of_idleSince {attached : Bool} (h : (record.idleSince attached).isSome = true) :
    attached = false ∧ (record.idleSince false).isSome = true := by
  cases attached with
  | false => exact ⟨rfl, h⟩
  | true =>
    unfold SessionRecord.idleSince at h
    simp at h

/-- What is in hand of a record once its sinks were looked for was in hand before. -/
theorem current_sublist (record : SessionRecord) (attached : Bool) (rest : List SessionRecord) :
    ((current record attached ++ eligible rest).map (·.1)).Sublist
      ((eligible (record :: rest)).map (·.1)) := by
  unfold current
  by_cases hidle : (record.idleSince attached).isSome = true
  · have hcopied := (free_of_idleSince hidle).2
    have hcons : eligible (record :: rest) = (record.id, false) :: eligible rest := by
      simp only [eligible, filter_cons, hcopied, if_true, map_cons]
    rw [if_pos hidle, hcons]
    exact List.Sublist.refl _
  · rw [if_neg hidle, nil_append]
    exact (eligible_tail record rest).map _

theorem tested_sublist {candidates others : List IdleCandidate}
    (h : candidates.Sublist others) : (tested candidates).Sublist (tested others) := h.map _

theorem perm_byOldest (candidates : List IdleCandidate) :
    (byOldest candidates).Perm candidates := mergeSort_perm _ _

theorem Inv.look (h : Inv floats config state) {records : List SessionRecord}
    (hpoint : state.sweep.point = .look records) (answers : GovernorAnswers) :
    Inv floats config (state.advance floats config answers) := by
  cases records with
  | nil =>
    simp only [advance, hpoint]
    refine h.goTo (fun _ hready => hready) rfl rfl rfl ?_ (List.Sublist.refl _)
    rw [hpoint]
    exact (tested_sublist filter_sublist).subperm
  | cons record rest =>
    have hrest : (hands floats config state.sweep.idleCandidates (.look rest)).Subperm
        (hands floats config state.sweep.idleCandidates state.sweep.point) := by
      rw [hpoint]
      exact ((eligible_tail record rest).append (List.Sublist.refl _)).subperm
    simp only [advance, hpoint]
    split
    · split
      · refine h.goTo (fun hand hready => ?_) rfl rfl rfl hrest trivial
        exact ready_applySample record.id answers.footprint (.look rest) hand hready
      · exact h.goTo (ready_occupy _ _) rfl rfl rfl hrest trivial
    split
    · refine h.goTo (fun _ hready => hready) rfl rfl rfl ?_ trivial
      rw [hpoint]
      exact List.Subperm.refl _
    · exact h.goTo (fun _ hready => hready) rfl rfl rfl hrest trivial

theorem Inv.testSinks (h : Inv floats config state) {footprint : UInt64} {rest : List SessionRecord}
    (hpoint : state.sweep.point = .testSinks record footprint rest) (answers : GovernorAnswers) :
    Inv floats config (state.advance floats config answers) := by
  have hready := h.ready
  rw [hpoint] at hready
  simp only [advance, hpoint]
  refine h.quiet ?_ ?_ h.distinct trivial rfl
  · rw [hpoint]
    simp only [Governed.goTo, hands, map_append, ← append_assoc]
    rw [← map_append]
    exact ((current_sublist record _ rest).append (List.Sublist.refl _)).subperm
  intro hand hhand
  rcases mem_append.mp hhand with hcurrent | hother
  · unfold current at hcurrent
    by_cases hidle : (record.idleSince (state.hasSinks record.id)).isSome = true
    · obtain ⟨hfree, hcopied⟩ := free_of_idleSince hidle
      rw [if_pos hidle, mem_singleton] at hcurrent
      subst hcurrent
      intro session hsession
      have hmem : (record.id, false) ∈
          hands floats config state.sweep.idleCandidates (.testSinks record footprint rest) :=
        mem_append_left _ (mem_map.mpr ⟨record, mem_filter.mpr ⟨mem_cons_self, hcopied⟩, rfl⟩)
      obtain ⟨hstatus, hpinned, hrunning, -⟩ := hready _ hmem session hsession
      exact ⟨hstatus, hpinned, hrunning, fun _ => hfree⟩
    · rw [if_neg hidle] at hcurrent
      cases hcurrent
  · refine hready hand ?_
    exact ((eligible_tail record rest).append (List.Sublist.refl _)).subset hother

theorem Inv.judge (h : Inv floats config state)
    {footprint : UInt64} {attached : Bool} {rest : List SessionRecord}
    (hpoint : state.sweep.point = .judge record footprint attached rest)
    (answers : GovernorAnswers) : Inv floats config (state.advance floats config answers) := by
  have hnodup := h.nodup
  rw [hpoint] at hnodup
  have hrest : (hands floats config state.sweep.idleCandidates (.look rest)).Sublist
      (hands floats config state.sweep.idleCandidates state.sweep.point) := by
    rw [hpoint]
    exact sublist_append_right _ _
  simp only [advance, hpoint]
  cases hsince : record.idleSince attached with
  | none => exact h.goTo (fun _ hready => hready) rfl rfl rfl hrest.subperm trivial
  | some since =>
    have hcurrent : current record attached = [(record.id, true)] := by
      simp only [current, hsince, Option.isSome_some, if_true]
    simp only [hands, hcurrent, singleton_append, map_cons, nodup_cons] at hnodup
    have hhand : (record.id, true) ∈
        hands floats config state.sweep.idleCandidates state.sweep.point := by
      rw [hpoint]
      exact mem_append_left _ (hcurrent ▸ mem_singleton_self _)
    simp only []
    split
    · exact h.stop _ answers hhand hrest hnodup.1 trivial
    have hnew : record.id ∉ state.sweep.idleCandidates.map (·.id) := by
      intro hmem
      refine hnodup.1 ?_
      rw [map_append]
      refine mem_append_right _ ?_
      rw [tested, map_map]
      exact hmem
    have hperm : (eligible rest ++ tested (state.sweep.idleCandidates ++
        [⟨record.id, since, footprint⟩])).Perm
          (hands floats config state.sweep.idleCandidates state.sweep.point) := by
      rw [hpoint]
      simp only [hands, hcurrent, tested, map_append, map_singleton,
        singleton_append, ← append_assoc]
      exact perm_append_singleton _ _
    refine h.quiet (hperm.map _).subperm (fun hand hmem => ?_) ?_ trivial rfl
    · exact h.ready hand (hperm.subset hmem)
    simp only [addCandidate, Governed.goTo, map_append, map_singleton]
    rw [nodup_append]
    refine ⟨h.distinct, nodup_singleton _, ?_⟩
    rintro id hid _ hsame rfl
    rw [mem_singleton.mp hsame] at hid
    exact hnew hid

theorem mem_tested {candidate : IdleCandidate} {candidates : List IdleCandidate}
    (h : candidate ∈ candidates) : (candidate.id, true) ∈ tested candidates :=
  mem_map_of_mem h

theorem Inv.idle (h : Inv floats config state) {rest : List IdleCandidate} {now : DateMillis}
    (hpoint : state.sweep.point = .idle rest now) (answers : GovernorAnswers) :
    Inv floats config (state.advance floats config answers) := by
  have hwithin := h.within
  rw [hpoint] at hwithin
  cases rest with
  | nil =>
    simp only [advance, hpoint]
    split
    · refine h.goTo (fun _ hready => hready) rfl rfl rfl ?_ trivial
      rw [hpoint]
      refine (List.Perm.subperm ?_)
      simp only [hands, not_mem_nil, decide_false, Bool.false_or]
      exact ((perm_byOldest _).filter _).map _
    · refine h.goTo (fun _ hready => hready) rfl rfl rfl ?_ trivial
      exact nil_subperm
  | cons candidate rest =>
    have hrest : (hands floats config state.sweep.idleCandidates (.idle rest now)).Sublist
        (hands floats config state.sweep.idleCandidates state.sweep.point) := by
      rw [hpoint]
      refine tested_sublist (monotone_filter_right _ fun other hother => ?_)
      simp only [Bool.or_eq_true, decide_eq_true_eq] at hother ⊢
      exact hother.imp_left (mem_cons_of_mem _)
    have hin : candidate ∈ state.sweep.idleCandidates := hwithin.subset mem_cons_self
    simp only [advance, hpoint]
    split
    · next hpicked =>
      refine h.stop _ answers ?_ hrest ?_ ((sublist_cons_self _ _).trans hwithin)
      · rw [hpoint]
        refine mem_tested (mem_filter.mpr ⟨hin, ?_⟩)
        simp
      intro hmem
      obtain ⟨hand, hhand, hid⟩ := mem_map.mp hmem
      obtain ⟨other, hother, rfl⟩ := mem_map.mp hhand
      obtain ⟨hcollected, hkept⟩ := mem_filter.mp hother
      obtain rfl : other = candidate := inj_on_of_nodup_map h.distinct hcollected hin hid
      have hlater : other ∉ rest := by
        have hids := h.distinct.sublist (hwithin.map (·.id))
        rw [map_cons, nodup_cons] at hids
        exact fun hmem => hids.1 (mem_map_of_mem hmem)
      simp [hlater, hpicked] at hkept
    · exact h.goTo (fun _ hready => hready) rfl rfl rfl hrest.subperm
        ((sublist_cons_self _ _).trans hwithin)

theorem Inv.budget (h : Inv floats config state) {rest : List IdleCandidate} {excess : UInt64}
    {now : DateMillis} (hpoint : state.sweep.point = .budget rest excess now)
    (answers : GovernorAnswers) (hspares : ∀ candidate ∈ rest.head?, excess ≠ 0 →
      budgetRule floats config now candidate = true →
        idleRule floats config now candidate = false) :
    Inv floats config (state.advance floats config answers) := by
  have hdone : (hands floats config state.sweep.idleCandidates .done).Subperm
      (hands floats config state.sweep.idleCandidates state.sweep.point) := nil_subperm
  cases rest with
  | nil =>
    simp only [advance, hpoint]
    exact h.goTo (fun _ hready => hready) rfl rfl rfl hdone trivial
  | cons candidate rest =>
    have hrest : ∀ excess,
        (hands floats config state.sweep.idleCandidates (.budget rest excess now)).Sublist
          (hands floats config state.sweep.idleCandidates state.sweep.point) := by
      intro excess
      rw [hpoint]
      exact tested_sublist ((sublist_cons_self candidate rest).filter _)
    simp only [advance, hpoint]
    split
    · exact h.goTo (fun _ hready => hready) rfl rfl rfl hdone trivial
    next hexcess =>
      split
      · next hpicked =>
        have hspared := hspares candidate rfl hexcess hpicked
        have hhands : hands floats config state.sweep.idleCandidates state.sweep.point
            = (candidate.id, true) ::
              hands floats config state.sweep.idleCandidates (.budget rest excess now) := by
          rw [hpoint]
          simp only [hands, tested, filter_cons, hspared, Bool.not_false, if_true, map_cons]
        have hnodup := h.nodup
        rw [hhands, map_cons, nodup_cons] at hnodup
        refine h.stop _ answers ?_ (hrest _) hnodup.1 trivial
        rw [hhands]
        exact mem_cons_self
      · exact h.goTo (fun _ hready => hready) rfl rfl rfl (hrest _).subperm trivial

/-- The budget pass does not pick what the idle pass picked. -/
def Spares (floats : Floats φ) (config : GovernorConfig φ) : SweepPoint → Prop
  | .budget rest excess now => ∀ candidate ∈ rest.head?, excess ≠ 0 →
      budgetRule floats config now candidate = true → idleRule floats config now candidate = false
  | _ => True

instance (floats : Floats φ) (config : GovernorConfig φ) :
    ∀ point, Decidable (Spares floats config point)
  | .budget rest _ _ => inferInstanceAs (Decidable (∀ candidate ∈ rest.head?, _))
  | .look _ | .enumerate _ _ | .testSinks _ _ _ | .sample _ _ _ _ | .judge _ _ _ _ | .idle _ _
  | .done => .isTrue trivial

/-- What a step needs: that the sweep does not come to a session twice, and that others leave
ready what the sweep has in hand. -/
def Careful (chars : CharClass) (floats : Floats φ) (config : GovernorConfig φ)
    (state : Governed) : GovernorStep → Prop
  | .sweep _ => Spares floats config state.sweep.point
  | .meanwhile event =>
    ∀ hand ∈ hands floats config state.sweep.idleCandidates state.sweep.point,
      state.Ready hand → (state.meanwhile chars event).Ready hand

instance (state : Governed) : ∀ step, Decidable (state.Careful chars floats config step)
  | .sweep _ => inferInstanceAs (Decidable (Spares floats config state.sweep.point))
  | .meanwhile _ => inferInstanceAs (Decidable (∀ hand ∈ hands floats config _ _, _))

theorem Inv.advance (h : Inv floats config state) (answers : GovernorAnswers)
    (hcareful : state.Careful chars floats config (.sweep answers)) :
    Inv floats config (state.advance floats config answers) := by
  cases hpoint : state.sweep.point with
  | look records => exact h.look hpoint answers
  | enumerate record rest =>
    simp only [Governed.advance, hpoint]
    refine h.goTo (ready_occupy _ _) rfl rfl rfl ?_ trivial
    rw [hpoint]
    exact List.Subperm.refl _
  | testSinks record footprint rest => exact h.testSinks hpoint answers
  | sample record footprint attached rest =>
    simp only [Governed.advance, hpoint]
    refine h.goTo (ready_applySample _ _ _) rfl rfl rfl ?_ trivial
    rw [hpoint]
    exact List.Subperm.refl _
  | judge record footprint attached rest => exact h.judge hpoint answers
  | idle rest now => exact h.idle hpoint answers
  | budget rest excess now =>
    simp only [Careful, hpoint] at hcareful
    exact h.budget hpoint answers hcareful
  | done =>
    simp only [Governed.advance, hpoint]
    exact h

theorem meanwhile_frame (chars : CharClass) (event : Meanwhile) (state : Governed) :
    (state.meanwhile chars event).sweep = state.sweep ∧
      (state.meanwhile chars event).stops = state.stops := by
  cases event <;> exact ⟨rfl, rfl⟩

theorem Inv.step (h : Inv floats config state) {step : GovernorStep}
    (hcareful : state.Careful chars floats config step)
    (hstep : state.step chars floats config step = some next) : Inv floats config next := by
  cases step with
  | sweep answers =>
    obtain ⟨⟩ := hstep
    exact h.advance answers hcareful
  | meanwhile event =>
    obtain ⟨⟩ := hstep
    obtain ⟨hsweep, hstops⟩ := state.meanwhile_frame chars event
    refine h.quiet ?_ ?_ ?_ ?_ hstops
    · rw [hsweep]
    · rw [hsweep]
      exact fun hand hmem => hcareful hand hmem (h.ready hand hmem)
    · rw [hsweep]
      exact h.distinct
    · rw [hsweep]
      exact h.within

theorem inv_start (chars : CharClass) (floats : Floats φ) (config : GovernorConfig φ)
    {registry : Registry} (hkeyed : registry.Keyed) (resumes : String → String → Bool)
    (sinks : Table SessionId (List Nat)) (tick : UInt64) :
    Inv floats config (start chars resumes registry sinks tick) where
  ready hand hmem session hsession := by
    simp only [start, hands, tested, map_nil, append_nil] at hmem
    obtain ⟨record, hrecord, rfl⟩ := List.mem_map.mp hmem
    obtain ⟨hlisted, hidle⟩ := List.mem_filter.mp hrecord
    obtain ⟨id, stored, hstored, rfl⟩ := Registry.mem_listRecords hlisted
    obtain ⟨hhibernation, hpinned, hstatus⟩ := registry.foldLive_kept chars resumes stored
    have hid := (registry.foldLive_id chars resumes stored).1
    rw [hid] at hsession ⊢
    obtain rfl : stored.id = id := hkeyed id stored hstored
    have hrules : (registry.foldLive chars resumes stored).status = .idle ∧
        stored.pinned = false ∧ stored.hibernation.isSome = false := by
      unfold SessionRecord.idleSince at hidle
      rw [hhibernation, hpinned] at hidle
      revert hidle
      cases stored.hibernation.isSome <;> cases stored.pinned <;>
        by_cases hnow : (registry.foldLive chars resumes stored).status = .idle <;> simp [hnow]
    simp only [start, hstored, Option.any_some]
    exact ⟨(hstatus session hsession).symm.trans hrules.1, hrules.2.1, hrules.2.2, nofun⟩
  nodup := by
    simp only [start, hands, tested, map_nil, append_nil, eligible, map_map]
    exact (hkeyed.nodup_listRecords chars resumes).sublist (List.filter_sublist.map _)
  distinct := nodup_nil
  within := trivial
  spared _ hstop := by cases hstop
  once := nodup_nil
  unattended _ hstop := by cases hstop

end Governed

/--
**The governor freezes no session in use, and none twice in one sweep**, in every run of a
sweep among any other calls, attachments and pins, as long as nobody takes a session that
the sweep has in hand out of what the sweep saw, and no session that is picked for being
idle comes up again for the budget.
-/
theorem governor_spares_sessions_in_use {φ : Type} (chars : CharClass)
    (resumes : String → String → Bool) (floats : Floats φ) (config : GovernorConfig φ)
    (records : List SessionRecord) (calls : List RegistryCall)
    (sinks : Table SessionId (List Nat)) (tick : UInt64) (steps : List GovernorStep)
    {state : Governed}
    (hcareful : Meets (Governed.Careful chars floats config) (Governed.step chars floats config)
      (.start chars resumes (run (RegistryCall.step chars) (.loaded records) calls).1 sinks tick)
      steps) (hrun : partialRun (Governed.step chars floats config)
      (.start chars resumes (run (RegistryCall.step chars) (.loaded records) calls).1 sinks tick)
      steps = some state) :
    (∀ stop ∈ state.stops, stop.Unattended) ∧ (state.stops.map (·.id)).Nodup := by
  have hstart := Governed.inv_start chars floats config (Registry.keyed_run chars records calls)
    resumes sinks tick
  have hinv := hcareful.invariant (fun _ _ _ h hcareful hstep => Governed.Inv.step h hcareful hstep)
    hstart hrun
  exact ⟨hinv.unattended, hinv.once⟩

/-! ### A session in use, and one that is stopped twice -/

/-- Whole seconds, and all of the memory. -/
def wholeSeconds : Floats Nat where
  isPositive seconds := 0 < seconds
  longerThan now since seconds := 1000 * seconds < now.sinceEpoch - since.sinceEpoch
  share memory _ := memory

def defaultGovernor : GovernorConfig Nat where
  idleThresholdSeconds := 900
  hardMemoryBytes := 1000
  globalBudgetFraction := 1
  budgetMinIdleSeconds := 300
  hibernatedSampleEvery := 5

def idleRecord : SessionRecord where
  id := "s_1"
  kind := "codex"
  cwd := "/work"
  title := "codex"
  titleSource := .placeholder
  status := .idle
  resumability := .live
  createdAt := ⟨0⟩
  updatedAt := ⟨0⟩

/-- A sweep over one session that has been idle for an hour. -/
def idleSweep : Governed :=
  .start asciiChars (fun _ _ => false)
    (run (RegistryCall.step asciiChars) (.loaded [])
      [.spawn idleRecord (.ok { view := { status := .idle } })]).1 ∅ 1

def looksAtIt : List GovernorStep :=
  [.sweep { childPid := 7 }, .sweep { footprint := 500 }, .sweep {}, .sweep {}, .sweep {}]

/-- It is stopped once, for being idle. -/
theorem governor_spares_sessions_in_use_idle :
    ∃ state, partialRun (Governed.step asciiChars wholeSeconds defaultGovernor) idleSweep
        (looksAtIt ++ [.sweep { now := ⟨3600000⟩ }, .sweep {}]) = some state ∧
      state.stops.map (·.reason) = [.idle] ∧
      (∀ stop ∈ state.stops, stop.Unattended) ∧ (state.stops.map (·.id)).Nodup := by
  refine ⟨_, rfl, by decide +kernel, ?_⟩
  exact governor_spares_sessions_in_use asciiChars (fun _ _ => false) wholeSeconds defaultGovernor
    [] [.spawn idleRecord (.ok { view := { status := .idle } })] ∅ 1
    (looksAtIt ++ [.sweep { now := ⟨3600000⟩ }, .sweep {}]) (by decide +kernel) rfl

/-- A client attaches after the sweep looked for sinks, and is frozen out; and where the machine
has no memory left, the session that was stopped for being idle is stopped for that too. -/
theorem governor_stops_attached :
    (∃ state, partialRun (Governed.step asciiChars wholeSeconds defaultGovernor) idleSweep
        (looksAtIt ++ [.meanwhile (.attach "s_1" 1), .sweep { now := ⟨3600000⟩ }, .sweep {}])
          = some state ∧
      ∃ stop ∈ state.stops, stop.attached = true) ∧
    ∃ state, partialRun (Governed.step asciiChars wholeSeconds defaultGovernor) idleSweep
        (looksAtIt ++ [.sweep { now := ⟨3600000⟩ }, .sweep {}, .sweep { physicalMemory := 400 },
          .sweep {}]) = some state ∧
      state.stops.map (·.id) = ["s_1", "s_1"] ∧
      state.stops.map (·.reason) = [.idle, .memoryPressure] ∧
      state.stops.map (·.hibernated) = [false, true] := by
  refine ⟨⟨_, rfl, by decide +kernel⟩, _, rfl, ?_⟩
  decide +kernel

end Diri
