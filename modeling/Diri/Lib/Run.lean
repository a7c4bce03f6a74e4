/-
Runs of a deterministic machine, kept together with their past.

A machine is a function `f : σ → ι → σ × ο`.  `run` folds inputs into the state
and records every step taken, most recent first, so that a property of a run can
speak about what happened since some earlier step.  `run_induction` is the one
induction over a run, and `run_suffix` says that any moment of a run is the end
of a shorter run, so a fact about the last step of every run is a fact about
every step.

`Since` is the past-time operator "`start` happened, and `hold` has been true of
every step after it".
-/
import Mathlib.Data.List.Basic
import Mathlib.Data.List.Induction

namespace Diri

open List Option

variable {σ ι ο : Type}

/-- One step of a run: where it started, the input, where it ended, the output. -/
structure Taken (σ ι ο : Type) where
  before : σ
  input : ι
  after : σ
  output : ο

/-- The step `f` takes from `s` on `i`. -/
def taken (f : σ → ι → σ × ο) (s : σ) (i : ι) : Taken σ ι ο :=
  ⟨s, i, (f s i).1, (f s i).2⟩

/-- Feed one more input to a run. -/
def advance (f : σ → ι → σ × ο) (r : σ × List (Taken σ ι ο)) (i : ι) : σ × List (Taken σ ι ο) :=
  ((f r.1 i).1, taken f r.1 i :: r.2)

/-- The state a run ends in, and the steps it took, most recent first. -/
def run (f : σ → ι → σ × ο) (s : σ) (is : List ι) : σ × List (Taken σ ι ο) :=
  is.foldl (advance f) (s, [])

@[simp] theorem run_nil (f : σ → ι → σ × ο) (s : σ) : run f s [] = (s, []) := rfl

@[simp] theorem run_concat (f : σ → ι → σ × ο) (s : σ) (is : List ι) (i : ι) :
    run f s (is ++ [i]) = advance f (run f s is) i := by
  simp [run]

variable {f : σ → ι → σ × ο} {s : σ} {is : List ι} {cond : σ → ι → Prop}

/-- What holds at the start and survives every step holds at the end of every run. -/
theorem run_induction {P : σ → List (Taken σ ι ο) → Prop} (hinit : P s [])
    (hstep : ∀ r h i, P r h → P (f r i).1 (taken f r i :: h)) (is : List ι) :
    P (run f s is).1 (run f s is).2 := by
  induction is using reverseRecOn with
  | nil => exact hinit
  | append_singleton is i ih =>
    rw [run_concat]
    exact hstep _ _ i ih

/-- A run's record lists its inputs. -/
theorem run_inputs (f : σ → ι → σ × ο) (s : σ) (is : List ι) :
    (run f s is).2.map Taken.input = is.reverse := by
  induction is using reverseRecOn with
  | nil => rfl
  | append_singleton is i ih =>
    rw [run_concat, reverse_append]
    show i :: (run f s is).2.map Taken.input = [i] ++ is.reverse
    rw [ih, singleton_append]

/-- The most recent step ends where the run ends. -/
theorem run_head_after {e : Taken σ ι ο}
    {past : List (Taken σ ι ο)} (h : (run f s is).2 = e :: past) : e.after = (run f s is).1 := by
  induction is using reverseRecOn with
  | nil => simp at h
  | append_singleton is i _ =>
    rw [run_concat] at h ⊢
    simp only [advance, List.cons.injEq] at h
    rw [← h.1]
    rfl

/-- The past of a run's last step is the record of the run without its last input. -/
theorem run_past {e : Taken σ ι ο} {past : List (Taken σ ι ο)} (h : (run f s is).2 = e :: past) :
    ∃ js, is = js ++ [e.input] ∧ (run f s js).2 = past ∧ e = taken f (run f s js).1 e.input := by
  induction is using reverseRecOn with
  | nil => simp at h
  | append_singleton is i _ =>
    rw [run_concat] at h
    simp only [advance, List.cons.injEq] at h
    obtain ⟨rfl, hpast⟩ := h
    exact ⟨is, rfl, hpast, rfl⟩

/-- Every moment of a run is the end of a run on a prefix of its inputs. -/
theorem run_suffix (is : List ι)
    {post past : List (Taken σ ι ο)} (h : (run f s is).2 = post ++ past) :
    ∃ js, js <+: is ∧ (run f s js).2 = past := by
  induction post generalizing is with
  | nil => exact ⟨is, prefix_rfl, h⟩
  | cons e post ih =>
    obtain ⟨js, rfl, hjs, -⟩ := run_past h
    obtain ⟨ks, hks, hrun⟩ := ih js hjs
    exact ⟨ks, hks.trans (prefix_append _ _), hrun⟩

/-- Every recorded step is a step of the machine. -/
theorem run_mem {e : Taken σ ι ο} (h : e ∈ (run f s is).2) : e = taken f e.before e.input := by
  obtain ⟨post, past, hsplit⟩ := append_of_mem h
  obtain ⟨js, -, hjs⟩ := run_suffix is hsplit
  obtain ⟨_, -, -, he⟩ := run_past hjs
  rw [he]
  rfl

/-- Each recorded step starts where the one before it ended. -/
theorem run_linked {e d : Taken σ ι ο}
    {post past : List (Taken σ ι ο)} (h : (run f s is).2 = post ++ e :: d :: past) :
    e.before = d.after := by
  obtain ⟨js, -, hjs⟩ := run_suffix is h
  obtain ⟨ks, -, hks, he⟩ := run_past hjs
  rw [run_head_after hks, he]
  rfl

/-- A property false after one step and true before a later one became true in between. -/
theorem run_becomes {P : σ → Prop} (mid : List (Taken σ ι ο)) :
    ∀ {post past : List (Taken σ ι ο)} {e₂ e₁ : Taken σ ι ο},
      (run f s is).2 = post ++ e₂ :: (mid ++ e₁ :: past) → ¬P e₁.after → P e₂.before →
        ∃ e ∈ mid, ¬P e.before ∧ P e.after := by
  induction mid with
  | nil =>
    intro post past e₂ e₁ h h1 h2
    rw [run_linked h] at h2
    exact absurd h2 h1
  | cons m mid ih =>
    intro post past e₂ e₁ h h1 h2
    by_cases hm : P m.before
    · have hearlier : (run f s is).2 = (post ++ [e₂]) ++ m :: (mid ++ e₁ :: past) := by
        simpa using h
      obtain ⟨e, he, hP⟩ := ih hearlier h1 hm
      exact ⟨e, mem_cons_of_mem _ he, hP⟩
    refine ⟨m, mem_cons_self, hm, ?_⟩
    rw [← run_linked (by simpa using h)]
    exact h2

/-! ### Machines that may stop -/

/-- The state a run of a partial machine ends in, if no step stopped it. -/
def partialRun (f : σ → ι → Option σ) (s : σ) (is : List ι) : Option σ := is.foldlM f s

theorem partialRun_cons (f : σ → ι → Option σ) (s : σ) (i : ι) (is : List ι) :
    partialRun f s (i :: is) = (f s i).bind fun s' => partialRun f s' is := by
  unfold partialRun
  rw [foldlM_cons]
  rfl

theorem partialRun_concat (f : σ → ι → Option σ) (s : σ) (is : List ι) (i : ι) :
    partialRun f s (is ++ [i]) = (partialRun f s is).bind fun r => f r i := by
  unfold partialRun
  rw [foldlM_append]
  simp

/-- What holds at the start and survives every step that is taken holds at the end. -/
theorem partialRun_induction {f : σ → ι → Option σ} {P : List ι → σ → Prop}
    (hinit : P [] s) (hstep : ∀ is r i r', P is r → f r i = some r' → P (is ++ [i]) r') {r : σ}
    (hrun : partialRun f s is = some r) : P is r := by
  induction is using reverseRecOn generalizing r with
  | nil =>
    obtain ⟨⟩ := hrun
    exact hinit
  | append_singleton is i ih =>
    rw [partialRun_concat] at hrun
    obtain ⟨r', hprev, hlast⟩ := bind_eq_some_iff.mp hrun
    exact hstep is r' i r (ih hprev) hlast

/-- Every input of a run meets a condition in the state that finds it. -/
def Meets (cond : σ → ι → Prop) (f : σ → ι → Option σ) : σ → List ι → Prop
  | _, [] => True
  | s, i :: is => cond s i ∧ ∀ s', s' ∈ f s i → Meets cond f s' is

instance Meets.decidable {cond : σ → ι → Prop} [∀ s i, Decidable (cond s i)]
    {f : σ → ι → Option σ} : ∀ (is : List ι) (s : σ), Decidable (Meets cond f s is)
  | [], _ => .isTrue trivial
  | i :: is, s =>
    have : ∀ s', Decidable (Meets cond f s' is) := Meets.decidable is
    inferInstanceAs (Decidable (cond s i ∧ ∀ s', s' ∈ f s i → Meets cond f s' is))

/-- What survives every step that meets the condition survives a run of such steps. -/
theorem Meets.invariant {f : σ → ι → Option σ} {P : σ → Prop}
    (hstep : ∀ s i s', P s → cond s i → f s i = some s' → P s') {s r : σ}
    (hmeets : Meets cond f s is) (hinit : P s) (hrun : partialRun f s is = some r) : P r := by
  induction is generalizing s with
  | nil =>
    obtain ⟨⟩ := hrun
    exact hinit
  | cons i is ih =>
    obtain ⟨s', hfirst, hrest⟩ := bind_eq_some_iff.mp hrun
    exact ih (hmeets.2 s' hfirst) (hstep s i s' hinit hmeets.1 hfirst) hrest

/-- A run that meets a condition meets it in both parts. -/
theorem Meets.split {f : σ → ι → Option σ} {is js : List ι} {s r : σ}
    (hmeets : Meets cond f s (is ++ js)) (hrun : partialRun f s is = some r) :
    Meets cond f s is ∧ Meets cond f r js := by
  induction is generalizing s with
  | nil =>
    obtain ⟨⟩ := hrun
    exact ⟨trivial, hmeets⟩
  | cons i is ih =>
    obtain ⟨s', hfirst, hrest⟩ := bind_eq_some_iff.mp hrun
    refine ⟨⟨hmeets.1, ?_⟩, (ih (hmeets.2 s' hfirst) hrest).2⟩
    intro s'' hfirst''
    obtain rfl := some.inj (hfirst.symm.trans hfirst'')
    exact (ih (hmeets.2 s' hfirst) hrest).1

/-- A property that a step keeps just where it meets the condition holds all along just the
runs that meet it all along. -/
theorem Meets.iff_along {f : σ → ι → Option σ} {P : σ → Prop}
    (hstep : ∀ s i s', P s → f s i = some s' → (P s' ↔ cond s i)) {s r : σ}
    (hinit : P s) (hrun : partialRun f s is = some r) :
    Meets cond f s is ↔ ∀ js, js <+: is → ∀ r', partialRun f s js = some r' → P r' := by
  constructor
  · intro hmeets js hprefix r' hrun'
    obtain ⟨rest, rfl⟩ := hprefix
    exact Meets.invariant (fun s i s' hs hi h => (hstep s i s' hs h).mpr hi)
      (hmeets.split hrun').1 hinit hrun'
  intro halong
  induction is generalizing s with
  | nil => trivial
  | cons i is ih =>
    obtain ⟨s', hfirst, hrest⟩ := bind_eq_some_iff.mp hrun
    have htail : ∀ js, js <+: is → ∀ r', partialRun f s' js = some r' → P r' := by
      intro js hprefix r' hrun'
      refine halong (i :: js) (cons_prefix_cons.mpr ⟨rfl, hprefix⟩) r' ?_
      rw [partialRun_cons, hfirst]
      exact hrun'
    have hs' := htail [] nil_prefix s' rfl
    refine ⟨(hstep s i s' hinit hfirst).mp hs', fun s'' hfirst' => ?_⟩
    obtain rfl := some.inj (hfirst.symm.trans hfirst')
    exact ih hs' hrest htail

/-! ### The past-time operator -/

/-- `start` happened at some step, and `hold` is true of every step after it. -/
def Since (hold start : Taken σ ι ο → Prop) : List (Taken σ ι ο) → Prop
  | [] => False
  | e :: past => start e ∨ (hold e ∧ Since hold start past)

theorem Since.mono {hold hold' start start' : Taken σ ι ο → Prop}
    (hh : ∀ e, hold e → hold' e) (hs : ∀ e, start e → start' e) :
    ∀ {h : List (Taken σ ι ο)}, Since hold start h → Since hold' start' h
  | _ :: _, .inl h => .inl (hs _ h)
  | _ :: _, .inr ⟨h, hp⟩ => .inr ⟨hh _ h, hp.mono hh hs⟩

end Diri
