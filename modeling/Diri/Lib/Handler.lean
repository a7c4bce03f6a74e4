/-
Computations that may come to nothing, and may fail: `OptionT (Except ε)`.

Coming to nothing is a result like any other, and a failure is none.  What a sequence of two
steps comes to is told by what the steps come to.

Handlers that may fail.

A handler changes a state and then returns or throws; what it changed before it threw
stays changed.  `Moves R` says that whatever becomes of the handler, the state before and
the state after are related by `R`.  For a reflexive and transitive `R` it is enough to
look at the primitive steps.
-/
import Mathlib.Init
import Mathlib.Logic.Basic

namespace Diri.Fallible

variable {ε α β : Type}

/-- The computation does not fail. -/
def Returns (x : OptionT (Except ε) α) : Prop := ∃ result, x.run = .ok result

variable {f : α → OptionT (Except ε) β} {x : OptionT (Except ε) α}

theorem run_bind_some {b : β} :
    (x >>= f).run = .ok (some b) ↔ ∃ a, x.run = .ok (some a) ∧ (f a).run = .ok (some b) := by
  rw [OptionT.run_bind]
  rcases hx : x.run with error | _ | a
  · simp [Option.elimM, bind, Except.bind]
  · simp [Option.elimM, bind, Except.bind, pure, Except.pure]
  · simp [Option.elimM, bind, Except.bind]

theorem run_bind_none : (x >>= f).run = .ok none ↔
      x.run = .ok none ∨ ∃ a, x.run = .ok (some a) ∧ (f a).run = .ok none := by
  rw [OptionT.run_bind]
  rcases hx : x.run with error | _ | a
  · simp [Option.elimM, bind, Except.bind]
  · simp [Option.elimM, bind, Except.bind, pure, Except.pure]
  · simp [Option.elimM, bind, Except.bind]

theorem run_liftM (x : Except ε α) : (liftM x : OptionT (Except ε) α).run = x.map some := by
  cases x <;> rfl

theorem Returns.pure (a : α) : Returns (pure a : OptionT (Except ε) α) := ⟨some a, rfl⟩

theorem Returns.failure : Returns (failure : OptionT (Except ε) α) := ⟨none, rfl⟩

/-- A sequence fails only where one of its steps does. -/
theorem Returns.bind (hx : Returns x)
    (hf : ∀ a, x.run = .ok (some a) → Returns (f a)) : Returns (x >>= f) := by
  obtain ⟨_ | a, hx⟩ := hx
  · exact ⟨none, run_bind_none.mpr (.inl hx)⟩
  obtain ⟨_ | b, hb⟩ := hf a hx
  · exact ⟨none, run_bind_none.mpr (.inr ⟨a, hx, hb⟩)⟩
  · exact ⟨some b, run_bind_some.mpr ⟨a, hx, hb⟩⟩

end Diri.Fallible

namespace Diri

variable {σ ε α β : Type}

/-- A result that is there. -/
theorem toOption_eq_some {ε α : Type} {x : Except ε α} {a : α} (h : x.toOption = some a) :
    x = .ok a := by
  cases x with
  | error e => cases h
  | ok b => rw [Option.some.inj h]

theorem eq_of_toOption {σ ε α : Type} {x : Except ε α × σ} {a : α} (h : x.1.toOption = some a) :
    x = (.ok a, x.2) := by
  rw [← toOption_eq_some h]

/-- A computation with a state that survives an exception. -/
abbrev Handler (σ ε α : Type) : Type := ExceptT ε (StateM σ) α

namespace Handler

/-- The result and the state afterwards. -/
def exec (m : Handler σ ε α) (s : σ) : Except ε α × σ := m s

@[simp] theorem exec_pure (a : α) (s : σ) : exec (pure a : Handler σ ε α) s = (.ok a, s) := rfl

@[simp] theorem exec_throw (e : ε) (s : σ) : exec (throw e : Handler σ ε α) s = (.error e, s) := rfl

@[simp] theorem exec_get (s : σ) : exec (get : Handler σ ε σ) s = (.ok s, s) := rfl

@[simp] theorem exec_modify (f : σ → σ) (s : σ) :
    exec (modify f : Handler σ ε PUnit) s = (.ok ⟨⟩, f s) := rfl

/-- The second part runs where the first one ended, unless that threw. -/
theorem exec_bind (m : Handler σ ε α) (f : α → Handler σ ε β) (s : σ) : exec (m >>= f) s =
      match exec m s with
      | (.ok a, s') => exec (f a) s'
      | (.error e, s') => (.error e, s') := by
  show (m >>= f) s = _
  unfold exec
  simp only [bind, ExceptT.bind, ExceptT.mk, StateT.bind, ExceptT.bindCont]
  cases h : m s with
  | mk result s' =>
    cases result with
    | ok a | error e => rfl

variable {f : α → Handler σ ε β} {m : Handler σ ε α} {s s' : σ} {result : Except ε β}

theorem exec_bind_ok {a : α} (h : exec m s = (.ok a, s')) : exec (m >>= f) s = exec (f a) s' := by
  rw [exec_bind, h]

theorem exec_bind_error {e : ε}
    (h : exec m s = (.error e, s')) : exec (m >>= f) s = (.error e, s') := by
  rw [exec_bind, h]

/-- A sequence ends where its first part threw, or where the second part did. -/
theorem exec_bind_cases (h : exec (m >>= f) s = (result, s')) :
    (∃ a s₁, exec m s = (.ok a, s₁) ∧ exec (f a) s₁ = (result, s')) ∨
    (∃ e, exec m s = (.error e, s') ∧ result = .error e) := by
  rw [exec_bind] at h
  cases hm : exec m s with
  | mk first s₁ =>
    rw [hm] at h
    cases first with
    | ok a => exact .inl ⟨a, s₁, rfl, h⟩
    | error e =>
      obtain ⟨rfl, rfl⟩ := Prod.mk.inj h
      exact .inr ⟨e, rfl, rfl⟩

/-- A sequence that returns has returned from its first part. -/
theorem exec_bind_of_ok {b : β} (h : exec (m >>= f) s = (.ok b, s')) :
    ∃ a s₁, exec m s = (.ok a, s₁) ∧ exec (f a) s₁ = (.ok b, s') := by
  rcases exec_bind_cases h with hfirst | ⟨e, -, herror⟩
  · exact hfirst
  · cases herror

/-- What is made of a result at the end changes nothing else. -/
theorem exec_bind_pure {f : α → β} (h : exec (m >>= fun a => pure (f a)) s = (result, s')) :
    ∃ first, exec m s = (first, s') ∧ result = first.map f := by
  rcases exec_bind_cases h with ⟨a, s₁, hfirst, hpure⟩ | ⟨e, hfirst, rfl⟩
  · obtain ⟨rfl, rfl⟩ := Prod.mk.inj hpure
    exact ⟨.ok a, hfirst, rfl⟩
  · exact ⟨.error e, hfirst, rfl⟩

theorem exec_map (f : α → β) (m : Handler σ ε α) (s : σ) :
    exec (f <$> m) s = ((exec m s).1.map f, (exec m s).2) := by
  rw [← bind_pure_comp, exec_bind]
  rcases exec m s with ⟨result, s'⟩
  cases result with
  | ok a | error e => rfl

/-- A failure is handled in the state that it left. -/
theorem exec_tryCatch (m : Handler σ ε α) (f : ε → Handler σ ε α) (s : σ) : exec (tryCatch m f) s =
      match exec m s with
      | (.ok a, s') => (.ok a, s')
      | (.error e, s') => exec (f e) s' := by
  show (tryCatch m f) s = _
  unfold exec
  simp only [tryCatch, tryCatchThe, MonadExceptOf.tryCatch, ExceptT.tryCatch, ExceptT.mk, bind,
    StateT.bind]
  cases h : m s with
  | mk result s' =>
    cases result with
    | ok a | error e => rfl

/-- Whatever the handler does, it relates the states. -/
def Moves (R : σ → σ → Prop) (m : Handler σ ε α) : Prop := ∀ s, R s (exec m s).2

/-- A relation that steps can be put together in. -/
class Steps (R : σ → σ → Prop) : Prop where
  refl : ∀ s, R s s
  trans : ∀ {s₁ s₂ s₃}, R s₁ s₂ → R s₂ s₃ → R s₁ s₃

variable {R : σ → σ → Prop}

theorem Moves.pure [Steps R] (a : α) : Moves R (pure a : Handler σ ε α) := by
  intro s
  exact Steps.refl s

theorem Moves.throw [Steps R] (e : ε) : Moves R (throw e : Handler σ ε α) := by
  intro s
  exact Steps.refl s

theorem Moves.read [Steps R] : Moves R (get : Handler σ ε σ) := by
  intro s
  exact Steps.refl s

theorem Moves.bind [Steps R] (hm : Moves R m) (hf : ∀ a, Moves R (f a)) : Moves R (m >>= f) := by
  intro s
  have hfirst := hm s
  rw [exec_bind]
  cases h : exec m s with
  | mk result s' =>
    rw [h] at hfirst
    cases result with
    | ok a => exact Steps.trans hfirst (hf a s')
    | error e => exact hfirst

theorem Moves.tryCatch [Steps R] {f : ε → Handler σ ε α}
    (hm : Moves R m) (hf : ∀ e, Moves R (f e)) : Moves R (tryCatch m f) := by
  intro s
  have hfirst := hm s
  rw [exec_tryCatch]
  cases h : exec m s with
  | mk result s' =>
    rw [h] at hfirst
    cases result with
    | ok a => exact hfirst
    | error e => exact Steps.trans hfirst (hf e s')

theorem Moves.of_exec (hm : Moves R m) {result : Except ε α}
    (h : exec m s = (result, s')) : R s s' := by
  have hmoves := hm s
  rwa [h] at hmoves

/-- Where a sequence ends, and how far its first part got. -/
theorem Moves.bind_cases (hm : Moves R m) (h : exec (m >>= f) s = (result, s')) :
    (∃ a s₁, R s s₁ ∧ exec m s = (.ok a, s₁) ∧ exec (f a) s₁ = (result, s')) ∨
    ((∃ e, result = .error e) ∧ R s s') := by
  rcases exec_bind_cases h with ⟨a, s₁, hfirst, hrest⟩ | ⟨e, hfirst, rfl⟩
  · exact .inl ⟨a, s₁, hm.of_exec hfirst, hfirst, hrest⟩
  · exact .inr ⟨⟨e, rfl⟩, hm.of_exec hfirst⟩

/-- Reading the state and going on from there. -/
theorem Moves.get_bind {f : σ → Handler σ ε α} (hf : ∀ s, R s (exec (f s) s).2) :
    Moves R (get >>= f) := by
  intro s
  rw [exec_bind_ok (exec_get s)]
  exact hf s

theorem Moves.modify {f : σ → σ} (hf : ∀ s, R s (f s)) :
    Moves R (modify f : Handler σ ε PUnit) := by
  intro s
  exact hf s

theorem Moves.ite {p : Prop} [Decidable p] {m n : Handler σ ε α} (hm : p → Moves R m)
    (hn : ¬p → Moves R n) : Moves R (if p then m else n) := by
  split
  · exact hm ‹p›
  · exact hn ‹¬p›

end Handler

end Diri
