/-
Replicas that are fed through a queue.

A replica receives messages one at a time and may refuse one.  `held` is what is known
of it from outside, and `next` is what should be known after a message.  A queue `Lands`
when every message of it is accepted in its turn and does what it should: a sender that
only appends messages which land, given everything it sent before, never needs to look
at the replica itself.

Relays.

A relay takes items, passes them on, and may keep some waiting in between.  `Follows` is
what a first-in-first-out relay does from one moment to a later one: what it sent in the
meantime, with what waits now, is part of what waited then, followed by what it took in
the meantime, in that order.  So nothing is sent twice, and nothing that waited is sent
after something taken later.  A relay may lose what waits; one that does not is
`Lossless`.
-/
import Mathlib.Data.List.Basic

namespace Diri

/-- How a replica `ρ` takes messages `μ`, seen through `τ`. -/
structure Replica (ρ μ τ : Type) where
  receive : μ → ρ → Option ρ
  held : ρ → τ
  next : τ → μ → τ

namespace Replica

variable {ρ μ τ : Type} (R : Replica ρ μ τ)

/-- Every replica that holds `t` accepts the message, and then holds what it should. -/
def Accepts (t : τ) (m : μ) : Prop :=
  ∀ r, R.held r = t → ∃ r', R.receive m r = some r' ∧ R.held r' = R.next t m

/-- Every message of the queue is accepted in its turn. -/
def Lands : τ → List μ → Prop
  | _, [] => True
  | t, m :: rest => R.Accepts t m ∧ Lands (R.next t m) rest

variable {R}

theorem lands_append {t : τ} {ms ms' : List μ} :
    R.Lands t (ms ++ ms') ↔ R.Lands t ms ∧ R.Lands (ms.foldl R.next t) ms' := by
  induction ms generalizing t with
  | nil => simp [Lands]
  | cons m ms ih => simp only [List.cons_append, Lands, List.foldl_cons, ih, and_assoc]

/-- One more message that lands after all the others. -/
theorem Lands.concat {t : τ} {ms : List μ} {m : μ} (h : R.Lands t ms)
    (hm : R.Accepts (ms.foldl R.next t) m) : R.Lands t (ms ++ [m]) :=
  lands_append.mpr ⟨h, hm, trivial⟩

/-- What is left of a queue lands when its end is cut off. -/
theorem Lands.cut {t : τ} {ms ms' : List μ} (h : R.Lands t (ms ++ ms')) : R.Lands t ms :=
  (lands_append.mp h).1

/-- The replica takes the head of its queue, and the rest lands on what it is then. -/
theorem Lands.receive {r : ρ} {m : μ} {ms : List μ} (h : R.Lands (R.held r) (m :: ms)) :
    ∃ r', R.receive m r = some r' ∧ R.held r' = R.next (R.held r) m ∧ R.Lands (R.held r') ms := by
  obtain ⟨r', hreceive, hheld⟩ := h.1 r rfl
  exact ⟨r', hreceive, hheld, by rw [hheld]; exact h.2⟩

end Replica

end Diri

namespace Diri

/-- The items so far: taken, still waiting, and sent, each in order of time. -/
structure Relay (α : Type) where
  accepted : List α := []
  waiting : List α := []
  sent : List α := []

namespace Relay

variable {α : Type} {r r₁ r₂ r₃ : Relay α}

/-- `r₂` is a later moment of a first-in-first-out relay that was `r₁`. -/
def Follows (r₁ r₂ : Relay α) : Prop :=
  ∃ late news, r₂.accepted = r₁.accepted ++ late ∧ r₂.sent = r₁.sent ++ news ∧
    (news ++ r₂.waiting).Sublist (r₁.waiting ++ late)

theorem Follows.refl (r : Relay α) : r.Follows r := by
  refine ⟨[], [], by simp, by simp, ?_⟩
  simp

theorem Follows.trans (h₁ : r₁.Follows r₂) (h₂ : r₂.Follows r₃) : r₁.Follows r₃ := by
  obtain ⟨late₁, news₁, haccepted₁, hsent₁, hpart₁⟩ := h₁
  obtain ⟨late₂, news₂, haccepted₂, hsent₂, hpart₂⟩ := h₂
  refine ⟨late₁ ++ late₂, news₁ ++ news₂, ?_, ?_, ?_⟩
  · rw [haccepted₂, haccepted₁, List.append_assoc]
  · rw [hsent₂, hsent₁, List.append_assoc]
  · have hfirst : (news₁ ++ (r₂.waiting ++ late₂)).Sublist (r₁.waiting ++ (late₁ ++ late₂)) := by
      rw [← List.append_assoc, ← List.append_assoc]
      exact hpart₁.append (List.Sublist.refl late₂)
    rw [List.append_assoc]
    exact ((List.Sublist.refl news₁).append hpart₂).trans hfirst

/-! ### The moves of a relay -/

def hold (items : List α) (r : Relay α) : Relay α :=
  { r with
    accepted := r.accepted ++ items
    waiting := r.waiting ++ items }

def pass (items : List α) (r : Relay α) : Relay α :=
  { r with
    accepted := r.accepted ++ items
    sent := r.sent ++ items }

def flush (r : Relay α) : Relay α :=
  { r with
    waiting := []
    sent := r.sent ++ r.waiting }

def lose (r : Relay α) : Relay α := { r with waiting := [] }

theorem follows_hold (items : List α) (r : Relay α) : r.Follows (r.hold items) := by
  refine ⟨items, [], rfl, by simp [hold], ?_⟩
  simp [hold]

/-- Nothing waits that is passed by. -/
theorem follows_pass (items : List α) (h : r.waiting = []) : r.Follows (r.pass items) := by
  refine ⟨items, items, rfl, rfl, ?_⟩
  simp [pass, h]

theorem follows_flush (r : Relay α) : r.Follows r.flush := by
  refine ⟨[], r.waiting, by simp [flush], rfl, ?_⟩
  simp [flush]

theorem follows_lose (r : Relay α) : r.Follows r.lose := by
  refine ⟨[], [], by simp [lose], by simp [lose], ?_⟩
  simp [lose]

/-! ### What follows -/

/-- Of what waited, some is sent, and after that some of what came later. -/
theorem Follows.sent_split (h : r₁.Follows r₂) :
    ∃ late kept news, r₂.accepted = r₁.accepted ++ late ∧
      r₂.sent = r₁.sent ++ (kept ++ news) ∧ kept.Sublist r₁.waiting ∧ news.Sublist late := by
  obtain ⟨late, news, haccepted, hsent, hpart⟩ := h
  have hnews : news.Sublist (r₁.waiting ++ late) :=
    (List.sublist_append_left news r₂.waiting).trans hpart
  obtain ⟨kept, rest, rfl, hkept, hrest⟩ := List.sublist_append_iff.mp hnews
  exact ⟨late, kept, rest, haccepted, hsent, hkept, hrest⟩

/-- A relay that began with nothing sends part of what it took, in order. -/
theorem Follows.sent_sublist (h : (Relay.mk [] [] [] : Relay α).Follows r) :
    r.sent.Sublist r.accepted := by
  obtain ⟨late, kept, news, haccepted, hsent, hkept, hnews⟩ := h.sent_split
  obtain rfl := List.sublist_nil.mp hkept
  rw [haccepted, hsent]
  simpa using hnews

/-! ### Relays that lose nothing -/

/-- What was taken is what was sent, and then what waits. -/
def Lossless (r : Relay α) : Prop := r.sent ++ r.waiting = r.accepted

theorem Lossless.hold (h : r.Lossless) (items : List α) : (r.hold items).Lossless := by
  show r.sent ++ (r.waiting ++ items) = r.accepted ++ items
  rw [← List.append_assoc, h]

theorem Lossless.pass (h : r.Lossless) {items : List α} (hwaiting : items = [] ∨ r.waiting = []) :
    (r.pass items).Lossless := by
  show (r.sent ++ items) ++ r.waiting = r.accepted ++ items
  rw [← h]
  obtain hnothing | hnothing := hwaiting
  · simp [hnothing]
  · simp [hnothing]

end Relay

end Diri
