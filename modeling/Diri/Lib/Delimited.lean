/-
Text set off by a start and a stop marker in a stream.

A reader takes the stream one item at a time.  Where the start marker stands, everything up
to the next stop marker is a quotation; nothing in it is looked at but the stop marker.
What is put between the markers is read back whole just where the stop marker is not in it
(`receive_frame_iff`), provided that the stop marker cannot overlap itself: else it could
begin in the text and end in its own first items.  `receive_sends_iff` says the same
of a whole sequence of plain items and quotations.
-/
import Mathlib.Data.List.Basic
import Mathlib.Data.List.Infix

namespace Diri

open List

variable {α : Type}

structure Delimiters (α : Type) where
  start : List α
  stop : List α

/-- What a reader takes in. -/
inductive Heard (α : Type)
  | plain (item : α)
  | quoted (items : List α)
  /-- The stream has ended inside a quotation. -/
  | unclosed (items : List α)
  deriving DecidableEq, Repr

/-- No end of the marker is a start of it, apart from the whole. -/
def Unbordered (marker : List α) : Prop :=
  ∀ k < marker.length, 0 < k → ¬marker.drop k <+: marker

instance [DecidableEq α] (marker : List α) : Decidable (Unbordered marker) :=
  inferInstanceAs (Decidable (∀ k < marker.length, _))

/-- A marker that cannot overlap itself does not begin before its own start. -/
theorem Unbordered.not_early {marker text : List α} (h : Unbordered marker) (htext : text ≠ [])
    (hfree : ¬marker <:+: text) (rest : List α) : ¬marker <+: text ++ (marker ++ rest) := by
  intro hearly
  by_cases hlong : marker.length ≤ text.length
  · have hhere : marker <+: text := prefix_of_prefix_length_le hearly (prefix_append _ _) hlong
    exact hfree hhere.isInfix
  have hshort : text <+: marker := prefix_of_prefix_length_le (prefix_append _ _) hearly (by omega)
  obtain ⟨tail, htail⟩ := hshort
  have hoverlap : tail <+: marker ++ rest := by
    have hsplit : text ++ tail <+: text ++ (marker ++ rest) := htail.symm ▸ hearly
    exact (prefix_append_right_inj text).mp hsplit
  have htail_le : tail <+: marker := by
    refine prefix_of_prefix_length_le hoverlap (prefix_append _ _) ?_
    rw [← htail, length_append]
    omega
  refine h text.length (by omega) (List.length_pos_iff.mpr htext) ?_
  have hdrop : marker.drop text.length = tail := by rw [← htail, drop_left]
  rwa [hdrop]

namespace Delimiters

variable [DecidableEq α]

/-- Read a stream: what the quotation has so far, latest first, and how much of a marker is
still to be passed by. -/
def scan (d : Delimiters α) : Option (List α) → Nat → List α → List (Heard α)
  | none, _, [] => []
  | some quote, _, [] => [.unclosed quote.reverse]
  | quote, skip + 1, _ :: rest => d.scan quote skip rest
  | none, 0, item :: rest =>
    if d.start <+: item :: rest then d.scan (some []) (d.start.length - 1) rest
    else .plain item :: d.scan none 0 rest
  | some quote, 0, item :: rest =>
    if d.stop <+: item :: rest then .quoted quote.reverse :: d.scan none (d.stop.length - 1) rest
    else d.scan (some (item :: quote)) 0 rest

/-- What a reader makes of a stream. -/
def receive (d : Delimiters α) (stream : List α) : List (Heard α) := d.scan none 0 stream

def frame (d : Delimiters α) (text : List α) : List α := d.start ++ text ++ d.stop

variable {d : Delimiters α}

/-! ### Markers -/

theorem scan_skip (quote : Option (List α)) (skipped rest : List α) :
    d.scan quote skipped.length (skipped ++ rest) = d.scan quote 0 rest := by
  induction skipped with
  | nil => rfl
  | cons item skipped ih =>
    cases quote with
    | none | some quote => exact ih

theorem scan_start (hstart : d.start ≠ []) (rest : List α) :
    d.scan none 0 (d.start ++ rest) = d.scan (some []) 0 rest := by
  obtain ⟨item, marker, hmarker⟩ := exists_cons_of_ne_nil hstart
  have hhere : d.start <+: item :: (marker ++ rest) := by
    rw [hmarker]
    exact prefix_append _ _
  rw [hmarker, cons_append, scan, if_pos hhere, hmarker]
  exact scan_skip _ _ _

theorem scan_stop (hstop : d.stop ≠ []) (quote rest : List α) :
    d.scan (some quote) 0 (d.stop ++ rest) = .quoted quote.reverse :: d.scan none 0 rest := by
  obtain ⟨item, marker, hmarker⟩ := exists_cons_of_ne_nil hstop
  have hhere : d.stop <+: item :: (marker ++ rest) := by
    rw [hmarker]
    exact prefix_append _ _
  rw [hmarker, cons_append, scan, if_pos hhere, hmarker]
  exact congrArg _ (scan_skip _ _ _)

/-- An item that no start marker begins with is plain. -/
theorem scan_plain {item : α} (hitem : d.start.head? ≠ some item) (hstart : d.start ≠ [])
    (rest : List α) : d.scan none 0 (item :: rest) = .plain item :: d.scan none 0 rest := by
  obtain ⟨first, marker, hmarker⟩ := exists_cons_of_ne_nil hstart
  rw [scan, if_neg]
  intro hhere
  rw [hmarker, cons_prefix_cons] at hhere
  exact hitem (by rw [hmarker, hhere.1]; rfl)

/-! ### Quotations -/

/-- A text without the stop marker is read to its end. -/
theorem scan_quotation (hstop : d.stop ≠ []) (hborder : Unbordered d.stop) {text : List α}
    (hfree : ¬d.stop <:+: text) (quote rest : List α) :
    d.scan (some quote) 0 (text ++ (d.stop ++ rest)) =
      .quoted (quote.reverse ++ text) :: d.scan none 0 rest := by
  induction text generalizing quote with
  | nil => simpa using scan_stop hstop quote rest
  | cons item text ih =>
    have hnot := hborder.not_early (cons_ne_nil item text) hfree rest
    have hfree' : ¬d.stop <:+: text := fun h => hfree (infix_cons h)
    rw [cons_append] at hnot ⊢
    rw [scan, if_neg hnot, ih hfree' (item :: quote)]
    simp

/-- A text with the stop marker in it is read only so far. -/
theorem scan_cut_short (hstop : d.stop ≠ []) {text : List α} (hmarked : d.stop <:+: text)
    (quote rest : List α) : ∃ inner more, inner.length < text.length ∧
      d.scan (some quote) 0 (text ++ rest) = .quoted (quote.reverse ++ inner) :: more := by
  induction text generalizing quote with
  | nil => exact absurd (List.infix_nil.mp hmarked) hstop
  | cons item text ih =>
    rw [cons_append, scan]
    by_cases hhere : d.stop <+: item :: (text ++ rest)
    · rw [if_pos hhere]
      exact ⟨[], d.scan none (d.stop.length - 1) (text ++ rest), Nat.succ_pos _, by simp⟩
    have hmarked' : d.stop <:+: text := by
      refine (List.infix_cons_iff.mp hmarked).resolve_left fun h => hhere ?_
      exact h.trans (by rw [← cons_append]; exact prefix_append _ _)
    obtain ⟨inner, more, hlt, hscan⟩ := ih hmarked' (item :: quote)
    rw [if_neg hhere, hscan]
    refine ⟨item :: inner, more, Nat.succ_lt_succ hlt, ?_⟩
    simp

/-! ### Sequences of plain items and quotations -/

/-- What is sent: an item that is not a marker's, or a text between markers. -/
inductive Send (α : Type)
  | plain (item : α)
  | quote (text : List α)

namespace Send

def stream (d : Delimiters α) : Send α → List α
  | plain item => [item]
  | quote text => d.frame text

def heard : Send α → Heard α
  | plain item => .plain item
  | quote text => .quoted text

/-- The item begins no start marker; the text has no stop marker in it. -/
def Plainly (d : Delimiters α) : Send α → Prop
  | plain item => d.start.head? ≠ some item
  | quote _ => True

def Free (d : Delimiters α) : Send α → Prop
  | plain _ => True
  | quote text => ¬d.stop <:+: text

end Send

/-- Each part is heard as it was sent just where no text has the stop marker in it. -/
theorem receive_sends_iff (hstart : d.start ≠ []) (hstop : d.stop ≠ [])
    (hborder : Unbordered d.stop) {sends : List (Send α)}
    (hplain : ∀ send ∈ sends, send.Plainly d) :
    d.receive (sends.flatMap (Send.stream d)) = sends.map Send.heard ↔
      ∀ send ∈ sends, send.Free d := by
  unfold receive
  induction sends with
  | nil => simp [scan]
  | cons send sends ih =>
    have ih := ih fun s hs => hplain s (mem_cons_of_mem _ hs)
    rw [flatMap_cons, map_cons, forall_mem_cons]
    cases send with
    | plain item =>
      have hitem : d.start.head? ≠ some item := hplain _ mem_cons_self
      rw [Send.stream, singleton_append, scan_plain hitem hstart, Send.heard, List.cons.injEq, ih]
      simp [Send.Free]
    | quote text =>
      rw [Send.stream, frame, append_assoc, append_assoc, scan_start hstart, Send.heard]
      by_cases hfree : d.stop <:+: text
      · obtain ⟨inner, more, hlt, hscan⟩ := scan_cut_short hstop hfree []
          (d.stop ++ sends.flatMap (Send.stream d))
        rw [hscan]
        constructor
        · intro heq
          have hinner : inner = text := by simpa using (List.cons.inj heq).1
          exact absurd (congrArg List.length hinner) (by omega)
        · exact fun h => absurd hfree h.1
      · rw [scan_quotation hstop hborder hfree, List.cons.injEq, ih]
        simp [Send.Free, hfree]

/-- A text between markers is read back whole just where the stop marker is not in it. -/
theorem receive_frame_iff (hstart : d.start ≠ []) (hstop : d.stop ≠ [])
    (hborder : Unbordered d.stop) (text : List α) :
    d.receive (d.frame text) = [.quoted text] ↔ ¬d.stop <:+: text := by
  have hplain : ∀ send ∈ [Send.quote text], send.Plainly d := by simp [Send.Plainly]
  have hone := receive_sends_iff hstart hstop hborder hplain
  simpa [Send.stream, Send.heard, Send.Free] using hone

end Delimiters

end Diri
