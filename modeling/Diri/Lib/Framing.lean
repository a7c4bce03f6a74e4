/-
Streams of frames, cut into chunks anywhere.

A `Framing` says what stands at the front of a buffer: too little to tell, something
that cannot be a frame, or a frame and its length.  What it says must not change when
more arrives behind; then a decoder that keeps the unread rest between chunks gives the
same frames, and fails with the same error, as one that is fed everything at once
(`feedAll_eq`).

A decoder that fails keeps its whole buffer, so it fails again whatever it is fed.

`prefixed` is the framing of a byte stream in which a frame is a kind, the length of the
payload in four bytes, and the payload.  Kind and length are looked at before the payload
is there.
-/
import Diri.Lib.Bytes
import Mathlib.Data.List.Infix

namespace Diri

open List

variable {α ε μ : Type}

/-- What stands at the front of a buffer. -/
inductive Front (ε μ : Type)
  | short
  | bad (error : ε)
  | frame (message : μ) (length : Nat)

/-- A decoder of one frame that is not misled by what follows. -/
structure Framing (α ε μ : Type) where
  front : List α → Front ε μ
  front_nil : front [] = .short
  frame_length : ∀ {buffer message length}, front buffer = .frame message length →
    0 < length ∧ length ≤ buffer.length
  frame_append : ∀ {buffer message length}, front buffer = .frame message length →
    ∀ more, front (buffer ++ more) = .frame message length
  bad_append : ∀ {buffer error}, front buffer = .bad error →
    ∀ more, front (buffer ++ more) = .bad error

namespace Framing

/-- The frames of a buffer and what is left of it; `fuel` bounds how many are read. -/
def scanFuel (f : Framing α ε μ) : Nat → List α → Except ε (List μ × List α)
  | 0, buffer => .ok ([], buffer)
  | fuel + 1, buffer =>
    match f.front buffer with
    | .short => .ok ([], buffer)
    | .bad error => .error error
    | .frame message length =>
      (scanFuel f fuel (buffer.drop length)).map fun (messages, rest) =>
        (message :: messages, rest)

/-- A frame takes at least one element, so there are no more frames than elements. -/
def scan (f : Framing α ε μ) (buffer : List α) : Except ε (List μ × List α) :=
  f.scanFuel (buffer.length + 1) buffer

/-- Feed one chunk: the result, and the buffer afterwards. -/
def feed (f : Framing α ε μ) (buffer chunk : List α) : Except ε (List μ) × List α :=
  match f.scan (buffer ++ chunk) with
  | .ok (messages, rest) => (.ok messages, rest)
  | .error error => (.error error, buffer ++ chunk)

/-- Feed chunk after chunk, whatever the results. -/
def feedAll (f : Framing α ε μ) (buffer : List α) :
    List (List α) → List (Except ε (List μ)) × List α
  | [] => ([], buffer)
  | chunk :: chunks =>
    let (result, buffer) := f.feed buffer chunk
    let (results, buffer) := feedAll f buffer chunks
    (result :: results, buffer)

variable {f : Framing α ε μ}

/-! ### Scanning -/

variable {buffer : List α}

/-- More fuel than elements is as good as any. -/
theorem scanFuel_congr {fuel fuel' : Nat} (h : buffer.length < fuel)
    (h' : buffer.length < fuel') : f.scanFuel fuel buffer = f.scanFuel fuel' buffer := by
  induction fuel generalizing fuel' buffer with
  | zero => omega
  | succ fuel ih =>
    obtain ⟨fuel', rfl⟩ := Nat.exists_eq_succ_of_ne_zero (by omega : fuel' ≠ 0)
    simp only [scanFuel]
    cases hfront : f.front buffer with
    | short | bad error => rfl
    | frame message length =>
      obtain ⟨hpos, hle⟩ := f.frame_length hfront
      have hdrop : (buffer.drop length).length = buffer.length - length := length_drop
      simp only
      rw [ih (by omega) (by omega : _ < fuel')]

theorem scan_short (h : f.front buffer = .short) : f.scan buffer = .ok ([], buffer) := by
  simp [scan, scanFuel, h]

theorem scan_bad {error : ε} (h : f.front buffer = .bad error) : f.scan buffer = .error error := by
  simp [scan, scanFuel, h]

theorem scan_frame {message : μ} {length : Nat} (h : f.front buffer = .frame message length) :
    f.scan buffer = (f.scan (buffer.drop length)).map fun (messages, rest) =>
      (message :: messages, rest) := by
  obtain ⟨hpos, hle⟩ := f.frame_length h
  have hdrop : (buffer.drop length).length = buffer.length - length := length_drop
  unfold scan
  rw [scanFuel, h]
  simp only
  rw [scanFuel_congr (by omega : _ < buffer.length) (Nat.lt_succ_self _)]

/-- Induction along the frames of a buffer. -/
theorem scan_induction {P : List α → Prop} (short : ∀ buffer, f.front buffer = .short → P buffer)
    (bad : ∀ buffer error, f.front buffer = .bad error → P buffer)
    (frame : ∀ buffer message length, f.front buffer = .frame message length →
      P (buffer.drop length) → P buffer) (buffer : List α) : P buffer := by
  induction hn : buffer.length using Nat.strong_induction_on generalizing buffer with
  | _ n ih =>
    cases hfront : f.front buffer with
    | short => exact short buffer hfront
    | bad error => exact bad buffer error hfront
    | frame message length =>
      obtain ⟨hpos, hle⟩ := f.frame_length hfront
      have hdrop : (buffer.drop length).length = buffer.length - length := length_drop
      exact frame buffer message length hfront (ih _ (by omega) _ rfl)

/-- What follows is scanned behind what was left. -/
theorem scan_append (buffer more : List α) : f.scan (buffer ++ more) = match f.scan buffer with
      | .ok (messages, rest) => (f.scan (rest ++ more)).map fun (others, rest) =>
        (messages ++ others, rest)
      | .error error => .error error := by
  induction buffer using f.scan_induction with
  | short buffer h =>
    rw [scan_short h]
    cases hscan : f.scan (buffer ++ more) with
    | error error | ok result => simp [hscan, Except.map]
  | bad buffer error h => rw [scan_bad h, scan_bad (f.bad_append h more)]
  | frame buffer message length h ih =>
    have hle := (f.frame_length h).2
    rw [scan_frame h, scan_frame (f.frame_append h more), drop_append_of_le_length hle, ih]
    cases hscan : f.scan (buffer.drop length) with
    | error error => rfl
    | ok result =>
      obtain ⟨messages, rest⟩ := result
      simp only [Except.map]
      cases f.scan (rest ++ more) with
      | error error | ok result => rfl

/-- What is left by a scan is too short for a frame. -/
theorem scan_rest {buffer rest : List α} {messages : List μ}
    (h : f.scan buffer = .ok (messages, rest)) : f.front rest = .short := by
  induction buffer using f.scan_induction generalizing messages with
  | short buffer hfront =>
    rw [scan_short hfront] at h
    cases h
    exact hfront
  | bad buffer error hfront =>
    rw [scan_bad hfront] at h
    cases h
  | frame buffer message length hfront ih =>
    rw [scan_frame hfront] at h
    cases hscan : f.scan (buffer.drop length) with
    | error error =>
      rw [hscan] at h
      cases h
    | ok result =>
      obtain ⟨others, left⟩ := result
      rw [hscan] at h
      cases h
      exact ih hscan

/-! ### Feeding -/

/-- After an error every further chunk gives the same error. -/
theorem feedAll_of_error {error : ε} (h : f.scan buffer = .error error) (chunks : List (List α)) :
    f.feedAll buffer chunks
      = (List.replicate chunks.length (.error error), buffer ++ chunks.flatten) := by
  induction chunks generalizing buffer with
  | nil => simp [feedAll]
  | cons chunk chunks ih =>
    have hscan : f.scan (buffer ++ chunk) = .error error := by
      rw [scan_append, h]
    have hfeed : f.feed buffer chunk = (.error error, buffer ++ chunk) := by
      unfold feed
      rw [hscan]
    unfold feedAll
    rw [hfeed]
    simp only
    rw [ih hscan]
    simp [replicate_succ]

/-- How feeding chunk after chunk ends, in terms of the whole stream scanned at once. -/
theorem feedAll_eq (h : f.front buffer = .short) (chunks : List (List α)) :
    (∃ (batches : List (List μ)) (rest : List α),
        f.feedAll buffer chunks = (batches.map .ok, rest) ∧
        f.scan (buffer ++ chunks.flatten) = .ok (batches.flatten, rest)) ∨
      ∃ (batches : List (List μ)) (n : Nat) (error : ε), f.feedAll buffer chunks
          = (batches.map .ok ++ List.replicate (n + 1) (.error error),
            (f.feedAll buffer chunks).2) ∧ f.scan (buffer ++ chunks.flatten) = .error error := by
  induction chunks generalizing buffer with
  | nil =>
    refine Or.inl ⟨[], buffer, rfl, ?_⟩
    simp [scan_short h]
  | cons chunk chunks ih =>
    have hassoc : buffer ++ (chunk :: chunks).flatten
        = (buffer ++ chunk) ++ chunks.flatten := by simp
    rw [hassoc, scan_append (buffer ++ chunk)]
    cases hscan : f.scan (buffer ++ chunk) with
    | error error =>
      right
      have hfeed : f.feed buffer chunk = (.error error, buffer ++ chunk) := by
        unfold feed
        rw [hscan]
      refine ⟨[], chunks.length, error, ?_, rfl⟩
      unfold feedAll
      rw [hfeed]
      simp only
      rw [feedAll_of_error hscan]
      simp [replicate_succ]
    | ok result =>
      obtain ⟨messages, rest⟩ := result
      have hfeed : f.feed buffer chunk = (.ok messages, rest) := by
        unfold feed
        rw [hscan]
      have hall : f.feedAll buffer (chunk :: chunks)
          = (.ok messages :: (f.feedAll rest chunks).1, (f.feedAll rest chunks).2) := by
        rw [feedAll, hfeed]
      rw [hall]
      rcases ih (scan_rest hscan) with ⟨batches, left, hfed, hwhole⟩ |
        ⟨batches, n, error, hfed, hwhole⟩
      · refine Or.inl ⟨messages :: batches, left, ?_, ?_⟩
        · rw [hfed]
          rfl
        · simp only [hwhole]
          rfl
      refine Or.inr ⟨messages :: batches, n, error, ?_, ?_⟩
      · rw [hfed]
        rfl
      · simp only [hwhole]
        rfl

/-- What the results of feeding chunk after chunk are, whatever the chunks. -/
structure ChunkFree (f : Framing α ε μ) (chunks : List (List α)) : Prop where
  /-- Some chunk fails exactly if the whole stream does. -/
  fails_iff : (∃ error, Except.error error ∈ (f.feedAll [] chunks).1) ↔
    ∃ error, (f.feed [] chunks.flatten).1 = .error error
  same_error : ∀ error, Except.error error ∈ (f.feedAll [] chunks).1 →
    (f.feed [] chunks.flatten).1 = .error error
  /-- Once a chunk failed, every further one does, with that error. -/
  stuck : ∀ (i j : Nat) (error : ε) (result : Except ε (List μ)), i ≤ j →
    (f.feedAll [] chunks).1[i]? = some (.error error) →
      (f.feedAll [] chunks).1[j]? = some result → result = .error error
  /-- Without a failure the chunks' messages, put together, are the stream's. -/
  joined : (∀ error, Except.error error ∉ (f.feedAll [] chunks).1) →
    ∃ batches : List (List μ), (f.feedAll [] chunks).1 = batches.map .ok ∧
      f.feed [] chunks.flatten = (.ok batches.flatten, (f.feedAll [] chunks).2)
  /-- And what is left is too short for a frame. -/
  rest : (∀ error, Except.error error ∉ (f.feedAll [] chunks).1) →
    f.front (f.feedAll [] chunks).2 = .short

/-- Results that end in one error repeated. -/
theorem stuck_of_replicate {batches : List (List μ)} {n : Nat} {error : ε} {i j : Nat}
    {error' : ε} {result : Except ε (List μ)} (hle : i ≤ j)
    (hi : (batches.map Except.ok ++ List.replicate n (Except.error error))[i]?
      = some (.error error'))
    (hj : (batches.map Except.ok ++ List.replicate n (Except.error error))[j]? = some result) :
    result = .error error' := by
  have hbatches : (batches.map Except.ok : List (Except ε (List μ))).length ≤ i := by
    by_contra hlt
    rw [getElem?_append_left (by omega), getElem?_map] at hi
    obtain ⟨messages, -, hmessages⟩ := Option.map_eq_some_iff.mp hi
    cases hmessages
  rw [getElem?_append_right hbatches, getElem?_replicate] at hi
  rw [getElem?_append_right (by omega), getElem?_replicate] at hj
  split at hi
  · split at hj
    · rw [← Option.some.inj hj, ← Option.some.inj hi]
    · cases hj
  · cases hi

/-- **However a stream is cut, it decodes to the same.** -/
theorem chunkFree (f : Framing α ε μ) (chunks : List (List α)) : f.ChunkFree chunks := by
  have hfeed : f.feed [] chunks.flatten =
      match f.scan chunks.flatten with
      | .ok (messages, rest) => (.ok messages, rest)
      | .error error => (.error error, chunks.flatten) := rfl
  rcases feedAll_eq f.front_nil chunks with ⟨batches, rest, hall, hscan⟩ |
    ⟨batches, n, error, hall, hscan⟩
  · rw [nil_append] at hscan
    rw [hscan] at hfeed
    have hnone : ∀ error, Except.error error ∉ (f.feedAll [] chunks).1 := by
      intro error hmem
      rw [hall] at hmem
      obtain ⟨messages, -, hmessages⟩ := mem_map.mp hmem
      cases hmessages
    refine
      { fails_iff := ?_
        same_error := fun error hmem => absurd hmem (hnone error)
        stuck := fun i j error _ _ hi => absurd (mem_of_getElem? hi) (hnone error)
        joined := fun _ => ⟨batches, by rw [hall], by rw [hfeed, hall]⟩
        rest := fun _ => by rw [hall]; exact scan_rest hscan }
    constructor
    · rintro ⟨error, hmem⟩
      exact absurd hmem (hnone error)
    · rintro ⟨error, herror⟩
      rw [hfeed] at herror
      cases herror
  rw [nil_append] at hscan
  rw [hscan] at hfeed
  have hresults : (f.feedAll [] chunks).1
      = batches.map .ok ++ List.replicate (n + 1) (.error error) := by rw [hall]
  have hsome : Except.error error ∈ (f.feedAll [] chunks).1 := by
    rw [hresults]
    exact mem_append_right _ (mem_replicate.mpr ⟨by omega, rfl⟩)
  have hfailed : ¬∀ error, Except.error error ∉ (f.feedAll [] chunks).1 := fun h => h error hsome
  refine
    { fails_iff := ⟨fun _ => ⟨error, by rw [hfeed]⟩, fun _ => ⟨error, hsome⟩⟩
      same_error := ?_
      stuck := ?_
      joined := fun h => absurd h hfailed
      rest := fun h => absurd h hfailed }
  · intro error' hmem
    rw [hresults] at hmem
    rcases mem_append.mp hmem with hmem | hmem
    · obtain ⟨messages, -, hmessages⟩ := mem_map.mp hmem
      cases hmessages
    · rw [hfeed, (mem_replicate.mp hmem).2]
  intro i j error' result hle hi hj
  rw [hresults] at hi hj
  exact stuck_of_replicate hle hi hj

/-! ### Writing what is read back -/

/-- A list of messages and the bytes they are written as, one frame each. -/
inductive Written (f : Framing α ε μ) : List μ → List α → Prop
  | nil : Written f [] []
  | cons {message : μ} {messages : List μ} {bytes stream : List α} :
      (∀ more, f.front (bytes ++ more) = .frame message bytes.length) →
        Written f messages stream → Written f (message :: messages) (bytes ++ stream)

/-- What was written is read back, with nothing left. -/
theorem Written.scan {messages : List μ} {stream : List α} (h : f.Written messages stream) :
    f.scan stream = .ok (messages, []) := by
  induction h with
  | nil => exact scan_short f.front_nil
  | cons hfront _ ih =>
    rw [scan_frame (hfront _), drop_left, ih]
    rfl

/-! ### Framings without errors -/

section Total

variable {f : Framing α Empty μ}

/-- The frames of a buffer and what is left of it, when nothing can be bad. -/
def split (f : Framing α Empty μ) (buffer : List α) : List μ × List α :=
  match f.scan buffer with
  | .ok result => result
  | .error error => error.elim

theorem scan_eq_split (f : Framing α Empty μ) (buffer : List α) :
    f.scan buffer = .ok (f.split buffer) := by
  unfold split
  cases f.scan buffer with
  | ok result => rfl
  | error error => exact error.elim

theorem split_short {buffer : List α} (h : f.front buffer = .short) :
    f.split buffer = ([], buffer) := by
  unfold split
  rw [scan_short h]

theorem split_frame {buffer : List α} {message : μ} {length : Nat}
    (h : f.front buffer = .frame message length) : f.split buffer =
      (message :: (f.split (buffer.drop length)).1, (f.split (buffer.drop length)).2) := by
  have hscan := scan_frame h
  rw [scan_eq_split, scan_eq_split] at hscan
  exact Except.ok.inj hscan

/-- What follows is split behind what was left. -/
theorem split_append (f : Framing α Empty μ) (buffer more : List α) : f.split (buffer ++ more) =
      ((f.split buffer).1 ++ (f.split ((f.split buffer).2 ++ more)).1,
        (f.split ((f.split buffer).2 ++ more)).2) := by
  have hscan := scan_append (f := f) buffer more
  simp only [scan_eq_split] at hscan
  exact Except.ok.inj hscan

theorem front_split (f : Framing α Empty μ) (buffer : List α) :
    f.front (f.split buffer).2 = .short :=
  scan_rest (scan_eq_split f buffer)

/-- If frames are the elements they take, a buffer is its frames and what is left. -/
theorem flatMap_split (f : Framing α Empty μ) (elements : μ → List α)
    (h : ∀ {buffer message length}, f.front buffer = .frame message length →
      elements message = buffer.take length) (buffer : List α) :
    (f.split buffer).1.flatMap elements ++ (f.split buffer).2 = buffer := by
  induction buffer using f.scan_induction with
  | short buffer hfront =>
    rw [split_short hfront]
    rfl
  | bad buffer error hfront => exact error.elim
  | frame buffer message length hfront ih =>
    rw [split_frame hfront, flatMap_cons, append_assoc, ih, h hfront, take_append_drop]

end Total

/-! ### Kind, length, payload -/

variable (accept : UInt8 → Nat → Except ε Unit) (decode : UInt8 → List UInt8 → Except ε μ)

def prefixedFront : List UInt8 → Front ε μ
  | kind :: b₁ :: b₂ :: b₃ :: b₄ :: rest =>
    match accept kind (beValue [b₁, b₂, b₃, b₄]) with
    | .error error => .bad error
    | .ok () =>
      if rest.length < beValue [b₁, b₂, b₃, b₄] then .short
      else
        match decode kind (rest.take (beValue [b₁, b₂, b₃, b₄])) with
        | .error error => .bad error
        | .ok message => .frame message (5 + beValue [b₁, b₂, b₃, b₄])
  | _ => .short

/-- The header of a frame. -/
def header (kind : UInt8) (length : Nat) : List UInt8 := kind :: beBytes 4 length

@[simp] theorem length_header (kind : UInt8) (length : Nat) : (header kind length).length = 5 := by
  simp [header]

variable {buffer : List UInt8}

/-- Five bytes or more start with a header. -/
theorem exists_header (h : 5 ≤ buffer.length) :
    ∃ kind b₁ b₂ b₃ b₄ rest, buffer = kind :: b₁ :: b₂ :: b₃ :: b₄ :: rest := by
  match buffer with
  | kind :: b₁ :: b₂ :: b₃ :: b₄ :: rest => exact ⟨kind, b₁, b₂, b₃, b₄, rest, rfl⟩

/-- A complete frame at the front, or the reason why not. -/
theorem prefixedFront_cons (kind b₁ b₂ b₃ b₄ : UInt8) (rest : List UInt8) :
    prefixedFront accept decode (kind :: b₁ :: b₂ :: b₃ :: b₄ :: rest) =
      match accept kind (beValue [b₁, b₂, b₃, b₄]) with
      | .error error => .bad error
      | .ok () => if rest.length < beValue [b₁, b₂, b₃, b₄] then .short else
          match decode kind (rest.take (beValue [b₁, b₂, b₃, b₄])) with
          | .error error => .bad error
          | .ok message => .frame message (5 + beValue [b₁, b₂, b₃, b₄]) := rfl

theorem prefixedFront_short (h : buffer.length < 5) :
    prefixedFront accept decode buffer = .short := by
  unfold prefixedFront
  split
  · rename_i kind b₁ b₂ b₃ b₄ rest
    simp only [length_cons] at h
    omega
  · rfl

/-- What a front that is not short tells, it tells of every longer buffer. -/
theorem prefixedFront_append (h : prefixedFront accept decode buffer ≠ .short) (more : List UInt8) :
    prefixedFront accept decode (buffer ++ more) = prefixedFront accept decode buffer := by
  have hlength : 5 ≤ buffer.length := by
    by_contra hlt
    exact h (prefixedFront_short accept decode (by omega))
  obtain ⟨kind, b₁, b₂, b₃, b₄, rest, rfl⟩ := exists_header hlength
  simp only [cons_append, prefixedFront_cons] at h ⊢
  cases haccept : accept kind (beValue [b₁, b₂, b₃, b₄]) with
  | error error => rfl
  | ok _ =>
    simp only [haccept] at h ⊢
    by_cases hshort : rest.length < beValue [b₁, b₂, b₃, b₄]
    · rw [if_pos hshort] at h
      exact absurd rfl h
    have hlong : ¬(rest ++ more).length < beValue [b₁, b₂, b₃, b₄] := by
      rw [length_append]
      omega
    rw [if_neg hshort, if_neg hlong, take_append_of_le_length (by omega)]

/-- The framing by kind, length and payload. -/
def prefixed : Framing UInt8 ε μ where
  front := prefixedFront accept decode
  front_nil := rfl
  frame_length := by
    intro buffer message length h
    have hlength : 5 ≤ buffer.length := by
      by_contra hlt
      rw [prefixedFront_short accept decode (by omega)] at h
      cases h
    obtain ⟨kind, b₁, b₂, b₃, b₄, rest, rfl⟩ := exists_header hlength
    rw [prefixedFront_cons] at h
    cases haccept : accept kind (beValue [b₁, b₂, b₃, b₄]) with
    | error error => simp [haccept] at h
    | ok _ =>
      simp only [haccept] at h
      split at h
      · cases h
      · rename_i hlong
        split at h <;> cases h
        simp only [length_cons]
        omega
  frame_append := by
    intro buffer message length h more
    rw [← h]
    exact prefixedFront_append accept decode (by rw [h]; simp) more
  bad_append := by
    intro buffer error h more
    rw [← h]
    exact prefixedFront_append accept decode (by rw [h]; simp) more

/-- A short buffer is shorter than its header says, or than a header. -/
theorem length_of_short (h : prefixedFront accept decode buffer = .short) :
    buffer.length < 5 ∨ buffer.length < 5 + beValue ((buffer.drop 1).take 4) := by
  by_cases hlength : buffer.length < 5
  · exact Or.inl hlength
  right
  obtain ⟨kind, b₁, b₂, b₃, b₄, rest, rfl⟩ := exists_header (by omega : 5 ≤ buffer.length)
  rw [prefixedFront_cons] at h
  simp only [length_cons, drop_succ_cons, drop_zero, take_succ_cons, take_zero]
  cases haccept : accept kind (beValue [b₁, b₂, b₃, b₄]) with
  | error error => simp [haccept] at h
  | ok _ =>
    simp only [haccept] at h
    split at h
    · omega
    · split at h <;> cases h

/-- A frame that is written is found again. -/
theorem prefixedFront_written {kind : UInt8} {payload : List UInt8} {message : μ}
    (haccept : accept kind payload.length = .ok ()) (hdecode : decode kind payload = .ok message)
    (hlength : payload.length < 256 ^ 4) (more : List UInt8) :
    prefixedFront accept decode ((header kind payload.length ++ payload) ++ more)
      = .frame message (header kind payload.length ++ payload).length := by
  obtain ⟨b₁, b₂, b₃, b₄, hbytes⟩ : ∃ b₁ b₂ b₃ b₄, beBytes 4 payload.length = [b₁, b₂, b₃, b₄] :=
    ⟨_, _, _, _, rfl⟩
  have hvalue : beValue [b₁, b₂, b₃, b₄] = payload.length := by
    rw [← hbytes, beValue_beBytes hlength]
  have hstream : (header kind payload.length ++ payload) ++ more
      = kind :: b₁ :: b₂ :: b₃ :: b₄ :: (payload ++ more) := by
    simp [header, hbytes]
  rw [hstream, prefixedFront_cons, hvalue, haccept]
  simp only
  rw [if_neg (by simp), take_left, hdecode]
  simp

end Framing

end Diri
