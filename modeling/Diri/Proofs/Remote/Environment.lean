/-
The environment comes out of a shell's output however the output is cut into reads.

Until the marker is there, what may be the beginning of one is held back.  The marker is
found where it was written, as no byte of it is repeated at its end (`notMarker`).  Then
reads go to the payload until the frame is whole, and those behind to the noise; so the
payload ends with the read that completes the frame, and is cut if that read brings more
behind the frame than the limit leaves room for.
-/
import Diri.Remote.Launch
import Mathlib.Data.List.Infix

namespace Diri.Wire

open List

/-! ### What is kept -/

/-- What is kept of all of these bytes. -/
def Bounded.of (limit : Nat) (bytes : List UInt8) : Bounded :=
  ⟨bytes.take limit, decide (limit < bytes.length)⟩

theorem Bounded.of_nil (limit : Nat) : Bounded.of limit [] = {} := by simp [Bounded.of]

theorem Bounded.push_of (limit : Nat) (bytes more : List UInt8) :
    (Bounded.of limit bytes).push limit more = Bounded.of limit (bytes ++ more) := by
  unfold Bounded.of Bounded.push
  rw [take_append, Bounded.mk.injEq, length_take, length_append]
  refine ⟨congrArg _ (take_eq_take_iff.mpr (by omega)), ?_⟩
  rw [Bool.eq_iff_iff]
  simp only [Bool.or_eq_true, bne_iff_ne, decide_eq_true_eq]
  omega

variable {noise body trailing : List UInt8}

def frame (body : List UInt8) : List UInt8 := marker ++ beBytes lengthBytes body.length ++ body

theorem length_frame : (frame body).length = marker.length + lengthBytes + body.length := by
  rw [frame, length_append, length_append, length_beBytes]

theorem drop_marker (more : List UInt8) :
    (frame body ++ more).drop marker.length = beBytes lengthBytes body.length ++ (body ++ more) := by
  rw [frame, append_assoc, append_assoc, drop_left]

theorem frameBody_frame (hbody : body.length < 256 ^ lengthBytes) (more : List UInt8) :
    frameBody (frame body ++ more) = .ok body := by
  have hmarker : marker <+: frame body ++ more := by
    rw [frame, append_assoc, append_assoc]
    exact prefix_append _ _
  have hheader := @take_left' _ _ (body ++ more) _ (length_beBytes lengthBytes body.length)
  have hrest := @drop_left' _ _ (body ++ more) _ (length_beBytes lengthBytes body.length)
  have hlong : ¬(beBytes lengthBytes body.length ++ (body ++ more)).length < lengthBytes := by
    rw [length_append, length_beBytes]
    omega
  unfold frameBody
  dsimp only
  rw [if_pos hmarker, drop_marker, if_neg hlong, hheader, hrest, beValue_beBytes hbody, if_pos,
    take_left]
  rw [length_append]
  omega

theorem frameBody_short (hbody : body.length < 256 ^ lengthBytes) {n : Nat}
    (hn : n < (frame body).length) : ∃ e, frameBody ((frame body).take n) = .error e := by
  have hframed : ((frame body).take n).drop marker.length
      = (beBytes lengthBytes body.length ++ body).take (n - marker.length) := by
    rw [drop_take, ← append_nil (frame body), drop_marker, append_nil]
  rw [length_frame] at hn
  unfold frameBody
  dsimp only
  rw [hframed]
  by_cases hmarker : marker <+: (frame body).take n
  · have hbehind := hmarker.length_le.trans (length_take_le _ _)
    rw [if_pos hmarker]
    split
    · exact ⟨_, rfl⟩
    next hlong =>
      rw [length_take, length_append, length_beBytes] at hlong
      have hheader : ((beBytes lengthBytes body.length ++ body).take (n - marker.length)).take
          lengthBytes = beBytes lengthBytes body.length := by
        rw [take_take, Nat.min_eq_left (by omega), take_left' (length_beBytes _ _)]
      rw [hheader, beValue_beBytes hbody, if_neg]
      · exact ⟨_, rfl⟩
      · rw [length_drop, length_take, length_append, length_beBytes]
        omega
  · rw [if_neg hmarker]
    exact ⟨_, rfl⟩

/-! ### Where the marker is -/

/-- A marker that begins in the noise does not end in the marker behind it. -/
theorem notMarker (hnoise : ¬marker <:+: noise) (rest : List UInt8) {i : Nat}
    (hi : i < noise.length) : ¬marker <+: (noise ++ (marker ++ rest)).drop i := by
  rintro ⟨behind, hbehind⟩
  by_cases hinside : i + marker.length ≤ noise.length
  · refine hnoise (IsPrefix.isInfix ?_ |>.trans (drop_suffix i noise).isInfix)
    refine prefix_of_prefix_length_le ⟨behind, hbehind⟩ ?_ (by rw [length_drop]; omega)
    rw [drop_append_of_le_length (by omega)]
    exact prefix_append _ _
  -- its last byte is zero, and stands where the marker behind has another one
  have hlast : (noise ++ (marker ++ rest))[i + 8]? = some 0 := by
    rw [← getElem?_drop, ← hbehind, getElem?_append_left (by decide)]
    decide
  have hlength : marker.length = 9 := rfl
  rw [getElem?_append_right (by omega), getElem?_append_left (by omega)] at hlast
  have hother : ∀ j < 8, marker[j]? ≠ some 0 := by decide
  exact hother _ (by omega) hlast

def output (noise body trailing : List UInt8) : List UInt8 := noise ++ (frame body ++ trailing)

theorem notMarker_output (hnoise : ¬marker <:+: noise) {i : Nat} (hi : i < noise.length) :
    ¬marker <+: (output noise body trailing).drop i := by
  unfold output frame
  rw [append_assoc, append_assoc]
  exact notMarker hnoise _ hi

variable {P N pending : List UInt8}

theorem find_none (hnoise : ¬marker <:+: noise) (hP : N ++ pending <+: output noise body trailing)
    (hshort : (N ++ pending).length < noise.length + marker.length) :
    pending.tails.findIdx? marker.isPrefixOf = none := by
  rw [findIdx?_eq_none_iff]
  intro tail htail
  obtain ⟨front, rfl⟩ := (mem_tails _ _).mp htail
  rw [Bool.eq_false_iff, ne_eq, isPrefixOf_iff_prefix]
  intro hmarker
  have hlength := hmarker.length_le
  rw [← append_assoc] at hP hshort
  rw [length_append] at hshort
  have hdrop := hP.drop (N ++ front).length
  rw [drop_left] at hdrop
  exact notMarker_output hnoise (by omega) (hmarker.trans hdrop)

theorem find_some (hnoise : ¬marker <:+: noise) (hP : N ++ pending <+: output noise body trailing)
    (hN : N.length ≤ noise.length) (hlong : noise.length + marker.length ≤ (N ++ pending).length) :
    pending.tails.findIdx? marker.isPrefixOf = some (noise.length - N.length) := by
  rw [length_append] at hlong
  have hdrop (i : Nat) : pending.drop i = (N ++ pending).drop (N.length + i) := by
    rw [drop_length_add_append]
  rw [findIdx?_eq_some_iff_getElem]
  refine ⟨by rw [length_tails]; omega, ?_, fun j hj => ?_⟩
  · rw [getElem_tails, isPrefixOf_iff_prefix, hdrop, Nat.add_sub_cancel' hN]
    refine prefix_of_prefix_length_le ?_ (hP.drop _) (by rw [length_drop, length_append]; omega)
    unfold output frame
    rw [drop_left, append_assoc, append_assoc]
    exact prefix_append _ _
  · rw [getElem_tails, isPrefixOf_iff_prefix, hdrop]
    intro hmarker
    exact notMarker_output hnoise (by omega) (hmarker.trans (hP.drop _))

/-! ### Reading -/

def frameEnd (noise body : List UInt8) : Nat := noise.length + (frame body).length

/-- How much is read when the frame is whole. -/
def readWhole (noise body : List UInt8) (reads : List (List UInt8)) : Nat :=
  reads.foldl (fun read chunk =>
    if frameEnd noise body ≤ read then read else read + chunk.length) 0

/-- Where the loop is once `P` was read; `read` of it is noise and payload. -/
inductive Phase (noise body : List UInt8) : (P : List UInt8) → (read : Nat) → FramedCapture → Prop
  | searching {N pending : List UInt8} (hN : N.length ≤ noise.length)
      (hshort : (N ++ pending).length < noise.length + marker.length) :
      Phase noise body (N ++ pending) (N ++ pending).length
        ⟨.of diagnosticLimit N, .of payloadLimit [], false, pending⟩
  | filling {Q : List UInt8} (hshort : Q.length < (frame body).length) :
      Phase noise body (noise ++ Q) (noise ++ Q).length
        ⟨.of diagnosticLimit noise, .of payloadLimit Q, true, []⟩
  | whole {Q more : List UInt8} (hwhole : (frame body).length ≤ Q.length) :
      Phase noise body (noise ++ (Q ++ more)) (noise ++ Q).length
        ⟨.of diagnosticLimit (noise ++ more), .of payloadLimit Q, true, []⟩

theorem Phase.framed (Q : List UInt8) : Phase noise body (noise ++ Q) (noise ++ Q).length
    ⟨.of diagnosticLimit noise, .of payloadLimit Q, true, []⟩ := by
  by_cases hshort : Q.length < (frame body).length
  · exact .filling hshort
  · have hwhole := @Phase.whole noise body Q [] (Nat.le_of_not_lt hshort)
    rwa [append_nil, append_nil] at hwhole

theorem length_frame_le (hbody : body.length ≤ maxLaunchBytes) :
    (frame body).length ≤ payloadLimit := by
  rw [length_frame]
  exact Nat.add_le_add_left hbody _

theorem lt_of_le_maxLaunchBytes (hbody : body.length ≤ maxLaunchBytes) :
    body.length < 256 ^ lengthBytes :=
  Nat.lt_of_le_of_lt hbody (by decide)

theorem frameBody_whole (hbody : body.length ≤ maxLaunchBytes) (rest : List UInt8) :
    frameBody (Bounded.of payloadLimit (frame body ++ rest)).target = .ok body := by
  rw [Bounded.of, take_append, take_of_length_le (length_frame_le hbody),
    frameBody_frame (lt_of_le_maxLaunchBytes hbody)]

theorem Phase.step (hnoise : ¬marker <:+: noise) (hbody : body.length ≤ maxLaunchBytes)
    {read : Nat} {capture : FramedCapture} (h : Phase noise body P read capture)
    (chunk : List UInt8) (hP : P ++ chunk <+: output noise body trailing) :
    Phase noise body (P ++ chunk)
      (if frameEnd noise body ≤ read then read else read + chunk.length) (capture.read chunk) := by
  have hsmall := lt_of_le_maxLaunchBytes hbody
  have hlimit := length_frame_le hbody
  have hlength := @length_frame body
  unfold FramedCapture.read
  cases h with
  | @searching N pending hN hshort =>
    rw [if_neg (by unfold frameEnd; omega), ← length_append, append_assoc]
    rw [append_assoc] at hP
    simp only [Bool.false_eq_true, if_false]
    by_cases hnext : (N ++ (pending ++ chunk)).length < noise.length + marker.length
    · rw [find_none hnoise hP hnext]
      simp only [Bounded.push_of]
      rw [length_append] at hshort hnext
      have hsearching := @Phase.searching noise body
        (N ++ (pending ++ chunk).take ((pending ++ chunk).length - (marker.length - 1)))
        ((pending ++ chunk).drop ((pending ++ chunk).length - (marker.length - 1)))
        (by rw [length_append, length_take]; omega)
        (by rw [append_assoc, take_append_drop, length_append]; omega)
      rwa [append_assoc, take_append_drop] at hsearching
    rw [find_some hnoise hP hN (by omega)]
    simp only [Bounded.push_of, nil_append]
    rw [length_append] at hnext
    have hfront : N ++ (pending ++ chunk).take (noise.length - N.length) = noise := by
      refine (@prefix_of_prefix_length_le _ _ _ (output noise body trailing) ?_
        (prefix_append _ _) ?_).eq_of_length ?_
      · exact ((prefix_append_right_inj _).mpr (List.take_prefix _ _)).trans hP
      all_goals
        rw [length_append, length_take]
        omega
    have hframed := @Phase.framed noise body
      ((pending ++ chunk).drop (noise.length - N.length))
    have hread : noise ++ (pending ++ chunk).drop (noise.length - N.length)
        = N ++ (pending ++ chunk) := by
      conv_lhs => rw [← hfront, append_assoc, hfront, take_append_drop]
    rw [hfront]
    rwa [hread] at hframed
  | @filling Q hshort =>
    rw [if_neg (by unfold frameEnd; rw [length_append]; omega), ← length_append, append_assoc]
    rw [append_assoc] at hP
    have hinside := (prefix_append Q chunk).trans ((prefix_append_right_inj _).mp hP)
    have hQ : Q = (frame body).take Q.length :=
      prefix_iff_eq_take.mp
        (prefix_of_prefix_length_le hinside (prefix_append _ _) (Nat.le_of_lt hshort))
    obtain ⟨e, he⟩ := frameBody_short hsmall hshort
    rw [← hQ] at he
    have htarget : frameBody (Bounded.of payloadLimit Q).target = .error e := by
      rw [Bounded.of, take_of_length_le (by omega), he]
    simp only [if_true, htarget, Bounded.push_of]
    exact .framed _
  | @whole Q more hwhole =>
    rw [if_pos (by unfold frameEnd; rw [length_append]; omega)]
    rw [append_assoc, append_assoc] at hP
    have hinside := (prefix_append Q _).trans ((prefix_append_right_inj _).mp hP)
    obtain ⟨rest, rfl⟩ := prefix_of_prefix_length_le (prefix_append _ _) hinside hwhole
    simp only [if_true, frameBody_whole hbody, Bounded.push_of]
    simpa only [append_assoc] using @Phase.whole noise body _ (more ++ chunk) hwhole

theorem Phase.run (hnoise : ¬marker <:+: noise) (hbody : body.length ≤ maxLaunchBytes)
    (reads : List (List UInt8)) (h : reads.flatten <+: output noise body trailing) :
    Phase noise body reads.flatten (readWhole noise body reads)
      (reads.foldl FramedCapture.read {}) := by
  induction reads using List.reverseRecOn with
  | nil =>
    have hsearching := @Phase.searching noise body [] [] (Nat.zero_le _)
      (Nat.lt_of_lt_of_le (by decide) (Nat.le_add_left _ _))
    rwa [Bounded.of_nil, Bounded.of_nil] at hsearching
  | append_singleton reads chunk ih =>
    rw [flatten_concat] at h ⊢
    rw [readWhole, foldl_concat, foldl_concat]
    exact (ih ((prefix_append _ _).trans h)).step hnoise hbody chunk h

/-- The payload is all that came until the frame was whole; the rest is noise. -/
theorem drainFramed_eq (hnoise : ¬marker <:+: noise) (hbody : body.length ≤ maxLaunchBytes)
    {reads : List (List UInt8)} (hreads : reads.flatten = noise ++ (frame body ++ trailing)) :
    ∃ rest more, trailing = rest ++ more ∧
      readWhole noise body reads = noise.length + (frame body ++ rest).length ∧ drainFramed reads =
        ⟨.of diagnosticLimit (noise ++ more), .of payloadLimit (frame body ++ rest), true, []⟩ := by
  have hphase := @Phase.run _ _ trailing hnoise hbody reads (by rw [hreads]; exact prefix_rfl)
  rw [hreads] at hphase
  unfold drainFramed
  generalize reads.foldl FramedCapture.read {} = capture at hphase ⊢
  generalize readWhole noise body reads = read at hphase ⊢
  generalize hall : noise ++ (frame body ++ trailing) = P at hphase
  have hlong := congrArg length hall
  rw [length_append, length_append] at hlong
  cases hphase with
  | searching hN hshort =>
    rw [length_frame] at hlong
    omega
  | filling hshort =>
    rw [length_append] at hlong
    omega
  | @whole Q more hwhole =>
    have hQ := append_cancel_left hall
    obtain ⟨rest, rfl⟩ := prefix_of_prefix_length_le (prefix_append _ _)
      (hQ ▸ prefix_append Q more) hwhole
    rw [append_assoc] at hQ
    refine ⟨rest, more, append_cancel_left hQ, length_append, ?_⟩
    simp only [Bounded.push_of, append_nil]

/-- What the caller is promised: all of the payload, and the noise as far as it is kept. -/
def IsCaptured (noise body : List UInt8) (capture : FramedCapture) : Prop :=
  capture.payload.truncated = false ∧ frameBody capture.payload.target = .ok body ∧
    noise.take diagnosticLimit <+: capture.noise.target

/--
**The environment is captured** however the output is cut, exactly if the reads, up to the one
that completes the frame, bring no more behind the frame than the largest body leaves room for.
-/
theorem environment_captured_iff (hnoise : ¬marker <:+: noise)
    (hbody : body.length ≤ maxLaunchBytes) (reads : List (List UInt8))
    (hreads : reads.flatten = noise ++ (frame body ++ trailing)) :
    IsCaptured noise body (drainFramed reads) ↔
      readWhole noise body reads ≤ noise.length + payloadLimit := by
  obtain ⟨rest, more, -, hread, hdrained⟩ := drainFramed_eq hnoise hbody hreads
  have hkept : noise.take diagnosticLimit <+: (Bounded.of diagnosticLimit (noise ++ more)).target := by
    rw [Bounded.of, take_append]
    exact prefix_append _ _
  rw [hread, hdrained, IsCaptured, frameBody_whole hbody, and_iff_right rfl, and_iff_left hkept]
  simp only [Bounded.of, decide_eq_false_iff_not]
  omega

theorem environment_captured_iff_chatter :
    IsCaptured [0x68] [0x2F] (drainFramed [0x68 :: marker, [0, 0, 0, 0, 0, 0, 0, 1, 0x2F, 0x0A]]) ↔
      readWhole [0x68] [0x2F] [0x68 :: marker, [0, 0, 0, 0, 0, 0, 0, 1, 0x2F, 0x0A]]
        ≤ 1 + payloadLimit :=
  @environment_captured_iff _ _ [0x0A] (by decide) (by decide) _ (by decide)

theorem readWhole_short {reads : List (List UInt8)}
    (h : reads.flatten.length < frameEnd noise body) :
    readWhole noise body reads = reads.flatten.length := by
  induction reads using List.reverseRecOn with
  | nil => rfl
  | append_singleton reads chunk ih =>
    rw [flatten_concat, length_append] at h ⊢
    have hbefore := ih (by omega)
    unfold readWhole at hbefore ⊢
    rw [foldl_concat, hbefore, if_neg (by omega)]

/-- The largest body, in reads of a byte or two, and a newline behind it. -/
theorem largest_body_truncated : ¬∀ (noise body trailing : List UInt8) (reads : List (List UInt8)),
    ¬marker <:+: noise → body.length ≤ maxLaunchBytes →
      reads.flatten = noise ++ (frame body ++ trailing) → IsCaptured noise body (drainFramed reads) := by
  intro h
  obtain ⟨n, hn⟩ := Nat.exists_eq_succ_of_ne_zero (show maxLaunchBytes ≠ 0 by decide)
  obtain ⟨body, hbody⟩ : ∃ body : List UInt8, body = replicate n 0 ++ [0] := ⟨_, rfl⟩
  obtain ⟨front, hfront⟩ : ∃ front : List UInt8, frame body = front ++ [0] :=
    ⟨marker ++ beBytes lengthBytes body.length ++ replicate n 0, by
      rw [append_assoc, ← hbody, frame]⟩
  have hlargest : body.length = maxLaunchBytes := by
    rw [hbody, length_append, length_replicate, length_singleton, hn]
  have hlength : front.length + 1 = payloadLimit := by
    rw [payloadLimit, ← hlargest, ← length_frame, hfront, length_append, length_singleton]
  have hsingle : (front.map fun byte => [byte]).flatten = front := by
    rw [← flatMap_def, flatMap_singleton']
  have hreads : (front.map (fun byte => [byte]) ++ [[0, 0x0A]]).flatten
      = [] ++ (frame body ++ [0x0A]) := by
    rw [flatten_concat, hsingle, hfront, nil_append, append_assoc, singleton_append]
  obtain ⟨rest, more, -, hread, hdrained⟩ :=
    drainFramed_eq (by decide) (Nat.le_of_eq hlargest) hreads
  have hshort : front.length < frameEnd [] body := by
    rw [frameEnd, hfront, length_append, length_nil, length_singleton]
    omega
  have hbefore := readWhole_short (hsingle ▸ hshort)
  have hcaptured := (h [] body [0x0A] _ (by decide) (Nat.le_of_eq hlargest) hreads).1
  simp only [hdrained, Bounded.of, decide_eq_false_iff_not] at hcaptured
  rw [readWhole, foldl_concat, ← readWhole, hbefore, hsingle, if_neg (by omega)] at hread
  simp only [length_append, hfront, length_cons, length_nil] at hread hcaptured
  omega

end Diri.Wire
