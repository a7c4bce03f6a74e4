/-
The sync points are the newest resets of the stream.

An append looks at its bytes and at the three before them, so it meets a reset again that
it has met before.  Only one can be met again: a reset that is whole within three bytes has
two, and leaves no room for another behind it.  So it is the newest point, the one that the
filter looks at.  A reset that is cut off is one of the last three bytes or behind them, and
whatever it becomes, no reset that was whole begins behind it (`resets_prefix`).
-/
import Diri.Proofs.Log.Writer

namespace Diri

open List

/-- ESC c, and CSI 2 J. -/
def resetSequences : List (List UInt8) := [[0x1B, 0x63], [0x1B, 0x5B, 0x32, 0x4A]]

/-- The offsets at which a reset begins in the stream. -/
def resets (S : List UInt8) : List Nat :=
  (range S.length).filter fun offset => ∃ reset ∈ resetSequences, reset <+: S.drop offset

/-- As many as are kept. -/
def newest (points : List Nat) : List Nat := points.drop (points.length - maxSyncPoints)

namespace OutputLog

theorem startsReset_iff (text : List UInt8) :
    startsReset text ↔ ∃ reset ∈ resetSequences, reset <+: text := by
  unfold startsReset
  split <;> simp_all [resetSequences, cons_prefix_iff]

theorem startsReset_append {text : List UInt8} (h : 4 ≤ text.length) (more : List UInt8) :
    startsReset (text ++ more) = startsReset text := by
  match text, h with
  | a :: b :: c :: d :: text, _ =>
    rw [Bool.eq_iff_iff, startsReset_iff, startsReset_iff]
    simp [resetSequences]

/-! ### The resets of a stream -/

theorem resets_eq (S : List UInt8) :
    resets S = (range S.length).filter fun offset => startsReset (S.drop offset) := by
  unfold resets
  refine filter_congr fun offset _ => ?_
  rw [Bool.eq_iff_iff, startsReset_iff, decide_eq_true_eq]

theorem resets_cons (byte : UInt8) (S : List UInt8) : resets (byte :: S) =
    (if startsReset (byte :: S) then [0] else []) ++ (resets S).map (· + 1) := by
  rw [resets_eq, resets_eq, length_cons, range_succ_eq_map, filter_cons, filter_map]
  split <;> simp_all [Function.comp_def]

/-- The last byte begins no reset. -/
theorem resets_range (S : List UInt8) :
    resets S = (range (S.length - 1)).filter fun i => startsReset (S.drop i) := by
  rw [resets_eq]
  cases hlength : S.length with
  | zero => rfl
  | succ n =>
    obtain ⟨byte, hlast⟩ := length_eq_one_iff.mp (show (S.drop n).length = 1 by simp [hlength])
    rw [Nat.add_sub_cancel, range_succ, filter_append, filter_singleton, hlast]
    simp [startsReset]

/-- A reset that is whole leaves no room in three bytes for another one. -/
theorem length_resets_le {S : List UInt8} (h : S.length ≤ 3) : (resets S).length ≤ 1 := by
  match S, h with
  | [], _ | [a], _ => simp [resets_range]
  | [a, b], _ | [a, b, c], _ =>
    simp only [resets_cons, startsReset_iff]
    simp [resetSequences, resets_range]
    grind

/-- A reset that the bytes behind complete has no whole one behind it. -/
theorem resets_eq_nil {byte : UInt8} {S data : List UInt8} (h : startsReset (byte :: S) = false)
    (hlater : startsReset (byte :: S ++ data) = true) : resets S = [] := by
  match S with
  | a :: b :: c :: S =>
    rw [startsReset_append (by simp), h] at hlater
    cases hlater
  | [] | [a] => simp [resets_range]
  | [a, b] =>
    simp only [resets_cons, startsReset_iff] at h hlater ⊢
    simp [resetSequences, resets_range] at h hlater ⊢
    grind

/-- No reset is found later in front of one that was found. -/
theorem resets_prefix (S data : List UInt8) : resets S <+: resets (S ++ data) := by
  induction S with
  | nil => exact nil_prefix
  | cons byte S ih =>
    rw [cons_append, resets_cons, resets_cons, ← cons_append]
    cases hnow : startsReset (byte :: S) with
    | true =>
      have hlater : startsReset (byte :: S ++ data) = true := by
        obtain ⟨reset, hmem, hprefix⟩ := (startsReset_iff _).mp hnow
        exact (startsReset_iff _).mpr ⟨reset, hmem, hprefix.trans (prefix_append _ _)⟩
      rw [hlater]
      exact (prefix_append_right_inj _).mpr (ih.map _)
    | false =>
      cases hlater : startsReset (byte :: S ++ data) with
      | false => exact (prefix_append_right_inj _).mpr (ih.map _)
      | true =>
        rw [resets_eq_nil hnow hlater]
        exact nil_prefix

/-- Behind three bytes the stream is forgotten, up to the resets that begin there. -/
theorem resets_append {front carry : List UInt8} (h : front = [] ∨ carry.length = 3) :
    ∃ early, ∀ data,
      resets (front ++ carry ++ data) = early ++ (resets (carry ++ data)).map (front.length + ·) := by
  refine ⟨(range front.length).filter fun i => startsReset ((front ++ carry).drop i), fun data => ?_⟩
  rw [resets_eq, resets_eq, append_assoc, length_append, range_add, filter_append, filter_map]
  congr 1
  · refine filter_congr fun i hi => ?_
    rw [mem_range] at hi
    have hcarry : carry.length = 3 := h.resolve_left (ne_nil_of_length_pos (by omega))
    rw [← append_assoc, drop_append_of_le_length (by rw [length_append]; omega)]
    refine startsReset_append ?_ data
    rw [length_drop, length_append]
    omega
  · simp only [Function.comp_def, drop_length_add_append]

/-! ### The points -/

theorem pushSyncPoint_newest {points : List Nat} {offset : Nat}
    (h : ∀ point ∈ points, point < offset) :
    pushSyncPoint offset (newest points) = newest (points ++ [offset]) := by
  unfold pushSyncPoint newest
  rw [if_neg]
  · have hpast : points.length - maxSyncPoints
        + (points.length - (points.length - maxSyncPoints) + 1 - maxSyncPoints)
        = points.length + 1 - maxSyncPoints := by
      unfold maxSyncPoints
      omega
    rw [← drop_append_of_le_length (Nat.sub_le _ _), drop_drop, length_drop, hpast, length_append,
      length_singleton]
  · intro hlast
    exact Nat.lt_irrefl _ (h _ (mem_of_mem_drop (mem_of_getLast? hlast)))

theorem pushSyncPoint_again (points : List Nat) (offset : Nat) :
    pushSyncPoint offset (newest (points ++ [offset])) = newest (points ++ [offset]) := by
  unfold pushSyncPoint newest
  rw [if_pos]
  rw [drop_append_of_le_length (by simp [maxSyncPoints]), getLast?_concat]

theorem foldl_pushSyncPoint {points more : List Nat} (h : (points ++ more).Pairwise (· < ·)) :
    more.foldl (fun points offset => pushSyncPoint offset points) (newest points)
      = newest (points ++ more) := by
  induction more generalizing points with
  | nil => rw [append_nil, foldl_nil]
  | cons offset more ih =>
    rw [append_cons] at h ⊢
    have hoffset := (pairwise_append.mp (pairwise_append.mp h).1).2.2
    rw [foldl_cons, pushSyncPoint_newest fun point hpoint => hoffset point hpoint _ (by simp), ih h]

/-! ### Appending -/

/-- What a writer knows of the stream that it wrote. -/
structure Scanned (S : List UInt8) (log : OutputLog) : Prop where
  tail : log.tailOffset = S.length
  carry : log.carry = S.drop (S.length - 3)
  points : log.fileBaseOffset = 0 → log.syncPoints = newest (resets S)

variable {S data : List UInt8} {log : OutputLog}

theorem Scanned.scan (h : Scanned S log) (hbase : log.fileBaseOffset = 0) :
    (log.scanForSyncPoints data S.length).syncPoints = newest (resets (S ++ data)) := by
  let front := S.take (S.length - 3)
  have hsplit : front ++ log.carry = S := by rw [h.carry, take_append_drop]
  have hlength : front.length + log.carry.length = S.length := by rw [← length_append, hsplit]
  have hshort : log.carry.length = min S.length 3 := by
    rw [h.carry, length_drop]
    omega
  obtain ⟨early, hearly⟩ := @resets_append front log.carry (by
    rw [← length_eq_zero_iff]
    omega)
  have hbefore := hearly []
  have hafter := hearly data
  rw [append_nil, append_nil, hsplit] at hbefore
  rw [hsplit] at hafter
  obtain ⟨more, hmore⟩ := resets_prefix log.carry data
  have hfound : (range ((log.carry ++ data).length - 1)).foldl (fun points i =>
      if startsReset ((log.carry ++ data).drop i) then
        pushSyncPoint ((S.length : Int) + (i - log.carry.length : Int)).toNat points
      else points) log.syncPoints
      = ((resets (log.carry ++ data)).map (front.length + ·)).foldl
        (fun points offset => pushSyncPoint offset points) log.syncPoints := by
    rw [resets_range, foldl_map, foldl_filter]
    congr 1
    funext points i
    rw [show ((S.length : Int) + (i - log.carry.length : Int)).toNat = front.length + i by omega]
  have hagain : ((resets log.carry).map (front.length + ·)).foldl
      (fun points offset => pushSyncPoint offset points) (newest (resets S)) = newest (resets S) := by
    have hone := length_resets_le (S := log.carry) (by omega)
    rw [hbefore]
    match resets log.carry, hone with
    | [], _ => rfl
    | [i], _ => exact pushSyncPoint_again early _
  have hnew : resets (S ++ data) = resets S ++ more.map (front.length + ·) := by
    rw [hafter, ← hmore, map_append, ← append_assoc, ← hbefore]
  have hsorted : (resets (S ++ data)).Pairwise (· < ·) := pairwise_lt_range.filter _
  rw [hnew] at hsorted ⊢
  refine hfound.trans ?_
  rw [h.points hbase, ← hmore, map_append, foldl_append, hagain, foldl_pushSyncPoint hsorted]

/-- A file that is rewritten has another base. -/
theorem truncateToHalf_base {disk : Disk} (h : log.diskCapacity < log.fileBytes)
    (hbase : (log.truncateToHalf disk).1.fileBaseOffset = 0) :
    log.fileBaseOffset = 0 ∧ (log.truncateToHalf disk).1.syncPoints = log.syncPoints := by
  unfold truncateToHalf at hbase ⊢
  cases hpath : disk.path with
  | none =>
    rw [hpath] at hbase
    exact ⟨hbase, rfl⟩
  | some inode =>
    simp only [hpath, invalidateReadHandle] at hbase
    omega

theorem truncateToHalf_scan (log : OutputLog) (disk : Disk) :
    (log.truncateToHalf disk).1.tailOffset = log.tailOffset ∧
      (log.truncateToHalf disk).1.carry = log.carry := by
  unfold truncateToHalf
  split <;> exact ⟨rfl, rfl⟩

theorem Scanned.appendToDisk (h : Scanned S log) (fault : Option Nat) (disk : Disk) :
    Scanned S (log.appendToDisk data fault disk).1 := by
  unfold OutputLog.appendToDisk
  split
  · exact h
  split
  · exact h
  split
  · exact h
  dsimp only
  split
  next hfull =>
    obtain ⟨htail, hcarry⟩ := truncateToHalf_scan _ _
    refine ⟨htail.trans h.tail, hcarry.trans h.carry, fun hbase => ?_⟩
    obtain ⟨hold, hpoints⟩ := truncateToHalf_base hfull hbase
    exact hpoints.trans (h.points hold)
  · exact ⟨h.tail, h.carry, h.points⟩

theorem Scanned.append (h : Scanned S log) {fault : Option Nat} {disk disk' : Disk}
    {log' : OutputLog} {ok : Bool}
    (happend : log.append data fault disk = some (log', disk', ok)) : Scanned (S ++ data) log' := by
  rcases append_eq happend with ⟨rfl, rfl, rfl⟩ | ⟨-, -, hdisk⟩
  · rwa [append_nil]
  have happended : Scanned (S ++ data) (appended data log) := by
    refine ⟨?_, ?_, fun hbase => ?_⟩
    · exact (congrArg (· + data.length) h.tail).trans length_append.symm
    · show (log.carry ++ data).drop _ = _
      rw [h.carry, drop_carry]
    · show (log.scanForSyncPoints data log.tailOffset).syncPoints = _
      rw [h.tail]
      exact h.scan hbase
  have hkept := @Scanned.appendToDisk _ data _ happended fault disk
  rwa [hdisk] at hkept

/--
**Every reset is found, once.**  After any run of a new log that is not reopened, as long as
its file was not rewritten (which moves the base of the file from zero), the sync points are
the newest resets of the stream, whatever the chunks that it was appended in.
-/
theorem sync_points_exact (ringCapacity diskCapacity : Nat) (inputs : List WriterInput)
    (hreopen : WriterInput.reopen ∉ inputs) (log : OutputLog) (disk : Disk)
    (hrun : writerRun ringCapacity diskCapacity inputs = some (log, disk))
    (hbase : log.fileBaseOffset = 0) :
    log.syncPoints = newest (resets (stream inputs)) ∧ log.syncPoints.Pairwise (· < ·) := by
  have hscanned : WriterInput.reopen ∉ inputs → Scanned (stream inputs) log := by
    refine partialRun_induction (P := fun inputs w =>
      WriterInput.reopen ∉ inputs → Scanned (stream inputs) w.1) ?_ ?_ hrun
    · exact fun _ => ⟨rfl, rfl, fun _ => rfl⟩
    intro inputs w i w' ih hstep hreopen
    rw [mem_append, not_or, mem_singleton] at hreopen
    have h := ih hreopen.1
    rw [stream_concat]
    cases i with
    | append data fault =>
      obtain ⟨⟨log', disk', ok⟩, happend, rfl⟩ := Option.map_eq_some_iff.mp hstep
      exact h.append happend
    | read fromOffset maxBytes =>
      obtain ⟨⟨result, log'⟩, hread, rfl⟩ := Option.map_eq_some_iff.mp hstep
      rw [show (WriterInput.read fromOffset maxBytes).data = [] from rfl, append_nil]
      rcases read_fst hread with rfl | rfl
      · exact h
      · unfold readerHandle
        split <;> exact ⟨h.tail, h.carry, h.points⟩
    | flush =>
      obtain ⟨⟩ := hstep
      rwa [show WriterInput.flush.data = [] from rfl, append_nil]
    | reopen => exact absurd rfl hreopen.2
  have hpoints := (hscanned hreopen).points hbase
  refine ⟨hpoints, ?_⟩
  rw [hpoints]
  exact (pairwise_lt_range.filter _).sublist (drop_sublist _ _)

/-- A reset that two chunks share. -/
def splitRun : List WriterInput := [.append [0x61, 0x1B] none, .append [0x5B, 0x32, 0x4A, 0x1B] none]

theorem sync_points_exact_split : ∃ log disk, writerRun 64 64 splitRun = some (log, disk) ∧
    log.syncPoints = newest (resets (stream splitRun)) ∧ log.syncPoints.Pairwise (· < ·) :=
  ⟨_, _, rfl, sync_points_exact 64 64 splitRun (by decide) _ _ rfl rfl⟩

end OutputLog

end Diri
