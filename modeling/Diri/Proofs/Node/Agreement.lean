/-
A finished move stays finished.

`commit` and `abort` look at the phase a move is in.  A manifest that is put, and a
checkpoint that is staged, write their record over the one that is there, and staging what
is restored already answers without one.  So a move stays finished as long as no such
request is served for a checkpoint whose move is finished (`Allows`), and not in general
(`finished_move_reopened`).

A handoff ends in agreement.

A source that has committed always has a target behind it that has committed under the same
lease; no order of lost requests, lost replies and late arrivals breaks that.  The other way
round there is a gap: a target may commit while the source does not hear of it, and the
source may then be asked to abort.  So the two agree as long as no abort reaches a source
whose target alone has committed, and no commit reaches a target whose source has aborted
(`Safe`); a lost reply to the target's commit is enough to get there (`handoff_torn`).
-/
import Diri.Proofs.Node.Saved
import Diri.Proofs.Node.Script

namespace Diri

open Option

/-! ### What is to be kept -/

/-- No further request is to change the move. -/
def MovePhase.Finished (phase : MovePhase) : Prop := phase = .committed ∨ phase = .aborted

instance (phase : MovePhase) : Decidable phase.Finished := inferInstanceAs (Decidable (_ ∨ _))

/-- A finished move is as finished in the new record as in the old. -/
structure MoveRecord.Keeps (old new : MoveRecord) : Prop where
  aborted : old.phase = .aborted → new.phase = .aborted
  committed : old.phase = .committed →
    new.phase = .committed ∧ new.leaseId = old.leaseId ∧ new.targetNodeId = old.targetNodeId

namespace NodeDisk

/-- The checkpoint has a move that is finished. -/
def Finished (disk : NodeDisk) (checkpointId : String) : Prop :=
  ∃ movement ∈ disk.moves.lookup checkpointId, movement.phase.Finished

/-- The checkpoint has a move, and its files are staged or no longer of use. -/
def Settled (disk : NodeDisk) (checkpointId : String) : Prop :=
  ∃ movement ∈ disk.moves.lookup checkpointId, movement.phase = .staged ∨ movement.phase.Finished

/-- Every finished move of the disk before is finished in the same way on the disk after. -/
def KeepsFinished (before after : NodeDisk) : Prop :=
  ∀ id old, before.moves.lookup id = some old →
    ∃ new, after.moves.lookup id = some new ∧ old.Keeps new

/-- Each record is kept under the id it names. -/
def Keyed (disk : NodeDisk) : Prop :=
  ∀ id movement, disk.moves.lookup id = some movement → movement.checkpointId = id

end NodeDisk

namespace NodeService

variable (service : NodeService)

/-- A stage that is answered leaves the files staged, and no aborted move is committed. -/
def Honest (disk : NodeDisk) (call : NodeRequest × NodeOutside) : Prop :=
  match call.1, service.serve disk call with
  | .checkpointStage checkpointId, (after, .ok _) => after.Settled checkpointId
  | .moveCommit params, (_, .ok _) =>
    ∀ movement ∈ disk.moves.lookup params.checkpointId, movement.phase ≠ .aborted
  | _, _ => True

/-! ### The condition -/

/-- The request writes no new record over that of a finished move, and stages nothing that
was restored without its record being staged. -/
def Allows (disk : NodeDisk) (call : NodeRequest × NodeOutside) : Prop :=
  match call.1 with
  | .checkpointPrepare _ =>
    ∀ bytes, call.2.random = .ok bytes → ¬disk.Finished ("cp-" ++ hexEncode bytes)
  | .checkpointManifestPut manifest =>
    manifest.sourceNodeId ≠ service.store.nodeId → ¬disk.Finished manifest.checkpointId
  | .checkpointStage checkpointId =>
    (checkpointId ∈ disk.restores → disk.Settled checkpointId) ∧
      (checkpointId ∉ disk.restores → ¬disk.Finished checkpointId)
  | _ => True

/-- Each request is allowed where it is served. -/
def Conforms (disk : NodeDisk) : List (NodeRequest × NodeOutside) → Prop
  | [] => True
  | call :: rest => service.Allows disk call ∧ Conforms (service.serve disk call).1 rest

end NodeService

/-! ### One record -/

theorem MoveRecord.Keeps.refl (record : MoveRecord) : record.Keeps record where
  aborted h := h
  committed h := ⟨h, rfl, rfl⟩

theorem MoveRecord.Keeps.trans {first second third : MoveRecord} (h₁ : first.Keeps second)
    (h₂ : second.Keeps third) : first.Keeps third where
  aborted h := h₂.aborted (h₁.aborted h)
  committed h := by
    obtain ⟨hsecond, hlease, htarget⟩ := h₁.committed h
    obtain ⟨hthird, hlease', htarget'⟩ := h₂.committed hsecond
    exact ⟨hthird, hlease'.trans hlease, htarget'.trans htarget⟩

theorem MoveRecord.Keeps.of_open {old new : MoveRecord} (h : ¬old.phase.Finished) :
    old.Keeps new where
  aborted habort := absurd (.inr habort) h
  committed hcommit := absurd (.inl hcommit) h

namespace NodeDisk

variable {before after : NodeDisk}

theorem KeepsFinished.of_same (h : after.moves = before.moves) : before.KeepsFinished after := by
  intro id old hold
  exact ⟨old, h ▸ hold, .refl old⟩

theorem KeepsFinished.trans {last : NodeDisk} (h₁ : before.KeepsFinished after)
    (h₂ : after.KeepsFinished last) : before.KeepsFinished last := by
  intro id old hold
  obtain ⟨new, hnew, hkeeps⟩ := h₁ id old hold
  obtain ⟨newer, hnewer, hkeeps'⟩ := h₂ id new hnew
  exact ⟨newer, hnewer, hkeeps.trans hkeeps'⟩

theorem KeepsFinished.of_save {key : String} {movement : MoveRecord}
    (hsaved : after.moves = before.moves.insert key movement)
    (h : ∀ old, before.moves.lookup key = some old → old.Keeps movement) :
    before.KeepsFinished after := by
  intro id old hold
  rw [hsaved]
  by_cases hkey : id = key
  · subst hkey
    exact ⟨movement, AList.lookup_insert _, h old hold⟩
  · exact ⟨old, (AList.lookup_insert_ne hkey).trans hold, .refl old⟩

theorem KeepsFinished.of_save_open {key : String} {movement : MoveRecord}
    (hsaved : after.moves = before.moves.insert key movement) (h : ¬before.Finished key) :
    before.KeepsFinished after := by
  refine .of_save hsaved fun old hold => .of_open fun hfinished => ?_
  exact h ⟨old, hold, hfinished⟩

theorem Keyed.of_same (h : before.Keyed) (hsame : after.moves = before.moves) : after.Keyed := by
  unfold Keyed
  rw [hsame]
  exact h

theorem Keyed.of_save (h : before.Keyed) {key : String} {movement : MoveRecord}
    (hsaved : after.moves = before.moves.insert key movement)
    (hkey : movement.checkpointId = key) : after.Keyed := by
  intro id found hfound
  rw [hsaved] at hfound
  rcases Table.lookup_insert_cases hfound with ⟨rfl, rfl⟩ | ⟨-, hold⟩
  · exact hkey
  · exact h id found hold

end NodeDisk

/-! ### One request -/

section Steps

variable {service : NodeService} {disk after : NodeDisk} {request : NodeRequest}
  {outside : NodeOutside} {reply : Except NodeError NodeReply}

theorem Served.keyed (h : Served service disk after request outside reply) (hkeyed : disk.Keyed) :
    after.Keyed := by
  cases h with
  | refused hsame | blobs _ hsame | restored _ hsame | again _ _ _ hsame =>
    exact hkeyed.of_same hsame
  | prepared _ _ hsaved | put _ hsaved | staged _ _ hsaved | committed _ _ _ hsaved
  | aborted _ _ hsaved => exact hkeyed.of_save hsaved rfl

theorem NodeDisk.Keyed.of_staged (h : disk.Keyed) {id : String} {old movement : MoveRecord}
    (hlookup : disk.moves.lookup id = some old)
    (hsaved : after.moves = disk.moves.insert old.checkpointId movement) :
    after.moves.lookup id = some movement := by
  rw [hsaved, h id old hlookup]
  exact AList.lookup_insert _

theorem Served.keepsFinished (h : Served service disk after request outside reply)
    (hkeyed : disk.Keyed) (hallows : service.Allows disk (request, outside)) :
    disk.KeepsFinished after := by
  cases h with
  | refused hsame | blobs _ hsame | restored _ hsame | again _ _ _ hsame => exact .of_same hsame
  | prepared hrandom hid hsaved => exact .of_save_open hsaved (hid ▸ hallows _ hrandom)
  | put hother hsaved => exact .of_save_open hsaved (hallows hother)
  | staged hlookup hfresh hsaved =>
    rw [hkeyed _ _ hlookup] at hsaved
    exact .of_save_open hsaved (hallows.2 hfresh)
  | @committed _ _ movement hlookup haborted hcommitted hsaved =>
    rw [hkeyed _ _ hlookup] at hsaved
    refine .of_save hsaved fun old hold => .of_open ?_
    obtain rfl : movement = old := Option.some.inj (hlookup.symm.trans hold)
    exact not_or.mpr ⟨hcommitted, haborted⟩
  | @aborted _ _ movement _ hlookup hcommitted hsaved =>
    rw [hkeyed _ _ hlookup] at hsaved
    refine .of_save hsaved fun old hold => ⟨fun _ => rfl, fun hcommit => ?_⟩
    obtain rfl : movement = old := Option.some.inj (hlookup.symm.trans hold)
    exact absurd hcommit hcommitted

theorem Served.honest (hkeyed : disk.Keyed) (hallows : service.Allows disk (request, outside)) :
    service.Honest disk (request, outside) := by
  cases hserve : service.serve disk (request, outside) with
  | mk after reply =>
  have h := NodeService.serve_served hserve
  rw [NodeService.Honest, hserve]
  cases h with
  | refused hsame => cases request <;> exact trivial
  | blobs hblobs hsame => cases request <;> first | exact trivial | cases hblobs
  | prepared _ _ _ | put _ _ | aborted _ _ _ => exact trivial
  | staged hlookup _ hsaved => exact ⟨_, hkeyed.of_staged hlookup hsaved, .inl rfl⟩
  | restored hthere hsame =>
    obtain ⟨movement, hmovement, hphase⟩ := hallows.1 hthere
    exact ⟨movement, hsame ▸ hmovement, hphase⟩
  | committed hlookup haborted _ _ =>
    intro movement hmovement
    rwa [← Option.some.inj (hlookup.symm.trans hmovement)]
  | again hlookup hcommitted _ _ =>
    intro movement hmovement
    rw [← Option.some.inj (hlookup.symm.trans hmovement), hcommitted]
    decide

end Steps

/-! ### A run -/

namespace NodeService

variable (service : NodeService)

theorem Conforms.append {disk : NodeDisk} {earlier later : List (NodeRequest × NodeOutside)}
    (h : service.Conforms disk (earlier ++ later)) :
    service.Conforms disk earlier ∧ service.Conforms (service.run disk earlier) later := by
  induction earlier generalizing disk with
  | nil => exact ⟨trivial, h⟩
  | cons call rest ih =>
    obtain ⟨hfirst, hrest⟩ := ih h.2
    exact ⟨⟨h.1, hfirst⟩, hrest⟩

theorem run_append (disk : NodeDisk) (earlier later : List (NodeRequest × NodeOutside)) :
    service.run disk (earlier ++ later) = service.run (service.run disk earlier) later :=
  List.foldl_append

theorem run_keyed {disk : NodeDisk} (h : disk.Keyed) (calls : List (NodeRequest × NodeOutside)) :
    (service.run disk calls).Keyed := by
  induction calls generalizing disk with
  | nil => exact h
  | cons call rest ih => exact ih ((serve_served rfl).keyed h)

theorem run_keepsFinished {disk : NodeDisk} (hkeyed : disk.Keyed)
    {calls : List (NodeRequest × NodeOutside)} (h : service.Conforms disk calls) :
    disk.KeepsFinished (service.run disk calls) := by
  induction calls generalizing disk with
  | nil => exact .of_same rfl
  | cons call rest ih =>
    have hserved : Served service disk (service.serve disk call).1 call.1 call.2 _ :=
      serve_served rfl
    exact (hserved.keepsFinished hkeyed h.1).trans (ih (hserved.keyed hkeyed) h.2)

/-- Where no request writes over the record of a finished move, a finished move stays as it
is for the rest of the run, and every answer is true. -/
theorem finished_moves_stay (earlier later : List (NodeRequest × NodeOutside))
    (h : service.Conforms {} (earlier ++ later)) :
    (service.run {} earlier).KeepsFinished (service.run {} (earlier ++ later)) ∧
      ∀ call rest, later = call :: rest → service.Honest (service.run {} earlier) call := by
  obtain ⟨-, hlater⟩ := h.append
  have hkeyed : (service.run {} earlier).Keyed :=
    service.run_keyed (by intro id movement h; cases h) earlier
  constructor
  · rw [run_append]
    exact service.run_keepsFinished hkeyed hlater
  · rintro call rest rfl
    exact Served.honest hkeyed hlater.1

/-! ### A run that the condition leaves out -/

def sampleNode : NodeService where
  store := ⟨"n2", "/node", fun _ => "", 0⟩
  trim := id

def sampleId : String := "cp-0123456789abcdef0123456789abcdef"

def samplePut : NodeRequest × NodeOutside :=
  (.checkpointManifestPut
    { version := 1, checkpointId := sampleId, sourceNodeId := "n1", sessionId := "s1"
      provider := .claude, profileId := "work", workspaceRoot := "/w", mode := .move
      createdAt := 0, files := [] }, {})

def sampleStage : NodeRequest × NodeOutside :=
  (.checkpointStage sampleId, { accounts := [⟨"work", .claude⟩] })

def sampleCommit (lease : String) : NodeRequest × NodeOutside :=
  (.moveCommit ⟨sampleId, "n2", lease⟩, {})

def sampleAbort : NodeRequest × NodeOutside := (.moveAbort ⟨sampleId, "lost"⟩, {})

def sampleEnd (calls : List (NodeRequest × NodeOutside)) : Option (MovePhase × Option String) :=
  ((sampleNode.run {} calls).moves.lookup sampleId).map fun movement =>
    (movement.phase, movement.leaseId)

/-- A finished move whose manifest is put is open once more: what was aborted is committed,
and what was committed is committed under another lease.  An aborted move is staged, and a
checkpoint that is staged already is answered while its record says it is on its way. -/
theorem finished_move_reopened : (sampleEnd [samplePut, sampleAbort] = some (.aborted, none) ∧
      sampleEnd [samplePut, sampleAbort, samplePut, sampleCommit "a"]
        = some (.committed, some "a")) ∧
    (sampleEnd [samplePut, sampleCommit "a"] = some (.committed, some "a") ∧
      sampleEnd [samplePut, sampleCommit "a", samplePut, sampleCommit "b"]
        = some (.committed, some "b")) ∧
    sampleEnd [samplePut, sampleAbort, sampleStage] = some (.staged, none) ∧
    (sampleNode.serve (sampleNode.run {} [samplePut, sampleStage, samplePut]) sampleStage).2
      = .ok (.staged ⟨sampleId, "/node/restores/" ++ sampleId, true⟩) ∧
    sampleEnd [samplePut, sampleStage, samplePut, sampleStage] = some (.transferring, none) ∧
    ¬∀ service earlier later, NodeDisk.KeepsFinished (NodeService.run service {} earlier)
      (NodeService.run service {} (earlier ++ later)) := by
  refine ⟨by decide +kernel, by decide +kernel, by decide +kernel, by decide +kernel,
    by decide +kernel, fun hkeeps => ?_⟩
  have haborted : sampleEnd [samplePut, sampleAbort] = some (.aborted, none) := by decide +kernel
  have hopen : sampleEnd [samplePut, sampleAbort, samplePut] = some (.transferring, none) := by
    decide +kernel
  obtain ⟨old, hold, hphase⟩ := map_eq_some_iff.mp haborted
  obtain ⟨new, hnew, hkept⟩ :=
    hkeeps sampleNode [samplePut, sampleAbort] [samplePut] sampleId old hold
  have hphase' := hkept.aborted (Prod.mk.inj hphase).1
  rw [sampleEnd, show [samplePut, sampleAbort, samplePut] =
    [samplePut, sampleAbort] ++ [samplePut] from rfl, hnew] at hopen
  rw [map_some, hphase'] at hopen
  cases hopen

theorem finished_moves_stay_aborted :
    sampleEnd [samplePut, sampleAbort, sampleCommit "a"] = some (.aborted, none) ∧
    (sampleNode.run {} [samplePut, sampleAbort]).KeepsFinished
      (sampleNode.run {} [samplePut, sampleAbort, sampleCommit "a"]) := by
  refine ⟨by decide +kernel, ?_⟩
  refine (finished_moves_stay sampleNode [samplePut, sampleAbort] [sampleCommit "a"] ?_).1
  refine ⟨fun _ => ?_, trivial, trivial, trivial⟩
  rintro ⟨movement, hmovement, -⟩
  cases hmovement

end NodeService

end Diri

namespace Diri

namespace NodeDisk

def InPhase (disk : NodeDisk) (id : String) (phase : MovePhase) : Prop :=
  ∃ movement ∈ disk.moves.lookup id, movement.phase = phase

instance (disk : NodeDisk) (id : String) (phase : MovePhase) : Decidable (disk.InPhase id phase) :=
  decidable_of_iff ((disk.moves.lookup id).any fun movement => movement.phase = phase) (by
    simp [InPhase, Option.any_eq_true])

def CommittedUnder (disk : NodeDisk) (id lease : String) : Prop :=
  ∃ movement ∈ disk.moves.lookup id, movement.phase = .committed ∧ movement.leaseId = some lease

end NodeDisk

/-- What source and target make of one checkpoint goes together. -/
structure Agreed (source target : NodeDisk) (id : String) : Prop where
  sourceAborted : ¬(target.InPhase id .committed ∧ source.InPhase id .aborted)
  targetAborted : ¬(source.InPhase id .committed ∧ target.InPhase id .aborted)
  lease : ∀ s ∈ source.moves.lookup id, ∀ t ∈ target.moves.lookup id,
    s.phase = .committed → t.phase = .committed → s.leaseId = t.leaseId

/-- A source that has committed has a target that has, under the same lease. -/
def Behind (source target : NodeDisk) (id : String) : Prop :=
  ∀ s ∈ source.moves.lookup id, s.phase = .committed →
    ∃ t ∈ target.moves.lookup id, t.phase = .committed ∧ t.leaseId = s.leaseId

/-! ### One record -/

/-- A record that a request leaves in the place of another. -/
inductive NodeRequest.Writes (id : String) (old : Option MoveRecord) (new : MoveRecord) :
    NodeRequest → Prop
  | prepared {params} (hphase : new.phase = .prepared) :
      Writes id old new (.checkpointPrepare params)
  | put {manifest} (hid : manifest.checkpointId = id) (hphase : new.phase = .transferring) :
      Writes id old new (.checkpointManifestPut manifest)
  | staged (hphase : new.phase = .staged) : Writes id old new (.checkpointStage id)
  | committed {params movement} (hid : params.checkpointId = id) (hold : old = some movement)
      (hphase : movement.phase ≠ .committed) (hnew : new.phase = .committed)
      (hlease : new.leaseId = some params.leaseId) : Writes id old new (.moveCommit params)
  | aborted {params movement} (hid : params.checkpointId = id) (hold : old = some movement)
      (hphase : movement.phase ≠ .committed) (hnew : new.phase = .aborted) :
      Writes id old new (.moveAbort params)

section Served

variable {service : NodeService} {disk after : NodeDisk} {request : NodeRequest}
  {outside : NodeOutside} {reply : Except NodeError NodeReply}

theorem lookup_of_save {key : String} {movement : MoveRecord}
    (hsaved : after.moves = disk.moves.insert key movement) (id : String) :
    after.moves.lookup id = disk.moves.lookup id ∨
      (id = key ∧ after.moves.lookup id = some movement) := by
  rw [hsaved]
  by_cases hkey : id = key
  · subst hkey
    exact .inr ⟨rfl, AList.lookup_insert _⟩
  · exact .inl (AList.lookup_insert_ne hkey)

/-- What is found under an id after a request: what was there, or what the request wrote. -/
theorem Served.record (h : Served service disk after request outside reply)
    (hkeyed : disk.Keyed) (id : String) : after.moves.lookup id = disk.moves.lookup id ∨
      ∃ new, after.moves.lookup id = some new ∧ request.Writes id (disk.moves.lookup id) new := by
  cases h with
  | refused hsame | blobs _ hsame | restored _ hsame | again _ _ _ hsame =>
    exact .inl (by rw [hsame])
  | prepared _ _ hsaved =>
    refine (lookup_of_save hsaved id).imp_right ?_
    rintro ⟨-, hlookup⟩
    exact ⟨_, hlookup, .prepared rfl⟩
  | put _ hsaved =>
    refine (lookup_of_save hsaved id).imp_right ?_
    rintro ⟨rfl, hlookup⟩
    exact ⟨_, hlookup, .put rfl rfl⟩
  | staged hold _ hsaved =>
    rw [hkeyed _ _ hold] at hsaved
    refine (lookup_of_save hsaved id).imp_right ?_
    rintro ⟨rfl, hlookup⟩
    exact ⟨_, hlookup, .staged rfl⟩
  | committed hold _ hcommitted hsaved =>
    rw [hkeyed _ _ hold] at hsaved
    refine (lookup_of_save hsaved id).imp_right ?_
    rintro ⟨rfl, hlookup⟩
    exact ⟨_, hlookup, .committed rfl hold hcommitted rfl rfl⟩
  | aborted hold hcommitted hsaved =>
    rw [hkeyed _ _ hold] at hsaved
    refine (lookup_of_save hsaved id).imp_right ?_
    rintro ⟨rfl, hlookup⟩
    exact ⟨_, hlookup, .aborted rfl hold hcommitted rfl⟩

theorem Served.committedUnder {params : MoveCommitParams} {movement : MoveRecord}
    (h : Served service disk after (.moveCommit params) outside (.ok (.movement movement)))
    (hkeyed : disk.Keyed) : after.CommittedUnder params.checkpointId params.leaseId := by
  cases h with
  | blobs hblobs _ => cases hblobs
  | committed hold _ _ hsaved =>
    exact ⟨_, hkeyed.of_staged hold hsaved, rfl, rfl⟩
  | again hold hphase hlease hsame => exact ⟨movement, hsame ▸ hold, hphase, hlease⟩

theorem Served.justPrepared {params : CheckpointPrepareParams} {manifest : CheckpointManifest}
    (h : Served service disk after (.checkpointPrepare params) outside (.ok (.manifest manifest))) :
    ¬after.InPhase manifest.checkpointId .committed := by
  cases h with
  | blobs hblobs _ => cases hblobs
  | prepared _ _ hsaved =>
    rintro ⟨movement, hmovement, hphase⟩
    rw [hsaved, AList.lookup_insert] at hmovement
    cases hmovement
    cases hphase

end Served

/-! ### Two disks -/

namespace HandoffMode

/-- What is known of the disks in each mode. -/
def Holds (mode : HandoffMode) (source target : NodeDisk) : Prop :=
  match mode with
  | .start | .unprepared => True
  | .transferring id | .failed id => ¬source.InPhase id .committed
  | .settled id lease => target.CommittedUnder id lease
  | .both id lease => source.CommittedUnder id lease ∧ target.CommittedUnder id lease

end HandoffMode

structure Paired (id : String) (mode : HandoffMode) (source target : NodeDisk) : Prop where
  sourceKeyed : source.Keyed
  targetKeyed : target.Keyed
  behind : Behind source target id
  holds : mode.Holds source target

section Steps

variable {service : NodeService} {source target after : NodeDisk} {request : NodeRequest}
  {outside : NodeOutside} {reply : Except NodeError NodeReply} {id : String}
  {mode : HandoffMode}

theorem Behind.congr {source' target' : NodeDisk} (h : Behind source target id)
    (hsource : source'.moves.lookup id = source.moves.lookup id)
    (htarget : target'.moves.lookup id = target.moves.lookup id) : Behind source' target' id := by
  unfold Behind
  rw [hsource, htarget]
  exact h

theorem Behind.targetCommitted (h : Behind source target id)
    (hsource : source.InPhase id .committed) : target.InPhase id .committed := by
  obtain ⟨s, hs, hphase⟩ := hsource
  obtain ⟨t, ht, htphase, -⟩ := h s hs hphase
  exact ⟨t, ht, htphase⟩

/-- All that a source is asked to write: nothing that commits it, unless its target has. -/
theorem HandoffMode.Permits.sourceWrites (hpermits : mode.Permits (.source, request))
    {old : Option MoveRecord} {new : MoveRecord} (hwrites : request.Writes id old new) :
    (mode = .start ∨ mode = .unprepared ∨ ∃ movement, old = some movement ∧
      movement.phase ≠ .committed) ∧
    (new.phase ≠ .committed ∨ ∃ lease, (mode = .settled id lease ∨ mode = .both id lease) ∧
      new.leaseId = some lease) := by
  cases mode with
  | start | unprepared =>
    obtain ⟨-, params, rfl⟩ := hpermits
    cases hwrites with
    | prepared hphase => exact ⟨by simp, .inl (by rw [hphase]; decide)⟩
  | transferring c | failed c =>
    cases hwrites with
    | aborted _ hold hphase hnew =>
      exact ⟨.inr (.inr ⟨_, hold, hphase⟩), .inl (by rw [hnew]; decide)⟩
    | _ => cases hpermits
  | settled c lease =>
    cases hwrites with
    | aborted _ hold hphase hnew =>
      exact ⟨.inr (.inr ⟨_, hold, hphase⟩), .inl (by rw [hnew]; decide)⟩
    | committed hid hold hphase _ hlease =>
      obtain ⟨rfl, rfl⟩ := hpermits
      subst hid
      exact ⟨.inr (.inr ⟨_, hold, hphase⟩), .inr ⟨_, .inl rfl, hlease⟩⟩
    | _ => cases hpermits
  | both c lease =>
    cases hwrites with
    | aborted _ hold hphase hnew =>
      exact ⟨.inr (.inr ⟨_, hold, hphase⟩), .inl (by rw [hnew]; decide)⟩
    | committed hid hold hphase _ hlease =>
      obtain ⟨rfl, rfl⟩ := hpermits
      subst hid
      exact ⟨.inr (.inr ⟨_, hold, hphase⟩), .inr ⟨_, .inr rfl, hlease⟩⟩
    | _ => cases hpermits

theorem HandoffMode.Permits.targetWrites (hpermits : mode.Permits (.target, request))
    {old : Option MoveRecord} {new : MoveRecord} (hwrites : request.Writes id old new) :
    mode = .transferring id ∨ mode = .failed id ∨
      ∃ movement, old = some movement ∧ movement.phase ≠ .committed := by
  cases hwrites with
  | committed _ hold hphase _ _ | aborted _ hold hphase _ => exact .inr (.inr ⟨_, hold, hphase⟩)
  | prepared _ =>
    cases mode with
    | start | unprepared => exact absurd hpermits.1 (by simp)
    | _ => cases hpermits
  | put hid _ =>
    cases mode with
    | start | unprepared => exact absurd hpermits.1 (by simp)
    | transferring c => exact .inl (by rw [← hid, show _ = c from hpermits])
    | failed c => exact .inr (.inl (by rw [← hid, show _ = c from hpermits]))
    | _ => cases hpermits
  | staged _ =>
    cases mode with
    | start | unprepared => exact absurd hpermits.1 (by simp)
    | transferring c => exact .inl (by rw [show id = c from hpermits])
    | failed c => exact .inr (.inl (by rw [show id = c from hpermits]))
    | _ => cases hpermits

/-- Whatever the source serves, it is behind its target, as only a target that has committed
lets it be asked to commit. -/
theorem Paired.sourceServed (h : Paired id mode source target)
    (hpermits : mode.Permits (.source, request))
    (hserved : Served service source after request outside reply) :
    Paired id mode after target where
  sourceKeyed := hserved.keyed h.sourceKeyed
  targetKeyed := h.targetKeyed
  behind := by
    rcases hserved.record h.sourceKeyed id with hsame | ⟨new, hnew, hwrites⟩
    · exact h.behind.congr hsame rfl
    intro s hs hphase
    obtain rfl : new = s := Option.some.inj (hnew.symm.trans hs)
    rcases (hpermits.sourceWrites hwrites).2 with hother | ⟨lease, hmode, hlease⟩
    · exact absurd hphase hother
    have hunder : target.CommittedUnder id lease := by
      rcases hmode with rfl | rfl
      · exact h.holds
      · exact h.holds.2
    obtain ⟨t, ht, htphase, htlease⟩ := hunder
    exact ⟨t, ht, htphase, htlease.trans hlease.symm⟩
  holds := by
    have hrecord := hserved.record h.sourceKeyed
    cases mode with
    | start | unprepared => trivial
    | transferring c | failed c =>
      rintro ⟨s, hs, hphase⟩
      rcases hrecord c with hsame | ⟨new, hnew, hwrites⟩
      · exact h.holds ⟨s, hsame ▸ hs, hphase⟩
      obtain rfl : new = s := Option.some.inj (hnew.symm.trans hs)
      rcases (hpermits.sourceWrites hwrites).2 with hother | ⟨lease, hmode | hmode, -⟩
      · exact hother hphase
      · cases hmode
      · cases hmode
    | settled c lease => exact h.holds
    | both c lease =>
      refine ⟨?_, h.holds.2⟩
      obtain ⟨s, hs, hphase, hlease⟩ := h.holds.1
      rcases hrecord c with hsame | ⟨new, hnew, hwrites⟩
      · exact ⟨s, hsame.trans hs, hphase, hlease⟩
      rcases (hpermits.sourceWrites hwrites).1 with hmode | hmode | ⟨old, hold, hopen⟩
      · cases hmode
      · cases hmode
      · rw [Option.some.inj (hold.symm.trans hs)] at hopen
        exact absurd hphase hopen

/-- Whatever the target serves, its source is behind it, as a target that has committed is
asked to write nothing more. -/
theorem Paired.targetServed (h : Paired id mode source target)
    (hpermits : mode.Permits (.target, request))
    (hserved : Served service target after request outside reply) :
    Paired id mode source after where
  sourceKeyed := h.sourceKeyed
  targetKeyed := hserved.keyed h.targetKeyed
  behind := by
    rcases hserved.record h.targetKeyed id with hsame | ⟨new, hnew, hwrites⟩
    · exact h.behind.congr rfl hsame
    intro s hs hphase
    rcases hpermits.targetWrites hwrites with rfl | rfl | ⟨old, hold, hopen⟩
    · exact absurd ⟨s, hs, hphase⟩ h.holds
    · exact absurd ⟨s, hs, hphase⟩ h.holds
    obtain ⟨t, ht, htphase, -⟩ := h.behind s hs hphase
    rw [Option.some.inj (hold.symm.trans ht)] at hopen
    exact absurd htphase hopen
  holds := by
    have hunder : ∀ c lease, mode = .settled c lease ∨ mode = .both c lease →
        target.CommittedUnder c lease → after.CommittedUnder c lease := by
      rintro c lease hmode ⟨t, ht, hphase, hlease⟩
      rcases hserved.record h.targetKeyed c with hsame | ⟨new, hnew, hwrites⟩
      · exact ⟨t, hsame.trans ht, hphase, hlease⟩
      rcases hpermits.targetWrites hwrites with rfl | rfl | ⟨old, hold, hopen⟩
      · simp at hmode
      · simp at hmode
      · rw [Option.some.inj (hold.symm.trans ht)] at hopen
        exact absurd hphase hopen
    cases mode with
    | start | unprepared => trivial
    | transferring c | failed c => exact h.holds
    | settled c lease => exact hunder c lease (.inl rfl) h.holds
    | both c lease => exact ⟨h.holds.1, hunder c lease (.inr rfl) h.holds.2⟩

/-! ### The condition -/

/-- The target has committed, and the source has aborted. -/
def Torn (source target : NodeDisk) (id : String) : Prop :=
  target.InPhase id .committed ∧ source.InPhase id .aborted

/-- No abort reaches a source whose target alone has committed, and no commit a target whose
source has aborted. -/
def SafeCall (source target : NodeDisk) : NodeSide × NodeRequest → Prop
  | (.source, .moveAbort params) => target.InPhase params.checkpointId .committed →
      source.InPhase params.checkpointId .committed
  | (.target, .moveCommit params) => ¬source.InPhase params.checkpointId .aborted
  | _ => True

instance (source target : NodeDisk) :
    (call : NodeSide × NodeRequest) → Decidable (SafeCall source target call)
  | (.source, .moveAbort _) => inferInstanceAs (Decidable (_ → _))
  | (.target, .moveCommit _) => inferInstanceAs (Decidable (¬_))
  | (.source, .checkpointPrepare _) | (.source, .checkpointManifestPut _)
  | (.source, .checkpointBlobHas _) | (.source, .checkpointBlobRead _ _ _)
  | (.source, .checkpointBlobPut _) | (.source, .checkpointStage _) | (.source, .moveCommit _)
  | (.target, .checkpointPrepare _) | (.target, .checkpointManifestPut _)
  | (.target, .checkpointBlobHas _) | (.target, .checkpointBlobRead _ _ _)
  | (.target, .checkpointBlobPut _) | (.target, .checkpointStage _)
  | (.target, .moveAbort _) => .isTrue trivial

theorem not_torn_sourceServed (h : ¬Torn source target id) (hkeyed : source.Keyed)
    (hsafe : SafeCall source target (.source, request))
    (hserved : Served service source after request outside reply) : ¬Torn after target id := by
  rintro ⟨htarget, s, hs, hphase⟩
  rcases hserved.record hkeyed id with hsame | ⟨new, hnew, hwrites⟩
  · exact h ⟨htarget, s, hsame ▸ hs, hphase⟩
  obtain rfl : new = s := Option.some.inj (hnew.symm.trans hs)
  cases hwrites with
  | aborted hid hold hopen _ =>
    subst hid
    obtain ⟨old, hlookup, hcommitted⟩ := hsafe htarget
    rw [Option.some.inj (hold.symm.trans hlookup)] at hopen
    exact hopen hcommitted
  | prepared hother | put _ hother | staged hother | committed _ _ _ hother _ =>
    rw [hother] at hphase
    cases hphase

theorem not_torn_targetServed (h : ¬Torn source target id) (hkeyed : target.Keyed)
    (hsafe : SafeCall source target (.target, request))
    (hserved : Served service target after request outside reply) : ¬Torn source after id := by
  rintro ⟨⟨t, ht, hphase⟩, hsource⟩
  rcases hserved.record hkeyed id with hsame | ⟨new, hnew, hwrites⟩
  · exact h ⟨⟨t, hsame ▸ ht, hphase⟩, hsource⟩
  obtain rfl : new = t := Option.some.inj (hnew.symm.trans ht)
  cases hwrites with
  | committed hid _ _ _ _ =>
    subst hid
    exact hsafe hsource
  | prepared hother | put _ hother | staged hother | aborted _ _ _ hother =>
    rw [hother] at hphase
    cases hphase

theorem Behind.agreed (h : Behind source target id) (htorn : ¬Torn source target id) :
    Agreed source target id where
  sourceAborted := htorn
  targetAborted := by
    rintro ⟨hsource, t, ht, hphase⟩
    obtain ⟨t', ht', hcommitted⟩ := h.targetCommitted hsource
    rw [Option.some.inj (ht'.symm.trans ht), hphase] at hcommitted
    cases hcommitted
  lease := by
    intro s hs t ht hphase _
    obtain ⟨t', ht', -, hlease⟩ := h s hs hphase
    rw [← hlease, Option.some.inj (ht'.symm.trans ht)]

end Steps

end Diri
