/-
What on a node leaves the move records alone.

The move records are written by `saveMove` and by nothing else.  Every other part of a
request, whether it ends or throws, leaves them as they were (`SameMoves`); a part that
only reads leaves the whole disk as it was (`SameDisk`).

What a request makes of the move records.

A request saves one record at most: a new one, or the old one of its checkpoint in a
further phase.  Each lemma here says all that one operation can do to the records.  They
differ in which record they may replace: `commit` and `abort` look at its phase, and
`prepare`, `putManifest` and `stage` do not.
-/
import Diri.Node.Service

namespace Diri

open Handler

/-- A relation that a part of a request keeps which only reads the disk. -/
class ReadsDisk (R : NodeHost → NodeHost → Prop) : Prop extends Steps R where
  faults : ∀ host faults, R host { host with faults := faults }

def SameDisk (before after : NodeHost) : Prop := after.disk = before.disk

def SameMoves (before after : NodeHost) : Prop := after.disk.moves = before.disk.moves

instance SameDisk.reads : ReadsDisk SameDisk where
  refl _ := rfl
  trans h₁ h₂ := h₂.trans h₁
  faults _ _ := rfl

instance SameMoves.reads : ReadsDisk SameMoves where
  refl _ := rfl
  trans h₁ h₂ := h₂.trans h₁
  faults _ _ := rfl

section Reads

variable {R : NodeHost → NodeHost → Prop} [ReadsDisk R]

/-! ### Reading -/

theorem refuseIf_reads (p : Prop) [Decidable p] (error : NodeError) : Moves R (refuseIf p error) :=
  .ite (fun _ => .throw _) fun _ => .pure _

theorem fileOperation_reads : Moves R fileOperation := by
  refine .get_bind fun host => ?_
  have hnext : Moves R (refuseIf (host.faults.head? = some true) .io) := refuseIf_reads _ _
  exact Steps.trans (ReadsDisk.faults host host.faults.tail) (hnext _)

theorem readDisk_reads : Moves R readDisk := .get_bind fun host => Steps.refl host

theorem fileOperation_or_reads (error : NodeError) :
    Moves R (tryCatch fileOperation fun _ => throw error) :=
  .tryCatch fileOperation_reads fun _ => .throw _

theorem validateFiles_reads (files : List CheckpointFile) (total : Nat) :
    Moves R (validateFiles files total) := by
  induction files generalizing total with
  | nil => exact .pure _
  | cons entry rest ih =>
    refine .bind (refuseIf_reads _ _) fun _ => ?_
    refine .bind (refuseIf_reads _ _) fun _ => ?_
    exact .bind (refuseIf_reads _ _) fun _ => ih _

theorem validateManifest_reads (manifest : CheckpointManifest) :
    Moves R (validateManifest manifest) := by
  refine .bind (refuseIf_reads _ _) fun _ => ?_
  refine .bind (refuseIf_reads _ _) fun _ => ?_
  refine .bind (refuseIf_reads _ _) fun _ => ?_
  exact .bind (validateFiles_reads _ _) fun _ => refuseIf_reads _ _

theorem hexDigit_reads (c : Char) : Moves R (hexDigit c) := by
  refine .ite (fun _ => .pure _) fun _ => ?_
  refine .ite (fun _ => .pure _) fun _ => ?_
  exact .ite (fun _ => .pure _) fun _ => .throw _

theorem hexPairs_reads : ∀ (chars : List Char), Moves R (hexPairs chars)
  | [] => .pure _
  | [_] => .throw _
  | high :: low :: rest => by
      refine .bind (hexDigit_reads high) fun _ => ?_
      refine .bind (hexDigit_reads low) fun _ => ?_
      exact .bind (hexPairs_reads rest) fun _ => .pure _

theorem hexDecode_reads (value : String) : Moves R (hexDecode value) :=
  .bind (refuseIf_reads _ _) fun _ => hexPairs_reads _

namespace CheckpointStore

theorem loadManifest_reads (checkpointId : String) : Moves R (loadManifest checkpointId) := by
  refine .bind (refuseIf_reads _ _) fun _ => ?_
  refine .bind readDisk_reads fun disk => ?_
  cases disk.checkpoints.lookup checkpointId with
  | none => exact .throw _
  | some manifest =>
    refine .bind (fileOperation_or_reads _) fun _ => ?_
    exact .bind (validateManifest_reads _) fun _ => .pure _

theorem loadMove_reads (checkpointId : String) : Moves R (loadMove checkpointId) := by
  refine .bind (refuseIf_reads _ _) fun _ => ?_
  refine .bind readDisk_reads fun disk => ?_
  cases disk.moves.lookup checkpointId with
  | none => exact .throw _
  | some movement =>
    exact .bind (fileOperation_or_reads _) fun _ => .pure _

theorem providerStateDestination_reads (manifest : CheckpointManifest) (configHome : String) :
    Moves R (providerStateDestination manifest configHome) := by
  unfold providerStateDestination
  cases manifest.providerSessionId with
  | none => exact .pure _
  | some sessionId =>
    refine .ite (fun _ => .throw _) fun _ => ?_
    cases manifest.provider with
    | claude | codex => exact .pure _

theorem missingBlobs_reads (digests : List String) : Moves R (missingBlobs digests) := by
  induction digests with
  | nil => exact .pure _
  | cons digest rest ih =>
    refine .bind (refuseIf_reads _ _) fun _ => ?_
    refine .bind readDisk_reads fun _ => ?_
    exact .bind ih fun _ => .pure _

theorem readBlob_reads (digest : String) (offset maxBytes : Nat) :
    Moves R (readBlob digest offset maxBytes) := by
  refine .bind (refuseIf_reads _ _) fun _ => ?_
  refine .bind readDisk_reads fun disk => ?_
  cases disk.blobs.lookup digest with
  | none => exact .throw _
  | some contents =>
    refine .bind fileOperation_reads fun _ => ?_
    exact .bind (refuseIf_reads _ _) fun _ => .pure _

theorem answered_reads {α : Type} (answer : Except NodeError α) : Moves R (answered answer) := by
  cases answer with
  | ok answer => exact .pure _
  | error error => exact .throw _

end CheckpointStore

theorem NodeService.profile_reads (accounts : List AccountProfile) (id : String) :
    Moves R (NodeService.profile accounts id) := by
  unfold NodeService.profile
  cases accounts.find? fun profile => profile.id = id with
  | none => exact .throw _
  | some profile => exact .pure _

end Reads

/-! ### Writing something else -/

theorem writeDisk_same {f : NodeDisk → NodeDisk} (hf : ∀ disk, (f disk).moves = disk.moves) :
    Moves SameMoves (writeDisk f) :=
  .bind fileOperation_reads fun _ =>
    .modify fun host => hf host.disk

namespace CheckpointStore

variable (store : CheckpointStore)

/-! ### Files of the store -/

variable (manifest : CheckpointManifest)

theorem saveManifest_same : Moves SameMoves (saveManifest manifest) :=
  .bind (validateManifest_reads manifest) fun _ => writeDisk_same fun _ => rfl

theorem copyBlob_same (file : WalkedFile) (digest : String) :
    Moves SameMoves (store.copyBlob file digest) := by
  refine .bind readDisk_reads fun disk => ?_
  refine .ite (fun _ => .pure _) fun _ => ?_
  refine .bind fileOperation_reads fun _ => ?_
  exact .bind (refuseIf_reads _ _) fun _ => writeDisk_same fun _ => rfl

theorem storeFile_same (file : WalkedFile) : Moves SameMoves (store.storeFile file) := by
  refine .bind (refuseIf_reads _ _) fun _ => ?_
  exact .bind (store.copyBlob_same _ _) fun _ => .pure _

theorem storeFiles_same (files : List WalkedFile) : Moves SameMoves (store.storeFiles files) := by
  induction files with
  | nil => exact .pure _
  | cons file rest ih =>
    refine .bind (store.storeFile_same file) fun _ => ?_
    exact .bind ih fun _ => .pure _

section Restore

variable {R : NodeHost → NodeHost → Prop} [ReadsDisk R]
  (hwrite : ∀ (stagings restores : NodeDisk → Table String (Table String RestoredFile)),
    Moves R (writeDisk fun disk =>
      { disk with stagings := stagings disk, restores := restores disk }))

include hwrite

theorem restoreFile_moves (checkpointId directory : String) (entry : CheckpointFile) :
    Moves R (store.restoreFile checkpointId directory entry) := by
  refine .bind (refuseIf_reads _ _) fun _ => ?_
  refine .bind (refuseIf_reads _ _) fun _ => ?_
  refine .bind readDisk_reads fun disk => ?_
  cases disk.blobs.lookup entry.digest with
  | none => exact .throw _
  | some contents =>
    exact .bind (refuseIf_reads _ _) fun _ => hwrite _ fun disk => disk.restores

theorem restoreFiles_moves (checkpointId directory : String) (files : List CheckpointFile) :
    Moves R (store.restoreFiles checkpointId directory files) := by
  induction files with
  | nil => exact .pure _
  | cons entry rest ih =>
    exact .bind (store.restoreFile_moves hwrite _ _ _) fun _ => ih

theorem restore_moves (checkpointId : String) (manifest : CheckpointManifest) :
    Moves R (store.restore checkpointId manifest) := by
  refine .bind (hwrite _ fun disk => disk.restores) fun _ => ?_
  refine .bind fileOperation_reads fun _ => ?_
  refine .bind (store.restoreFiles_moves hwrite _ _ _) fun _ => ?_
  exact .bind (store.restoreFiles_moves hwrite _ _ _) fun _ => hwrite _ _

end Restore

theorem restore_same (checkpointId : String) (manifest : CheckpointManifest) :
    Moves SameMoves (store.restore checkpointId manifest) :=
  store.restore_moves (fun _ _ => writeDisk_same fun _ => rfl) _ _

/-! ### What the provider keeps -/

theorem activateProviderState_moves {R : NodeHost → NodeHost → Prop} [ReadsDisk R]
    (hwrite : ∀ f : NodeDisk → Table String (List UInt8),
      Moves R (writeDisk fun disk => { disk with providerFiles := f disk }))
    (manifest : CheckpointManifest) (configHome : String) :
    Moves R (store.activateProviderState manifest configHome) := by
  unfold activateProviderState
  cases manifest.providerState with
  | none => exact .pure _
  | some state =>
    refine .bind (providerStateDestination_reads _ _) fun destination => ?_
    cases destination with
    | none => exact .throw _
    | some destination =>
      refine .bind readDisk_reads fun disk => ?_
      cases disk.providerFiles.lookup destination with
      | some contents =>
        exact .bind fileOperation_reads fun _ => refuseIf_reads _ _
      | none =>
        refine .bind fileOperation_reads fun _ => ?_
        refine .bind fileOperation_reads fun _ => ?_
        refine .bind readDisk_reads fun disk => ?_
        cases disk.blobs.lookup state.digest with
        | none => exact .throw _
        | some contents =>
          refine .bind (hwrite _) fun _ => .bind (hwrite _) fun _ => ?_
          refine .bind fileOperation_reads fun _ => ?_
          exact .bind (refuseIf_reads _ _) fun _ => hwrite _

theorem activateProviderState_same (configHome : String) :
    Moves SameMoves (store.activateProviderState manifest configHome) :=
  store.activateProviderState_moves (fun _ => writeDisk_same fun _ => rfl) _ _

theorem rollbackProviderState_same (configHome : String) :
    Moves SameMoves (store.rollbackProviderState manifest configHome) := by
  unfold rollbackProviderState
  cases manifest.providerState with
  | none => exact .pure _
  | some state =>
    refine .bind (providerStateDestination_reads _ _) fun destination => ?_
    cases destination with
    | none => exact .pure _
    | some destination =>
      refine .bind readDisk_reads fun disk => ?_
      cases disk.providerFiles.lookup destination with
      | none => exact .pure _
      | some contents =>
        refine .bind fileOperation_reads fun _ => ?_
        exact .ite (fun _ => writeDisk_same fun _ => rfl) fun _ => .pure _

/-! ### Requests about blobs -/

theorem finishBlob_same (digest : String) (bytes : List UInt8) :
    Moves SameMoves (store.finishBlob digest bytes) := by
  refine .bind fileOperation_reads fun _ => ?_
  exact .bind (refuseIf_reads _ _) fun _ => writeDisk_same fun _ => rfl

theorem putBlob_same (params : BlobPutParams) : Moves SameMoves (store.putBlob params) := by
  refine .bind (refuseIf_reads _ _) fun _ => ?_
  refine .bind (hexDecode_reads _) fun _ => ?_
  refine .bind (refuseIf_reads _ _) fun _ => ?_
  refine .bind readDisk_reads fun disk => ?_
  refine .ite (fun _ => .pure _) fun _ => ?_
  refine .bind (refuseIf_reads _ _) fun _ => ?_
  refine .bind (writeDisk_same fun _ => rfl) fun _ => ?_
  refine .ite (fun _ => ?_) fun _ => .pure _
  exact .bind (store.finishBlob_same _ _) fun _ => .pure _

/-! ### Before a checkpoint is saved -/

theorem storeProviderState_same (params : CheckpointPrepareParams)
    (providerFile : Option WalkedFile) :
    Moves SameMoves (store.storeProviderState params providerFile) := by
  unfold storeProviderState
  cases params.providerSessionId with
  | none => exact .pure _
  | some id =>
    cases providerFile with
    | none => exact .pure _
    | some contents =>
      refine .tryCatch ?_ fun _ => .pure _
      exact .bind (store.storeFile_same _) fun _ => .pure _

end CheckpointStore

namespace NodeService

variable (service : NodeService)

theorem rollback_same (manifest : CheckpointManifest) (accounts : List AccountProfile) :
    Moves SameMoves (service.rollback manifest accounts) := by
  refine .ite (fun _ => .pure _) fun _ => ?_
  cases accounts.find? fun profile => profile.id = manifest.profileId with
  | none => exact .pure _
  | some profile => exact service.store.rollbackProviderState_same _ _

end NodeService

end Diri

namespace Diri

open Handler

variable {s s' : NodeHost}

theorem refuseIf_ok {p : Prop} [Decidable p] {error : NodeError} {a : PUnit}
    (h : exec (refuseIf p error) s = (.ok a, s')) : ¬p ∧ s' = s := by
  unfold refuseIf at h
  by_cases hp : p
  · rw [if_pos hp] at h
    cases h
  · rw [if_neg hp] at h
    exact ⟨hp, (Prod.mk.inj h).2.symm⟩

theorem readDisk_ok {disk : NodeDisk} (h : exec readDisk s = (.ok disk, s')) :
    disk = s.disk ∧ s' = s := by
  cases h
  exact ⟨rfl, rfl⟩

/-- The request failed, and the records are what they were. -/
def Refused {α : Type} (s : NodeHost) (result : Except NodeError α) (s' : NodeHost) : Prop :=
  (∃ error, result = .error error) ∧ SameMoves s s'

theorem orRefused {α β : Type} {m : NodeM α} {f : α → NodeM β} {P : Prop}
    {result : Except NodeError β} (hm : Moves SameMoves m) (h : exec (m >>= f) s = (result, s'))
    (hrest : ∀ a s₁, SameMoves s s₁ → exec m s = (.ok a, s₁) → exec (f a) s₁ = (result, s') →
      P ∨ Refused s₁ result s') : P ∨ Refused s result s' := by
  rcases hm.bind_cases h with ⟨a, s₁, hsame, hfirst, hlast⟩ | hfailed
  · rcases hrest a s₁ hsame hfirst hlast with hP | ⟨herror, hsame'⟩
    · exact .inl hP
    · exact .inr ⟨herror, Steps.trans hsame hsame'⟩
  · exact .inr hfailed

theorem refuseIf_then {β : Type} {p : Prop} [Decidable p] {error : NodeError} {f : PUnit → NodeM β}
    {result : Except NodeError β} (h : exec (refuseIf p error >>= f) s = (result, s')) :
    (¬p ∧ exec (f ⟨⟩) s = (result, s')) ∨ Refused s result s' := by
  rcases exec_bind_cases h with ⟨a, s₁, hfirst, hrest⟩ | ⟨e, hfirst, rfl⟩
  · obtain ⟨hp, rfl⟩ := refuseIf_ok hfirst
    exact .inl ⟨hp, hrest⟩
  · exact .inr ⟨⟨e, rfl⟩, (refuseIf_reads _ _).of_exec hfirst⟩

namespace CheckpointStore

variable (store : CheckpointStore)

/-! ### One file -/

variable {movement : MoveRecord} {now : Int}

theorem saveMove_cases {result : Except NodeError PUnit}
    (h : exec (saveMove movement) s = (result, s')) :
    (s'.disk.moves = s.disk.moves.insert movement.checkpointId movement ∧ result = .ok ⟨⟩) ∨
      Refused s result s' := by
  rcases (fileOperation_reads (R := SameMoves)).bind_cases h with
    ⟨a, s₁, hsame, -, hmodify⟩ | hfailed
  · rw [exec_modify] at hmodify
    obtain ⟨rfl, rfl⟩ := Prod.mk.inj hmodify
    refine .inl ⟨?_, rfl⟩
    show s₁.disk.moves.insert _ _ = _
    rw [hsame]
  · exact .inr hfailed

theorem saveMove_then {α : Type} {value : α} {result : Except NodeError α}
    (h : exec (saveMove movement >>= fun _ => pure value) s = (result, s')) :
    (s'.disk.moves = s.disk.moves.insert movement.checkpointId movement ∧ result = .ok value) ∨
      Refused s result s' := by
  rcases exec_bind_cases h with ⟨a, s₁, hsave, hpure⟩ | ⟨error, hsave, rfl⟩
  · rw [exec_pure] at hpure
    obtain ⟨rfl, rfl⟩ := Prod.mk.inj hpure
    rcases saveMove_cases hsave with ⟨hsaved, -⟩ | ⟨⟨error, herror⟩, -⟩
    · exact .inl ⟨hsaved, rfl⟩
    · cases herror
  rcases saveMove_cases hsave with ⟨-, hok⟩ | ⟨-, hsame⟩
  · cases hok
  · exact .inr ⟨⟨error, rfl⟩, hsame⟩

theorem loadMove_ok {checkpointId : String}
    (h : exec (loadMove checkpointId) s = (.ok movement, s')) :
    s.disk.moves.lookup checkpointId = some movement := by
  rcases exec_bind_cases h with ⟨a, s₁, hvalid, hrest⟩ | ⟨e, -, he⟩
  · obtain ⟨-, rfl⟩ := refuseIf_ok hvalid
    rcases exec_bind_cases hrest with ⟨disk, s₂, hread, hrest⟩ | ⟨e, -, he⟩
    · obtain ⟨rfl, rfl⟩ := readDisk_ok hread
      cases hlookup : s₂.disk.moves.lookup checkpointId with
      | none =>
        rw [hlookup] at hrest
        cases hrest
      | some found =>
        rw [hlookup] at hrest
        rcases exec_bind_cases hrest with ⟨-, s₃, -, hpure⟩ | ⟨e, -, he⟩
        · cases hpure
          rfl
        · cases he
    · cases he
  · cases he

/-! ### The operations -/

theorem answered_ok {α : Type} {answer : Except NodeError α} {a : α}
    (h : exec (answered answer) s = (.ok a, s')) : answer = .ok a := by
  cases answer with
  | ok found =>
    cases h
    rfl
  | error error => cases h

/-- A checkpoint that is prepared has a new record, under the id that was drawn. -/
theorem prepare_cases {params : CheckpointPrepareParams} {workspace : Workspace}
    {random : Except NodeError (List UInt8)} {providerFile : Option WalkedFile}
    {result : Except NodeError CheckpointManifest}
    (h : exec (store.prepare params workspace random providerFile now) s = (result, s')) :
    (∃ bytes manifest, random = .ok bytes ∧ result = .ok manifest ∧
      manifest.checkpointId = "cp-" ++ hexEncode bytes ∧
      s'.disk.moves = s.disk.moves.insert ("cp-" ++ hexEncode bytes)
        (.ofPrepared ("cp-" ++ hexEncode bytes) params.sessionId store.nodeId now)) ∨
      Refused s result s' := by
  refine orRefused (answered_reads _) h fun root s₁ h₁ _ h => ?_
  refine orRefused (refuseIf_reads _ _) h fun _ s₂ h₂ _ h => ?_
  refine orRefused (answered_reads random) h fun bytes s₃ h₃ hrandom h => ?_
  refine orRefused (store.storeFiles_same _) h fun files s₄ h₄ _ h => ?_
  refine orRefused (answered_reads _) h fun _ s₅ h₅ _ h => ?_
  refine orRefused (store.storeProviderState_same _ _) h fun providerState s₆ h₆ _ h => ?_
  refine orRefused (saveManifest_same _) h fun _ s₇ h₇ _ h => ?_
  rcases saveMove_then h with ⟨hsaved, rfl⟩ | hfailed
  · refine .inl ⟨bytes, _, answered_ok hrandom, rfl, rfl, ?_⟩
    rw [hsaved, h₇, h₆, h₅, h₄, h₃, h₂, h₁]
    rfl
  · exact .inr hfailed

theorem putManifest_cases {manifest : CheckpointManifest} {result : Except NodeError PUnit}
    (h : exec (store.putManifest manifest now) s = (result, s')) :
    (manifest.sourceNodeId ≠ store.nodeId ∧ result = .ok ⟨⟩ ∧
      s'.disk.moves = s.disk.moves.insert manifest.checkpointId
        (.ofManifest manifest store.nodeId now)) ∨ Refused s result s' := by
  refine orRefused (validateManifest_reads _) h fun _ s₁ h₁ _ hsource => ?_
  rcases refuseIf_then hsource with ⟨hother, hsave⟩ | hfailed
  · refine orRefused (saveManifest_same _) hsave fun _ s₂ h₂ _ hmove => ?_
    rcases saveMove_cases hmove with ⟨hsaved, hok⟩ | hfailed
    · refine .inl ⟨hother, hok, ?_⟩
      rw [hsaved, h₂, h₁]
      rfl
    · exact .inr hfailed
  · exact .inr hfailed

/-- Staging saves a record once; where the files are there already it saves none. -/
theorem stage_cases {checkpointId configHome : String}
    {result : Except NodeError CheckpointStageResult}
    (h : exec (store.stage checkpointId configHome now) s = (result, s')) :
    (∃ staged, result = .ok staged ∧
      ((∃ movement, s.disk.moves.lookup checkpointId = some movement ∧
        checkpointId ∉ s.disk.restores ∧
        s'.disk.moves = s.disk.moves.insert movement.checkpointId (movement.stage now)) ∨
      (checkpointId ∈ s.disk.restores ∧ SameMoves s s'))) ∨ Refused s result s' := by
  refine orRefused (loadManifest_reads _) h fun manifest s₁ h₁ hload h => ?_
  have hdisk : s₁.disk = s.disk := (loadManifest_reads (R := SameDisk) _).of_exec hload
  refine orRefused readDisk_reads h fun disk s₂ _ hread h => ?_
  obtain ⟨rfl, rfl⟩ := readDisk_ok hread
  rw [← hdisk]
  by_cases hthere : checkpointId ∈ s₂.disk.restores
  · rw [if_pos hthere] at h
    refine orRefused (store.activateProviderState_same _ _) h fun _ s₃ h₃ _ hpure => ?_
    rw [exec_pure] at hpure
    obtain ⟨rfl, rfl⟩ := Prod.mk.inj hpure
    exact .inl ⟨_, rfl, .inr ⟨hthere, Steps.trans h₁ h₃⟩⟩
  rw [if_neg hthere] at h
  refine orRefused (refuseIf_reads _ _) h fun _ s₃ h₃ _ h => ?_
  refine orRefused (store.restore_same _ _) h fun _ s₄ h₄ _ h => ?_
  refine orRefused (store.activateProviderState_same _ _) h fun _ s₅ h₅ _ h => ?_
  refine orRefused (loadMove_reads _) h fun movement s₆ h₆ hmove h => ?_
  have hlookup := loadMove_ok hmove
  rw [h₅, h₄, h₃] at hlookup
  rcases saveMove_then h with ⟨hsaved, hok⟩ | hfailed
  · refine .inl ⟨_, hok, .inl ⟨movement, hlookup, hthere, ?_⟩⟩
    rw [hsaved, h₆, h₅, h₄, h₃]
    rfl
  · exact .inr hfailed

theorem commit_cases {trim : String → String} {params : MoveCommitParams}
    {result : Except NodeError MoveRecord} (h : exec (commit trim params now) s = (result, s')) :
    ((∃ movement, s.disk.moves.lookup params.checkpointId = some movement ∧
      movement.phase ≠ .aborted ∧ movement.phase ≠ .committed ∧
      result = .ok (movement.commit params now) ∧
      s'.disk.moves = s.disk.moves.insert movement.checkpointId (movement.commit params now)) ∨
    (∃ movement, s.disk.moves.lookup params.checkpointId = some movement ∧
      movement.phase = .committed ∧ movement.leaseId = some params.leaseId ∧
      result = .ok movement ∧ SameMoves s s')) ∨ Refused s result s' := by
  rcases refuseIf_then h with ⟨-, hload⟩ | hfailed
  · refine orRefused (loadMove_reads _) hload fun movement s₁ h₁ hmove hphase => ?_
    have hlookup := loadMove_ok hmove
    rcases refuseIf_then hphase with ⟨haborted, hrest⟩ | hfailed
    · by_cases hcommitted : movement.phase = .committed
      · rw [if_pos hcommitted] at hrest
        rcases refuseIf_then hrest with ⟨hlease, hpure⟩ | hfailed
        · rw [exec_pure] at hpure
          obtain ⟨rfl, rfl⟩ := Prod.mk.inj hpure
          exact .inl (.inr ⟨movement, hlookup, hcommitted, not_not.mp hlease, rfl, h₁⟩)
        · exact .inr hfailed
      · rw [if_neg hcommitted] at hrest
        rcases saveMove_then hrest with ⟨hsaved, hok⟩ | hfailed
        · refine .inl (.inl ⟨movement, hlookup, haborted, hcommitted, hok, ?_⟩)
          rw [hsaved, h₁]
          rfl
        · exact .inr hfailed
    · exact .inr hfailed
  · exact .inr hfailed

theorem abort_cases {params : MoveAbortParams} {result : Except NodeError MoveRecord}
    (h : exec (abort params now) s = (result, s')) :
    (∃ movement, s.disk.moves.lookup params.checkpointId = some movement ∧
      movement.phase ≠ .committed ∧ result = .ok (movement.abort params now) ∧
      s'.disk.moves = s.disk.moves.insert movement.checkpointId (movement.abort params now)) ∨
      Refused s result s' := by
  refine orRefused (loadMove_reads _) h fun movement s₁ h₁ hmove hphase => ?_
  have hlookup := loadMove_ok hmove
  rcases refuseIf_then hphase with ⟨hcommitted, hrest⟩ | hfailed
  · rcases saveMove_then hrest with ⟨hsaved, hok⟩ | hfailed
    · refine .inl ⟨movement, hlookup, hcommitted, hok, ?_⟩
      rw [hsaved, h₁]
      rfl
    · exact .inr hfailed
  · exact .inr hfailed

end CheckpointStore

/-! ### A request -/

/-- A request about blobs, which moves no checkpoint. -/
def NodeRequest.AboutBlobs : NodeRequest → Prop
  | .checkpointBlobHas _ | .checkpointBlobRead _ _ _ | .checkpointBlobPut _ => True
  | _ => False

/-- What a request makes of the move records, and what it is answered. -/
inductive Served (service : NodeService) (disk after : NodeDisk) :
    NodeRequest → NodeOutside → Except NodeError NodeReply → Prop
  | refused {request outside error} (hsame : after.moves = disk.moves) :
      Served service disk after request outside (.error error)
  | blobs {request outside reply} (hblobs : request.AboutBlobs)
      (hsame : after.moves = disk.moves) : Served service disk after request outside reply
  | prepared {params outside bytes manifest} (hrandom : outside.random = .ok bytes)
      (hid : manifest.checkpointId = "cp-" ++ hexEncode bytes)
      (hsaved : after.moves = disk.moves.insert manifest.checkpointId
        (.ofPrepared manifest.checkpointId params.sessionId service.store.nodeId outside.now)) :
      Served service disk after (.checkpointPrepare params) outside (.ok (.manifest manifest))
  | put {manifest outside} (hother : manifest.sourceNodeId ≠ service.store.nodeId)
      (hsaved : after.moves = disk.moves.insert manifest.checkpointId
        (.ofManifest manifest service.store.nodeId outside.now)) :
      Served service disk after (.checkpointManifestPut manifest) outside (.ok .ok)
  | staged {checkpointId outside movement result}
      (hlookup : disk.moves.lookup checkpointId = some movement)
      (hfresh : checkpointId ∉ disk.restores)
      (hsaved : after.moves = disk.moves.insert movement.checkpointId
        (movement.stage outside.now)) :
      Served service disk after (.checkpointStage checkpointId) outside (.ok (.staged result))
  | restored {checkpointId outside result} (hthere : checkpointId ∈ disk.restores)
      (hsame : after.moves = disk.moves) :
      Served service disk after (.checkpointStage checkpointId) outside (.ok (.staged result))
  | committed {params outside movement}
      (hlookup : disk.moves.lookup params.checkpointId = some movement)
      (haborted : movement.phase ≠ .aborted) (hcommitted : movement.phase ≠ .committed)
      (hsaved : after.moves = disk.moves.insert movement.checkpointId
        (movement.commit params outside.now)) :
      Served service disk after (.moveCommit params) outside
        (.ok (.movement (movement.commit params outside.now)))
  | again {params outside movement}
      (hlookup : disk.moves.lookup params.checkpointId = some movement)
      (hcommitted : movement.phase = .committed) (hlease : movement.leaseId = some params.leaseId)
      (hsame : after.moves = disk.moves) :
      Served service disk after (.moveCommit params) outside (.ok (.movement movement))
  | aborted {params outside movement reply}
      (hlookup : disk.moves.lookup params.checkpointId = some movement)
      (hcommitted : movement.phase ≠ .committed)
      (hsaved : after.moves = disk.moves.insert movement.checkpointId
        (movement.abort params outside.now)) :
      Served service disk after (.moveAbort params) outside reply

namespace NodeService

variable {service : NodeService} {s s' : NodeHost} {outside : NodeOutside}
  {reply : Except NodeError NodeReply}

theorem served_after {request : NodeRequest} {α : Type} {m : NodeM α} {f : α → NodeM NodeReply}
    (hm : ∀ {R : NodeHost → NodeHost → Prop} [ReadsDisk R], Moves R m)
    (h : exec (m >>= f) s = (reply, s')) (hrest : ∀ a s₁, exec (f a) s₁ = (reply, s') →
      Served service s₁.disk s'.disk request outside reply) :
    Served service s.disk s'.disk request outside reply := by
  rcases exec_bind_cases h with ⟨a, s₁, hfirst, hlast⟩ | ⟨error, hfirst, rfl⟩
  · have hdisk : s₁.disk = s.disk := (hm (R := SameDisk)).of_exec hfirst
    rw [← hdisk]
    exact hrest a s₁ hlast
  · exact .refused ((hm (R := SameMoves)).of_exec hfirst)

theorem prepare_served {params : CheckpointPrepareParams}
    (h : exec (service.dispatch (.checkpointPrepare params) outside) s = (reply, s')) :
    Served service s.disk s'.disk (.checkpointPrepare params) outside reply := by
  refine served_after (profile_reads _ _) h fun profile s₁ h₁ => ?_
  refine served_after (refuseIf_reads _ _) h₁ fun _ s₂ h₂ => ?_
  obtain ⟨result, hprepare, rfl⟩ := exec_bind_pure h₂
  rcases service.store.prepare_cases hprepare with
    ⟨bytes, manifest, hrandom, rfl, hid, hsaved⟩ | ⟨⟨error, rfl⟩, hsame⟩
  · rw [← hid] at hsaved
    exact .prepared hrandom hid hsaved
  · exact .refused hsame

theorem put_served {manifest : CheckpointManifest}
    (h : exec (service.dispatch (.checkpointManifestPut manifest) outside) s = (reply, s')) :
    Served service s.disk s'.disk (.checkpointManifestPut manifest) outside reply := by
  obtain ⟨result, hput, rfl⟩ := exec_bind_pure h
  rcases service.store.putManifest_cases hput with ⟨hother, rfl, hsaved⟩ | ⟨⟨error, rfl⟩, hsame⟩
  · exact .put hother hsaved
  · exact .refused hsame

theorem stage_served {checkpointId : String}
    (h : exec (service.dispatch (.checkpointStage checkpointId) outside) s = (reply, s')) :
    Served service s.disk s'.disk (.checkpointStage checkpointId) outside reply := by
  refine served_after (CheckpointStore.loadManifest_reads _) h fun manifest s₁ h₁ => ?_
  refine served_after (profile_reads _ _) h₁ fun profile s₂ h₂ => ?_
  refine served_after (refuseIf_reads _ _) h₂ fun _ s₃ h₃ => ?_
  obtain ⟨result, hstage, rfl⟩ := exec_bind_pure h₃
  rcases service.store.stage_cases hstage with ⟨staged, rfl, hcases⟩ | ⟨⟨error, rfl⟩, hsame⟩
  · rcases hcases with ⟨movement, hlookup, hfresh, hsaved⟩ | ⟨hthere, hsame⟩
    · exact .staged hlookup hfresh hsaved
    · exact .restored hthere hsame
  · exact .refused hsame

theorem commit_served {params : MoveCommitParams}
    (h : exec (service.dispatch (.moveCommit params) outside) s = (reply, s')) :
    Served service s.disk s'.disk (.moveCommit params) outside reply := by
  obtain ⟨result, hcommit, rfl⟩ := exec_bind_pure h
  rcases CheckpointStore.commit_cases hcommit with
    (⟨movement, hlookup, haborted, hcommitted, rfl, hsaved⟩ |
      ⟨movement, hlookup, hcommitted, hlease, rfl, hsame⟩) | ⟨⟨error, rfl⟩, hsame⟩
  · exact .committed hlookup haborted hcommitted hsaved
  · exact .again hlookup hcommitted hlease hsame
  · exact .refused hsame

theorem abort_served {params : MoveAbortParams}
    (h : exec (service.dispatch (.moveAbort params) outside) s = (reply, s')) :
    Served service s.disk s'.disk (.moveAbort params) outside reply := by
  refine served_after (CheckpointStore.loadManifest_reads _) h fun manifest s₁ h₁ => ?_
  rcases exec_bind_cases h₁ with ⟨movement, s₂, habort, hrest⟩ | ⟨error, habort, rfl⟩
  · -- what is taken away afterwards may fail; the record is saved by then
    have hsame : SameMoves s₂ s' := by
      refine Moves.of_exec (.bind ?_ fun _ => .pure _) hrest
      exact service.rollback_same _ _
    rcases CheckpointStore.abort_cases habort with
      ⟨movement, hlookup, hcommitted, -, hsaved⟩ | ⟨⟨error, herror⟩, -⟩
    · exact .aborted hlookup hcommitted (hsame.trans hsaved)
    · cases herror
  rcases CheckpointStore.abort_cases habort with ⟨_, _, _, hok, _⟩ | ⟨-, hsame⟩
  · cases hok
  · exact .refused hsame

theorem serve_served {disk after : NodeDisk} {call : NodeRequest × NodeOutside}
    (h : service.serve disk call = (after, reply)) :
    Served service disk after call.1 call.2 reply := by
  obtain ⟨request, outside⟩ := call
  obtain ⟨host, hexec, rfl⟩ : ∃ host : NodeHost,
      exec (service.dispatch request outside) ⟨disk, outside.faults⟩ = (reply, host) ∧
        host.disk = after := by
    obtain ⟨hafter, hreply⟩ := Prod.mk.inj h
    exact ⟨_, Prod.ext hreply rfl, hafter⟩
  cases request with
  | checkpointPrepare params => exact prepare_served hexec
  | checkpointManifestPut manifest => exact put_served hexec
  | checkpointBlobHas digests =>
    obtain ⟨result, hhas, rfl⟩ := exec_bind_pure hexec
    exact .blobs trivial ((CheckpointStore.missingBlobs_reads (R := SameMoves) _).of_exec hhas)
  | checkpointBlobRead digest offset maxBytes =>
    obtain ⟨result, hread, rfl⟩ := exec_bind_pure hexec
    exact .blobs trivial ((CheckpointStore.readBlob_reads (R := SameMoves) _ _ _).of_exec hread)
  | checkpointBlobPut params =>
    obtain ⟨result, hput, rfl⟩ := exec_bind_pure hexec
    exact .blobs trivial ((service.store.putBlob_same _).of_exec hput)
  | checkpointStage checkpointId => exact stage_served hexec
  | moveCommit params => exact commit_served hexec
  | moveAbort params => exact abort_served hexec

end NodeService

end Diri
