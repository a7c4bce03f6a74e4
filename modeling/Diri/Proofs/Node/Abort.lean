/-
What is left in a provider's home once a move is aborted.

A stage copies the transcript beside its place and moves it there; the abort removes what is
at the place if it has the digest of the manifest.  So the abort also removes a transcript
that was there before, and a copy that is not moved stays.
-/
import Diri.Proofs.Node.Restore

namespace Diri

open Handler AList CheckpointStore

/-- Where a checkpoint's transcript goes, where it is copied first, and its digest. -/
structure Transcript where
  place : String
  staging : String
  digest : String

namespace CheckpointStore

variable (store : CheckpointStore)

def transcript (manifest : CheckpointManifest) (configHome : String) : Option Transcript := do
  let state ← manifest.providerState
  let place ← (exec (providerStateDestination manifest configHome) {}).1.toOption.join
  return ⟨place, store.providerStaging manifest configHome, state.digest⟩

theorem exec_providerStateDestination (manifest : CheckpointManifest) (configHome : String)
    (s : NodeHost) : exec (providerStateDestination manifest configHome) s =
      ((exec (providerStateDestination manifest configHome) {}).1, s) := by
  unfold providerStateDestination
  cases manifest.providerSessionId with
  | none => rfl
  | some sessionId =>
    dsimp only
    split
    · rfl
    · cases manifest.provider with
      | claude | codex => rfl

variable {transcript : Transcript}

theorem place_ne_staging {manifest : CheckpointManifest} {configHome : String}
    (h : store.transcript manifest configHome = some transcript) :
    transcript.place ≠ transcript.staging := by
  obtain ⟨state, -, place, hplace, rfl⟩ : ∃ state, manifest.providerState = some state ∧
      ∃ place, (exec (providerStateDestination manifest configHome) {}).1.toOption.join =
        some place ∧ (⟨place, store.providerStaging manifest configHome, state.digest⟩ : Transcript) =
          transcript := by
    obtain ⟨state, hstate, h⟩ := Option.bind_eq_some_iff.mp h
    obtain ⟨place, hplace, h⟩ := Option.bind_eq_some_iff.mp h
    exact ⟨state, hstate, place, hplace, Option.some.inj h⟩
  obtain ⟨start, hstart⟩ : ∃ start, place = start ++ ".jsonl" := by
    unfold providerStateDestination at hplace
    cases hsession : manifest.providerSessionId with
    | none =>
      rw [hsession] at hplace
      cases hplace
    | some sessionId =>
      rw [hsession] at hplace
      dsimp only at hplace
      split at hplace
      · cases hplace
      cases hprovider : manifest.provider with
      | claude | codex =>
        rw [hprovider] at hplace
        exact ⟨_, (Option.some.inj hplace).symm⟩
  intro hsame
  have hlast := congrArg (fun path => path.toList.getLast?) hsame
  have hdigits : Nat.toDigits 10 store.processId ≠ [] := Nat.toDigits_ne_nil
  simp only [hstart, providerStaging, String.toList_append, Nat.toString_eq_repr,
    Nat.toList_repr, List.getLast?_append] at hlast
  rw [List.getLast?_eq_some_getLast hdigits] at hlast
  have hdigit := Nat.isDigit_of_mem_toDigits (by omega) (by omega) (List.getLast_mem hdigits)
  rw [← Option.some.inj hlast] at hdigit
  cases hdigit

theorem exec_writeDisk (f : NodeDisk → NodeDisk) (s : NodeHost) : exec (writeDisk f) s =
      if s.faults.head? = some true then (.error .io, { s with faults := s.faults.tail })
      else (.ok ⟨⟩, ⟨f s.disk, s.faults.tail⟩) := by
  unfold writeDisk
  rw [exec_bind, exec_fileOperation]
  by_cases hfault : s.faults.head? = some true
  · rw [if_pos hfault, if_pos hfault]
  · rw [if_neg hfault, if_neg hfault]
    rfl

/-! ### The stage -/

/-- The transcript is copied: its place is free, its blob is there, and its directory and its
copy can be made. -/
structure Starts (s : NodeHost) (transcript : Transcript) (contents : List UInt8) : Prop where
  free : s.disk.providerFiles.lookup transcript.place = none
  blob : s.disk.blobs.lookup transcript.digest = some contents
  works : ∀ n < 3, s.faults[n]? ≠ some true

/-- It is not moved to its place: the copy cannot be filled, read or moved, or is not what it
should be. -/
def BreaksOff (s : NodeHost) (transcript : Transcript) (contents : List UInt8) : Prop :=
  (∃ n, 3 ≤ n ∧ n < 6 ∧ s.faults[n]? = some true) ∨ store.sha256 contents ≠ transcript.digest

/-- What is left of the copy then. -/
def left (s : NodeHost) (contents : List UInt8) : List UInt8 :=
  if s.faults[3]? = some true then [] else contents

/-- The files of the providers once the transcript is at its place. -/
def installed (files : Table String (List UInt8)) (transcript : Transcript)
    (contents : List UInt8) : Table String (List UInt8) :=
  (files.erase transcript.staging).insert transcript.place contents

theorem exec_fileOperation_bind {α : Type} (m : NodeM α) (s : NodeHost) :
    exec (fileOperation >>= fun _ => m) s =
      if s.faults.head? = some true then (.error .io, { s with faults := s.faults.tail })
      else exec m { s with faults := s.faults.tail } := by
  rw [exec_bind, exec_fileOperation]
  by_cases hfault : s.faults.head? = some true
  · rw [if_pos hfault, if_pos hfault]
  · rw [if_neg hfault, if_neg hfault]

theorem exec_writeDisk_bind {α : Type} (f : NodeDisk → NodeDisk) (m : NodeM α) (s : NodeHost) :
    exec (writeDisk f >>= fun _ => m) s =
      if s.faults.head? = some true then (.error .io, { s with faults := s.faults.tail })
      else exec m ⟨f s.disk, s.faults.tail⟩ := by
  rw [exec_bind, exec_writeDisk]
  by_cases hfault : s.faults.head? = some true
  · rw [if_pos hfault, if_pos hfault]
  · rw [if_neg hfault, if_neg hfault]

/-- The part of `activateProviderState` that copies the transcript. -/
def install (transcript : Transcript) (contents : List UInt8) : NodeM PUnit := do
  writeDisk fun disk =>
    { disk with providerFiles := disk.providerFiles.insert transcript.staging [] }
  writeDisk fun disk =>
    { disk with providerFiles := disk.providerFiles.insert transcript.staging contents }
  fileOperation
  refuseIf (store.sha256 contents ≠ transcript.digest)
    (.conflict "provider state blob is missing or corrupt")
  writeDisk fun disk =>
    { disk with
      providerFiles := (disk.providerFiles.erase transcript.staging).insert transcript.place contents }

theorem lookup_installed {files copied : Table String (List UInt8)} {copy : List UInt8}
    (h : ∀ path, copied.lookup path = (files.insert transcript.staging copy).lookup path)
    (contents : List UInt8) (path : String) : (installed copied transcript contents).lookup path =
      (installed files transcript contents).lookup path := by
  unfold installed
  by_cases hplace : path = transcript.place
  · rw [hplace, lookup_insert, lookup_insert]
  rw [lookup_insert_ne hplace, lookup_insert_ne hplace]
  by_cases hstaging : path = transcript.staging
  · rw [hstaging, lookup_erase, lookup_erase]
  · rw [lookup_erase_ne hstaging, lookup_erase_ne hstaging, h,
      lookup_insert_ne hstaging]

theorem install_cases (transcript : Transcript) (contents : List UInt8) (s : NodeHost) :
    (s.faults[0]? = some true ∧
      (exec (store.install transcript contents) s).2.disk.providerFiles = s.disk.providerFiles) ∨
    (s.faults[0]? ≠ some true ∧ ((∃ n, 1 ≤ n ∧ n < 4 ∧ s.faults[n]? = some true) ∨
        store.sha256 contents ≠ transcript.digest) ∧
      ∀ path, (exec (store.install transcript contents) s).2.disk.providerFiles.lookup path =
        (s.disk.providerFiles.insert transcript.staging
          (if s.faults[1]? = some true then [] else contents)).lookup path) ∨
    (s.faults[0]? ≠ some true ∧ ¬((∃ n, 1 ≤ n ∧ n < 4 ∧ s.faults[n]? = some true) ∨
        store.sha256 contents ≠ transcript.digest) ∧
      ∀ path, (exec (store.install transcript contents) s).2.disk.providerFiles.lookup path =
        (installed s.disk.providerFiles transcript contents).lookup path) := by
  obtain ⟨disk, faults⟩ := s
  unfold install
  rw [exec_writeDisk_bind]
  simp only [List.head?_eq_getElem?]
  by_cases hcreate : faults[0]? = some true
  · rw [if_pos hcreate]
    exact .inl ⟨hcreate, rfl⟩
  rw [if_neg hcreate, exec_writeDisk_bind]
  simp only [List.head?_eq_getElem?, List.getElem?_tail, Nat.zero_add]
  refine .inr ?_
  by_cases hfill : faults[1]? = some true
  · rw [if_pos hfill]
    refine .inl ⟨hcreate, .inl ⟨1, by omega, by omega, hfill⟩, fun path => ?_⟩
    rw [if_pos hfill]
  rw [if_neg hfill, exec_fileOperation_bind]
  simp only [List.head?_eq_getElem?, List.getElem?_tail, Nat.zero_add]
  -- the copy is there and stays there unless all of the rest goes well
  have hcopied : ∀ path, ((disk.providerFiles.insert transcript.staging []).insert
      transcript.staging contents).lookup path =
        (disk.providerFiles.insert transcript.staging contents).lookup path := by
    intro path
    by_cases hpath : path = transcript.staging
    · rw [hpath, lookup_insert, lookup_insert]
    · rw [lookup_insert_ne hpath, lookup_insert_ne hpath, lookup_insert_ne hpath]
  by_cases hread : faults[2]? = some true
  · rw [if_pos hread]
    refine .inl ⟨hcreate, .inl ⟨2, by omega, by omega, hread⟩, fun path => ?_⟩
    rw [if_neg hfill]
    exact hcopied path
  rw [if_neg hread]
  by_cases hdigest : store.sha256 contents = transcript.digest
  · rw [refuseIf, if_neg (not_not.mpr hdigest), exec_bind_ok (exec_pure _ _), exec_writeDisk]
    simp only [List.head?_eq_getElem?, List.getElem?_tail, Nat.zero_add]
    by_cases hmove : faults[3]? = some true
    · rw [if_pos hmove]
      refine .inl ⟨hcreate, .inl ⟨3, by omega, by omega, hmove⟩, fun path => ?_⟩
      rw [if_neg hfill]
      exact hcopied path
    rw [if_neg hmove]
    refine .inr ⟨hcreate, ?_, fun path => lookup_installed hcopied contents path⟩
    rintro (⟨n, hfirst, hlast, hfault⟩ | hwrong)
    · obtain rfl | rfl | rfl : n = 1 ∨ n = 2 ∨ n = 3 := by omega
      · exact hfill hfault
      · exact hread hfault
      · exact hmove hfault
    · exact hwrong hdigest
  rw [refuseIf, if_pos hdigest, exec_bind_error (exec_throw _ _)]
  refine .inl ⟨hcreate, .inr hdigest, fun path => ?_⟩
  rw [if_neg hfill]
  exact hcopied path

/-- The part of `activateProviderState` that knows the place of the transcript. -/
def activateAt (transcript : Transcript) (conflict : NodeError) : NodeM PUnit := do
  match (← readDisk).providerFiles.lookup transcript.place with
  | some contents =>
    fileOperation
    refuseIf (store.sha256 contents ≠ transcript.digest) conflict
  | none =>
    fileOperation
    fileOperation
    match (← readDisk).blobs.lookup transcript.digest with
    | none => throw .io
    | some contents => store.install transcript contents

/-- What it makes of the files of the providers. -/
def Activates (s s' : NodeHost) (transcript : Transcript) : Prop :=
  (s'.disk.providerFiles = s.disk.providerFiles ∧ ∀ contents, ¬Starts s transcript contents) ∨
  ∃ contents, Starts s transcript contents ∧
    ((store.BreaksOff s transcript contents ∧ ∀ path, s'.disk.providerFiles.lookup path =
        (s.disk.providerFiles.insert transcript.staging (left s contents)).lookup path) ∨
      (¬store.BreaksOff s transcript contents ∧ ∀ path, s'.disk.providerFiles.lookup path =
        (installed s.disk.providerFiles transcript contents).lookup path))

theorem activates_of_install {contents : List UInt8} {s : NodeHost}
    (hfree : s.disk.providerFiles.lookup transcript.place = none)
    (hblob : s.disk.blobs.lookup transcript.digest = some contents)
    (hmake : s.faults[0]? ≠ some true) (hown : s.faults[1]? ≠ some true) : store.Activates s
      (exec (store.install transcript contents) ⟨s.disk, s.faults.tail.tail⟩).2 transcript := by
  have hlater : ∀ n, s.faults.tail.tail[n]? = s.faults[n + 2]? := by
    intro n
    rw [List.getElem?_tail, List.getElem?_tail]
  have hbreaks : ((∃ n, 1 ≤ n ∧ n < 4 ∧ s.faults.tail.tail[n]? = some true) ∨
      store.sha256 contents ≠ transcript.digest) ↔ store.BreaksOff s transcript contents := by
    refine or_congr_left ⟨?_, ?_⟩
    · rintro ⟨n, hfirst, hlast, hfault⟩
      exact ⟨n + 2, by omega, by omega, hlater n ▸ hfault⟩
    rintro ⟨n, hfirst, hlast, hfault⟩
    refine ⟨n - 2, by omega, by omega, ?_⟩
    rw [hlater, Nat.sub_add_cancel (by omega)]
    exact hfault
  have hstarts (hcreate : s.faults[2]? ≠ some true) : Starts s transcript contents := by
    refine ⟨hfree, hblob, fun n hn => ?_⟩
    obtain rfl | rfl | rfl : n = 0 ∨ n = 1 ∨ n = 2 := by omega
    · exact hmake
    · exact hown
    · exact hcreate
  have hcases := store.install_cases transcript contents ⟨s.disk, s.faults.tail.tail⟩
  simp only [hbreaks] at hcases
  rcases hcases with ⟨hcreate, hsame⟩ | ⟨hcreate, hbroken, hfiles⟩ | ⟨hcreate, hwhole, hfiles⟩
  · refine .inl ⟨hsame, fun contents hstarts => ?_⟩
    exact hstarts.works 2 (by omega) (hlater 0 ▸ hcreate)
  · refine .inr ⟨contents, hstarts (hlater 0 ▸ hcreate), .inl ⟨hbroken, fun path => ?_⟩⟩
    rw [hfiles path, hlater 1]
    rfl
  · exact .inr ⟨contents, hstarts (hlater 0 ▸ hcreate), .inr ⟨hwhole, hfiles⟩⟩

theorem activateAt_activates (transcript : Transcript) (conflict : NodeError) (s : NodeHost) :
    store.Activates s (exec (store.activateAt transcript conflict) s).2 transcript := by
  unfold activateAt
  rw [exec_bind_ok (exec_readDisk s)]
  cases hfree : s.disk.providerFiles.lookup transcript.place with
  | some contents =>
    refine .inl ⟨?_, fun contents hstarts => ?_⟩
    · have hsame : Moves SameDisk (do
          fileOperation
          refuseIf (store.sha256 contents ≠ transcript.digest) conflict) :=
        .bind fileOperation_reads fun _ =>
          refuseIf_reads _ _
      exact congrArg NodeDisk.providerFiles (hsame s)
    · rw [hstarts.free] at hfree
      cases hfree
  | none =>
    rw [exec_fileOperation_bind]
    simp only [List.head?_eq_getElem?]
    by_cases hmake : s.faults[0]? = some true
    · rw [if_pos hmake]
      exact .inl ⟨rfl, fun contents hstarts => hstarts.works 0 (by omega) hmake⟩
    rw [if_neg hmake, exec_fileOperation_bind]
    simp only [List.head?_eq_getElem?, List.getElem?_tail, Nat.zero_add]
    by_cases hown : s.faults[1]? = some true
    · rw [if_pos hown]
      exact .inl ⟨rfl, fun contents hstarts => hstarts.works 1 (by omega) hown⟩
    rw [if_neg hown, exec_bind_ok (exec_readDisk _)]
    cases hblob : s.disk.blobs.lookup transcript.digest with
    | none =>
      refine .inl ⟨rfl, fun contents hstarts => ?_⟩
      rw [hstarts.blob] at hblob
      cases hblob
    | some contents =>
      exact store.activates_of_install hfree hblob hmake hown

theorem activate_cases (manifest : CheckpointManifest) (configHome : String) (s : NodeHost) :
    (store.transcript manifest configHome = none ∧
      (exec (store.activateProviderState manifest configHome) s).2.disk = s.disk) ∨
    ∃ transcript, store.transcript manifest configHome = some transcript ∧
      store.Activates s (exec (store.activateProviderState manifest configHome) s).2
        transcript := by
  unfold activateProviderState transcript
  cases manifest.providerState with
  | none => exact .inl ⟨rfl, rfl⟩
  | some state =>
    have hdestination := exec_providerStateDestination manifest configHome s
    cases hresult : (exec (providerStateDestination manifest configHome) {}).1 with
    | error error =>
      rw [hresult] at hdestination
      dsimp only
      rw [exec_bind_error hdestination]
      exact .inl ⟨rfl, rfl⟩
    | ok destination =>
      rw [hresult] at hdestination
      dsimp only
      rw [exec_bind_ok hdestination]
      cases destination with
      | none => exact .inl ⟨rfl, rfl⟩
      | some place =>
        exact .inr ⟨_, rfl, store.activateAt_activates
          ⟨place, store.providerStaging manifest configHome, state.digest⟩ _ s⟩

end CheckpointStore

/-- What a stage works with is what it was. -/
def SameSources (before after : NodeHost) : Prop :=
  after.disk.checkpoints = before.disk.checkpoints ∧ after.disk.blobs = before.disk.blobs ∧
    after.disk.providerFiles = before.disk.providerFiles

instance SameSources.reads : ReadsDisk SameSources where
  refl _ := ⟨rfl, rfl, rfl⟩
  trans h₁ h₂ := ⟨h₂.1.trans h₁.1, h₂.2.1.trans h₁.2.1, h₂.2.2.trans h₁.2.2⟩
  faults _ _ := ⟨rfl, rfl, rfl⟩

def SameCheckpoints (before after : NodeHost) : Prop :=
  after.disk.checkpoints = before.disk.checkpoints

instance SameCheckpoints.reads : ReadsDisk SameCheckpoints where
  refl _ := rfl
  trans h₁ h₂ := h₂.trans h₁
  faults _ _ := rfl

namespace NodeService

variable (service : NodeService)

/-- The part of a stage that comes before the transcript, and whether the checkpoint had been
restored before. -/
def reachTranscript (checkpointId : String) (accounts : List AccountProfile) :
    NodeM (CheckpointManifest × AccountProfile × Bool) := do
  let manifest ← CheckpointStore.loadManifest checkpointId
  let profile ← profile accounts manifest.profileId
  refuseIf (profile.provider ≠ manifest.provider)
    (.conflict "target account profile has the wrong provider")
  let manifest ← CheckpointStore.loadManifest checkpointId
  let disk ← readDisk
  if checkpointId ∈ disk.restores then return (manifest, profile, true)
  else
    refuseIf (checkpointId ∈ disk.stagings) (.conflict "checkpoint already has a staging operation")
    service.store.restore checkpointId manifest
    return (manifest, profile, false)

variable (checkpointId : String)

theorem reachTranscript_same (accounts : List AccountProfile) :
    Moves SameSources (service.reachTranscript checkpointId accounts) := by
  refine .bind (loadManifest_reads _) fun manifest => ?_
  refine .bind (profile_reads _ _) fun profile => ?_
  refine .bind (refuseIf_reads _ _) fun _ => ?_
  refine .bind (loadManifest_reads _) fun manifest => ?_
  refine .bind readDisk_reads fun disk => ?_
  refine .ite (fun _ => .pure _) fun _ => ?_
  refine .bind (refuseIf_reads _ _) fun _ => ?_
  refine .bind (service.store.restore_moves (fun _ _ => ?_) _ _) fun _ =>
    .pure _
  exact .bind fileOperation_reads fun _ => .modify fun _ => ⟨rfl, rfl, rfl⟩

/-- The part that comes after it. -/
def finishStage (checkpointId : String) (now : Int) (there : Bool) : NodeM NodeReply :=
  let result : CheckpointStageResult := ⟨checkpointId, service.store.restorePath checkpointId, true⟩
  if there then return .staged result
  else do
    let movement ← CheckpointStore.loadMove checkpointId
    CheckpointStore.saveMove (movement.stage now)
    return .staged result

theorem dispatch_stage (outside : NodeOutside) :
    service.dispatch (.checkpointStage checkpointId) outside = (do
      let (manifest, profile, there) ← service.reachTranscript checkpointId outside.accounts
      service.store.activateProviderState manifest (service.configHome profile)
      service.finishStage checkpointId outside.now there) := by
  unfold dispatch reachTranscript CheckpointStore.stage
  simp only [bind_assoc]
  refine bind_congr fun manifest => bind_congr fun profile => bind_congr fun _ => ?_
  refine bind_congr fun manifest => bind_congr fun disk => ?_
  by_cases hthere : checkpointId ∈ disk.restores
  · rw [if_pos hthere, if_pos hthere]
    simp only [bind_assoc, pure_bind]
    rfl
  rw [if_neg hthere, if_neg hthere]
  simp only [bind_assoc, pure_bind]
  rfl

theorem finishStage_moves {R : NodeHost → NodeHost → Prop} [ReadsDisk R]
    (hwrite : ∀ f : NodeDisk → Table String MoveRecord,
      Moves R (writeDisk fun disk => { disk with moves := f disk }))
    (checkpointId : String) (now : Int) (there : Bool) :
    Moves R (service.finishStage checkpointId now there) := by
  refine .ite (fun _ => .pure _) fun _ => ?_
  refine .bind (loadMove_reads _) fun movement => ?_
  exact .bind (hwrite _) fun _ => .pure _

/-- A stage ends before the transcript, or does what it does with it and writes nothing of the
providers after that. -/
theorem stage_cases (outside : NodeOutside) (s : NodeHost) :
    ((∃ error s₁, exec (service.reachTranscript checkpointId outside.accounts) s =
        (.error error, s₁)) ∧
      SameSources s (exec (service.dispatch (.checkpointStage checkpointId) outside) s).2) ∨
    ∃ manifest profile there s₁, exec (service.reachTranscript checkpointId outside.accounts) s =
        (.ok (manifest, profile, there), s₁) ∧ SameSources
        (exec (service.store.activateProviderState manifest (service.configHome profile)) s₁).2
        (exec (service.dispatch (.checkpointStage checkpointId) outside) s).2 := by
  rw [dispatch_stage]
  have hsame := service.reachTranscript_same checkpointId outside.accounts s
  cases hreach : exec (service.reachTranscript checkpointId outside.accounts) s with
  | mk result s₁ =>
    rw [hreach] at hsame
    cases result with
    | error error =>
      rw [exec_bind_error hreach]
      exact .inl ⟨⟨error, s₁, rfl⟩, hsame⟩
    | ok reached =>
      obtain ⟨manifest, profile, there⟩ := reached
      refine .inr ⟨manifest, profile, there, s₁, rfl, ?_⟩
      rw [exec_bind_ok hreach]
      dsimp only
      have hfinish := service.finishStage_moves (R := SameSources) (fun _ => .bind
        fileOperation_reads fun _ => .modify fun _ => ⟨rfl, rfl, rfl⟩) checkpointId
        outside.now there
      cases hactivate : exec (service.store.activateProviderState manifest
          (service.configHome profile)) s₁ with
      | mk result s₂ =>
        cases result with
        | error error =>
          rw [exec_bind_error hactivate]
          exact Steps.refl s₂
        | ok _ =>
          rw [exec_bind_ok hactivate]
          exact hfinish s₂

/-! ### The abort -/

/-- A check that depends on nothing but its arguments. -/
def Checks {α : Type} (m : NodeM α) : Prop := ∃ result, ∀ s, exec m s = (result, s)

theorem Checks.refuseIf (p : Prop) [Decidable p] (error : NodeError) :
    Checks (refuseIf p error) := by
  by_cases hp : p
  · refine ⟨.error error, fun s => ?_⟩
    unfold Diri.refuseIf
    rw [if_pos hp]
    rfl
  refine ⟨.ok ⟨⟩, fun s => ?_⟩
  unfold Diri.refuseIf
  rw [if_neg hp]
  rfl

theorem Checks.bind {α β : Type} {m : NodeM α} {f : α → NodeM β} (hm : Checks m)
    (hf : ∀ a, Checks (f a)) : Checks (m >>= f) := by
  obtain ⟨result, hresult⟩ := hm
  cases result with
  | error error => exact ⟨.error error, fun s => exec_bind_error (hresult s)⟩
  | ok a =>
    obtain ⟨last, hlast⟩ := hf a
    exact ⟨last, fun s => (exec_bind_ok (hresult s)).trans (hlast s)⟩

theorem Checks.pure {α : Type} (a : α) : Checks (pure a : NodeM α) := ⟨.ok a, fun _ => rfl⟩

theorem validateCheckpointId_checks (id : String) : Checks (validateCheckpointId id) :=
  .refuseIf _ _

theorem validateFiles_checks (files : List CheckpointFile) (total : Nat) :
    Checks (validateFiles files total) := by
  induction files generalizing total with
  | nil => exact .pure total
  | cons entry rest ih =>
    refine .bind (.refuseIf _ _) fun _ => .bind (.refuseIf _ _) fun _ => ?_
    exact .bind (.refuseIf _ _) fun _ => ih _

theorem validateManifest_checks (manifest : CheckpointManifest) :
    Checks (validateManifest manifest) := by
  refine .bind (.refuseIf _ _) fun _ => .bind (.refuseIf _ _) fun _ => ?_
  refine .bind (.refuseIf _ _) fun _ => .bind (validateFiles_checks _ _) fun _ => ?_
  exact .refuseIf _ _

theorem Checks.exec_eq {α : Type} {m : NodeM α} (h : Checks m) (s : NodeHost) :
    exec m s = ((exec m {}).1, s) := by
  obtain ⟨result, hresult⟩ := h
  rw [hresult s, hresult {}]

/-- The manifest of a checkpoint, if there is one that passes the checks. -/
structure Loads (disk : NodeDisk) (checkpointId : String) (manifest : CheckpointManifest) : Prop where
  id : (exec (validateCheckpointId checkpointId) {}).1 = .ok ⟨⟩
  saved : disk.checkpoints.lookup checkpointId = some manifest
  valid : (exec (validateManifest manifest) {}).1 = .ok ⟨⟩

theorem loadManifest_cases (s : NodeHost) :
    (∃ manifest, Loads s.disk checkpointId manifest ∧ s.faults[0]? ≠ some true ∧
      exec (CheckpointStore.loadManifest checkpointId) s =
        (.ok manifest, { s with faults := s.faults.tail })) ∨
    ((∀ manifest, ¬(Loads s.disk checkpointId manifest ∧ s.faults[0]? ≠ some true)) ∧
      ∃ error s₁, exec (CheckpointStore.loadManifest checkpointId) s = (.error error, s₁)) := by
  have hid := (validateCheckpointId_checks checkpointId).exec_eq s
  unfold CheckpointStore.loadManifest
  cases hvalid : (exec (validateCheckpointId checkpointId) {}).1 with
  | error error =>
    rw [hvalid] at hid
    rw [exec_bind_error hid]
    refine .inr ⟨fun manifest hloads => ?_, error, s, rfl⟩
    rw [hloads.1.id] at hvalid
    cases hvalid
  | ok _ =>
    rw [hvalid] at hid
    rw [exec_bind_ok hid, exec_bind_ok (exec_readDisk s)]
    cases hsaved : s.disk.checkpoints.lookup checkpointId with
    | none =>
      refine .inr ⟨fun manifest hloads => ?_, _, s, rfl⟩
      rw [hloads.1.saved] at hsaved
      cases hsaved
    | some manifest =>
      dsimp only
      rw [exec_bind, exec_tryCatch, exec_fileOperation, List.head?_eq_getElem?]
      by_cases hfault : s.faults[0]? = some true
      · rw [if_pos hfault]
        exact .inr ⟨fun manifest hloads => hloads.2 hfault, _, _, rfl⟩
      rw [if_neg hfault]
      dsimp only
      have hchecks := (validateManifest_checks manifest).exec_eq { s with faults := s.faults.tail }
      cases hmanifest : (exec (validateManifest manifest) {}).1 with
      | error error =>
        rw [hmanifest] at hchecks
        rw [exec_bind_error hchecks]
        refine .inr ⟨fun other hloads => ?_, _, _, rfl⟩
        obtain rfl := Option.some.inj (hsaved.symm.trans hloads.1.saved)
        rw [hloads.1.valid] at hmanifest
        cases hmanifest
      | ok _ =>
        rw [hmanifest] at hchecks
        rw [exec_bind_ok hchecks]
        exact .inl ⟨manifest, ⟨hvalid, hsaved, hmanifest⟩, hfault, rfl⟩

theorem abort_record_cases (params : MoveAbortParams) (now : Int) (s : NodeHost)
    (hid : (exec (validateCheckpointId params.checkpointId) {}).1 = .ok ⟨⟩) :
    (∃ movement, s.disk.moves.lookup params.checkpointId = some movement ∧
      movement.phase ≠ .committed ∧ s.faults[0]? ≠ some true ∧ s.faults[1]? ≠ some true ∧
      ∃ disk, disk.providerFiles = s.disk.providerFiles ∧
        exec (CheckpointStore.abort params now) s =
          (.ok (movement.abort params now), ⟨disk, s.faults.tail.tail⟩)) ∨
    ((∀ movement, ¬(s.disk.moves.lookup params.checkpointId = some movement ∧
        movement.phase ≠ .committed ∧ s.faults[0]? ≠ some true ∧ s.faults[1]? ≠ some true)) ∧
      ∃ error s₁, exec (CheckpointStore.abort params now) s = (.error error, s₁)) := by
  have hchecks := (validateCheckpointId_checks params.checkpointId).exec_eq s
  rw [hid] at hchecks
  unfold CheckpointStore.abort CheckpointStore.loadMove
  rw [exec_bind, exec_bind_ok hchecks, exec_bind_ok (exec_readDisk s)]
  cases hsaved : s.disk.moves.lookup params.checkpointId with
  | none => exact .inr ⟨fun movement hmove => Option.some_ne_none _ hmove.1.symm, _, s, rfl⟩
  | some movement =>
    dsimp only
    rw [exec_bind, exec_tryCatch, exec_fileOperation, List.head?_eq_getElem?]
    by_cases hload : s.faults[0]? = some true
    · rw [if_pos hload]
      exact .inr ⟨fun movement hmove => hmove.2.2.1 hload, _, _, rfl⟩
    rw [if_neg hload]
    dsimp only
    rw [exec_pure]
    dsimp only
    by_cases hcommitted : movement.phase = .committed
    · rw [refuseIf, if_pos hcommitted, exec_bind_error (exec_throw _ _)]
      refine .inr ⟨fun other hmove => ?_, _, _, rfl⟩
      obtain rfl := Option.some.inj hmove.1
      exact hmove.2.1 hcommitted
    rw [refuseIf, if_neg hcommitted, exec_bind_ok (exec_pure _ _), exec_bind]
    unfold CheckpointStore.saveMove
    rw [CheckpointStore.exec_writeDisk]
    simp only [List.head?_eq_getElem?, List.getElem?_tail, Nat.zero_add]
    by_cases hsave : s.faults[1]? = some true
    · rw [if_pos hsave]
      exact .inr ⟨fun other hmove => hmove.2.2.2 hsave, _, _, rfl⟩
    rw [if_neg hsave]
    exact .inl ⟨movement, rfl, hcommitted, hload, hsave, { s.disk with
      moves := s.disk.moves.insert movement.checkpointId (movement.abort params now) },
      rfl, rfl⟩

theorem abort_moves (params : MoveAbortParams) (now : Int) :
    Moves SameSources (CheckpointStore.abort params now) := by
  refine .bind (loadMove_reads _) fun movement => ?_
  refine .bind (refuseIf_reads _ _) fun _ => ?_
  refine .bind ?_ fun _ => .pure _
  exact .bind fileOperation_reads fun _ => .modify fun _ => ⟨rfl, rfl, rfl⟩

/-- The file at the place of the transcript has its digest. -/
def Held (files : Table String (List UInt8)) (transcript : Transcript) : Prop :=
  ∃ contents, files.lookup transcript.place = some contents ∧
    service.store.sha256 contents = transcript.digest

theorem rollbackProviderState_cases (manifest : CheckpointManifest) (configHome : String)
    (s : NodeHost) : (∃ transcript, service.store.transcript manifest configHome = some transcript ∧
      service.Held s.disk.providerFiles transcript ∧ s.faults[0]? ≠ some true ∧
      s.faults[1]? ≠ some true ∧
      (exec (service.store.rollbackProviderState manifest configHome) s).2.disk.providerFiles =
        s.disk.providerFiles.erase transcript.place) ∨
    ((∀ transcript, service.store.transcript manifest configHome = some transcript →
        ¬(service.Held s.disk.providerFiles transcript ∧ s.faults[0]? ≠ some true ∧
          s.faults[1]? ≠ some true)) ∧
      (exec (service.store.rollbackProviderState manifest configHome) s).2.disk.providerFiles =
        s.disk.providerFiles) := by
  unfold CheckpointStore.rollbackProviderState CheckpointStore.transcript
  cases manifest.providerState with
  | none => exact .inr ⟨fun _ htranscript => (Option.some_ne_none _ htranscript.symm).elim, rfl⟩
  | some state =>
    have hdestination := exec_providerStateDestination manifest configHome s
    cases hresult : (exec (CheckpointStore.providerStateDestination manifest configHome) {}).1 with
    | error error =>
      rw [hresult] at hdestination
      dsimp only
      rw [exec_bind_error hdestination]
      exact .inr ⟨fun _ htranscript => (Option.some_ne_none _ htranscript.symm).elim, rfl⟩
    | ok destination =>
      rw [hresult] at hdestination
      dsimp only
      rw [exec_bind_ok hdestination]
      cases destination with
      | none =>
        exact .inr ⟨fun _ htranscript => (Option.some_ne_none _ htranscript.symm).elim, rfl⟩
      | some place =>
        dsimp only
        rw [exec_bind_ok (exec_readDisk s)]
        cases hthere : s.disk.providerFiles.lookup place with
        | none =>
          refine .inr ⟨fun transcript htranscript hheld => ?_, rfl⟩
          obtain ⟨⟩ := htranscript
          obtain ⟨contents, hcontents, -⟩ := hheld.1
          rw [hthere] at hcontents
          cases hcontents
        | some contents =>
          dsimp only
          rw [exec_fileOperation_bind, List.head?_eq_getElem?]
          by_cases hread : s.faults[0]? = some true
          · rw [if_pos hread]
            exact .inr ⟨fun _ _ hheld => hheld.2.1 hread, rfl⟩
          rw [if_neg hread]
          by_cases hdigest : service.store.sha256 contents = state.digest
          · rw [if_pos hdigest, CheckpointStore.exec_writeDisk]
            simp only [List.head?_eq_getElem?, List.getElem?_tail, Nat.zero_add]
            by_cases hremove : s.faults[1]? = some true
            · rw [if_pos hremove]
              exact .inr ⟨fun _ _ hheld => hheld.2.2 hremove, rfl⟩
            · rw [if_neg hremove]
              exact .inl ⟨_, rfl, ⟨contents, hthere, hdigest⟩, hread, hremove, rfl⟩
          rw [if_neg hdigest]
          refine .inr ⟨fun transcript htranscript hheld => ?_, rfl⟩
          obtain ⟨⟩ := htranscript
          obtain ⟨other, hother, hsame⟩ := hheld.1
          obtain rfl := Option.some.inj (hthere.symm.trans hother)
          exact hdigest hsame

end NodeService

/-! ### Both requests -/

/-- A stage, and the abort that follows it; which file operations of each fail, and what the
accounts are. -/
structure AbortedMove where
  checkpointId : String
  reason : String
  accounts : List AccountProfile
  stageFaults : List Bool := []
  abortFaults : List Bool := []
  stagedAt : Int := 0
  abortedAt : Int := 0

namespace AbortedMove

variable (service : NodeService) (disk : NodeDisk) (move : AbortedMove)

def stage : NodeRequest × NodeOutside :=
  (.checkpointStage move.checkpointId,
    { now := move.stagedAt, accounts := move.accounts, faults := move.stageFaults })

def abort : NodeRequest × NodeOutside :=
  (.moveAbort ⟨move.checkpointId, move.reason⟩,
    { now := move.abortedAt, accounts := move.accounts, faults := move.abortFaults })

/-- Every file of the providers is what it was before the stage. -/
def Undone : Prop :=
  ∀ path, (service.run disk [move.stage, move.abort]).providerFiles.lookup path =
    disk.providerFiles.lookup path

/-- The transcript that the checkpoint brings, if it brings one. -/
def transcript : Option Transcript := do
  let manifest ← disk.checkpoints.lookup move.checkpointId
  let profile ← move.accounts.find? fun profile => profile.id = manifest.profileId
  service.store.transcript manifest (service.configHome profile)

/-- The stage comes as far as the copy of the transcript. -/
def Copies (transcript : Transcript) (contents : List UInt8) (s : NodeHost) : Prop :=
  (∃ reached, exec (service.reachTranscript move.checkpointId move.accounts)
    ⟨disk, move.stageFaults⟩ = (.ok reached, s)) ∧ CheckpointStore.Starts s transcript contents

/-- The abort comes as far as the rollback, and nothing fails there: the checkpoint came from
another node, and its move is not committed when the abort is served. -/
structure RollsBack : Prop where
  manifest : ∃ manifest, NodeService.Loads disk move.checkpointId manifest ∧
    manifest.sourceNodeId ≠ service.store.nodeId
  open' : ∃ movement, (service.serve disk move.stage).1.moves.lookup move.checkpointId =
    some movement ∧ movement.phase ≠ .committed
  works : ∀ n < 5, move.abortFaults[n]? ≠ some true

/-- What the abort takes away was not there before.  What the stage leaves lying about was. What
the stage installs the abort takes away, and nothing was lost over it. -/
structure Undoes (transcript : Transcript) : Prop where
  own : move.RollsBack service disk → ¬service.Held disk.providerFiles transcript
  whole : ∀ contents s, move.Copies service disk transcript contents s →
    service.store.BreaksOff s transcript contents →
    disk.providerFiles.lookup transcript.staging = some (CheckpointStore.left s contents)
  taken : ∀ contents s, move.Copies service disk transcript contents s →
    ¬service.store.BreaksOff s transcript contents →
    move.RollsBack service disk ∧ disk.providerFiles.lookup transcript.staging = none

/-! What the stage does -/

/-- What is reached is the checkpoint's manifest, and the account that it is for. -/
theorem reached_ok {manifest : CheckpointManifest} {profile : AccountProfile} {there : Bool}
    {s s₁ : NodeHost} (h : exec (service.reachTranscript move.checkpointId move.accounts) s =
      (.ok (manifest, profile, there), s₁)) : move.transcript service s.disk =
      service.store.transcript manifest (service.configHome profile) := by
  obtain ⟨first, s₂, hfirst, h⟩ := exec_bind_of_ok h
  obtain ⟨account, s₃, haccount, h⟩ := exec_bind_of_ok h
  obtain ⟨⟨⟩, s₄, hprovider, h⟩ := exec_bind_of_ok h
  obtain ⟨second, s₅, hsecond, h⟩ := exec_bind_of_ok h
  obtain ⟨disk, s₆, hdisk, h⟩ := exec_bind_of_ok h
  have hsaved := loadManifest_ok hfirst
  have hsame : s₄.disk = s.disk := by
    have h₂ : s₂.disk = s.disk :=
      (loadManifest_reads (R := SameDisk) _).of_exec hfirst
    have h₃ : s₃.disk = s₂.disk := (NodeService.profile_reads (R := SameDisk) _ _).of_exec haccount
    rw [(refuseIf_ok hprovider).2, h₃, h₂]
  have hagain := loadManifest_ok hsecond
  rw [hsame, hsaved] at hagain
  obtain ⟨⟩ := hagain
  have hreached : first = manifest ∧ account = profile := by
    by_cases hthere : move.checkpointId ∈ disk.restores
    · rw [if_pos hthere, exec_pure] at h
      obtain ⟨hmanifest, hrest⟩ := Prod.mk.inj (Except.ok.inj (Prod.mk.inj h).1)
      exact ⟨hmanifest, (Prod.mk.inj hrest).1⟩
    rw [if_neg hthere] at h
    obtain ⟨⟨⟩, s₇, -, h⟩ := exec_bind_of_ok h
    obtain ⟨⟨⟩, s₈, -, h⟩ := exec_bind_of_ok h
    obtain ⟨hmanifest, hrest⟩ := Prod.mk.inj (Except.ok.inj (Prod.mk.inj h).1)
    exact ⟨hmanifest, (Prod.mk.inj hrest).1⟩
  obtain ⟨rfl, rfl⟩ := hreached
  have hfound : move.accounts.find? (fun profile => profile.id = first.profileId) =
      some account := by
    unfold NodeService.profile at haccount
    cases hfind : move.accounts.find? fun profile => profile.id = first.profileId with
    | none =>
      rw [hfind] at haccount
      cases haccount
    | some found =>
      rw [hfind] at haccount
      rw [Except.ok.inj (Prod.mk.inj haccount).1]
  unfold transcript
  rw [hsaved, Option.bind_eq_bind, Option.bind_some, hfound, Option.bind_eq_bind, Option.bind_some]

variable {service disk move}

theorem stage_checkpoints : (service.serve disk move.stage).1.checkpoints = disk.checkpoints := by
  have hwrite : ∀ f : NodeDisk → NodeDisk, (∀ disk, (f disk).checkpoints = disk.checkpoints) →
      Moves SameCheckpoints (writeDisk f) := fun f hf =>
    .bind fileOperation_reads fun _ => .modify fun host => hf host.disk
  have hmoves : Moves SameCheckpoints
      (service.dispatch (.checkpointStage move.checkpointId) move.stage.2) := by
    rw [NodeService.dispatch_stage]
    refine .bind ?_ fun reached => ?_
    · intro s
      exact (service.reachTranscript_same _ _ s).1
    refine .bind (service.store.activateProviderState_moves
      (fun _ => hwrite _ fun _ => rfl) _ _) fun _ => ?_
    exact service.finishStage_moves (fun _ => hwrite _ fun _ => rfl) _ _ _
  exact hmoves ⟨disk, move.stageFaults⟩

theorem stage_none (h : move.transcript service disk = none) :
    (service.serve disk move.stage).1.providerFiles = disk.providerFiles := by
  rcases service.stage_cases move.checkpointId move.stage.2 ⟨disk, move.stageFaults⟩ with
    ⟨-, hsame⟩ | ⟨manifest, profile, there, s₁, hreach, hsame⟩
  · exact hsame.2.2
  rw [reached_ok service move hreach] at h
  have hbefore := (service.reachTranscript_same _ _).of_exec hreach
  rcases service.store.activate_cases manifest (service.configHome profile) s₁ with
    ⟨-, hnothing⟩ | ⟨transcript, htranscript, -⟩
  · exact hsame.2.2.trans ((congrArg NodeDisk.providerFiles hnothing).trans hbefore.2.2)
  · rw [h] at htranscript
    cases htranscript

variable {transcript : Transcript}

theorem stage_some (h : move.transcript service disk = some transcript) :
    ((service.serve disk move.stage).1.providerFiles = disk.providerFiles ∧
      ∀ contents s, ¬move.Copies service disk transcript contents s) ∨
    ∃ contents s, move.Copies service disk transcript contents s ∧
      ((service.store.BreaksOff s transcript contents ∧ ∀ path,
          (service.serve disk move.stage).1.providerFiles.lookup path =
            (disk.providerFiles.insert transcript.staging
              (CheckpointStore.left s contents)).lookup path) ∨
        (¬service.store.BreaksOff s transcript contents ∧ ∀ path,
          (service.serve disk move.stage).1.providerFiles.lookup path =
            (CheckpointStore.installed disk.providerFiles transcript contents).lookup path)) := by
  rcases service.stage_cases move.checkpointId move.stage.2 ⟨disk, move.stageFaults⟩ with
    ⟨⟨error, s₁, hreach⟩, hsame⟩ | ⟨manifest, profile, there, s₁, hreach, hsame⟩
  · refine .inl ⟨hsame.2.2, fun contents s hcopies => ?_⟩
    obtain ⟨reached, hreached⟩ := hcopies.1
    cases hreach.symm.trans hreached
  rw [reached_ok service move hreach] at h
  have hbefore := (service.reachTranscript_same _ _).of_exec hreach
  have hunique : ∀ contents s, move.Copies service disk transcript contents s →
      CheckpointStore.Starts s₁ transcript contents := by
    intro contents s hcopies
    obtain ⟨reached, hreached⟩ := hcopies.1
    cases hreach.symm.trans hreached
    exact hcopies.2
  rcases service.store.activate_cases manifest (service.configHome profile) s₁ with
    ⟨hnone, -⟩ | ⟨found, hfound, hactivates⟩
  · rw [h] at hnone
    cases hnone
  obtain rfl := Option.some.inj (h.symm.trans hfound)
  have hfiles : ∀ path, (service.serve disk move.stage).1.providerFiles.lookup path = _ :=
    fun path => congrArg (AList.lookup path) hsame.2.2
  rcases hactivates with ⟨hnothing, hnot⟩ | ⟨contents, hstarts, hend⟩
  · exact .inl ⟨hsame.2.2.trans (hnothing.trans hbefore.2.2),
      fun contents s hcopies => hnot contents (hunique contents s hcopies)⟩
  rw [hbefore.2.2] at hend
  refine .inr ⟨contents, s₁, ⟨⟨_, hreach⟩, hstarts⟩, hend.imp ?_ ?_⟩
  · exact fun hbroken => ⟨hbroken.1, fun path => (hfiles path).trans (hbroken.2 path)⟩
  · exact fun hwhole => ⟨hwhole.1, fun path => (hfiles path).trans (hwhole.2 path)⟩

theorem Copies.unique {contents contents' : List UInt8}
    {s s' : NodeHost} (h : move.Copies service disk transcript contents s)
    (h' : move.Copies service disk transcript contents' s') : contents = contents' ∧ s = s' := by
  obtain ⟨⟨reached, hreached⟩, hstarts⟩ := h
  obtain ⟨⟨reached', hreached'⟩, hstarts'⟩ := h'
  obtain ⟨-, rfl⟩ := Prod.mk.inj (hreached.symm.trans hreached')
  exact ⟨Option.some.inj (hstarts.blob.symm.trans hstarts'.blob), rfl⟩

theorem Copies.free {contents : List UInt8} {s : NodeHost}
    (h : move.Copies service disk transcript contents s) :
    disk.providerFiles.lookup transcript.place = none := by
  obtain ⟨⟨reached, hreached⟩, hstarts⟩ := h
  have hbefore := (service.reachTranscript_same _ _).of_exec hreached
  rw [← hbefore.2.2]
  exact hstarts.free

/-! What the abort does -/

theorem exec_bind_pure_snd {σ ε α β : Type} (m : Handler σ ε α) (b : β) (s : σ) :
    (exec (m >>= fun _ => pure b) s).2 = (exec m s).2 := by
  rw [exec_bind]
  rcases exec m s with ⟨result, s'⟩
  cases result with
  | ok a | error e => rfl

theorem abort_cases : (∃ transcript, move.transcript service disk = some transcript ∧
      move.RollsBack service disk ∧
      service.Held (service.serve disk move.stage).1.providerFiles transcript ∧
      (service.run disk [move.stage, move.abort]).providerFiles =
        (service.serve disk move.stage).1.providerFiles.erase transcript.place) ∨
    ((∀ transcript, move.transcript service disk = some transcript → ¬(move.RollsBack service disk ∧
          service.Held (service.serve disk move.stage).1.providerFiles transcript)) ∧
      (service.run disk [move.stage, move.abort]).providerFiles =
        (service.serve disk move.stage).1.providerFiles) := by
  have hrun : (service.run disk [move.stage, move.abort]).providerFiles =
      (exec (do
          let manifest ← CheckpointStore.loadManifest move.checkpointId
          let movement ← CheckpointStore.abort ⟨move.checkpointId, move.reason⟩ move.abortedAt
          service.rollback manifest move.accounts
          return NodeReply.movement movement)
        ⟨(service.serve disk move.stage).1, move.abortFaults⟩).2.disk.providerFiles := rfl
  have hcheckpoints : (service.serve disk move.stage).1.checkpoints = disk.checkpoints :=
    stage_checkpoints
  have hloads : ∀ manifest, NodeService.Loads (service.serve disk move.stage).1
      move.checkpointId manifest ↔ NodeService.Loads disk move.checkpointId manifest := by
    intro manifest
    refine ⟨fun h => ⟨h.id, ?_, h.valid⟩, fun h => ⟨h.id, ?_, h.valid⟩⟩
    · rw [← hcheckpoints]
      exact h.saved
    · rw [hcheckpoints]
      exact h.saved
  rw [hrun]
  rcases NodeService.loadManifest_cases move.checkpointId
      ⟨(service.serve disk move.stage).1, move.abortFaults⟩ with
    ⟨manifest, hmanifest, hload, hexec⟩ | ⟨hnot, error, s₁, hexec⟩
  · rw [exec_bind_ok hexec]
    dsimp only
    rcases NodeService.abort_record_cases ⟨move.checkpointId, move.reason⟩ move.abortedAt
        ⟨(service.serve disk move.stage).1, move.abortFaults.tail⟩ hmanifest.id with
      ⟨movement, hmovement, hopen, hread, hsave, disk₂, hfiles, hexec⟩ | ⟨hnot, error, s₁, hexec⟩
    · rw [exec_bind_ok hexec, exec_bind_pure_snd]
      have hsaved : disk.checkpoints.lookup move.checkpointId = some manifest :=
        ((hloads manifest).mp hmanifest).saved
      unfold NodeService.rollback
      by_cases hsource : manifest.sourceNodeId = service.store.nodeId
      · rw [if_pos hsource]
        refine .inr ⟨fun transcript _ hboth => ?_, hfiles⟩
        obtain ⟨other, hother, hsource'⟩ := hboth.1.manifest
        obtain rfl := Option.some.inj (hsaved.symm.trans hother.saved)
        exact hsource' hsource
      rw [if_neg hsource]
      have htranscript : move.transcript service disk =
          (move.accounts.find? fun profile => profile.id = manifest.profileId).bind fun profile =>
            service.store.transcript manifest (service.configHome profile) := by
        unfold transcript
        rw [hsaved, Option.bind_eq_bind, Option.bind_some, Option.bind_eq_bind]
      rw [htranscript]
      cases hprofile : move.accounts.find? fun profile => profile.id = manifest.profileId with
      | none => exact .inr ⟨fun _ hnone => (Option.some_ne_none _ hnone.symm).elim, hfiles⟩
      | some profile =>
        dsimp only
        rw [Option.bind_some]
        have hworks : ∀ n, move.abortFaults.tail.tail.tail[n]? = move.abortFaults[n + 3]? := by
          intro n
          rw [List.getElem?_tail, List.getElem?_tail, List.getElem?_tail]
        have hcases := service.rollbackProviderState_cases manifest (service.configHome profile)
          ⟨disk₂, move.abortFaults.tail.tail.tail⟩
        simp only [hworks, hfiles] at hcases
        rcases hcases with ⟨transcript, hsome, hheld, hread', hremove, hend⟩ | ⟨hnot, hend⟩
        · refine .inl ⟨transcript, hsome, ⟨⟨manifest, ?_, hsource⟩, ⟨movement, hmovement,
            hopen⟩, fun n hn => ?_⟩, hheld, hend⟩
          · exact (hloads manifest).mp hmanifest
          · obtain rfl | rfl | rfl | rfl | rfl : n = 0 ∨ n = 1 ∨ n = 2 ∨ n = 3 ∨ n = 4 := by
              omega
            · exact hload
            · rwa [List.getElem?_tail] at hread
            · rwa [List.getElem?_tail] at hsave
            · exact hread'
            · exact hremove
        refine .inr ⟨fun transcript hsome hboth => hnot transcript hsome ⟨hboth.2, ?_, ?_⟩, hend⟩
        · exact hboth.1.works 3 (by omega)
        · exact hboth.1.works 4 (by omega)
    rw [exec_bind_error hexec]
    refine .inr ⟨fun transcript _ hboth => ?_, ?_⟩
    · obtain ⟨movement, hmovement, hopen⟩ := hboth.1.open'
      refine hnot movement ⟨hmovement, hopen, ?_, ?_⟩
      · rw [List.getElem?_tail]
        exact hboth.1.works 1 (by omega)
      · rw [List.getElem?_tail]
        exact hboth.1.works 2 (by omega)
    · have hsame : SameSources _ s₁ := (NodeService.abort_moves _ _).of_exec hexec
      exact hsame.2.2
  rw [exec_bind_error hexec]
  refine .inr ⟨fun transcript _ hboth => ?_, ?_⟩
  · obtain ⟨manifest, hmanifest, -⟩ := hboth.1.manifest
    exact hnot manifest ⟨(hloads manifest).mpr hmanifest, hboth.1.works 0 (by omega)⟩
  · have hsame : SameSources _ s₁ := (loadManifest_reads _).of_exec hexec
    exact hsame.2.2

theorem lookup_insert_staging {files : Table String (List UInt8)}
    (hne : transcript.place ≠ transcript.staging) (copy : List UInt8)
    (hfree : files.lookup transcript.place = none) :
    (files.insert transcript.staging copy).lookup transcript.place = none := by
  rw [lookup_insert_ne hne, hfree]

/-- Once installed and taken away again, all that can be missing is an earlier copy. -/
theorem lookup_erase_installed {files : Table String (List UInt8)}
    (contents : List UInt8) (hfree : files.lookup transcript.place = none) (path : String) :
    ((CheckpointStore.installed files transcript contents).erase transcript.place).lookup path =
      if path = transcript.staging then none else files.lookup path := by
  by_cases hplace : path = transcript.place
  · rw [hplace, lookup_erase, hfree, ite_self]
  rw [lookup_erase_ne hplace]
  unfold CheckpointStore.installed
  rw [lookup_insert_ne hplace]
  by_cases hstaging : path = transcript.staging
  · rw [if_pos hstaging, hstaging, lookup_erase]
  · rw [if_neg hstaging, lookup_erase_ne hstaging]

theorem transcript_ne (h : move.transcript service disk = some transcript) :
    transcript.place ≠ transcript.staging := by
  obtain ⟨manifest, -, h⟩ := Option.bind_eq_some_iff.mp h
  obtain ⟨profile, -, h⟩ := Option.bind_eq_some_iff.mp h
  exact service.store.place_ne_staging h

/-- The abort ends with the files that the stage left, less the one at the place of the
transcript if it takes that away. -/
theorem run_some (h : move.transcript service disk = some transcript) :
    (move.RollsBack service disk ∧
      service.Held (service.serve disk move.stage).1.providerFiles transcript ∧
      (service.run disk [move.stage, move.abort]).providerFiles =
        (service.serve disk move.stage).1.providerFiles.erase transcript.place) ∨
    (¬(move.RollsBack service disk ∧
        service.Held (service.serve disk move.stage).1.providerFiles transcript) ∧
      (service.run disk [move.stage, move.abort]).providerFiles =
        (service.serve disk move.stage).1.providerFiles) := by
  rcases @abort_cases service disk move with ⟨found, hfound, hrolls, hheld, hend⟩ | ⟨hnot, hend⟩
  · obtain rfl := Option.some.inj (h.symm.trans hfound)
    exact .inl ⟨hrolls, hheld, hend⟩
  · exact .inr ⟨hnot transcript h, hend⟩

theorem run_none (h : move.transcript service disk = none) : move.Undone service disk := by
  intro path
  rcases @abort_cases service disk move with ⟨found, hfound, -⟩ | ⟨-, hend⟩
  · rw [h] at hfound
    cases hfound
  · rw [hend, stage_none h]

/-- The place of the transcript holds what it held, if the stage did not come to the copy. -/
theorem undone_untouched (h : move.transcript service disk = some transcript)
    (hfiles : (service.serve disk move.stage).1.providerFiles = disk.providerFiles) :
    move.Undone service disk ↔
      (move.RollsBack service disk → ¬service.Held disk.providerFiles transcript) := by
  rcases run_some h with ⟨hrolls, hheld, hend⟩ | ⟨hnot, hend⟩
  · rw [hfiles] at hheld hend
    refine ⟨fun hundone => ?_, fun hown => absurd hheld (hown hrolls)⟩
    obtain ⟨contents, hcontents, -⟩ := hheld
    have hgone := hundone transcript.place
    rw [hend, lookup_erase, hcontents] at hgone
    cases hgone
  · rw [hfiles] at hnot hend
    exact ⟨fun _ hrolls hheld => hnot ⟨hrolls, hheld⟩, fun _ path => by rw [hend]⟩

theorem undone_broken {copy : List UInt8} (h : move.transcript service disk = some transcript)
    (hfree : disk.providerFiles.lookup transcript.place = none)
    (hfiles : ∀ path, (service.serve disk move.stage).1.providerFiles.lookup path =
      (disk.providerFiles.insert transcript.staging copy).lookup path) :
    move.Undone service disk ↔ disk.providerFiles.lookup transcript.staging = some copy := by
  have hplace := (hfiles transcript.place).trans
    (lookup_insert_staging (transcript_ne h) copy hfree)
  rcases run_some h with ⟨-, ⟨contents, hcontents, -⟩, -⟩ | ⟨-, hend⟩
  · rw [hplace] at hcontents
    cases hcontents
  unfold Undone
  rw [hend]
  constructor
  · intro hundone
    rw [← hundone transcript.staging, hfiles, lookup_insert]
  · intro hcopy path
    rw [hfiles]
    by_cases hpath : path = transcript.staging
    · rw [hpath, lookup_insert, hcopy]
    · rw [lookup_insert_ne hpath]

theorem undone_installed {contents : List UInt8}
    (h : move.transcript service disk = some transcript)
    (hfree : disk.providerFiles.lookup transcript.place = none)
    (hdigest : service.store.sha256 contents = transcript.digest)
    (hfiles : ∀ path, (service.serve disk move.stage).1.providerFiles.lookup path =
      (CheckpointStore.installed disk.providerFiles transcript contents).lookup path) :
    move.Undone service disk ↔
      move.RollsBack service disk ∧ disk.providerFiles.lookup transcript.staging = none := by
  have hplace : (service.serve disk move.stage).1.providerFiles.lookup transcript.place =
      some contents := by
    rw [hfiles]
    exact lookup_insert _
  rcases run_some h with ⟨hrolls, -, hend⟩ | ⟨hnot, hend⟩
  · have hlast : ∀ path, (service.run disk [move.stage, move.abort]).providerFiles.lookup path =
        if path = transcript.staging then none else disk.providerFiles.lookup path := by
      intro path
      rw [hend, ← lookup_erase_installed contents hfree path]
      by_cases hpath : path = transcript.place
      · rw [hpath, lookup_erase, lookup_erase]
      · rw [lookup_erase_ne hpath, lookup_erase_ne hpath, hfiles]
    constructor
    · intro hundone
      refine ⟨hrolls, ?_⟩
      rw [← hundone transcript.staging, hlast, if_pos rfl]
    · rintro ⟨-, hcopy⟩ path
      rw [hlast]
      by_cases hpath : path = transcript.staging
      · rw [if_pos hpath, hpath, hcopy]
      · rw [if_neg hpath]
  constructor
  · intro hundone
    have hkept := hundone transcript.place
    rw [hend, hplace, hfree] at hkept
    cases hkept
  · rintro ⟨hrolls, -⟩
    exact absurd ⟨hrolls, contents, hplace, hdigest⟩ hnot

/-- An abort leaves the providers' files as they were before the stage exactly if the checkpoint
brings no transcript, or it takes away nothing but what the stage installed, and the stage left
nothing else. -/
theorem abort_undoes_iff (service : NodeService) (disk : NodeDisk) (move : AbortedMove) :
    move.Undone service disk ↔ ∀ transcript, move.transcript service disk = some transcript →
        move.Undoes service disk transcript := by
  cases htranscript : move.transcript service disk with
  | none =>
    refine ⟨fun _ _ hsome => ?_, fun _ => run_none htranscript⟩
    cases hsome
  | some transcript =>
    have hone : (∀ found, some transcript = some found → move.Undoes service disk found) ↔
        move.Undoes service disk transcript := by
      refine ⟨fun hall => hall transcript rfl, ?_⟩
      rintro hundoes found hfound
      rwa [← Option.some.inj hfound]
    rw [hone]
    rcases stage_some htranscript with ⟨hfiles, hnot⟩ |
      ⟨contents, s, hcopies, ⟨hbreaks, hfiles⟩ | ⟨hwhole, hfiles⟩⟩
    · rw [undone_untouched htranscript hfiles]
      refine ⟨fun hown => ⟨hown, ?_, ?_⟩, fun hundoes => hundoes.own⟩
      · exact fun contents s hcopies => absurd hcopies (hnot contents s)
      · exact fun contents s hcopies => absurd hcopies (hnot contents s)
    · have hown : ¬service.Held disk.providerFiles transcript := by
        rintro ⟨other, hother, -⟩
        rw [hcopies.free] at hother
        cases hother
      rw [undone_broken htranscript hcopies.free hfiles]
      refine ⟨fun hcopy => ⟨fun _ => hown, ?_, ?_⟩, fun hundoes => ?_⟩
      · intro contents' s' hcopies' _
        obtain ⟨rfl, rfl⟩ := hcopies.unique hcopies'
        exact hcopy
      · intro contents' s' hcopies' hwhole
        obtain ⟨rfl, rfl⟩ := hcopies.unique hcopies'
        exact absurd hbreaks hwhole
      · exact hundoes.whole contents s hcopies hbreaks
    have hown : ¬service.Held disk.providerFiles transcript := by
      rintro ⟨other, hother, -⟩
      rw [hcopies.free] at hother
      cases hother
    have hdigest : service.store.sha256 contents = transcript.digest := by
      by_contra hwrong
      exact hwhole (.inr hwrong)
    rw [undone_installed htranscript hcopies.free hdigest hfiles]
    refine ⟨fun htaken => ⟨fun _ => hown, ?_, ?_⟩, fun hundoes => ?_⟩
    · intro contents' s' hcopies' hbreaks
      obtain ⟨rfl, rfl⟩ := hcopies.unique hcopies'
      exact absurd hbreaks hwhole
    · intro contents' s' hcopies' _
      obtain ⟨rfl, rfl⟩ := hcopies.unique hcopies'
      exact htaken
    · exact hundoes.taken contents s hcopies hwhole

/-! ### A transcript that another move brought -/

def newNode : NodeService where
  store := newHome
  trim := id

/-- Two checkpoints of one session, whose transcript is the same in both. -/
def sessionManifest (checkpointId : String) : CheckpointManifest where
  version := 1
  checkpointId := checkpointId
  sourceNodeId := "old"
  sessionId := "s1"
  provider := .claude
  profileId := "work"
  workspaceRoot := "/w"
  providerSessionId := some "p1"
  mode := .move
  createdAt := 0
  files := []
  providerState := some ⟨"provider/session.jsonl", sampleSha256 (utf8 "ab"), 2, some 0o600⟩

def firstCheckpoint : String := "cp-00000000000000000000000000000001"
def secondCheckpoint : String := "cp-00000000000000000000000000000002"

/-- The first one is moved here and committed, and the second one arrives. -/
def movedHere : NodeDisk :=
  newNode.run {} [
    (.checkpointManifestPut (sessionManifest firstCheckpoint), {}),
    (.checkpointBlobPut ⟨sampleSha256 (utf8 "ab"), 0, "6162", true⟩, {}),
    (.checkpointStage firstCheckpoint, { accounts := [⟨"work", .claude⟩] }),
    (.moveCommit ⟨firstCheckpoint, "new", "lease"⟩, {}),
    (.checkpointManifestPut (sessionManifest secondCheckpoint), {})]

def secondMove : AbortedMove where
  checkpointId := secondCheckpoint
  reason := "timeout"
  accounts := [⟨"work", .claude⟩]

def sessionPlace : String := "/new/accounts/claude/work/projects/-dirijor-imports/p1.jsonl"

theorem abort_removes_committed : ¬secondMove.Undone newNode movedHere := by
  intro hundone
  have hbefore : movedHere.providerFiles.lookup sessionPlace = some (utf8 "ab") := by
    decide +kernel
  have hafter : (newNode.run movedHere [secondMove.stage, secondMove.abort]).providerFiles.lookup
      sessionPlace = none := by
    decide +kernel
  rw [hundone sessionPlace, hbefore] at hafter
  cases hafter

end AbortedMove

end Diri
