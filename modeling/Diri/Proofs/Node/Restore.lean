/-
A checkpoint prepared on one node and staged on another.

`Reproduces` says what the files restored there are to be.  They are that just where the
walk comes by no name that is not a text, and no file lies where the transcript goes: every
other path is written down as it is, and a blob that hashes to what it should is the file's
own.
-/
import Diri.Proofs.Node.Hex
import Diri.Proofs.Node.Saved
import Diri.Proofs.Node.Walk

namespace Diri

open Handler List CheckpointStore

def transcriptPath : String := ".dirijor/provider/session.jsonl"

/-- The manifest leaves out the entry, or a directory that it is in. -/
def CheckpointManifest.LeavesOut (manifest : CheckpointManifest) (path : List FileName) : Prop :=
  ∃ stem, stem ≠ [] ∧ stem <+: path ∧ joined stem ∈ manifest.excluded.map utf8

/-- The restored files are those of the workspace, but for what the manifest says. -/
structure Reproduces (tree : WorkspaceTree) (transcript : Option WalkedFile)
    (manifest : CheckpointManifest) (quarantine : Table String RestoredFile) : Prop where
  /-- The regular files that are not left out are there, and nothing else is. -/
  restored : ∀ bytes file, (manifest.providerState.isSome → bytes ≠ utf8 transcriptPath) →
    ((∃ path, utf8 path = bytes ∧ quarantine.lookup path = some file) ↔
      ∃ path, joined path = bytes ∧ (path, file) ∈ tree.listing.regular ∧ ¬manifest.LeavesOut path)
  /-- Each entry that the walk came by is written down, once. -/
  accounted : ((manifest.files.map (·.path) ++ manifest.excluded).map utf8).Perm
    (tree.listing.visited.map joined)
  /-- No directory on the way to a file has an excluded name, and the file has none. -/
  excluded : ∀ entry ∈ manifest.files,
    (∀ name ∈ ((utf8 entry.path).splitOn slash).dropLast, isExcludedName name true = false) ∧
      ∀ name ∈ ((utf8 entry.path).splitOn slash).getLast?, isExcludedName name false = false
  /-- The transcript is there too, and where it is no file is restored to. -/
  apart : manifest.providerState.isSome →
    (∀ entry ∈ manifest.files, entry.path ≠ transcriptPath) ∧
      (quarantine.lookup transcriptPath).map (·.contents) = transcript.map (·.contents)

/-- The paths that the walk comes by are texts. -/
def WorkspaceTree.Legible (tree : WorkspaceTree) : Prop :=
  ∀ path ∈ tree.listing.visited, IsUtf8 (joined path)

/-- There is a file to be taken along under this path. -/
def WorkspaceTree.Holds (tree : WorkspaceTree) (path : String) : Prop :=
  ∃ entry ∈ tree.listing.included, joined entry.1 = utf8 path

instance (tree : WorkspaceTree) : Decidable tree.Legible :=
  inferInstanceAs (Decidable (∀ path ∈ _, _))

instance (tree : WorkspaceTree) (path : String) : Decidable (tree.Holds path) :=
  inferInstanceAs (Decidable (∃ entry ∈ _, _))

namespace CheckpointStore

variable (store : CheckpointStore)

/-- The file's blob is there, or it can be copied. -/
def Copies (file : WalkedFile) (host : NodeHost) : Prop :=
  store.sha256 file.contents ∈ host.disk.blobs ∨
    (true ∉ host.faults.take 2 ∧ store.sha256 file.copied = store.sha256 file.contents)

/-- There is a transcript, and it can be stored. -/
def TakesTranscript (params : CheckpointPrepareParams) (transcript : Option WalkedFile)
    (host : NodeHost) : Prop :=
  params.providerSessionId.isSome ∧ ∃ file ∈ transcript, store.Copies file host

/-! ### What is prepared -/

def entryOf (file : WalkedFile) : CheckpointFile :=
  ⟨file.relative, store.sha256 file.contents, file.contents.length, file.unixMode⟩

variable {store}

variable {file : WalkedFile} {s s' : NodeHost} {manifest : CheckpointManifest} {done : PUnit}

theorem storeFile_ok {entry : CheckpointFile}
    (h : exec (store.storeFile file) s = (.ok entry, s')) : entry = store.entryOf file := by
  obtain ⟨⟨⟩, s₁, -, h⟩ := exec_bind_of_ok h
  obtain ⟨⟨⟩, s₂, -, h⟩ := exec_bind_of_ok h
  exact (Except.ok.inj (Prod.mk.inj h).1).symm

theorem storeFiles_ok {files : List WalkedFile} {entries : List CheckpointFile}
    (h : exec (store.storeFiles files) s = (.ok entries, s')) :
    entries = files.map store.entryOf := by
  induction files generalizing s s' entries with
  | nil => exact (Except.ok.inj (Prod.mk.inj h).1).symm
  | cons file rest ih =>
    obtain ⟨entry, s₁, hfirst, h⟩ := exec_bind_of_ok h
    obtain ⟨others, s₂, hrest, h⟩ := exec_bind_of_ok h
    rw [← Except.ok.inj (Prod.mk.inj h).1, map_cons, storeFile_ok hfirst, ih hrest]

theorem exec_fileOperation (s : NodeHost) : exec fileOperation s =
      (if s.faults.head? = some true then .error .io else .ok ⟨⟩,
        { s with faults := s.faults.tail }) := by
  unfold fileOperation
  rw [exec_bind_ok (exec_get s), exec_bind_ok (exec_modify _ _), refuseIf]
  split <;> rfl

theorem exec_readDisk (s : NodeHost) : exec readDisk s = (.ok s.disk, s) := rfl

theorem copyBlob_ok_iff {s : NodeHost} :
    (exec (store.copyBlob file (store.sha256 file.contents)) s).1 = .ok ⟨⟩ ↔
      store.Copies file s := by
  unfold copyBlob Copies
  rw [exec_bind_ok (exec_readDisk s)]
  by_cases hthere : store.sha256 file.contents ∈ s.disk.blobs
  · simp [hthere]
  have hsecond : true ∉ s.faults.take 2 ↔
      s.faults.head? ≠ some true ∧ s.faults[1]? ≠ some true := by
    match s.faults with
    | [] | [_] | _ :: _ :: _ => simp
  rw [if_neg hthere, hsecond, or_iff_right hthere, exec_bind, exec_fileOperation]
  by_cases hfirst : s.faults.head? = some true
  · simp [hfirst]
  rw [if_neg hfirst]
  by_cases hcopied : store.sha256 file.copied = store.sha256 file.contents
  · simp only [writeDisk, exec_bind, refuseIf, hcopied, exec_fileOperation]
    by_cases hlast : s.faults[1]? = some true
    · simp [hlast]
    · simp [hfirst, hlast]
  · simp [refuseIf, hcopied]

theorem storeFile_cases (hpath : file.relative ≠ "" ∧ Path.isNormal file.relative) (s : NodeHost) :
    (store.Copies file s ∧ (exec (store.storeFile file) s).1 = .ok (store.entryOf file)) ∨
    (¬store.Copies file s ∧ ∃ error, (exec (store.storeFile file) s).1 = .error error) := by
  have hvalid : exec (validateRelativePath file.relative) s = (.ok ⟨⟩, s) := by
    rw [validateRelativePath, refuseIf, if_neg (by simp [hpath])]
    rfl
  have hcopies := @copyBlob_ok_iff store file s
  unfold storeFile
  rw [exec_bind_ok hvalid, exec_bind]
  rcases hcopy : exec (store.copyBlob file (store.sha256 file.contents)) s with ⟨result, s'⟩
  rw [hcopy] at hcopies
  cases result with
  | ok done => exact .inl ⟨hcopies.mp rfl, rfl⟩
  | error error =>
    refine .inr ⟨?_, error, rfl⟩
    intro h
    cases hcopies.mpr h

theorem storeProviderState_ok {params : CheckpointPrepareParams} {transcript : Option WalkedFile}
    {state : Option CheckpointFile}
    (h : exec (store.storeProviderState params transcript) s = (.ok state, s')) :
    (store.TakesTranscript params transcript s ∧ ∃ file ∈ transcript,
      state = some (store.entryOf { file with relative := "provider/session.jsonl" })) ∨
    (¬store.TakesTranscript params transcript s ∧ state = none) := by
  unfold storeProviderState at h
  unfold TakesTranscript
  cases hsession : params.providerSessionId with
  | none =>
    rw [hsession] at h
    exact .inr ⟨by simp, (Except.ok.inj (Prod.mk.inj h).1).symm⟩
  | some id =>
    cases transcript with
    | none =>
      rw [hsession] at h
      exact .inr ⟨by simp, (Except.ok.inj (Prod.mk.inj h).1).symm⟩
    | some file =>
      rw [hsession] at h
      simp only [exec_tryCatch, exec_map] at h
      have hgood : "provider/session.jsonl" ≠ "" ∧ Path.isNormal "provider/session.jsonl" = true := by
        decide
      rcases @storeFile_cases store { file with relative := "provider/session.jsonl" } hgood s
        with ⟨hcopied, hstored⟩ | ⟨hnot, error, hfailed⟩
      · rw [hstored] at h
        exact .inl ⟨⟨rfl, file, rfl, hcopied⟩, file, rfl, (Except.ok.inj (Prod.mk.inj h).1).symm⟩
      rw [hfailed] at h
      refine .inr ⟨?_, (Except.ok.inj (Prod.mk.inj h).1).symm⟩
      rintro ⟨-, other, hother, hcopied⟩
      obtain ⟨⟩ := hother
      exact hnot hcopied

theorem answered_stays {α : Type} {answer : Except NodeError α} {a : α}
    (h : exec (answered answer) s = (.ok a, s')) : s' = s := by
  cases answer with
  | ok found => exact (Prod.mk.inj h).2.symm
  | error error => cases h

/-- What a checkpoint of a workspace says: each file, each entry left out, and the transcript. -/
theorem prepare_ok {params : CheckpointPrepareParams} {workspace : Workspace}
    {random : Except NodeError (List UInt8)} {transcript : Option WalkedFile} {now : Int}
    (h : exec (store.prepare params workspace random transcript now) s = (.ok manifest, s')) :
    manifest.files = workspace.files.map store.entryOf ∧ manifest.excluded = workspace.excluded ∧
      workspace.walked = .ok () ∧ ∃ s₁, exec (store.storeProviderState params transcript)
        (exec (store.storeFiles workspace.files) s).2 = (.ok manifest.providerState, s₁) := by
  obtain ⟨root, s₁, hroot, h⟩ := exec_bind_of_ok h
  obtain ⟨⟨⟩, s₂, hdir, h⟩ := exec_bind_of_ok h
  obtain ⟨bytes, s₃, hrandom, h⟩ := exec_bind_of_ok h
  obtain ⟨files, s₄, hfiles, h⟩ := exec_bind_of_ok h
  obtain ⟨⟨⟩, s₅, hwalked, h⟩ := exec_bind_of_ok h
  obtain ⟨state, s₆, hstate, h⟩ := exec_bind_of_ok h
  obtain ⟨⟨⟩, s₇, -, h⟩ := exec_bind_of_ok h
  obtain ⟨⟨⟩, s₈, -, h⟩ := exec_bind_of_ok h
  obtain rfl := Except.ok.inj (Prod.mk.inj h).1
  have hstart : s₃ = s := by
    rw [answered_stays hrandom, (refuseIf_ok hdir).2, answered_stays hroot]
  rw [hstart] at hfiles
  rw [answered_stays hwalked] at hstate
  refine ⟨storeFiles_ok hfiles, rfl, answered_ok hwalked, s₆, ?_⟩
  rw [hfiles]
  exact hstate

/-! ### What is restored -/

/-- What restoring some files makes of a directory. -/
structure Fills (sha256 : List UInt8 → String) (directory : String) (entries : List CheckpointFile)
    (before after : Table String RestoredFile) : Prop where
  others : ∀ path, (∀ entry ∈ entries, directory ++ entry.path ≠ path) →
    after.lookup path = before.lookup path
  own : (entries.map (·.path)).Nodup → ∀ entry ∈ entries, ∃ contents,
    sha256 contents = entry.digest ∧
      after.lookup (directory ++ entry.path) = some ⟨contents, entry.unixMode⟩

theorem writeDisk_ok {f : NodeDisk → NodeDisk}
    (h : exec (writeDisk f) s = (.ok done, s')) : s'.disk = f s.disk := by
  obtain ⟨⟨⟩, s₁, hoperation, h⟩ := exec_bind_of_ok h
  have hsame : s₁.disk = s.disk := (fileOperation_reads (R := SameDisk)).of_exec hoperation
  rw [← (Prod.mk.inj h).2, ← hsame]

theorem restoreFile_ok {id directory : String} {entry : CheckpointFile}
    (h : exec (store.restoreFile id directory entry) s = (.ok done, s')) :
    ∃ contents, store.sha256 contents = entry.digest ∧ s'.disk = { s.disk with
        stagings := s.disk.stagings.adjust id fun files =>
          files.insert (directory ++ entry.path) ⟨contents, entry.unixMode⟩ } := by
  obtain ⟨⟨⟩, s₁, hpath, hdigested⟩ := exec_bind_of_ok h
  obtain ⟨⟨⟩, s₂, hdigest, hreads⟩ := exec_bind_of_ok hdigested
  have hstart : s₂ = s := (refuseIf_ok hdigest).2.trans (refuseIf_ok hpath).2
  rw [hstart, exec_bind_ok (exec_readDisk s)] at hreads
  cases hblob : s.disk.blobs.lookup entry.digest with
  | none =>
    rw [hblob] at hreads
    cases hreads
  | some contents =>
    rw [hblob] at hreads
    obtain ⟨⟨⟩, s₃, hchecked, hwritten⟩ := exec_bind_of_ok hreads
    obtain ⟨hhash, hsame⟩ := refuseIf_ok hchecked
    refine ⟨contents, not_not.mp hhash, ?_⟩
    rw [writeDisk_ok hwritten, hsame]

theorem restoreFiles_ok {id directory : String} {entries : List CheckpointFile}
    {before : Table String RestoredFile} (hbefore : s.disk.stagings.lookup id = some before)
    (h : exec (store.restoreFiles id directory entries) s = (.ok done, s')) :
    s'.disk.restores = s.disk.restores ∧ ∃ after, s'.disk.stagings.lookup id = some after ∧
      Fills store.sha256 directory entries before after := by
  induction entries generalizing s before with
  | nil =>
    obtain ⟨-, rfl⟩ := Prod.mk.inj h
    exact ⟨rfl, before, hbefore, fun _ _ => rfl, fun _ _ hentry => nomatch hentry⟩
  | cons entry rest ih =>
    obtain ⟨⟨⟩, s₁, hfirst, h⟩ := exec_bind_of_ok h
    obtain ⟨contents, hhash, hdisk⟩ := restoreFile_ok hfirst
    have hstaged : s₁.disk.stagings.lookup id =
        some (before.insert (directory ++ entry.path) ⟨contents, entry.unixMode⟩) := by
      rw [hdisk, Table.lookup_adjust_self, hbefore]
      rfl
    obtain ⟨hrestores, after, hafter, hfills⟩ := ih hstaged h
    refine ⟨by rw [hrestores, hdisk], after, hafter, ?_, ?_⟩
    · intro path hpath
      rw [hfills.others path fun other hother => hpath other (mem_cons_of_mem _ hother),
        AList.lookup_insert_ne (hpath entry mem_cons_self).symm]
    intro hnodup other hother
    rw [map_cons, nodup_cons] at hnodup
    rcases List.mem_cons.mp hother with rfl | hother
    · refine ⟨contents, hhash, ?_⟩
      rw [hfills.others _ fun entry hentry heq => hnodup.1 ?_, AList.lookup_insert]
      have hsame : entry.path = other.path := by simpa using heq
      exact hsame ▸ mem_map_of_mem hentry
    · exact hfills.own hnodup.2 other hother

theorem restore_ok {id : String} (h : exec (store.restore id manifest) s = (.ok done, s')) :
    ∃ workspace quarantine, Fills store.sha256 "" manifest.files ∅ workspace ∧
      Fills store.sha256 ".dirijor/" manifest.providerState.toList workspace quarantine ∧
      s'.disk.restores.lookup id = some quarantine := by
  obtain ⟨⟨⟩, s₁, hcreated, h₁⟩ := exec_bind_of_ok h
  obtain ⟨⟨⟩, s₂, hoperation, h₂⟩ := exec_bind_of_ok h₁
  obtain ⟨⟨⟩, s₃, hfiles, h₃⟩ := exec_bind_of_ok h₂
  obtain ⟨⟨⟩, s₄, hstate, h₄⟩ := exec_bind_of_ok h₃
  have hempty : s₂.disk.stagings.lookup id = some ∅ := by
    have hsame : s₂.disk = s₁.disk := (fileOperation_reads (R := SameDisk)).of_exec hoperation
    rw [hsame, writeDisk_ok hcreated]
    exact AList.lookup_insert _
  obtain ⟨-, workspace, hworkspace, hfills⟩ := restoreFiles_ok hempty hfiles
  obtain ⟨-, quarantine, hquarantine, hfills'⟩ := restoreFiles_ok hworkspace hstate
  refine ⟨workspace, quarantine, hfills, hfills', ?_⟩
  rw [writeDisk_ok h₄]
  simp [hquarantine]

theorem loadManifest_ok {id : String} (h : exec (loadManifest id) s = (.ok manifest, s')) :
    s.disk.checkpoints.lookup id = some manifest := by
  obtain ⟨⟨⟩, s₁, hvalid, h₁⟩ := exec_bind_of_ok h
  obtain rfl := (refuseIf_ok hvalid).2
  rw [exec_bind_ok (exec_readDisk s₁)] at h₁
  cases hlookup : s₁.disk.checkpoints.lookup id with
  | none =>
    rw [hlookup] at h₁
    cases h₁
  | some found =>
    rw [hlookup] at h₁
    obtain ⟨-, s₂, -, h₂⟩ := exec_bind_of_ok h₁
    obtain ⟨-, s₃, -, h₃⟩ := exec_bind_of_ok h₂
    rw [Except.ok.inj (Prod.mk.inj h₃).1]

def SameRestores (before after : NodeHost) : Prop := after.disk.restores = before.disk.restores

instance SameRestores.reads : ReadsDisk SameRestores where
  refl _ := rfl
  trans h₁ h₂ := h₂.trans h₁
  faults _ _ := rfl

theorem stage_ok {id configHome : String} {now : Int} {result : CheckpointStageResult}
    (h : exec (store.stage id configHome now) s = (.ok result, s'))
    (hmanifest : s.disk.checkpoints.lookup id = some manifest) (hnew : id ∉ s.disk.restores) :
    ∃ workspace quarantine, Fills store.sha256 "" manifest.files ∅ workspace ∧
      Fills store.sha256 ".dirijor/" manifest.providerState.toList workspace quarantine ∧
      s'.disk.restores.lookup id = some quarantine := by
  obtain ⟨found, s₁, hload, h₁⟩ := exec_bind_of_ok h
  have hfound := loadManifest_ok hload
  rw [hmanifest] at hfound
  obtain ⟨⟩ := hfound
  have hdisk : s₁.disk = s.disk := (loadManifest_reads (R := SameDisk) _).of_exec hload
  rw [exec_bind_ok (exec_readDisk s₁), hdisk, if_neg hnew] at h₁
  obtain ⟨⟨⟩, s₂, hrefused, h₂⟩ := exec_bind_of_ok h₁
  obtain ⟨⟨⟩, s₃, hrestore, h₃⟩ := exec_bind_of_ok h₂
  obtain ⟨⟨⟩, s₄, hactivate, h₄⟩ := exec_bind_of_ok h₃
  obtain ⟨movement, s₅, hmove, h₅⟩ := exec_bind_of_ok h₄
  obtain ⟨⟨⟩, s₆, hsave, h₆⟩ := exec_bind_of_ok h₅
  obtain ⟨workspace, quarantine, hfills, hfills', hlookup⟩ := restore_ok hrestore
  refine ⟨workspace, quarantine, hfills, hfills', ?_⟩
  have hwrites : ∀ f : NodeDisk → Table String (List UInt8),
      Moves SameRestores (writeDisk fun disk => { disk with providerFiles := f disk }) := fun f =>
    .bind fileOperation_reads fun _ => .modify fun _ => rfl
  have hactivated : SameRestores s₃ s₄ :=
    (store.activateProviderState_moves hwrites _ _).of_exec hactivate
  have hloaded : SameRestores s₄ s₅ := (loadMove_reads _).of_exec hmove
  have hsaved : SameRestores s₅ s₆ := by
    show s₆.disk.restores = s₅.disk.restores
    rw [writeDisk_ok hsave]
  rw [← (Prod.mk.inj h₆).2, hsaved, hloaded, hactivated, hlookup]

end CheckpointStore

/-! ### From one node to the other -/

section Reproduces

variable {source : CheckpointStore} {tree : WorkspaceTree} {root : String}
  {transcript : Option WalkedFile} {manifest : CheckpointManifest}

/-- What the manifest of a workspace says. -/
structure Describes (source : CheckpointStore) (tree : WorkspaceTree) (transcript : Option WalkedFile)
    (manifest : CheckpointManifest) : Prop where
  files : manifest.files = tree.listing.included.map fun entry =>
    source.entryOf (walkedFile [] entry)
  excluded : manifest.excluded = tree.listing.leftOut.map (written [])
  state : ∀ state ∈ manifest.providerState, ∃ file ∈ transcript,
    state = source.entryOf { file with relative := "provider/session.jsonl" }

theorem describes_of_prepare {params : CheckpointPrepareParams}
    {random : Except NodeError (List UInt8)} {now : Int} {s s' : NodeHost}
    (h : exec (source.prepare params (tree.workspace root) random transcript now) s =
      (.ok manifest, s')) : Describes source tree transcript manifest ∧
      (manifest.providerState.isSome ↔ source.TakesTranscript params transcript
        (exec (source.storeFiles (tree.workspace root).files) s).2) := by
  obtain ⟨hfiles, hexcluded, hwalked, s₁, hstate⟩ := prepare_ok h
  rcases hwalk : exec (walkWorkspace [] tree.listing) {} with ⟨walked, walk⟩
  have hworkspace : tree.workspace root =
      ⟨.ok root, true, walk.files, walk.excluded, walked.map fun _ => ()⟩ := by
    unfold WorkspaceTree.workspace
    rw [hwalk]
  rw [hworkspace] at hfiles hexcluded hwalked hstate ⊢
  cases walked with
  | error error => cases hwalked
  | ok done =>
    have hfound := walkWorkspace_ok hwalk
    refine ⟨⟨?_, ?_, ?_⟩, ?_⟩
    · rw [hfiles, hfound.files, nil_append, map_map]
      rfl
    · rw [hexcluded, hfound.excluded, nil_append]
    · intro state hmem
      rcases storeProviderState_ok hstate with ⟨-, file, hfile, heq⟩ | ⟨-, hnone⟩
      · rw [heq] at hmem
        exact ⟨file, hfile, (Option.some.inj hmem).symm⟩
      · rw [hnone] at hmem
        cases hmem
    · rcases storeProviderState_ok hstate with ⟨htakes, _, _, heq⟩ | ⟨hnot, hnone⟩
      · exact iff_of_true (by rw [heq]; rfl) htakes
      · exact iff_of_false (by rw [hnone]; simp) hnot

variable {path : List FileName}

theorem names_of_visited (h : path ∈ tree.listing.visited) :
    path ≠ [] ∧ ∀ name ∈ path, Listing.IsName name :=
  have hpath := tree.listing.visited_sublist.subset h
  ⟨Listing.ne_nil_of_mem hpath, Listing.isName_of_mem tree.ordered hpath⟩

theorem visited_of_included {entry : List FileName × RestoredFile}
    (h : entry ∈ tree.listing.included) : entry.1 ∈ tree.listing.visited :=
  tree.listing.included_leftOut_perm.mem_iff.mp
    (mem_append_left _ (mem_map_of_mem (f := Prod.fst) h))

theorem visited_of_leftOut (h : path ∈ tree.listing.leftOut) : path ∈ tree.listing.visited :=
  tree.listing.included_leftOut_perm.mem_iff.mp (mem_append_right _ h)

theorem WorkspaceTree.Legible.written (h : tree.Legible)
    (hpath : path ∈ tree.listing.visited) : utf8 (written [] path) = joined path :=
  isUtf8_iff_lossy.mp (h path hpath)

section
variable (h : Describes source tree transcript manifest)
include h

theorem Describes.accounted_iff : ((manifest.files.map (·.path) ++ manifest.excluded).map utf8).Perm
      (tree.listing.visited.map joined) ↔ tree.Legible := by
  constructor
  · intro hperm path hpath
    have hmem := hperm.mem_iff.mpr (mem_map_of_mem (f := joined) hpath)
    obtain ⟨text, -, htext⟩ := List.mem_map.mp hmem
    exact ⟨text, htext.symm⟩
  intro hlegible
  have hpaths : manifest.files.map (·.path) ++ manifest.excluded =
      (tree.listing.included.map Prod.fst ++ tree.listing.leftOut).map (written []) := by
    rw [h.files, h.excluded, map_append, map_map, map_map]
    rfl
  have hread : tree.listing.visited.map (utf8 ∘ written []) = tree.listing.visited.map joined :=
    map_congr_left fun path hpath => hlegible.written hpath
  rw [hpaths, map_map, ← hread]
  exact tree.listing.included_leftOut_perm.map _

theorem Describes.nodup (hlegible : tree.Legible) : (manifest.files.map (·.path)).Nodup := by
  have hnodup := (List.nodup_append'.mp (Listing.nodup_found tree.ordered)).1
  have hpaths : manifest.files.map (·.path) =
      (tree.listing.included.map Prod.fst).map (written []) := by
    rw [h.files, map_map, map_map]
    rfl
  rw [hpaths]
  refine hnodup.map_on fun path hpath other hother heq => ?_
  obtain ⟨entry, hentry, rfl⟩ := List.mem_map.mp hpath
  obtain ⟨entry', hentry', rfl⟩ := List.mem_map.mp hother
  have hvisited := visited_of_included hentry
  have hvisited' := visited_of_included hentry'
  refine Listing.joined_inj (names_of_visited hvisited).1 (names_of_visited hvisited).2
    (names_of_visited hvisited').1 (names_of_visited hvisited').2 ?_
  rw [← hlegible.written hvisited, ← hlegible.written hvisited', heq]

theorem Describes.leavesOut_iff
    (hlegible : tree.Legible) (hnames : ∀ name ∈ path, Listing.IsName name) :
    manifest.LeavesOut path ↔ ∃ stem ∈ tree.listing.leftOut, stem <+: path := by
  have hmem : ∀ bytes, bytes ∈ manifest.excluded.map utf8 ↔
      ∃ stem ∈ tree.listing.leftOut, joined stem = bytes := by
    have hread : tree.listing.leftOut.map (utf8 ∘ written []) = tree.listing.leftOut.map joined :=
      map_congr_left fun stem hstem => hlegible.written (visited_of_leftOut hstem)
    intro bytes
    rw [h.excluded, map_map, hread, mem_map]
  constructor
  · rintro ⟨stem, hne, hbelow, hexcluded⟩
    obtain ⟨other, hother, heq⟩ := (hmem _).mp hexcluded
    have hvisited := names_of_visited (visited_of_leftOut hother)
    obtain rfl := Listing.joined_inj hvisited.1 hvisited.2 hne
      (fun name hname => hnames name (hbelow.subset hname)) heq
    exact ⟨other, hother, hbelow⟩
  · rintro ⟨stem, hstem, hbelow⟩
    exact ⟨stem, (names_of_visited (visited_of_leftOut hstem)).1, hbelow,
      (hmem _).mpr ⟨stem, hstem, rfl⟩⟩

theorem Describes.not_excluded
    (hlegible : tree.Legible) {entry : CheckpointFile} (hentry : entry ∈ manifest.files) :
    (∀ name ∈ ((utf8 entry.path).splitOn slash).dropLast, isExcludedName name true = false) ∧
      ∀ name ∈ ((utf8 entry.path).splitOn slash).getLast?, isExcludedName name false = false := by
  rw [h.files] at hentry
  obtain ⟨⟨path, file⟩, hincluded, rfl⟩ := List.mem_map.mp hentry
  have hvisited := visited_of_included hincluded
  have hpath : utf8 (source.entryOf (walkedFile [] (path, file))).path = joined path :=
    hlegible.written hvisited
  have htexts := Listing.isUtf8_of_joined (hlegible path hvisited)
  have hsame : ∀ name ∈ path, ∀ directory,
      shouldExclude name directory = isExcludedName name directory := fun name hname directory => by
    rw [shouldExclude, if_pos (htexts name hname)]
  rw [hpath, Listing.splitOn_joined (names_of_visited hvisited).1 (names_of_visited hvisited).2]
  obtain ⟨hdirectories, hlast⟩ := Listing.not_excluded_of_included hincluded
  refine ⟨fun name hname => ?_, fun name hname => ?_⟩
  · rw [← hsame name (dropLast_subset path hname)]
    exact hdirectories name hname
  · rw [← hsame name (mem_of_getLast? hname)]
    exact hlast name hname

/-- The manifest names a file where the transcript goes just where there is one to be taken. -/
theorem Describes.holds_iff (hlegible : tree.Legible) :
    (∃ entry ∈ manifest.files, entry.path = transcriptPath) ↔ tree.Holds transcriptPath := by
  simp only [h.files, mem_map, exists_exists_and_eq_and]
  refine exists_congr fun entry => and_congr_right fun hentry => ?_
  rw [← hlegible.written (visited_of_included hentry)]
  exact utf8_injective.eq_iff.symm

theorem Describes.restored_iff (hlegible : tree.Legible) (hsha : Function.Injective source.sha256)
    {workspace : Table String RestoredFile}
    (hfills : CheckpointStore.Fills source.sha256 "" manifest.files ∅ workspace)
    {path : String} {file : RestoredFile} : workspace.lookup path = some file ↔
      ∃ entry ∈ tree.listing.included, joined entry.1 = utf8 path ∧ entry.2 = file := by
  have hown : ∀ entry ∈ tree.listing.included,
      workspace.lookup (written [] entry.1) = some entry.2 := by
    intro entry hentry
    obtain ⟨contents, hhash, hlookup⟩ := hfills.own (h.nodup hlegible)
      (source.entryOf (walkedFile [] entry)) (by rw [h.files]; exact mem_map_of_mem hentry)
    rw [String.empty_append] at hlookup
    rw [hsha hhash] at hlookup
    exact hlookup
  constructor
  · intro hlookup
    by_cases hmem : ∃ entry ∈ manifest.files, entry.path = path
    · obtain ⟨_, hfile, rfl⟩ := hmem
      rw [h.files] at hfile
      obtain ⟨entry, hentry, rfl⟩ := List.mem_map.mp hfile
      have hfound := (hown entry hentry).symm.trans hlookup
      exact ⟨entry, hentry, (hlegible.written (visited_of_included hentry)).symm,
        Option.some.inj hfound⟩
    rw [hfills.others path fun entry hentry heq =>
      hmem ⟨entry, hentry, by rwa [String.empty_append] at heq⟩, AList.lookup_empty] at hlookup
    cases hlookup
  · rintro ⟨entry, hentry, hpath, rfl⟩
    have hwritten : written [] entry.1 = path :=
      utf8_injective ((hlegible.written (visited_of_included hentry)).trans hpath)
    rw [← hwritten]
    exact hown entry hentry

end

variable {workspace quarantine : Table String RestoredFile}

section
variable (h : Describes source tree transcript manifest)
include h

theorem Describes.beside
    (hfills : CheckpointStore.Fills source.sha256 ".dirijor/" manifest.providerState.toList
      workspace quarantine) {path : String}
    (hpath : manifest.providerState.isSome → path ≠ transcriptPath) :
    quarantine.lookup path = workspace.lookup path := by
  refine hfills.others path fun state hstate heq => ?_
  have hsome := Option.mem_toList.mp hstate
  obtain ⟨file, -, rfl⟩ := h.state state hsome
  exact hpath (Option.isSome_of_mem hsome) heq.symm

theorem Describes.transcribed (hsha : Function.Injective source.sha256)
    (hfills : CheckpointStore.Fills source.sha256 ".dirijor/" manifest.providerState.toList
      workspace quarantine) (hsome : manifest.providerState.isSome) :
    (quarantine.lookup transcriptPath).map (·.contents) = transcript.map (·.contents) := by
  obtain ⟨state, hstate⟩ := Option.isSome_iff_exists.mp hsome
  obtain ⟨file, hfile, heq⟩ := h.state state hstate
  obtain ⟨contents, hhash, hlookup⟩ := hfills.own (by rw [hstate]; simp) state
    (by rw [hstate]; exact mem_singleton_self _)
  rw [heq] at hhash hlookup
  have hplace : quarantine.lookup transcriptPath = some ⟨contents, file.unixMode⟩ := hlookup
  rw [hplace, Option.mem_def.mp hfile, hsha hhash]
  rfl

theorem Describes.restored (hlegible : tree.Legible) (hsha : Function.Injective source.sha256)
    (hfills : CheckpointStore.Fills source.sha256 "" manifest.files ∅ workspace)
    {bytes : List UInt8} {file : RestoredFile} :
    (∃ path, utf8 path = bytes ∧ workspace.lookup path = some file) ↔
      ∃ path, joined path = bytes ∧ (path, file) ∈ tree.listing.regular ∧
        ¬manifest.LeavesOut path := by
  have hkept : ∀ path, ((path, file) ∈ tree.listing.regular ∧ ¬manifest.LeavesOut path) ↔
      (path, file) ∈ tree.listing.included := by
    intro path
    rw [Listing.mem_included_iff tree.ordered]
    refine and_congr_right fun hregular => not_congr (h.leavesOut_iff hlegible ?_)
    exact Listing.isName_of_mem tree.ordered
      (tree.listing.regular_subset (mem_map_of_mem (f := Prod.fst) hregular))
  simp only [hkept, h.restored_iff hlegible hsha hfills]
  constructor
  · rintro ⟨path, rfl, entry, hentry, hjoined, rfl⟩
    exact ⟨entry.1, hjoined, hentry⟩
  · rintro ⟨path, rfl, hincluded⟩
    exact ⟨written [] path, hlegible.written (visited_of_included hincluded), (path, file),
      hincluded, (hlegible.written (visited_of_included hincluded)).symm, rfl⟩

end

end Reproduces

/--
**A staged checkpoint reproduces the workspace just where every path that the walk comes by
is a text, and no file lies where the transcript goes.**
-/
theorem checkpoint_reproduces_iff {source target : CheckpointStore} (tree : WorkspaceTree)
    {root configHome : String} {params : CheckpointPrepareParams}
    {random : Except NodeError (List UInt8)} {transcript : Option WalkedFile} {now later : Int}
    {host prepared before after : NodeHost} {manifest : CheckpointManifest}
    {result : CheckpointStageResult} (hsha : Function.Injective source.sha256)
    (hsame : target.sha256 = source.sha256)
    (hprepare : exec (source.prepare params (tree.workspace root) random transcript now) host =
      (.ok manifest, prepared))
    (hmanifest : before.disk.checkpoints.lookup manifest.checkpointId = some manifest)
    (hnew : manifest.checkpointId ∉ before.disk.restores)
    (hstage : exec (target.stage manifest.checkpointId configHome later) before =
      (.ok result, after)) :
    (∃ quarantine, after.disk.restores.lookup manifest.checkpointId = some quarantine ∧
      Reproduces tree transcript manifest quarantine) ↔
    tree.Legible ∧ ¬(source.TakesTranscript params transcript
      (exec (source.storeFiles (tree.workspace root).files) host).2 ∧
        tree.Holds transcriptPath) := by
  obtain ⟨hdescribes, hstate⟩ := describes_of_prepare hprepare
  obtain ⟨workspace, quarantine, hfills, hfills', hlookup⟩ :=
    stage_ok hstage hmanifest hnew
  rw [hsame] at hfills hfills'
  rw [← hstate]
  constructor
  · rintro ⟨_, -, hreproduces⟩
    have hlegible := hdescribes.accounted_iff.mp hreproduces.accounted
    refine ⟨hlegible, fun hboth => ?_⟩
    obtain ⟨entry, hentry, hpath⟩ := (hdescribes.holds_iff hlegible).mpr hboth.2
    exact (hreproduces.apart hboth.1).1 entry hentry hpath
  rintro ⟨hlegible, hapart⟩
  refine ⟨quarantine, hlookup, ?_, hdescribes.accounted_iff.mpr hlegible,
    fun entry hentry => hdescribes.not_excluded hlegible hentry, ?_⟩
  · intro bytes file hplace
    rw [← hdescribes.restored hlegible hsha hfills]
    refine exists_congr fun path => and_congr_right fun hpath => ?_
    rw [hdescribes.beside hfills' fun hsome heq => hplace hsome (hpath ▸ congrArg utf8 heq)]
  · intro hsome
    refine ⟨fun entry hentry hpath => hapart ⟨hsome, ?_⟩, hdescribes.transcribed hsha hfills' hsome⟩
    exact (hdescribes.holds_iff hlegible).mp ⟨entry, hentry, hpath⟩

/-! ### A workspace that is restored, and one that is not -/

def oldHome : CheckpointStore := ⟨"old", "/old", sampleSha256, 0⟩
def newHome : CheckpointStore := ⟨"new", "/new", sampleSha256, 0⟩

def sampleTranscript : WalkedFile := ⟨"", utf8 "ab", utf8 "ab", some 0o600⟩

/-- What a node makes of the request for a checkpoint. -/
def samplePrepare (tree : WorkspaceTree) : Except NodeError CheckpointManifest × NodeHost :=
  exec (oldHome.prepare ⟨"session", .claude, "profile", "/work", some "chat", .move⟩
    (tree.workspace "/work") (.ok (List.replicate 16 7)) (some sampleTranscript) 0) {}

/-- Another node with the manifest and the blobs. -/
def sampleArrival (manifest : CheckpointManifest) : NodeHost where
  disk :=
    { checkpoints := (∅ : Table String CheckpointManifest).insert manifest.checkpointId manifest
      moves := (∅ : Table String MoveRecord).insert manifest.checkpointId
        (.ofManifest manifest newHome.nodeId 1)
      blobs := ((∅ : Table String (List UInt8)).insert (sampleSha256 (utf8 "a")) (utf8 "a")).insert
        (sampleSha256 (utf8 "ab")) (utf8 "ab") }

/-- The checkpoint is staged there. -/
def sampleStage (manifest : CheckpointManifest) :
    Except NodeError CheckpointStageResult × NodeHost :=
  exec (newHome.stage manifest.checkpointId "/home" 2) (sampleArrival manifest)

def sampleManifest (files : List CheckpointFile) (excluded : List String) : CheckpointManifest where
  version := 1
  checkpointId := "cp-07070707070707070707070707070707"
  sourceNodeId := "old"
  sessionId := "session"
  provider := .claude
  profileId := "profile"
  workspaceRoot := "/work"
  providerSessionId := some "chat"
  mode := .move
  createdAt := 0
  files := files
  providerState :=
    some (oldHome.entryOf { sampleTranscript with relative := "provider/session.jsonl" })
  excluded := excluded

/-- A directory with a file in it, and a file that is not taken along. -/
def plainTree : WorkspaceTree where
  listing := .file (utf8 ".env") (utf8 "a") 0o644
    (.directory (utf8 "a") (.file (utf8 "b") (utf8 "a") 0o755 .nil) .nil)
  ordered := by decide +kernel

def plainManifest : CheckpointManifest :=
  sampleManifest [⟨"a/b", sampleSha256 (utf8 "a"), 1, some 0o755⟩] [".env"]

theorem checkpoint_reproduces_plain : (samplePrepare plainTree).1.toOption = some plainManifest ∧
      ∃ quarantine, (sampleStage plainManifest).2.disk.restores.lookup plainManifest.checkpointId =
          some quarantine ∧
        Reproduces plainTree (some sampleTranscript) plainManifest quarantine := by
  have hprepared : (samplePrepare plainTree).1.toOption = some plainManifest := by decide +kernel
  have hstaged : (sampleStage plainManifest).1.toOption =
      some ⟨plainManifest.checkpointId, newHome.restorePath plainManifest.checkpointId, true⟩ := by
    decide +kernel
  have hprepare := eq_of_toOption hprepared
  have hstage := eq_of_toOption hstaged
  have hmanifest : (sampleArrival plainManifest).disk.checkpoints.lookup
      plainManifest.checkpointId = some plainManifest := AList.lookup_insert _
  have hnew : plainManifest.checkpointId ∉ (sampleArrival plainManifest).disk.restores :=
    AList.notMem_empty _
  have hapart : ¬plainTree.Holds transcriptPath := by decide +kernel
  have hsha : Function.Injective oldHome.sha256 := sampleSha256_injective
  have hsame : newHome.sha256 = oldHome.sha256 := rfl
  have hlegible : plainTree.Legible := by decide +kernel
  exact ⟨hprepared, (checkpoint_reproduces_iff plainTree hsha hsame hprepare
    hmanifest hnew hstage).mpr ⟨hlegible, fun h => hapart h.2⟩⟩

/-- A file whose name is no text. -/
def mangledTree : WorkspaceTree where
  listing := .file [0xFF] (utf8 "a") 0o644 .nil
  ordered := by decide +kernel

def mangledManifest : CheckpointManifest :=
  sampleManifest [⟨"\uFFFD", sampleSha256 (utf8 "a"), 1, some 0o644⟩] []

/-- The file is restored under another name, and nothing fails. -/
theorem mangled_name : (samplePrepare mangledTree).1.toOption = some mangledManifest ∧
      (sampleStage mangledManifest).1.toOption.isSome ∧ ¬∃ quarantine,
        (sampleStage mangledManifest).2.disk.restores.lookup mangledManifest.checkpointId =
          some quarantine ∧
        Reproduces mangledTree (some sampleTranscript) mangledManifest quarantine := by
  refine ⟨by decide +kernel, by decide +kernel, ?_⟩
  rintro ⟨quarantine, -, hreproduces⟩
  have hpath := hreproduces.accounted.mem_iff (a := [0xFF])
  revert hpath
  decide +kernel

end Diri
