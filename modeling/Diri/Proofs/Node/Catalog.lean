/-
The account catalog, in memory and on disk.

Whatever fails, the accounts file is at every moment one that loads: it changes only by the
rename that ends a save, and what is renamed is a whole catalog that is valid.  A catalog
stays valid because an edit never changes a profile's id or provider and a default is only
set to a profile that is there.

What is in memory is another matter.  The edit comes before the first file operation, so a
call that fails at one leaves the edit behind.
-/
import Mathlib.Logic.Equiv.List
import Diri.Lib.Run
import Diri.Node.Accounts

namespace Diri.Accounts

open Handler AccountStore List

/-! ### Valid catalogs -/

/-- Each id is well formed, and each default names a profile of its provider. -/
structure Valid (data : AccountsFile) : Prop where
  ids : ∀ profile ∈ data.profiles, ValidProfileId profile.id
  defaults : ∀ provider profileId, data.defaults.get provider = some profileId →
    ∃ profile, data.find profileId = some profile ∧ profile.provider = provider

theorem validateProfileId_eq_ok {id : String} :
    validateProfileId id = .ok ⟨⟩ ↔ ValidProfileId id := by
  unfold validateProfileId
  split
  · exact iff_of_true rfl ‹_›
  · exact iff_of_false (fun h => by cases h) ‹_›

theorem validateProfiles_eq_ok {profiles : List AccountProfile} :
    validateProfiles profiles = .ok ⟨⟩ ↔ ∀ profile ∈ profiles, ValidProfileId profile.id := by
  induction profiles with
  | nil => simp [validateProfiles]
  | cons profile rest ih =>
    rw [forall_mem_cons, ← ih, ← validateProfileId_eq_ok, validateProfiles]
    cases validateProfileId profile.id with
    | ok => exact ⟨fun h => ⟨rfl, h⟩, And.right⟩
    | error => exact iff_of_false (fun h => by cases h) (fun h => by cases h.1)

theorem validateDefault_eq_ok {data : AccountsFile} {provider : ProviderKind} :
    data.validateDefault provider = .ok ⟨⟩ ↔
      ∀ profileId, data.defaults.get provider = some profileId →
        ∃ profile, data.find profileId = some profile ∧ profile.provider = provider := by
  unfold AccountsFile.validateDefault
  cases hdefault : data.defaults.get provider with
  | none => simp
  | some profileId =>
    cases hfind : data.find profileId with
    | none => simp [hfind]
    | some profile =>
      by_cases hprovider : profile.provider = provider
      · simp [hfind, hprovider]
      · simp [hfind, hprovider]

theorem validate_eq_ok {data : AccountsFile} : data.validate = .ok ⟨⟩ ↔ Valid data := by
  unfold AccountsFile.validate
  constructor
  · intro h
    cases hids : validateProfiles data.profiles with
    | error => rw [hids] at h; cases h
    | ok =>
      cases hclaude : data.validateDefault .claude with
      | error => rw [hids, hclaude] at h; cases h
      | ok =>
        rw [hids, hclaude] at h
        refine ⟨validateProfiles_eq_ok.mp hids, fun provider => ?_⟩
        cases provider with
        | claude => exact validateDefault_eq_ok.mp hclaude
        | codex => exact validateDefault_eq_ok.mp h
  · intro h
    rw [validateProfiles_eq_ok.mpr h.ids, validateDefault_eq_ok.mpr (h.defaults .claude)]
    exact validateDefault_eq_ok.mpr (h.defaults .codex)

/-! ### Edits -/

theorem find_reviseFirst {id other : String} {revise : AccountProfile → AccountProfile}
    (hid : ∀ profile, (revise profile).id = profile.id) (profiles : List AccountProfile) :
    (AccountStore.reviseFirst id revise profiles).find? (fun profile => profile.id = other) =
      (profiles.find? fun profile => profile.id = other).map fun profile =>
        if profile.id = id then revise profile else profile := by
  induction profiles with
  | nil => rfl
  | cons profile rest ih =>
    unfold AccountStore.reviseFirst
    by_cases hfirst : profile.id = id
    · rw [if_pos hfirst, find?_cons, find?_cons, hid]
      by_cases hother : profile.id = other
      · simp [hother, hfirst.symm.trans hother]
      have hrest : ∀ found ∈ rest.find? (fun profile => profile.id = other),
          found.id ≠ id := by
        intro found hfound heq
        have := find?_some hfound
        exact hother (hfirst.trans (heq.symm.trans (of_decide_eq_true this)))
      simp only [hother, decide_false]
      cases hfound : rest.find? (fun profile => profile.id = other) with
      | none => rfl
      | some found => simp [hrest found hfound]
    rw [if_neg hfirst, find?_cons, find?_cons]
    by_cases hother : profile.id = other
    · simp [hother, show ¬other = id from hother ▸ hfirst]
    · simp only [hother, decide_false]
      exact ih

theorem ids_reviseFirst {id : String} {revise : AccountProfile → AccountProfile}
    (hid : ∀ profile, (revise profile).id = profile.id) (profiles : List AccountProfile) :
    (AccountStore.reviseFirst id revise profiles).map (·.id) = profiles.map (·.id) := by
  induction profiles with
  | nil => rfl
  | cons profile rest ih =>
    unfold AccountStore.reviseFirst
    split
    · simp [hid]
    · simp [ih]

namespace AccountStore

variable {store : AccountStore} {data data' : AccountsFile} {now : Int}

theorem upsertData_cases {params : AccountUpsertParams} {profile : AccountProfile}
    (h : store.upsertData data params now = .ok (data', profile)) :
    ValidProfileId params.id ∧ ((∃ existing, data.find params.id = some existing ∧
          profile = revised params now existing ∧ data' =
            { data with profiles := reviseFirst params.id (revised params now) data.profiles }) ∨
        (data.find params.id = none ∧ profile = created params now ∧
          data' = { data with profiles := data.profiles ++ [created params now] })) := by
  unfold upsertData at h
  by_cases hid : ValidProfileId params.id
  · rw [validateProfileId_eq_ok.mpr hid] at h
    refine ⟨hid, ?_⟩
    by_cases hlabel : store.trim params.label = ""
    · simp [hlabel, bind, Except.bind, throw, throwThe, MonadExceptOf.throw] at h
    cases hfind : data.find params.id with
    | none =>
      simp [hlabel, hfind, bind, Except.bind, pure, Except.pure] at h
      exact .inr ⟨rfl, h.2.symm, h.1.symm⟩
    | some existing =>
      by_cases hprovider : existing.provider = params.provider
      · simp [hlabel, hfind, hprovider, bind, Except.bind, pure, Except.pure] at h
        exact .inl ⟨existing, rfl, h.2.symm, h.1.symm⟩
      · simp [hlabel, hfind, hprovider, bind, Except.bind, throw, throwThe,
          MonadExceptOf.throw] at h
  · simp [validateProfileId, hid, bind, Except.bind] at h

theorem setDefaultData_cases {params : AccountSetDefaultParams}
    (h : setDefaultData data params = .ok data') :
    (∃ found, data.find params.profileId = some found ∧ found.provider = params.provider) ∧
      data' = { data with defaults := data.defaults.insert params.provider params.profileId } := by
  unfold setDefaultData profile at h
  cases hfind : data.find params.profileId with
  | none => simp [hfind, bind, Except.bind] at h
  | some found =>
    by_cases hprovider : found.provider = params.provider
    · simp [hfind, hprovider, bind, Except.bind, pure, Except.pure] at h
      exact ⟨⟨found, rfl, hprovider⟩, h.symm⟩
    · simp [hfind, hprovider, bind, Except.bind, throw, throwThe, MonadExceptOf.throw] at h

/-- What a request makes of the catalog in memory. -/
def edited (store : AccountStore) (data : AccountsFile) (call : AccountsCall) :
    Except NodeError AccountsFile :=
  match call.request with
  | .upsert params => Prod.fst <$> store.upsertData data params call.now
  | .setDefault params => setDefaultData data params

theorem revised_id (params : AccountUpsertParams) (profile : AccountProfile) :
    (revised params now profile).id = profile.id := rfl

theorem Valid.upsertData {params : AccountUpsertParams} {profile : AccountProfile}
    (hvalid : Valid data) (h : store.upsertData data params now = .ok (data', profile)) :
    Valid data' := by
  obtain ⟨hid, ⟨existing, hfind, -, rfl⟩ | ⟨hfind, -, rfl⟩⟩ := upsertData_cases h
  · constructor
    · intro profile hprofile
      have hmem : profile.id ∈ data.profiles.map (·.id) := by
        rw [← ids_reviseFirst (revised_id params) data.profiles]
        exact mem_map_of_mem hprofile
      obtain ⟨old, hold, heq⟩ := mem_map.mp hmem
      exact heq ▸ hvalid.ids old hold
    · intro provider profileId hdefault
      obtain ⟨found, hfound, hprovider⟩ := hvalid.defaults provider profileId hdefault
      refine ⟨_, (find_reviseFirst (revised_id params) data.profiles).trans
        (congrArg (Option.map _) hfound), ?_⟩
      dsimp only
      split
      · exact hprovider
      · exact hprovider
  constructor
  · intro profile hprofile
    rcases mem_append.mp hprofile with hold | hnew
    · exact hvalid.ids profile hold
    · obtain rfl := mem_singleton.mp hnew
      exact hid
  intro provider profileId hdefault
  obtain ⟨found, hfound, hprovider⟩ := hvalid.defaults provider profileId hdefault
  refine ⟨found, ?_, hprovider⟩
  unfold AccountsFile.find at hfound ⊢
  rw [find?_append, hfound]
  rfl

theorem Valid.setDefaultData {params : AccountSetDefaultParams} (hvalid : Valid data)
    (h : AccountStore.setDefaultData data params = .ok data') : Valid data' := by
  obtain ⟨⟨found, hfound, hprovider⟩, rfl⟩ := setDefaultData_cases h
  refine ⟨hvalid.ids, ?_⟩
  intro provider profileId hdefault
  rw [Defaults.get_insert] at hdefault
  split at hdefault
  · rename_i heq
    obtain ⟨⟩ := hdefault
    exact ⟨found, hfound, hprovider.trans heq.symm⟩
  · exact hvalid.defaults provider profileId hdefault

theorem Valid.edited {call : AccountsCall} (hvalid : Valid data)
    (h : store.edited data call = .ok data') : Valid data' := by
  unfold AccountStore.edited at h
  split at h
  · cases hupsert : store.upsertData data _ call.now with
    | error => rw [hupsert] at h; cases h
    | ok result =>
      rw [hupsert] at h
      cases h
      exact Valid.upsertData hvalid hupsert
  · exact Valid.setDefaultData hvalid h

theorem edited_nodup {call : AccountsCall} (hnodup : (data.profiles.map (·.id)).Nodup)
    (h : store.edited data call = .ok data') : (data'.profiles.map (·.id)).Nodup := by
  unfold edited at h
  split at h
  · rename_i params _
    cases hupsert : store.upsertData data params call.now with
    | error => rw [hupsert] at h; cases h
    | ok result =>
      rw [hupsert] at h
      cases h
      obtain ⟨-, ⟨existing, -, -, hdata⟩ | ⟨hfind, -, hdata⟩⟩ := upsertData_cases hupsert
      · rw [hdata, ids_reviseFirst (revised_id params)]
        exact hnodup
      rw [hdata, map_append]
      refine hnodup.append (nodup_singleton _) ?_
      intro id hold hnew
      obtain ⟨profile, hprofile, rfl⟩ := mem_map.mp hold
      have hne := find?_eq_none.mp hfind profile hprofile
      exact hne (decide_eq_true (mem_singleton.mp hnew))
  · obtain ⟨-, rfl⟩ := setDefaultData_cases h
    exact hnodup

end AccountStore

/-! ### File operations -/

/-- The first operations all come to a good end. -/
def AllDone : Nat → List Outcome → Prop
  | 0, _ => True
  | count + 1, outcomes => outcomes.headD .done = .done ∧ AllDone count outcomes.tail

instance AllDone.decidable : ∀ (count : Nat) (outcomes : List Outcome),
    Decidable (AllDone count outcomes)
  | 0, _ => .isTrue trivial
  | count + 1, outcomes =>
    have := AllDone.decidable count outcomes.tail
    inferInstanceAs (Decidable (outcomes.headD .done = .done ∧ AllDone count outcomes.tail))

section
variable {s s' : AccountsState} {change : Outcome → AccountsDisk → AccountsDisk}

theorem exec_operate (change : Outcome → AccountsDisk → AccountsDisk) (s : AccountsState) :
    exec (operate change) s = (if s.outcomes.headD .done = .done then .ok ⟨⟩ else .error .io,
        s.after (change (s.outcomes.headD .done) s.disk)) := by
  unfold operate
  rw [exec_bind_ok (exec_get s), exec_bind_ok (exec_modify _ s)]
  split
  · rfl
  · rfl

/-- The operations add to the trace, with the file at `path` as it was. -/
structure Quiet (path : FilePath) (s s' : AccountsState) : Prop where
  data : s'.data = s.data
  file : s'.disk.files.lookup path = s.disk.files.lookup path
  trace : ∀ disk ∈ s'.trace, disk ∈ s.trace ∨ disk.files.lookup path = s.disk.files.lookup path

instance Quiet.steps (path : FilePath) : Steps (Quiet path) where
  refl s := ⟨rfl, rfl, fun _ h => .inl h⟩
  trans h₁ h₂ := by
    refine ⟨h₂.data.trans h₁.data, h₂.file.trans h₁.file, ?_⟩
    intro disk hdisk
    rcases h₂.trace disk hdisk with hold | hsame
    · exact h₁.trace disk hold
    · exact .inr (hsame.trans h₁.file)

variable {path other : FilePath}

theorem Quiet.operate
    (h : ∀ outcome disk, (change outcome disk).files.lookup path = disk.files.lookup path) :
    Moves (Quiet path) (operate change) := by
  intro s
  rw [exec_operate]
  refine ⟨rfl, h _ _, ?_⟩
  intro disk hdisk
  rcases mem_cons.mp hdisk with rfl | hold
  · exact .inr (h _ _)
  · exact .inl hold

theorem Quiet.createDirAll (directory : String) : Moves (Quiet path) (createDirAll directory) := by
  refine Quiet.operate fun outcome disk => ?_
  split
  · rfl
  · rfl

theorem Quiet.setPermissions : Moves (Quiet path) setPermissions := Quiet.operate fun _ _ => rfl

theorem Quiet.writeFile (hne : other ≠ path) (bytes : List UInt8) :
    Moves (Quiet path) (writeFile other bytes) := by
  refine Quiet.operate fun outcome disk => ?_
  cases outcome with
  | done => exact AList.lookup_insert_ne hne.symm
  | failed => rfl
  | cut written => exact AList.lookup_insert_ne hne.symm

theorem Quiet.removeFile (hne : other ≠ path) : Moves (Quiet path) (removeFile other) := by
  refine Quiet.operate fun outcome disk => ?_
  split
  · exact AList.lookup_erase_ne hne.symm
  · rfl

end

theorem temporary_ne (processId : Nat) (path : FilePath) : temporary processId path ≠ path := by
  intro h
  have hname : ("." ++ path.fileName ++ ".tmp-" ++ toString processId).length =
      path.fileName.length := congrArg (fun path => path.fileName.length) h
  simp only [String.length_append] at hname
  have hdot : ".".length = 1 := rfl
  omega

/-! ### Saves -/

/-- A file has taken the place of the one at `path`. -/
structure Written (path : FilePath) (bytes : List UInt8) (s s' : AccountsState) : Prop where
  data : s'.data = s.data
  file : s'.disk.files.lookup path = some bytes
  trace : ∀ disk ∈ s'.trace, disk ∈ s.trace ∨
    disk.files.lookup path = s.disk.files.lookup path ∨ disk.files.lookup path = some bytes

theorem Written.of_quiet {path : FilePath} {bytes : List UInt8} {s s₁ s' : AccountsState}
    (hquiet : Quiet path s s₁) (hwritten : Written path bytes s₁ s') : Written path bytes s s' := by
  refine ⟨hwritten.data.trans hquiet.data, hwritten.file, ?_⟩
  intro disk hdisk
  rcases hwritten.trace disk hdisk with hold | hsame | hnew
  · rcases hquiet.trace disk hold with hold | hsame
    · exact .inl hold
    · exact .inr (.inl hsame)
  · exact .inr (.inl (hsame.trans hquiet.file))
  · exact .inr (.inr hnew)

/-- Started in a state with `P`, the handler replaces the file at `path` when its first
`count` operations succeed, and else fails and leaves the file. -/
def Replaces (P : AccountsState → Prop) (count : Nat) (path : FilePath) (bytes : List UInt8)
    {α : Type} (m : AccountsM α) : Prop :=
  ∀ s result s', P s → exec m s = (result, s') →
    ((∃ a, result = .ok a) ∧ AllDone count s.outcomes ∧ Written path bytes s s') ∨
      ((∃ error, result = .error error) ∧ ¬AllDone count s.outcomes ∧ Quiet path s s')

section
variable {P Q : AccountsState → Prop} {count : Nat} {path source : FilePath} {bytes : List UInt8}
variable {α β : Type} {m : AccountsM α}

theorem Replaces.operate_bind {change : Outcome → AccountsDisk → AccountsDisk}
    (hquiet : Moves (Quiet path) (operate change))
    (hpre : ∀ s, P s → Q (s.after (change .done s.disk))) (hm : Replaces Q count path bytes m) :
    Replaces P (count + 1) path bytes (operate change >>= fun _ => m) := by
  intro s result s' hP h
  rw [exec_bind] at h
  have hfirst := hquiet s
  rw [exec_operate] at h hfirst
  by_cases hdone : s.outcomes.headD .done = .done
  · rw [if_pos hdone] at h hfirst
    have hnext : Q (s.after (change (s.outcomes.headD .done) s.disk)) := by
      rw [hdone]
      exact hpre s hP
    rcases hm _ result s' hnext h with ⟨hok, hall, hwritten⟩ | ⟨herror, hall, hrest⟩
    · exact .inl ⟨hok, ⟨hdone, hall⟩, hwritten.of_quiet hfirst⟩
    · exact .inr ⟨herror, fun hdone' => hall hdone'.2, (Quiet.steps path).trans hfirst hrest⟩
  rw [if_neg hdone] at h hfirst
  obtain ⟨rfl, rfl⟩ := Prod.mk.inj h
  exact .inr ⟨⟨_, rfl⟩, fun hall => hdone hall.1, hfirst⟩

theorem Replaces.rename : Replaces (fun s => s.disk.files.lookup source = some bytes) 1 path bytes
      (rename source path) := by
  intro s result s' hsource h
  unfold Accounts.rename at h
  rw [exec_bind_ok (exec_get s)] at h
  simp only [hsource] at h
  rw [exec_operate] at h
  by_cases hdone : s.outcomes.headD .done = .done
  · simp only [if_pos hdone] at h
    obtain ⟨rfl, rfl⟩ := Prod.mk.inj h
    have hfile : ((s.disk.files.erase source).insert path bytes).lookup path = some bytes :=
      AList.lookup_insert _
    refine .inl ⟨⟨_, rfl⟩, ⟨hdone, trivial⟩, rfl, hfile, ?_⟩
    intro disk hdisk
    rcases mem_cons.mp hdisk with rfl | hold
    · exact .inr (.inr hfile)
    · exact .inl hold
  simp only [if_neg hdone] at h
  obtain ⟨rfl, rfl⟩ := Prod.mk.inj h
  refine .inr ⟨⟨_, rfl⟩, fun hall => hdone hall.1, rfl, rfl, ?_⟩
  intro disk hdisk
  rcases mem_cons.mp hdisk with rfl | hold
  · exact .inr rfl
  · exact .inl hold

/-- What is done about a failure, as long as it leaves the file alone and fails too. -/
theorem Replaces.tryCatch {recover : NodeError → AccountsM α} (hm : Replaces P count path bytes m)
    (hquiet : ∀ error, Moves (Quiet path) (recover error))
    (hfails : ∀ error s, ∃ error', (exec (recover error) s).1 = .error error') :
    Replaces P count path bytes (tryCatch m recover) := by
  intro s result s' hP h
  rw [exec_tryCatch] at h
  cases hfirst : exec m s with
  | mk first s₁ =>
    rw [hfirst] at h
    rcases hm s first s₁ hP hfirst with ⟨⟨a, rfl⟩, hall, hwritten⟩ | ⟨⟨error, rfl⟩, hall, hrest⟩
    · obtain ⟨rfl, rfl⟩ := Prod.mk.inj h
      exact .inl ⟨⟨a, rfl⟩, hall, hwritten⟩
    obtain ⟨error', herror⟩ := hfails error s₁
    have hresult : result = .error error' := by
      rw [← herror]
      exact (congrArg Prod.fst h).symm
    exact .inr ⟨⟨error', hresult⟩, hall, (Quiet.steps path).trans hrest ((hquiet error).of_exec h)⟩

theorem Replaces.bind_pure (f : α → β) (hm : Replaces P count path bytes m) :
    Replaces P count path bytes (m >>= fun a => pure (f a)) := by
  intro s result s' hP h
  obtain ⟨first, hfirst, rfl⟩ := exec_bind_pure h
  rcases hm s first s' hP hfirst with ⟨⟨a, rfl⟩, hrest⟩ | ⟨⟨error, rfl⟩, hrest⟩
  · exact .inl ⟨⟨f a, rfl⟩, hrest⟩
  · exact .inr ⟨⟨error, rfl⟩, hrest⟩

theorem cleanUp_fails (hne : source ≠ path) (error : NodeError) : Moves (Quiet path)
        (do MonadExcept.tryCatch (removeFile source) (fun _ => pure ⟨⟩); throw error :
          AccountsM PUnit) ∧ ∀ s, ∃ error', (exec
        (do MonadExcept.tryCatch (removeFile source) (fun _ => pure ⟨⟩); throw error :
          AccountsM PUnit) s).1 = .error error' := by
  constructor
  · refine Moves.bind ?_ fun _ => Moves.throw error
    exact Moves.tryCatch (Quiet.removeFile hne) fun _ => Moves.pure _
  intro s
  rw [exec_bind]
  cases exec (MonadExcept.tryCatch (removeFile source) fun _ => pure ⟨⟩) s with
  | mk result s' =>
    cases result with
    | ok => exact ⟨error, rfl⟩
    | error error' => exact ⟨error', rfl⟩

theorem Replaces.atomicJson (processId : Nat) (encoded : List UInt8) :
    Replaces (fun _ => True) 5 path (encoded ++ [10]) (atomicJson processId path encoded) := by
  have hne := temporary_ne processId path
  unfold Accounts.atomicJson
  refine Replaces.operate_bind (Q := fun _ => True) (Quiet.createDirAll _) (fun _ _ => trivial) ?_
  refine Replaces.operate_bind (Q := fun _ => True) Quiet.setPermissions (fun _ _ => trivial) ?_
  refine Replaces.tryCatch ?_ (fun error => (cleanUp_fails hne error).1)
    fun error => (cleanUp_fails hne error).2
  have hrename : Replaces
      (fun s => s.disk.files.lookup (temporary processId path) = some (encoded ++ [10])) 2 path
      (encoded ++ [10])
      (do setPermissions; Accounts.rename (temporary processId path) path) :=
    Replaces.operate_bind Quiet.setPermissions (fun _ h => h) Replaces.rename
  exact Replaces.operate_bind (Quiet.writeFile hne _) (fun _ _ => AList.lookup_insert _) hrename

end

/-! ### Calls -/

/-- How many file operations a call comes to, if it comes to any. -/
def AccountsCall.operations (call : AccountsCall) : Nat :=
  match call.request with
  | .upsert _ => 7
  | .setDefault _ => 5

namespace AccountStore

variable {store : AccountStore} {data data' : AccountsFile} {s s' : AccountsState}

def encoding (store : AccountStore) (data : AccountsFile) : List UInt8 :=
  store.json.toVecPretty data ++ [10]

theorem replaces_save (data : AccountsFile) :
    Replaces (fun s => s.data = data) 5 store.paths.accounts (store.encoding data) store.save := by
  intro s result s' hdata h
  unfold save at h
  rw [exec_bind_ok (exec_get s), hdata] at h
  exact Replaces.atomicJson _ _ s result s' trivial h

/-- The handler refuses and does nothing, or has its edit in memory before it saves. -/
def Serves (store : AccountStore) (edit : AccountsFile → Except NodeError AccountsFile)
    (count : Nat) {α : Type} (m : AccountsM α) : Prop :=
  ∀ s result s', exec m s = (result, s') →
    (∃ error, edit s.data = .error error ∧ result = .error error ∧ s' = s) ∨
      ∃ data, edit s.data = .ok data ∧
        (((∃ a, result = .ok a) ∧ AllDone count s.outcomes ∧
            Written store.paths.accounts (store.encoding data) { s with data } s') ∨
          ((∃ error, result = .error error) ∧ ¬AllDone count s.outcomes ∧
            Quiet store.paths.accounts { s with data } s'))

theorem Serves.map {α β : Type} {edit : AccountsFile → Except NodeError AccountsFile}
    {count : Nat} {m : AccountsM α} (hm : Serves store edit count m) (f : α → β) :
    Serves store edit count (f <$> m) := by
  intro s result s' h
  rw [exec_map] at h
  cases hfirst : exec m s with
  | mk first s₁ =>
    rw [hfirst] at h
    obtain ⟨rfl, rfl⟩ := Prod.mk.inj h
    rcases hm s first s₁ hfirst with ⟨error, hedit, rfl, hs⟩ | ⟨data, hedit, hserved⟩
    · exact .inl ⟨error, hedit, rfl, hs⟩
    refine .inr ⟨data, hedit, ?_⟩
    rcases hserved with ⟨⟨a, rfl⟩, hrest⟩ | ⟨⟨error, rfl⟩, hrest⟩
    · exact .inl ⟨⟨f a, rfl⟩, hrest⟩
    · exact .inr ⟨⟨error, rfl⟩, hrest⟩

theorem serves_upsert (params : AccountUpsertParams) (now : Int) :
    Serves store (fun data => Prod.fst <$> store.upsertData data params now) 7
      (store.upsert params now) := by
  intro s result s' h
  unfold upsert at h
  rw [exec_bind_ok (exec_get s)] at h
  cases hedit : store.upsertData s.data params now with
  | error error =>
    rw [hedit] at h
    obtain ⟨rfl, rfl⟩ := Prod.mk.inj h
    exact .inl ⟨error, congrArg (Prod.fst <$> ·) hedit, rfl, rfl⟩
  | ok edit =>
    rw [hedit] at h
    have hsaves : Replaces (fun s => s.data = edit.1) 7 store.paths.accounts (store.encoding edit.1)
        (do
          createDirAll (store.configHome edit.2)
          setPermissions
          store.save
          return edit.2) :=
      Replaces.operate_bind (Quiet.createDirAll _) (fun _ h => h)
        (Replaces.operate_bind Quiet.setPermissions (fun _ h => h)
          ((replaces_save edit.1).bind_pure fun _ => edit.2))
    exact .inr ⟨edit.1, congrArg (Prod.fst <$> ·) hedit,
      hsaves { s with data := edit.1 } result s' rfl h⟩

theorem serves_setDefault (params : AccountSetDefaultParams) :
    Serves store (fun data => setDefaultData data params) 5 (store.setDefault params) := by
  intro s result s' h
  unfold setDefault at h
  rw [exec_bind_ok (exec_get s)] at h
  cases hedit : setDefaultData s.data params with
  | error error =>
    rw [hedit] at h
    obtain ⟨rfl, rfl⟩ := Prod.mk.inj h
    exact .inl ⟨error, hedit, rfl, rfl⟩
  | ok data =>
    rw [hedit] at h
    exact .inr ⟨data, hedit, replaces_save data { s with data } result s' rfl h⟩

theorem serves_answer (call : AccountsCall) :
    Serves store (fun data => store.edited data call) call.operations (store.answer call) := by
  obtain ⟨request, now, outcomes⟩ := call
  cases request with
  | upsert params => exact (serves_upsert params now).map some
  | setDefault params => exact (serves_setDefault params).map fun _ => none

/-! ### Runs -/

/-- A file that loads, as a valid catalog. -/
def Loads (store : AccountStore) (disk : AccountsDisk) : Prop := ∃ data, store.load disk = .ok data

variable {disk : AccountsDisk} {call : AccountsCall}

theorem loads_iff :
    store.Loads disk ↔ ∃ data, store.parse (store.accountsFile disk) = .ok data ∧ Valid data := by
  unfold Loads load
  constructor
  · rintro ⟨data, h⟩
    cases hparse : store.parse (store.accountsFile disk) with
    | error error => rw [hparse] at h; cases h
    | ok found =>
      rw [hparse] at h
      refine ⟨found, rfl, validate_eq_ok.mp ?_⟩
      cases hvalid : found.validate with
      | ok => rfl
      | error error =>
        simp only [bind, Except.bind] at h
        rw [hvalid] at h
        cases h
  · rintro ⟨data, hparse, hvalid⟩
    refine ⟨data, ?_⟩
    rw [hparse]
    simp [bind, Except.bind, validate_eq_ok.mpr hvalid, pure, Except.pure]

/-- The catalog in memory is valid, and so was every file there ever was. -/
structure Sound (store : AccountStore) (s : AccountsState) : Prop where
  valid : Valid s.data
  now : store.Loads s.disk
  trace : ∀ disk ∈ s.trace, store.Loads disk

theorem Loads.congr {disk disk' : AccountsDisk} (h : store.Loads disk)
    (hsame : disk'.files.lookup store.paths.accounts = disk.files.lookup store.paths.accounts) :
    store.Loads disk' := by
  unfold Loads load accountsFile at *
  rwa [hsame]

section
variable (hjson : store.json.RoundTrips)
include hjson

theorem parse_encoding (data : AccountsFile) :
    store.parse (some (store.encoding data)) = .ok data := by
  unfold parse encoding
  dsimp only
  rw [hjson data]

theorem Loads.of_encoding (hvalid : Valid data)
    (hfile : disk.files.lookup store.paths.accounts = some (store.encoding data)) :
    store.Loads disk := by
  refine loads_iff.mpr ⟨data, ?_, hvalid⟩
  rw [accountsFile, hfile]
  exact parse_encoding hjson data

theorem Sound.serve (hs : store.Sound s) (call : AccountsCall) :
    store.Sound (store.serve s call).1 := by
  cases hexec : exec (store.answer call) { s with outcomes := call.outcomes } with
  | mk result s' =>
    have hserve : store.serve s call = (s', result) := congrArg Prod.swap hexec
    rw [hserve]
    rcases serves_answer call _ _ _ hexec with ⟨-, -, -, rfl⟩ | ⟨data, hedit, hserved⟩
    · exact ⟨hs.valid, hs.now, hs.trace⟩
    have hvalid := Valid.edited hs.valid hedit
    rcases hserved with ⟨-, -, hwritten⟩ | ⟨-, -, hquiet⟩
    · refine ⟨hwritten.data ▸ hvalid, Loads.of_encoding hjson hvalid hwritten.file, ?_⟩
      intro disk hdisk
      rcases hwritten.trace disk hdisk with hold | hsame | hnew
      · exact hs.trace disk hold
      · exact Loads.congr hs.now hsame
      · exact Loads.of_encoding hjson hvalid hnew
    refine ⟨hquiet.data ▸ hvalid, Loads.congr hs.now hquiet.file, ?_⟩
    intro disk hdisk
    rcases hquiet.trace disk hdisk with hold | hsame
    · exact hs.trace disk hold
    · exact Loads.congr hs.now hsame

theorem saved_serve (hok : ∃ reply, (store.serve s call).2 = .ok reply) :
    store.parse (store.accountsFile (store.serve s call).1.disk) =
      .ok (store.serve s call).1.data := by
  cases hexec : exec (store.answer call) { s with outcomes := call.outcomes } with
  | mk result s' =>
    have hserve : store.serve s call = (s', result) := congrArg Prod.swap hexec
    rw [hserve] at hok ⊢
    obtain ⟨reply, rfl⟩ := hok
    rcases serves_answer call _ _ _ hexec with
      ⟨error, -, herror, -⟩ | ⟨data, -, ⟨-, -, hwritten⟩ | ⟨⟨error, herror⟩, -⟩⟩
    · cases herror
    · rw [accountsFile, hwritten.file, hwritten.data]
      exact parse_encoding hjson data
    · cases herror

end

theorem nodup_serve (h : (s.data.profiles.map (·.id)).Nodup) :
    ((store.serve s call).1.data.profiles.map (·.id)).Nodup := by
  cases hexec : exec (store.answer call) { s with outcomes := call.outcomes } with
  | mk result s' =>
    have hserve : store.serve s call = (s', result) := congrArg Prod.swap hexec
    rw [hserve]
    rcases serves_answer call _ _ _ hexec with
      ⟨-, -, -, rfl⟩ | ⟨data, hedit, ⟨-, -, hwritten⟩ | ⟨-, -, hquiet⟩⟩
    · exact h
    · rw [hwritten.data]
      exact edited_nodup h hedit
    · rw [hquiet.data]
      exact edited_nodup h hedit

def NothingToUndo (store : AccountStore) (s : AccountsState) (call : AccountsCall) : Prop :=
  AllDone call.operations call.outcomes ∨
    ∀ data, store.edited s.data call = .ok data → data = s.data

/-- A call that fails has changed nothing in memory, just when there is nothing to undo. -/
theorem serve_error_iff (s : AccountsState) (call : AccountsCall) :
    ((∃ error, (store.serve s call).2 = .error error) → (store.serve s call).1.data = s.data) ↔
      store.NothingToUndo s call := by
  unfold NothingToUndo
  cases hexec : exec (store.answer call) { s with outcomes := call.outcomes } with
  | mk result s' =>
    have hserve : store.serve s call = (s', result) := congrArg Prod.swap hexec
    rw [hserve]
    dsimp only
    rcases serves_answer call _ _ _ hexec with ⟨error, hedit, rfl, rfl⟩ | ⟨data, hedit, hserved⟩
    · refine iff_of_true (fun _ => rfl) (.inr fun data hdata => ?_)
      exact absurd (hedit.symm.trans hdata) (fun h => by cases h)
    rcases hserved with ⟨⟨reply, rfl⟩, hall, -⟩ | ⟨⟨error, rfl⟩, hall, hquiet⟩
    · exact iff_of_true (fun ⟨error, h⟩ => by cases h) (.inl hall)
    constructor
    · intro h
      refine .inr fun other hother => ?_
      obtain rfl : other = data := Except.ok.inj (hother.symm.trans hedit)
      exact hquiet.data.symm.trans (h ⟨error, rfl⟩)
    · rintro (hdone | hsame) -
      · exact absurd hdone hall
      · exact hquiet.data.trans (hsame data hedit)

theorem serve_of_allDone (hall : AllDone call.operations call.outcomes)
    (hedit : store.edited s.data call = .ok data) :
    (∃ reply, (store.serve s call).2 = .ok reply) ∧ (store.serve s call).1.data = data := by
  cases hexec : exec (store.answer call) { s with outcomes := call.outcomes } with
  | mk result s' =>
    have hserve : store.serve s call = (s', result) := congrArg Prod.swap hexec
    rw [hserve]
    rcases serves_answer call _ _ _ hexec with ⟨error, herror, -, -⟩ | ⟨found, hfound, hserved⟩
    · exact absurd (hedit.symm.trans herror) (fun h => by cases h)
    obtain rfl : found = data := Except.ok.inj (hfound.symm.trans hedit)
    rcases hserved with ⟨hok, -, hwritten⟩ | ⟨-, hfails, -⟩
    · exact ⟨hok, hwritten.data⟩
    · exact absurd hall hfails

/-- What holds of a run whatever fails in it. -/
structure Durable (store : AccountStore) (s₀ : AccountsState) (calls : List AccountsCall) :
    Prop where
  /-- At every moment the accounts file loads. -/
  loads : ∀ disk ∈ (run store.serve s₀ calls).1.trace, store.Loads disk
  /-- A call that returns has left in memory what is on disk. -/
  saved : ∀ e ∈ (run store.serve s₀ calls).2, (∃ reply, e.output = .ok reply) →
    store.parse (store.accountsFile e.after.disk) = .ok e.after.data
  /-- Every default names a profile of its provider. -/
  valid : ∀ e ∈ (run store.serve s₀ calls).2, Valid e.after.data
  /-- No two profiles come to have one id. -/
  unique : (s₀.data.profiles.map (·.id)).Nodup →
    ∀ e ∈ (run store.serve s₀ calls).2, (e.after.data.profiles.map (·.id)).Nodup

theorem Sound.of_loaded (hload : store.loaded disk = .ok s) : store.Sound s := by
  unfold loaded at hload
  cases hdisk : store.load disk with
  | error error => rw [hdisk] at hload; cases hload
  | ok data =>
    rw [hdisk] at hload
    cases hload
    have hloads : store.Loads disk := ⟨data, hdisk⟩
    refine ⟨?_, hloads, ?_⟩
    · obtain ⟨found, hparse, hvalid⟩ := loads_iff.mp hloads
      unfold load at hdisk
      rw [hparse] at hdisk
      simp only [bind, Except.bind] at hdisk
      rw [validate_eq_ok.mpr hvalid] at hdisk
      exact Except.ok.inj hdisk ▸ hvalid
    · intro disk' hdisk'
      obtain rfl := mem_singleton.mp hdisk'
      exact hloads

theorem Sound.durable (hjson : store.json.RoundTrips) {s₀ : AccountsState}
    (hs : store.Sound s₀) (calls : List AccountsCall) : store.Durable s₀ calls := by
  have hstep : ∀ s past call, store.Sound s ∧ (∀ e ∈ past, Valid e.after.data) →
      store.Sound (store.serve s call).1 ∧
        ∀ e ∈ taken store.serve s call :: past, Valid e.after.data := by
    rintro s past call ⟨hsound, hvalid⟩
    have hnext := hsound.serve hjson call
    exact ⟨hnext, forall_mem_cons.mpr ⟨hnext.valid, hvalid⟩⟩
  have hsound := run_induction (P := fun s past =>
    store.Sound s ∧ ∀ e ∈ past, Valid e.after.data) ⟨hs, by simp⟩ hstep calls
  refine ⟨hsound.1.trace, ?_, hsound.2, ?_⟩
  · intro e he hok
    have htaken := run_mem he
    rw [htaken] at hok ⊢
    exact saved_serve hjson hok
  intro hnodup
  refine (run_induction (f := store.serve) (P := fun s past =>
    (s.data.profiles.map (·.id)).Nodup ∧
      ∀ e ∈ past, (e.after.data.profiles.map (·.id)).Nodup) ⟨hnodup, by simp⟩ ?_ calls).2
  rintro s past call ⟨hnow, hpast⟩
  have hnext : ((store.serve s call).1.data.profiles.map (·.id)).Nodup := nodup_serve hnow
  exact ⟨hnext, forall_mem_cons.mpr ⟨hnext, hpast⟩⟩

/-- From a store that was loaded, whatever fails: the file loads at every moment, memory is
what is on disk after every call that returns, and the calls that fail leave memory alone
just when none of them has an edit to undo. -/
theorem failures_kept_iff (hjson : store.json.RoundTrips) {disk : AccountsDisk}
    {s₀ : AccountsState} (hload : store.loaded disk = .ok s₀) (calls : List AccountsCall) :
    store.Durable s₀ calls ∧
      ((∀ e ∈ (run store.serve s₀ calls).2, (∃ error, e.output = .error error) →
          e.after.data = e.before.data) ↔
        ∀ e ∈ (run store.serve s₀ calls).2, store.NothingToUndo e.before e.input) := by
  refine ⟨(Sound.of_loaded hload).durable hjson calls, forall₂_congr fun e he => ?_⟩
  rw [run_mem he]
  exact serve_error_iff e.before e.input

end AccountStore

/-! ### A run with a failure -/

instance encodableChar : Encodable Char := .ofLeftInverse Char.toNat Char.ofNat Char.ofNat_toNat

instance encodableString : Encodable String :=
  .ofLeftInverse String.toList String.ofList fun _ => String.ofList_toList

instance encodableProviderKind : Encodable ProviderKind :=
  .ofLeftInverse (fun provider => decide (provider = .claude))
    (fun isClaude => if isClaude then .claude else .codex) fun provider => by cases provider <;> rfl

instance encodableAccountProfile : Encodable AccountProfile :=
  .ofLeftInverse
    (fun profile => (profile.id, profile.provider, profile.label, profile.email,
      profile.organization, profile.tags, profile.createdAt, profile.updatedAt))
    (fun t => ⟨t.1, t.2.1, t.2.2.1, t.2.2.2.1, t.2.2.2.2.1, t.2.2.2.2.2.1, t.2.2.2.2.2.2.1,
      t.2.2.2.2.2.2.2⟩)
    fun _ => rfl

instance encodableAccountsFile : Encodable AccountsFile :=
  .ofLeftInverse (fun data => (data.profiles, data.defaults.claude, data.defaults.codex))
    (fun t => ⟨t.1, t.2.1, t.2.2⟩) fun _ => rfl

/-- Two profiles, the way they end up in the file. -/
def workAndHome : AccountsFile where
  profiles :=
    [{ id := "work", provider := .codex, label := "Work", createdAt := 1, updatedAt := 1 },
      { id := "home", provider := .claude, label := "Home", createdAt := 2, updatedAt := 2 }]

def workAndHomeText : List Char :=
  '\x7b' :: "
  \"profiles\": [
    \x7b
      \"id\": \"work\",
      \"provider\": \"codex\",
      \"label\": \"Work\",
      \"tags\": [],
      \"createdAt\": 1,
      \"updatedAt\": 1
    \x7d,
    \x7b
      \"id\": \"home\",
      \"provider\": \"claude\",
      \"label\": \"Home\",
      \"tags\": [],
      \"createdAt\": 2,
      \"updatedAt\": 2
    \x7d
  ],
  \"defaults\": \x7b\x7d
\x7d".toList

/-- The text is ASCII. -/
def workAndHomeBytes : List UInt8 := workAndHomeText.map fun c => UInt8.ofNat c.toNat

/-- JSON for these two; any other catalog is a row of zeros. -/
def workAndHomeJson : AccountsJson where
  toVecPretty data :=
    if data = workAndHome then workAndHomeBytes
    else List.replicate (Encodable.encode data) 0
  fromSlice bytes :=
    if bytes = workAndHomeBytes ++ [10] then .ok workAndHome
    else
      match Encodable.decode (bytes.length - 1) with
      | some data => .ok data
      | none => .error "expected value at line 1 column 1"

theorem workAndHomeJson_roundTrips : workAndHomeJson.RoundTrips := by
  intro data
  unfold workAndHomeJson
  by_cases hdata : data = workAndHome
  · simp only [if_pos hdata, if_true]
    rw [hdata]
  have hne : List.replicate (Encodable.encode data) (0 : UInt8) ≠ workAndHomeBytes := by
    intro h
    have hhead : workAndHomeBytes.head? = some 123 := rfl
    rw [← h, head?_replicate] at hhead
    split at hhead
    · cases hhead
    · exact absurd (Option.some.inj hhead) (by decide)
  simp only [if_neg hdata]
  rw [if_neg fun h => hne (append_cancel_right h), length_append,
    length_replicate, length_singleton, Nat.add_sub_cancel, Encodable.encodek]

def workAndHomeStore : AccountStore where
  nodeId := "forge"
  paths := .forRoot "/var/node"
  json := workAndHomeJson
  trim text := text

def addWork : AccountsCall where
  request := .upsert { id := "work", provider := .codex, label := "Work" }
  now := 1
  outcomes := [.failed]

def addHome : AccountsCall where
  request := .upsert { id := "home", provider := .claude, label := "Home" }
  now := 2

/-- The directory of the first profile cannot be made, and its profile is in memory. -/
theorem addWork_fails : (workAndHomeStore.serve { trace := [{}] } addWork).2 = .error .io ∧
      (workAndHomeStore.serve { trace := [{}] } addWork).1.data =
        { profiles := workAndHome.profiles.take 1 } := by
  decide +kernel

theorem addHome_edits :
    workAndHomeStore.edited { profiles := workAndHome.profiles.take 1 } addHome =
      .ok workAndHome := by
  decide +kernel

/-- The profile of a call that failed is in memory, and soon on disk. -/
theorem failed_upsert_kept : ∃ s₀, workAndHomeStore.loaded {} = .ok s₀ ∧
      (∃ e ∈ (run workAndHomeStore.serve s₀ [addWork, addHome]).2,
        e.output = .error .io ∧ e.before.data = {} ∧ e.after.data ≠ {}) ∧
      workAndHomeStore.parse (workAndHomeStore.accountsFile
        (run workAndHomeStore.serve s₀ [addWork, addHome]).1.disk) = .ok workAndHome := by
  refine ⟨{ trace := [{}] }, rfl, ?_, ?_⟩
  · refine ⟨_, mem_cons_of_mem _ mem_cons_self, addWork_fails.1, rfl, ?_⟩
    intro h
    have hdata := addWork_fails.2.symm.trans h
    exact absurd hdata (by decide)
  have hedit : workAndHomeStore.edited
      (workAndHomeStore.serve { trace := [{}] } addWork).1.data addHome = .ok workAndHome := by
    rw [addWork_fails.2]
    exact addHome_edits
  have hhome := serve_of_allDone (by decide) hedit
  exact (saved_serve workAndHomeJson_roundTrips hhome.1).trans (congrArg Except.ok hhome.2)

/-- A disk with both profiles on it. -/
def workAndHomeDisk : AccountsDisk where
  files := AList.insert workAndHomeStore.paths.accounts (workAndHomeStore.encoding workAndHome) ∅

/-- An upsert that says nothing new, and fails. -/
theorem failures_kept_iff_workAndHome : ∃ s₀, workAndHomeStore.loaded workAndHomeDisk = .ok s₀ ∧
      workAndHomeStore.Durable s₀ [{ addHome with outcomes := [.failed] }] ∧
      ∀ e ∈ (run workAndHomeStore.serve s₀ [{ addHome with outcomes := [.failed] }]).2,
        (∃ error, e.output = .error error) → e.after.data = e.before.data := by
  have hfile : workAndHomeStore.accountsFile workAndHomeDisk =
      some (workAndHomeStore.encoding workAndHome) := AList.lookup_insert _
  have hload : workAndHomeStore.loaded workAndHomeDisk =
      .ok { data := workAndHome, disk := workAndHomeDisk, trace := [workAndHomeDisk] } := by
    unfold AccountStore.loaded AccountStore.load
    have hvalid : workAndHome.validate = .ok ⟨⟩ := by decide +kernel
    rw [hfile, parse_encoding workAndHomeJson_roundTrips]
    simp only [bind, Except.bind]
    rw [hvalid]
    rfl
  have hkept := failures_kept_iff workAndHomeJson_roundTrips hload
    [{ addHome with outcomes := [.failed] }]
  refine ⟨_, hload, hkept.1, hkept.2.mpr fun e he => .inr fun data hdata => ?_⟩
  obtain rfl := mem_singleton.mp he
  have hedit : workAndHomeStore.edited workAndHome { addHome with outcomes := [.failed] } =
      .ok workAndHome := by decide +kernel
  exact Except.ok.inj (hdata.symm.trans hedit)

end Diri.Accounts
