/-
The account profiles a node keeps.

The catalog is held in memory and written as a whole to one file.  A change is made in
memory first; then come the file operations, each of which may fail, and a save that fails
leaves the old file.  The trace is every disk there was after a file operation, last first.

The processes a node starts and the accounts' own files are elsewhere.  What serde writes
and reads, `str::trim` and the clock are arguments.
-/
import Diri.Node.Checkpoint

namespace Diri.Accounts

structure AccountProfile where
  id : String
  provider : ProviderKind
  label : String
  email : Option String := none
  organization : Option String := none
  tags : List String := []
  createdAt : Int
  updatedAt : Int
  deriving DecidableEq, Repr

structure AccountUpsertParams where
  id : String
  provider : ProviderKind
  label : String
  email : Option String := none
  organization : Option String := none
  tags : List String := []
  deriving DecidableEq, Repr

structure AccountSetDefaultParams where
  provider : ProviderKind
  profileId : String
  deriving DecidableEq, Repr

structure AccountInstallation where
  profileId : String
  provider : ProviderKind
  nodeId : String
  status : InstallationStatus
  configHome : String
  identity : Option String := none
  plan : Option String := none
  lastError : Option String := none
  checkedAt : Option Int := none
  deriving DecidableEq, Repr

structure Defaults where
  claude : Option String := none
  codex : Option String := none
  deriving DecidableEq, Repr

namespace Defaults

def get (defaults : Defaults) : ProviderKind → Option String
  | .claude => defaults.claude
  | .codex => defaults.codex

def insert (defaults : Defaults) (provider : ProviderKind) (profileId : String) : Defaults :=
  match provider with
  | .claude => { defaults with claude := some profileId }
  | .codex => { defaults with codex := some profileId }

@[simp] theorem get_insert (defaults : Defaults) (provider other : ProviderKind)
    (profileId : String) : (defaults.insert provider profileId).get other =
      if other = provider then some profileId else defaults.get other := by
  cases provider <;> cases other <;> rfl

end Defaults

structure AccountsFile where
  profiles : List AccountProfile := []
  defaults : Defaults := {}
  deriving DecidableEq, Repr

structure AccountCatalogResult where
  profiles : List AccountProfile
  installations : List AccountInstallation
  defaults : Defaults := {}
  deriving DecidableEq, Repr

/-- The place of a file: its directory, and its name there. -/
structure FilePath where
  parent : String
  fileName : String
  deriving DecidableEq, Repr

/-- The paths of a node that have to do with its accounts. -/
structure NodePaths where
  accounts : FilePath
  accountsRoot : String

def NodePaths.forRoot (root : String) : NodePaths where
  accounts := ⟨root, "accounts.json"⟩
  accountsRoot := Path.push root "accounts"

/-- `serde_json::to_vec_pretty` and `serde_json::from_slice`; an error is its text. -/
structure AccountsJson where
  toVecPretty : AccountsFile → List UInt8
  fromSlice : List UInt8 → Except String AccountsFile

/-- What was written, with the line's end after it, is read back. -/
def AccountsJson.RoundTrips (json : AccountsJson) : Prop :=
  ∀ data, json.fromSlice (json.toVecPretty data ++ [10]) = .ok data

/-! ### The disk -/

structure AccountsDisk where
  files : Table FilePath (List UInt8) := ∅
  /-- The directories that were made here. -/
  directories : List String := []

/-- How a file operation ends.  A write that fails may have got as far as some bytes. -/
inductive Outcome
  | done
  | failed
  | cut (written : Nat)
  deriving DecidableEq, Repr

/-- The catalog in memory, the disk, and how the coming file operations end; after these
none fails. -/
structure AccountsState where
  data : AccountsFile := {}
  disk : AccountsDisk := {}
  outcomes : List Outcome := []
  trace : List AccountsDisk := []

abbrev AccountsM (α : Type) : Type := Handler AccountsState NodeError α

def AccountsState.after (state : AccountsState) (disk : AccountsDisk) : AccountsState :=
  { state with disk, outcomes := state.outcomes.tail, trace := disk :: state.trace }

/-- One file operation: what it makes of the disk, whatever its end. -/
def operate (change : Outcome → AccountsDisk → AccountsDisk) : AccountsM PUnit := do
  let state ← get
  let outcome := state.outcomes.headD .done
  modify fun state => state.after (change outcome state.disk)
  if outcome = .done then pure ⟨⟩ else throw .io

def createDirAll (path : String) : AccountsM PUnit :=
  operate fun outcome disk =>
    if outcome = .done then { disk with directories := path :: disk.directories } else disk

/-- The permissions are not kept here. -/
def setPermissions : AccountsM PUnit := operate fun _ disk => disk

def writeFile (path : FilePath) (bytes : List UInt8) : AccountsM PUnit :=
  operate fun outcome disk =>
    match outcome with
    | .done => { disk with files := disk.files.insert path bytes }
    | .failed => disk
    | .cut written => { disk with files := disk.files.insert path (bytes.take written) }

def rename (source target : FilePath) : AccountsM PUnit := do
  match (← get).disk.files.lookup source with
  | none => throw .io
  | some bytes =>
    operate fun outcome disk =>
      if outcome = .done then
        { disk with files := (disk.files.erase source).insert target bytes }
      else disk

def removeFile (path : FilePath) : AccountsM PUnit :=
  operate fun outcome disk =>
    if outcome = .done then { disk with files := disk.files.erase path } else disk

/-- Where a file is written before it takes the place of the old one. -/
def temporary (processId : Nat) (path : FilePath) : FilePath :=
  ⟨path.parent, "." ++ path.fileName ++ ".tmp-" ++ toString processId⟩

def atomicJson (processId : Nat) (path : FilePath) (encoded : List UInt8) : AccountsM PUnit := do
  createDirAll path.parent
  setPermissions
  let temporary := temporary processId path
  tryCatch
    (do
      writeFile temporary (encoded ++ [10])
      setPermissions
      rename temporary path)
    (fun error => do
      tryCatch (removeFile temporary) (fun _ => pure ⟨⟩)
      throw error)

/-! ### Checks -/

def isProfileByte (byte : UInt8) : Bool :=
  let c := Char.ofNat byte.toNat
  c.isAlphanum || c = '-' || c = '_' || c = '.'

def ValidProfileId (id : String) : Prop :=
  ¬(id = "" ∨ 80 < id.utf8ByteSize ∨ ¬id.toUTF8.toList.all isProfileByte ∨ id = "." ∨ id = "..")

instance (id : String) : Decidable (ValidProfileId id) :=
  inferInstanceAs (Decidable ¬(id = "" ∨ 80 < id.utf8ByteSize ∨
    ¬id.toUTF8.toList.all isProfileByte ∨ id = "." ∨ id = ".."))

def validateProfileId (id : String) : Except NodeError Unit :=
  if ValidProfileId id then .ok ⟨⟩
  else .error (.badRequest
    "profile id must use 1-80 letters, numbers, dots, dashes, or underscores")

def validateProfiles : List AccountProfile → Except NodeError Unit
  | [] => .ok ⟨⟩
  | profile :: rest => do
      validateProfileId profile.id
      validateProfiles rest

def AccountsFile.find (data : AccountsFile) (id : String) : Option AccountProfile :=
  data.profiles.find? fun profile => profile.id = id

def AccountsFile.validateDefault (data : AccountsFile) (provider : ProviderKind) :
    Except NodeError Unit :=
  match data.defaults.get provider with
  | none => .ok ⟨⟩
  | some profileId =>
    match data.find profileId with
    | none => .error (.protocol ("default profile `" ++ profileId ++ "` is missing"))
    | some profile =>
      if profile.provider ≠ provider then
        .error (.protocol ("default profile `" ++ profileId ++ "` has the wrong provider"))
      else .ok ⟨⟩

def AccountsFile.validate (data : AccountsFile) : Except NodeError Unit := do
  validateProfiles data.profiles
  data.validateDefault .claude
  data.validateDefault .codex

/-! ### The store -/

structure AccountStore where
  nodeId : String
  paths : NodePaths
  processId : Nat := 0
  json : AccountsJson
  trim : String → String

namespace AccountStore

variable (store : AccountStore)

/-- What `load` makes of the accounts file, if it is there. -/
def parse : Option (List UInt8) → Except NodeError AccountsFile
  | none => .ok {}
  | some bytes =>
    match store.json.fromSlice bytes with
    | .ok data => .ok data
    | .error message => .error (.json message)

def accountsFile (disk : AccountsDisk) : Option (List UInt8) :=
  disk.files.lookup store.paths.accounts

def load (disk : AccountsDisk) : Except NodeError AccountsFile := do
  let data ← store.parse (store.accountsFile disk)
  data.validate
  return data

def profile (data : AccountsFile) (id : String) : Except NodeError AccountProfile :=
  match data.find id with
  | some profile => .ok profile
  | none => .error (.notFound ("account profile `" ++ id ++ "`"))

def configHome (profile : AccountProfile) : String :=
  Path.push (Path.push store.paths.accountsRoot profile.provider.asStr) profile.id

def installation (profile : AccountProfile) (status : InstallationStatus) :
    AccountInstallation where
  profileId := profile.id
  provider := profile.provider
  nodeId := store.nodeId
  status := status
  configHome := store.configHome profile
  identity := profile.email

def catalog (data : AccountsFile) : AccountCatalogResult where
  profiles := data.profiles
  installations := data.profiles.map fun profile => store.installation profile .signedOut
  defaults := data.defaults

def save : AccountsM PUnit := do
  atomicJson store.processId store.paths.accounts (store.json.toVecPretty (← get).data)

/-- The profile as it is now to be. -/
def revised (params : AccountUpsertParams) (now : Int) (existing : AccountProfile) :
    AccountProfile :=
  { existing with
    label := params.label
    email := params.email
    organization := params.organization
    tags := params.tags
    updatedAt := now }

/-- A profile that was not there before. -/
def created (params : AccountUpsertParams) (now : Int) : AccountProfile where
  id := params.id
  provider := params.provider
  label := params.label
  email := params.email
  organization := params.organization
  tags := params.tags
  createdAt := now
  updatedAt := now

/-- The first profile of an id, changed in place. -/
def reviseFirst (id : String) (revise : AccountProfile → AccountProfile) :
    List AccountProfile → List AccountProfile
  | [] => []
  | profile :: rest =>
    if profile.id = id then revise profile :: rest
    else profile :: reviseFirst id revise rest

/-- What an upsert makes of the catalog in memory, and the profile it is about. -/
def upsertData (data : AccountsFile) (params : AccountUpsertParams) (now : Int) :
    Except NodeError (AccountsFile × AccountProfile) := do
  validateProfileId params.id
  if store.trim params.label = "" then
    throw (.badRequest "account label cannot be empty")
  match data.find params.id with
  | some existing =>
    if existing.provider ≠ params.provider then
      throw (.conflict "an account profile cannot change provider")
    let profiles := reviseFirst params.id (revised params now) data.profiles
    return ({ data with profiles }, revised params now existing)
  | none =>
    let profile := created params now
    return ({ data with profiles := data.profiles ++ [profile] }, profile)

/-- What a new default makes of the catalog in memory. -/
def setDefaultData (data : AccountsFile) (params : AccountSetDefaultParams) :
    Except NodeError AccountsFile := do
  let found ← profile data params.profileId
  if found.provider ≠ params.provider then
    throw (.badRequest "default provider does not match the profile")
  return { data with defaults := data.defaults.insert params.provider params.profileId }

def upsert (params : AccountUpsertParams) (now : Int) : AccountsM AccountProfile := do
  match store.upsertData (← get).data params now with
  | .error error => throw error
  | .ok (data, profile) =>
    modify fun state => { state with data }
    createDirAll (store.configHome profile)
    setPermissions
    store.save
    return profile

def setDefault (params : AccountSetDefaultParams) : AccountsM PUnit := do
  match setDefaultData (← get).data params with
  | .error error => throw error
  | .ok data =>
    modify fun state => { state with data }
    store.save

end AccountStore

inductive AccountsRequest
  | upsert (params : AccountUpsertParams)
  | setDefault (params : AccountSetDefaultParams)
  deriving DecidableEq, Repr

/-- A request, with the time and how the file operations end that it comes to. -/
structure AccountsCall where
  request : AccountsRequest
  now : Int := 0
  outcomes : List Outcome := []
  deriving DecidableEq, Repr

namespace AccountStore

variable (store : AccountStore)

def answer (call : AccountsCall) : AccountsM (Option AccountProfile) :=
  match call.request with
  | .upsert params => some <$> store.upsert params call.now
  | .setDefault params => (fun _ => none) <$> store.setDefault params

/-- The store is locked for the whole of a call. -/
def serve (state : AccountsState) (call : AccountsCall) :
    AccountsState × Except NodeError (Option AccountProfile) :=
  ((store.answer call).exec { state with outcomes := call.outcomes }).swap

def loaded (disk : AccountsDisk) : Except NodeError AccountsState := do
  return { data := ← store.load disk, disk, trace := [disk] }

end AccountStore

end Diri.Accounts
