/-
Logins at the providers of accounts.

A login in progress is kept in a table until a poll finds it complete or it is cancelled.
Codex has a server process for each profile, Claude a command for each login; dropping the
handle of a command kills it.  The codex adapter is open here: what is asked of it is in
`Server` and in what the outside answers.

What the outside answers to a request comes with it: the processes, the time, the random
bytes, and what a login command has printed so far.
-/
import Diri.Lib.Json
import Diri.Node.Accounts

namespace Diri.Accounts

open Handler

inductive LoginMode
  | deviceCode
  | browser
  | interactive
  deriving DecidableEq, Repr

structure AccountLoginStartParams where
  profileId : String
  mode : LoginMode := .deviceCode
  deriving DecidableEq, Repr

structure LoginChallenge where
  loginId : String
  profileId : String
  kind : LoginMode
  verificationUrl : Option String := none
  userCode : Option String := none
  output : String := ""
  complete : Bool
  success : Bool
  error : Option String := none
  deriving DecidableEq, Repr

structure LoginInputParams where
  loginId : String
  text : String
  deriving DecidableEq, Repr

structure ProviderCallParams where
  profileId : String
  method : String
  params : Json

structure ProviderCallResult where
  provider : ProviderKind
  method : String
  result : Json

/-- How a process ended, and how that is shown. -/
structure ExitStatus where
  success : Bool
  shown : String
  deriving DecidableEq, Repr

/-- A login in progress.  A command is its process, and whether its input is there. -/
inductive LoginHandle
  | codex (profileId : String) (challenge : LoginChallenge)
  | interactive (profileId : String) (provider : ProviderKind) (child : Nat) (stdin : Bool)
  deriving DecidableEq, Repr

/-- The process that is killed when the handle is dropped. -/
def LoginHandle.child : LoginHandle → Option Nat
  | .codex _ _ => none
  | .interactive _ _ child _ => some child

/-- The servers and logins there are, and the login commands that were dropped. -/
structure ProviderManager (Server : Type) where
  codex : Table String Server := ∅
  logins : Table String LoginHandle := ∅
  dropped : List Nat := []

/-- What the outside answers while a request is served. -/
structure ProviderOutside (Server : Type) where
  now : Int := 0
  spawnCodex : Except NodeError Server := .error .io
  /-- A request to a codex server: what becomes of the server, and the answer. -/
  request : Server → String → Json → Server × Except NodeError Json :=
    fun server _ _ => (server, .error .io)
  claudeStatus : Except NodeError Json := .error .io
  claudeCall : String → Json → Except NodeError Json := fun _ _ => .error .io
  /-- The login command of Claude, and whether its input is there. -/
  spawnClaude : Except String (Nat × Bool) := .error ""
  randomHex : Except NodeError String := .error .io
  tryWait : Except NodeError (Option ExitStatus) := .error .io
  output : List UInt8 := []
  writeInput : Except NodeError Unit := .ok ()
  kill : Except NodeError Unit := .ok ()

/-! ### Answers -/

/-- The text from the first place on where it has the other one. -/
def findFrom (needle text : List Char) : Option (List Char) :=
  text.tails.find? fun rest => needle.isPrefixOf rest

def isClosing (c : Char) : Bool := [')', ']', '\x7d', ',', ';'].contains c

def firstUrl (isWhitespace : Char → Bool) (text : String) : Option String := do
  let start ← (findFrom "https://".toList text.toList) <|> (findFrom "http://".toList text.toList)
  let word := (start.dropWhile isWhitespace).takeWhile fun c => !isWhitespace c
  let url := ((word.dropWhile isClosing).reverse.dropWhile isClosing).reverse
  if url = [] then none else some (String.ofList url)

def codexChallenge (profileId : String) (requested : LoginMode) (response : Json) :
    Except NodeError LoginChallenge :=
  match (response.get "loginId").bind Json.asStr with
  | none => .error (.provider "Codex login returned no login id")
  | some loginId => .ok {
      loginId
      profileId
      kind := requested
      verificationUrl :=
        ((response.get "verificationUrl") <|> (response.get "authUrl")).bind Json.asStr
      userCode := (response.get "userCode").bind Json.asStr
      complete := false
      success := false }

def codexInstallation (store : AccountStore) (profile : AccountProfile) (value : Json)
    (now : Int) : AccountInstallation :=
  let account := value.get "account"
  let status := if account.any fun account => !account.isNull then .ready else .signedOut
  { store.installation profile status with
    identity := ((account.bind (Json.get "email")).bind Json.asStr) <|> profile.email
    plan := (account.bind (Json.get "planType")).bind Json.asStr
    checkedAt := some now }

def claudeInstallation (store : AccountStore) (profile : AccountProfile) (value : Json)
    (now : Int) : AccountInstallation :=
  let ready := ((value.get "loggedIn").bind Json.asBool).getD false
  let status := if ready then .ready else .signedOut
  { store.installation profile status with
    identity := ((value.get "email").bind Json.asStr) <|> profile.email
    plan := (value.get "subscriptionType").bind Json.asStr
    checkedAt := some now }

def allowedMethods : List String :=
  ["account/read", "account/rateLimits/read", "account/usage/read", "thread/list",
    "thread/read", "thread/start", "thread/resume", "thread/fork", "turn/start",
    "turn/interrupt"]

def validateCodexMethod (method : String) : Except NodeError Unit :=
  if method ∈ allowedMethods then .ok ()
  else .error (.badRequest
    ("Codex app-server method " ++ quoted method ++ " is not exposed by the node"))
where
  quoted (text : String) : String := "`" ++ text ++ "`"

def loginParams : LoginMode → Except NodeError Json
  | .deviceCode => .ok (.object [("type", .string "chatgptDeviceCode")])
  | .browser => .ok (.object [("type", .string "chatgpt"), ("appBrand", .string "codex"),
      ("codexStreamlinedLogin", .bool true), ("useHostedLoginSuccessPage", .bool true)])
  | .interactive => .error (.badRequest "Codex login is not an interactive terminal flow")

/-! ### Requests -/

abbrev ProviderM (Server : Type) (α : Type) : Type := Handler (ProviderManager Server) NodeError α

variable {Server : Type}

def given {α : Type} : Except NodeError α → ProviderM Server α
  | .ok a => pure a
  | .error error => throw error

/-- A handle goes out of use: a command is killed. -/
def ProviderManager.dropHandle (manager : ProviderManager Server) (handle : LoginHandle) :
    ProviderManager Server :=
  { manager with dropped := handle.child.toList ++ manager.dropped }

/-- `logins.insert`; a handle that was there under the id is dropped. -/
def ProviderManager.insertLogin (manager : ProviderManager Server) (loginId : String)
    (handle : LoginHandle) : ProviderManager Server :=
  let manager' : ProviderManager Server :=
    match manager.logins.lookup loginId with
    | some old => manager.dropHandle old
    | none => manager
  { manager' with logins := manager.logins.insert loginId handle }

/-- `logins.remove`, by a caller that goes on with the handle. -/
def ProviderManager.removeLogin (manager : ProviderManager Server) (loginId : String) :
    ProviderManager Server :=
  { manager with logins := manager.logins.erase loginId }

def loginNotFound (loginId : String) : NodeError :=
  .notFound ("login session `" ++ loginId ++ "`")

section
variable (isWhitespace : Char → Bool) (store : AccountStore) (data : AccountsFile)
variable (outside : ProviderOutside Server)

/-- The server of a profile, started where there is none. -/
def codexServer (profile : AccountProfile) : ProviderM Server Server := do
  match (← get).codex.lookup profile.id with
  | some server => return server
  | none =>
    let server ← given outside.spawnCodex
    modify fun manager => { manager with codex := manager.codex.insert profile.id server }
    return server

def codexRequest (profile : AccountProfile) (method : String) (params : Json) :
    ProviderM Server Json := do
  let server ← codexServer outside profile
  let answer := outside.request server method params
  modify fun manager => { manager with codex := manager.codex.insert profile.id answer.1 }
  given answer.2

def status (profileId : String) : ProviderM Server AccountInstallation := do
  let profile ← given (AccountStore.profile data profileId)
  match profile.provider with
  | .codex =>
    let value ← codexRequest outside profile "account/read"
      (.object [("refreshToken", .bool false)])
    return codexInstallation store profile value outside.now
  | .claude =>
    let value ← given outside.claudeStatus
    return claudeInstallation store profile value outside.now

def beginClaudeLogin (profile : AccountProfile) : ProviderM Server LoginChallenge := do
  match outside.spawnClaude with
  | .error error => throw (.provider ("could not start Claude: " ++ error))
  | .ok (child, stdin) =>
    let handle := LoginHandle.interactive profile.id .claude child stdin
    match outside.randomHex with
    | .error error =>
      modify fun manager => manager.dropHandle handle
      throw error
    | .ok random =>
      let loginId := "claude-" ++ random
      modify fun manager => manager.insertLogin loginId handle
      return {
        loginId
        profileId := profile.id
        kind := .interactive
        output := "Claude login started on this node; poll for the local sign-in URL."
        complete := false
        success := false }

def beginLogin (params : AccountLoginStartParams) : ProviderM Server LoginChallenge := do
  let profile ← given (AccountStore.profile data params.profileId)
  match profile.provider with
  | .codex =>
    if params.mode = .interactive then
      throw (.badRequest "Codex supports device-code or browser login")
    else
      let server ← codexServer outside profile
      let asked ← given (loginParams params.mode)
      let answer := outside.request server "account/login/start" asked
      modify fun manager => { manager with codex := manager.codex.insert profile.id answer.1 }
      let response ← given answer.2
      let challenge ← given (codexChallenge profile.id params.mode response)
      modify fun manager => manager.insertLogin challenge.loginId (.codex profile.id challenge)
      return challenge
  | .claude =>
    if params.mode = .deviceCode then
      throw (.badRequest "Claude login is interactive; use the forwarded browser flow")
    else beginClaudeLogin outside profile

/-- What a poll says of a login command. -/
def interactiveChallenge (loginId profileId : String) (exit : Option ExitStatus) : LoginChallenge :=
  let text := toStringLossy outside.output
  { loginId
    profileId
    kind := .interactive
    verificationUrl := firstUrl isWhitespace text
    output := text
    complete := exit.isSome
    success := exit.any (·.success)
    error := (exit.filter fun status => !status.success).map fun status =>
      "login process exited with " ++ status.shown }

/-- The rest of a poll, with the handle in hand. -/
def pollHandle (loginId : String) (handle : LoginHandle) : ProviderM Server LoginChallenge := do
  match handle with
  | .codex profileId challenge =>
    let installation ← status store data outside profileId
    let complete := decide (installation.status = .ready)
    let challenge := { challenge with complete, success := complete }
    if !complete then
      modify fun manager => manager.insertLogin loginId (.codex profileId challenge)
    return challenge
  | .interactive profileId _ _ _ =>
    match outside.tryWait with
    | .error error =>
      modify fun manager => manager.dropHandle handle
      throw error
    | .ok exit =>
      let challenge := interactiveChallenge isWhitespace outside loginId profileId exit
      if !challenge.complete then
        modify fun manager => manager.insertLogin loginId handle
      else
        modify fun manager => manager.dropHandle handle
      return challenge

/-- The handle is taken out of the table first. -/
def pollLogin (loginId : String) : ProviderM Server LoginChallenge := do
  match (← get).logins.lookup loginId with
  | none => throw (loginNotFound loginId)
  | some handle =>
    modify fun manager => manager.removeLogin loginId
    pollHandle isWhitespace store data outside loginId handle

def loginInput (params : LoginInputParams) : ProviderM Server Unit := do
  match (← get).logins.lookup params.loginId with
  | some (.interactive _ _ _ stdin) =>
    if stdin then given outside.writeInput
    else throw (.conflict "login input is closed")
  | _ => throw (.badRequest "this login does not accept terminal input")

def cancelHandle (loginId : String) (handle : LoginHandle) : ProviderM Server Unit := do
  match handle with
  | .interactive _ _ _ _ =>
    modify fun manager => manager.dropHandle handle
    given outside.kill
  | .codex profileId _ =>
    match (← get).codex.lookup profileId with
    | none => return
    | some server =>
      let answer := outside.request server "account/login/cancel"
        (.object [("loginId", .string loginId)])
      modify fun manager =>
        { manager with codex := manager.codex.insert profileId answer.1 }

def cancelLogin (loginId : String) : ProviderM Server Unit := do
  match (← get).logins.lookup loginId with
  | none => throw (loginNotFound loginId)
  | some handle =>
    modify fun manager => manager.removeLogin loginId
    cancelHandle outside loginId handle

def call (params : ProviderCallParams) : ProviderM Server ProviderCallResult := do
  let profile ← given (AccountStore.profile data params.profileId)
  match profile.provider with
  | .codex =>
    given (validateCodexMethod params.method)
    let result ← codexRequest outside profile params.method params.params
    return ⟨profile.provider, params.method, result⟩
  | .claude =>
    let result ← given (outside.claudeCall params.method params.params)
    return ⟨profile.provider, params.method, result⟩

end

inductive ProviderRequest
  | status (profileId : String)
  | beginLogin (params : AccountLoginStartParams)
  | pollLogin (loginId : String)
  | loginInput (params : LoginInputParams)
  | cancelLogin (loginId : String)
  | call (params : ProviderCallParams)

inductive ProviderReply
  | installation (installation : AccountInstallation)
  | challenge (challenge : LoginChallenge)
  | result (result : ProviderCallResult)
  | ok

/-- A request, the accounts there are when it is served, and what the outside answers. -/
structure ProviderCall (Server : Type) where
  request : ProviderRequest
  data : AccountsFile := {}
  outside : ProviderOutside Server := {}

section
variable (isWhitespace : Char → Bool) (store : AccountStore)

def answerProvider (call : ProviderCall Server) : ProviderM Server ProviderReply :=
  match call.request with
  | .status profileId => .installation <$> status store call.data call.outside profileId
  | .beginLogin params => .challenge <$> beginLogin call.data call.outside params
  | .pollLogin loginId => .challenge <$> pollLogin isWhitespace store call.data call.outside loginId
  | .loginInput params => (fun _ => .ok) <$> loginInput call.outside params
  | .cancelLogin loginId => (fun _ => .ok) <$> cancelLogin call.outside loginId
  | .call params => .result <$> Accounts.call call.data call.outside params

/-- The manager is locked for the whole of a request. -/
def serveProvider (manager : ProviderManager Server) (call : ProviderCall Server) :
    ProviderManager Server × Except NodeError ProviderReply :=
  ((answerProvider isWhitespace store call).exec manager).swap

end

end Diri.Accounts
