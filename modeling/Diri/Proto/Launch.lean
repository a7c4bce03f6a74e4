/-
What the Engine sends a remote Helper to launch a session, and the login environment that
the Helper captures for it, with the checks and the JSON of both.

`usize::saturating_add` adds up lengths of texts in memory, which are far from the end of a
`usize`.
-/
import Diri.Lib.Checks
import Diri.Lib.Json
import Diri.Proto.Messages

namespace Diri.Wire

def maxArguments : Nat := 512
def maxEnvironmentVariables : Nat := 4096
def maxLaunchBytes : Nat := 1024 * 1024
def maxEnvironmentValueBytes : Nat := 64 * 1024

structure EnvironmentVariable where
  name : String
  value : String
  deriving DecidableEq, Repr

inductive PersistenceCapability
  | nativeDetach
  | userSupervisor
  | nonPersistent
  deriving DecidableEq, Repr

def PersistenceCapability.wire : PersistenceCapability → String
  | nativeDetach => "native-detach"
  | userSupervisor => "user-supervisor"
  | nonPersistent => "non-persistent"

structure LaunchRequest where
  sessionId : String
  sessionToken : SessionToken
  argv : List String
  cwd : String
  environment : List EnvironmentVariable
  cols : UInt16
  rows : UInt16
  persistence : PersistenceCapability
  deriving DecidableEq

def isAbsolute (path : String) : Bool := (utf8 path).head? = some 47

/-! ### What is checked -/

namespace LaunchRequest

def checkArgument (argument : String) : Except RemoteCodecError Unit :=
  checkThat (0 ∉ utf8 argument) (.invalidLaunch "argv contains a NUL byte")

/-- A name that can stand in an environment: `validate` calls it `valid_name`. -/
def validName (name : String) : Bool :=
  name ≠ "" && !(utf8 name).any fun byte => byte = 0 || byte = 61

def checkVariable (entry : EnvironmentVariable) : Except RemoteCodecError Unit := do
  checkThat (validName entry.name = true ∧ 0 ∉ utf8 entry.value)
    (.invalidLaunch "environment contains an invalid name or NUL byte")
  checkThat (entry.value.utf8ByteSize ≤ maxEnvironmentValueBytes)
    (.invalidLaunch ("environment value exceeds " ++ toString maxEnvironmentValueBytes ++ " bytes"))

def variableBytes (entry : EnvironmentVariable) : Nat :=
  entry.name.utf8ByteSize + entry.value.utf8ByteSize

def validate (request : LaunchRequest) : Except RemoteCodecError Unit := do
  validateIdentifier "session id" request.sessionId
  let _ ← SessionToken.new request.sessionToken.value
  checkThat (request.argv ≠ [] ∧ request.argv.length ≤ maxArguments)
    (.invalidLaunch ("argv must contain 1..=" ++ toString maxArguments ++ " entries"))
  checkThat (request.environment.length ≤ maxEnvironmentVariables)
    (.invalidLaunch ("environment exceeds " ++ toString maxEnvironmentVariables ++ " entries"))
  checkThat (isAbsolute request.cwd = true ∧ 0 ∉ utf8 request.cwd)
    (.invalidLaunch "cwd must be an absolute NUL-free path")
  (validateTerminalDimensions request.cols.toNat request.rows.toNat).mapError .ofPty
  let bytes ← weigh checkArgument String.utf8ByteSize request.cwd.utf8ByteSize request.argv
  let bytes ← weigh checkVariable variableBytes bytes request.environment
  checkThat (bytes ≤ maxLaunchBytes)
    (.invalidLaunch ("launch payload exceeds " ++ toString maxLaunchBytes ++ " bytes"))

end LaunchRequest

/-! ### JSON -/

def EnvironmentVariable.toJson (entry : EnvironmentVariable) : Json :=
  .object [("name", .string entry.name), ("value", .string entry.value)]

def LaunchRequest.toJson (request : LaunchRequest) : Json :=
  .object [
    ("sessionId", .string request.sessionId),
    ("sessionToken", .string request.sessionToken.value),
    ("argv", .array (request.argv.map .string)),
    ("cwd", .string request.cwd),
    ("environment", .array (request.environment.map EnvironmentVariable.toJson)),
    ("cols", .number request.cols.toNat),
    ("rows", .number request.rows.toNat),
    ("persistence", .string request.persistence.wire)]

structure EnvironmentCaptureResult where
  shell : String
  cwd : String
  environment : List EnvironmentVariable
  diagnostics : String
  diagnosticsTruncated : Bool
  deriving DecidableEq

def EnvironmentCaptureResult.toJson (result : EnvironmentCaptureResult) : Json :=
  .object [
    ("shell", .string result.shell),
    ("cwd", .string result.cwd),
    ("environment", .array (result.environment.map EnvironmentVariable.toJson)),
    ("diagnostics", .string result.diagnostics),
    ("diagnosticsTruncated", .bool result.diagnosticsTruncated)]

end Diri.Wire
