/-
The bounded pipes of a remote launch.

The Engine asks the Helper for the login environment and then sends it a launch request;
the Helper hands the request on to the Holder it spawns.  Each of the readers takes in so
many bytes of JSON and no more.  What `serde_json` reads is an argument.

The login shell runs `dump`, among whatever else its start-up files print: the Helper finds
the frame by its marker and its length.
-/
import Diri.Proto.Launch
import Mathlib.Data.List.Sort

namespace Diri.Wire

inductive ReadError
  | invalid (message : String)
  /-- `serde_json`'s, or that of `str::from_utf8`. -/
  | malformed
  deriving DecidableEq, Repr

variable {α : Type}

/-! ### JSON at both ends -/

/-- `read_limited_json`: one byte more than the limit is taken in, if it is there. -/
def readLimitedJson (fromSlice : List UInt8 → Option α) (maximum : Nat) (reader : List UInt8) :
    Except ReadError α :=
  let bytes := reader.take (maximum + 1)
  if maximum < bytes.length then .error (.invalid "JSON request exceeds its size limit")
  else
    match fromSlice bytes with
    | some value => .ok value
    | none => .error .malformed

def newline : UInt8 := 10

def writeJson (value : Json) : List UInt8 := value.bytes ++ [newline]

/-- `drain_bounded`: what is kept of the output, and whether that is not all. -/
def drainBounded (limit : Nat) (output : List UInt8) : List UInt8 × Bool :=
  (output.take limit, limit < output.length)

def isAsciiWhitespace (byte : UInt8) : Bool :=
  byte = 32 || byte = 9 || byte = 10 || byte = 12 || byte = 13

/-- One line, from its first character on. -/
def readLine (fromSlice : List UInt8 → Option α) (line : List UInt8) : Option α :=
  let line := line.dropWhile isAsciiWhitespace
  if line = [] then none else fromSlice line

/-- The last line that can be read. -/
def parseJsonLine (fromSlice : List UInt8 → Option α) (bytes : List UInt8) : Except ReadError α :=
  match (bytes.splitOn newline).reverse.findSome? (readLine fromSlice) with
  | some value => .ok value
  | none => .error (.invalid "Helper JSON response is missing or invalid")

def maxRpcOutput : Nat := 1024 * 1024

/-- What `rpc_input` makes of the output of a command that succeeded. -/
def rpcOutput (fromSlice : List UInt8 → Option α) (output : List UInt8) : Except ReadError α :=
  let (stdout, stdoutTruncated) := drainBounded maxRpcOutput output
  if stdoutTruncated then .error (.invalid "remote Helper response was truncated")
  else parseJsonLine fromSlice stdout

/-! ### What the Helper hands on to the Holder -/

structure HolderStart where
  request : LaunchRequest
  incarnation : String
  deriving DecidableEq

def HolderStart.toJson (start : HolderStart) : Json :=
  .object [("request", start.request.toJson), ("incarnation", .string start.incarnation)]

def hexByte (byte : UInt8) : List Char :=
  [hexDigits.getD (byte.toNat / 16) '0', hexDigits.getD (byte.toNat % 16) '0']

def randomHex (random : List UInt8) : String := String.ofList (random.flatMap hexByte)

/-- What `launch` encodes, with sixteen random bytes. -/
def holderStart (request : LaunchRequest) (random : List UInt8) : HolderStart :=
  ⟨request, randomHex random⟩

/-! ### The login environment -/

def marker : List UInt8 := utf8 "DIRIENV1" ++ [0]

def lengthBytes : Nat := 8

def frameBody (bytes : List UInt8) : Except ReadError (List UInt8) :=
  if marker <+: bytes then
    let framed := bytes.drop marker.length
    if framed.length < lengthBytes then
      .error (.invalid "environment length header is incomplete")
    else
      let length := beValue (framed.take lengthBytes)
      let body := framed.drop lengthBytes
      if length ≤ body.length then .ok (body.take length)
      else .error (.invalid "captured environment is incomplete")
  else .error (.invalid "environment marker is missing")

def payloadLimit : Nat := marker.length + lengthBytes + maxLaunchBytes

def diagnosticLimit : Nat := 64 * 1024

/-- What is kept of some bytes, and whether there were more. -/
structure Bounded where
  target : List UInt8 := []
  truncated : Bool := false
  deriving DecidableEq

/-- `push_bounded`. -/
def Bounded.push (limit : Nat) (kept : Bounded) (bytes : List UInt8) : Bounded :=
  let stored := min (limit - kept.target.length) bytes.length
  ⟨kept.target ++ bytes.take stored, kept.truncated || stored != bytes.length⟩

/-- The chatter of a login shell and the payload behind it, while they are told apart. -/
structure FramedCapture where
  noise : Bounded := {}
  payload : Bounded := {}
  framed : Bool := false
  pending : List UInt8 := []

/-- One read of the loop of `drain_framed`. -/
def FramedCapture.read (capture : FramedCapture) (chunk : List UInt8) : FramedCapture :=
  if capture.framed then
    match frameBody capture.payload.target with
    -- a startup job that outlived the shell
    | .ok _ => { capture with noise := capture.noise.push diagnosticLimit chunk }
    | .error _ => { capture with payload := capture.payload.push payloadLimit chunk }
  else
    let pending := capture.pending ++ chunk
    match pending.tails.findIdx? marker.isPrefixOf with
    | some position =>
      { noise := capture.noise.push diagnosticLimit (pending.take position)
        payload := capture.payload.push payloadLimit (pending.drop position)
        framed := true
        pending := [] }
    | none =>
      -- the bytes that a marker may still straddle are kept
      let settled := pending.length - (marker.length - 1)
      { capture with
        noise := capture.noise.push diagnosticLimit (pending.take settled)
        pending := pending.drop settled }

/-- `reads` are the reads that give something; the one behind them is the end. -/
def drainFramed (reads : List (List UInt8)) : FramedCapture :=
  let capture := reads.foldl FramedCapture.read {}
  { capture with noise := capture.noise.push diagnosticLimit capture.pending, pending := [] }

def fromUtf8 (bytes : List UInt8) : Except ReadError String :=
  match toStr bytes with
  | some text => .ok text
  | none => .error .malformed

def shouldScrub (name : String) : Bool :=
  "DIRI_".toList.isPrefixOf name.toList || "SSH_".toList.isPrefixOf name.toList ||
    name = "_" || name = "PWD" || name = "OLDPWD" || name = "SHLVL"

def equals : UInt8 := 61

/-- One field of the payload; `none` for one that is scrubbed. -/
def parseField (field : List UInt8) : Except ReadError (Option EnvironmentVariable) :=
  match field.idxOf? equals with
  | none => .error (.invalid "captured environment entry has no '='")
  | some separator => do
      let name ← fromUtf8 (field.take separator)
      let value ← fromUtf8 (field.drop (separator + 1))
      checkThat (value.utf8ByteSize ≤ maxEnvironmentValueBytes)
        (.invalid "captured environment value exceeds 64 KiB")
      pure (if shouldScrub name then none else some ⟨name, value⟩)

def addField (environment : List EnvironmentVariable) (field : List UInt8) :
    Except ReadError (List EnvironmentVariable) :=
  if field = [] then .ok environment
  else do
    match ← parseField field with
    | none => pure environment
    | some entry =>
      checkThat ((environment ++ [entry]).length ≤ maxEnvironmentVariables)
        (.invalid "captured environment exceeds 4096 variables")
      pure (environment ++ [entry])

/-- By name, equal names as they came. -/
def sortByName (environment : List EnvironmentVariable) : List EnvironmentVariable :=
  environment.mergeSort fun left right => !decide (right.name < left.name)

def parseEnvironment (bytes : List UInt8) :
    Except ReadError (String × List EnvironmentVariable) := do
  let payload ← frameBody bytes
  match payload.splitOn 0 with
  | [] => .error (.invalid "captured cwd is missing")
  | cwd :: fields =>
    let cwd ← fromUtf8 cwd
    checkThat (isAbsolute cwd = true) (.invalid "captured cwd is not absolute")
    let environment ← fields.foldlM addField []
    pure (cwd, sortByName environment)

/-- What the login shell's own child writes: `std::env::vars_os`, framed. -/
def dump (cwd : List UInt8) (vars : List (List UInt8 × List UInt8)) : List UInt8 :=
  let body := cwd ++ 0 :: vars.flatMap fun (name, value) =>
    if 0 ∈ name ∨ equals ∈ name ∨ 0 ∈ value then [] else name ++ equals :: value ++ [0]
  marker ++ beBytes lengthBytes body.length ++ body

end Diri.Wire
