/-
The form in which the Engine compares the origins of checkouts.

A scheme, a user, a port, slashes at the end and one `.git` are taken away, and the colon of a
scp-like origin is made a slash.  Lengths are counted in characters; what is taken away by its
length is ASCII.
-/
import Diri.Engine.Registry
import Diri.Lib.Casing
import Diri.Lib.Cut

namespace Diri

namespace GitUrl

/-- The tables of the standard library, as far as they bear on origins. -/
structure Tables where
  chars : CharClass
  casing : CaseTable
  visible : ∀ c, 33 ≤ c.toNat → c.toNat < 127 → chars.isWhitespace c = false
  lowerVisible : ∀ c, chars.isWhitespace c = false →
    ∀ d ∈ casing.lower c, chars.isWhitespace d = false
  sigmaVisible : chars.isWhitespace 'σ' = false ∧ chars.isWhitespace 'ς' = false

def schemes : List String := ["ssh://", "git://", "https://", "http://", "file://"]

variable (tables : Tables)

/-- A scheme is taken away, in any case; whether there was one is kept. -/
def stripScheme (state : List Char × Bool) (scheme : String) : List Char × Bool :=
  if scheme.toList <+: tables.casing.toLowercase state.1 then
    (state.1.drop scheme.toList.length, true)
  else state

/-- `[user@]host:path` as `[user@]host/path`. -/
def splitScp (s : List Char) : List Char :=
  match cutAt ':' s with
  | some (before, behind) => if before.contains '/' then s else before ++ '/' :: behind
  | none => s

def dropUser (s : List Char) : List Char :=
  match cutAt '@' s with
  | some (before, behind) => if before.contains '/' then s else behind
  | none => s

def dropPort (s : List Char) : List Char :=
  match cutAt '/' s with
  | some (host, behind) =>
    if host.isEmpty then s
    else
      match cutAt ':' host with
      | some (host, _) => host ++ '/' :: behind
      | none => s
  | none => s

def dropSlashes (s : List Char) : List Char := (s.reverse.dropWhile (· = '/')).reverse

def dropGit (s : List Char) : List Char :=
  if ".git".toList <:+ tables.casing.toLowercase s then s.take (s.length - 4) else s

def normalizeGitUrl (url : List Char) : List Char :=
  let (s, hadScheme) := schemes.foldl (stripScheme tables) (tables.chars.trim url, false)
  let s := if hadScheme then s else splitScp s
  tables.casing.toLowercase (dropGit tables (dropSlashes (dropPort (dropUser s))))

end GitUrl

end Diri
