/-
The walk of a workspace, which says what goes into a checkpoint of it.

A directory is the chain of its entries in the order of their names; that is the order the
walk takes them in, however the file system lists them.  A name is a sequence of bytes and
need not be a text.  What is left out is written down too; a directory that is walked is
not, only what is found in it.
-/
import Diri.Node.Checkpoint

namespace Diri

/-- The name of a directory entry, as the file system has it. -/
abbrev FileName : Type := List UInt8

inductive Listing
  | nil
  | file (name : FileName) (contents : List UInt8) (mode : Nat) (rest : Listing)
  | directory (name : FileName) (children rest : Listing)
  /-- A link, a socket or a device. -/
  | other (name : FileName) (rest : Listing)
  deriving DecidableEq, Repr

def slash : UInt8 := 0x2F

/-- The bytes of a path. -/
def joined (path : List FileName) : List UInt8 := [slash].intercalate path

namespace Listing

/-- What an entry can be called. -/
structure IsName (name : FileName) : Prop where
  nonempty : name ≠ []
  free : slash ∉ name ∧ 0 ∉ name
  normal : name ≠ utf8 "." ∧ name ≠ utf8 ".."

def names : Listing → List FileName
  | nil => []
  | file name _ _ rest => name :: rest.names
  | directory name _ rest => name :: rest.names
  | other name rest => name :: rest.names

/-- An entry can be called so, and comes before the others. -/
structure Leads (name : FileName) (rest : Listing) : Prop where
  isName : IsName name
  first : ∀ other ∈ rest.names, name < other

/-- Every directory is in the order of its names, of which no two are the same. -/
def Ordered : Listing → Prop
  | nil => True
  | file name _ _ rest => Leads name rest ∧ rest.Ordered
  | directory name children rest => Leads name rest ∧ children.Ordered ∧ rest.Ordered
  | other name rest => Leads name rest ∧ rest.Ordered

instance (name : FileName) : Decidable (IsName name) :=
  decidable_of_iff (name ≠ [] ∧ (slash ∉ name ∧ 0 ∉ name) ∧ name ≠ utf8 "." ∧ name ≠ utf8 "..")
    ⟨fun h => ⟨h.1, h.2.1, h.2.2⟩, fun h => ⟨h.nonempty, h.free, h.normal⟩⟩

instance (name : FileName) (rest : Listing) : Decidable (Leads name rest) :=
  decidable_of_iff (IsName name ∧ ∀ other ∈ rest.names, name < other)
    ⟨fun h => ⟨h.1, h.2⟩, fun h => ⟨h.isName, h.first⟩⟩

instance decidableOrdered : (tree : Listing) → Decidable tree.Ordered
  | nil => .isTrue trivial
  | file name _ _ rest =>
    have := rest.decidableOrdered
    inferInstanceAs (Decidable (Leads name rest ∧ rest.Ordered))
  | directory name children rest =>
    have := children.decidableOrdered
    have := rest.decidableOrdered
    inferInstanceAs (Decidable (Leads name rest ∧ children.Ordered ∧ rest.Ordered))
  | other name rest =>
    have := rest.decidableOrdered
    inferInstanceAs (Decidable (Leads name rest ∧ rest.Ordered))

end Listing

structure WorkspaceTree where
  listing : Listing
  ordered : listing.Ordered

/-! ### What is left out -/

def excludedDirectories : List String :=
  [".git", ".ssh", ".codex", ".claude", "node_modules", "target", ".build"]

def excludedFiles : List String :=
  ["auth.json", ".credentials.json", "credentials.json", "id_rsa", "id_ed25519"]

/-- The names that are not taken along. -/
def isExcludedName (name : FileName) (directory : Bool) : Bool :=
  (directory && (excludedDirectories.map utf8).contains name) ||
    name = utf8 ".env" || (utf8 ".env.").isPrefixOf name || (excludedFiles.map utf8).contains name

/-- A name that is no text counts as an empty one. -/
def shouldExclude (name : FileName) (directory : Bool) : Bool :=
  isExcludedName (if IsUtf8 name then name else []) directory

/-! ### The walk -/

structure WorkspaceWalk where
  files : List WalkedFile := []
  excluded : List String := []
  total : Nat := 0

abbrev WalkM : Type → Type := Handler WorkspaceWalk NodeError

def leaveOut (path : List FileName) : WalkM PUnit :=
  modify fun walk =>
    { walk with excluded := walk.excluded ++ [toStringLossy (joined path)] }

/-- A file is taken along unless it is too large. -/
def takeFile (path : List FileName) (contents : List UInt8) (mode : Nat) : WalkM PUnit := do
  let walk ← get
  if maxFiles ≤ walk.files.length then
    throw (.badRequest ("workspace exceeds " ++ toString maxFiles ++ " files"))
  else if maxFileBytes < contents.length then leaveOut path
  else
    let total := min (walk.total + contents.length) (2 ^ 64 - 1)
    modify fun walk => { walk with total := total }
    if maxTotalBytes < total then
      throw (.badRequest "workspace checkpoint exceeds 8 GiB")
    else
      modify fun walk =>
        { walk with
          files := walk.files ++
            [⟨toStringLossy (joined path), contents, contents, some (mode &&& 0o777)⟩] }

def walkWorkspace (directory : List FileName) : Listing → WalkM PUnit
  | .nil => return
  | .file name contents mode rest => do
      if shouldExclude name false then leaveOut (directory ++ [name])
      else takeFile (directory ++ [name]) contents mode
      walkWorkspace directory rest
  | .directory name children rest => do
      if shouldExclude name true then leaveOut (directory ++ [name])
      else walkWorkspace (directory ++ [name]) children
      walkWorkspace directory rest
  | .other name rest => do
      leaveOut (directory ++ [name])
      walkWorkspace directory rest

/-- What the walk of a workspace finds there; `root` is what the workspace's own path is read as. -/
def WorkspaceTree.workspace (tree : WorkspaceTree) (root : String) : Workspace :=
  let (walked, walk) := (walkWorkspace [] tree.listing).exec {}
  { canonical := .ok root
    isDir := true
    files := walk.files
    excluded := walk.excluded
    walked := walked.map fun _ => () }

end Diri
