/-
Paths, as texts.

A path is read component by component between its slashes.  A component that is empty or
a single dot stands for nothing, except for a dot at the very start.
-/
import Mathlib.Data.List.Basic

namespace Diri

namespace Path

/-- Components that stand for nothing. -/
def isVoid (component : List Char) : Bool := component = [] || component = ['.']

/-- The start of the path that is no name, and the components after it, last one first. -/
def split (path : List Char) : List Char × List (List Char) :=
  match path.splitOn '/' with
  | [] => ([], [])
  | [] :: [] => ([], [])
  | [] :: components => (['/'], components.reverse.dropWhile isVoid)
  | ['.'] :: components => (['.'], components.reverse.dropWhile isVoid)
  | components => ([], components.reverse.dropWhile isVoid)

def fileName (path : String) : Option String :=
  match (split path.toList).2 with
  | [] => none
  | name :: _ => if name = ['.', '.'] then none else some (String.ofList name)

/-- The path of a start and of components, last one first. -/
def join (start : List Char) (components : List (List Char)) : List Char :=
  let components := components.dropWhile isVoid
  if components = [] then start
  else (if start = ['.'] then ['.', '/'] else start) ++ ['/'].intercalate components.reverse

def parent (path : String) : Option String :=
  match split path.toList with
  | (['.'], []) => some ""
  | (_, []) => none
  | (start, _ :: components) => some (String.ofList (join start components))

/-- Every component is a name: nothing leads out of the directory the path is in. -/
def isNormal (path : String) : Bool :=
  match split path.toList with
  | ([], components) => components.all fun component => component ≠ ['.', '.']
  | _ => false

/-- `Path::join`. -/
def push (directory name : String) : String :=
  if name.toList.head? = some '/' then name
  else if directory = "" ∨ directory.toList.getLast? = some '/' then directory ++ name
  else directory ++ "/" ++ name

/-- `==` of two paths: their components are. -/
def same (path other : String) : Bool :=
  let components (path : String) :=
    ((split path.toList).1, (split path.toList).2.filter fun component => !isVoid component)
  components path = components other

end Path

end Diri
