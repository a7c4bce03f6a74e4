/-
The text field of the search overlays.

The caret and the selection's other end are byte offsets into the text.  Each operation cuts
the text where they say, and would panic at an offset that is not between two characters;
that is `none` here.

How a text falls into graphemes and words is a parameter.
-/
import Diri.Lib.Offsets

namespace Diri.Query

/-- How far a motion or a deletion reaches. -/
inductive Motion
  | character
  | word
  | line
  deriving DecidableEq, Repr

/-- `graphemes(true)` and `split_word_bounds`: a text in pieces. -/
structure Segmentation where
  graphemes : List Char → List (List Char)
  words : List Char → List (List Char)
  isAlphanumeric : Char → Bool
  flatten_graphemes : ∀ text, (graphemes text).flatten = text
  flatten_words : ∀ text, (words text).flatten = text

structure QueryEditor where
  text : List Char := []
  cursor : Nat := 0
  anchor : Nat := 0
  deriving DecidableEq, Repr

def isControl (c : Char) : Bool := c.toNat < 0x20 || (0x7F ≤ c.toNat && c.toNat < 0xA0)

/-- What a search field takes of an insertion. -/
def filtered (insertion : List Char) : List Char := insertion.filter fun c => !isControl c

/-- What a composer takes of it. -/
def filteredLines (insertion : List Char) : List Char :=
  insertion.filter fun c => !isControl c || c = '\n'

variable (seg : Segmentation)

def isSeparator (word : List Char) : Bool := word.all fun c => !seg.isAlphanumeric c

def offsetBefore (text : List Char) (start : Nat) : Motion → Option Nat
  | .line => some 0
  | .character => do
      let before ← splitBytes text start
      return byteLength (seg.graphemes before.1).dropLast.flatten
  | .word => do
      let before ← splitBytes text start
      return byteLength
        ((seg.words before.1).reverse.dropWhile (isSeparator seg)).tail.reverse.flatten

def offsetAfter (text : List Char) (start : Nat) : Motion → Option Nat
  | .line => some (byteLength text)
  | .character => do
      let after ← splitBytes text start
      return start + byteLength ((seg.graphemes after.2).head?.getD [])
  | .word => do
      let after ← splitBytes text start
      let words := seg.words after.2
      let skipped := words.takeWhile (isSeparator seg)
      match words.dropWhile (isSeparator seg) with
      | [] => return byteLength text
      | word :: _ => return start + byteLength skipped.flatten + byteLength word

namespace QueryEditor

/-- The selected range, if there is a selection. -/
def selection (editor : QueryEditor) : Option (Nat × Nat) :=
  if editor.cursor ≠ editor.anchor then
    some (min editor.cursor editor.anchor, max editor.cursor editor.anchor)
  else none

def setCursor (editor : QueryEditor) (offset : Nat) (extendSelection : Bool) : QueryEditor :=
  let offset := floorBoundary editor.text (min offset (byteLength editor.text))
  { editor with
    cursor := offset
    anchor := if extendSelection then editor.anchor else offset }

def clear (_ : QueryEditor) : QueryEditor := {}

def selectAll (editor : QueryEditor) : QueryEditor :=
  { editor with anchor := 0, cursor := byteLength editor.text }

def replaceSelection (editor : QueryEditor) (insertion : List Char) :
    Option (QueryEditor × Bool) := do
  if insertion = [] ∧ editor.selection = none then return (editor, false)
  else
    let range := editor.selection.getD (editor.cursor, editor.cursor)
    let text ← replaceBytes editor.text range.1 range.2 insertion
    let cursor := range.1 + byteLength insertion
    return ({ text, cursor, anchor := cursor }, true)

def insert (editor : QueryEditor) (insertion : List Char) : Option (QueryEditor × Bool) :=
  editor.replaceSelection (filtered insertion)

def insertMultiline (editor : QueryEditor) (insertion : List Char) : Option (QueryEditor × Bool) :=
  editor.replaceSelection (filteredLines insertion)

/-- What is between two offsets goes, and the caret is there. -/
def removeRange (editor : QueryEditor) (start stop : Nat) : Option (QueryEditor × Bool) := do
  let text ← replaceBytes editor.text start stop []
  return ({ text, cursor := start, anchor := start }, true)

def deleteBackward (editor : QueryEditor) (motion : Motion) : Option (QueryEditor × Bool) := do
  match editor.selection with
  | some range => editor.removeRange range.1 range.2
  | none =>
    let target ← offsetBefore seg editor.text editor.cursor motion
    if target = editor.cursor then return (editor, false)
    else editor.removeRange target editor.cursor

def deleteForward (editor : QueryEditor) (motion : Motion) : Option (QueryEditor × Bool) := do
  if editor.selection.isSome then editor.deleteBackward seg motion
  else
    let target ← offsetAfter seg editor.text editor.cursor motion
    if target = editor.cursor then return (editor, false)
    else editor.removeRange editor.cursor target

/-- Where a motion starts, and the editor with its selection collapsed to there. -/
def collapsed (editor : QueryEditor) (extend : Bool) (edge : Nat × Nat → Nat) :
    QueryEditor × Option Nat :=
  match extend, editor.selection with
  | false, some range =>
    let edge := edge range
    ({ editor with cursor := edge, anchor := edge }, some edge)
  | _, _ => (editor, none)

def moveLeft (editor : QueryEditor) (motion : Motion) (extend : Bool) : Option QueryEditor := do
  let (editor, edge) := editor.collapsed extend Prod.fst
  if edge.isSome ∧ motion = .character then return editor
  else
    let cursor ← offsetBefore seg editor.text (edge.getD editor.cursor) motion
    return { editor with cursor, anchor := if extend then editor.anchor else cursor }

def moveRight (editor : QueryEditor) (motion : Motion) (extend : Bool) : Option QueryEditor := do
  let (editor, edge) := editor.collapsed extend Prod.snd
  if edge.isSome ∧ motion = .character then return editor
  else
    let cursor ← offsetAfter seg editor.text (edge.getD editor.cursor) motion
    return { editor with cursor, anchor := if extend then editor.anchor else cursor }

def moveTo (editor : QueryEditor) (offset : Nat) (extend : Bool) : QueryEditor :=
  let cursor := floorBoundary editor.text (min offset (byteLength editor.text))
  { editor with cursor, anchor := if extend then editor.anchor else cursor }

def deleteTo (editor : QueryEditor) (offset : Nat) : Option (QueryEditor × Bool) := do
  match editor.selection with
  | some range => editor.removeRange range.1 range.2
  | none =>
    let offset := floorBoundary editor.text (min offset (byteLength editor.text))
    if offset = editor.cursor then return (editor, false)
    else editor.removeRange (min offset editor.cursor) (max offset editor.cursor)

def selectedText (editor : QueryEditor) : Option (Option (List Char)) :=
  match editor.selection with
  | none => some none
  | some range => (sliceBytes editor.text range.1 range.2).map some

/-- What is drawn: the text with the caret in it, or the text and its selection. -/
def display (editor : QueryEditor) (caret : List Char) : Option (List Char × Option (Nat × Nat)) :=
  match editor.selection with
  | some range => some (editor.text, some range)
  | none => do
      let parts ← splitBytes editor.text editor.cursor
      return (parts.1 ++ caret ++ parts.2, none)

end QueryEditor

/-- An operation on the field. -/
inductive EditorCall
  | insert (insertion : List Char)
  | insertMultiline (insertion : List Char)
  | setCursor (offset : Nat) (extendSelection : Bool)
  | moveTo (offset : Nat) (extend : Bool)
  | deleteTo (offset : Nat)
  | moveLeft (motion : Motion) (extend : Bool)
  | moveRight (motion : Motion) (extend : Bool)
  | deleteBackward (motion : Motion)
  | deleteForward (motion : Motion)
  | selectAll
  | clear
  deriving DecidableEq, Repr

/-- An operation that says whether the text changed, and one that does not. -/
def told (result : Option (QueryEditor × Bool)) : Option (QueryEditor × Option Bool) :=
  result.map fun edit => (edit.1, some edit.2)

def untold (result : Option QueryEditor) : Option (QueryEditor × Option Bool) :=
  result.map fun editor => (editor, none)

def QueryEditor.apply (editor : QueryEditor) : EditorCall → Option (QueryEditor × Option Bool)
  | .insert insertion => told (editor.insert insertion)
  | .insertMultiline insertion => told (editor.insertMultiline insertion)
  | .setCursor offset extendSelection => untold (some (editor.setCursor offset extendSelection))
  | .moveTo offset extend => untold (some (editor.moveTo offset extend))
  | .deleteTo offset => told (editor.deleteTo offset)
  | .moveLeft motion extend => untold (editor.moveLeft seg motion extend)
  | .moveRight motion extend => untold (editor.moveRight seg motion extend)
  | .deleteBackward motion => told (editor.deleteBackward seg motion)
  | .deleteForward motion => told (editor.deleteForward seg motion)
  | .selectAll => untold (some editor.selectAll)
  | .clear => untold (some editor.clear)

/-- A panic ends it all. -/
def serve : Option QueryEditor → EditorCall → Option QueryEditor × Option Bool
  | none, _ => (none, none)
  | some editor, call =>
    match editor.apply seg call with
    | none => (none, none)
    | some (editor', reply) => (some editor', reply)

end Diri.Query
