/-
A transcript that is appended to.

The lines that bear an event stay where they are, and so do their events: what is appended
continues the last line at most, and a line that was a whole record before is no other
record when it is continued.  Hence the id of an event, which is made of the path and of
the offset of its line, is never given to two events.
-/
import Diri.Node.Usage
import Diri.Proofs.Node.Walk

namespace Diri

open List

/-! ### Lines -/

theorem transcriptLines_of_notMem {contents : List UInt8} (h : 0x0A ∉ contents) :
    transcriptLines contents = if contents = [] then [] else [contents] := by
  rw [transcriptLines, cutLines_of_notMem h]
  rfl

theorem transcriptLines_append (contents more : List UInt8) : transcriptLines (contents ++ more) =
      (cutLines 0x0A contents).1.map stripReturn ++
        transcriptLines ((cutLines 0x0A contents).2 ++ more) := by
  rw [transcriptLines, cutLines_append, transcriptLines]
  simp

theorem transcriptLines_eq (contents : List UInt8) : transcriptLines contents =
      (cutLines 0x0A contents).1.map stripReturn ++ transcriptLines (cutLines 0x0A contents).2 := by
  rw [← append_nil (cutLines 0x0A contents).2, ← transcriptLines_append, append_nil]

/-- What a line can become that is not complete. -/
def Continues (line longer : List UInt8) : Prop :=
  ∃ more, longer = line ++ more ∨ longer = stripReturn (line ++ more)

theorem transcriptLines_continued {line : List UInt8} (hline : 0x0A ∉ line) (hne : line ≠ [])
    (more : List UInt8) :
    ∃ longer rest, transcriptLines (line ++ more) = longer :: rest ∧ Continues line longer := by
  by_cases hmore : 0x0A ∈ more
  · obtain ⟨first, rest, rfl, hfirst⟩ := eq_append_cons_of_mem hmore
    have hcut : cutLines 0x0A (line ++ (first ++ 0x0A :: rest)) =
        ((line ++ first) :: (cutLines 0x0A rest).1, (cutLines 0x0A rest).2) := by
      rw [← append_assoc]
      exact cutLines_line (by simp [hline, hfirst]) rest
    refine ⟨stripReturn (line ++ first), transcriptLines rest, ?_, first, .inr rfl⟩
    rw [transcriptLines, hcut]
    rfl
  · refine ⟨line ++ more, [], ?_, more, .inl rfl⟩
    rw [transcriptLines_of_notMem (by simp [hline, hmore]), if_neg (by simp [hne])]

/-- The bytes that lines take with what ends them. -/
def linesSize (lines : List (List UInt8)) : Nat := (lines.map fun line => line.length + 1).sum

@[simp] theorem linesSize_nil : linesSize [] = 0 := rfl

@[simp] theorem linesSize_cons (line : List UInt8) (lines : List (List UInt8)) :
    linesSize (line :: lines) = line.length + 1 + linesSize lines := rfl

@[simp] theorem linesSize_append (lines more : List (List UInt8)) :
    linesSize (lines ++ more) = linesSize lines + linesSize more := by
  simp [linesSize]

theorem length_stripReturn (line : List UInt8) : (stripReturn line).length ≤ line.length := by
  rw [stripReturn]
  split
  · simp
  · exact Nat.le_refl _

theorem linesSize_stripReturn (lines : List (List UInt8)) :
    linesSize (lines.map stripReturn) ≤ linesSize lines := by
  induction lines with
  | nil => exact Nat.le_refl _
  | cons line lines ih =>
    rw [map_cons, linesSize_cons, linesSize_cons]
    have hline := length_stripReturn line
    omega

theorem linesSize_transcriptLines (contents : List UInt8) :
    linesSize (transcriptLines contents) ≤ contents.length + 1 := by
  have hjoin := congrArg List.length (@joinLines UInt8 _ 0x0A contents)
  rw [length_append, length_flatMap] at hjoin
  have hlines := linesSize_stripReturn (cutLines 0x0A contents).1
  have hsize : linesSize (cutLines 0x0A contents).1 =
      ((cutLines 0x0A contents).1.map fun line => (line ++ [(0x0A : UInt8)]).length).sum := by
    simp [linesSize]
  rw [transcriptLines, linesSize_append]
  split
  · rw [linesSize_nil]
    omega
  · rw [linesSize_cons, linesSize_nil]
    omega

/-! ### The lines that bear an event -/

theorem isObject_of_get {value found : Json} {key : String} (h : value.get key = some found) :
    value.isObject := by
  cases value with
  | object members => rfl
  | _ => cases h

theorem isObject_of_pointer {value found : Json} {key : String} {keys : List String}
    (h : value.pointer (key :: keys) = some found) : value.isObject := by
  obtain ⟨member, hmember, -⟩ := Option.bind_eq_some_iff.mp h
  exact isObject_of_get hmember

namespace UsageImporter

variable {importer : UsageImporter} {path : TranscriptPath} {profile : AccountProfile}

/-- What is made of a line, if a line that cannot be read bears no event. -/
def taken (importer : UsageImporter) (path : TranscriptPath) (profile : AccountProfile)
    (offset : Nat) (model : Option String) (line : List UInt8) :
    Option String × Option UsageEvent :=
  match importer.readLine path profile offset model line with
  | .ok read => read
  | .error _ => (model, none)

def bearing (importer : UsageImporter) (path : TranscriptPath) (profile : AccountProfile) :
    (offset : Nat) → (model : Option String) → List (List UInt8) → List (Nat × UsageEvent)
  | _, _, [] => []
  | offset, model, line :: rest =>
    let read := importer.taken path profile offset model line
    read.2.toList.map (offset, ·) ++
      bearing importer path profile (nextOffset offset line) read.1 rest

def borne (importer : UsageImporter) (path : TranscriptPath) (profile : AccountProfile)
    (contents : List UInt8) : List (Nat × UsageEvent) :=
  importer.bearing path profile 0 none (transcriptLines contents)

/-- The offset and the model after some lines. -/
def after (importer : UsageImporter) (path : TranscriptPath) (profile : AccountProfile) :
    (offset : Nat) → (model : Option String) → List (List UInt8) → Nat × Option String
  | offset, model, [] => (offset, model)
  | offset, model, line :: rest =>
    after importer path profile (nextOffset offset line)
      (importer.taken path profile offset model line).1 rest

theorem bearing_append (lines more : List (List UInt8)) (offset : Nat) (model : Option String) :
    importer.bearing path profile offset model (lines ++ more) =
      importer.bearing path profile offset model lines ++
        importer.bearing path profile (importer.after path profile offset model lines).1
          (importer.after path profile offset model lines).2 more := by
  induction lines generalizing offset model with
  | nil => rfl
  | cons line lines ih =>
    rw [cons_append, bearing, bearing, ih, after]
    simp

variable {offset : Nat} {lines : List (List UInt8)} {model : Option String}
  {first second : Nat × UsageEvent} {event : UsageEvent} {line longer : List UInt8}

theorem readLines_cons {model next : Option String} {line : List UInt8} {event : Option UsageEvent}
    (h : importer.readLine path profile offset model line = .ok (next, event))
    (rest : List (List UInt8)) : importer.readLines path profile offset model (line :: rest) =
      (importer.readLines path profile (nextOffset offset line) next rest).map
        (event.toList ++ ·) := by
  rw [readLines, h]
  simp only [bind, Except.bind]
  cases importer.readLines path profile (nextOffset offset line) next rest with
  | error failure | ok events => rfl

theorem map_bearing {events : List UsageEvent}
    (h : importer.readLines path profile offset model lines = .ok events) :
    (importer.bearing path profile offset model lines).map Prod.snd = events := by
  induction lines generalizing offset model events with
  | nil => exact Except.ok.inj h
  | cons line lines ih =>
    cases hline : importer.readLine path profile offset model line with
    | error failure =>
      rw [readLines, hline] at h
      cases h
    | ok read =>
      obtain ⟨next, event⟩ := read
      rw [readLines_cons hline] at h
      cases hrest : importer.readLines path profile (nextOffset offset line) next lines with
      | error failure =>
        rw [hrest] at h
        cases h
      | ok later =>
        rw [hrest] at h
        obtain rfl := Except.ok.inj h
        rw [bearing, taken, hline, map_append, ih hrest]
        simp

theorem nextOffset_eq {line : List UInt8} (h : offset + (line.length + 1) < 2 ^ 64) :
    nextOffset offset line = offset + (line.length + 1) :=
  Nat.min_eq_left (by omega)

section
variable (h : offset + linesSize lines < 2 ^ 64)
include h

theorem after_offset :
    (importer.after path profile offset model lines).1 = offset + linesSize lines := by
  induction lines generalizing offset model with
  | nil => rfl
  | cons line lines ih =>
    rw [linesSize_cons] at h
    rw [after, nextOffset_eq (by omega), ih (by omega), linesSize_cons]
    omega

theorem offset_of_bearing : ∀ borne ∈ importer.bearing path profile offset model lines,
      offset ≤ borne.1 ∧ borne.1 < offset + linesSize lines := by
  induction lines generalizing offset model with
  | nil => intro borne hborne; cases hborne
  | cons line lines ih =>
    rw [linesSize_cons] at h ⊢
    intro borne hborne
    rw [bearing, mem_append] at hborne
    rcases hborne with hborne | hborne
    · obtain ⟨event, -, rfl⟩ := List.mem_map.mp hborne
      exact ⟨Nat.le_refl _, by omega⟩
    rw [nextOffset_eq (by omega)] at hborne
    have hlater := ih (by omega) borne hborne
    omega

theorem eq_of_offset (hfirst : first ∈ importer.bearing path profile offset model lines)
    (hsecond : second ∈ importer.bearing path profile offset model lines)
    (heq : first.1 = second.1) : first = second := by
  induction lines generalizing offset model with
  | nil => cases hfirst
  | cons line lines ih =>
    rw [linesSize_cons] at h
    have hnext : nextOffset offset line = offset + (line.length + 1) := nextOffset_eq (by omega)
    have hlater : ∀ borne ∈ importer.bearing path profile (nextOffset offset line)
        (importer.taken path profile offset model line).1 lines, offset < borne.1 := by
      intro borne hborne
      have hrange := offset_of_bearing (by omega) borne hborne
      omega
    rw [bearing, mem_append, mem_map] at hfirst hsecond
    rcases hfirst with ⟨event, hevent, rfl⟩ | hfirst
    · rcases hsecond with ⟨other, hother, rfl⟩ | hsecond
      · rw [Option.mem_toList] at hevent hother
        rw [Option.mem_unique hevent hother]
      · exact absurd heq (Nat.ne_of_lt (hlater second hsecond))
    rcases hsecond with ⟨other, hother, rfl⟩ | hsecond
    · exact absurd heq (Nat.ne_of_gt (hlater first hfirst))
    · exact ih (by omega) hfirst hsecond

end

theorem isObject_of_parseClaude {value : Json}
    (h : (parseClaudeEvent value).run = .ok (some event)) : value.isObject := by
  rw [parseClaudeEvent] at h
  cases hmessage : value.get "message" with
  | none =>
    rw [hmessage] at h
    cases h
  | some message => exact isObject_of_get hmessage

theorem isObject_of_parseCodex {value : Json}
    (h : (parseCodexEvent value model).run = .ok (some event)) : value.isObject := by
  rw [parseCodexEvent] at h
  cases hkind : value.pointer ["payload", "type"] with
  | none =>
    rw [hkind] at h
    cases h
  | some kind => exact isObject_of_pointer hkind

theorem isObject_of_readValue {model next : Option String} {value : Json}
    (h : importer.readValue path profile offset model value = .ok (next, some event)) :
    value.isObject := by
  rw [readValue] at h
  cases hprovider : profile.provider with
  | claude =>
    rw [hprovider] at h
    cases hparsed : (parseClaudeEvent value).run with
    | error failure => simp [hparsed, bind, Except.bind] at h
    | ok parsed =>
      cases parsed with
      | none => simp [hparsed, bind, Except.bind, pure, Except.pure] at h
      | some found => exact isObject_of_parseClaude hparsed
  | codex =>
    rw [hprovider] at h
    cases hparsed : (parseCodexEvent value (nextModel .codex model value)).run with
    | error failure => simp [hparsed, bind, Except.bind] at h
    | ok parsed =>
      cases parsed with
      | none => simp [hparsed, bind, Except.bind, pure, Except.pure] at h
      | some found => exact isObject_of_parseCodex hparsed

theorem value_of_taken {line : List UInt8}
    (h : (importer.taken path profile offset model line).2 = some event) :
    ∃ value next, importer.parseJson line = some value ∧ value.isObject ∧
      importer.readValue path profile offset model value = .ok (next, some event) := by
  rw [taken] at h
  cases hread : importer.readLine path profile offset model line with
  | error failure =>
    rw [hread] at h
    cases h
  | ok read =>
    obtain ⟨next, found⟩ := read
    rw [hread] at h
    obtain rfl : found = some event := h
    rw [readLine] at hread
    split at hread
    · split at hread
      · cases hread
      · rename_i value hparse
        exact ⟨value, next, hparse, isObject_of_readValue hread, hread⟩
    · cases hread

/-- An object that is written out in full cannot be continued but with white space. -/
def ReadsWhole (parseJson : List UInt8 → Option Json) : Prop :=
  ∀ line more value longer, parseJson line = some value → value.isObject →
    parseJson (line ++ more) = some longer → longer = value

theorem ReadsWhole.of_continues {parseJson : List UInt8 → Option Json} (h : ReadsWhole parseJson)
    (hcontinues : Continues line longer) {value other : Json}
    (hline : parseJson line = some value) (hvalue : value.isObject)
    (hlonger : parseJson longer = some other) (hother : other.isObject) : other = value := by
  obtain ⟨more, rfl | rfl⟩ := hcontinues
  · exact h line more value other hline hvalue hlonger
  rw [stripReturn] at hlonger
  split at hlonger
  · rename_i hlast
    obtain ⟨front, hfront⟩ : ∃ front, line ++ more = front ++ [0x0D] :=
      List.getLast?_eq_some_iff.mp hlast
    rw [hfront, dropLast_concat] at hlonger
    rcases eq_nil_or_concat more with rfl | ⟨init, last, rfl⟩
    · -- the line itself ends in the carriage return
      rw [append_nil] at hfront
      rw [hfront] at hline
      exact (h front [0x0D] other value hlonger hother hline).symm
    rw [concat_eq_append, ← append_assoc] at hfront
    obtain ⟨rfl, -⟩ := append_inj' hfront rfl
    exact h line init value other hline hvalue hlonger
  · exact h line more value other hline hvalue hlonger

section
variable (hparse : ReadsWhole importer.parseJson)
include hparse

theorem taken_continues (hcontinues : Continues line longer) {event other : UsageEvent}
    (hevent : (importer.taken path profile offset model line).2 = some event)
    (hother : (importer.taken path profile offset model longer).2 = some other) :
    other = event := by
  obtain ⟨value, next, hline, hvalue, hread⟩ := value_of_taken hevent
  obtain ⟨value', next', hlonger, hvalue', hread'⟩ := value_of_taken hother
  obtain rfl := hparse.of_continues hcontinues hline hvalue hlonger hvalue'
  rw [hread] at hread'
  exact (Option.some.inj (Prod.mk.inj (Except.ok.inj hread')).2).symm

theorem eq_of_continues {later : List (List UInt8)}
    (hcontinues : Continues line longer) (h : offset + linesSize (longer :: later) < 2 ^ 64)
    (hfirst : first ∈ importer.bearing path profile offset model [line])
    (hsecond : second ∈ importer.bearing path profile offset model (longer :: later))
    (heq : first.1 = second.1) : first = second := by
  rw [linesSize_cons] at h
  rw [bearing, bearing, append_nil] at hfirst
  obtain ⟨event, hevent, rfl⟩ := List.mem_map.mp hfirst
  rw [bearing, mem_append] at hsecond
  rcases hsecond with hsecond | hsecond
  · obtain ⟨other, hother, rfl⟩ := List.mem_map.mp hsecond
    rw [Option.mem_toList] at hevent hother
    rw [taken_continues hparse hcontinues hevent hother]
  rw [nextOffset_eq (by omega)] at hsecond
  have hlater := offset_of_bearing (by omega) second hsecond
  omega

theorem borne_append {contents more : List UInt8} (hsize : (contents ++ more).length + 1 < 2 ^ 64)
    (hfirst : first ∈ importer.borne path profile contents)
    (hsecond : second ∈ importer.borne path profile (contents ++ more))
    (heq : first.1 = second.1) : first = second := by
  have hwhole := linesSize_transcriptLines (contents ++ more)
  have hbegin := linesSize_transcriptLines contents
  rw [length_append] at hsize hwhole
  rw [borne, transcriptLines_eq] at hfirst
  rw [borne] at hsecond
  rw [transcriptLines_append] at hsecond hwhole
  rw [transcriptLines_eq] at hbegin
  rw [linesSize_append] at hbegin hwhole
  have hrest : 0x0A ∉ (cutLines 0x0A contents).2 := notMem_rest contents
  revert hfirst hsecond hbegin hwhole hrest
  generalize (cutLines 0x0A contents).1.map stripReturn = lines
  generalize (cutLines 0x0A contents).2 = rest
  intro hfirst hsecond hwhole hbegin hrest
  rw [bearing_append, mem_append] at hfirst hsecond
  have hoffset : (importer.after path profile 0 none lines).1 = 0 + linesSize lines :=
    after_offset (by omega)
  rcases hfirst with hfirst | hfirst
  · rcases hsecond with hsecond | hsecond
    · exact eq_of_offset (by omega) hfirst hsecond heq
    · have hbefore := offset_of_bearing (by omega) first hfirst
      have hafter := offset_of_bearing (by omega) second hsecond
      omega
  rcases hsecond with hsecond | hsecond
  · have hbefore := offset_of_bearing (by omega) second hsecond
    have hafter := offset_of_bearing (by omega) first hfirst
    omega
  -- both are borne after the lines that are complete, so by what the rest became
  rw [transcriptLines_of_notMem hrest] at hfirst
  by_cases hnil : rest = []
  · rw [if_pos hnil] at hfirst
    cases hfirst
  obtain ⟨longer, later, hlonger, hcontinues⟩ := transcriptLines_continued hrest hnil more
  rw [hlonger] at hsecond hwhole
  rw [if_neg hnil] at hfirst
  exact eq_of_continues hparse hcontinues (by omega) hfirst hsecond heq

end

end UsageImporter

/-! ### Ids -/

/-- A path that a file can have, all of it text. -/
structure ProperPath (path : TranscriptPath) : Prop where
  nonempty : path ≠ []
  names : ∀ name ∈ path, Listing.IsName name
  isUtf8 : IsUtf8 (joined path)

instance (path : TranscriptPath) : Decidable (ProperPath path) :=
  decidable_of_iff (path ≠ [] ∧ (∀ name ∈ path, Listing.IsName name) ∧ IsUtf8 (joined path))
    ⟨fun h => ⟨h.1, h.2.1, h.2.2⟩, fun h => ⟨h.nonempty, h.names, h.isUtf8⟩⟩

theorem joined_cons_cons (first second : FileName) (rest : TranscriptPath) :
    joined (first :: second :: rest) = first ++ slash :: joined (second :: rest) := by
  simp [joined, intercalate_cons_cons]

variable {path : TranscriptPath}

theorem ProperPath.nul_notMem (h : ProperPath path) : 0 ∉ joined path := by
  have hnames := h.names
  clear h
  induction path with
  | nil => simp [joined]
  | cons first rest ih =>
    have hfirst := (hnames first mem_cons_self).free.2
    cases rest with
    | nil => simpa [joined] using hfirst
    | cons second rest =>
      have hrest := ih fun name hname => hnames name (mem_cons_of_mem _ hname)
      rw [joined_cons_cons, mem_append, mem_cons]
      simp [hfirst, hrest, slash]

theorem getLast_suffix_joined {name : FileName}
    (h : path.getLast? = some name) : name <:+ joined path := by
  induction path with
  | nil => cases h
  | cons first rest ih =>
    cases rest with
    | nil =>
      obtain ⟨⟩ := h
      simp [joined]
    | cons second rest =>
      rw [joined_cons_cons]
      exact (ih h).trans (suffix_append_of_suffix (suffix_cons _ _))

theorem suffix_of_isJsonl (h : isJsonl path) : utf8 ".jsonl" <:+ joined path := by
  rw [isJsonl] at h
  split at h
  · rename_i name hname
    simp only [Bool.and_eq_true, isSuffixOf_iff_suffix] at h
    exact h.1.trans (getLast_suffix_joined hname)
  · cases h

theorem leBytes_inj {value other : Nat} (hvalue : value < 2 ^ 40) (hother : other < 2 ^ 40)
    (h : leBytes value = leBytes other) : value = other := by
  have hbytes : beBytes 8 value = beBytes 8 other := List.reverse_inj.mp h
  have hread : beValue (beBytes 8 value) = value := beValue_beBytes (by omega)
  rw [← hread, hbytes, beValue_beBytes (by omega)]

theorem leBytes_eq {value : Nat} (h : value < 2 ^ 40) :
    ∃ low high, leBytes value = low ++ 0 :: high ∧ low.length = 5 := by
  have hhigh : value / 256 / 256 / 256 / 256 / 256 = 0 := by omega
  refine ⟨(leBytes value).take 5, [0, 0], ?_, rfl⟩
  simp [leBytes, beBytes, hhigh]

theorem nil_of_suffix {first : UInt8} {rest name more : List UInt8} (hfirst : first ∉ rest)
    (hname : first :: rest <:+ name) (hmore : first :: rest <:+ name ++ more)
    (hlength : more.length ≤ rest.length) : more = [] := by
  obtain ⟨front, rfl⟩ := hname
  obtain ⟨longer, hlonger⟩ := hmore
  rw [append_assoc] at hlonger
  have hsize := congrArg List.length hlonger
  rw [← length_eq_zero_iff]
  rcases List.append_eq_append_iff.mp hlonger with ⟨word, rfl, hword⟩ | ⟨word, rfl, hword⟩
  · have := congrArg List.length hword
    simp only [length_append, length_cons] at this
    omega
  cases word with
  | nil =>
    have := congrArg List.length hword
    simp only [length_append, length_cons, length_nil] at this
    omega
  | cons letter word =>
    exfalso
    obtain ⟨-, hrest⟩ := List.cons.inj hword
    rcases List.append_eq_append_iff.mp hrest with ⟨tail, rfl, -⟩ | ⟨tail, rfl, htail⟩
    · simp only [length_append, length_cons] at hsize
      omega
    cases tail with
    | nil =>
      simp only [length_append, length_cons, length_nil] at hsize hlength
      omega
    | cons letter tail =>
      obtain ⟨rfl, -⟩ := List.cons.inj htail
      simp at hfirst

/-- Before a number that fits into five bytes, a name that ends in the extension ends there. -/
theorem name_inj {name other more rest : List UInt8} {value : Nat} (hvalue : value < 2 ^ 40)
    (hname : utf8 ".jsonl" <:+ name) (hother : utf8 ".jsonl" <:+ name ++ more)
    (hnul : 0 ∉ more) (h : leBytes value ++ rest = more ++ other) : more = [] := by
  obtain ⟨low, high, hbytes, hlow⟩ := leBytes_eq hvalue
  have hlength : more.length ≤ low.length := by
    rw [hbytes, append_assoc] at h
    rcases List.append_eq_append_iff.mp h with ⟨tail, rfl, htail⟩ | ⟨tail, rfl, -⟩
    · cases tail with
      | nil => simp
      | cons byte tail =>
        obtain ⟨rfl, -⟩ := List.cons.inj htail
        simp at hnul
    · simp
  rw [hlow] at hlength
  have hdot : (0x2E : UInt8) ∉ utf8 "jsonl" := by decide
  exact nil_of_suffix hdot hname hother hlength

namespace UsageImporter

variable {importer : UsageImporter} {path other : TranscriptPath}

theorem utf8_pathKey (h : ProperPath path) :
    utf8 (importer.pathKey path) = utf8 importer.accountsRoot ++ slash :: joined path := by
  have hroot : IsUtf8 (utf8 importer.accountsRoot) := ⟨_, rfl⟩
  have hslash : IsUtf8 [slash] := ⟨"/", by decide⟩
  exact isUtf8_iff_lossy.mp (hroot.append (hslash.append h.isUtf8))

theorem pathKey_inj (hpath : ProperPath path) (hother : ProperPath other)
    (h : importer.pathKey path = importer.pathKey other) : path = other := by
  have hbytes := congrArg utf8 h
  rw [utf8_pathKey hpath, utf8_pathKey hother] at hbytes
  exact Listing.joined_inj hpath.nonempty hpath.names hother.nonempty hother.names
    (List.cons.inj (append_cancel_left hbytes)).2

theorem eventId_inj (hsha256 : Function.Injective importer.sha256) (hpath : ProperPath path)
    (hjsonl : isJsonl path) (hother : ProperPath other) (hotherJsonl : isJsonl other)
    {offset offset' : Nat} (hoffset : offset < 2 ^ 40) (hoffset' : offset' < 2 ^ 40)
    {id id' : Option String}
    (h : importer.eventId path offset id = importer.eventId other offset' id') :
    path = other ∧ offset = offset' := by
  have hbytes := hsha256 (String.append_right_inj _ |>.mp h)
  rw [utf8_pathKey hpath, utf8_pathKey hother] at hbytes
  simp only [append_assoc, cons_append] at hbytes
  have htail := (List.cons.inj (append_cancel_left hbytes)).2
  have hnames : joined path = joined other := by
    rcases List.append_eq_append_iff.mp htail with ⟨more, hmore, hrest⟩ | ⟨more, hmore, hrest⟩
    · have hnul := hother.nul_notMem
      have hsuffix := suffix_of_isJsonl hotherJsonl
      rw [hmore] at hnul hsuffix
      rw [hmore, name_inj hoffset (suffix_of_isJsonl hjsonl) hsuffix
        (fun hmem => hnul (mem_append_right _ hmem)) hrest, append_nil]
    have hnul := hpath.nul_notMem
    have hsuffix := suffix_of_isJsonl hjsonl
    rw [hmore] at hnul hsuffix
    rw [hmore, name_inj hoffset' (suffix_of_isJsonl hotherJsonl) hsuffix
      (fun hmem => hnul (mem_append_right _ hmem)) hrest, append_nil]
  refine ⟨Listing.joined_inj hpath.nonempty hpath.names hother.nonempty hother.names hnames, ?_⟩
  rw [hnames] at htail
  have hvalues := append_inj_left (append_cancel_left htail) (by simp [leBytes])
  exact leBytes_inj hoffset hoffset' hvalues

variable {event : UsageEvent} {offset : Nat} {profile : AccountProfile}

theorem id_of_readValue {model next : Option String} {value : Json}
    (h : importer.readValue path profile offset model value = .ok (next, some event)) :
    event.id = importer.transcriptEventId path offset value := by
  have hmap : ∀ {parsed : Except ImportFailure (Option UsageEvent)} {model : Option String},
      (parsed >>= fun parsed => pure (model, parsed.map fun event : UsageEvent =>
        { event with
          id := importer.transcriptEventId path offset value
          profileId := some profile.id })) = Except.ok (next, some event) →
      event.id = importer.transcriptEventId path offset value := by
    intro parsed model h
    cases parsed with
    | error failure => cases h
    | ok parsed =>
      cases parsed with
      | none => cases h
      | some found =>
        obtain ⟨-, hevent⟩ := Prod.mk.inj (Except.ok.inj h)
        obtain ⟨⟩ := hevent
        rfl
  rw [readValue] at h
  cases hprovider : profile.provider with
  | claude | codex =>
    rw [hprovider] at h
    exact hmap h

theorem exists_taken_of_bearing {lines : List (List UInt8)} {model : Option String}
    {borne : Nat × UsageEvent} (h : borne ∈ importer.bearing path profile offset model lines) :
    ∃ model line, (importer.taken path profile borne.1 model line).2 = some borne.2 := by
  induction lines generalizing offset model with
  | nil => cases h
  | cons line lines ih =>
    rw [bearing, mem_append] at h
    rcases h with h | h
    · obtain ⟨event, hevent, rfl⟩ := List.mem_map.mp h
      exact ⟨model, line, Option.mem_toList.mp hevent⟩
    · exact ih h

theorem id_of_borne {contents : List UInt8}
    (h : (offset, event) ∈ importer.borne path profile contents) :
    ∃ id, event.id = importer.eventId path offset id := by
  obtain ⟨model, line, htaken⟩ := exists_taken_of_bearing h
  obtain ⟨value, next, -, -, hread⟩ := value_of_taken htaken
  exact ⟨_, id_of_readValue hread⟩

theorem offset_of_borne {contents : List UInt8} (hsize : contents.length < 2 ^ 40)
    (h : (offset, event) ∈ importer.borne path profile contents) : offset < 2 ^ 40 := by
  have hlines := linesSize_transcriptLines contents
  have hoffset := offset_of_bearing (by omega) _ h
  omega

end UsageImporter

end Diri
