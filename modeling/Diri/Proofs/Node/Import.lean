/-
What the import of transcripts leaves in the ledger.

However imports and the agents' appends are interleaved, every event of the ledger is that
of a line as it stood at some time, and a transcript whose mark has its size is in the
ledger completely: as long as no transcript grows after it was read and before it was
marked.  An import that finds every transcript readable then leaves exactly one event for
every line that bears one.

A mark that is taken too late covers what was never read, and a line that cannot be read
stops the import before the transcripts that come after it.
-/
import Diri.Lib.Run
import Diri.Proofs.Node.Hex
import Diri.Proofs.Node.Transcript

namespace Diri

open AList List UsageImporter Option

/-! ### What the ledger has to hold -/

/-- A line of a transcript of one of the profiles bears an event. -/
def UsageNode.Bears (importer : UsageImporter) (node : UsageNode) (profiles : List AccountProfile)
    (path : TranscriptPath) (offset : Nat) (event : UsageEvent) : Prop :=
  ∃ profile ∈ profiles, ∃ file, path ∈ node.jsonlFiles (transcriptRoot profile) ∧
    node.files.lookup path = some file ∧ (offset, event) ∈ importer.borne path profile file.contents

/-- There is exactly one event in the ledger for each line that bears one. -/
structure UsageNode.ExactlyOnce (importer : UsageImporter) (node : UsageNode)
    (profiles : List AccountProfile) : Prop where
  recorded : ∀ path offset event, node.Bears importer profiles path offset event →
    node.events.lookup event.id = some event
  /-- No two lines have the same event. -/
  apart : ∀ path offset event other offset' event',
    node.Bears importer profiles path offset event →
    node.Bears importer profiles other offset' event' → event.id = event'.id →
    path = other ∧ offset = offset'
  /-- No line has two events. -/
  single : ∀ path offset event, node.Bears importer profiles path offset event →
    ∀ id row, node.events.lookup (importer.eventId path offset id) = some row → row = event
  /-- No event is of no line; the transcript may have been shorter then. -/
  sound : ∀ id row, node.events.lookup id = some row → row.id = id ∧
    ∃ path file profile contents offset, node.files.lookup path = some file ∧
      contents <+: file.contents ∧ (offset, row) ∈ importer.borne path profile contents

/-- What the counts of an event are taken from. -/
def usageOf (provider : ProviderKind) (value : Json) : Option Json :=
  match provider with
  | .claude => (value.get "message").bind (·.get "usage")
  | .codex =>
    if (value.pointer ["payload", "type"]).bind Json.asStr = some "token_count" then
      value.pointer ["payload", "info", "last_token_usage"]
    else none

/-- Every line is a text, and no timestamp is cut inside a character. -/
def UsageImporter.Readable (importer : UsageImporter) (provider : ProviderKind)
    (contents : List UInt8) : Prop :=
  ∀ line ∈ transcriptLines contents, IsUtf8 line ∧
    ∀ value, importer.parseJson line = some value → (usageOf provider value).isSome →
      ∃ timestamp, (eventTimestamp value).run = .ok timestamp

namespace ImportStage

/-- The transcript that has been read and is not marked yet. -/
def awaitsMark : ImportStage → Option TranscriptPath
  | .marking _ path _ _ => some path
  | _ => none

/-- The transcripts that have been listed and not been done with. -/
def pending : ImportStage → List (AccountProfile × TranscriptPath)
  | .checking profile files _ => files.map (profile, ·)
  | .reading profile path files _ => (path :: files).map (profile, ·)
  | .marking profile path files _ => (path :: files).map (profile, ·)
  | _ => []

end ImportStage

namespace UsageNode

def grown (node : UsageNode) (path : TranscriptPath) (bytes : List UInt8) : List UInt8 :=
  ((node.files.lookup path).map (·.contents)).getD [] ++ bytes

/-- Nothing is appended to a transcript that has been read and is not marked yet; and a
transcript stays below a terabyte. -/
def Undisturbed (node : UsageNode) : UsageAction → Prop
  | .append path bytes _ =>
    node.stage.awaitsMark ≠ some path ∧ ProperPath path ∧ (node.grown path bytes).length < 2 ^ 40
  | _ => True

instance (node : UsageNode) : (action : UsageAction) → Decidable (node.Undisturbed action)
  | .append _ _ _ => inferInstanceAs (Decidable (_ ∧ _))
  | .importTranscripts _ | .work | .fail => inferInstanceAs (Decidable True)

end UsageNode

/-! ### Reading -/

section

variable {importer : UsageImporter} {path : TranscriptPath} {profile : AccountProfile}

theorem Parses.run_map {α β : Type} {parser : Parses α} {f : α → β} {found : Option α}
    (h : parser.run = .ok found) :
    (parser >>= fun value => pure (f value) : Parses β).run = .ok (found.map f) := by
  rw [OptionT.run_bind, h]
  cases found with
  | none | some value => rfl

theorem parseClaudeEvent_ok {value : Json} (h : (usageOf .claude value).isSome →
      ∃ timestamp, (eventTimestamp value).run = .ok timestamp) :
    ∃ parsed, (parseClaudeEvent value).run = .ok parsed := by
  rw [usageOf] at h
  rw [parseClaudeEvent]
  cases hmessage : value.get "message" with
  | none => exact ⟨none, rfl⟩
  | some message =>
    rw [hmessage, bind_some] at h
    dsimp only
    cases husage : message.get "usage" with
    | none => exact ⟨none, rfl⟩
    | some usage =>
      rw [husage] at h
      obtain ⟨timestamp, htimestamp⟩ := h rfl
      exact ⟨_, Parses.run_map htimestamp⟩

theorem parseCodexEvent_ok {value : Json} {model : Option String}
    (h : (usageOf .codex value).isSome → ∃ timestamp, (eventTimestamp value).run = .ok timestamp) :
    ∃ parsed, (parseCodexEvent value model).run = .ok parsed := by
  rw [usageOf] at h
  rw [parseCodexEvent]
  by_cases hkind : (value.pointer ["payload", "type"]).bind Json.asStr = some "token_count"
  · rw [if_pos hkind] at h
    rw [if_neg (not_not.mpr hkind)]
    cases husage : value.pointer ["payload", "info", "last_token_usage"] with
    | none => exact ⟨none, rfl⟩
    | some usage =>
      rw [husage] at h
      obtain ⟨timestamp, htimestamp⟩ := h rfl
      exact ⟨_, Parses.run_map htimestamp⟩
  · rw [if_pos hkind]
    exact ⟨none, rfl⟩

theorem readValue_ok {offset : Nat} {model : Option String} {value : Json}
    (h : (usageOf profile.provider value).isSome →
      ∃ timestamp, (eventTimestamp value).run = .ok timestamp) :
    ∃ read, importer.readValue path profile offset model value = .ok read := by
  rw [UsageImporter.readValue]
  cases hprovider : profile.provider with
  | claude =>
    rw [hprovider] at h
    obtain ⟨parsed, hparsed⟩ := parseClaudeEvent_ok h
    simp only [hparsed]
    exact ⟨_, rfl⟩
  | codex =>
    rw [hprovider] at h
    obtain ⟨parsed, hparsed⟩ := @parseCodexEvent_ok value
      (UsageImporter.nextModel .codex model value) h
    simp only [hparsed]
    exact ⟨_, rfl⟩

theorem readLines_ok {lines : List (List UInt8)}
    (h : ∀ line ∈ lines, IsUtf8 line ∧ ∀ value, importer.parseJson line = some value →
      (usageOf profile.provider value).isSome →
        ∃ timestamp, (eventTimestamp value).run = .ok timestamp)
    (offset : Nat) (model : Option String) :
    ∃ events, importer.readLines path profile offset model lines = .ok events := by
  induction lines generalizing offset model with
  | nil => exact ⟨[], rfl⟩
  | cons line lines ih =>
    rw [forall_mem_cons] at h
    obtain ⟨⟨hutf8, hvalue⟩, hlines⟩ := h
    have hline : ∃ read, importer.readLine path profile offset model line = .ok read := by
      rw [UsageImporter.readLine, if_pos hutf8]
      cases hparsed : importer.parseJson line with
      | none => exact ⟨_, rfl⟩
      | some value => exact readValue_ok (hvalue value hparsed)
    obtain ⟨⟨next, event⟩, hline⟩ := hline
    obtain ⟨events, hevents⟩ := ih hlines (UsageImporter.nextOffset offset line) next
    rw [readLines_cons hline, hevents]
    exact ⟨_, rfl⟩

theorem parseTranscript_ok (path : TranscriptPath) {contents : List UInt8}
    (h : importer.Readable profile.provider contents) :
    ∃ events, importer.parseTranscript path profile contents = .ok events :=
  readLines_ok h 0 none

end

/-! ### The ledger -/

namespace UsageNode

variable {importer : UsageImporter} {node : UsageNode}

variable {row : UsageEvent} {events : List UsageEvent} {path : TranscriptPath}
  {file : TranscriptFile} {profile : AccountProfile} {files : List TranscriptPath}
  {rest : List AccountProfile} {after : UsageNode}

theorem record_lookup (event : UsageEvent) {id : String}
    (h : node.events.lookup id = some row) : (node.record event).events.lookup id = some row := by
  rw [record]
  split
  · exact h
  rename_i hmem
  rw [lookup_insert_ne]
  · exact h
  · rintro rfl
    exact hmem (Table.mem_of_lookup h)

theorem recorded_kept (events : List UsageEvent) {id : String}
    (h : node.events.lookup id = some row) :
    (events.foldl record node).events.lookup id = some row := by
  induction events generalizing node with
  | nil => exact h
  | cons event events ih => exact ih (record_lookup event h)

theorem recorded_mem {event : UsageEvent} (h : event ∈ events) :
    ∃ row, (events.foldl record node).events.lookup event.id = some row := by
  induction events generalizing node with
  | nil => cases h
  | cons first events ih =>
    rcases mem_cons.mp h with rfl | h
    · rw [foldl_cons]
      have hfirst : ∃ row, (node.record event).events.lookup event.id = some row := by
        rw [record]
        split
        · exact isSome_iff_exists.mp (AList.lookup_isSome.mpr ‹_›)
        · exact ⟨event, lookup_insert _⟩
      obtain ⟨row, hrow⟩ := hfirst
      exact ⟨row, recorded_kept events hrow⟩
    · exact ih h

theorem recorded_cases {id : String} (h : (events.foldl record node).events.lookup id = some row) :
    node.events.lookup id = some row ∨ row ∈ events ∧ row.id = id := by
  induction events generalizing node with
  | nil => exact .inl h
  | cons event events ih =>
    rcases ih h with hrow | ⟨hrow, hid⟩
    · rw [record] at hrow
      split at hrow
      · exact .inl hrow
      rcases Table.lookup_insert_cases hrow with ⟨rfl, rfl⟩ | ⟨-, hrow⟩
      · exact .inr ⟨mem_cons_self, rfl⟩
      · exact .inl hrow
    · exact .inr ⟨mem_cons_of_mem _ hrow, hid⟩

theorem record_rest (node : UsageNode) (event : UsageEvent) :
    (node.record event).files = node.files ∧ (node.record event).scanFiles = node.scanFiles := by
  rw [record]
  split
  · exact ⟨rfl, rfl⟩
  · exact ⟨rfl, rfl⟩

theorem recorded_rest (node : UsageNode) (events : List UsageEvent) :
    (events.foldl record node).files = node.files ∧
      (events.foldl record node).scanFiles = node.scanFiles := by
  induction events generalizing node with
  | nil => exact ⟨rfl, rfl⟩
  | cons event events ih =>
    obtain ⟨hfiles, hscan⟩ := record_rest node event
    rw [foldl_cons, (ih _).1, (ih _).2, hfiles, hscan]
    exact ⟨rfl, rfl⟩

def Proper (path : TranscriptPath) (file : TranscriptFile) : Prop :=
  ProperPath path ∧ file.contents.length < 2 ^ 40

/-- What is known of a transcript that an import has listed. -/
structure Listed (files : Table TranscriptPath TranscriptFile) (profile : AccountProfile)
    (path : TranscriptPath) : Prop where
  exists_file : ∃ file, files.lookup path = some file
  isJsonl : isJsonl path
  root : transcriptRoot profile <+: path

/-- All that a transcript bears is among the events. -/
def Covered (importer : UsageImporter) (events : Table String UsageEvent) (path : TranscriptPath)
    (contents : List UInt8) : Prop :=
  ∀ profile, transcriptRoot profile <+: path →
    ∀ borne ∈ importer.borne path profile contents, events.lookup borne.2.id = some borne.2

/-- An event of the ledger is that of a line of a transcript, as it stands or stood. -/
def Genuine (importer : UsageImporter) (files : Table TranscriptPath TranscriptFile)
    (id : String) (row : UsageEvent) : Prop :=
  row.id = id ∧ ∃ path file profile contents offset, Listed files profile path ∧
    files.lookup path = some file ∧ contents <+: file.contents ∧
      (offset, row) ∈ importer.borne path profile contents

/-- What holds between the transcripts and the ledger, whatever an import has come to. -/
structure Kept (importer : UsageImporter) (node : UsageNode) : Prop where
  proper : Table.All Proper node.files
  genuine : Table.All (Genuine importer node.files) node.events
  marks : ∀ path, ProperPath path → ∀ revision,
    node.scanFiles.lookup (importer.pathKey path) = some revision →
      ∃ file, node.files.lookup path = some file ∧ revision.1 ≤ file.contents.length ∧
        (revision.1 = file.contents.length → Covered importer node.events path file.contents)
  listed : ∀ profile path, (profile, path) ∈ node.stage.pending → Listed node.files profile path
  awaited : ∀ path, node.stage.awaitsMark = some path →
    ∃ file, node.files.lookup path = some file ∧ Covered importer node.events path file.contents

theorem transcriptRoot_inj {profile other : AccountProfile}
    (h : transcriptRoot profile = transcriptRoot other) : profile = other := by
  obtain ⟨id, provider⟩ := profile
  obtain ⟨id', provider'⟩ := other
  cases provider with
  | claude =>
    cases provider' with
    | claude =>
      obtain rfl := utf8_injective (List.cons.inj (List.cons.inj h).2).1
      rfl
    | codex => exact absurd (List.cons.inj h).1 (by decide)
  | codex =>
    cases provider' with
    | claude => exact absurd (List.cons.inj h).1 (by decide)
    | codex =>
      obtain rfl := utf8_injective (List.cons.inj (List.cons.inj h).2).1
      rfl

theorem eq_of_root {profile other : AccountProfile}
    (h : transcriptRoot profile <+: path) (hother : transcriptRoot other <+: path) :
    profile = other := by
  have hlength : ∀ profile, (transcriptRoot profile).length = 3 := by
    intro profile
    rw [transcriptRoot]
    split <;> rfl
  refine transcriptRoot_inj (List.IsPrefix.eq_of_length ?_ ((hlength _).trans (hlength _).symm))
  exact prefix_of_prefix_length_le h hother (Nat.le_of_eq ((hlength _).trans (hlength _).symm))

theorem Genuine.eq_of_borne {offset : Nat}
    {id : Option String} (h : Genuine importer node.files (importer.eventId path offset id) row)
    (hsha256 : Function.Injective importer.sha256)
    (hparse : UsageImporter.ReadsWhole importer.parseJson) (hproper : Table.All Proper node.files)
    (hlisted : Listed node.files profile path)
    (hfile : node.files.lookup path = some file) {event : UsageEvent}
    (hborne : (offset, event) ∈ importer.borne path profile file.contents) : row = event := by
  obtain ⟨hid, other, file', profile', contents, offset', hlisted', hfile', hcontents, hborne'⟩ := h
  obtain ⟨id', hid'⟩ := id_of_borne hborne'
  obtain ⟨hpath, hsize⟩ := hproper path file hfile
  obtain ⟨hpath', hsize'⟩ := hproper other file' hfile'
  have hcontentsSize := Nat.lt_of_le_of_lt hcontents.length_le hsize'
  obtain ⟨rfl, rfl⟩ := eventId_inj hsha256 hpath' hlisted'.isJsonl hpath hlisted.isJsonl
    (offset_of_borne hcontentsSize hborne') (offset_of_borne hsize hborne) (hid'.symm.trans hid)
  obtain rfl := some.inj (hfile.symm.trans hfile')
  obtain rfl := eq_of_root hlisted.root hlisted'.root
  obtain ⟨more, hmore⟩ := hcontents
  rw [← hmore] at hborne hsize
  have heq := borne_append hparse (by omega) hborne' hborne rfl
  exact congrArg Prod.snd heq

/-! ### The steps -/

theorem Kept.goOn (h : node.Kept importer) {stage : ImportStage}
    (hlisted : ∀ profile path, (profile, path) ∈ stage.pending → Listed node.files profile path)
    (hawaits : stage.awaitsMark = none) : Kept importer { node with stage := stage } where
  proper := h.proper
  genuine := h.genuine
  marks := h.marks
  listed := hlisted
  awaited := by
    intro path hpath
    rw [hawaits] at hpath
    cases hpath

theorem Listed.append {files : Table TranscriptPath TranscriptFile}
    {path other : TranscriptPath} (h : Listed files profile path) :
    Listed (files.insert other file) profile path where
  exists_file := by
    by_cases hpath : path = other
    · exact ⟨file, by rw [hpath, lookup_insert]⟩
    · rw [lookup_insert_ne hpath]
      exact h.exists_file
  isJsonl := h.isJsonl
  root := h.root

theorem mem_jsonlFiles {root path : TranscriptPath} :
    path ∈ node.jsonlFiles root ↔ path ∈ node.files ∧ root <+: path ∧ isJsonl path := by
  rw [jsonlFiles, mem_insertionSort, mem_filter, Bool.and_eq_true,
    isPrefixOf_iff_prefix, AList.mem_keys]

section
variable (h : node.Kept importer)
include h

theorem Kept.append {bytes : List UInt8}
    {modifiedNs : Nat} (hundisturbed : node.Undisturbed (.append path bytes modifiedNs)) :
    Kept importer { node with
      files := node.files.insert path ⟨node.grown path bytes, modifiedNs⟩ } := by
  obtain ⟨hawaits, hpath, hsize⟩ := hundisturbed
  have hgrown : ∀ file, node.files.lookup path = some file →
      node.grown path bytes = file.contents ++ bytes := by
    intro file hfile
    rw [grown, hfile]
    rfl
  refine { proper := ?_, genuine := ?_, marks := ?_, listed := ?_, awaited := ?_ }
  · exact h.proper.insert ⟨hpath, hsize⟩
  · intro id row hrow
    obtain ⟨hid, other, file, profile, contents, offset, hlisted, hfile, hcontents, hborne⟩ :=
      h.genuine id row hrow
    by_cases hother : other = path
    · subst hother
      refine ⟨hid, other, _, profile, contents, offset, hlisted.append, lookup_insert _, ?_, hborne⟩
      rw [hgrown file hfile]
      exact hcontents.trans (prefix_append _ _)
    · exact ⟨hid, other, file, profile, contents, offset, hlisted.append,
        (lookup_insert_ne hother).trans hfile, hcontents, hborne⟩
  · intro other hproper revision hrevision
    obtain ⟨file, hfile, hle, hcovered⟩ := h.marks other hproper revision hrevision
    by_cases hother : other = path
    · subst hother
      refine ⟨_, lookup_insert _, ?_, ?_⟩
      · rw [hgrown file hfile, length_append]
        omega
      -- a mark of the whole size is one that nothing was appended after
      rw [hgrown file hfile, length_append]
      intro heq
      obtain rfl := length_eq_zero_iff.mp (show bytes.length = 0 by omega)
      rw [append_nil]
      exact hcovered (by simpa using heq)
    · exact ⟨file, (lookup_insert_ne hother).trans hfile, hle, hcovered⟩
  · intro profile other hmem
    exact (h.listed profile other hmem).append
  intro other hother
  obtain ⟨file, hfile, hcovered⟩ := h.awaited other hother
  have hne : other ≠ path := by
    rintro rfl
    exact hawaits hother
  exact ⟨file, (lookup_insert_ne hne).trans hfile, hcovered⟩

theorem Kept.read (hsha256 : Function.Injective importer.sha256)
    (hparse : UsageImporter.ReadsWhole importer.parseJson)
    (hstage : node.stage = .reading profile path files rest)
    (hfile : node.files.lookup path = some file)
    (hevents : importer.parseTranscript path profile file.contents = .ok events) :
    Kept importer { events.foldl record node with stage := .marking profile path files rest } := by
  obtain ⟨hfiles, hscan⟩ := recorded_rest node events
  have hborne : (importer.borne path profile file.contents).map Prod.snd = events :=
    map_bearing hevents
  have hlisted := h.listed profile path (by rw [hstage]; exact mem_cons_self)
  have hgenuine : Table.All (Genuine importer node.files) (events.foldl record node).events := by
    intro id row hrow
    rcases recorded_cases hrow with hrow | ⟨hrow, hid⟩
    · exact h.genuine id row hrow
    rw [← hborne] at hrow
    obtain ⟨⟨offset, event⟩, hborne, rfl⟩ := mem_map.mp hrow
    exact ⟨hid, path, file, profile, file.contents, offset, hlisted, hfile, prefix_rfl, hborne⟩
  refine { proper := ?_, genuine := ?_, marks := ?_, listed := ?_, awaited := ?_ }
  · rw [hfiles]
    exact h.proper
  · rw [hfiles]
    exact hgenuine
  · rw [hfiles, hscan]
    intro other hother revision hrevision
    obtain ⟨found, hfound, hle, hcovered⟩ := h.marks other hother revision hrevision
    refine ⟨found, hfound, hle, fun heq owner hroot borne hborne => ?_⟩
    exact recorded_kept events (hcovered heq owner hroot borne hborne)
  · rw [hfiles]
    intro owner other hother
    exact h.listed owner other (by rw [hstage]; exact hother)
  rw [hfiles]
  intro other hother
  obtain rfl : path = other := some.inj hother
  refine ⟨file, hfile, ?_⟩
  rintro owner hroot ⟨offset, event⟩ hmem
  obtain rfl := eq_of_root hlisted.root hroot
  obtain ⟨id, hid⟩ := id_of_borne hmem
  have hevent : event ∈ events := by
    rw [← hborne]
    exact mem_map_of_mem hmem
  obtain ⟨row, hrow⟩ := @recorded_mem node events event hevent
  have hrowGenuine := hgenuine event.id row hrow
  rw [hid] at hrowGenuine
  rw [hrow, hrowGenuine.eq_of_borne hsha256 hparse h.proper hlisted hfile hmem]

theorem Kept.mark (hstage : node.stage = .marking profile path files rest)
    (hfile : node.files.lookup path = some file) : Kept importer { node with
      scanFiles := node.scanFiles.insert (importer.pathKey path) file.revision
      stage := .checking profile files rest } := by
  refine { proper := h.proper, genuine := h.genuine, marks := ?_, listed := ?_, awaited := ?_ }
  · intro other hother revision hrevision
    rcases Table.lookup_insert_cases hrevision with ⟨hkey, rfl⟩ | ⟨-, hrevision⟩
    · obtain ⟨hproper, hsize⟩ := h.proper path file hfile
      obtain rfl := pathKey_inj hother hproper hkey
      obtain ⟨found, hfound, hcovered⟩ := h.awaited other (by rw [hstage]; rfl)
      obtain rfl := some.inj (hfile.symm.trans hfound)
      exact ⟨file, hfile, Nat.min_le_left _ _, fun _ => hcovered⟩
    · exact h.marks other hother revision hrevision
  · intro owner other hother
    refine h.listed owner other ?_
    rw [hstage]
    exact mem_cons_of_mem _ hother
  · intro other hother
    cases hother

theorem Kept.work (hsha256 : Function.Injective importer.sha256)
    (hparse : UsageImporter.ReadsWhole importer.parseJson)
    (hwork : node.work importer = some after) : after.Kept importer := by
  have hdone : ∀ {result}, Kept importer { node with stage := .done result } := by
    intro result
    exact h.goOn (by intro profile path hmem; cases hmem) rfl
  rw [UsageNode.work] at hwork
  cases hstage : node.stage with
  | done result =>
    rw [hstage] at hwork
    cases hwork
  | profiles rest =>
    rw [hstage] at hwork
    cases rest with
    | nil =>
      obtain ⟨⟩ := hwork
      exact hdone
    | cons profile rest =>
      obtain ⟨⟩ := hwork
      refine h.goOn ?_ rfl
      intro owner path hmem
      obtain ⟨listed, hlisted, heq⟩ := mem_map.mp hmem
      obtain ⟨rfl, rfl⟩ := Prod.mk.inj heq
      obtain ⟨hfile, hroot, hjsonl⟩ := mem_jsonlFiles.mp hlisted
      exact ⟨isSome_iff_exists.mp (AList.lookup_isSome.mpr hfile), hjsonl, hroot⟩
  | checking profile files rest =>
    rw [hstage] at hwork
    cases files with
    | nil =>
      obtain ⟨⟩ := hwork
      exact h.goOn (by intro owner path hmem; cases hmem) rfl
    | cons path files =>
      cases hfile : node.files.lookup path with
      | none =>
        simp only [hfile] at hwork
        obtain ⟨⟩ := hwork
        exact hdone
      | some file =>
        simp only [hfile] at hwork
        obtain ⟨⟩ := hwork
        refine h.goOn ?_ ?_
        · intro owner other hmem
          refine h.listed owner other ?_
          rw [hstage]
          split at hmem
          · exact mem_cons_of_mem _ hmem
          · exact hmem
        · split <;> rfl
  | reading profile path files rest =>
    rw [hstage] at hwork
    cases hfile : node.files.lookup path with
    | none =>
      simp only [hfile] at hwork
      obtain ⟨⟩ := hwork
      exact hdone
    | some file =>
      simp only [hfile] at hwork
      cases hevents : importer.parseTranscript path profile file.contents with
      | error failure =>
        simp only [hevents] at hwork
        obtain ⟨⟩ := hwork
        exact hdone
      | ok events =>
        simp only [hevents] at hwork
        obtain ⟨⟩ := hwork
        exact h.read hsha256 hparse hstage hfile hevents
  | marking profile path files rest =>
    rw [hstage] at hwork
    cases hfile : node.files.lookup path with
    | none =>
      simp only [hfile] at hwork
      obtain ⟨⟩ := hwork
      exact hdone
    | some file =>
      simp only [hfile] at hwork
      obtain ⟨⟩ := hwork
      exact h.mark hstage hfile

theorem Kept.step (hsha256 : Function.Injective importer.sha256)
    (hparse : UsageImporter.ReadsWhole importer.parseJson) {action : UsageAction}
    (hundisturbed : node.Undisturbed action)
    (hstep : node.step importer action = some after) : after.Kept importer := by
  cases action with
  | append path bytes modifiedNs =>
    obtain ⟨⟩ := hstep
    exact h.append hundisturbed
  | importTranscripts profiles =>
    rw [UsageNode.step] at hstep
    split at hstep <;> obtain ⟨⟩ := hstep
    have hbegun : Kept importer { node with imported := 0 } :=
      ⟨h.proper, h.genuine, h.marks, h.listed, h.awaited⟩
    exact hbegun.goOn (by intro profile path hmem; cases hmem) rfl
  | work => exact h.work hsha256 hparse hstep
  | fail =>
    rw [UsageNode.step] at hstep
    split at hstep <;> obtain ⟨⟩ := hstep
    exact h.goOn (by intro profile path hmem; cases hmem) rfl

end

theorem kept_empty : Kept importer {} where
  proper := Table.All.empty
  genuine := Table.All.empty
  marks := by
    intro path hpath revision hrevision
    cases hrevision
  listed := by
    intro profile path hmem
    cases hmem
  awaited := by
    intro path hpath
    cases hpath

theorem kept_of_run (hsha256 : Function.Injective importer.sha256)
    (hparse : UsageImporter.ReadsWhole importer.parseJson) {actions : List UsageAction}
    (hmeets : Meets Undisturbed (UsageNode.step importer) {} actions)
    (hrun : partialRun (UsageNode.step importer) {} actions = some node) : node.Kept importer :=
  hmeets.invariant (fun _ _ _ hkept hmeets hstep => hkept.step hsha256 hparse hmeets hstep)
    kept_empty hrun

/-! ### An import that nothing comes between -/

/-- One step of an import. -/
def Works (importer : UsageImporter) (node after : UsageNode) : Prop :=
  node.work importer = some after

/-- Nothing is taken from the ledger, and the transcripts are the same. -/
structure Grew (node after : UsageNode) : Prop where
  files : after.files = node.files
  events : ∀ id row, node.events.lookup id = some row → after.events.lookup id = some row

theorem Grew.trans {middle after : UsageNode} (h : node.Grew middle) (hafter : middle.Grew after) :
    node.Grew after where
  files := hafter.files.trans h.files
  events id row hrow := hafter.events id row (h.events id row hrow)

theorem Covered.grew {contents : List UInt8}
    (h : Covered importer node.events path contents) (hgrew : node.Grew after) :
    Covered importer after.events path contents :=
  fun profile hroot borne hborne => hgrew.events _ _ (h profile hroot borne hborne)

theorem Kept.works (h : node.Kept importer) (hsha256 : Function.Injective importer.sha256)
    (hparse : UsageImporter.ReadsWhole importer.parseJson)
    (hworks : Relation.ReflTransGen (Works importer) node after) : after.Kept importer := by
  induction hworks with
  | refl => exact h
  | tail _ hstep ih => exact ih.work hsha256 hparse hstep

section

variable {profile : AccountProfile} {path : TranscriptPath} {files : List TranscriptPath}
  {rest : List AccountProfile} {file : TranscriptFile}

theorem works_check (hstage : node.stage = .checking profile (path :: files) rest)
    (hfile : node.files.lookup path = some file) :
    ∃ after, Works importer node after ∧ node.Grew after ∧
      after.stage = if node.isCurrent importer path file then .checking profile files rest
        else .reading profile path files rest := by
  refine ⟨{ node with
    stage := if node.isCurrent importer path file then .checking profile files rest
      else .reading profile path files rest }, ?_, ⟨rfl, fun _ _ => id⟩, rfl⟩
  rw [Works, UsageNode.work, hstage]
  simp only [hfile]

theorem works_read (hstage : node.stage = .reading profile path files rest)
    (hfile : node.files.lookup path = some file)
    (hreadable : importer.Readable profile.provider file.contents) :
    ∃ after, Works importer node after ∧ node.Grew after ∧
      after.stage = .marking profile path files rest := by
  obtain ⟨events, hevents⟩ := parseTranscript_ok path hreadable
  refine ⟨{ events.foldl record node with stage := .marking profile path files rest }, ?_,
    ⟨(recorded_rest node events).1, fun id row hrow => recorded_kept events hrow⟩, rfl⟩
  rw [Works, UsageNode.work, hstage]
  simp only [hfile, hevents]

theorem works_mark (hstage : node.stage = .marking profile path files rest)
    (hfile : node.files.lookup path = some file) :
    ∃ after, Works importer node after ∧ node.Grew after ∧
      after.stage = .checking profile files rest := by
  refine ⟨{ node with
    scanFiles := node.scanFiles.insert (importer.pathKey path) file.revision
    stage := .checking profile files rest }, ?_, ⟨rfl, fun _ _ => id⟩, rfl⟩
  rw [Works, UsageNode.work, hstage]
  simp only [hfile]

theorem works_file (h : node.Kept importer) (hsha256 : Function.Injective importer.sha256)
    (hparse : UsageImporter.ReadsWhole importer.parseJson)
    (hstage : node.stage = .checking profile (path :: files) rest)
    (hfile : node.files.lookup path = some file)
    (hreadable : importer.Readable profile.provider file.contents) :
    ∃ after, Relation.ReflTransGen (Works importer) node after ∧
      after.stage = .checking profile files rest ∧ node.Grew after ∧
      Covered importer after.events path file.contents := by
  obtain ⟨checked, hcheck, hgrew, hchecked⟩ := @works_check importer node _ _ _ _ _ hstage hfile
  by_cases hcurrent : node.isCurrent importer path file
  · rw [if_pos hcurrent] at hchecked
    refine ⟨checked, .single hcheck, hchecked, hgrew, ?_⟩
    obtain ⟨hproper, hsize⟩ := h.proper path file hfile
    have hlength : file.revision.1 = file.contents.length := Nat.min_eq_left (by omega)
    obtain ⟨found, hfound, -, hcovered⟩ :=
      h.marks path hproper file.revision (of_decide_eq_true hcurrent)
    obtain rfl := some.inj (hfile.symm.trans hfound)
    exact (hcovered hlength).grew hgrew
  rw [if_neg hcurrent] at hchecked
  rw [← hgrew.files] at hfile
  obtain ⟨read, hread, hgrewRead, hreadStage⟩ := works_read hchecked hfile hreadable
  rw [← hgrewRead.files] at hfile
  obtain ⟨marked, hmark, hgrewMark, hmarked⟩ := @works_mark importer _ _ _ _ _ _ hreadStage hfile
  have hreaches : Relation.ReflTransGen (Works importer) node read :=
    (Relation.ReflTransGen.single hcheck).tail hread
  refine ⟨marked, hreaches.tail hmark, hmarked, (hgrew.trans hgrewRead).trans hgrewMark, ?_⟩
  obtain ⟨found, hfound, hcovered⟩ :=
    (h.works hsha256 hparse hreaches).awaited path (by rw [hreadStage]; rfl)
  obtain rfl := some.inj (hfile.symm.trans hfound)
  exact hcovered.grew hgrewMark

end

section
variable (h : node.Kept importer) (hsha256 : Function.Injective importer.sha256)
  (hparse : UsageImporter.ReadsWhole importer.parseJson)
include h hsha256 hparse

theorem works_files (hstage : node.stage = .checking profile files rest)
    (hreadable : ∀ path ∈ files, ∀ file, node.files.lookup path = some file →
      importer.Readable profile.provider file.contents) :
    ∃ after, Relation.ReflTransGen (Works importer) node after ∧ after.stage = .profiles rest ∧
      node.Grew after ∧ ∀ path ∈ files, ∀ file, node.files.lookup path = some file →
        Covered importer after.events path file.contents := by
  induction files generalizing node with
  | nil =>
    refine ⟨{ node with stage := .profiles rest }, .single ?_, rfl, ⟨rfl, fun _ _ => id⟩, ?_⟩
    · rw [Works, UsageNode.work, hstage]
    · intro path hpath
      cases hpath
  | cons path files ih =>
    rw [forall_mem_cons] at hreadable
    obtain ⟨file, hfile⟩ :=
      (h.listed profile path (by rw [hstage]; exact mem_cons_self)).exists_file
    obtain ⟨middle, hworks, hmiddle, hgrew, hcovered⟩ :=
      works_file h hsha256 hparse hstage hfile (hreadable.1 file hfile)
    obtain ⟨after, hrest, hafter, hgrewRest, hcoveredRest⟩ :=
      ih (h.works hsha256 hparse hworks) hmiddle (by rw [hgrew.files]; exact hreadable.2)
    refine ⟨after, hworks.trans hrest, hafter, hgrew.trans hgrewRest, ?_⟩
    rw [forall_mem_cons]
    constructor
    · intro found hfound
      obtain rfl := some.inj (hfile.symm.trans hfound)
      exact hcovered.grew hgrewRest
    · rw [hgrew.files] at hcoveredRest
      exact hcoveredRest

theorem works_profiles {profiles : List AccountProfile} (hstage : node.stage = .profiles profiles)
    (hreadable : ∀ profile ∈ profiles, ∀ path ∈ node.jsonlFiles (transcriptRoot profile),
      ∀ file, node.files.lookup path = some file →
        importer.Readable profile.provider file.contents) :
    ∃ after count, Relation.ReflTransGen (Works importer) node after ∧
      after.stage = .done (.ok count) ∧ node.Grew after ∧
      ∀ profile ∈ profiles, ∀ path ∈ node.jsonlFiles (transcriptRoot profile),
        ∀ file, node.files.lookup path = some file →
          Covered importer after.events path file.contents := by
  induction profiles generalizing node with
  | nil =>
    refine ⟨{ node with stage := .done (.ok node.imported) }, _, .single ?_, rfl,
      ⟨rfl, fun _ _ => id⟩, ?_⟩
    · rw [Works, UsageNode.work, hstage]
    · intro profile hprofile
      cases hprofile
  | cons profile profiles ih =>
    rw [forall_mem_cons] at hreadable
    have hlist : Works importer node { node with
        stage := .checking profile (node.jsonlFiles (transcriptRoot profile)) profiles } := by
      rw [Works, UsageNode.work, hstage]
    have hlisted := h.work hsha256 hparse hlist
    obtain ⟨middle, hworks, hmiddle, hgrew, hcovered⟩ :=
      works_files hlisted hsha256 hparse rfl hreadable.1
    have hfiles : middle.files = node.files := hgrew.files
    have hjsonl : ∀ root, middle.jsonlFiles root = node.jsonlFiles root := by
      intro root
      rw [jsonlFiles, jsonlFiles, hfiles]
    obtain ⟨after, count, hrest, hafter, hgrewRest, hcoveredRest⟩ :=
      ih (hlisted.works hsha256 hparse hworks) hmiddle
        (by simp only [hjsonl, hfiles]; exact hreadable.2)
    simp only [hjsonl, hfiles] at hcoveredRest
    refine ⟨after, count, (Relation.ReflTransGen.single hlist).trans (hworks.trans hrest), hafter,
      ⟨hgrewRest.files.trans hfiles, fun id row hrow =>
        hgrewRest.events id row (hgrew.events id row hrow)⟩, ?_⟩
    rw [forall_mem_cons]
    exact ⟨fun path hpath file hfile => (hcovered path hpath file hfile).grew hgrewRest,
      hcoveredRest⟩

theorem Kept.exactlyOnce {profiles : List AccountProfile}
    (hcovered : ∀ profile ∈ profiles, ∀ path ∈ node.jsonlFiles (transcriptRoot profile),
      ∀ file, node.files.lookup path = some file →
        Covered importer node.events path file.contents) : node.ExactlyOnce importer profiles := by
  have hlisted : ∀ profile path, path ∈ node.jsonlFiles (transcriptRoot profile) →
      Listed node.files profile path := by
    intro profile path hpath
    obtain ⟨hfile, hroot, hjsonl⟩ := mem_jsonlFiles.mp hpath
    exact ⟨isSome_iff_exists.mp (AList.lookup_isSome.mpr hfile), hjsonl, hroot⟩
  refine { recorded := ?_, apart := ?_, single := ?_, sound := ?_ }
  · rintro path offset event ⟨profile, hprofile, file, hpath, hfile, hborne⟩
    exact hcovered profile hprofile path hpath file hfile profile (hlisted profile path hpath).root
      _ hborne
  · rintro path offset event other offset' event' ⟨profile, -, file, hpath, hfile, hborne⟩
      ⟨profile', -, file', hpath', hfile', hborne'⟩ hids
    obtain ⟨hproper, hsize⟩ := h.proper path file hfile
    obtain ⟨hproper', hsize'⟩ := h.proper other file' hfile'
    obtain ⟨id, hid⟩ := id_of_borne hborne
    obtain ⟨id', hid'⟩ := id_of_borne hborne'
    exact eventId_inj hsha256 hproper (hlisted profile path hpath).isJsonl hproper'
      (hlisted profile' other hpath').isJsonl (offset_of_borne hsize hborne)
      (offset_of_borne hsize' hborne') (hid.symm.trans (hids.trans hid'))
  · rintro path offset event ⟨profile, -, file, hpath, hfile, hborne⟩ id row hrow
    exact (h.genuine _ row hrow).eq_of_borne hsha256 hparse h.proper (hlisted profile path hpath)
      hfile hborne
  intro id row hrow
  obtain ⟨hid, path, file, profile, contents, offset, -, hfile, hcontents, hborne⟩ :=
    h.genuine id row hrow
  exact ⟨hid, path, file, profile, contents, offset, hfile, hcontents, hborne⟩

end

/-- Let nothing be appended to a transcript between its reading and its mark, and let the next import
find every transcript readable and nothing come between: it ends, and leaves exactly one event for
each line that bears one. -/
theorem import_exactlyOnce (hsha256 : Function.Injective importer.sha256)
    (hparse : UsageImporter.ReadsWhole importer.parseJson) {actions : List UsageAction}
    (hmeets : Meets Undisturbed (UsageNode.step importer) {} actions)
    (hrun : partialRun (UsageNode.step importer) {} actions = some node)
    {profiles : List AccountProfile} {begun : UsageNode}
    (hbegun : node.step importer (.importTranscripts profiles) = some begun)
    (hreadable : ∀ profile ∈ profiles, ∀ path ∈ node.jsonlFiles (transcriptRoot profile),
      ∀ file, node.files.lookup path = some file →
        importer.Readable profile.provider file.contents) :
    ∃ after count, Relation.ReflTransGen (Works importer) begun after ∧
      after.stage = .done (.ok count) ∧ after.files = node.files ∧
      after.ExactlyOnce importer profiles := by
  have hundisturbed : node.Undisturbed (.importTranscripts profiles) := trivial
  have hkept := (kept_of_run hsha256 hparse hmeets hrun).step hsha256 hparse hundisturbed hbegun
  rw [UsageNode.step] at hbegun
  split at hbegun <;> obtain ⟨⟩ := hbegun
  obtain ⟨after, count, hworks, hafter, hgrew, hcovered⟩ :=
    works_profiles hkept hsha256 hparse rfl hreadable
  have hfiles : after.files = node.files := hgrew.files
  refine ⟨after, count, hworks, hafter, hfiles, ?_⟩
  refine (hkept.works hsha256 hparse hworks).exactlyOnce hsha256 hparse ?_
  intro profile hprofile path hpath file hfile
  rw [jsonlFiles, hfiles] at hpath
  rw [hfiles] at hfile
  exact hcovered profile hprofile path hpath file hfile

/-! ### One run that is undisturbed, and one that is not -/

def sampleLine : Json :=
  .object [("timestamp", .number 7),
    ("message", .object [("usage", .object [("output_tokens", .number 3)])])]

def sampleImporter : UsageImporter where
  parseJson line := if line = sampleLine.bytes then some sampleLine else none
  sha256 := sampleSha256
  accountsRoot := "/accounts"

theorem sampleImporter_readsWhole : UsageImporter.ReadsWhole sampleImporter.parseJson := by
  intro line more value longer hline hvalue hlonger
  simp only [sampleImporter, ite_none_right_eq_some, some.injEq] at hline hlonger
  rw [← hline.2, ← hlonger.2]

def sampleProfile : AccountProfile := ⟨"work", .claude⟩

def samplePath : TranscriptPath := transcriptRoot sampleProfile ++ [utf8 "a.jsonl"]

def writesLine (modifiedNs : Nat) : UsageAction :=
  .append samplePath (sampleLine.bytes ++ [0x0A]) modifiedNs

/-- Another line is written before the import begins that has to find it. -/
def quietRun : List UsageAction :=
  [writesLine 1, .importTranscripts [sampleProfile]] ++ List.replicate 6 .work ++ [writesLine 2]

/-- The other line is written after the first one was read, and before the mark. -/
def lateRun : List UsageAction :=
  [writesLine 1, .importTranscripts [sampleProfile]] ++ List.replicate 3 .work ++ [writesLine 2] ++
    List.replicate 3 .work

def sampleEvent (offset : Nat) : UsageEvent where
  id := sampleImporter.eventId samplePath offset none
  occurredAt := 7
  provider := .claude
  profileId := some "work"
  sessionId := none
  model := none
  inputTokens := 0
  outputTokens := 3
  cacheReadTokens := 0
  cacheWriteTokens := 0

theorem sample_readable {contents : List UInt8}
    (h : ∀ line ∈ transcriptLines contents, IsUtf8 line) :
    sampleImporter.Readable .claude contents := by
  intro line hline
  refine ⟨h line hline, ?_⟩
  intro value hvalue _
  simp only [sampleImporter, ite_none_right_eq_some, some.injEq] at hvalue
  exact ⟨some 7, by rw [← hvalue.2]; rfl⟩

/-- An import can begin, and finds every transcript readable. -/
def Ready (node : UsageNode) : Prop :=
  (node.step sampleImporter (.importTranscripts [sampleProfile])).isSome ∧
    Table.All (fun _ file => ∀ line ∈ transcriptLines file.contents, IsUtf8 line) node.files

instance (node : UsageNode) : Decidable node.Ready := inferInstanceAs (Decidable (_ ∧ _))

theorem Ready.readable {node : UsageNode} (h : node.Ready) :
    ∀ profile ∈ [sampleProfile], ∀ path ∈ node.jsonlFiles (transcriptRoot profile),
      ∀ file, node.files.lookup path = some file →
        sampleImporter.Readable profile.provider file.contents := by
  intro profile hprofile path hpath file hfile
  obtain rfl := mem_singleton.mp hprofile
  exact sample_readable (h.2 path file hfile)

/-- The ledger has both lines. -/
theorem import_exactlyOnce_quiet : ∃ node begun after count,
      partialRun (UsageNode.step sampleImporter) {} quietRun = some node ∧
      node.step sampleImporter (.importTranscripts [sampleProfile]) = some begun ∧
      Relation.ReflTransGen (Works sampleImporter) begun after ∧
      after.stage = .done (.ok count) ∧ after.ExactlyOnce sampleImporter [sampleProfile] := by
  have hmeets : Meets Undisturbed (UsageNode.step sampleImporter) {} quietRun := by
    decide +kernel
  obtain ⟨node, hrun⟩ : ∃ node, partialRun (UsageNode.step sampleImporter) {} quietRun = some node :=
    isSome_iff_exists.mp (by decide +kernel)
  have hready : ∀ node ∈ partialRun (UsageNode.step sampleImporter) {} quietRun, node.Ready := by
    decide +kernel
  obtain ⟨begun, hbegun⟩ := isSome_iff_exists.mp (hready node hrun).1
  obtain ⟨after, count, hworks, hafter, -, hexactly⟩ :=
    import_exactlyOnce sampleSha256_injective sampleImporter_readsWhole hmeets hrun hbegun
      (hready node hrun).readable
  exact ⟨node, begun, after, count, hrun, hbegun, hworks, hafter, hexactly⟩

theorem works_of_run {steps : Nat} {node after : UsageNode}
    (h : partialRun (UsageNode.step importer) node (List.replicate steps .work) = some after) :
    Relation.ReflTransGen (Works importer) node after := by
  induction steps generalizing node with
  | zero =>
    obtain ⟨⟩ := h
    exact .refl
  | succ steps ih =>
    obtain ⟨next, hnext, hrest⟩ := bind_eq_some_iff.mp h
    exact .head hnext (ih hrest)

theorem Works.eq_of_done {node after other : UsageNode}
    (hafter : Relation.ReflTransGen (Works importer) node after)
    (hother : Relation.ReflTransGen (Works importer) node other)
    (hdone : after.work importer = none) (hotherDone : other.work importer = none) :
    after = other := by
  have hunique : Relator.RightUnique (Works importer) := fun _ _ _ hfirst hsecond =>
    some.inj (hfirst.symm.trans hsecond)
  have hend : ∀ {a b : UsageNode}, a.work importer = none →
      Relation.ReflTransGen (Works importer) a b → a = b := by
    intro a b ha hab
    rcases hab.cases_head with rfl | ⟨next, hnext, -⟩
    · rfl
    · cases ha.symm.trans hnext
  rcases Relation.ReflTransGen.total_of_right_unique hunique hafter hother with h | h
  · exact hend hdone h
  · exact (hend hotherDone h).symm

def secondOffset : Nat := sampleLine.bytes.length + 1

/-- The import is done, and the second line of the transcript has no event in the ledger. -/
def Misses (node : UsageNode) : Prop :=
  (node.work sampleImporter).isNone ∧
    node.events.lookup (sampleEvent secondOffset).id = none ∧
    samplePath ∈ node.jsonlFiles (transcriptRoot sampleProfile) ∧
    Table.All (fun path file => path = samplePath →
      (secondOffset, sampleEvent secondOffset) ∈
        sampleImporter.borne samplePath sampleProfile file.contents) node.files

instance (node : UsageNode) : Decidable node.Misses := inferInstanceAs (Decidable (_ ∧ _))

def sampleImport : List UsageAction :=
  .importTranscripts [sampleProfile] :: List.replicate 4 .work

theorem Misses.not_exactlyOnce {node : UsageNode} (h : node.Misses) :
    ¬node.ExactlyOnce sampleImporter [sampleProfile] := by
  intro hexactly
  obtain ⟨-, hlost, hpath, hborne⟩ := h
  obtain ⟨file, hfile⟩ :=
    isSome_iff_exists.mp (AList.lookup_isSome.mpr (mem_jsonlFiles.mp hpath).1)
  have hrecorded := hexactly.recorded samplePath secondOffset (sampleEvent secondOffset)
    ⟨sampleProfile, mem_singleton_self _, file, hpath, hfile, hborne _ file hfile rfl⟩
  rw [hlost] at hrecorded
  cases hrecorded

/-- A line is lost that is written after the reading and before the mark, even if every transcript is
readable and nothing is written any more. -/
theorem late_line_lost : ¬∀ importer : UsageImporter, Function.Injective importer.sha256 →
      UsageImporter.ReadsWhole importer.parseJson →
      ∀ (actions : List UsageAction) (node : UsageNode),
        partialRun (UsageNode.step importer) {} actions = some node →
        ∀ (profiles : List AccountProfile) (begun : UsageNode),
          node.step importer (.importTranscripts profiles) = some begun →
          (∀ profile ∈ profiles, ∀ path ∈ node.jsonlFiles (transcriptRoot profile),
            ∀ file, node.files.lookup path = some file →
              importer.Readable profile.provider file.contents) →
          ∃ after count, Relation.ReflTransGen (Works importer) begun after ∧
            after.stage = .done (.ok count) ∧ after.ExactlyOnce importer profiles := by
  intro h
  obtain ⟨node, hrun⟩ : ∃ node, partialRun (UsageNode.step sampleImporter) {} lateRun = some node :=
    Option.isSome_iff_exists.mp (by decide +kernel)
  have hready : ∀ node ∈ partialRun (UsageNode.step sampleImporter) {} lateRun, node.Ready ∧
      (partialRun (UsageNode.step sampleImporter) node sampleImport).isSome ∧
      ∀ after ∈ partialRun (UsageNode.step sampleImporter) node sampleImport, after.Misses := by
    decide +kernel
  obtain ⟨hnode, hsome, hmisses⟩ := hready node hrun
  obtain ⟨found, hfound⟩ := Option.isSome_iff_exists.mp hsome
  have hmissed := hmisses found hfound
  obtain ⟨begun, hbegun⟩ := Option.isSome_iff_exists.mp hnode.1
  obtain ⟨after, count, hworks, hafter, hexactly⟩ := h sampleImporter sampleSha256_injective
    sampleImporter_readsWhole lateRun node hrun [sampleProfile] begun hbegun hnode.readable
  have hdone : after.work sampleImporter = none := by
    rw [UsageNode.work, hafter]
  rw [sampleImport, partialRun_cons, hbegun, Option.bind_some] at hfound
  obtain rfl := Works.eq_of_done hworks (works_of_run hfound) hdone
    (Option.isNone_iff_eq_none.mp hmissed.1)
  exact hmissed.not_exactlyOnce hexactly

end UsageNode

end Diri
