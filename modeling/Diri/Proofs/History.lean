/-
What is read of the beginning of a Claude transcript.

Reading stops as soon as a line that has `"cwd"` in it is complete, whatever the line says.
So what matters is where such a line is: if a line up to it names the directory, the lines
after it change nothing, and if none does, reading can stop right after it.

Which entries a scan of the transcripts returns.

Of the entries with one id the one that is listed first is kept, and only then are they put
in order.  So the entry returned is the newest of its id just if that is listed first, or if
there are enough newer ones for it to be cut off.
-/
import Diri.Engine.History
import Diri.Lib.Lossy

namespace Diri.History

open List

variable {scanner : Scanner} {file : TranscriptFile}

/-! ### Finding a sequence -/

section
variable {α : Type} [DecidableEq α] {needle : List α}

theorem find_cons (first : α) (rest needle : List α) : find (first :: rest) needle =
      if needle.isPrefixOf (first :: rest) then some 0 else (find rest needle).map (· + 1) := by
  unfold find
  rw [tails_cons, findIdx?_cons]

theorem find_nil (hne : needle ≠ []) : find [] needle = none := by
  cases needle with
  | nil => exact absurd rfl hne
  | cons first rest => rfl

variable {haystack : List α}

theorem find_le (hne : needle ≠ []) {position : Nat}
    (h : find haystack needle = some position) : position + needle.length ≤ haystack.length := by
  induction haystack generalizing position with
  | nil =>
    rw [find_nil hne] at h
    cases h
  | cons first rest ih =>
    rw [find_cons] at h
    split at h
    · rename_i hprefix
      obtain ⟨⟩ := h
      rw [Nat.zero_add]
      exact (List.isPrefixOf_iff_prefix.mp hprefix).length_le
    obtain ⟨later, hlater, rfl⟩ := Option.map_eq_some_iff.mp h
    have := ih hlater
    rw [List.length_cons]
    omega

theorem not_isPrefixOf_append (h : ¬needle.isPrefixOf haystack = true)
    (hlength : needle.length ≤ haystack.length) (more : List α) :
    ¬needle.isPrefixOf (haystack ++ more) = true := by
  rw [List.isPrefixOf_iff_prefix] at h ⊢
  exact fun hprefix => h (prefix_of_prefix_length_le hprefix (prefix_append _ _) hlength)

theorem find_append (hne : needle ≠ []) {position : Nat}
    (h : find haystack needle = some position) (more : List α) :
    find (haystack ++ more) needle = some position := by
  induction haystack generalizing position with
  | nil =>
    rw [find_nil hne] at h
    cases h
  | cons first rest ih =>
    rw [cons_append, find_cons]
    rw [find_cons] at h
    split at h
    · rename_i hprefix
      have hlonger := (List.isPrefixOf_iff_prefix.mp hprefix).trans (prefix_append _ more)
      rw [← cons_append, if_pos (List.isPrefixOf_iff_prefix.mpr hlonger), h]
    rename_i hprefix
    obtain ⟨later, hlater, rfl⟩ := Option.map_eq_some_iff.mp h
    have hlength := find_le hne hlater
    rw [← cons_append, if_neg (not_isPrefixOf_append hprefix
      (by rw [List.length_cons]; omega) more), ih hlater]
    rfl

theorem not_isPrefixOf_line {separator : α} (hneedle : separator ∉ needle) {line : List α}
    (h : ¬needle.isPrefixOf line = true) (rest : List α) :
    ¬needle.isPrefixOf (line ++ separator :: rest) = true := by
  rw [List.isPrefixOf_iff_prefix] at h ⊢
  intro hlonger
  have hline : line ++ [separator] <+: line ++ separator :: rest :=
    ⟨rest, by rw [append_assoc, singleton_append]⟩
  have hin : separator ∈ line ++ [separator] := mem_append_right _ List.mem_cons_self
  rcases prefix_or_prefix_of_prefix hlonger hline with hshort | hlong
  · rcases List.prefix_concat_iff.mp hshort with heq | hprefix
    · exact hneedle (heq ▸ hin)
    · exact h hprefix
  · exact hneedle (hlong.subset hin)

/-- What is not in a line is looked for after it, if it cannot have the line's end in it. -/
theorem find_line {separator : α} (hne : needle ≠ []) (hneedle : separator ∉ needle)
    {line : List α} (h : find line needle = none) (rest : List α) :
    find (line ++ separator :: rest) needle = (find rest needle).map (· + (line.length + 1)) := by
  induction line with
  | nil =>
    have hnil : ¬needle.isPrefixOf [] = true := by
      rw [List.isPrefixOf_iff_prefix, prefix_nil]
      exact hne
    have hlonger := not_isPrefixOf_line hneedle hnil rest
    rw [nil_append] at hlonger ⊢
    rw [find_cons, if_neg hlonger]
    rfl
  | cons first line ih =>
    rw [find_cons] at h
    split at h
    · cases h
    rename_i hprefix
    have hlonger := not_isPrefixOf_line hneedle hprefix rest
    rw [cons_append] at hlonger ⊢
    rw [find_cons, if_neg hlonger, ih (Option.map_eq_none_iff.mp h), Option.map_map]
    rfl

end

/-! ### Lines that mention a directory -/

/-- `"cwd"` is somewhere in the line. -/
def Mentions (line : List UInt8) : Prop := (find line (utf8 "\"cwd\"")).isSome

instance (line : List UInt8) : Decidable (Mentions line) := inferInstanceAs (Decidable (_ = true))

theorem cwd_ne_nil : utf8 "\"cwd\"" ≠ [] := by decide

theorem newline_notMem_cwd : newline ∉ utf8 "\"cwd\"" := by decide

theorem cwdLineComplete_iff (data : List UInt8) :
    cwdLineComplete data = true ↔ ∃ line ∈ (cutLines newline data).1, Mentions line := by
  induction hlength : data.length using Nat.strong_induction_on generalizing data with
  | _ length ih =>
    unfold cwdLineComplete
    by_cases hmem : newline ∈ data
    · obtain ⟨line, rest, rfl, hline⟩ := eq_append_cons_of_mem hmem
      rw [length_append, List.length_cons] at hlength
      rw [cutLines_line hline, exists_mem_cons_iff]
      cases hfind : find line (utf8 "\"cwd\"") with
      | some position =>
        have hle := find_le cwd_ne_nil hfind
        rw [find_append cwd_ne_nil hfind]
        refine iff_of_true ?_ (.inl (by rw [Mentions, hfind]; rfl))
        dsimp only
        rw [drop_append_of_le_length (by omega), contains_iff_mem]
        exact mem_append_right _ List.mem_cons_self
      | none =>
        have hnot : ¬Mentions line := by
          rw [Mentions, hfind]
          exact Bool.false_ne_true
        rw [find_line cwd_ne_nil newline_notMem_cwd hfind, or_iff_right hnot,
          ← ih rest.length (by omega) rest rfl, cwdLineComplete]
        cases find rest (utf8 "\"cwd\"") with
        | none => rfl
        | some position =>
          dsimp only [Option.map_some]
          have hdrop : (line ++ newline :: rest).drop (position + (line.length + 1)) =
              rest.drop position := by
            rw [Nat.add_comm, ← drop_drop, ← drop_drop, drop_left]
            rfl
          rw [hdrop]
    rw [cutLines_of_notMem hmem]
    refine iff_of_false ?_ (by simp)
    split
    · rw [contains_iff_mem]
      exact fun h => hmem (mem_of_mem_drop h)
    · exact Bool.false_ne_true

theorem lasting_cwdLineComplete : Lasting cwdLineComplete := by
  intro front more h
  obtain ⟨line, hline, hmentions⟩ := (cwdLineComplete_iff front).mp h
  refine (cwdLineComplete_iff _).mpr ⟨line, ?_, hmentions⟩
  rw [cutLines_append]
  exact mem_append_left _ hline

/-! ### Lines that name a directory -/

/-- The line names the directory of the conversation. -/
def Names (scanner : Scanner) (line : List UInt8) : Prop :=
  line ≠ [] ∧ ∃ object, scanner.fromStr (toStringLossy line) = some object ∧
    (nonEmptyStr "cwd" object).isSome

def readLines (lines : List (List UInt8)) : List String :=
  (lines.filter (· ≠ [])).map toStringLossy

theorem headLines_eq (data : List UInt8) :
    headLines data = readLines ((cutLines newline data).1 ++ [(cutLines newline data).2]) := by
  have hencoded : String.utf8EncodeChar '\n' = [newline] := by decide
  have hcut := cutLines_toStringLossy hencoded (by decide) (by decide) data
  unfold headLines splitLines readLines
  rw [hcut]
  rw [← map_singleton (f := fun line => (toStringLossy line).toList), ← map_append,
    filter_map, List.map_map]
  have hempty : ((fun line : List Char => decide (line ≠ [])) ∘ fun line : List UInt8 =>
      (toStringLossy line).toList) = fun line => decide (line ≠ []) := by
    funext line
    exact decide_eq_decide.mpr (not_congr toStringLossy_eq_nil)
  rw [hempty]
  refine map_congr_left fun line _ => ?_
  exact String.ofList_toList

theorem cwdAndPrompt_append (lines more : List String) (firstPrompt : Option String)
    (h : (scanner.cwdAndPrompt firstPrompt lines).1.isSome) :
    scanner.cwdAndPrompt firstPrompt (lines ++ more) = scanner.cwdAndPrompt firstPrompt lines := by
  induction lines generalizing firstPrompt with
  | nil => cases h
  | cons line lines ih =>
    rw [cons_append, Scanner.cwdAndPrompt]
    rw [Scanner.cwdAndPrompt] at h ⊢
    cases hline : scanner.fromStr line with
    | none =>
      rw [hline] at h
      exact ih firstPrompt h
    | some object =>
      rw [hline] at h
      dsimp only at h ⊢
      cases hcwd : nonEmptyStr "cwd" object with
      | some cwd => rfl
      | none =>
        rw [hcwd] at h
        exact ih _ h

theorem cwdAndPrompt_isSome (scanner : Scanner) (lines : List (List UInt8))
    (firstPrompt : Option String) : (scanner.cwdAndPrompt firstPrompt (readLines lines)).1.isSome ↔
      ∃ line ∈ lines, Names scanner line := by
  induction lines generalizing firstPrompt with
  | nil => simp [readLines, Scanner.cwdAndPrompt]
  | cons line lines ih =>
    rw [exists_mem_cons_iff]
    by_cases hempty : line = []
    · have hread : readLines (line :: lines) = readLines lines := by simp [readLines, hempty]
      rw [hread, ih, or_iff_right fun h => h.1 hempty]
    have hread : readLines (line :: lines) = toStringLossy line :: readLines lines := by
      simp [readLines, hempty]
    rw [hread, Scanner.cwdAndPrompt]
    cases hline : scanner.fromStr (toStringLossy line) with
    | none =>
      have hnot : ¬Names scanner line := by simp [Names, hline]
      rw [or_iff_right hnot, ← ih firstPrompt]
    | some object =>
      dsimp only
      cases hcwd : nonEmptyStr "cwd" object with
      | some cwd =>
        refine iff_of_true rfl (.inl ⟨hempty, object, hline, ?_⟩)
        rw [hcwd]
        rfl
      | none =>
        have hnot : ¬Names scanner line := by simp [Names, hline, hcwd]
        rw [or_iff_right hnot, ← ih]

/-! ### The beginning of a transcript -/

def completeLines (file : TranscriptFile) : List (List UInt8) :=
  (cutLines newline (file.contents.take claudeHeadCap)).1

/-- The entry that all complete lines give. -/
def Scanner.fullEntry (scanner : Scanner) (file : TranscriptFile) : Option HistoryEntry :=
  scanner.entryOf file (readLines (completeLines file))

/-- Where reading may stop. -/
abbrev MayStop (file : TranscriptFile) (stop : Nat) : Prop :=
  StopsAt cwdLineComplete claudeHeadCap chunkSize file.contents stop

/-- The name is too short for an id; or the directory is named by then if a line mentions one,
and where no complete line names it, neither does the beginning of a line that reading may
stop in. -/
def HeadSuffices (scanner : Scanner) (file : TranscriptFile) : Prop :=
  byteLength (splitExtension file.name).1 < 32 ∨
    ((∃ line ∈ completeLines file, Names scanner line) →
      ∀ before line after, completeLines file = before ++ line :: after → Mentions line →
        ∃ named ∈ before ++ [line], Names scanner named) ∧
    ((¬∃ line ∈ completeLines file, Names scanner line) →
      ∀ stop, MayStop file stop → ¬Names scanner (cutLines newline (file.contents.take stop)).2)

theorem entryOf_eq_none {lines : List String} : scanner.entryOf file lines = none ↔
      byteLength (splitExtension file.name).1 < 32 ∨
        ¬(scanner.cwdAndPrompt none lines).1.isSome := by
  unfold Scanner.entryOf
  dsimp only
  by_cases hshort : byteLength (splitExtension file.name).1 < 32
  · rw [if_pos hshort]
    exact iff_of_true rfl (.inl hshort)
  · rw [if_neg hshort, or_iff_right hshort, Option.map_eq_none_iff, Option.not_isSome_iff_eq_none]

theorem entryOf_append (lines more : List String) (h : (scanner.cwdAndPrompt none lines).1.isSome) :
    scanner.entryOf file (lines ++ more) = scanner.entryOf file lines := by
  unfold Scanner.entryOf
  rw [cwdAndPrompt_append lines more none h]

theorem readLines_append (lines more : List (List UInt8)) :
    readLines (lines ++ more) = readLines lines ++ readLines more := by
  unfold readLines
  rw [filter_append, map_append]

theorem completeLines_stop (file : TranscriptFile) {stop : Nat} (hstop : stop ≤ claudeHeadCap) :
    ∃ more, completeLines file = (cutLines newline (file.contents.take stop)).1 ++ more := by
  have hsplit := List.take_append_drop stop (file.contents.take claudeHeadCap)
  rw [take_take, Nat.min_eq_left hstop] at hsplit
  unfold completeLines
  rw [← hsplit, cutLines_append]
  exact ⟨_, rfl⟩

/-- If the directory is named by the complete lines where reading stops, the rest does not
matter. -/
theorem entryOf_stop {stop : Nat} (hstop : stop ≤ claudeHeadCap)
    (h : ∃ line ∈ (cutLines newline (file.contents.take stop)).1, Names scanner line) :
    scanner.entryOf file (headLines (file.contents.take stop)) = scanner.fullEntry file := by
  obtain ⟨more, hmore⟩ := completeLines_stop file hstop
  have hsome := (cwdAndPrompt_isSome scanner _ none).mpr h
  unfold Scanner.fullEntry
  rw [hmore, headLines_eq, readLines_append, readLines_append, entryOf_append _ _ hsome,
    entryOf_append _ _ hsome]

/-- Reading stops with the directory named, if it is named as soon as a line mentions one. -/
theorem names_stop {stop : Nat} (hstops : MayStop file stop)
    (hnamed : ∃ line ∈ completeLines file, Names scanner line)
    (hmentioned : ∀ before line after, completeLines file = before ++ line :: after →
      Mentions line → ∃ named ∈ before ++ [line], Names scanner named) :
    ∃ line ∈ (cutLines newline (file.contents.take stop)).1, Names scanner line := by
  obtain ⟨hle, ⟨henough, -⟩ | ⟨hend, -⟩⟩ := hstops
  · obtain ⟨line, hline, hmentions⟩ := (cwdLineComplete_iff _).mp henough
    obtain ⟨more, hmore⟩ := completeLines_stop file (hle.trans (Nat.min_le_left _ _))
    obtain ⟨before, after, hsplit⟩ := append_of_mem hline
    obtain ⟨named, hmem, hnames⟩ := hmentioned before line (after ++ more)
      (by rw [hmore, hsplit, append_assoc, cons_append]) hmentions
    refine ⟨named, ?_, hnames⟩
    rw [hsplit, ← singleton_append, ← append_assoc]
    exact mem_append_left _ hmem
  · rw [hend, ← take_eq_take_min]
    exact hnamed

/-- The end of a line is a place where reading may stop, if it is the first that mentions a
directory. -/
theorem mayStop_line {before after : List (List UInt8)} {line : List UInt8}
    (hsplit : completeLines file = before ++ line :: after) (hmentions : Mentions line)
    (hfirst : ∀ other ∈ before, ¬Mentions other) : ∃ stop, MayStop file stop ∧
      cutLines newline (file.contents.take stop) = (before ++ [line], []) := by
  have hnewline : ∀ other ∈ before ++ [line], newline ∉ other := by
    intro other hother
    have hlines : other ∈ completeLines file := by
      rw [hsplit, ← singleton_append, ← append_assoc]
      exact mem_append_left _ hother
    exact notMem_line hlines
  have hjoin := @joinLines _ _ newline (file.contents.take claudeHeadCap)
  have hlines : (cutLines newline (file.contents.take claudeHeadCap)).1 = before ++ line :: after :=
    hsplit
  rw [hlines, flatMap_append, flatMap_cons] at hjoin
  generalize hfront : (before.flatMap fun line => line ++ [newline]) ++ line = front at *
  have hcontents : ∃ rest, file.contents.take claudeHeadCap = front ++ [newline] ++ rest := by
    rw [← hfront, ← hjoin]
    simp only [append_assoc]
    exact ⟨_, rfl⟩
  obtain ⟨rest, hrest⟩ := hcontents
  have hlength := congrArg List.length hrest
  simp only [length_append, List.length_take, length_singleton] at hlength
  have htake : ∀ more, more ≤ front.length + 1 →
      file.contents.take more = (front ++ [newline]).take more := by
    intro more hmore
    have hcap : more ≤ claudeHeadCap := by omega
    have htwice := take_take (i := more) (j := claudeHeadCap) (l := file.contents)
    rw [Nat.min_eq_left hcap, hrest, take_append_of_le_length (by simpa using hmore)] at htwice
    exact htwice.symm
  have hwhole : file.contents.take (front.length + 1) = front ++ [newline] := by
    rw [htake _ (Nat.le_refl _)]
    exact List.take_of_length_le (by simp)
  have hcut : cutLines newline (front ++ [newline]) = (before ++ [line], []) := by
    have := cutLines_joined hnewline []
    rw [flatMap_append, flatMap_singleton, ← append_assoc, hfront, append_nil] at this
    rw [this, cutLines, append_nil]
  have hcutFront : cutLines newline front = (before, line) := by
    have := cutLines_joined (fun other hother => hnewline other (mem_append_left _ hother)) line
    rw [hfront, cutLines_of_notMem (hnewline line (by simp)), append_nil] at this
    exact this
  refine ⟨front.length + 1, ⟨by omega, .inl ⟨?_, front.length, by omega, ?_, ?_⟩⟩, ?_⟩
  · rw [hwhole, cwdLineComplete_iff, hcut]
    exact ⟨line, by simp, hmentions⟩
  · exact Nat.add_le_add_left (by decide) _
  · rw [htake _ (by omega), take_left, ← Bool.not_eq_true, cwdLineComplete_iff, hcutFront]
    rintro ⟨other, hother, hmentioned⟩
    exact hfirst other hother hmentioned
  · rw [hwhole, hcut]

theorem exists_first_mention {lines : List (List UInt8)} {line : List UInt8} (hmem : line ∈ lines)
    (hmentions : Mentions line) :
    ∃ before first after, lines = before ++ first :: after ∧ Mentions first ∧
      ∀ other ∈ before, ¬Mentions other := by
  have hsome : (lines.find? fun line => (find line (utf8 "\"cwd\"")).isSome).isSome :=
    List.find?_isSome.mpr ⟨line, hmem, hmentions⟩
  obtain ⟨first, hfirst⟩ := Option.isSome_iff_exists.mp hsome
  obtain ⟨hmentioned, before, after, hsplit, hbefore⟩ := List.find?_eq_some_iff_append.mp hfirst
  refine ⟨before, first, after, hsplit, hmentioned, fun other hother h => ?_⟩
  have hnot := hbefore other hother
  rw [h] at hnot
  cases hnot

theorem claudeEntry_stop (scanner : Scanner) (file : TranscriptFile) (chunk : Nat → Nat) :
    ∃ stop, MayStop file stop ∧ scanner.claudeEntry { file with chunk } =
      scanner.entryOf file (headLines (file.contents.take stop)) :=
  ⟨_, readUntil_stops (by decide) chunk (Nat.le_add_left _ _) (Nat.zero_le _) rfl, rfl⟩

theorem claudeEntry_of_stop (scanner : Scanner) {stop : Nat} (hstops : MayStop file stop) :
    ∃ chunk, scanner.claudeEntry { file with chunk } =
      scanner.entryOf file (headLines (file.contents.take stop)) := by
  obtain ⟨chunk, hchunk⟩ := exists_readUntil lasting_cwdLineComplete rfl (by decide) hstops
  refine ⟨chunk, ?_⟩
  rw [← hchunk]
  rfl

/-- Reading the beginning gives what all complete lines do, however the reads fall, just if the
beginning suffices. -/
theorem claudeEntry_iff (scanner : Scanner) (file : TranscriptFile) :
    (∀ chunk, scanner.claudeEntry { file with chunk } = scanner.fullEntry file) ↔
      HeadSuffices scanner file := by
  by_cases hshort : byteLength (splitExtension file.name).1 < 32
  · refine iff_of_true (fun chunk => ?_) (.inl hshort)
    obtain ⟨stop, -, hentry⟩ := claudeEntry_stop scanner file chunk
    rw [hentry, Scanner.fullEntry, entryOf_eq_none.mpr (.inl hshort),
      entryOf_eq_none.mpr (.inl hshort)]
  unfold HeadSuffices
  rw [or_iff_right hshort]
  by_cases hnamed : ∃ line ∈ completeLines file, Names scanner line
  · rw [and_iff_left fun h => absurd hnamed h]
    constructor
    · intro hsame _ before line after hsplit hmentions
      obtain ⟨shorter, first, more, hfirst, hmentioned, hbefore⟩ :=
        exists_first_mention (mem_append_right before List.mem_cons_self) hmentions
      have hcomplete : completeLines file = shorter ++ first :: (more ++ after) := by
        rw [hsplit, ← singleton_append, ← append_assoc, hfirst, append_assoc, cons_append]
      obtain ⟨stop, hstops, hcut⟩ := mayStop_line hcomplete hmentioned hbefore
      obtain ⟨chunk, hentry⟩ := claudeEntry_of_stop scanner hstops
      have hsome : scanner.entryOf file (headLines (file.contents.take stop)) ≠ none := by
        rw [← hentry, hsame chunk]
        exact fun hnone => (entryOf_eq_none.mp hnone).elim hshort
          (not_not_intro ((cwdAndPrompt_isSome scanner _ none).mpr hnamed))
      rw [headLines_eq, hcut, ne_eq, entryOf_eq_none, or_iff_right hshort, not_not,
        cwdAndPrompt_isSome] at hsome
      obtain ⟨named, hmem, hnames⟩ := hsome
      refine ⟨named, ?_, hnames⟩
      rcases List.mem_append.mp hmem with hearly | hempty
      · rw [hfirst, ← singleton_append, ← append_assoc]
        exact mem_append_left _ hearly
      · exact absurd (List.mem_singleton.mp hempty) hnames.1
    · intro hmentioned chunk
      obtain ⟨stop, hstops, hentry⟩ := claudeEntry_stop scanner file chunk
      rw [hentry]
      exact entryOf_stop (hstops.1.trans (Nat.min_le_left _ _))
        (names_stop hstops hnamed (hmentioned hnamed))
  rw [and_iff_right fun h => absurd h hnamed]
  have hfull : scanner.fullEntry file = none :=
    entryOf_eq_none.mpr (.inr (mt (cwdAndPrompt_isSome scanner _ none).mp hnamed))
  have hstop : ∀ stop, MayStop file stop →
      (scanner.entryOf file (headLines (file.contents.take stop)) = none ↔
        ¬Names scanner (cutLines newline (file.contents.take stop)).2) := by
    intro stop hstops
    obtain ⟨more, hmore⟩ := completeLines_stop file (hstops.1.trans (Nat.min_le_left _ _))
    have hlines : ¬∃ line ∈ (cutLines newline (file.contents.take stop)).1,
        Names scanner line := by
      rintro ⟨line, hline, hnames⟩
      exact hnamed ⟨line, hmore ▸ mem_append_left _ hline, hnames⟩
    rw [headLines_eq, entryOf_eq_none, or_iff_right hshort, cwdAndPrompt_isSome]
    simp only [mem_append, or_and_right, exists_or, mem_singleton, exists_eq_left]
    rw [or_iff_right hlines]
  constructor
  · intro hsame _ stop hstops
    obtain ⟨chunk, hentry⟩ := claudeEntry_of_stop scanner hstops
    exact (hstop stop hstops).mp (hentry.symm.trans ((hsame chunk).trans hfull))
  · intro hnone chunk
    obtain ⟨stop, hstops, hentry⟩ := claudeEntry_stop scanner file chunk
    rw [hentry, hfull]
    exact (hstop stop hstops).mpr (hnone hnamed stop hstops)

end Diri.History

namespace Diri.History

variable {entries : List HistoryEntry} {tracked : List String}

/-! ### The entries that are kept -/

variable {entry : HistoryEntry}

theorem mem_firstEntries {seen : List String} : entry ∈ firstEntries seen entries ↔
      entry.id ∉ seen ∧ entries.find? (fun other => other.id = entry.id) = some entry := by
  induction entries generalizing seen with
  | nil => simp [firstEntries]
  | cons first entries ih =>
    rw [firstEntries]
    split
    · rename_i hseen
      rw [ih]
      refine and_congr_right fun hnot => ?_
      rw [List.find?_cons_of_neg]
      simpa using fun heq : first.id = entry.id => hnot (heq ▸ hseen)
    rename_i hnew
    rw [List.mem_cons, ih, List.mem_cons, not_or]
    by_cases hid : first.id = entry.id
    · rw [List.find?_cons_of_pos (by simpa using hid), Option.some.injEq]
      constructor
      · rintro (rfl | ⟨⟨hne, -⟩, -⟩)
        · exact ⟨hnew, rfl⟩
        · exact absurd hid.symm hne
      · exact fun h => .inl h.2.symm
    rw [List.find?_cons_of_neg (by simpa using hid)]
    constructor
    · rintro (rfl | ⟨⟨-, hnot⟩, hfind⟩)
      · exact absurd rfl hid
      · exact ⟨hnot, hfind⟩
    · exact fun h => .inr ⟨⟨Ne.symm hid, h.1⟩, h.2⟩

theorem nodup_firstEntries (seen : List String) (entries : List HistoryEntry) :
    ((firstEntries seen entries).map HistoryEntry.id).Nodup := by
  induction entries generalizing seen with
  | nil => exact List.nodup_nil
  | cons first entries ih =>
    rw [firstEntries]
    split
    · exact ih seen
    rw [List.map_cons, List.nodup_cons]
    refine ⟨fun hmem => ?_, ih _⟩
    obtain ⟨other, hother, hid⟩ := List.mem_map.mp hmem
    exact (mem_firstEntries.mp hother).1 (hid ▸ List.mem_cons_self)

/-- The entry is as recent as the other one. -/
abbrev AsRecent (entry other : HistoryEntry) : Prop := other.lastActiveAt ≤ entry.lastActiveAt

instance total_asRecent : Std.Total AsRecent :=
  ⟨fun entry other => le_total other.lastActiveAt entry.lastActiveAt⟩

instance trans_asRecent : IsTrans HistoryEntry AsRecent :=
  ⟨fun _ _ _ hfirst hsecond => le_trans hsecond hfirst⟩

/-! ### What a scan is to return -/

/-- Of each id that is not tracked one entry, the most recently active; newest first, and the
newest if there are too many. -/
structure NewestOfEach (entries : List HistoryEntry) (tracked : List String)
    (result : List HistoryEntry) : Prop where
  once : (result.map HistoryEntry.id).Nodup
  listed : ∀ entry ∈ result, entry ∈ entries ∧ entry.id ∉ tracked
  newest : ∀ entry ∈ result, ∀ other ∈ entries, other.id = entry.id →
    other.lastActiveAt ≤ entry.lastActiveAt
  sorted : result.Pairwise fun entry other => other.lastActiveAt ≤ entry.lastActiveAt
  short : result.length ≤ maxEntries
  complete : ∀ entry ∈ entries, entry.id ∉ tracked →
    (∃ returned ∈ result, returned.id = entry.id) ∨
      (result.length = maxEntries ∧ ∀ returned ∈ result, entry.lastActiveAt ≤ returned.lastActiveAt)

/-- The ids that are not tracked and whose first entry is as recent as a time. -/
def idsSince (entries : List HistoryEntry) (tracked : List String) (time : SystemTime) :
    List String :=
  (entries.map HistoryEntry.id).dedup.filter fun id =>
    id ∉ tracked && (entries.find? fun entry => entry.id = id).any fun first =>
      time ≤ first.lastActiveAt

/-- No entry is newer than the first one with its id, unless so many ids have a first entry as
recent that it does not matter. -/
def NewestListedFirst (entries : List HistoryEntry) (tracked : List String) : Prop :=
  ∀ entry ∈ entries, entry.id ∉ tracked →
    (∀ first, entries.find? (fun other => other.id = entry.id) = some first →
      entry.lastActiveAt ≤ first.lastActiveAt) ∨
    maxEntries ≤ (idsSince entries tracked entry.lastActiveAt).length

abbrev ordered (entries : List HistoryEntry) (tracked : List String) : List HistoryEntry :=
  (firstEntries tracked entries).insertionSort AsRecent

theorem mem_ordered : entry ∈ ordered entries tracked ↔
      entry.id ∉ tracked ∧ entries.find? (fun other => other.id = entry.id) = some entry :=
  (List.mem_insertionSort AsRecent).trans mem_firstEntries

theorem pairwise_ordered : (ordered entries tracked).Pairwise AsRecent :=
  List.pairwise_insertionSort AsRecent _

theorem ordered_take {entry other : HistoryEntry}
    (hentry : entry ∈ (ordered entries tracked).take maxEntries)
    (hother : other ∈ ordered entries tracked) :
    other ∈ (ordered entries tracked).take maxEntries ∨ AsRecent entry other := by
  have hsorted : (ordered entries tracked).Pairwise AsRecent := pairwise_ordered
  rw [← List.take_append_drop maxEntries (ordered entries tracked)] at hsorted hother
  rcases List.mem_append.mp hother with hkept | hleft
  · exact .inl hkept
  · exact .inr ((List.pairwise_append.mp hsorted).2.2 entry hentry other hleft)

theorem nodup_take : (((ordered entries tracked).take maxEntries).map HistoryEntry.id).Nodup := by
  have hperm := (List.perm_insertionSort AsRecent (firstEntries tracked entries)).map
    HistoryEntry.id
  exact (hperm.nodup_iff.mpr (nodup_firstEntries tracked entries)).sublist
    ((List.take_sublist _ _).map _)

theorem mem_idsSince {time : SystemTime} {id : String} :
    id ∈ idsSince entries tracked time ↔ id ∉ tracked ∧
      ∃ first, entries.find? (fun entry => entry.id = id) = some first ∧ first.id = id ∧
        time ≤ first.lastActiveAt := by
  unfold idsSince
  rw [List.mem_filter, List.mem_dedup, Bool.and_eq_true, decide_eq_true_eq, Option.any_eq_true]
  constructor
  · rintro ⟨-, huntracked, first, hfirst, hrecent⟩
    exact ⟨huntracked, first, hfirst, by simpa using List.find?_some hfirst,
      of_decide_eq_true hrecent⟩
  · rintro ⟨huntracked, first, hfirst, hid, hrecent⟩
    exact ⟨List.mem_map.mpr ⟨first, List.mem_of_find?_eq_some hfirst, hid⟩, huntracked, first,
      hfirst, decide_eq_true hrecent⟩

/-- If enough ids have a first entry as recent as a time, so is all that is returned. -/
theorem recent_of_many {time : SystemTime}
    (hmany : maxEntries ≤ (idsSince entries tracked time).length)
    (hentry : entry ∈ (ordered entries tracked).take maxEntries) : time ≤ entry.lastActiveAt := by
  by_contra hold
  have hsubset : entry.id :: idsSince entries tracked time ⊆
      ((ordered entries tracked).take maxEntries).map HistoryEntry.id := by
    refine List.cons_subset.mpr ⟨List.mem_map_of_mem hentry, fun id hid => ?_⟩
    obtain ⟨huntracked, first, hfirst, hid', hrecent⟩ := mem_idsSince.mp hid
    have hmem : first ∈ ordered entries tracked :=
      mem_ordered.mpr ⟨hid' ▸ huntracked, hid' ▸ hfirst⟩
    rcases ordered_take hentry hmem with hkept | hasRecent
    · exact List.mem_map.mpr ⟨first, hkept, hid'⟩
    · exact absurd (hrecent.trans hasRecent) hold
  have hnodup : (entry.id :: idsSince entries tracked time).Nodup := by
    refine List.nodup_cons.mpr ⟨fun hid => ?_, (List.nodup_dedup _).filter _⟩
    obtain ⟨-, first, hfirst, -, hrecent⟩ := mem_idsSince.mp hid
    have hkept := (mem_ordered.mp (List.mem_of_mem_take hentry)).2
    rw [hkept] at hfirst
    obtain ⟨⟩ := hfirst
    exact hold hrecent
  have hlength := (hnodup.subperm hsubset).length_le
  rw [List.length_cons, List.length_map, List.length_take] at hlength
  omega

theorem exists_first (h : entry ∈ entries) :
    ∃ first, entries.find? (fun other => other.id = entry.id) = some first ∧
      first.id = entry.id := by
  have hsome : (entries.find? fun other => other.id = entry.id).isSome :=
    List.find?_isSome.mpr ⟨entry, h, decide_eq_true rfl⟩
  obtain ⟨first, hfirst⟩ := Option.isSome_iff_exists.mp hsome
  exact ⟨first, hfirst, by simpa using List.find?_some hfirst⟩

/-- The entries that are returned are as recent as any of their ids, just if the first ones are
or it does not matter. -/
theorem newestOfEach_iff :
    NewestOfEach entries tracked ((ordered entries tracked).take maxEntries) ↔
      NewestListedFirst entries tracked := by
  constructor
  · intro hresult entry hentry huntracked
    obtain ⟨first, hfirst, hid⟩ := exists_first hentry
    by_cases hrecent : AsRecent first entry
    · refine .inl fun other hother => ?_
      rw [hfirst] at hother
      obtain ⟨⟩ := hother
      exact hrecent
    refine .inr ?_
    rcases hresult.complete entry hentry huntracked with
      ⟨returned, hreturned, hsame⟩ | ⟨hfull, hall⟩
    · have hkept := (mem_ordered.mp (List.mem_of_mem_take hreturned)).2
      rw [hsame, hfirst] at hkept
      obtain ⟨⟩ := hkept
      exact absurd (hresult.newest first hreturned entry hentry hid.symm) hrecent
    have hsubset : ((ordered entries tracked).take maxEntries).map HistoryEntry.id ⊆
        idsSince entries tracked entry.lastActiveAt := by
      intro id hmem
      obtain ⟨returned, hreturned, rfl⟩ := List.mem_map.mp hmem
      obtain ⟨hnot, hkept⟩ := mem_ordered.mp (List.mem_of_mem_take hreturned)
      exact mem_idsSince.mpr ⟨hnot, returned, hkept, rfl, hall returned hreturned⟩
    have hlength := (nodup_take.subperm hsubset).length_le
    rw [List.length_map, hfull] at hlength
    exact hlength
  intro hlisted
  refine ⟨nodup_take, fun entry hentry => ?_, fun entry hentry other hother hid => ?_,
    pairwise_ordered.sublist (List.take_sublist _ _), List.length_take_le _ _,
    fun entry hentry huntracked => ?_⟩
  · obtain ⟨huntracked, hfirst⟩ := mem_ordered.mp (List.mem_of_mem_take hentry)
    exact ⟨List.mem_of_find?_eq_some hfirst, huntracked⟩
  · obtain ⟨huntracked, hfirst⟩ := mem_ordered.mp (List.mem_of_mem_take hentry)
    rcases hlisted other hother (hid ▸ huntracked) with hrecent | hmany
    · exact hrecent entry (hid ▸ hfirst)
    · exact recent_of_many hmany hentry
  obtain ⟨first, hfirst, hid⟩ := exists_first hentry
  have hmem : first ∈ ordered entries tracked :=
    mem_ordered.mpr ⟨hid ▸ huntracked, hid ▸ hfirst⟩
  by_cases hreturned : first ∈ (ordered entries tracked).take maxEntries
  · exact .inl ⟨first, hreturned, hid⟩
  refine .inr ⟨?_, fun returned hin => ?_⟩
  · rw [List.length_take]
    refine Nat.min_eq_left (Nat.le_of_not_lt fun hfew => hreturned ?_)
    rw [List.take_of_length_le (Nat.le_of_lt hfew)]
    exact hmem
  rcases hlisted entry hentry huntracked with hrecent | hmany
  · exact (hrecent first hfirst).trans ((ordered_take hin hmem).resolve_left hreturned)
  · exact recent_of_many hmany hin

/-- What is read of each Claude transcript is what all its complete lines give, and what is
returned of each transcript directory is the newest entry of each id, just where the beginning
of the transcript suffices and the newest entry of each id is listed first. -/
theorem history_iff (scanner : Scanner) :
    (∀ file, (∀ chunk, scanner.claudeEntry { file with chunk } = scanner.fullEntry file) ↔
      HeadSuffices scanner file) ∧ ∀ roots tracked, NewestOfEach (scanner.scanned roots) tracked
        (scanner.scanRoots roots tracked) ↔ NewestListedFirst (scanner.scanned roots) tracked :=
  ⟨claudeEntry_iff scanner, fun _ _ => newestOfEach_iff⟩

/-- A line that has the member within another one, and a line that has it. -/
def toolText : String := "\x7b\"input\":\x7b\"cwd\":\"/a\"\x7d\x7d"
def promptText : String := "\x7b\"cwd\":\"/tmp\"\x7d"

def nestedScanner : Scanner where
  fromStr line :=
    if line = toolText then some (.object [("input", .object [("cwd", .string "/a")])])
    else if line = promptText then some (.object [("cwd", .string "/tmp")])
    else none
  isDirectory _ := true
  chars := ⟨Char.isWhitespace, Char.isAlphanum, fun _ => false⟩

def nestedFile : TranscriptFile where
  path := "projects/-p/0199f2c4-1a2b-4c3d-8e9f-000000000001.jsonl"
  name := "0199f2c4-1a2b-4c3d-8e9f-000000000001.jsonl".toList
  contents := utf8 toolText ++ [newline] ++ utf8 promptText ++ [newline]
  chunk := fun _ => 1
  modified := 0
  created := none

theorem completeLines_nestedFile : completeLines nestedFile = [utf8 toolText, utf8 promptText] := by
  decide +kernel

/-- The argument of a tool is taken for the directory, and reading stops before that comes. -/
theorem nested_cwd_stops_reading : ¬∀ chunk, nestedScanner.claudeEntry { nestedFile with chunk } =
      nestedScanner.fullEntry nestedFile := by
  rw [claudeEntry_iff]
  rintro (hshort | ⟨hmentioned, -⟩)
  · exact absurd hshort (by decide)
  · have hnames : Names nestedScanner (utf8 promptText) := by
      refine ⟨by decide, .object [("cwd", .string "/tmp")], ?_, by decide⟩
      rw [toStringLossy_utf8]
      rfl
    obtain ⟨line, hline, -, object, hread, hcwd⟩ := hmentioned
      ⟨utf8 promptText, by rw [completeLines_nestedFile]; simp, hnames⟩
      [] (utf8 toolText) [utf8 promptText] completeLines_nestedFile (by decide +kernel)
    obtain rfl := List.mem_singleton.mp hline
    obtain rfl : .object [("input", .object [("cwd", .string "/a")])] = object :=
      Option.some.inj hread
    cases hcwd

end Diri.History
