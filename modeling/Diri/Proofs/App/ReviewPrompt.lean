/-
A review prompt is bounded, and says what it leaves out.

Every item is shown in full or up to a cut between two characters; what follows the cut is
the marker with the number of missing bytes (`Faithful`).  The room that is kept for a marker
is eighty bytes, enough for a number of eight digits; a marker with a longer one can be cut
itself, and then says so.
-/
import Diri.App.ReviewPrompt
import Mathlib.Algebra.Group.Action.Defs
import Mathlib.Algebra.Order.BigOperators.Group.List
import Mathlib.Data.List.Forall2

namespace Diri.Review

open List String

/-! ### Cutting -/

theorem takeBytes_floor (value : List Char) (limit : Nat) :
    ∃ kept, takeBytes value (floorCharBoundary value limit) = some kept ∧ kept <+: value
      ∧ floorCharBoundary value limit = byteLength kept ∧ byteLength kept ≤ limit
      ∧ (limit ≤ byteLength value → limit < byteLength kept + 4) := by
  have hBoundary := floorBoundary_isBoundary value (min limit (byteLength value))
  have hLe := floorBoundary_le value (min limit (byteLength value))
  have hLt := lt_floorBoundary (Nat.min_le_right limit (byteLength value))
  obtain ⟨kept, rest, hValue, hKept⟩ := hBoundary
  refine ⟨kept, ?_, ⟨rest, hValue.symm⟩, hKept.symm, by omega, by omega⟩
  unfold takeBytes floorCharBoundary
  rw [splitBytes_eq_some.mpr ⟨hValue, hKept⟩]
  rfl

theorem clipPlain_long {value marker : List Char} {limit : Nat}
    (hMarker : byteLength marker < limit) (hLong : limit < byteLength value) :
    ∃ shown, clipPlain value limit marker = some (shown ++ marker) ∧ shown <+: value
      ∧ byteLength (shown ++ marker) ≤ limit ∧ limit < byteLength (shown ++ marker) + 4 := by
  obtain ⟨shown, hTake, hPrefix, -, hLe, hLt⟩ := takeBytes_floor value (limit - byteLength marker)
  refine ⟨shown, ?_, hPrefix, ?_, ?_⟩
  · unfold clipPlain
    rw [if_neg (by omega), if_neg (by omega), hTake]
    rfl
  · rw [byteLength_append]
    omega
  · rw [byteLength_append]
    omega

theorem clipPlain_bounded (value : List Char) {marker : List Char} {limit : Nat}
    (hMarker : byteLength marker < limit) :
    ∃ clipped, clipPlain value limit marker = some clipped ∧ byteLength clipped ≤ limit := by
  by_cases hLong : limit < byteLength value
  · obtain ⟨shown, hClip, -, hLe, -⟩ := clipPlain_long hMarker hLong
    exact ⟨_, hClip, hLe⟩
  refine ⟨value, ?_, by omega⟩
  unfold clipPlain
  rw [if_pos (by omega)]

/-! ### The marker -/

theorem byteLength_toString (n : Nat) :
    byteLength (toString n).toList = (Nat.toDigits 10 n).length := by
  rw [Nat.toString_eq_ofList_toDigits, toList_ofList]
  exact byteLength_ascii fun c hc => utf8Size_of_mem_toDigits hc

/-- The part of a marker up to the number of bytes. -/
def omissionCount (omitted : Nat) : List Char :=
  ("\n[... " ++ toString omitted ++ " bytes omitted").toList

/-- The part behind it. -/
def omissionTail (number : Nat) : List Char :=
  (" from evidence " ++ toString number ++ " to keep review context bounded ...]").toList

theorem omissionMarker_eq (omitted number : Nat) :
    omissionMarker omitted number = omissionCount omitted ++ omissionTail number := by
  have hText : " bytes omitted from evidence " = " bytes omitted" ++ " from evidence " := rfl
  unfold omissionMarker omissionCount omissionTail
  rw [hText]
  simp only [toList_append, List.append_assoc]

theorem byteLength_omissionCount (omitted : Nat) :
    byteLength (omissionCount omitted) = 20 + (Nat.toDigits 10 omitted).length := by
  have hBefore : byteLength "\n[... ".toList = 6 := by
    rw [toList_ofList]
    rfl
  have hAfter : byteLength " bytes omitted".toList = 14 := by
    rw [toList_ofList]
    rfl
  unfold omissionCount
  rw [toList_append, toList_append, byteLength_append, byteLength_append, hBefore,
    hAfter, byteLength_toString]
  omega

theorem byteLength_omissionMarker {number : Nat} (omitted : Nat) (hNumber : number < 10) :
    byteLength (omissionMarker omitted number) = 72 + (Nat.toDigits 10 omitted).length := by
  have hBefore : byteLength " from evidence ".toList = 15 := by
    rw [toList_ofList]
    rfl
  have hAfter : byteLength " to keep review context bounded ...]".toList = 36 := by
    rw [toList_ofList]
    rfl
  have hTail : byteLength (omissionTail number) = 52 := by
    unfold omissionTail
    rw [toList_append, toList_append, byteLength_append, byteLength_append, hBefore,
      hAfter, byteLength_toString, Nat.toDigits_of_lt_base hNumber, List.length_singleton]
  rw [omissionMarker_eq, byteLength_append, byteLength_omissionCount, hTail]
  omega

/-- What an item may be shown as. -/
inductive Faithful (value : List Char) (limit number : Nat) : List Char → Prop
  | whole (hFits : byteLength value ≤ limit) : Faithful value limit number value
  | marked (kept : List Char) (hLong : limit < byteLength value) (hKept : kept <+: value) :
      Faithful value limit number
        (kept ++ omissionMarker (byteLength value - byteLength kept) number)
  /-- The marker is too long by its number, and is cut after that. -/
  | cut (kept shown : List Char) (hLong : limit < byteLength value) (hKept : kept <+: value)
      (hMany : 100000000 ≤ byteLength value - byteLength kept)
      (hShown : shown <+: omissionMarker (byteLength value - byteLength kept) number)
      (hCount : byteLength value < 18446744073709551616 →
        omissionCount (byteLength value - byteLength kept) <+: shown) :
      Faithful value limit number (kept ++ shown ++ contextOmitted)

theorem prefix_of_byteLength {short long text : List Char} (hShort : short <+: text)
    (hLong : long <+: text) (h : byteLength short < byteLength long) : short <+: long := by
  rcases prefix_or_prefix_of_prefix hShort hLong with hPrefix | ⟨rest, hRest⟩
  · exact hPrefix
  · rw [← hRest, byteLength_append] at h
    omega

theorem byteLength_contextOmitted : byteLength contextOmitted = 21 := rfl

variable {limit number : Nat} {question : List Char}

/-- A marker that goes beyond the limit has a long number, and is cut behind that. -/
theorem faithful_cut {value kept shown : List Char} (hNumber : number < 10)
    (hLong : limit < byteLength value) (hKept : kept <+: value)
    (hReserve : byteLength kept + 80 ≤ limit) (hOver : limit < byteLength
      (kept ++ omissionMarker (byteLength value - byteLength kept) number))
    (hShown : shown <+: kept ++ omissionMarker (byteLength value - byteLength kept) number)
    (hClose : limit < byteLength (shown ++ contextOmitted) + 4) :
    Faithful value limit number (shown ++ contextOmitted) := by
  have hMarker := byteLength_omissionMarker (byteLength value - byteLength kept) hNumber
  rw [byteLength_append] at hOver
  rw [byteLength_append, byteLength_contextOmitted] at hClose
  obtain ⟨count, rfl⟩ := prefix_of_byteLength (prefix_append _ _) hShown (by omega)
  rw [byteLength_append] at hClose
  have hCut := (prefix_append_right_inj kept).mp hShown
  refine .cut kept count hLong hKept ?_ hCut ?_
  · by_contra hFew
    have hDigits : (Nat.toDigits 10 (byteLength value - byteLength kept)).length ≤ 8 :=
      (Nat.length_toDigits_le_iff (by decide) (by decide)).mpr (by omega)
    omega
  intro hSize
  have hDigits : (Nat.toDigits 10 (byteLength value - byteLength kept)).length ≤ 20 :=
    (Nat.length_toDigits_le_iff (by decide) (by decide)).mpr (by omega)
  have hCount := byteLength_omissionCount (byteLength value - byteLength kept)
  refine prefix_of_byteLength ?_ hCut (by omega)
  rw [omissionMarker_eq]
  exact prefix_append _ _

theorem clipContext_faithful (value : List Char) (hLimit : 200 ≤ limit) (hNumber : number < 10) :
    ∃ clipped, clipContext value limit number = some clipped ∧ byteLength clipped ≤ limit
      ∧ Faithful value limit number clipped := by
  by_cases hLong : limit < byteLength value
  · obtain ⟨kept, hTake, hKept, hBoundary, hLe, hLt⟩ :=
      takeBytes_floor value (limit - omissionReserveBytes)
    have hReserve : omissionReserveBytes = 80 := rfl
    unfold clipContext
    rw [if_neg (by omega)]
    rw [hBoundary] at hTake
    simp only [hBoundary, hTake, Option.bind_some]
    by_cases hOver : limit < byteLength
        (kept ++ omissionMarker (byteLength value - byteLength kept) number)
    · have hRoom : byteLength contextOmitted < limit := by
        rw [byteLength_contextOmitted]
        omega
      obtain ⟨shown, hClip, hShown, hFits, hClose⟩ := clipPlain_long hRoom hOver
      rw [if_pos hOver]
      exact ⟨_, hClip, hFits, faithful_cut hNumber hLong hKept (by omega) hOver hShown hClose⟩
    · rw [if_neg hOver]
      exact ⟨_, rfl, by omega, .marked kept hLong hKept⟩
  refine ⟨value, ?_, by omega, .whole (by omega)⟩
  unfold clipContext
  rw [if_pos (by omega)]

/-! ### The whole prompt -/

theorem byteLength_blocks (count : Nat) (clipped : List (List Char)) :
    ∀ first, byteLength ((clipped.zipIdx first).map (block count)).flatten
      = ((List.range' first clipped.length).map fun index =>
          byteLength (separator (index + 1) count)).sum
        + (clipped.map byteLength).sum + clipped.length := by
  induction clipped with
  | nil => intro first; rfl
  | cons clip clipped ih =>
    intro first
    have hNewline : byteLength ['\n'] = 1 := rfl
    have hBlock : byteLength (block count (clip, first))
        = byteLength (separator (first + 1) count) + byteLength clip + 1 := by
      unfold block
      rw [byteLength_append, byteLength_append, hNewline]
    rw [zipIdx_cons, map_cons, flatten_cons, byteLength_append, ih, hBlock, length_cons,
      List.range'_succ, map_cons, map_cons, sum_cons, sum_cons]
    omega

theorem byteLength_assemble (clipped : List (List Char)) (question : List Char) :
    byteLength (assemble clipped question)
      = fixedBytes clipped.length question + (clipped.map byteLength).sum := by
  unfold assemble fixedBytes
  rw [byteLength_append, byteLength_append, byteLength_append, byteLength_blocks, range_eq_range']
  omega

theorem byteLength_separator {number count : Nat} (hNumber : number < 10) (hCount : count < 10) :
    byteLength (separator number count) = 25 := by
  have hBefore : byteLength "\n--- Evidence ".toList = 14 := by
    rw [toList_ofList]
    rfl
  have hBetween : byteLength " of ".toList = 4 := by
    rw [toList_ofList]
    rfl
  have hAfter : byteLength " ---\n".toList = 5 := by
    rw [toList_ofList]
    rfl
  unfold separator
  simp only [toList_append, byteLength_append, hBefore, hBetween, hAfter, byteLength_toString,
    Nat.toDigits_of_lt_base hNumber, Nat.toDigits_of_lt_base hCount, List.length_singleton]

theorem byteLength_preamble : byteLength promptPreamble.toList = 294 := by
  unfold promptPreamble
  simp only [toList_append]
  repeat rw [toList_ofList]
  decide +kernel

theorem byteLength_contextEnd : byteLength promptContextEnd.toList = 58 := by
  unfold promptContextEnd
  rw [toList_ofList]
  rfl

theorem fixedBytes_le {count : Nat} (hCount : count ≤ maxEvidenceItems)
    (hQuestion : byteLength question ≤ maxQuestionBytes) : fixedBytes count question ≤ 9000 := by
  have hPreamble := byteLength_preamble
  have hEnd := byteLength_contextEnd
  have hItems : maxEvidenceItems = 8 := rfl
  have hBytes : maxQuestionBytes = 8192 := rfl
  have hSeparators := List.sum_le_card_nsmul
    ((List.range count).map fun index => byteLength (separator (index + 1) count)) 25 (by
      intro size hSize
      obtain ⟨index, hIndex, rfl⟩ := mem_map.mp hSize
      have hLt := mem_range.mp hIndex
      rw [byteLength_separator (by omega) (by omega)])
  rw [List.length_map, length_range, smul_eq_mul] at hSeparators
  unfold fixedBytes
  omega

theorem itemBudget_ge {count : Nat} (hNone : 0 < count)
    (hCount : count ≤ maxEvidenceItems) (hQuestion : byteLength question ≤ maxQuestionBytes) :
    200 ≤ itemBudget count question := by
  have hFixed := fixedBytes_le hCount hQuestion
  have hPrompt : maxPromptBytes = 65536 := rfl
  have hSingle : maxSingleContextBytes = 32768 := rfl
  have hItems : maxEvidenceItems = 8 := rfl
  have hShare : 200 ≤ (maxPromptBytes - fixedBytes count question) / max count 1 := by
    rw [Nat.max_eq_left hNone, Nat.le_div_iff_mul_le hNone]
    omega
  unfold itemBudget
  omega

theorem byteLength_clips_le {count : Nat} {clipped : List (List Char)}
    (hNone : 0 < count) (hLength : clipped.length = count)
    (hClips : ∀ clip ∈ clipped, byteLength clip ≤ itemBudget count question) :
    (clipped.map byteLength).sum ≤ maxPromptBytes - fixedBytes count question := by
  have hSum := List.sum_le_card_nsmul (clipped.map byteLength) (itemBudget count question) (by
    intro size hSize
    obtain ⟨clip, hClip, rfl⟩ := mem_map.mp hSize
    exact hClips clip hClip)
  rw [List.length_map, hLength, smul_eq_mul] at hSum
  have hShare : itemBudget count question
      ≤ (maxPromptBytes - fixedBytes count question) / count := by
    unfold itemBudget
    rw [Nat.max_eq_left hNone]
    exact Nat.min_le_left _ _
  calc (clipped.map byteLength).sum ≤ count * itemBudget count question := hSum
    _ ≤ count * ((maxPromptBytes - fixedBytes count question) / count) :=
        Nat.mul_le_mul_left count hShare
    _ ≤ maxPromptBytes - fixedBytes count question := Nat.mul_div_le _ _

variable (chars : CharClass)

/-- Each item of the evidence is shown as it should be. -/
def Shown (evidence : List ReviewEvidence) (question : List Char) (clipped : List (List Char)) :
    Prop :=
  List.Forall₂ (fun entry clip =>
    Faithful (entry.1.render chars).toList (itemBudget evidence.length question) (entry.2 + 1) clip)
    evidence.zipIdx clipped

theorem mapM_forall₂ {α β : Type} {f : α → Option β} {R : α → β → Prop} {list : List α}
    (h : ∀ a ∈ list, ∃ b, f a = some b ∧ R a b) :
    ∃ results, list.mapM f = some results ∧ List.Forall₂ R list results := by
  induction list with
  | nil => exact ⟨[], rfl, .nil⟩
  | cons a list ih =>
    obtain ⟨b, hb, hR⟩ := h a mem_cons_self
    obtain ⟨results, hResults, hAll⟩ := ih fun a' ha' => h a' (mem_cons_of_mem _ ha')
    exact ⟨b :: results, by simp [hb, hResults], .cons hR hAll⟩

theorem exists_of_forall₂ {α β : Type} {R : α → β → Prop} {list : List α} {results : List β}
    (h : List.Forall₂ R list results) {b : β} (hb : b ∈ results) : ∃ a, R a b := by
  induction h with
  | nil => cases hb
  | cons hHead hTail ih =>
    rcases mem_cons.mp hb with rfl | hb
    · exact ⟨_, hHead⟩
    · exact ih hb

variable {evidence : List ReviewEvidence} {question : List Char}

theorem subjectLabel_bounded (evidence : List ReviewEvidence) :
    ∃ label, subjectLabel chars evidence = some label ∧ byteLength label ≤ maxSubjectBytes := by
  have hMark : byteLength "…".toList < maxSubjectBytes := by decide
  exact clipPlain_bounded _ hMark

section
variable (hSome : evidence ≠ []) (hCount : evidence.length ≤ maxEvidenceItems)
include hSome hCount

theorem validateInputs_ok
    (hBlank : chars.trim question ≠ []) (hQuestion : byteLength question ≤ maxQuestionBytes) :
    validateInputs chars evidence question = .ok () := by
  unfold validateInputs
  rw [if_neg (by simpa using hSome), if_neg (Nat.not_lt.mpr hCount),
    if_neg (by simpa using hBlank), if_neg (Nat.not_lt.mpr hQuestion)]

theorem exists_clips (hQuestion : byteLength question ≤ maxQuestionBytes) : ∃ clipped,
      (evidence.zipIdx.mapM fun entry => clipContext (entry.1.render chars).toList
        (itemBudget evidence.length question) (entry.2 + 1)) = some clipped
      ∧ Shown chars evidence question clipped
      ∧ ∀ clip ∈ clipped, byteLength clip ≤ itemBudget evidence.length question := by
  have hNone : 0 < evidence.length := length_pos_iff.mpr hSome
  have hBudget := itemBudget_ge hNone hCount hQuestion
  have hItems : maxEvidenceItems = 8 := rfl
  have hEach : ∀ entry ∈ evidence.zipIdx, ∃ clip,
      clipContext (entry.1.render chars).toList (itemBudget evidence.length question)
          (entry.2 + 1) = some clip
        ∧ (byteLength clip ≤ itemBudget evidence.length question
          ∧ Faithful (entry.1.render chars).toList (itemBudget evidence.length question)
            (entry.2 + 1) clip) := by
    intro entry hEntry
    have hIndex := snd_lt_of_mem_zipIdx hEntry
    exact clipContext_faithful _ hBudget (by omega)
  obtain ⟨clipped, hClipped, hAll⟩ := mapM_forall₂ hEach
  refine ⟨clipped, hClipped, hAll.imp fun entry clip h => h.2, ?_⟩
  intro clip hClip
  obtain ⟨entry, hSize, -⟩ := exists_of_forall₂ hAll hClip
  exact hSize

theorem exists_prompt
    (hBlank : chars.trim question ≠ []) (hQuestion : byteLength question ≤ maxQuestionBytes) :
    ∃ label clipped, (evidence.zipIdx.mapM fun entry => clipContext (entry.1.render chars).toList
        (itemBudget evidence.length question) (entry.2 + 1)) = some clipped
      ∧ compose chars evidence question = some (.ok ⟨label, assemble clipped question⟩)
      ∧ byteLength (assemble clipped question) ≤ maxPromptBytes ∧ byteLength label ≤ maxSubjectBytes
      ∧ Shown chars evidence question clipped := by
  have hNone : 0 < evidence.length := length_pos_iff.mpr hSome
  obtain ⟨label, hLabel, hLabelSize⟩ := subjectLabel_bounded chars evidence
  obtain ⟨clipped, hClipped, hShown, hSizes⟩ := exists_clips chars hSome hCount hQuestion
  have hLength : clipped.length = evidence.length := by
    rw [← hShown.length_eq, length_zipIdx]
  have hSum := byteLength_clips_le hNone hLength hSizes
  have hFixed := fixedBytes_le hCount hQuestion
  have hPrompt : maxPromptBytes = 65536 := rfl
  have hText : byteLength (assemble clipped question) ≤ maxPromptBytes := by
    rw [byteLength_assemble, hLength]
    omega
  have hFixedFits : ¬maxPromptBytes < fixedBytes evidence.length question := by omega
  have hFits : ¬maxPromptBytes < byteLength (assemble clipped question) := Nat.not_lt.mpr hText
  refine ⟨label, clipped, hClipped, ?_, hText, hLabelSize, hShown⟩
  unfold compose
  simp only [validateInputs_ok chars hSome hCount hBlank hQuestion, hLabel, Option.bind_some,
    hClipped, Option.map_some, if_neg hFixedFits, if_neg hFits]

end

/-- A prompt is composed of all evidence that is not too much; it is bounded, ends with the
question, and has every item in its place, in full or up to a cut. -/
theorem compose_bounded (chars : CharClass) (evidence : List ReviewEvidence)
    (question : List Char) (hSome : evidence ≠ []) (hCount : evidence.length ≤ maxEvidenceItems)
    (hBlank : chars.trim question ≠ []) (hQuestion : byteLength question ≤ maxQuestionBytes) :
    ∃ prompt clipped, compose chars evidence question = some (.ok prompt)
      ∧ byteLength prompt.text ≤ maxPromptBytes ∧ byteLength prompt.subjectLabel ≤ maxSubjectBytes
      ∧ question <:+ prompt.text ∧ prompt.text = promptPreamble.toList
          ++ (clipped.zipIdx.map fun entry => separator (entry.2 + 1) evidence.length ++ entry.1
            ++ ['\n']).flatten ++ promptContextEnd.toList ++ question
      ∧ Shown chars evidence question clipped := by
  obtain ⟨label, clipped, -, hCompose, hText, hLabel, hShown⟩ :=
    exists_prompt chars hSome hCount hBlank hQuestion
  have hLength : clipped.length = evidence.length := by
    rw [← hShown.length_eq, length_zipIdx]
  refine ⟨_, clipped, hCompose, hText, hLabel, suffix_append _ _, ?_, hShown⟩
  unfold assemble
  rw [hLength]
  rfl

/-! ### A marker that is cut -/

theorem isBoundary_ascii {text : List Char} (h : ∀ c ∈ text, c.utf8Size = 1) {offset : Nat}
    (hOffset : offset ≤ byteLength text) : IsBoundary text offset := by
  have hTake : ∀ c ∈ text.take offset, c.utf8Size = 1 := by
    intro c hc
    exact h c (mem_of_mem_take hc)
  rw [byteLength_ascii h] at hOffset
  refine ⟨text.take offset, text.drop offset, (take_append_drop _ _).symm, ?_⟩
  rw [byteLength_ascii hTake, length_take, Nat.min_eq_left hOffset]

/-- The item in full, or cut and followed by its whole marker. -/
def Marked (value : List Char) (number : Nat) (clip : List Char) : Prop :=
  clip = value ∨ ∃ kept, kept <+: value
    ∧ clip = kept ++ omissionMarker (byteLength value - byteLength kept) number

theorem contextOmitted_end : ∃ front, contextOmitted = front ++ ['d', ']'] :=
  ⟨"… [context omitte".toList, rfl⟩

theorem omissionMarker_end (omitted number : Nat) :
    ∃ front, omissionMarker omitted number = front ++ ['.', ']'] := by
  have hLast : " to keep review context bounded ...]".toList
      = " to keep review context bounded ..".toList ++ ['.', ']'] := by
    rw [toList_ofList, toList_ofList]
    rfl
  refine ⟨("\n[... " ++ toString omitted ++ " bytes omitted from evidence " ++ toString number
    ++ " to keep review context bounded ..").toList, ?_⟩
  unfold omissionMarker
  rw [toList_append, hLast, ← List.append_assoc, ← toList_append]

theorem clipContext_cut {value : List Char} (hLimit : 200 ≤ limit)
    (hNumber : number < 10) (hMany : limit + 100000000 ≤ byteLength value)
    (hBoundary : IsBoundary value (limit - omissionReserveBytes)) :
    ∃ clip, clipContext value limit number = some clip ∧ ¬Marked value number clip := by
  have hReserve : omissionReserveBytes = 80 := rfl
  have hFloor : floorCharBoundary value (limit - omissionReserveBytes)
      = limit - omissionReserveBytes := by
    unfold floorCharBoundary
    rw [Nat.min_eq_left (by omega)]
    exact Nat.le_antisymm (floorBoundary_le _ _) (le_floorBoundary hBoundary (Nat.le_refl _))
  obtain ⟨kept, rest, hValue, hKept⟩ := hBoundary
  have hTake : takeBytes value (limit - omissionReserveBytes) = some kept := by
    unfold takeBytes
    rw [splitBytes_eq_some.mpr ⟨hValue, hKept⟩]
    rfl
  have hMarker := byteLength_omissionMarker (byteLength value - (limit - omissionReserveBytes))
    hNumber
  have hDigits : ¬(Nat.toDigits 10 (byteLength value - (limit - omissionReserveBytes))).length
      ≤ 8 := by
    rw [Nat.length_toDigits_le_iff (by decide) (by decide)]
    omega
  have hOver : limit < byteLength
      (kept ++ omissionMarker (byteLength value - (limit - omissionReserveBytes)) number) := by
    rw [byteLength_append]
    omega
  have hRoom : byteLength contextOmitted < limit := by
    rw [byteLength_contextOmitted]
    omega
  obtain ⟨shown, hClip, -, hFits, -⟩ := clipPlain_long hRoom hOver
  refine ⟨shown ++ contextOmitted, ?_, ?_⟩
  · unfold clipContext
    rw [if_neg (by omega)]
    simp only [hFloor, hTake, Option.bind_some, if_pos hOver, hClip]
  rintro (hWhole | ⟨other, -, hOther⟩)
  · rw [hWhole] at hFits
    omega
  · obtain ⟨front, hOmitted⟩ := contextOmitted_end
    obtain ⟨before, hMarked⟩ := omissionMarker_end (byteLength value - byteLength other) number
    rw [hOmitted, hMarked, ← List.append_assoc, ← List.append_assoc] at hOther
    have hEnds := append_inj_right' hOther rfl
    simp at hEnds

/-- A check with as long a detail. -/
def longCheck (size : Nat) : ReviewEvidence :=
  .check "CI" "fail" (some (String.ofList (List.replicate size 'a')))

def longHead : String :=
  "Type: Check\nLabel: Check · CI\nName: CI\nResult: fail\nDetail:\n"

theorem render_longCheck (chars : CharClass) (size : Nat) :
    ((longCheck size).render chars).toList = longHead.toList ++ List.replicate size 'a' := by
  have hRender : (longCheck size).render chars
      = "Type: Check\nLabel: " ++ ("Check · " ++ "CI") ++ "\nName: " ++ "CI" ++ "\nResult: "
        ++ "fail" ++ ("\nDetail:\n" ++ String.ofList (List.replicate size 'a')) := rfl
  rw [hRender]
  simp [longHead]

def plainChars : CharClass where
  isWhitespace := Char.isWhitespace
  isAlphanumeric := Char.isAlphanum
  isControl c := c.toNat < 32

theorem assemble_singleton_inj {clip other question : List Char}
    (h : assemble [clip] question = assemble [other] question) : clip = other := by
  simpa [assemble, block] using h

theorem clipContext_longCheck (chars : CharClass) {size limit : Nat} (hLimit : 200 ≤ limit)
    (hSize : limit + 100000000 ≤ size) :
    ∃ clip, clipContext ((longCheck size).render chars).toList limit 1 = some clip
      ∧ ¬Marked ((longCheck size).render chars).toList 1 clip := by
  have hHead : byteLength longHead.toList = 61 := by
    unfold longHead
    rw [toList_ofList]
    rfl
  have hOne : ∀ c ∈ List.replicate size 'a', c.utf8Size = 1 := by
    intro c hc
    rw [eq_of_mem_replicate hc]
    rfl
  have hDetail : byteLength (List.replicate size 'a') = size := by
    rw [byteLength_ascii hOne, List.length_replicate]
  have hReserve : omissionReserveBytes = 80 := rfl
  rw [render_longCheck]
  refine clipContext_cut hLimit (by decide) ?_ ?_
  · rw [byteLength_append, hDetail]
    omega
  have hRest : limit - 80 - 61 ≤ byteLength (List.replicate size 'a') := by omega
  have hInside := (isBoundary_ascii hOne hRest).append_left longHead.toList
  have hOffset : byteLength longHead.toList + (limit - 80 - 61)
      = limit - omissionReserveBytes := by omega
  rwa [hOffset] at hInside

theorem compose_longCheck (chars : CharClass) {size : Nat}
    (hSize : maxSingleContextBytes + 100000000 ≤ size) (hBlank : chars.trim question ≠ [])
    (hQuestion : byteLength question ≤ maxQuestionBytes) :
    ¬∃ prompt clipped, compose chars [longCheck size] question = some (.ok prompt)
      ∧ prompt.text = assemble clipped question
      ∧ List.Forall₂ (fun entry clip => Marked (entry.1.render chars).toList (entry.2 + 1) clip)
        [longCheck size].zipIdx clipped := by
  rintro ⟨prompt, clipped, hPrompt, hText, hMarked⟩
  have hSome : [longCheck size] ≠ [] := cons_ne_nil _ _
  have hCount : [longCheck size].length ≤ maxEvidenceItems := by
    rw [List.length_singleton]
    decide
  have hBudget : itemBudget 1 question ≤ maxSingleContextBytes := Nat.min_le_right _ _
  have hLeast : 200 ≤ itemBudget 1 question := itemBudget_ge Nat.one_pos hCount hQuestion
  obtain ⟨clip, hClip, hNot⟩ := clipContext_longCheck chars hLeast
    (by omega : itemBudget 1 question + 100000000 ≤ size)
  obtain ⟨label, clips, hClips, hCompose, -⟩ := exists_prompt chars hSome hCount hBlank hQuestion
  obtain rfl : clips = [clip] := by
    simpa [hClip, eq_comm] using hClips
  rw [hCompose, Option.some.injEq, Except.ok.injEq] at hPrompt
  rw [← hPrompt] at hText
  cases hMarked with
  | cons hHead hTail =>
    cases hTail
    rw [← assemble_singleton_inj hText] at hHead
    exact hNot hHead

/-- A detail of about a hundred megabytes leaves no room for its marker. -/
theorem marker_lost : ¬∀ (evidence : List ReviewEvidence) (question : List Char), evidence ≠ [] →
      evidence.length ≤ maxEvidenceItems → plainChars.trim question ≠ [] →
      byteLength question ≤ maxQuestionBytes →
        ∃ prompt clipped, compose plainChars evidence question = some (.ok prompt)
          ∧ prompt.text = assemble clipped question ∧ List.Forall₂ (fun entry clip =>
              Marked (entry.1.render plainChars).toList (entry.2 + 1) clip)
            evidence.zipIdx clipped := by
  intro h
  have hBlank : plainChars.trim ['q'] ≠ [] := by decide
  have hQuestion : byteLength ['q'] ≤ maxQuestionBytes := by decide
  have hSize : maxSingleContextBytes + 100000000 ≤ 100100000 := by decide
  exact compose_longCheck plainChars hSize hBlank hQuestion (h [longCheck 100100000] ['q']
    (cons_ne_nil _ _) (Nat.succ_le_succ (Nat.zero_le 7)) hBlank hQuestion)

/-- Two items and a question. -/
theorem compose_bounded_two : ∃ prompt clipped,
      compose plainChars [.check "CI" "pass" none, .check "lint" "fail" (some "x")] ['q']
          = some (.ok prompt) ∧ byteLength prompt.text ≤ maxPromptBytes
        ∧ byteLength prompt.subjectLabel ≤ maxSubjectBytes ∧ ['q'] <:+ prompt.text
        ∧ prompt.text = promptPreamble.toList
            ++ (clipped.zipIdx.map fun entry => separator (entry.2 + 1) 2 ++ entry.1
              ++ ['\n']).flatten ++ promptContextEnd.toList ++ ['q']
        ∧ Shown plainChars [.check "CI" "pass" none, .check "lint" "fail" (some "x")] ['q']
          clipped :=
  compose_bounded plainChars [.check "CI" "pass" none, .check "lint" "fail" (some "x")] ['q']
    (by simp) (by decide) (by decide) (by decide)

end Diri.Review
