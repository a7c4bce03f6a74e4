/-
How dangerous a request looks.

The hint for a permission is made of what is shown of the request: the first 120 characters,
redacted.  It understates nothing just where `Shows` holds: whatever makes the request dangerous
has to stand in that, outside the masked values.
-/
import Diri.Engine.Hooks
import Diri.Proofs.Detect.Redact

namespace Diri

open List

/-! ### Patterns -/

theorem containsPattern_iff (pattern text : List Char) :
    containsPattern pattern text = true ↔ pattern <:+: text := by
  induction text with
  | nil => rw [containsPattern, List.isEmpty_iff, infix_nil]
  | cons c text ih =>
    rw [containsPattern, Bool.or_eq_true, ih, isPrefixOf_iff_prefix, infix_cons_iff]

/-- The text as the patterns are looked for in it. -/
def lowered (text : List Char) : List Char := text.flatMap lowercaseChar

theorem lowered_append (before behind : List Char) :
    lowered (before ++ behind) = lowered before ++ lowered behind := flatMap_append

namespace RiskHint

def severity : RiskHint → Nat
  | destructive => 3
  | network => 2
  | fileWrite => 1
  | neutral | unknown => 0

def patterns : RiskHint → List String
  | destructive => destructivePatterns
  | network => networkPatterns
  | fileWrite => fileWritePatterns
  | neutral | unknown => []

/-- One of the hint's patterns is in the text. -/
def Names (hint : RiskHint) (text : List Char) : Prop :=
  ∃ pattern ∈ hint.patterns, pattern.toList <:+: lowered text

variable {hint : RiskHint} {text : List Char}

theorem Names.severity_pos (h : hint.Names text) : 0 < hint.severity := by
  obtain ⟨pattern, hpattern, -⟩ := h
  cases hint with
  | destructive | network | fileWrite => exact Nat.succ_pos _
  | neutral | unknown => cases hpattern

theorem Names.append (h : hint.Names text) (before behind : List Char) :
    hint.Names (before ++ text ++ behind) := by
  obtain ⟨pattern, hpattern, hinfix⟩ := h
  refine ⟨pattern, hpattern, ?_⟩
  rw [lowered_append, lowered_append]
  exact hinfix.trans ⟨lowered before, lowered behind, rfl⟩

end RiskHint

open RiskHint

theorem any_containsPattern (hint : RiskHint) (text : String) :
    (hint.patterns.any fun p => containsPattern p.toList (text.toList.flatMap lowercaseChar)) =
        true ↔ hint.Names text.toList := by
  simp only [any_eq_true, containsPattern_iff]
  rfl

theorem classifyRisk_spec (text : String) : (∀ hint : RiskHint, hint.Names text.toList →
      hint.severity ≤ (classifyRisk text).severity) ∧
      (0 < (classifyRisk text).severity → (classifyRisk text).Names text.toList) := by
  have hdestructive := any_containsPattern .destructive text
  have hnetwork := any_containsPattern .network text
  have hfileWrite := any_containsPattern .fileWrite text
  simp only [patterns] at hdestructive hnetwork hfileWrite
  unfold classifyRisk
  dsimp only
  split
  · rename_i h
    refine ⟨fun hint _ => ?_, fun _ => hdestructive.mp h⟩
    cases hint <;> decide
  split
  · rename_i hnone h
    refine ⟨fun hint hnames => ?_, fun _ => hnetwork.mp h⟩
    cases hint with
    | destructive => exact absurd (hdestructive.mpr hnames) hnone
    | _ => decide
  split
  · rename_i hnone hnone' h
    refine ⟨fun hint hnames => ?_, fun _ => hfileWrite.mp h⟩
    cases hint with
    | destructive => exact absurd (hdestructive.mpr hnames) hnone
    | network => exact absurd (hnetwork.mpr hnames) hnone'
    | _ => decide
  rename_i hnone hnone' hnone''
  refine ⟨fun hint hnames => ?_, fun h => absurd h (lt_irrefl 0)⟩
  cases hint with
  | destructive => exact absurd (hdestructive.mpr hnames) hnone
  | network => exact absurd (hnetwork.mpr hnames) hnone'
  | fileWrite => exact absurd (hfileWrite.mpr hnames) hnone''
  | _ => exact absurd hnames.severity_pos (lt_irrefl 0)

/-- One text looks as severe as another just where it names something as severe as all of it. -/
theorem severity_le_iff (text shown : String) :
    (classifyRisk text).severity ≤ (classifyRisk shown).severity ↔
      ∀ hint : RiskHint, hint.Names text.toList →
        ∃ other : RiskHint, hint.severity ≤ other.severity ∧ other.Names shown.toList := by
  obtain ⟨hmost, hnamed⟩ := classifyRisk_spec text
  obtain ⟨hmostShown, hnamedShown⟩ := classifyRisk_spec shown
  constructor
  · intro hle hint hhint
    have hsevere := (hmost hint hhint).trans hle
    exact ⟨_, hsevere, hnamedShown (hhint.severity_pos.trans_le hsevere)⟩
  intro h
  rcases Nat.eq_zero_or_pos (classifyRisk text).severity with hzero | hpos
  · rw [hzero]
    exact Nat.zero_le _
  · obtain ⟨other, hle, hother⟩ := h _ (hnamed hpos)
    exact hle.trans (hmostShown other hother)

theorem classifyRisk_mono (before text behind : String) :
    (classifyRisk text).severity ≤ (classifyRisk (before ++ text ++ behind)).severity := by
  refine (severity_le_iff _ _).mpr fun hint h => ⟨hint, le_refl _, ?_⟩
  rw [String.toList_append, String.toList_append]
  exact h.append _ _

/-! ### What is shown -/

theorem lowered_intercalate (pieces : List (List Char)) :
    lowered (mask.intercalate pieces) = mask.intercalate (pieces.map lowered) := by
  induction pieces with
  | nil => rfl
  | cons piece rest ih =>
    cases rest with
    | nil => simp
    | cons next rest =>
      have hmask : lowered mask = mask := by decide
      rw [intercalate_cons_cons, lowered_append, lowered_append, ih, hmask]
      simp

theorem names_redact (hint : RiskHint) (text : String) :
    hint.Names (redact text).toList ↔ ∃ piece ∈ standing text, hint.Names piece := by
  have hpatterns : ∀ pattern ∈ hint.patterns,
      pattern.toList ≠ [] ∧ '=' ∉ pattern.toList ∧ '•' ∉ pattern.toList := by
    cases hint <;> decide +kernel
  have hiff : ∀ pattern ∈ hint.patterns, (pattern.toList <:+: lowered (redact text).toList ↔
      ∃ piece ∈ standing text, pattern.toList <:+: lowered piece) := by
    intro pattern hpattern
    obtain ⟨hne, hequals, hdot⟩ := hpatterns pattern hpattern
    rw [toList_redact, lowered_intercalate, mask, infix_intercalate hequals (by simp [hdot]) hne]
    simp
  constructor
  · rintro ⟨pattern, hpattern, h⟩
    obtain ⟨piece, hpiece, h⟩ := (hiff pattern hpattern).mp h
    exact ⟨piece, hpiece, pattern, hpattern, h⟩
  · rintro ⟨piece, hpiece, pattern, hpattern, h⟩
    exact ⟨pattern, hpattern, (hiff pattern hpattern).mpr ⟨piece, hpiece, h⟩⟩

namespace Hooks

/-- Whatever the text names, something as severe is named between the masks of its start. -/
def Shows (text : String) : Prop :=
  ∀ hint : RiskHint, hint.Names text.toList → ∃ other : RiskHint, hint.severity ≤ other.severity ∧
    ∃ piece ∈ standing (shortened text), other.Names piece

/-- The detail of a permission looks as dangerous as all of what is asked for. -/
def Forewarns (payload : Json) (now : SystemTime) : Prop :=
  ∀ signal carried detail text,
    parseClaudeHook "PermissionRequest" payload now = some (signal, carried) →
      carried.needsInput = some detail → toolText payload = some text →
        (classifyRisk text).severity ≤ detail.riskHint.severity

theorem forewarns_of_subagent {payload : Json} (h : (string payload "agent_id").isSome = true)
    (now : SystemTime) : Forewarns payload now := by
  intro signal carried detail text hparse hdetail _
  simp only [parseClaudeHook, parseEvent, h, if_true, Option.map_some] at hparse
  cases hparse
  cases hdetail

theorem forewarns_iff {payload : Json} (h : (string payload "agent_id").isSome = false)
    (now : SystemTime) : Forewarns payload now ↔ ∀ text, toolText payload = some text →
      (classifyRisk text).severity ≤ (classifyRisk (redact (shortened text))).severity := by
  have hparse : ∃ signal carried, parseClaudeHook "PermissionRequest" payload now =
      some (signal, carried) ∧ carried.needsInput = some (permissionRequest payload now) := by
    simp only [parseClaudeHook, parseEvent, h, Option.map_some]
    exact ⟨_, _, rfl, rfl⟩
  obtain ⟨signal, carried, hparse, hcarried⟩ := hparse
  have hrisk : ∀ text, toolText payload = some text →
      (permissionRequest payload now).riskHint = classifyRisk (redact (shortened text)) := by
    intro text htext
    simp only [permissionRequest, toolSummary, htext]
    rfl
  constructor
  · intro hforewarns text htext
    rw [← hrisk text htext]
    exact hforewarns signal carried _ text hparse hcarried htext
  · intro hall signal' carried' detail text hparse' hdetail htext
    obtain ⟨rfl, rfl⟩ := Prod.mk.inj (Option.some.inj (hparse.symm.trans hparse'))
    obtain rfl := Option.some.inj (hcarried.symm.trans hdetail)
    rw [hrisk text htext]
    exact hall text htext

/-- A hint never understates the request, just where the danger is in what is shown. -/
theorem risk_forewarned_iff (payload : Json) (now : SystemTime) :
    (Forewarns payload now ↔ (string payload "agent_id").isSome = true ∨
        ∀ text, toolText payload = some text → Shows text) ∧ ∀ before text behind : String,
        (classifyRisk text).severity ≤ (classifyRisk (before ++ text ++ behind)).severity := by
  refine ⟨?_, classifyRisk_mono⟩
  cases hsubagent : (string payload "agent_id").isSome with
  | true => exact iff_of_true (forewarns_of_subagent hsubagent now) (.inl rfl)
  | false =>
    rw [forewarns_iff hsubagent]
    simp only [severity_le_iff, names_redact, Bool.false_eq_true, false_or]
    rfl

/-- A request to run a command. -/
def bash (command : String) : Json :=
  .object [("tool_name", .string "Bash"), ("tool_input", .object [("command", .string command)])]

/-- What is run inside a masked value gives no warning. -/
theorem masked_danger_unseen : ¬Forewarns (bash "TOKEN=$(sudo cat key)") 0 := by
  rw [forewarns_iff rfl]
  exact fun h => absurd (h _ rfl) (by decide)

end Hooks

end Diri
