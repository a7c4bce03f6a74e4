/-
What is written of the wire model is read back.

Messages, statuses and hibernations come back as they were.  A generic agent kind comes back
with a command: one that had none has the empty one.  So it is with what a kind is read from
that this program did not write, and nothing is lost by writing it again.
-/
import Diri.Proto.WireModel

namespace Diri

open Json List

/-! ### Messages -/

/-- Identifiers and sequence numbers have 64 bits. -/
def ControlMessage.FitsU64 : ControlMessage → Prop
  | .request id _ _ => id < 2 ^ 64
  | .response id _ => id < 2 ^ 64
  | .event _ seq _ => seq < 2 ^ 64

/-- No parameters, for parameters that are null. -/
def ControlMessage.settled : ControlMessage → ControlMessage
  | .request id method (some .null) => .request id method none
  | message => message

theorem decodeRequired_get {α : Type} {read : Json → Except DecodeError α} {object value : Json}
    {key : String} (h : object.get key = some value) :
    decodeRequired read object key = read value := by
  rw [decodeRequired, h]

theorem decodeOptional_get {object value : Json} {key : String} (h : object.get key = some value) :
    decodeOptional .ok object key = .ok (if value.isNull then none else some value) := by
  rw [decodeOptional, h]
  cases value <;> rfl

theorem controlError_fromJson (error : ControlError) :
    ControlError.fromJson error.toJson = .ok error := rfl

theorem request_fromJson {id : Nat} (h : id < 2 ^ 64) (method : String) (params : Option Json) :
    ControlMessage.fromJson (ControlMessage.request id method params).toJson =
      .ok (ControlMessage.request id method params).settled := by
  obtain ⟨object, hobject⟩ :
      ∃ object, object = (ControlMessage.request id method params).toJson := ⟨_, rfl⟩
  have hmethod : object.get "method" = some (.string method) := by rw [hobject]; rfl
  have hid : decodeRequired readU64 object "id" = .ok id := by
    have hget : object.get "id" = some (.number id) := by rw [hobject]; rfl
    rw [decodeRequired_get hget, readU64_natCast h]
  have hparams : decodeOptional .ok object "params" =
      .ok (params.filter fun value => !value.isNull) := by
    cases params with
    | none =>
      rw [hobject]
      rfl
    | some value =>
      have hget : object.get "params" = some value := by rw [hobject]; rfl
      rw [decodeOptional_get hget]
      cases value <;> rfl
  have hpresent : present object "method" = true := by rw [present, hmethod]; rfl
  have hread : object.isObject = true := by rw [hobject]; rfl
  rw [← hobject, ControlMessage.fromJson, if_neg (by simp [hread]), if_pos hpresent, hid,
    decodeRequired_get hmethod, hparams]
  cases params with
  | none => rfl
  | some value => cases value <;> rfl

theorem event_fromJson {seq : Nat} (h : seq < 2 ^ 64) (name : String) (params : Json) :
    ControlMessage.fromJson (ControlMessage.event name seq params).toJson =
      .ok (.event name seq params) := by
  obtain ⟨object, hobject⟩ :
      ∃ object, object = (ControlMessage.event name seq params).toJson := ⟨_, rfl⟩
  have hname : object.get "event" = some (.string name) := by rw [hobject]; rfl
  have hseq : decodeRequired readU64 object "seq" = .ok seq := by
    have hget : object.get "seq" = some (.number seq) := by rw [hobject]; rfl
    rw [decodeRequired_get hget, readU64_natCast h]
  have hget : object.get "params" = some params := by rw [hobject]; rfl
  have hmethod : present object "method" = false := by rw [hobject]; rfl
  have hpresent : present object "event" = true := by rw [present, hname]; rfl
  have hread : object.isObject = true := by rw [hobject]; rfl
  rw [← hobject, ControlMessage.fromJson, if_neg (by simp [hread]), if_neg (by simp [hmethod]),
    if_pos hpresent, hseq, decodeRequired_get hname, decodeOptional_get hget]
  cases params <;> rfl

theorem response_fromJson {id : Nat} (h : id < 2 ^ 64) (result : Except ControlError Json) :
    ControlMessage.fromJson (ControlMessage.response id result).toJson =
      .ok (.response id result) := by
  obtain ⟨object, hobject⟩ :
      ∃ object, object = (ControlMessage.response id result).toJson := ⟨_, rfl⟩
  have hid : decodeRequired readU64 object "id" = .ok id := by
    have hget : object.get "id" = some (.number id) := by
      rw [hobject]
      cases result <;> rfl
    rw [decodeRequired_get hget, readU64_natCast h]
  have hmethod : present object "method" = false := by
    rw [hobject]
    cases result <;> rfl
  have hevent : present object "event" = false := by
    rw [hobject]
    cases result <;> rfl
  have hread : object.isObject = true := by
    rw [hobject]
    cases result <;> rfl
  rw [← hobject, ControlMessage.fromJson, if_neg (by simp [hread]), if_neg (by simp [hmethod]),
    if_neg (by simp [hevent]), hid]
  cases result with
  | error error =>
    have hget : object.get "err" = some error.toJson := by rw [hobject]; rfl
    have hpresent : present object "err" = true := by rw [present, hget]; rfl
    simp only [hpresent, if_true, decodeRequired_get hget, controlError_fromJson]
    rfl
  | ok value =>
    have hget : object.get "ok" = some value := by rw [hobject]; rfl
    have hpresent : present object "err" = false := by rw [hobject]; rfl
    simp only [hpresent, decodeOptional_get hget]
    cases value <;> rfl

theorem controlMessage_fromJson {message : ControlMessage} (h : message.FitsU64) :
    ControlMessage.fromJson message.toJson = .ok message.settled := by
  cases message with
  | request id method params => exact request_fromJson h method params
  | response id result => exact response_fromJson h result
  | event name seq params => exact event_fromJson h name params

theorem count_newline (message : ControlMessage) :
    (encodeLine message).count newline = 1 ∧ (encodeLine message).getLast? = some newline := by
  constructor
  · have hnone : message.toJson.bytes.count newline = 0 :=
      count_eq_zero.mpr (Json.newline_notMem _)
    rw [encodeLine, count_append, hnone]
    rfl
  · rw [encodeLine, getLast?_concat]

theorem stripLineEnd_encodeLine (message : ControlMessage) :
    stripLineEnd (encodeLine message) = message.toJson.bytes := by
  obtain ⟨members, hmembers⟩ : ∃ members, message.toJson = .object members := by
    cases message with
    | request => exact ⟨_, rfl⟩
    | response id result => cases result <;> exact ⟨_, rfl⟩
    | event => exact ⟨_, rfl⟩
  have hbytes : message.toJson.bytes = utf8 "\x7b" ++ memberBytes [] members ++ [0x7D] := by
    rw [hmembers, Json.bytes]
    rfl
  rw [stripLineEnd, encodeLine, hbytes, rdropWhile_concat_pos _ _ _ (by decide),
    rdropWhile_concat_neg _ _ _ (by decide)]

theorem decodeLine_encodeLine {serde : Serde} {message : ControlMessage} (h : message.FitsU64)
    (hserde : serde.fromSlice message.toJson.bytes = some message.toJson) :
    decodeLine serde (encodeLine message) = .ok message.settled := by
  rw [decodeLine, stripLineEnd_encodeLine, hserde]
  exact controlMessage_fromJson h

/-! ### Agent kinds -/

namespace AgentKind

/-- What can be made: a kind that has a command is a generic one. -/
def Constructible (kind : AgentKind) : Prop :=
  (∃ id, kind = builtin id) ∨ (∃ id, kind = new id) ∨ ∃ command, kind = generic command

/-- A generic kind has a command, which may be empty. -/
def commanded (kind : AgentKind) : AgentKind :=
  if kind = new genericId then generic "" else kind

theorem fromJson_keyed (case : String) (payload : Json) :
    fromJson (keyedEnum case payload) = .ok (ofCase case (Payload.orDefault payload)) := rfl

theorem legacyCases_spec : ∀ legacy ∈ legacyCases,
    ofCase legacy.1 {} = builtin legacy.2 ∧ legacy.2 ≠ genericId := by decide

theorem toJson_of_ne {kind : AgentKind} (h : kind.id ≠ genericId) :
    kind.toJson = match legacyCases.find? fun legacy => legacy.2 = kind.id with
      | some legacy => keyedEnum legacy.1 (.object [])
      | none => keyedEnum openCaseKey (.object [("id", .string kind.id)]) :=
  if_neg h

theorem fromJson_new {id : String} (h : id ≠ genericId) :
    fromJson (new id).toJson = .ok (new id) := by
  have hne : (new id).id ≠ genericId := h
  rcases hfound : legacyCases.find? fun legacy => legacy.2 = (new id).id with _ | legacy
  · have hjson : (new id).toJson = keyedEnum openCaseKey (.object [("id", .string id)]) := by
      rw [toJson_of_ne hne, hfound]
      rfl
    rw [hjson, fromJson_keyed]
    rfl
  have hfits := find?_some hfound
  have hid : legacy.2 = id := of_decide_eq_true hfits
  have hjson : (new id).toJson = keyedEnum legacy.1 (.object []) := by
    rw [toJson_of_ne hne, hfound]
  have hcase := (legacyCases_spec legacy (mem_of_find?_eq_some hfound)).1
  rw [hjson, fromJson_keyed, ← hid]
  exact congrArg Except.ok hcase

theorem fromJson_generic (command : Option String) :
    fromJson (AgentKind.mk genericId command).toJson = .ok (generic (command.getD "")) := rfl

theorem generic_ne_new (command : String) : generic command ≠ new genericId := by
  intro h
  cases congrArg AgentKind.command h

theorem fromJson_toJson {kind : AgentKind} (h : kind.Constructible) :
    fromJson kind.toJson = .ok kind.commanded := by
  have hnew : ∀ id, fromJson (new id).toJson = .ok (new id).commanded := by
    intro id
    by_cases hid : id = genericId
    · rw [hid]
      rfl
    · have hne : new id ≠ new genericId := fun hsame => hid (congrArg AgentKind.id hsame)
      rw [fromJson_new hid, commanded, if_neg hne]
  rcases h with ⟨id, rfl⟩ | ⟨id, rfl⟩ | ⟨command, rfl⟩
  · exact hnew id
  · exact hnew id
  · rw [commanded, if_neg (generic_ne_new command)]
    exact fromJson_generic (some command)

theorem constructible_ofCase (case : String) (payload : Payload) :
    (ofCase case payload).Constructible := by
  unfold ofCase
  split
  · exact .inl ⟨_, rfl⟩
  split
  · exact .inr (.inr ⟨_, rfl⟩)
  split
  · split
    · exact .inr (.inl ⟨_, rfl⟩)
    · exact .inl ⟨_, rfl⟩
  · exact .inr (.inl ⟨_, rfl⟩)

theorem constructible_of_fromJson {value : Json} {kind : AgentKind}
    (h : fromJson value = .ok kind) : kind.Constructible := by
  unfold fromJson at h
  rcases hcase : decodeKeyedEnum value with error | ⟨case, payload⟩
  · rw [hcase] at h
    cases h
  rw [hcase] at h
  obtain rfl := Except.ok.inj h
  exact constructible_ofCase case _

end AgentKind

/-! ### Statuses -/

theorem readOptional_map {α : Type} {read : Json → Except DecodeError α} {write : α → Json}
    {value : Option α} (h : ∀ a, read (write a) = .ok a) (hnull : ∀ a, (write a).isNull = false) :
    readOptional read (value.map write) = .ok value := by
  cases value with
  | none => rfl
  | some a =>
    have hread : readOptional read (some (write a)) = (read (write a)).map some := by
      have hnot := hnull a
      cases hwrite : write a
      · rw [hwrite] at hnot
        cases hnot
      all_goals rfl
    rw [Option.map_some, hread, h a]
    rfl

theorem exitInfo_fromJson (info : ExitInfo) : ExitInfo.fromJson info.toJson = .ok info := by
  obtain ⟨reason, code, signal⟩ := info
  have hfields : (ExitInfo.mk reason code signal).toJson.readStruct ["reason", "code", "signal"] 3 =
      .ok [some (ExitReason.texts.toJson reason), code.map fun code => .number code.toInt,
        signal.map fun signal => .number signal.toInt] := by
    cases code <;> cases signal <;> rfl
  have hreason : readField ExitReason.texts.fromJson (some (ExitReason.texts.toJson reason)) =
      .ok reason := ExitReason.texts.fromJson_toJson reason
  have hinteger : ∀ value : Option Int32,
      readOptional readI32 (value.map fun value => .number value.toInt) = .ok value := fun _ =>
    readOptional_map readI32_toInt fun _ => rfl
  rw [ExitInfo.fromJson, hfields]
  simp only [bind, Except.bind, hreason, hinteger]
  rfl

theorem fromJson_needsInput (payload : Json) :
    SessionStatus.fromJson (keyedEnum "needsInput" payload) =
      (decodeUnnamed NeedsInputKind.texts.fromJson payload).bind fun kind =>
        .ok (.needsInput kind) := rfl

theorem fromJson_exited (payload : Json) : SessionStatus.fromJson (keyedEnum "exited" payload) =
      (decodeUnnamed ExitInfo.fromJson payload).bind fun info => .ok (.exited info) := rfl

theorem sessionStatus_fromJson (status : SessionStatus) :
    SessionStatus.fromJson status.toJson = .ok status := by
  cases status with
  | needsInput kind =>
    have hkind : decodeUnnamed NeedsInputKind.texts.fromJson
        (.object [("_0", NeedsInputKind.texts.toJson kind)]) = .ok kind :=
      NeedsInputKind.texts.fromJson_toJson kind
    rw [SessionStatus.toJson, fromJson_needsInput, hkind]
    rfl
  | exited info =>
    have hinfo : decodeUnnamed ExitInfo.fromJson (.object [("_0", info.toJson)]) = .ok info :=
      exitInfo_fromJson info
    rw [SessionStatus.toJson, fromJson_exited, hinfo]
    rfl
  | starting | idle | working | unknown => rfl

/-! ### Hibernation -/

def Ascending (map : List (Int32 × Int64)) : Prop :=
  map.Pairwise fun entry later => entry.1 < later.1

theorem insertTime_last {key : Int32} {value : Int64} {map : List (Int32 × Int64)}
    (h : ∀ entry ∈ map, entry.1 < key) : insertTime key value map = map ++ [(key, value)] := by
  induction map with
  | nil => rfl
  | cons entry rest ih =>
    have hfirst := h entry mem_cons_self
    have hne : key ≠ entry.1 := by
      rintro rfl
      exact Int32.lt_irrefl hfirst
    rw [insertTime, if_neg (Int32.lt_asymm hfirst), if_neg hne,
      ih fun other hother => h other (mem_cons_of_mem _ hother)]
    rfl

theorem insertTimes_flat {before map : List (Int32 × Int64)} (h : Ascending (before ++ map)) :
    insertTimes before (flatTimes map) = .ok (before ++ map) := by
  induction map generalizing before with
  | nil => rw [append_nil]; rfl
  | cons entry rest ih =>
    obtain ⟨key, value⟩ := entry
    have hlast : ∀ earlier ∈ before, earlier.1 < key := fun earlier hearlier =>
      (pairwise_append.mp h).2.2 earlier hearlier (key, value) mem_cons_self
    have hkey : -2 ^ 31 ≤ key.toInt64.toInt ∧ key.toInt64.toInt < 2 ^ 31 := by
      rw [Int32.toInt_toInt64]
      exact ⟨key.le_toInt, key.toInt_lt⟩
    have hsame : Int32.ofInt key.toInt64.toInt = key := by
      rw [Int32.toInt_toInt64, Int32.ofInt_toInt]
    have hflat : flatTimes ((key, value) :: rest) = key.toInt64 :: value :: flatTimes rest := rfl
    rw [hflat, insertTimes, if_pos hkey, hsame, insertTime_last hlast, ih]
    · rw [append_assoc, singleton_append]
    · rwa [append_assoc, singleton_append]

theorem length_flatTimes (map : List (Int32 × Int64)) : (flatTimes map).length % 2 = 0 := by
  induction map with
  | nil => rfl
  | cons entry rest ih =>
    have hlength : (flatTimes (entry :: rest)).length = (flatTimes rest).length + 2 := rfl
    omega

theorem deserializeTimes_array {serde : Serde} {items : List Json} {flat : List Int64}
    (h : (Json.array items).readList readI64 = .ok flat) (heven : flat.length % 2 = 0) :
    deserializeTimes serde (some (.array items)) = (insertTimes [] flat).map some := by
  have heven' : ¬flat.length % 2 ≠ 0 := by omega
  simp only [deserializeTimes, h, if_neg heven']

theorem deserializeTimes_flat {serde : Serde} {map : List (Int32 × Int64)} (h : Ascending map) :
    deserializeTimes serde (some (.array ((flatTimes map).map fun value => .number value.toInt))) =
      .ok (some map) := by
  have hflat : (Json.array ((flatTimes map).map fun value => .number value.toInt)).readList
      readI64 = .ok (flatTimes map) := readList_map fun value _ => readI64_toInt value
  have hall : Ascending ([] ++ map) := h
  rw [deserializeTimes_array hflat (length_flatTimes map), insertTimes_flat hall]
  rfl

theorem hibernationInfo_fromJson {serde : Serde} {info : HibernationInfo}
    (hdate : serde.dateFromJson (serde.dateToJson info.since) = .ok info.since)
    (hmap : ∀ map ∈ info.treeStartTimes, Ascending map) :
    HibernationInfo.fromJson serde (info.toJson serde) = .ok info := by
  obtain ⟨since, reason, treePids, treeStartTimes⟩ := info
  have hfields : ((HibernationInfo.mk since reason treePids treeStartTimes).toJson serde).readStruct
      ["since", "reason", "treePids", "treeStartTimes"] 3 =
      .ok [some (serde.dateToJson since), some (HibernationReason.texts.toJson reason),
        some (.array (treePids.map fun pid => .number pid.toInt)),
        treeStartTimes.map fun map =>
          .array ((flatTimes map).map fun value => .number value.toInt)] := by
    cases treeStartTimes <;> rfl
  have hsince : readField serde.dateFromJson (some (serde.dateToJson since)) = .ok since := hdate
  have hreason : readField HibernationReason.texts.fromJson
      (some (HibernationReason.texts.toJson reason)) = .ok reason :=
    HibernationReason.texts.fromJson_toJson reason
  have hpids : readField (readList readI32)
      (some (.array (treePids.map fun pid => .number pid.toInt))) = .ok treePids :=
    readList_map fun pid _ => readI32_toInt pid
  have htimes : deserializeTimes serde (treeStartTimes.map fun map =>
      .array ((flatTimes map).map fun value => .number value.toInt)) = .ok treeStartTimes := by
    cases treeStartTimes with
    | none => rfl
    | some map => exact deserializeTimes_flat (hmap map rfl)
  rw [HibernationInfo.fromJson, hfields]
  simp only [bind, Except.bind, hsince, hreason, hpids, htimes]
  rfl

/-! ### The wire model -/

/-- What is written is read back, if `serde_json` reads back what it has written; only a generic
kind that has no command comes back with an empty one. -/
theorem wire_round_trip (serde : Serde) : (∀ message : ControlMessage, message.FitsU64 →
      serde.fromSlice message.toJson.bytes = some message.toJson →
      decodeLine serde (encodeLine message) = .ok message.settled) ∧ (∀ message : ControlMessage,
      (encodeLine message).count newline = 1 ∧ (encodeLine message).getLast? = some newline) ∧
    (∀ kind : AgentKind, kind.Constructible → AgentKind.fromJson kind.toJson = .ok kind.commanded) ∧
    (∀ status : SessionStatus, SessionStatus.fromJson status.toJson = .ok status) ∧
    (∀ info : HibernationInfo, serde.dateFromJson (serde.dateToJson info.since) = .ok info.since →
      (∀ map ∈ info.treeStartTimes, Ascending map) →
      HibernationInfo.fromJson serde (info.toJson serde) = .ok info) ∧
    (∀ (value : Json) (kind : AgentKind), AgentKind.fromJson value = .ok kind →
      AgentKind.fromJson kind.toJson = .ok kind.commanded) ∧
    (∀ (value : Json) (status : SessionStatus), SessionStatus.fromJson value = .ok status →
      SessionStatus.fromJson status.toJson = .ok status) := by
  refine ⟨?_, count_newline, ?_, sessionStatus_fromJson, ?_, ?_, ?_⟩
  · intro message hfits hserde
    exact decodeLine_encodeLine hfits hserde
  · intro kind hkind
    exact AgentKind.fromJson_toJson hkind
  · intro info hdate hmap
    exact hibernationInfo_fromJson hdate hmap
  · intro value kind hread
    exact AgentKind.fromJson_toJson (AgentKind.constructible_of_fromJson hread)
  · intro value status hread
    exact sessionStatus_fromJson status

/-- A generic kind without a command, made here or read from a peer. -/
theorem command_appears :
    AgentKind.fromJson (AgentKind.new "generic").toJson ≠ .ok (AgentKind.new "generic") ∧
    AgentKind.fromJson (.object [("agent", .object [("id", .string "generic")])]) =
      .ok (AgentKind.new "generic") := by
  refine ⟨?_, rfl⟩
  have hread : AgentKind.fromJson (AgentKind.new "generic").toJson =
      .ok (AgentKind.generic "") := rfl
  rw [hread]
  intro h
  cases congrArg AgentKind.command (Except.ok.inj h)

end Diri
