/-
Which launches fit through the pipes.

`validate` adds up raw bytes; the readers count JSON.  JSON adds names, quotes and
separators for each text, and escaping can make six bytes of one.  The Holder's limit
leaves room for the worst of that, the other two limits are the same number as the raw
one and leave none.
-/
import Diri.Lib.Cut
import Diri.Proofs.Remote.Environment

namespace Diri.Wire

open List Except

/-! ### What validation says -/

/-- Each check of `validate`. -/
structure LaunchRequest.Valid (request : LaunchRequest) : Prop where
  sessionId : validateIdentifier "session id" request.sessionId = .ok ()
  sessionToken : SessionToken.new request.sessionToken.value = .ok request.sessionToken
  arguments : request.argv ≠ [] ∧ request.argv.length ≤ maxArguments
  entries : request.environment.length ≤ maxEnvironmentVariables
  cwd : isAbsolute request.cwd = true ∧ 0 ∉ utf8 request.cwd
  dimensions : validateTerminalDimensions request.cols.toNat request.rows.toNat = .ok ()
  argv : ∀ argument ∈ request.argv, LaunchRequest.checkArgument argument = .ok ()
  environment : ∀ entry ∈ request.environment, LaunchRequest.checkVariable entry = .ok ()
  bytes : request.cwd.utf8ByteSize + (request.argv.map String.utf8ByteSize).sum +
    (request.environment.map LaunchRequest.variableBytes).sum ≤ maxLaunchBytes

theorem sessionToken_new_ok {value : String} {token : SessionToken}
    (h : SessionToken.new value = .ok token) : token = ⟨value⟩ := by
  unfold SessionToken.new at h
  dsimp only at h
  split at h
  · cases h
  · exact (ok.inj h).symm

theorem mapError_eq_ok {ε ε' α : Type} {x : Except ε α} {f : ε → ε'} {a : α} :
    x.mapError f = .ok a ↔ x = .ok a := by
  cases x with
  | error e | ok b => simp [Except.mapError]

variable {request : LaunchRequest}

theorem LaunchRequest.validate_eq_ok : request.validate = .ok () ↔ request.Valid := by
  unfold LaunchRequest.validate
  simp only [check_bind_eq_ok, bind_eq_ok (α := SessionToken), bind_eq_ok (α := Nat), weigh_eq_ok,
    checkThat_eq_ok, mapError_eq_ok]
  constructor
  · rintro ⟨hsession, token, htoken, harguments, hvariables, hcwd, hdimensions, _, ⟨hargv, rfl⟩,
      _, ⟨henvironment, rfl⟩, hbytes⟩
    obtain rfl := sessionToken_new_ok htoken
    exact ⟨hsession, htoken, harguments, hvariables, hcwd, hdimensions, hargv, henvironment, hbytes⟩
  · intro h
    exact ⟨h.sessionId, _, h.sessionToken, h.arguments, h.entries, h.cwd, h.dimensions, _,
      ⟨h.argv, rfl⟩, _, ⟨h.environment, rfl⟩, h.bytes⟩

/-! ### How long the JSON is -/

def environmentTexts (environment : List EnvironmentVariable) : List String :=
  environment.flatMap fun entry => [entry.name, entry.value]

def LaunchRequest.texts (request : LaunchRequest) : List String :=
  [request.sessionId, request.sessionToken.value, request.cwd] ++ request.argv ++
    environmentTexts request.environment

/-- The raw bytes of texts, and what escaping adds to them. -/
def escapedBytes (texts : List String) : Nat :=
  (texts.map String.utf8ByteSize).sum + (texts.map Json.growth).sum

/-- The bytes around the texts of so many variables. -/
def environmentFraming (environment : List EnvironmentVariable) : Nat :=
  22 * environment.length + (environment.length - 1)

/-- The bytes of a request around its texts: names, quotes, separators and numbers. -/
def LaunchRequest.framing (request : LaunchRequest) : Nat :=
  103 + (2 * request.argv.length + (request.argv.length - 1)) +
    environmentFraming request.environment + Json.decimalSize request.cols.toNat +
    Json.decimalSize request.rows.toNat + request.persistence.wire.utf8ByteSize

def EnvironmentCaptureResult.texts (result : EnvironmentCaptureResult) : List String :=
  [result.shell, result.cwd, result.diagnostics] ++ environmentTexts result.environment

def EnvironmentCaptureResult.framing (result : EnvironmentCaptureResult) : Nat :=
  79 + environmentFraming result.environment + if result.diagnosticsTruncated then 4 else 5

@[simp] theorem escapedBytes_nil : escapedBytes [] = 0 := rfl

@[simp] theorem escapedBytes_cons (text : String) (texts : List String) :
    escapedBytes (text :: texts) = text.utf8ByteSize + Json.growth text + escapedBytes texts := by
  simp only [escapedBytes, map_cons, sum_cons]
  omega

@[simp] theorem escapedBytes_append (texts more : List String) :
    escapedBytes (texts ++ more) = escapedBytes texts + escapedBytes more := by
  simp only [escapedBytes, map_append, sum_append]
  omega

theorem escapedBytes_le (texts : List String) :
    escapedBytes texts ≤ 6 * (texts.map String.utf8ByteSize).sum := by
  induction texts with
  | nil => exact Nat.le_refl _
  | cons text texts ih =>
    have hle := Json.growth_le text
    rw [escapedBytes_cons, map_cons, sum_cons]
    omega

theorem sum_quotedSize (texts : List String) :
    (texts.map Json.quotedSize).sum = 2 * texts.length + escapedBytes texts := by
  induction texts with
  | nil => rfl
  | cons text texts ih =>
    rw [map_cons, sum_cons, ih, Json.quotedSize_eq, escapedBytes_cons, length_cons]
    omega

theorem EnvironmentVariable.size_toJson (entry : EnvironmentVariable) :
    entry.toJson.size = 22 + escapedBytes [entry.name, entry.value] := by
  have hname : Json.quotedSize "name" = 6 := by decide
  have hvalue : Json.quotedSize "value" = 7 := by decide
  simp only [toJson, Json.size_object, Json.size_string, map_cons, map_nil, hname, hvalue,
    Json.listSize, sum_cons, sum_nil, length_cons, length_nil, Json.quotedSize_eq entry.name,
    Json.quotedSize_eq entry.value, escapedBytes_cons, escapedBytes_nil]
  omega

variable (environment : List EnvironmentVariable)

theorem size_environment : (Json.array (environment.map EnvironmentVariable.toJson)).size =
      2 + environmentFraming environment + escapedBytes (environmentTexts environment) := by
  have hsum : ((environment.map EnvironmentVariable.toJson).map Json.size).sum =
      22 * environment.length + escapedBytes (environmentTexts environment) := by
    induction environment with
    | nil => rfl
    | cons entry environment ih =>
      simp only [map_cons, sum_cons, ih, EnvironmentVariable.size_toJson,
        environmentTexts, flatMap_cons, escapedBytes_append, length_cons]
      omega
  rw [Json.size_array, Json.listSize, hsum, length_map, length_map, environmentFraming]
  omega

theorem PersistenceCapability.quotedSize_wire (persistence : PersistenceCapability) :
    Json.quotedSize persistence.wire = 2 + persistence.wire.utf8ByteSize := by
  cases persistence <;> decide

theorem LaunchRequest.size_toJson (request : LaunchRequest) :
    request.toJson.size = request.framing + escapedBytes request.texts := by
  have hargv : (Json.array (request.argv.map .string)).size =
      2 + (2 * request.argv.length + (request.argv.length - 1)) + escapedBytes request.argv := by
    have hsizes : (request.argv.map Json.string).map Json.size =
        request.argv.map Json.quotedSize := by
      rw [map_map]
      exact map_congr_left fun text _ => Json.size_string text
    rw [Json.size_array, Json.listSize, hsizes, sum_quotedSize, length_map]
    omega
  have hkeys : Json.quotedSize "sessionId" = 11 ∧ Json.quotedSize "sessionToken" = 14 ∧
      Json.quotedSize "argv" = 6 ∧ Json.quotedSize "cwd" = 5 ∧
      Json.quotedSize "environment" = 13 ∧ Json.quotedSize "cols" = 6 ∧
      Json.quotedSize "rows" = 6 ∧ Json.quotedSize "persistence" = 13 := by decide
  obtain ⟨hid, htoken, hargvKey, hcwd, henvironment, hcols, hrows, hpersistence⟩ := hkeys
  simp only [toJson, Json.size_object, Json.size_string, Json.size_number, map_cons,
    map_nil, hid, htoken, hargvKey, hcwd, henvironment, hcols, hrows, hpersistence, hargv,
    size_environment, request.persistence.quotedSize_wire, Json.quotedSize_eq request.sessionId,
    Json.quotedSize_eq request.sessionToken.value, Json.quotedSize_eq request.cwd, Json.listSize,
    sum_cons, sum_nil, length_cons, length_nil, framing, texts,
    escapedBytes_append, escapedBytes_cons, escapedBytes_nil]
  omega

theorem EnvironmentCaptureResult.size_toJson (result : EnvironmentCaptureResult) :
    result.toJson.size = result.framing + escapedBytes result.texts := by
  have hkeys : Json.quotedSize "shell" = 7 ∧ Json.quotedSize "cwd" = 5 ∧
      Json.quotedSize "environment" = 13 ∧ Json.quotedSize "diagnostics" = 13 ∧
      Json.quotedSize "diagnosticsTruncated" = 22 := by decide
  obtain ⟨hshell, hcwd, henvironment, hdiagnostics, htruncated⟩ := hkeys
  simp only [toJson, Json.size_object, Json.size_string, Json.size_bool, map_cons, map_nil, hshell,
    hcwd, henvironment, hdiagnostics, htruncated, size_environment, Json.quotedSize_eq result.shell,
    Json.quotedSize_eq result.cwd, Json.quotedSize_eq result.diagnostics, Json.listSize, sum_cons,
    sum_nil, length_cons, length_nil, framing, texts, escapedBytes_append, escapedBytes_cons,
    escapedBytes_nil]
  omega

theorem HolderStart.size_toJson (start : HolderStart) :
    start.toJson.size = 27 + start.request.toJson.size + Json.quotedSize start.incarnation := by
  have hrequest : Json.quotedSize "request" = 9 := by decide
  have hincarnation : Json.quotedSize "incarnation" = 13 := by decide
  simp only [toJson, Json.size_object, Json.size_string, map_cons, map_nil, hrequest,
    hincarnation, Json.listSize, sum_cons, sum_nil, length_cons, length_nil]
  omega

theorem hexByte_plain (byte : UInt8) : ∀ c ∈ hexByte byte, Json.IsPlain c := by
  have hdigit : ∀ n < 16, Json.IsPlain (hexDigits.getD n '0') := by decide
  have hlt := byte.toNat_lt
  intro c hc
  simp only [hexByte, mem_cons, not_mem_nil, or_false] at hc
  rcases hc with rfl | rfl
  · exact hdigit _ (by omega)
  · exact hdigit _ (by omega)

theorem quotedSize_randomHex (random : List UInt8) :
    Json.quotedSize (randomHex random) = 2 + 2 * random.length := by
  have hplain : ∀ c ∈ (randomHex random).toList, Json.IsPlain c := by
    intro c hc
    rw [randomHex, String.toList_ofList, mem_flatMap] at hc
    obtain ⟨byte, -, hc⟩ := hc
    exact hexByte_plain byte c hc
  have hone : ∀ c, Json.IsPlain c → c.utf8Size = 1 := by
    intro c hc
    refine Char.utf8Size_eq_one_iff.mpr ?_
    show c.toNat ≤ 127
    have hhigh := hc.2.1
    omega
  have hlength : (random.flatMap hexByte).length = 2 * random.length := by
    rw [length_flatMap]
    simp [hexByte, Nat.mul_comm]
  have hsizes : ((random.flatMap hexByte).map Char.utf8Size).sum = 2 * random.length := by
    have hall : ∀ size ∈ (random.flatMap hexByte).map Char.utf8Size, size = 1 := by
      intro size hsize
      obtain ⟨c, hc, rfl⟩ := mem_map.mp hsize
      obtain ⟨byte, -, hc⟩ := mem_flatMap.mp hc
      exact hone c (hexByte_plain byte c hc)
    rw [eq_replicate_of_mem hall, sum_replicate, length_map, hlength]
    simp
  rw [Json.quotedSize_plain hplain, randomHex, utf8ByteSize_ofList, hsizes]

/-! ### The readers -/

variable {α : Type}

theorem readLimitedJson_refused (fromSlice : List UInt8 → Option α) {maximum : Nat} {json : Json}
    (h : maximum < json.size) : readLimitedJson fromSlice maximum json.bytes =
      .error (.invalid "JSON request exceeds its size limit") := by
  replace h : maximum < json.bytes.length := h
  unfold readLimitedJson
  dsimp only
  rw [length_take, if_pos (by omega)]

variable {fromSlice : List UInt8 → Option α} {entry : EnvironmentVariable}

theorem readLimitedJson_ok {value : α} {json : Json}
    (hreads : fromSlice json.bytes = some value) (maximum : Nat) :
    readLimitedJson fromSlice maximum json.bytes = .ok value ↔ json.size ≤ maximum := by
  by_cases hfits : json.size ≤ maximum
  · replace hfits : json.bytes.length ≤ maximum := hfits
    have hall : json.bytes.take (maximum + 1) = json.bytes := take_of_length_le (by omega)
    refine iff_of_true ?_ hfits
    unfold readLimitedJson
    dsimp only
    rw [hall, hreads, if_neg (Nat.not_lt.mpr hfits)]
  refine iff_of_false ?_ hfits
  rw [readLimitedJson_refused fromSlice (Nat.lt_of_not_le hfits)]
  intro h
  cases h

theorem length_writeJson (value : Json) : (writeJson value).length = value.size + 1 := by
  rw [writeJson, length_append]
  rfl

theorem rpcOutput_refused (fromSlice : List UInt8 → Option α) {value : Json}
    (h : maxRpcOutput < value.size + 1) : rpcOutput fromSlice (writeJson value) =
      .error (.invalid "remote Helper response was truncated") := by
  unfold rpcOutput drainBounded
  dsimp only
  rw [length_writeJson, if_pos (decide_eq_true h)]

theorem readLine_object {value : α}
    {members : List (String × Json)} (hreads : fromSlice (Json.object members).bytes = some value) :
    readLine fromSlice (Json.object members).bytes = some value := by
  have hbrace : (Json.object members).bytes.dropWhile isAsciiWhitespace =
      (Json.object members).bytes := by
    rw [Json.bytes]
    rfl
  have hne : (Json.object members).bytes ≠ [] := by
    rw [Json.bytes]
    exact cons_ne_nil _ _
  unfold readLine
  rw [hbrace, if_neg hne, hreads]

theorem rpcOutput_ok {value : α}
    {members : List (String × Json)} (hreads : fromSlice (Json.object members).bytes = some value) :
    rpcOutput fromSlice (writeJson (.object members)) = .ok value ↔
      (Json.object members).size + 1 ≤ maxRpcOutput := by
  have hlength := length_writeJson (.object members)
  by_cases hfits : (Json.object members).size + 1 ≤ maxRpcOutput
  · have hall : (writeJson (.object members)).take maxRpcOutput = writeJson (.object members) :=
      take_of_length_le (by omega)
    have hlines : (writeJson (.object members)).splitOn newline =
        [(Json.object members).bytes, []] := by
      have hfree : newline ∉ (Json.object members).bytes := Json.newline_notMem _
      rw [writeJson, splitOn_append_cons_of_beq _ _ (beq_self_eq_true _),
        splitOn_eq_singleton hfree, splitOn_nil]
      rfl
    have hwhole : ¬decide (maxRpcOutput < (Json.object members).size + 1) = true := by
      rw [decide_eq_true_eq]
      exact Nat.not_lt.mpr hfits
    refine iff_of_true ?_ hfits
    unfold rpcOutput drainBounded
    dsimp only
    rw [hlength, hall, if_neg hwhole]
    have hblank : readLine fromSlice [] = none := rfl
    unfold parseJsonLine
    have hfound : [(Json.object members).bytes, []].reverse.findSome? (readLine fromSlice) =
        some value := by
      rw [reverse_cons, reverse_singleton, singleton_append, findSome?_cons,
        hblank, findSome?_cons, readLine_object hreads]
    rw [hlines, hfound]
  refine iff_of_false ?_ hfits
  rw [rpcOutput_refused fromSlice (Nat.lt_of_not_le hfits)]
  intro h
  cases h

/-! ### The worst case -/

theorem length_utf8_of_validateIdentifier {field value : String}
    (h : validateIdentifier field value = .ok ()) : value.utf8ByteSize ≤ 128 := by
  unfold validateIdentifier at h
  dsimp only at h
  split at h
  · rename_i hbytes
    exact hbytes.2.1
  · cases h

theorem length_utf8_of_sessionToken {value : String} {token : SessionToken}
    (h : SessionToken.new value = .ok token) : value.utf8ByteSize ≤ 512 := by
  unfold SessionToken.new at h
  dsimp only at h
  split at h
  · cases h
  rename_i hbytes
  rw [not_or, not_or] at hbytes
  exact Nat.le_of_not_lt hbytes.2.1

theorem sum_environmentTexts : ((environmentTexts environment).map String.utf8ByteSize).sum =
      (environment.map LaunchRequest.variableBytes).sum := by
  induction environment with
  | nil => rfl
  | cons entry environment ih =>
    simp only [environmentTexts, flatMap_cons, map_append, sum_append,
      map_cons, map_nil, sum_cons, sum_nil, LaunchRequest.variableBytes]
    rw [← ih]
    rfl

theorem LaunchRequest.Valid.size_le (h : request.Valid) :
    request.toJson.size ≤ 8 * 1024 * 1024 := by
  have hid := length_utf8_of_validateIdentifier h.sessionId
  have htoken := length_utf8_of_sessionToken h.sessionToken
  have hbytes := h.bytes
  have hescaped := escapedBytes_le request.texts
  have htexts : (request.texts.map String.utf8ByteSize).sum = request.sessionId.utf8ByteSize +
      request.sessionToken.value.utf8ByteSize + request.cwd.utf8ByteSize +
        (request.argv.map String.utf8ByteSize).sum +
          (request.environment.map LaunchRequest.variableBytes).sum := by
    rw [texts, map_append, map_append, sum_append, sum_append, sum_environmentTexts]
    simp only [map_cons, map_nil, sum_cons, sum_nil]
    omega
  have hcols : Json.decimalSize request.cols.toNat ≤ 5 :=
    Json.decimalSize_le (by decide) (Nat.lt_trans request.cols.toNat_lt (by decide))
  have hrows : Json.decimalSize request.rows.toNat ≤ 5 :=
    Json.decimalSize_le (by decide) (Nat.lt_trans request.rows.toNat_lt (by decide))
  have hwire : request.persistence.wire.utf8ByteSize ≤ 15 := by
    cases request.persistence <;> decide
  have harguments := h.arguments.2
  have hentries := h.entries
  rw [size_toJson, framing, environmentFraming]
  unfold maxArguments at harguments
  unfold maxEnvironmentVariables at hentries
  unfold maxLaunchBytes at hbytes
  omega

/-! ### The login environment -/

/-- What the parser makes sure of. -/
structure Captured (entry : EnvironmentVariable) : Prop where
  name : 0 ∉ utf8 entry.name ∧ equals ∉ utf8 entry.name
  value : 0 ∉ utf8 entry.value
  fits : entry.value.utf8ByteSize ≤ maxEnvironmentValueBytes

theorem fromUtf8_eq_ok {bytes : List UInt8} {text : String} :
    fromUtf8 bytes = .ok text ↔ bytes = utf8 text := by
  rw [← toStr_eq_some]
  unfold fromUtf8
  cases toStr bytes with
  | none | some other => simp

theorem parseField_captured {field : List UInt8}
    (hfield : 0 ∉ field) (h : parseField field = .ok (some entry)) : Captured entry := by
  unfold parseField at h
  cases hindex : field.idxOf? equals with
  | none =>
    rw [hindex] at h
    cases h
  | some separator =>
    rw [hindex] at h
    simp only [check_bind_eq_ok, bind_eq_ok (α := String), checkThat_eq_ok, fromUtf8_eq_ok] at h
    obtain ⟨name, hname, value, hvalue, hfits, h⟩ := h
    replace h := ok.inj h
    split at h <;> obtain ⟨⟩ := h
    refine ⟨⟨?_, ?_⟩, ?_, hfits⟩
    · rw [← hname]
      exact fun hmem => hfield (mem_of_mem_take hmem)
    · rw [← hname]
      exact not_mem_take_idxOf hindex
    · rw [← hvalue]
      exact fun hmem => hfield (mem_of_mem_drop hmem)

theorem sortByName_perm : (sortByName environment).Perm environment := mergeSort_perm _ _

theorem parseEnvironment_captured {bytes : List UInt8} {cwd : String}
    {environment : List EnvironmentVariable} (h : parseEnvironment bytes = .ok (cwd, environment)) :
    environment.length ≤ maxEnvironmentVariables ∧ ∀ entry ∈ environment, Captured entry := by
  obtain ⟨payload, -, h⟩ := bind_eq_ok.mp h
  cases hfields : payload.splitOn 0 with
  | nil => exact absurd hfields (splitOn_ne_nil _ _)
  | cons first fields =>
    rw [hfields] at h
    simp only [check_bind_eq_ok, bind_eq_ok (α := String),
      bind_eq_ok (α := List EnvironmentVariable)] at h
    obtain ⟨path, -, -, parsed, hparsed, h⟩ := h
    obtain ⟨-, rfl⟩ := Prod.mk.inj (ok.inj h)
    have hfree : ∀ field ∈ fields, 0 ∉ field := by
      intro field hfield
      exact not_mem_of_mem_splitOn (hfields ▸ mem_cons_of_mem _ hfield)
    have hkept : parsed.length ≤ maxEnvironmentVariables ∧ ∀ entry ∈ parsed, Captured entry := by
      refine foldlM_eq_ok (P := fun environment =>
        environment.length ≤ maxEnvironmentVariables ∧ ∀ entry ∈ environment, Captured entry)
        ?_ ⟨Nat.zero_le _, fun _ hnil => absurd hnil not_mem_nil⟩ hparsed
      intro before field after hfield hbefore hadd
      unfold addField at hadd
      split at hadd
      · obtain rfl := ok.inj hadd
        exact hbefore
      obtain ⟨found, hfound, hadd⟩ := bind_eq_ok.mp hadd
      cases found with
      | none =>
        obtain rfl := ok.inj hadd
        exact hbefore
      | some entry =>
        simp only [check_bind_eq_ok, checkThat_eq_ok] at hadd
        obtain ⟨hcount, hadd⟩ := hadd
        obtain rfl := ok.inj hadd
        refine ⟨hcount, ?_⟩
        intro other hother
        rcases mem_append.mp hother with hother | hother
        · exact hbefore.2 other hother
        · rw [mem_singleton.mp hother]
          exact parseField_captured (hfree field hfield) hfound
    have hperm := sortByName_perm parsed
    exact ⟨hperm.length_eq ▸ hkept.1, fun entry hentry => hkept.2 entry (hperm.subset hentry)⟩

theorem Captured.check (h : Captured entry) :
    LaunchRequest.checkVariable entry = .ok () ↔ entry.name ≠ "" := by
  have hbytes : (utf8 entry.name).any (fun byte => decide (byte = 0) || decide (byte = 61))
      = false := by
    rw [any_eq_false]
    intro byte hbyte
    simp only [Bool.or_eq_true, decide_eq_true_eq, not_or]
    constructor
    · rintro rfl
      exact h.name.1 hbyte
    · rintro rfl
      exact h.name.2 hbyte
  unfold LaunchRequest.checkVariable
  rw [check_bind_eq_ok, checkThat_eq_ok, checkThat_eq_ok]
  simp [LaunchRequest.validName, hbytes, h.value, h.fits]

theorem LaunchRequest.validate_captured
    (hrest : { request with environment := [] }.validate = .ok ())
    (hcount : request.environment.length ≤ maxEnvironmentVariables)
    (hcaptured : ∀ entry ∈ request.environment, Captured entry)
    (hbytes : request.cwd.utf8ByteSize + (request.argv.map String.utf8ByteSize).sum +
      (request.environment.map variableBytes).sum ≤ maxLaunchBytes) :
    request.validate = .ok () ↔ ∀ entry ∈ request.environment, entry.name ≠ "" := by
  have hvalid := validate_eq_ok.mp hrest
  rw [validate_eq_ok]
  constructor
  · intro h entry hentry
    exact (hcaptured entry hentry).check.mp (h.environment entry hentry)
  · intro h
    exact ⟨hvalid.sessionId, hvalid.sessionToken, hvalid.arguments, hcount, hvalid.cwd,
      hvalid.dimensions, hvalid.argv,
      fun entry hentry => (hcaptured entry hentry).check.mpr (h entry hentry), hbytes⟩

/-! ### What is dumped is captured -/

/-- The field of an entry. -/
def fieldOf (entry : EnvironmentVariable) : List UInt8 :=
  utf8 entry.name ++ equals :: utf8 entry.value

theorem parseField_fieldOf (h : Captured entry) :
    parseField (fieldOf entry) = .ok (if shouldScrub entry.name then none else some entry) := by
  have hindex : (fieldOf entry).idxOf? equals = some (utf8 entry.name).length :=
    idxOf?_append_cons h.name.2 _
  have hname : (fieldOf entry).take (utf8 entry.name).length = utf8 entry.name := take_left
  have hvalue : (fieldOf entry).drop ((utf8 entry.name).length + 1) = utf8 entry.value := by
    rw [← drop_drop, fieldOf, drop_left]
    rfl
  unfold parseField
  rw [hindex]
  simp only [check_bind_eq_ok, bind_eq_ok (α := String), checkThat_eq_ok, fromUtf8_eq_ok]
  exact ⟨entry.name, hname, entry.value, hvalue, h.fits, rfl⟩

theorem addField_fieldOf (h : Captured entry)
    {before : List EnvironmentVariable} (hcount : shouldScrub entry.name = false →
      before.length + 1 ≤ maxEnvironmentVariables) : addField before (fieldOf entry) =
      .ok (before ++ [entry].filter fun entry => !shouldScrub entry.name) := by
  have hne : fieldOf entry ≠ [] := by
    rw [fieldOf]
    exact append_ne_nil_of_right_ne_nil _ (cons_ne_nil _ _)
  unfold addField
  rw [if_neg hne, parseField_fieldOf h]
  cases hscrub : shouldScrub entry.name with
  | true =>
    rw [filter_cons_of_neg (by simp [hscrub]), filter_nil, append_nil]
    rfl
  | false =>
    rw [filter_cons_of_pos (by simp [hscrub]), filter_nil]
    show (do
      checkThat ((before ++ [entry]).length ≤ maxEnvironmentVariables) _
      pure (before ++ [entry])) = Except.ok (before ++ [entry])
    rw [check_bind_eq_ok, checkThat_eq_ok, length_append]
    exact ⟨hcount hscrub, rfl⟩

theorem addFields_fieldOf {entries before : List EnvironmentVariable}
    (h : ∀ entry ∈ entries, Captured entry)
    (hcount : before.length + (entries.filter fun entry => !shouldScrub entry.name).length ≤
      maxEnvironmentVariables) : (entries.map fieldOf).foldlM addField before =
      .ok (before ++ entries.filter fun entry => !shouldScrub entry.name) := by
  induction entries generalizing before with
  | nil =>
    rw [filter_nil, append_nil]
    rfl
  | cons entry entries ih =>
    have hsplit : (entry :: entries).filter (fun entry => !shouldScrub entry.name) =
        [entry].filter (fun entry => !shouldScrub entry.name) ++
          entries.filter fun entry => !shouldScrub entry.name := by
      rw [← filter_append]
      rfl
    rw [hsplit, length_append] at hcount
    have hone : shouldScrub entry.name = false →
        before.length + 1 ≤ maxEnvironmentVariables := by
      intro hscrub
      rw [filter_cons_of_pos (by simp [hscrub]), length_cons] at hcount
      omega
    rw [map_cons, foldlM_cons, bind_eq_ok]
    refine ⟨_, addField_fieldOf (h entry mem_cons_self) hone, ?_⟩
    rw [ih fun other hother => h other (mem_cons_of_mem _ hother)]
    · rw [hsplit, append_assoc]
    · rw [length_append]
      omega

theorem dump_eq (cwd : String) {entries : List EnvironmentVariable}
    (hentries : ∀ entry ∈ entries, Captured entry) : dump (utf8 cwd)
        (entries.map fun entry => (utf8 entry.name, utf8 entry.value)) =
      frame (utf8 cwd ++ 0 :: (entries.map fieldOf).flatMap (· ++ [0])) := by
  have hvars : ∀ written : List UInt8 × List UInt8 → List UInt8,
      (∀ entry ∈ entries, written (utf8 entry.name, utf8 entry.value) = fieldOf entry ++ [0]) →
        (entries.map fun entry => (utf8 entry.name, utf8 entry.value)).flatMap written =
          (entries.map fieldOf).flatMap (· ++ [0]) := by
    intro written hwritten
    rw [flatMap_map, flatMap_map]
    exact flatMap_congr hwritten
  have hfine : ∀ entry ∈ entries,
      ¬(0 ∈ utf8 entry.name ∨ equals ∈ utf8 entry.name ∨ 0 ∈ utf8 entry.value) := by
    intro entry hentry
    have hcaptured := hentries entry hentry
    rw [not_or, not_or]
    exact ⟨hcaptured.name.1, hcaptured.name.2, hcaptured.value⟩
  unfold dump
  rw [hvars _ fun entry hentry => if_neg (hfine entry hentry)]
  rfl

/-- **What the login shell dumps is what the Helper captures**, but for what it scrubs. -/
theorem parseEnvironment_dump {cwd : String} {entries : List EnvironmentVariable}
    (hcwd : isAbsolute cwd = true ∧ 0 ∉ utf8 cwd) (hentries : ∀ entry ∈ entries, Captured entry)
    (hcount : (entries.filter fun entry => !shouldScrub entry.name).length ≤
      maxEnvironmentVariables)
    (hlength : (utf8 cwd ++ 0 :: (entries.map fieldOf).flatMap (· ++ [0])).length <
      256 ^ lengthBytes) : parseEnvironment (dump (utf8 cwd)
        (entries.map fun entry => (utf8 entry.name, utf8 entry.value))) =
      .ok (cwd, sortByName (entries.filter fun entry => !shouldScrub entry.name)) := by
  have hfree : ∀ field ∈ entries.map fieldOf, 0 ∉ field := by
    intro field hfield
    obtain ⟨entry, hentry, rfl⟩ := mem_map.mp hfield
    have hcaptured := hentries entry hentry
    rw [fieldOf, mem_append, mem_cons]
    rintro (h | h | h)
    · exact hcaptured.name.1 h
    · cases h
    · exact hcaptured.value h
  have hsplit : (utf8 cwd ++ 0 :: (entries.map fieldOf).flatMap (· ++ [0])).splitOn 0 =
      utf8 cwd :: (entries.map fieldOf ++ [[]]) := by
    rw [splitOn_append_cons_of_beq _ _ (beq_self_eq_true _),
      splitOn_eq_singleton hcwd.2, splitOn_flatMap_terminated hfree]
    rfl
  have hframe := frameBody_frame hlength []
  rw [append_nil] at hframe
  rw [dump_eq cwd hentries, parseEnvironment, hframe]
  refine bind_eq_ok.mpr ⟨_, rfl, ?_⟩
  rw [hsplit]
  simp only [check_bind_eq_ok, bind_eq_ok (α := String),
    bind_eq_ok (α := List EnvironmentVariable), checkThat_eq_ok, fromUtf8_eq_ok]
  refine ⟨cwd, rfl, hcwd.1, _, ?_, rfl⟩
  rw [foldlM_append, addFields_fieldOf hentries (by simpa using hcount)]
  rfl

/-- What `serde_json::from_slice` reads, as each type. -/
structure Readers where
  launchRequest : List UInt8 → Option LaunchRequest
  holderStart : List UInt8 → Option HolderStart
  captureResult : List UInt8 → Option EnvironmentCaptureResult

/-- They give back what was written. -/
structure Readers.Reads (readers : Readers) (request : LaunchRequest) (random : List UInt8)
    (result : EnvironmentCaptureResult) : Prop where
  launchRequest : readers.launchRequest request.toJson.bytes = some request
  holderStart : readers.holderStart (Wire.holderStart request random).toJson.bytes =
    some (Wire.holderStart request random)
  captureResult : readers.captureResult result.toJson.bytes = some result

/--
**The limits agree exactly where the JSON has room.**  The Helper reads a valid request
just if its texts, escaped, and what stands around them come to no more than the limit
that `validate` holds against the raw texts; the Holder then always reads what it is
given.  The Engine gets a captured environment just if its JSON and the line break fit,
and may send it in a launch just if no variable in it has an empty name.
-/
theorem launch_limits_agree_iff (readers : Readers) {request : LaunchRequest}
    {random bytes : List UInt8} {result : EnvironmentCaptureResult}
    (hvalid : request.validate = .ok ()) (hrandom : random.length = 16)
    (hparse : parseEnvironment bytes = .ok (result.cwd, result.environment))
    (hreads : readers.Reads request random result) :
    (readLimitedJson readers.launchRequest maxLaunchBytes request.toJson.bytes = .ok request ↔
      request.framing + escapedBytes request.texts ≤ maxLaunchBytes) ∧
    readLimitedJson readers.holderStart maxFrameBytes (holderStart request random).toJson.bytes =
      .ok (holderStart request random) ∧
    (rpcOutput readers.captureResult (writeJson result.toJson) = .ok result ↔
      result.framing + escapedBytes result.texts + 1 ≤ maxRpcOutput) ∧
    ∀ launch : LaunchRequest, launch.environment = result.environment →
      { launch with environment := [] }.validate = .ok () →
      launch.cwd.utf8ByteSize + (launch.argv.map String.utf8ByteSize).sum +
        (launch.environment.map LaunchRequest.variableBytes).sum ≤ maxLaunchBytes →
      (launch.validate = .ok () ↔ ∀ entry ∈ launch.environment, entry.name ≠ "") := by
  obtain ⟨hcount, hcaptured⟩ := parseEnvironment_captured hparse
  refine ⟨?_, ?_, ?_, ?_⟩
  · rw [readLimitedJson_ok hreads.launchRequest, LaunchRequest.size_toJson]
  · rw [readLimitedJson_ok hreads.holderStart, HolderStart.size_toJson]
    have hsize := (LaunchRequest.validate_eq_ok.mp hvalid).size_le
    have hincarnation := quotedSize_randomHex random
    unfold holderStart maxFrameBytes
    dsimp only
    omega
  · rw [← EnvironmentCaptureResult.size_toJson]
    exact rpcOutput_ok hreads.captureResult
  · intro launch hsame hrest hbytes
    exact LaunchRequest.validate_captured hrest (hsame ▸ hcount) (hsame ▸ hcaptured) hbytes

/-! ### Runs at the limits -/

/-- A request that runs one command. -/
def requestOf (argv : List String) (environment : List EnvironmentVariable) : LaunchRequest where
  sessionId := "s"
  sessionToken := ⟨"0123456789abcdef"⟩
  argv := argv
  cwd := "/"
  environment := environment
  cols := 80
  rows := 24
  persistence := .nativeDetach

/-- The readers, of the JSON of one launch. -/
def readersOf (request : LaunchRequest) (random : List UInt8) (result : EnvironmentCaptureResult) :
    Readers where
  launchRequest := fun bytes => if bytes = request.toJson.bytes then some request else none
  holderStart := fun bytes =>
    if bytes = (holderStart request random).toJson.bytes then some (holderStart request random)
    else none
  captureResult := fun bytes => if bytes = result.toJson.bytes then some result else none

theorem readersOf_reads (request : LaunchRequest) (random : List UInt8)
    (result : EnvironmentCaptureResult) :
    (readersOf request random result).Reads request random result where
  launchRequest := by simp [readersOf]
  holderStart := by simp [readersOf]
  captureResult := by simp [readersOf]

def home : EnvironmentVariable := ⟨"HOME", "/root"⟩

def homeResult : EnvironmentCaptureResult := ⟨"/bin/sh", "/", [home], "", false⟩

theorem requestOf_valid {argv : List String} {environment : List EnvironmentVariable}
    (hargv : argv ≠ [] ∧ argv.length ≤ maxArguments) (hentries : environment.length ≤ 4096)
    (harguments : ∀ argument ∈ argv, LaunchRequest.checkArgument argument = .ok ())
    (henvironment : ∀ entry ∈ environment, LaunchRequest.checkVariable entry = .ok ())
    (hbytes : 1 + (argv.map String.utf8ByteSize).sum +
      (environment.map LaunchRequest.variableBytes).sum ≤ maxLaunchBytes) :
    (requestOf argv environment).validate = .ok () := by
  refine LaunchRequest.validate_eq_ok.mpr ⟨?_, ?_, hargv, hentries, ?_, ?_, harguments,
    henvironment, hbytes⟩
  · show validateIdentifier "session id" "s" = .ok ()
    decide
  · show SessionToken.new "0123456789abcdef" = .ok ⟨"0123456789abcdef"⟩
    decide
  · show isAbsolute "/" = true ∧ 0 ∉ utf8 "/"
    decide
  · show validateTerminalDimensions 80 24 = .ok ()
    decide

def homeRequest : LaunchRequest := requestOf ["sh"] [home]

def homeReaders : Readers := readersOf homeRequest (List.replicate 16 0) homeResult

theorem launch_limits_agree_home :
    readLimitedJson homeReaders.launchRequest maxLaunchBytes homeRequest.toJson.bytes =
        .ok homeRequest ∧
      rpcOutput homeReaders.captureResult (writeJson homeResult.toJson) = .ok homeResult ∧
      homeRequest.validate = .ok () := by
  have hcaptured : ∀ entry ∈ [home], Captured entry := by
    intro entry hentry
    rw [mem_singleton.mp hentry]
    exact ⟨by decide, by decide, by decide⟩
  have hkept : [home].filter (fun entry => !shouldScrub entry.name) = [home] := by decide
  have hfits : (utf8 "/" ++ 0 :: ([home].map fieldOf).flatMap (· ++ [0])).length <
      256 ^ lengthBytes := by decide
  have hparse := parseEnvironment_dump (by decide) hcaptured (by decide) hfits
  rw [hkept, sortByName, mergeSort_singleton] at hparse
  have hvalid : homeRequest.validate = .ok () :=
    requestOf_valid (by decide) (by decide) (by decide) (by decide) (by decide)
  have hlimits := launch_limits_agree_iff homeReaders hvalid length_replicate hparse
    (readersOf_reads _ _ _)
  have hrequest : homeRequest.framing + escapedBytes homeRequest.texts ≤ maxLaunchBytes := by
    decide
  have hresult : homeResult.framing + escapedBytes homeResult.texts + 1 ≤ maxRpcOutput := by
    decide
  exact ⟨hlimits.1.mpr hrequest, hlimits.2.2.1.mpr hresult, hvalid⟩

def repeated (count : Nat) : String := String.ofList (List.replicate count '\x01')

theorem exists_controls (count : Nat) : ∃ text : String,
    text.utf8ByteSize = count ∧ Json.growth text = 5 * count ∧ 0 ∉ utf8 text := by
  have hsize : '\x01'.utf8Size = 1 := by decide
  have hgrowth : Json.escapedSize '\x01' - '\x01'.utf8Size = 5 := by decide
  refine ⟨repeated count, ?_, ?_, ?_⟩
  · rw [repeated, utf8ByteSize_ofList, map_replicate, sum_replicate_nat, hsize, Nat.mul_one]
  · rw [Json.growth, repeated, String.toList_ofList, map_replicate, sum_replicate_nat,
      hgrowth, Nat.mul_comm]
  · intro h
    have hmem := eq_of_mem_replicate (mem_of_mem_utf8 (by decide) h)
    exact absurd hmem (by decide)

def threeOf (value : String) : List EnvironmentVariable :=
  [⟨"A", value⟩, ⟨"B", value⟩, ⟨"C", value⟩]

theorem threeOf_captured {value : String} (hvalue : 0 ∉ utf8 value)
    (hfits : value.utf8ByteSize ≤ maxEnvironmentValueBytes) :
    ∀ entry ∈ threeOf value, Captured entry ∧ shouldScrub entry.name = false := by
  have hnames : ∀ name ∈ ["A", "B", "C"],
      (0 ∉ utf8 name ∧ equals ∉ utf8 name) ∧ shouldScrub name = false := by decide
  intro entry hentry
  have hentry : entry ∈ ["A", "B", "C"].map fun name => ⟨name, value⟩ := hentry
  obtain ⟨name, hname, rfl⟩ := mem_map.mp hentry
  exact ⟨⟨(hnames name hname).1, hvalue, hfits⟩, (hnames name hname).2⟩

theorem length_threeOf (value : String) :
    (utf8 "/" ++ 0 :: ((threeOf value).map fieldOf).flatMap (· ++ [0])).length =
      11 + 3 * value.utf8ByteSize := by
  have hfield : ∀ name : String, name.utf8ByteSize = 1 →
      (fieldOf ⟨name, value⟩).length = 2 + value.utf8ByteSize := by
    intro name hname
    rw [fieldOf, length_append, length_cons, length_utf8, length_utf8, hname]
    exact Nat.add_right_comm 1 value.utf8ByteSize 1
  have hcwd : (utf8 "/").length = 1 := by decide
  simp only [threeOf, map_cons, map_nil, flatMap_cons, flatMap_nil,
    length_append, length_cons, length_nil, hcwd, hfield "A" (by decide),
    hfield "B" (by decide), hfield "C" (by decide)]
  omega

theorem escapedBytes_threeOf {value : String} {environment : List EnvironmentVariable}
    (h : environment.Perm (threeOf value)) :
    3 * (value.utf8ByteSize + Json.growth value) ≤ escapedBytes (environmentTexts environment) := by
  have htexts : (environmentTexts environment).Perm (environmentTexts (threeOf value)) :=
    h.flatMap_right _
  have hsame : escapedBytes (environmentTexts environment) =
      escapedBytes (environmentTexts (threeOf value)) := by
    unfold escapedBytes
    rw [(htexts.map _).sum_eq, (htexts.map _).sum_eq]
  rw [hsame]
  simp only [threeOf, environmentTexts, flatMap_cons, flatMap_nil,
    escapedBytes_append, escapedBytes_cons, escapedBytes_nil]
  omega

/--
**All three limits can be too small.**  A valid request of less than 1 MiB is refused by
the Helper; an environment of 192 KiB is captured, and its JSON does not come through; and
an environment with an empty name is captured that no launch may have.
-/
theorem launch_limits_disagree : (∃ request : LaunchRequest, request.validate = .ok () ∧
      ∀ fromSlice : List UInt8 → Option LaunchRequest,
        readLimitedJson fromSlice maxLaunchBytes request.toJson.bytes =
          .error (.invalid "JSON request exceeds its size limit")) ∧
    (∃ bytes cwd environment, parseEnvironment bytes = .ok (cwd, environment) ∧
      ∀ (fromSlice : List UInt8 → Option EnvironmentCaptureResult)
        (result : EnvironmentCaptureResult), result.environment = environment →
          rpcOutput fromSlice (writeJson result.toJson) =
            .error (.invalid "remote Helper response was truncated")) ∧
    ∃ bytes environment, parseEnvironment bytes = .ok ("/", environment) ∧
      (requestOf ["sh"] []).validate = .ok () ∧
      (requestOf ["sh"] environment).validate ≠ .ok () := by
  refine ⟨?_, ?_, ?_⟩
  · obtain ⟨argument, hsize, -, hzero⟩ := exists_controls (1024 * 1024 - 1)
    refine ⟨requestOf [argument] [], ?_, ?_⟩
    · refine requestOf_valid ⟨cons_ne_nil _ _, Nat.succ_le_succ (Nat.zero_le _)⟩
        (Nat.zero_le _) ?_ ?_ ?_
      · intro other hother
        rw [List.mem_singleton.mp hother, LaunchRequest.checkArgument, checkThat_eq_ok]
        exact hzero
      · intro entry hentry
        cases hentry
      · rw [map_singleton, sum_singleton, hsize]
        decide
    intro fromSlice
    refine readLimitedJson_refused fromSlice ?_
    rw [LaunchRequest.size_toJson, LaunchRequest.framing, LaunchRequest.texts]
    simp only [requestOf, escapedBytes_append, escapedBytes_cons, hsize]
    unfold maxLaunchBytes
    omega
  · obtain ⟨value, hsize, hgrowth, hzero⟩ := exists_controls (64 * 1024)
    have hthree := threeOf_captured hzero (Nat.le_of_eq hsize)
    have hkept : (threeOf value).filter (fun entry => !shouldScrub entry.name) = threeOf value := by
      rw [filter_eq_self]
      intro entry hentry
      rw [(hthree entry hentry).2]
      rfl
    have hfits : (utf8 "/" ++ 0 :: ((threeOf value).map fieldOf).flatMap (· ++ [0])).length <
        256 ^ lengthBytes := by
      rw [length_threeOf, hsize]
      decide
    have hcount : ((threeOf value).filter fun entry => !shouldScrub entry.name).length ≤
        maxEnvironmentVariables := by
      rw [hkept]
      show 3 ≤ maxEnvironmentVariables
      decide
    have hparse := parseEnvironment_dump (by decide) (fun entry hentry => (hthree entry hentry).1)
      hcount hfits
    rw [hkept] at hparse
    refine ⟨_, _, _, hparse, ?_⟩
    intro fromSlice result hresult
    refine rpcOutput_refused fromSlice ?_
    have hmany := escapedBytes_threeOf (sortByName_perm (threeOf value))
    have hsorted : escapedBytes (environmentTexts result.environment) =
        escapedBytes (environmentTexts (sortByName (threeOf value))) := by rw [hresult]
    rw [EnvironmentCaptureResult.size_toJson, EnvironmentCaptureResult.texts,
      escapedBytes_append, hsorted]
    unfold maxRpcOutput
    omega
  have hcaptured : ∀ entry ∈ [(⟨"", "v"⟩ : EnvironmentVariable)], Captured entry := by
    intro entry hentry
    rw [List.mem_singleton.mp hentry]
    exact ⟨by decide, by decide, by decide⟩
  have hfits : (utf8 "/" ++ 0 :: ([(⟨"", "v"⟩ : EnvironmentVariable)].map fieldOf).flatMap
      (· ++ [0])).length < 256 ^ lengthBytes := by decide
  have hparse := parseEnvironment_dump (by decide) hcaptured (by decide) hfits
  have hkept : [(⟨"", "v"⟩ : EnvironmentVariable)].filter (fun entry => !shouldScrub entry.name)
      = [⟨"", "v"⟩] := by decide
  rw [hkept, sortByName, mergeSort_singleton] at hparse
  refine ⟨_, _, hparse, requestOf_valid (by decide) (by decide) (by decide) (by decide)
    (by decide), ?_⟩
  intro h
  have hchecked := (LaunchRequest.validate_eq_ok.mp h).environment ⟨"", "v"⟩ (mem_singleton_self _)
  exact absurd hchecked (by decide)

end Diri.Wire
