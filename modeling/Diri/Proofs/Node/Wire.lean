/-
Which checkpoints can cross a connection.

The length of a message is counted from what the checkpoint is made of: its files, what is
left out, and the names that it carries along.  The longest message is the one that puts the
manifest on the target.  No bound on the files bounds it, since what is left out is written
down too.
-/
import Mathlib.Algebra.Order.BigOperators.Group.List
import Mathlib.Data.List.TakeWhile
import Mathlib.Tactic.Ring
import Diri.Node.Wire
import Diri.Proofs.Node.Restore
import Diri.Proofs.Node.Script
import Diri.Proofs.Node.Transfer

namespace Diri

open Handler Json List Option

/-! ### Reading a line -/

/-- However its bytes come in, and whatever comes after it, the node reads the line. -/
def NodeReads (line : List UInt8) : Prop :=
  ∀ pieces more, [] ∉ pieces → pieces.flatten = line ++ more →
    ∃ payload rest, readBoundedLine [] pieces = (.ok (some payload), rest) ∧
      payload ++ [newline] = line ∧ rest.flatten = more

/-- So does the client. -/
def ClientReads (line : List UInt8) : Prop :=
  ∀ pieces more, [] ∉ pieces → pieces.flatten = line ++ more →
    ∃ rest, readResponseLine pieces = (.ok line, rest) ∧ rest.flatten = more

theorem flatten_unread (left : List UInt8) (rest : List (List UInt8)) :
    (unread left rest).flatten = left ++ rest.flatten := by
  unfold unread
  split
  · simp [*]
  · rfl

theorem piece_cases {available payload more : List UInt8} {rest : List (List UInt8)}
    (hpayload : newline ∉ payload) (h : available ++ rest.flatten = payload ++ newline :: more) :
    (∃ payload', payload = available ++ payload' ∧ rest.flatten = payload' ++ newline :: more ∧
      available.takeWhile (· ≠ newline) = available) ∨
    ∃ left, available = payload ++ newline :: left ∧ more = left ++ rest.flatten ∧
      available.takeWhile (· ≠ newline) = payload := by
  have htake : ∀ bytes : List UInt8, newline ∉ bytes → ∀ byte ∈ bytes,
      decide (byte ≠ newline) = true := fun bytes hbytes byte hbyte =>
    decide_eq_true fun heq => hbytes (heq ▸ hbyte)
  rcases append_eq_append_iff.mp h with ⟨payload', rfl, hrest⟩ | ⟨left, rfl, hleft⟩
  · rw [mem_append, not_or] at hpayload
    exact .inl ⟨payload', rfl, hrest, takeWhile_eq_self_iff.mpr (htake _ hpayload.1)⟩
  cases left with
  | nil =>
    refine .inl ⟨[], by simp, by simpa using hleft.symm, ?_⟩
    exact takeWhile_eq_self_iff.mpr (htake _ (by simpa using hpayload))
  | cons byte left =>
    rw [cons_append, List.cons.injEq] at hleft
    obtain ⟨rfl, rfl⟩ := hleft
    refine .inr ⟨left, rfl, rfl, ?_⟩
    rw [takeWhile_append_of_pos (htake _ hpayload)]
    simp

/-- The node reads the lines that have no more than the limit before their end. -/
theorem readBoundedLine_eq {pieces : List (List UInt8)} {line payload more : List UInt8}
    (hpieces : [] ∉ pieces) (hpayload : newline ∉ payload)
    (h : pieces.flatten = payload ++ newline :: more) :
    if line.length + payload.length ≤ maxControlLineBytes then
      ∃ rest, readBoundedLine line pieces = (.ok (some (line ++ payload)), rest) ∧
        rest.flatten = more
    else ∃ error rest, readBoundedLine line pieces = (.error error, rest) := by
  induction pieces generalizing line payload with
  | nil => simp at h
  | cons available pieces ih =>
    rw [mem_cons, not_or] at hpieces
    obtain ⟨havailable, hpieces⟩ := hpieces
    rw [readBoundedLine, if_neg (Ne.symm havailable)]
    rcases piece_cases hpayload h with ⟨payload, rfl, hrest, hall⟩ | ⟨left, rfl, rfl, hall⟩
    · simp only [hall, drop_length, length_append]
      rw [mem_append, not_or] at hpayload
      have hnext := @ih (line ++ available) _ hpieces hpayload.2 hrest
      rw [length_append, append_assoc, Nat.add_assoc] at hnext
      by_cases hpiece : maxControlLineBytes < line.length + available.length
      · rw [if_neg (by omega), if_pos hpiece]
        exact ⟨_, _, rfl⟩
      · rw [if_neg hpiece]
        exact hnext
    simp only [hall, drop_left]
    by_cases hpiece : maxControlLineBytes < line.length + payload.length
    · rw [if_neg (by omega), if_pos hpiece]
      exact ⟨_, _, rfl⟩
    · rw [if_pos (by omega), if_neg hpiece]
      exact ⟨_, rfl, flatten_unread left pieces⟩

theorem readUntilNewline_eq {pieces : List (List UInt8)} {line payload more : List UInt8}
    (hpieces : [] ∉ pieces) (hpayload : newline ∉ payload)
    (h : pieces.flatten = payload ++ newline :: more) :
    ∃ rest, readUntilNewline line pieces = (line ++ payload ++ [newline], rest) ∧
      rest.flatten = more := by
  induction pieces generalizing line payload with
  | nil => simp at h
  | cons available pieces ih =>
    rw [mem_cons, not_or] at hpieces
    obtain ⟨havailable, hpieces⟩ := hpieces
    rw [readUntilNewline, if_neg (Ne.symm havailable)]
    rw [flatten_cons] at h
    rcases piece_cases hpayload h with ⟨payload, rfl, hrest, hall⟩ | ⟨left, rfl, rfl, hall⟩
    · simp only [hall, drop_length]
      rw [mem_append, not_or] at hpayload
      have hnext := @ih (line ++ available) _ hpieces hpayload.2 hrest
      rw [append_assoc line] at hnext
      exact hnext
    · simp only [hall, drop_left]
      exact ⟨_, rfl, flatten_unread left pieces⟩

theorem nodeReads_iff {payload : List UInt8} (hpayload : newline ∉ payload) :
    NodeReads (payload ++ [newline]) ↔ payload.length ≤ maxControlLineBytes := by
  constructor
  · intro h
    have hne : [] ∉ [payload ++ [newline]] := by simp
    have hread := @readBoundedLine_eq [payload ++ [newline]] [] payload [] hne hpayload (by simp)
    obtain ⟨_, _, hok, -⟩ := h [payload ++ [newline]] [] hne (by simp)
    rw [length_nil, Nat.zero_add] at hread
    by_contra hlong
    rw [if_neg hlong] at hread
    obtain ⟨error, rest, herror⟩ := hread
    rw [herror] at hok
    cases hok
  intro hshort pieces more hpieces h
  rw [append_assoc] at h
  have hread := @readBoundedLine_eq pieces [] payload more hpieces hpayload h
  rw [length_nil, Nat.zero_add, if_pos hshort] at hread
  obtain ⟨rest, hok, hrest⟩ := hread
  exact ⟨payload, rest, hok, rfl, hrest⟩

theorem clientReads_iff {payload : List UInt8} (hpayload : newline ∉ payload) :
    ClientReads (payload ++ [newline]) ↔ payload.length + 1 ≤ maxControlLineBytes := by
  have hline : ∀ pieces more, [] ∉ pieces → pieces.flatten = payload ++ [newline] ++ more →
      ∃ rest, rest.flatten = more ∧ readResponseLine pieces =
        if maxControlLineBytes < payload.length + 1 then
          (.error (.protocol "node response exceeded the wire limit"), rest)
        else (.ok (payload ++ [newline]), rest) := by
    intro pieces more hpieces h
    rw [append_assoc] at h
    obtain ⟨rest, hread, hrest⟩ := @readUntilNewline_eq pieces [] payload more hpieces hpayload h
    refine ⟨rest, hrest, ?_⟩
    rw [readResponseLine, hread, nil_append]
    simp
  constructor
  · intro h
    have hne : [] ∉ [payload ++ [newline]] := by simp
    obtain ⟨rest, -, hread⟩ := hline [payload ++ [newline]] [] hne (by simp)
    obtain ⟨_, hok, -⟩ := h [payload ++ [newline]] [] hne (by simp)
    by_contra hlong
    rw [if_pos (by omega), hok] at hread
    cases hread
  · intro hshort pieces more hpieces h
    obtain ⟨rest, hrest, hread⟩ := hline pieces more hpieces h
    rw [if_neg (by omega)] at hread
    exact ⟨rest, hread, hrest⟩

/-! ### How long a message is -/

theorem isPlain_of_hex {c : Char} (h : isAsciiHexDigit c = true) : IsPlain c := by
  have hrange : 48 ≤ c.toNat ∧ c.toNat ≤ 57 ∨ 97 ≤ c.toNat ∧ c.toNat ≤ 102 ∨
      65 ≤ c.toNat ∧ c.toNat ≤ 70 := by
    simp only [isAsciiHexDigit, Bool.or_eq_true, Bool.and_eq_true, decide_eq_true_eq,
      Char.isDigit_iff_toNat] at h
    rcases h with (h | h) | h
    · exact .inl h
    · exact .inr (.inl h)
    · exact .inr (.inr h)
  refine ⟨by omega, by omega, ?_, ?_⟩
  · rintro rfl
    revert hrange
    decide
  · rintro rfl
    revert hrange
    decide

variable {digest : String} {s s' : NodeHost} {manifest : CheckpointManifest} {now : Int}
  {params : CheckpointPrepareParams} {root : String} {source : CheckpointStore}
  {transcript : Option WalkedFile} {tree : WorkspaceTree} {outside : NodeOutside}
  {reply : NodeReply} {request : NodeRequest} {service : NodeService}

theorem quotedSize_digest (h : ValidDigest digest) : quotedSize digest = 66 := by
  rw [quotedSize_plain fun c hc => isPlain_of_hex (all_eq_true.mp h.2 c hc), h.1]

theorem quotedSize_checkpointId {id : String} {done : PUnit}
    (h : exec (validateCheckpointId id) s = (.ok done, s')) : quotedSize id = 37 := by
  obtain ⟨hvalid, -⟩ := refuseIf_ok h
  simp only [not_or, not_not] at hvalid
  obtain ⟨hstart, hsize, hrest⟩ := hvalid
  rw [quotedSize_plain, hsize]
  intro c hc
  rw [← take_append_drop 3 id.toList, hstart] at hc
  rcases mem_append.mp hc with hc | hc
  · have hc : c ∈ ['c', 'p', '-'] := hc
    simp only [mem_cons, not_mem_nil, or_false] at hc
    rcases hc with rfl | rfl | rfl
    all_goals decide
  · exact isPlain_of_hex (all_eq_true.mp hrest c hc)

theorem sum_optional {α : Type} {key : String} {value : Option α} (json : α → Json)
    (f : String × Json → Nat) : ((Json.optional key (value.map json)).map f).sum =
      value.elim 0 fun value => f (key, json value) := by
  cases value with
  | none => rfl
  | some value => simp [Json.optional]

@[simp] theorem size_ofNat (value : Nat) : (ofNat value).size = decimalSize value := rfl

def entrySize (path : String) (size : Nat) (mode : Option Nat) : Nat :=
  93 + quotedSize path + decimalSize size + mode.elim 0 fun mode => 12 + decimalSize mode

theorem size_checkpointFile {file : CheckpointFile} (h : ValidDigest file.digest) :
    file.toJson.size = entrySize file.path file.size file.unixMode := by
  have hkeys : quotedSize "path" = 6 ∧ quotedSize "digest" = 8 ∧ quotedSize "size" = 6 ∧
      quotedSize "unixMode" = 10 := by decide
  unfold CheckpointFile.toJson entrySize
  simp only [size_object, size_string, size_ofNat, map_cons, cons_append, nil_append, sum_cons,
    List.map_map, listSize_cons, sum_optional, quotedSize_digest h, hkeys, Function.comp_apply]
  cases file.unixMode with
  | none =>
    simp only [Option.elim_none]
    ring
  | some mode =>
    simp only [Option.elim_some]
    ring

/-- What a manifest takes: what it is for, each file, the transcript, and what is left out. -/
def manifestSize (nodeId root : String) (params : CheckpointPrepareParams) (now : Int)
    (files : List Nat) (state : Option Nat) (excluded : List Nat) : Nat :=
  189 + quotedSize nodeId + quotedSize params.sessionId + quotedSize params.provider.asStr +
    quotedSize params.profileId + quotedSize root +
    (params.providerSessionId.elim 0 fun id => 21 + quotedSize id) + decimalSize now +
    listSize files + (state.elim 0 fun state => 17 + state) + listSize excluded

/-- What a manifest has of the request for it. -/
structure PreparedFor (source : CheckpointStore) (params : CheckpointPrepareParams) (root : String)
    (now : Int) (manifest : CheckpointManifest) : Prop where
  version : manifest.version = 1
  checkpointId : quotedSize manifest.checkpointId = 37
  sourceNodeId : manifest.sourceNodeId = source.nodeId
  sessionId : manifest.sessionId = params.sessionId
  provider : manifest.provider = params.provider
  profileId : manifest.profileId = params.profileId
  workspaceRoot : manifest.workspaceRoot = root
  providerSessionId : manifest.providerSessionId = params.providerSessionId
  createdAt : manifest.createdAt = now
  digests : ∀ entry ∈ manifest.files ++ manifest.providerState.toList, ValidDigest entry.digest

theorem PreparedFor.size (h : PreparedFor source params root now manifest) :
    manifest.toJson.size = manifestSize source.nodeId root params now
      (manifest.files.map fun file => entrySize file.path file.size file.unixMode)
      (manifest.providerState.map fun file => entrySize file.path file.size file.unixMode)
      (manifest.excluded.map quotedSize) := by
  have hkeys : quotedSize "version" = 9 ∧ quotedSize "checkpointId" = 14 ∧
      quotedSize "sourceNodeId" = 14 ∧ quotedSize "sessionId" = 11 ∧ quotedSize "provider" = 10 ∧
      quotedSize "profileId" = 11 ∧ quotedSize "workspaceRoot" = 15 ∧
      quotedSize "providerSessionId" = 19 ∧ quotedSize "mode" = 6 ∧ quotedSize "createdAt" = 11 ∧
      quotedSize "files" = 7 ∧ quotedSize "providerState" = 15 ∧ quotedSize "excluded" = 10 := by
    decide
  have hversion : decimalSize (1 : Nat) = 1 := by decide
  have hmode : quotedSize manifest.mode.asStr = 6 := by
    cases manifest.mode with
    | move | fork => decide
  have hentries : ∀ entry ∈ manifest.files ++ manifest.providerState.toList,
      entry.toJson.size = entrySize entry.path entry.size entry.unixMode := fun entry hentry =>
    size_checkpointFile (h.digests entry hentry)
  have hfiles : manifest.files.map (Json.size ∘ CheckpointFile.toJson) =
      manifest.files.map fun file => entrySize file.path file.size file.unixMode :=
    map_congr_left fun entry hentry => hentries entry (mem_append_left _ hentry)
  have hexcluded : manifest.excluded.map (Json.size ∘ Json.string) =
      manifest.excluded.map quotedSize := map_congr_left fun path _ => size_string path
  have hstate : (manifest.providerState.elim 0 fun file => 1 + (15 + 1 + file.toJson.size)) =
      (manifest.providerState.map fun file =>
        entrySize file.path file.size file.unixMode).elim 0 fun state => 17 + state := by
    cases hstate : manifest.providerState with
    | none => rfl
    | some state =>
      have hsize := hentries state (by simp [hstate])
      simp only [Option.elim_some, map_some, hsize]
      omega
  have hsession : (params.providerSessionId.elim 0 fun id => 1 + (19 + 1 + quotedSize id)) =
      params.providerSessionId.elim 0 fun id => 21 + quotedSize id := by
    cases params.providerSessionId with
    | none => rfl
    | some id => exact (Nat.add_assoc 1 20 _).symm
  unfold CheckpointManifest.toJson manifestSize
  simp only [size_object, size_array, size_string, size_number, size_ofNat, map_append,
    map_cons, map_nil, cons_append, nil_append, append_assoc,
    sum_append, sum_cons, sum_nil, List.map_map, listSize_cons, sum_optional, hkeys,
    h.version, h.checkpointId, h.sourceNodeId, h.sessionId, h.provider, h.profileId,
    h.workspaceRoot, h.providerSessionId, h.createdAt, hmode, hversion, Function.comp_apply]
  rw [hfiles, hexcluded, hsession, hstate]
  ring

theorem validateFiles_ok {entries : List CheckpointFile} {total sum : Nat}
    (h : exec (validateFiles entries total) s = (.ok sum, s')) :
    ∀ entry ∈ entries, ValidDigest entry.digest := by
  induction entries generalizing total s with
  | nil => simp
  | cons entry rest ih =>
    obtain ⟨⟨⟩, s₁, -, h₁⟩ := exec_bind_of_ok h
    obtain ⟨⟨⟩, s₂, hdigest, h₂⟩ := exec_bind_of_ok h₁
    obtain ⟨⟨⟩, s₃, -, h₃⟩ := exec_bind_of_ok h₂
    obtain ⟨hvalid, -⟩ := refuseIf_ok hdigest
    simp only [not_or, not_not] at hvalid
    intro other hother
    rcases mem_cons.mp hother with rfl | hother
    · exact hvalid
    · exact ih h₃ other hother

theorem prepared_of_prepare {random : Except NodeError (List UInt8)}
    (h : exec (source.prepare params (tree.workspace root) random transcript now) s =
      (.ok manifest, s')) : PreparedFor source params root now manifest := by
  obtain ⟨path, s₁, hroot, h₁⟩ := exec_bind_of_ok h
  obtain ⟨⟨⟩, s₂, -, h₂⟩ := exec_bind_of_ok h₁
  obtain ⟨bytes, s₃, -, h₃⟩ := exec_bind_of_ok h₂
  obtain ⟨files, s₄, -, h₄⟩ := exec_bind_of_ok h₃
  obtain ⟨⟨⟩, s₅, -, h₅⟩ := exec_bind_of_ok h₄
  obtain ⟨state, s₆, -, h₆⟩ := exec_bind_of_ok h₅
  obtain ⟨⟨⟩, s₇, hsave, h₇⟩ := exec_bind_of_ok h₆
  obtain ⟨⟨⟩, s₈, -, h₈⟩ := exec_bind_of_ok h₇
  obtain rfl := Except.ok.inj (Prod.mk.inj h₈).1
  obtain rfl : root = path := Except.ok.inj (CheckpointStore.answered_ok hroot)
  obtain ⟨⟨⟩, t₁, hvalid, -⟩ := exec_bind_of_ok hsave
  obtain ⟨⟨⟩, t₂, -, hchecked₁⟩ := exec_bind_of_ok hvalid
  obtain ⟨⟨⟩, t₃, hid, hchecked₂⟩ := exec_bind_of_ok hchecked₁
  obtain ⟨⟨⟩, t₄, -, hchecked₃⟩ := exec_bind_of_ok hchecked₂
  obtain ⟨total, t₅, hfiles, -⟩ := exec_bind_of_ok hchecked₃
  exact ⟨rfl, quotedSize_checkpointId hid, rfl, rfl, rfl, rfl, rfl, rfl, rfl,
    validateFiles_ok hfiles⟩

/-! ### How long a line is -/

variable (message : ControlMessage)

theorem length_encodeLine : (encodeLine message).length = message.toJson.size + 1 := by
  rw [encodeLine, length_append]
  rfl

theorem length_requestLine (request : NodeRequest) :
    request.line.length = 29 + quotedSize request.method + request.params.size := by
  have hkeys : quotedSize "id" = 4 ∧ quotedSize "method" = 8 ∧ quotedSize "params" = 8 := by decide
  have htwo : decimalSize (2 : Nat) = 1 := by decide
  rw [NodeRequest.line, length_encodeLine]
  simp only [ControlMessage.toJson, Json.optional, map_some, toList_some, size_object,
    size_string, size_ofNat, map_cons, map_nil, cons_append, nil_append,
    sum_cons, sum_nil, listSize_cons, hkeys, htwo]
  ring

theorem length_replyLine (reply : NodeReply) : reply.line.length = 15 + reply.toJson.size := by
  have hkeys : quotedSize "id" = 4 ∧ quotedSize "ok" = 4 := by decide
  have htwo : decimalSize (2 : Nat) = 1 := by decide
  rw [NodeReply.line, length_encodeLine]
  simp only [ControlMessage.toJson, size_object, size_ofNat, map_cons, map_nil,
    sum_cons, sum_nil, listSize_cons, hkeys, htwo]
  ring

theorem length_putManifest (manifest : CheckpointManifest) :
    (NodeRequest.checkpointManifestPut manifest).line.length = 67 + manifest.toJson.size := by
  have hkeys : quotedSize "checkpoint.manifest.put" = 25 ∧ quotedSize "manifest" = 10 := by decide
  rw [length_requestLine]
  simp only [NodeRequest.method, NodeRequest.params, size_object, map_cons, map_nil,
    sum_nil, listSize_cons, hkeys]
  ring

theorem length_hasBlobs {digests : List String} (h : ∀ digest ∈ digests, ValidDigest digest) :
    (NodeRequest.checkpointBlobHas digests).line.length =
      64 + listSize (digests.map fun _ => 66) := by
  have hkeys : quotedSize "checkpoint.blob.has" = 21 ∧ quotedSize "digests" = 9 := by decide
  have hdigests : digests.map (Json.size ∘ Json.string) = digests.map fun _ => 66 :=
    map_congr_left fun digest hdigest => by
      rw [Function.comp_apply, size_string, quotedSize_digest (h digest hdigest)]
  rw [length_requestLine]
  simp only [NodeRequest.method, NodeRequest.params, size_object, size_array, map_cons,
    map_nil, List.map_map, sum_nil, listSize_cons, hkeys, hdigests]
  ring

theorem length_readBlob (h : ValidDigest digest) (offset maxBytes : Nat) :
    (NodeRequest.checkpointBlobRead digest offset maxBytes).line.length =
      150 + decimalSize offset + decimalSize maxBytes := by
  have hkeys : quotedSize "checkpoint.blob.read" = 22 ∧ quotedSize "digest" = 8 ∧
      quotedSize "offset" = 8 ∧ quotedSize "maxBytes" = 10 := by decide
  rw [length_requestLine]
  simp only [NodeRequest.method, NodeRequest.params, size_object, size_string, size_ofNat, map_cons,
    map_nil, sum_cons, sum_nil, listSize_cons, hkeys, quotedSize_digest h]
  ring

/-! ### Chunks -/

theorem quotedSize_hexEncode (bytes : List UInt8) :
    quotedSize (hexEncode bytes) = 2 + 2 * bytes.length := by
  have hdigits : ∀ n, n < 16 → IsPlain (hexDigits.getD n '0') := by decide
  have hplain : ∀ c ∈ (hexEncode bytes).toList, IsPlain c := by
    intro c hc
    rw [hexEncode, String.toList_ofList] at hc
    obtain ⟨byte, -, hbyte⟩ := mem_flatMap.mp hc
    have hlt := byte.toNat_lt
    rcases mem_cons.mp hbyte with rfl | hbyte
    · exact hdigits _ (by omega)
    · obtain rfl := mem_singleton.mp hbyte
      exact hdigits _ (Nat.mod_lt _ (by decide))
  rw [quotedSize_plain hplain, utf8ByteSize_hexEncode]

theorem size_chunk_le (hdigest : ValidDigest digest) (offset : Nat)
    (bytes : List UInt8) (eof : Bool) :
    (BlobPutParams.toJson ⟨digest, offset, hexEncode bytes, eof⟩).size ≤
      108 + decimalSize offset + 2 * bytes.length := by
  have hkeys : quotedSize "digest" = 8 ∧ quotedSize "offset" = 8 ∧ quotedSize "hex" = 5 ∧
      quotedSize "eof" = 5 := by decide
  have heof : (Json.bool eof).size ≤ 5 := by
    rw [size_bool]
    split <;> decide
  have hsize : (BlobPutParams.toJson ⟨digest, offset, hexEncode bytes, eof⟩).size =
      103 + decimalSize offset + 2 * bytes.length + (Json.bool eof).size := by
    simp only [BlobPutParams.toJson, size_object, size_string, size_ofNat, map_cons, map_nil,
      sum_cons, sum_nil, listSize_cons, hkeys, quotedSize_digest hdigest, quotedSize_hexEncode]
    ring
  rw [hsize]
  omega

/-- What is asked for a chunk of a blob, and what is asked with one. -/
def ChunkCall (digest : String) : ClientCall → Prop
  | .request .source (.checkpointBlobRead other offset maxBytes) =>
    other = digest ∧ offset < 2 ^ 64 ∧ maxBytes = 512 * 1024
  | .request .target (.checkpointBlobPut params) =>
    params.digest = digest ∧ params.offset < 2 ^ 64 ∧
      ∃ bytes, bytes.length ≤ maxChunkBytes ∧ params.hex = hexEncode bytes
  | _ => False

/-- A node answers a request with a reply that it makes to it. -/
def Replied (call : ClientCall) (answer : Except NodeClientError ClientReply) : Prop :=
  ∀ side request reply, call = .request side request → answer = .ok (.node reply) →
    ∃ service disk outside, (NodeService.serve service disk (request, outside)).2 = .ok reply

theorem readBlob_ok {offset maxBytes : Nat} {chunk : BlobChunk}
    (h : exec (CheckpointStore.readBlob digest offset maxBytes) s = (.ok chunk, s')) :
    chunk.digest = digest ∧ chunk.offset = offset ∧
      ∃ bytes, bytes.length ≤ maxChunkBytes ∧ chunk.hex = hexEncode bytes := by
  obtain ⟨⟨⟩, s₁, -, h₁⟩ := exec_bind_of_ok h
  obtain ⟨disk, s₂, -, h₂⟩ := exec_bind_of_ok h₁
  cases hblob : disk.blobs.lookup digest with
  | none =>
    rw [hblob] at h₂
    cases h₂
  | some contents =>
    rw [hblob] at h₂
    obtain ⟨⟨⟩, s₃, -, h₃⟩ := exec_bind_of_ok h₂
    obtain ⟨⟨⟩, s₄, -, h₄⟩ := exec_bind_of_ok h₃
    obtain rfl := Except.ok.inj (Prod.mk.inj h₄).1
    refine ⟨rfl, rfl, _, ?_, rfl⟩
    refine Nat.le_trans (length_take_le _ _) ?_
    split
    · decide
    · exact Nat.min_le_right _ _

theorem dispatch_of_serve {disk : NodeDisk}
    (h : (service.serve disk (request, outside)).2 = .ok reply) :
    ∃ s', exec (service.dispatch request outside) ⟨disk, outside.faults⟩ = (.ok reply, s') := by
  exact ⟨_, Prod.ext h rfl⟩

theorem serve_readBlob {disk : NodeDisk} {offset maxBytes : Nat}
    (h : (service.serve disk (.checkpointBlobRead digest offset maxBytes, outside)).2 = .ok reply) :
    ∃ chunk, reply = .chunk chunk ∧ chunk.digest = digest ∧ chunk.offset = offset ∧
      ∃ bytes, bytes.length ≤ maxChunkBytes ∧ chunk.hex = hexEncode bytes := by
  obtain ⟨s', hserved⟩ := dispatch_of_serve h
  obtain ⟨chunk, s₁, hread, hpure⟩ := exec_bind_of_ok hserved
  exact ⟨chunk, (Except.ok.inj (Prod.mk.inj hpure).1).symm, readBlob_ok hread⟩

theorem serve_putBlob {disk : NodeDisk} {params : BlobPutParams}
    (h : (service.serve disk (.checkpointBlobPut params, outside)).2 = .ok reply) :
    ∃ complete, reply = .complete complete := by
  obtain ⟨s', hserved⟩ := dispatch_of_serve h
  obtain ⟨complete, s₁, -, hpure⟩ := exec_bind_of_ok hserved
  exact ⟨complete, (Except.ok.inj (Prod.mk.inj hpure).1).symm⟩

theorem transferBlob_keeps {chunks offset : Nat} (heard : Prop) (hoffset : offset < 2 ^ 64) :
    Script.Keeps (.assuming Replied (ChunkCall digest))
      (Script.Keeps.Either (fun _ _ => True) fun _ => True) heard
      (NodeClient.transferBlob digest chunks offset).run := by
  induction chunks generalizing offset heard with
  | zero => trivial
  | succ chunks ih =>
    unfold NodeClient.transferBlob
    refine Script.Keeps.bindExcept (fun heard chunk => heard → ∃ bytes, bytes.length ≤ maxChunkBytes
      ∧ chunk.hex = hexEncode bytes) (NodeClient.typed_keeps (fun _ => ⟨rfl, hoffset, rfl⟩) ?_ fun _
      _ => trivial) ?_
    · rintro reply chunk hread ⟨-, hreplied⟩
      split at hread <;> obtain ⟨⟩ := hread
      obtain ⟨service, disk, outside, hserved⟩ := hreplied _ _ _ rfl rfl
      obtain ⟨_, hchunk, -, -, hhex⟩ := serve_readBlob hserved
      obtain rfl := NodeReply.chunk.inj hchunk
      exact hhex
    intro heard chunk hchunk
    refine Script.Keeps.bindExcept (fun _ _ => True) (NodeClient.typed_keeps (fun hheard => ⟨rfl,
      hoffset, hchunk hheard⟩) (fun _ _ _ => trivial) fun _ _ => trivial) ?_
    rintro heard complete -
    split
    · split
      · trivial
      · trivial
    · exact ih heard (by omega)

/-! ### Lines that fit -/

/-- The line is no longer than the limit, and the node reads it. -/
def NodeFits (line : List UInt8) : Prop := line.length ≤ maxControlLineBytes ∧ NodeReads line

def ClientFits (line : List UInt8) : Prop := line.length ≤ maxControlLineBytes ∧ ClientReads line

theorem nodeFits_iff :
    NodeFits (encodeLine message) ↔ (encodeLine message).length ≤ maxControlLineBytes := by
  refine and_iff_left_of_imp fun h => ?_
  rw [length_encodeLine] at h
  exact (nodeReads_iff (newline_notMem message.toJson)).mpr (Nat.le_of_succ_le h)

theorem clientFits_iff :
    ClientFits (encodeLine message) ↔ (encodeLine message).length ≤ maxControlLineBytes := by
  refine and_iff_left_of_imp fun h => ?_
  rw [length_encodeLine] at h
  exact (clientReads_iff (newline_notMem message.toJson)).mpr h

theorem decimalSize_offset {offset : Nat} (h : offset < 2 ^ 64) : decimalSize offset ≤ 20 :=
  decimalSize_le (by decide) (Nat.lt_trans h (by decide))

theorem ChunkCall.fits (hdigest : ValidDigest digest) {side : NodeSide}
    (h : ChunkCall digest (.request side request)) : NodeFits request.line := by
  refine (nodeFits_iff _).mpr ?_
  show request.line.length ≤ _
  have hlimit : maxControlLineBytes = 4194304 := rfl
  unfold ChunkCall at h
  split at h
  · rename_i offset maxBytes hcall
    obtain ⟨rfl, hoffset, rfl⟩ := h
    obtain ⟨-, rfl⟩ := ClientCall.request.inj hcall
    have hdecimal := decimalSize_offset hoffset
    have hsize : decimalSize (512 * 1024 : Nat) = 6 := by decide
    rw [length_readBlob hdigest, hsize]
    omega
  · rename_i params hcall
    obtain ⟨rfl, hoffset, bytes, hbytes, hhex⟩ := h
    obtain ⟨-, rfl⟩ := ClientCall.request.inj hcall
    have hdecimal := decimalSize_offset hoffset
    have hchunk := size_chunk_le hdigest params.offset bytes params.eof
    have hmethod : quotedSize "checkpoint.blob.put" = 21 := by decide
    rw [length_requestLine, NodeRequest.method, hmethod, NodeRequest.params,
      show params = ⟨params.digest, params.offset, hexEncode bytes, params.eof⟩ by rw [← hhex]]
    have hlength : bytes.length ≤ 1048576 := hbytes
    omega
  · exact h.elim

theorem ChunkCall.reply_fits (hdigest : ValidDigest digest) {side : NodeSide}
    (h : ChunkCall digest (.request side request))
    (hreplied : Replied (.request side request) (.ok (.node reply))) : ClientFits reply.line := by
  refine (clientFits_iff _).mpr ?_
  show reply.line.length ≤ _
  have hlimit : maxControlLineBytes = 4194304 := rfl
  obtain ⟨service, disk, outside, hserved⟩ := hreplied _ _ _ rfl rfl
  unfold ChunkCall at h
  split at h
  · rename_i offset maxBytes hcall
    obtain ⟨rfl, hoffset, rfl⟩ := h
    obtain ⟨-, rfl⟩ := ClientCall.request.inj hcall
    obtain ⟨chunk, rfl, rfl, rfl, bytes, hbytes, hhex⟩ := serve_readBlob hserved
    have hdecimal := decimalSize_offset hoffset
    have hchunk := size_chunk_le hdigest chunk.offset bytes chunk.eof
    rw [length_replyLine, NodeReply.toJson,
      show chunk = ⟨chunk.digest, chunk.offset, hexEncode bytes, chunk.eof⟩ by rw [← hhex]]
    have hlength : bytes.length ≤ 1048576 := hbytes
    have hsame : (BlobChunk.toJson ⟨chunk.digest, chunk.offset, hexEncode bytes, chunk.eof⟩).size =
      (BlobPutParams.toJson ⟨chunk.digest, chunk.offset, hexEncode bytes, chunk.eof⟩).size := rfl
    omega
  · rename_i params hcall
    obtain ⟨-, rfl⟩ := ClientCall.request.inj hcall
    obtain ⟨complete, rfl⟩ := serve_putBlob hserved
    rw [length_replyLine]
    cases complete with
    | true | false => decide
  · exact h.elim

/-! ### Checkpoints that cross -/

def CheckpointManifest.digests (manifest : CheckpointManifest) : List String :=
  manifest.files.map (·.digest) ++ (manifest.providerState.map (·.digest)).toList

/-- Every message that brings a checkpoint from one node to another fits. -/
structure Crosses (manifest : CheckpointManifest) : Prop where
  response : ClientFits (NodeReply.manifest manifest).line
  put : NodeFits (NodeRequest.checkpointManifestPut manifest).line
  has : NodeFits (NodeRequest.checkpointBlobHas manifest.digests).line
  /-- Whatever the nodes reply to the transfer of a blob. -/
  blobs : ∀ digest ∈ manifest.digests, ∀ chunks answers,
    (∀ exchange ∈ (NodeClient.transferBlob digest chunks 0).run.exchanged answers,
      Replied exchange.1 exchange.2) →
    (∀ side request,
      .request side request ∈ (NodeClient.transferBlob digest chunks 0).run.asked answers →
        NodeFits request.line) ∧
    ∀ side request reply,
      (.request side request, .ok (.node reply)) ∈
        (NodeClient.transferBlob digest chunks 0).run.exchanged answers → ClientFits reply.line

/-- The readers on both sides take the same lines of this length. -/
def ReadersAgree (length : Nat) : Prop :=
  ∀ payload, newline ∉ payload → payload.length = length →
    (NodeReads (payload ++ [newline]) ↔ ClientReads (payload ++ [newline]))

theorem readersAgree_iff {length : Nat} : ReadersAgree length ↔ length ≠ maxControlLineBytes := by
  constructor
  · rintro h rfl
    have hfree : newline ∉ List.replicate maxControlLineBytes (0x20 : UInt8) := fun hmem =>
      absurd (eq_of_mem_replicate hmem) (by decide)
    have hagree := h _ hfree length_replicate
    rw [nodeReads_iff hfree, clientReads_iff hfree, length_replicate] at hagree
    exact absurd (hagree.mp (Nat.le_refl _)) (Nat.not_succ_le_self _)
  · rintro h payload hpayload rfl
    rw [nodeReads_iff hpayload, clientReads_iff hpayload]
    omega

theorem listSize_append_le (sizes more : List Nat) :
    listSize (sizes ++ more) ≤ listSize sizes + (more.map (1 + ·)).sum := by
  cases sizes with
  | nil =>
    cases more with
    | nil => simp [listSize]
    | cons first more =>
      rw [nil_append, listSize_cons, map_cons, sum_cons]
      omega
  | cons first sizes =>
    rw [cons_append, listSize_cons, listSize_cons, map_append, sum_append]
    omega

theorem listSize_map_le {α : Type} {items : List α} {f g : α → Nat}
    (h : ∀ item ∈ items, f item ≤ g item) : listSize (items.map f) ≤ listSize (items.map g) := by
  have hsum := sum_le_sum h
  rw [listSize, listSize, length_map, length_map]
  omega

section
variable (h : PreparedFor source params root now manifest)
include h

theorem PreparedFor.validDigests : ∀ digest ∈ manifest.digests, ValidDigest digest := by
  intro digest hdigest
  rcases mem_append.mp hdigest with hmem | hmem
  · obtain ⟨file, hfile, rfl⟩ := List.mem_map.mp hmem
    exact h.digests file (mem_append_left _ hfile)
  · obtain ⟨state, hstate, rfl⟩ := map_eq_some_iff.mp (mem_toList.mp hmem)
    exact h.digests state (mem_append_right _ (mem_toList.mpr hstate))

theorem PreparedFor.digests_le :
    listSize (manifest.digests.map fun _ => 66) ≤ manifest.toJson.size := by
  have hfiles : listSize (manifest.files.map fun _ => 66) ≤
      listSize (manifest.files.map fun file => entrySize file.path file.size file.unixMode) :=
    listSize_map_le fun file _ => by
      rw [entrySize]
      omega
  have happend := listSize_append_le (manifest.files.map fun _ => 66)
    (manifest.providerState.toList.map fun _ => 66)
  have hdigests : manifest.digests.map (fun _ => 66) =
      manifest.files.map (fun _ => 66) ++ manifest.providerState.toList.map fun _ => 66 := by
    rw [CheckpointManifest.digests, map_append, List.map_map, toList_map, List.map_map]
    rfl
  have hstate : ((manifest.providerState.toList.map fun _ => 66).map (1 + ·)).sum ≤
      (manifest.providerState.map fun file =>
        entrySize file.path file.size file.unixMode).elim 0 fun state => 17 + state := by
    cases manifest.providerState with
    | none => exact Nat.le_refl _
    | some state =>
      simp only [toList_some, map_cons, map_nil, sum_cons, sum_nil,
        map_some, Option.elim_some, entrySize]
      omega
  rw [h.size, manifestSize, hdigests]
  omega

theorem crosses_iff : Crosses manifest ↔ 67 + manifest.toJson.size ≤ maxControlLineBytes := by
  constructor
  · intro hcrosses
    rw [← length_putManifest]
    exact hcrosses.put.1
  intro hsize
  have hdigests := h.validDigests
  refine ⟨(clientFits_iff _).mpr ?_, (nodeFits_iff _).mpr ?_, (nodeFits_iff _).mpr ?_, ?_⟩
  · show (NodeReply.manifest manifest).line.length ≤ _
    rw [length_replyLine]
    exact Nat.le_trans (Nat.add_le_add_right (by decide) _) hsize
  · exact (length_putManifest manifest).trans_le hsize
  · show (NodeRequest.checkpointBlobHas manifest.digests).line.length ≤ _
    rw [length_hasBlobs hdigests]
    exact Nat.le_trans (Nat.add_le_add (by decide) h.digests_le) hsize
  intro digest hdigest chunks answers hanswers
  have hasks := (transferBlob_keeps True (by decide)).of_exchanged trivial hanswers
  refine ⟨fun side request hasked => (hasks _ hasked).fits (hdigests digest hdigest), ?_⟩
  intro side request reply hexchange
  exact (hasks _ (Script.asked_of_exchanged hexchange)).reply_fits (hdigests digest hdigest)
    (hanswers _ hexchange)

end

/-- What the longest message takes, by what there is in the workspace; `transcript` is the one that
is taken along. -/
def WorkspaceTree.putSize (tree : WorkspaceTree) (source : CheckpointStore) (root : String)
    (params : CheckpointPrepareParams) (now : Int) (transcript : Option WalkedFile) : Nat :=
  67 + manifestSize source.nodeId root params now
    (tree.listing.included.map fun entry =>
      entrySize (written [] entry.1) entry.2.contents.length entry.2.unixMode)
    (transcript.map fun file =>
      entrySize "provider/session.jsonl" file.contents.length file.unixMode)
    (tree.listing.leftOut.map fun path => quotedSize (written [] path))

instance (source : CheckpointStore) (params : CheckpointPrepareParams)
    (transcript : Option WalkedFile) (host : NodeHost) :
    Decidable (source.TakesTranscript params transcript host) :=
  inferInstanceAs (Decidable (params.providerSessionId.isSome ∧ ∃ file ∈ transcript,
    source.sha256 file.contents ∈ host.disk.blobs ∨
      (true ∉ host.faults.take 2 ∧ source.sha256 file.copied = source.sha256 file.contents)))

/-- The transcript, if it is taken along. -/
def CheckpointStore.taken (source : CheckpointStore) (params : CheckpointPrepareParams)
    (transcript : Option WalkedFile) (host : NodeHost) : Option WalkedFile :=
  if source.TakesTranscript params transcript host then transcript else none

theorem Describes.state_eq (h : Describes source tree transcript manifest) {host : NodeHost}
    (hstate : manifest.providerState.isSome ↔ source.TakesTranscript params transcript host) :
    manifest.providerState = (source.taken params transcript host).map fun file =>
      source.entryOf { file with relative := "provider/session.jsonl" } := by
  unfold CheckpointStore.taken
  split
  · obtain ⟨state, hsome⟩ := isSome_iff_exists.mp (hstate.mpr ‹_›)
    obtain ⟨file, hfile, rfl⟩ := h.state state hsome
    rw [hsome, mem_def.mp hfile]
    rfl
  · rw [map_none, ← not_isSome_iff_eq_none, hstate]
    assumption

section

variable {source : CheckpointStore} {tree : WorkspaceTree} {root : String}
  {params : CheckpointPrepareParams} {random : Except NodeError (List UInt8)}
  {transcript : Option WalkedFile} {now : Int} {host prepared : NodeHost}
  {manifest : CheckpointManifest}

theorem crosses_iff_putSize
    (h : exec (source.prepare params (tree.workspace root) random transcript now) host =
      (.ok manifest, prepared)) :
    Crosses manifest ↔ tree.putSize source root params now (source.taken params transcript
      (exec (source.storeFiles (tree.workspace root).files) host).2) ≤ maxControlLineBytes := by
  have hprepared := prepared_of_prepare h
  obtain ⟨hdescribes, hstate⟩ := describes_of_prepare h
  rw [crosses_iff hprepared, hprepared.size, hdescribes.files, hdescribes.excluded,
    hdescribes.state_eq hstate, List.map_map, List.map_map, Option.map_map]
  rfl

/--
**A checkpoint can cross just where what its workspace comes to is within the limit, and the
two readers agree on every length but the limit itself.**
-/
theorem checkpoint_crosses_iff (length : Nat)
    (hprepare : exec (source.prepare params (tree.workspace root) random transcript now) host =
      (.ok manifest, prepared)) : (Crosses manifest ∧ ReadersAgree length) ↔
      tree.putSize source root params now (source.taken params transcript
        (exec (source.storeFiles (tree.workspace root).files) host).2) ≤ maxControlLineBytes ∧
      length ≠ maxControlLineBytes :=
  and_congr (crosses_iff_putSize hprepare) readersAgree_iff

end

theorem checkpoint_crosses_plain : (samplePrepare plainTree).1.toOption = some plainManifest ∧
      Crosses plainManifest ∧ ReadersAgree 1000 := by
  have hprepared : (samplePrepare plainTree).1.toOption = some plainManifest := by decide +kernel
  refine ⟨hprepared, (checkpoint_crosses_iff 1000 (eq_of_toOption hprepared)).mpr ⟨?_, by decide⟩⟩
  decide +kernel

/-! ### A workspace of links -/

namespace Listing

def links (names : List FileName) : Listing := names.foldr .other .nil

/-- A directory of directories that are all alike. -/
def level (names : List FileName) (children : Listing) : Listing :=
  names.foldr (fun name rest => .directory name children rest) .nil

/-- Names that the entries of a directory can have, in their order. -/
def Named (names : List FileName) : Prop :=
  (∀ name ∈ names, IsName name) ∧ names.Pairwise (· < ·)

instance (names : List FileName) : Decidable (Named names) := inferInstanceAs (Decidable (_ ∧ _))

theorem names_links (names : List FileName) : (links names).names = names := by
  induction names with
  | nil => rfl
  | cons name rest ih => exact congrArg (name :: ·) ih

theorem names_level (names : List FileName) (children : Listing) :
    (level names children).names = names := by
  induction names with
  | nil => rfl
  | cons name rest ih => exact congrArg (name :: ·) ih

theorem Named.cons {name : FileName} {rest : List FileName} (h : Named (name :: rest)) :
    IsName name ∧ (∀ other ∈ rest, name < other) ∧ Named rest :=
  ⟨h.1 name mem_cons_self, fun _ hother => rel_of_pairwise_cons h.2 hother,
    fun other hother => h.1 other (mem_cons_of_mem _ hother), h.2.of_cons⟩

variable {names : List FileName}

theorem Named.links (h : Named names) : (links names).Ordered := by
  induction names with
  | nil => trivial
  | cons name rest ih =>
    obtain ⟨hname, hfirst, hrest⟩ := h.cons
    exact ⟨⟨hname, fun other hother => hfirst other (names_links rest ▸ hother)⟩, ih hrest⟩

theorem Named.level (h : Named names) {children : Listing}
    (hchildren : children.Ordered) : (level names children).Ordered := by
  induction names with
  | nil => trivial
  | cons name rest ih =>
    obtain ⟨hname, hfirst, hrest⟩ := h.cons
    exact ⟨⟨hname, fun other hother => hfirst other (names_level rest children ▸ hother)⟩,
      hchildren, ih hrest⟩

theorem leftOut_links (names : List FileName) : (links names).leftOut = names.map ([·]) := by
  induction names with
  | nil => rfl
  | cons name rest ih => exact congrArg ([name] :: ·) ih

theorem leftOut_level (h : ∀ name ∈ names, shouldExclude name true = false) (children : Listing) :
    (level names children).leftOut =
      names.flatMap fun name => children.leftOut.map (name :: ·) := by
  induction names with
  | nil => rfl
  | cons name rest ih =>
    show (Listing.directory name children (level rest children)).leftOut = _
    rw [leftOut, if_neg (by simp [h name mem_cons_self]),
      ih fun other hother => h other (mem_cons_of_mem _ hother)]
    rfl

theorem regular_links (names : List FileName) : (links names).regular = [] := by
  induction names with
  | nil => rfl
  | cons name rest ih => exact ih

theorem regular_level (names : List FileName) {children : Listing} (h : children.regular = []) :
    (level names children).regular = [] := by
  induction names with
  | nil => rfl
  | cons name rest ih =>
    show within name children.regular ++ (level rest children).regular = []
    rw [h, ih]
    rfl

end Listing

theorem walkWorkspace_of_no_files {tree : Listing} (h : tree.regular = [])
    (directory : List FileName) (walk : WorkspaceWalk) :
    ∃ walk', exec (walkWorkspace directory tree) walk = (.ok ⟨⟩, walk') := by
  induction tree generalizing directory walk with
  | nil => exact ⟨walk, rfl⟩
  | file name contents mode rest ih => cases h
  | directory name children rest ihchildren ih =>
    obtain ⟨hchildren, hrest⟩ := append_eq_nil_iff.mp h
    rw [Listing.within, map_eq_nil_iff] at hchildren
    rw [walkWorkspace]
    split
    · rw [exec_bind_ok (exec_leaveOut _ _)]
      exact ih hrest _ _
    obtain ⟨walk₁, hwalk⟩ := ihchildren hchildren (directory ++ [name]) walk
    rw [exec_bind_ok hwalk]
    exact ih hrest _ _
  | other name rest ih =>
    rw [walkWorkspace, exec_bind_ok (exec_leaveOut _ _)]
    exact ih h _ _

theorem exec_writeDisk {f : NodeDisk → NodeDisk} {s : NodeHost} (h : s.faults = []) :
    exec (writeDisk f) s = (.ok ⟨⟩, ⟨f s.disk, []⟩) := by
  rw [writeDisk, exec_bind, CheckpointStore.exec_fileOperation, h]
  rfl

theorem exec_not_refused {β : Type} {p : Prop} [Decidable p] {error : NodeError}
    {f : PUnit → NodeM β} {s : NodeHost} (h : ¬p) :
    exec (refuseIf p error >>= f) s = exec (f ⟨⟩) s := by
  rw [refuseIf, if_neg h]
  rfl

theorem exec_then {α β : Type} {m : NodeM α} {f : α → NodeM β} {a : α} {b : β}
    (h : exec m s = (.ok a, s')) (hrest : (exec (f a) s').1 = .ok b) :
    (exec (m >>= f) s).1 = .ok b := by
  rw [exec_bind_ok h, hrest]

def emptyPrepare (tree : WorkspaceTree) : Except NodeError CheckpointManifest × NodeHost :=
  exec (oldHome.prepare ⟨"session", .claude, "profile", "/work", none, .move⟩
    (tree.workspace "/work") (.ok (List.replicate 16 7)) none 0) {}

def emptyManifest (excluded : List String) : CheckpointManifest where
  version := 1
  checkpointId := "cp-" ++ hexEncode (List.replicate 16 7)
  sourceNodeId := "old"
  sessionId := "session"
  provider := .claude
  profileId := "profile"
  workspaceRoot := "/work"
  mode := .move
  createdAt := 0
  files := []
  excluded := excluded

theorem validate_emptyManifest (excluded : List String) :
    exec (validateManifest (emptyManifest excluded)) {} = (.ok ⟨⟩, {}) := by
  unfold validateManifest emptyManifest
  simp only
  rw [exec_not_refused (by decide), validateCheckpointId, exec_not_refused (by decide +kernel),
    exec_not_refused (by decide)]
  rfl

theorem prepare_of_no_files (h : tree.listing.regular = []) :
    ∃ excluded, (emptyPrepare tree).1 = .ok (emptyManifest excluded) := by
  obtain ⟨walk, hwalk⟩ := walkWorkspace_of_no_files h [] {}
  have hfiles : walk.files = [] := by
    have hnone : tree.listing.included = [] :=
      eq_nil_iff_forall_not_mem.mpr fun entry hentry => by
        have hregular := Listing.regular_of_included hentry
        rw [h] at hregular
        cases hregular
    rw [(walkWorkspace_ok hwalk).files, hnone]
    rfl
  have hworkspace : tree.workspace "/work" = ⟨.ok "/work", true, [], walk.excluded, .ok ()⟩ := by
    unfold WorkspaceTree.workspace
    rw [hwalk, ← hfiles]
    rfl
  have hdir : exec (refuseIf (¬true = true) (.badRequest "workspace is not a directory")) {} =
      (.ok ⟨⟩, {}) := rfl
  have hsave : exec (CheckpointStore.saveManifest (emptyManifest walk.excluded)) {} = _ :=
    (exec_bind_ok (validate_emptyManifest _)).trans (exec_writeDisk rfl)
  refine ⟨walk.excluded, ?_⟩
  unfold emptyPrepare CheckpointStore.prepare
  rw [hworkspace]
  exact exec_then rfl (exec_then hdir (exec_then rfl (exec_then rfl (exec_then rfl (exec_then rfl
    (exec_then hsave (exec_then (exec_writeDisk rfl) rfl)))))))

theorem size_le_quotedSize (text : String) : 2 + text.utf8ByteSize ≤ quotedSize text := by
  have hone : ∀ c : Char, c.utf8Size ≤ escapedSize c := by
    intro c
    have hmost := c.utf8Size_le_four
    unfold escapedSize
    split
    · rename_i hshort
      have hascii : c.toNat ≤ 127 := by
        rcases hshort with rfl | rfl | hcontrol
        · decide
        · decide
        · simp only [mem_cons, not_mem_nil, or_false] at hcontrol
          omega
      exact (Char.utf8Size_eq_one_iff.mpr hascii).trans_le (by decide)
    split
    · omega
    · exact Nat.le_refl _
  rw [quotedSize, ← String.ofList_toList (s := text), utf8ByteSize_ofList, String.toList_ofList]
  exact Nat.add_le_add_left (sum_le_sum fun c _ => hone c) 2

def letters : List FileName := (List.range 26).map fun k => [UInt8.ofNat (0x61 + k)]

theorem named_letters : Listing.Named letters := by decide +kernel

theorem letters_spec : ∀ name ∈ letters,
    IsUtf8 name ∧ name.length = 1 ∧ shouldExclude name true = false := by decide +kernel

/-- Links, three directories down. -/
def linkTree : WorkspaceTree where
  listing := .level letters (.level letters (.level letters (.links letters)))
  ordered := named_letters.level (named_letters.level (named_letters.level named_letters.links))

theorem leftOut_linkTree : linkTree.listing.leftOut = letters.flatMap fun first =>
    letters.flatMap fun second => letters.flatMap fun third => letters.map fun fourth =>
      [first, second, third, fourth] := by
  have hexcluded : ∀ name ∈ letters, shouldExclude name true = false := fun name hname =>
    (letters_spec name hname).2.2
  unfold linkTree
  simp only [Listing.leftOut_level hexcluded, Listing.leftOut_links, map_flatMap, List.map_map]
  rfl

theorem written_linkTree {path : List FileName} (h : path ∈ linkTree.listing.leftOut) :
    9 ≤ quotedSize (written [] path) := by
  rw [leftOut_linkTree] at h
  simp only [mem_flatMap, List.mem_map] at h
  obtain ⟨first, hfirst, second, hsecond, third, hthird, fourth, hfourth, rfl⟩ := h
  obtain ⟨htext, hlength, -⟩ := letters_spec first hfirst
  obtain ⟨htext₂, hlength₂, -⟩ := letters_spec second hsecond
  obtain ⟨htext₃, hlength₃, -⟩ := letters_spec third hthird
  obtain ⟨htext₄, hlength₄, -⟩ := letters_spec fourth hfourth
  have hslash : IsUtf8 [slash] := ⟨"/", rfl⟩
  have hjoined : joined [first, second, third, fourth] =
      first ++ ([slash] ++ (second ++ ([slash] ++ (third ++ ([slash] ++ fourth))))) := by
    simp [joined, List.intercalate]
  have hutf8 : utf8 (written [] [first, second, third, fourth]) =
      joined [first, second, third, fourth] := by
    refine isUtf8_iff_lossy.mp ?_
    rw [nil_append, hjoined]
    exact htext.append (hslash.append (htext₂.append (hslash.append (htext₃.append
      (hslash.append htext₄)))))
  have hsize : (written [] [first, second, third, fourth]).utf8ByteSize = 7 := by
    rw [← length_utf8, hutf8, hjoined]
    simp [hlength, hlength₂, hlength₃, hlength₄]
  exact Nat.le_trans (by rw [hsize]) (size_le_quotedSize _)

theorem putSize_linkTree :
    maxControlLineBytes < linkTree.putSize source root params now transcript := by
  have hcount : linkTree.listing.leftOut.length = 456976 := by
    have hnames : letters.length = 26 := rfl
    rw [leftOut_linkTree]
    simp only [length_flatMap, length_map, map_const', sum_replicate_nat, hnames, Nat.reduceMul]
  have hleast := sum_le_sum fun path hpath => written_linkTree hpath
  rw [map_const', sum_replicate_nat, hcount] at hleast
  have hlist : listSize (linkTree.listing.leftOut.map fun path => quotedSize (written [] path)) =
      (linkTree.listing.leftOut.map fun path => quotedSize (written [] path)).sum +
        (456976 - 1) := by
    rw [listSize, length_map, hcount]
  have hlimit : maxControlLineBytes = 4194304 := rfl
  rw [WorkspaceTree.putSize, manifestSize]
  omega

theorem not_crosses_of_long (h : tree.listing.regular = [])
    (hlong : ∀ source root params now transcript,
      maxControlLineBytes < tree.putSize source root params now transcript) :
    ∃ manifest prepared, emptyPrepare tree = (.ok manifest, prepared) ∧ ¬Crosses manifest := by
  obtain ⟨excluded, hprepared⟩ := prepare_of_no_files h
  refine ⟨_, _, Prod.ext hprepared rfl, fun hcrosses => ?_⟩
  exact absurd ((crosses_iff_putSize (Prod.ext hprepared rfl)).mp hcrosses)
    (Nat.not_le.mpr (hlong _ _ _ _ _))

/-- A checkpoint is prepared that cannot be brought to another node, and a line of the limit's
length is read by one side only. -/
theorem links_uncrossable :
    (∃ manifest prepared, emptyPrepare linkTree = (.ok manifest, prepared) ∧ ¬Crosses manifest) ∧
      ¬ReadersAgree maxControlLineBytes := by
  have hregular : linkTree.listing.regular = [] :=
    Listing.regular_level _ (Listing.regular_level _ (Listing.regular_level _
      (Listing.regular_links _)))
  exact ⟨not_crosses_of_long hregular fun _ _ _ _ _ => putSize_linkTree,
    fun h => readersAgree_iff.mp h rfl⟩

end Diri
