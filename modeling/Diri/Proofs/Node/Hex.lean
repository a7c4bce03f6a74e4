/-
Bytes written as hex digits are read back.
-/
import Diri.Node.Checkpoint

namespace Diri

open Handler List

theorem hexDigit_getD {n : Nat} (h : n < 16) : hexDigit (hexDigits.getD n '0') = pure n := by
  interval_cases n <;> rfl

theorem hexEncode_cons (byte : UInt8) (bytes : List UInt8) : (hexEncode (byte :: bytes)).toList =
      hexDigits.getD (byte.toNat / 16) '0' :: hexDigits.getD (byte.toNat % 16) '0' ::
        (hexEncode bytes).toList := by
  simp [hexEncode]

theorem hexPairs_hexEncode (bytes : List UInt8) :
    hexPairs (hexEncode bytes).toList = pure bytes := by
  induction bytes with
  | nil => rfl
  | cons byte bytes ih =>
    have hhigh : byte.toNat / 16 < 16 := by have := byte.toNat_lt; omega
    have hlow : byte.toNat % 16 < 16 := Nat.mod_lt _ (by omega)
    have hbyte : UInt8.ofNat (byte.toNat / 16 * 16 + byte.toNat % 16) = byte := by
      rw [Nat.div_add_mod', UInt8.ofNat_toNat]
    rw [hexEncode_cons, hexPairs, hexDigit_getD hhigh, hexDigit_getD hlow, ih]
    simp only [pure_bind, hbyte]

theorem utf8ByteSize_hexEncode (bytes : List UInt8) :
    (hexEncode bytes).utf8ByteSize = 2 * bytes.length := by
  rw [hexEncode, utf8ByteSize_ofList]
  induction bytes with
  | nil => rfl
  | cons byte bytes ih =>
    have hhigh : byte.toNat / 16 < 16 := by have := byte.toNat_lt; omega
    have hlow : byte.toNat % 16 < 16 := Nat.mod_lt _ (by omega)
    rw [flatMap_cons, map_append, sum_append, ih]
    simp only [map_cons, map_nil, sum_cons, sum_nil, hexDigits_ascii hhigh,
      hexDigits_ascii hlow, length_cons]
    omega

theorem hexDecode_hexEncode (bytes : List UInt8) : hexDecode (hexEncode bytes) = pure bytes := by
  rw [hexDecode, hexPairs_hexEncode, utf8ByteSize_hexEncode]
  simp [refuseIf]

theorem hexEncode_injective : Function.Injective hexEncode := by
  intro bytes other h
  have hread : (pure bytes : NodeM (List UInt8)) = pure other := by
    rw [← hexPairs_hexEncode, h, hexPairs_hexEncode]
  have hexec := congrArg (fun m => (exec m {}).1) hread
  exact Except.ok.inj hexec

/-! ### A hash by samples -/

/-- The hash of the samples; of everything else, a text that is no hash. -/
def sampledHash (samples : List (List UInt8 × String)) (bytes : List UInt8) : String :=
  match samples.find? fun sample => sample.1 = bytes with
  | some sample => sample.2
  | none => "x" ++ hexEncode bytes

/-- Samples with hashes of their own, none of which begins like the other texts. -/
def Distinct (samples : List (List UInt8 × String)) : Prop :=
  (∀ sample ∈ samples, sample.2.toList.head? ≠ some 'x') ∧ (samples.map Prod.snd).Nodup

instance (samples : List (List UInt8 × String)) : Decidable (Distinct samples) :=
  inferInstanceAs (Decidable (_ ∧ _))

theorem sampledHash_injective {samples : List (List UInt8 × String)} (h : Distinct samples) :
    Function.Injective (sampledHash samples) := by
  have hone {sample other : List UInt8 × String} (hsample : sample ∈ samples)
      (hother : other ∈ samples) (heq : sample.2 = other.2) : sample = other :=
    inj_on_of_nodup_map h.2 hsample hother heq
  have hother {sample : List UInt8 × String} {bytes : List UInt8} (hsample : sample ∈ samples)
      (heq : sample.2 = "x" ++ hexEncode bytes) : False := by
    refine h.1 sample hsample ?_
    rw [heq, String.toList_append]
    rfl
  intro bytes others heq
  unfold sampledHash at heq
  split at heq
  · rename_i sample hfind
    have hbytes : sample.1 = bytes := by simpa using List.find?_some hfind
    split at heq
    · rename_i sample' hfind'
      have hothers : sample'.1 = others := by simpa using List.find?_some hfind'
      rw [← hbytes, ← hothers, hone (mem_of_find?_eq_some hfind) (mem_of_find?_eq_some hfind') heq]
    · exact (hother (mem_of_find?_eq_some hfind) heq).elim
  split at heq
  · rename_i sample' hfind'
    exact (hother (mem_of_find?_eq_some hfind') heq.symm).elim
  refine hexEncode_injective ?_
  have hchars := congrArg String.toList heq
  rw [String.toList_append, String.toList_append, append_cancel_left_eq] at hchars
  exact String.toList_injective hchars

def sampleSha256 : List UInt8 → String :=
  sampledHash
    [([], "e3b0c44298fc1c149afbf4c8996fb92427ae41e4649b934ca495991b7852b855"),
      ([0x61], "ca978112ca1bbdcafac231b39a23dc4da786eff8147c4e72b9807785afee48bb"),
      ([0x61, 0x62], "fb8e20fc2e4c3f248c60c39bd652f3c1347298bb977b8b4d5903b85055620603")]

theorem sampleSha256_injective : Function.Injective sampleSha256 :=
  sampledHash_injective (by decide)

end Diri
