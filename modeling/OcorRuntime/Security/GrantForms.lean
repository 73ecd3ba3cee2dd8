import Mathlib.Data.Nat.Size
import OcorRuntime.Base.CalendarLaws
import OcorRuntime.Kernel.Records
import OcorRuntime.Security.Grant

/-! The signed form of a grant: its canonical bytes exist whenever its texts are Unicode
and its depth is a safe integer, and a signature over them can be checked without
evaluating the hash. -/
namespace OcorRuntime.Security
open Canonical Kernel
set_option autoImplicit false
set_option maxHeartbeats 250000

/-! ## Octets -/

theorem fromBytes_foldl (bs : Bytes) (acc : ℕ) :
    bs.foldl (fun acc b => acc * 256 + b.val) acc = acc * 256 ^ bs.length + fromBytes bs := by
  induction bs generalizing acc with
  | nil => simp [fromBytes]
  | cons b bs ih =>
    unfold fromBytes
    rw [List.foldl_cons, List.foldl_cons, ih, ih (0 * 256 + b.val), List.length_cons, pow_succ]
    ring

theorem fromBytes_cons (b : Byte) (bs : Bytes) : fromBytes (b :: bs) = b.val * 256 ^ bs.length + fromBytes bs := by
  rw [fromBytes, List.foldl_cons, fromBytes_foldl, Nat.zero_mul, Nat.zero_add]

theorem fromBytes_lt (bs : Bytes) : fromBytes bs < 256 ^ bs.length := by
  induction bs with
  | nil => simp [fromBytes]
  | cons b bs ih =>
    have hb : b.val ≤ 255 := Nat.le_of_lt_succ b.isLt
    have hle := Nat.mul_le_mul_right (256 ^ bs.length) hb
    rw [fromBytes_cons, List.length_cons, pow_succ]
    omega

theorem byte_mod (n : ℕ) : byte n = byte (n % 256) := Fin.ext (by simp [byte])

theorem bigEndian_add (k m n : ℕ) : Sha256.bigEndian k (m * 256 ^ k + n) = Sha256.bigEndian k n := by
  induction k generalizing m with
  | zero => rfl
  | succ k ih =>
    have hsplit : m * 256 ^ (k + 1) + n = n + (m * 256) * 256 ^ k := by ring
    have hdiv : (m * 256 ^ (k + 1) + n) / 256 ^ k = n / 256 ^ k + m * 256 := by
      rw [hsplit, Nat.add_mul_div_right _ _ (by positivity)]
    rw [Sha256.bigEndian, Sha256.bigEndian, hdiv, byte_mod, byte_mod (n / 256 ^ k), Nat.add_mul_mod_self_right,
      hsplit, Nat.add_comm n, ih]

theorem bigEndian_fromBytes (bs : Bytes) : Sha256.bigEndian bs.length (fromBytes bs) = bs := by
  induction bs with
  | nil => rfl
  | cons b bs ih =>
    have hlt := fromBytes_lt bs
    rw [fromBytes_cons, List.length_cons, Sha256.bigEndian, bigEndian_add, ih, Nat.add_comm (b.val * _),
      Nat.add_mul_div_right _ _ (by positivity), Nat.div_eq_of_lt hlt, Nat.zero_add]
    rw [show byte b.val = b from Fin.ext (Nat.mod_eq_of_lt b.isLt)]

theorem fromBytes_bigEndian {k n : ℕ} (h : n < 256 ^ k) : fromBytes (Sha256.bigEndian k n) = n := by
  induction k generalizing n with
  | zero => simp_all [Sha256.bigEndian, fromBytes]
  | succ k ih =>
    have hpos : 0 < 256 ^ k := by positivity
    have hhead : n / 256 ^ k < 256 := Nat.div_lt_of_lt_mul (by rwa [← pow_succ])
    have hsplit : n = n / 256 ^ k * 256 ^ k + n % 256 ^ k := by rw [Nat.div_add_mod']
    have htail : Sha256.bigEndian k n = Sha256.bigEndian k (n % 256 ^ k) := by
      conv_lhs => rw [hsplit]
      rw [bigEndian_add]
    rw [Sha256.bigEndian, fromBytes_cons, Sha256.bigEndian_length, htail, ih (Nat.mod_lt n hpos), byte_val _ hhead, ← hsplit]

/-! ## A key that verifies a given message -/

section CubeKey
variable {p c : ℕ} (message : Bytes)

/-- A modulus under which `2 ^ c` is the cube root of the encoded message. -/
def cubeKey (p c : ℕ) (message : Bytes) : PublicKey :=
  ⟨2 ^ (3 * c) - fromBytes (encodedMessage p message), 3⟩

theorem encodedMessage_length : (encodedMessage p message).length = p + 54 := by
  have hinfo : digestInfo.length = 19 := rfl
  unfold encodedMessage
  simp only [List.length_append, List.length_cons, List.length_nil, List.length_replicate, Sha256.digest_length, hinfo]
  omega

theorem fromBytes_encodedMessage_lt : fromBytes (encodedMessage p message) < 256 ^ (p + 53) := by
  have hcons : encodedMessage p message = byte 0 :: (encodedMessage p message).tail := by
    unfold encodedMessage
    rfl
  have hlen : (encodedMessage p message).tail.length = p + 53 := by
    rw [List.length_tail, encodedMessage_length]
    omega
  have hlt := fromBytes_lt (encodedMessage p message).tail
  rw [hlen] at hlt
  rw [hcons, fromBytes_cons, show (byte 0).val = 0 from rfl, Nat.zero_mul, Nat.zero_add]
  exact hlt

variable (hc : 8 * (p + 53) + 1 = 3 * c)
include hc

theorem cubeKey_bounds : 256 ^ (p + 53) ≤ (cubeKey p c message).n ∧
    fromBytes (encodedMessage p message) + (cubeKey p c message).n = 256 ^ (p + 53) * 2 := by
  have hlt := fromBytes_encodedMessage_lt (p := p) message
  have hpow : 2 ^ (3 * c) = 256 ^ (p + 53) * 2 := by
    rw [← hc, pow_succ, pow_mul]
    norm_num
  unfold cubeKey
  dsimp only
  rw [hpow]
  omega

theorem cubeKey_octets : (cubeKey p c message).octets = p + 54 := by
  obtain ⟨hlow, hsum⟩ := cubeKey_bounds message hc
  have hpow : (256 : ℕ) ^ (p + 53) = 2 ^ (8 * (p + 53)) := by
    rw [pow_mul]
    norm_num
  have hsize : 8 * (p + 53) < Nat.size (cubeKey p c message).n := Nat.lt_size.mpr (hpow ▸ hlow)
  have hsize' : Nat.size (cubeKey p c message).n ≤ 8 * (p + 53) + 2 := by
    refine Nat.size_le.2 ?_
    rw [pow_succ, pow_succ, ← hpow]
    have : 0 < 256 ^ (p + 53) := by positivity
    omega
  unfold PublicKey.octets
  omega

theorem rsaVerify_cubeKey (hp : 8 ≤ p) :
    rsaVerify message (Sha256.bigEndian (p + 54) (2 ^ c)) (cubeKey p c message) = true := by
  obtain ⟨hlow, hsum⟩ := cubeKey_bounds message hc
  have hlt := fromBytes_encodedMessage_lt (p := p) message
  have hroot : (2 : ℕ) ^ c < 256 ^ (p + 54) := by
    rw [show (256 : ℕ) = 2 ^ 8 from rfl, ← pow_mul]
    exact Nat.pow_lt_pow_right (by omega) (by omega)
  have hcube : (2 ^ c) ^ 3 = fromBytes (encodedMessage p message) + (cubeKey p c message).n := by
    rw [hsum, ← pow_mul, Nat.mul_comm c 3, ← hc, pow_succ, pow_mul]
    norm_num
  have hmod : (2 ^ c) ^ 3 % (cubeKey p c message).n = fromBytes (encodedMessage p message) := by
    rw [hcube, Nat.add_mod_right, Nat.mod_eq_of_lt (by omega)]
  have hem := bigEndian_fromBytes (encodedMessage p message)
  rw [encodedMessage_length] at hem
  have hused : 3 + digestInfo.length + (Sha256.digest message).length = 54 := by
    rw [Sha256.digest_length]
    rfl
  unfold rsaVerify
  simp only [cubeKey_octets message hc, hused, Sha256.bigEndian_length]
  rw [if_neg (by simp), if_neg (by omega), fromBytes_bigEndian hroot, show (cubeKey p c message).e = 3 from rfl,
    hmod, hem, Nat.add_sub_cancel]
  exact decide_eq_true rfl

end CubeKey

/-- `2 ^ 683` as 257 octets, in base64. -/
def cubeSignature : PyStr :=
  List.replicate 228 (codePoint 0x41) ++ [codePoint 0x43] ++ List.replicate 114 (codePoint 0x41)

theorem b64Decode_cubeSignature : b64Decode cubeSignature = .ok (Sha256.bigEndian (203 + 54) (2 ^ 683)) := by
  decide +kernel

theorem verifyDelegationSignature_cube {grant : SignedDelegation} {payload : Bytes}
    (hpayload : grant.signingPayload = .ok payload) (hsignature : grant.signature = cubeSignature) :
    verifyDelegationSignature grant (cubeKey 203 683 payload) = .ok (sha256Urn payload) := by
  have hverify := rsaVerify_cubeKey (p := 203) (c := 683) payload (by omega) (by omega)
  unfold verifyDelegationSignature checkSignature
  rw [hpayload, hsignature, b64Decode_cubeSignature]
  simp only [Except.mapError, bind, Except.bind, hverify, refuseIf]
  rfl

/-! ## Canonical bytes of a record -/

theorem scalar_rfc3339 (t : Instant) : Scalar (rfc3339 t) := by
  simp only [rfc3339, strftimeDate, clockText, scalar_append, scalar_natText, scalar_padded, scalar_py, and_self]

/-- The texts of a record that come from its caller. -/
def SignedRecord.texts (r : SignedRecord) : List PyStr :=
  [r.grantId, r.grantorPrincipal, r.granteePrincipal, r.capabilityId, r.capabilityVersion, r.resourceScope, r.tenantId,
    r.organizationId, r.policyBundleDigest, r.nonce, r.confirmationKeyThumbprint] ++ r.parentGrantDigest.toList ++
    r.domains ++ r.compartments ++ r.permittedPurposes

theorem iJson_optionalText {text : Option PyStr} : IJson (optionalText text) ↔ ∀ s ∈ text, Scalar s := by
  cases text <;> simp [optionalText]

theorem iJson_toMapping {r : SignedRecord} (htexts : ∀ s ∈ r.texts, Scalar s)
    (hdepth : r.maxChainDepth.natAbs ≤ maxSafeInteger) : IJson r.toMapping := by
  unfold SignedRecord.toMapping
  refine iJson_fields (by simp only [List.map_cons, List.map_nil]; decide) ?_
  simp only [SignedRecord.texts, List.mem_append, List.mem_cons, List.not_mem_nil, or_false] at htexts
  simp only [List.mem_cons, List.not_mem_nil, or_false, forall_eq_or_imp, forall_eq, Option.mem_def, Option.some.injEq,
    forall_eq', iJson_str, iJson_int, iJson_bool, iJson_strings, iJson_optionalText, scalar_py, scalar_rfc3339, hdepth]
  simp_all

theorem signingPayload_eq {g : SignedDelegation} {r : SignedRecord} (hrecord : g.signedRecord = .ok r)
    (htexts : ∀ s ∈ r.texts, Scalar s) (hdepth : r.maxChainDepth.natAbs ≤ maxSafeInteger) :
    g.signingPayload = .ok (utf8Encode (render (canon r.toMapping))) := by
  rw [SignedDelegation.signingPayload, hrecord]
  exact canonicalize_eq (iJson_toMapping htexts hdepth)

end OcorRuntime.Security
