import Mathlib.NumberTheory.LucasLehmer
import OcorRuntime.Foundations.RsaPower
import OcorRuntime.Foundations.Sha512
import OcorRuntime.Security.GrantForms

/-! RSA PKCS#1 v1.5 signatures (`security/control_plane.py`) with every digest the
signature algorithms of certificates name, and with what Python's `pow` and `to_bytes`
raise. -/
namespace OcorRuntime.Security
set_option autoImplicit false
set_option maxHeartbeats 250000

/-! ## Digests -/

inductive DigestName
  | sha256
  | sha384
  | sha512
deriving DecidableEq

/-- `hashlib.new(digest, message).digest()`. -/
def DigestName.hash : DigestName → Bytes → Bytes
  | .sha256 => Sha256.digest
  | .sha384 => Sha512.digest384
  | .sha512 => Sha512.digest

/-- The octets of a digest. -/
def DigestName.size : DigestName → ℕ
  | .sha256 => 32
  | .sha384 => 48
  | .sha512 => 64

/-- `_DIGEST_INFO`. -/
def DigestName.info : DigestName → Bytes
  | .sha256 => digestInfo
  | .sha384 =>
    [0x30, 0x41, 0x30, 0x0D, 0x06, 0x09, 0x60, 0x86, 0x48, 0x01, 0x65, 0x03, 0x04, 0x02, 0x02, 0x05, 0x00, 0x04, 0x30].map byte
  | .sha512 =>
    [0x30, 0x51, 0x30, 0x0D, 0x06, 0x09, 0x60, 0x86, 0x48, 0x01, 0x65, 0x03, 0x04, 0x02, 0x03, 0x05, 0x00, 0x04, 0x40].map byte

theorem hash_length (digest : DigestName) (message : Bytes) : (digest.hash message).length = digest.size := by
  cases digest
  · exact Sha256.digest_length message
  · exact Sha512.digest384_length message
  · exact Sha512.digest_length message

theorem info_length (digest : DigestName) : digest.info.length = 19 := by cases digest <;> rfl

/-! ## Signing and verifying -/

/-- `pow(base, exponent, modulus)` of natural numbers. -/
def powMod (base exponent modulus : ℕ) : Except PyError ℕ :=
  if modulus = 0 then .error ⟨.valueError, "pow() 3rd argument cannot be 0", []⟩ else .ok (base ^ exponent % modulus)

/-- `value.to_bytes(length, "big")`. -/
def toBytes (value length : ℕ) : Except PyError Bytes :=
  if 256 ^ length ≤ value then .error ⟨.overflowError, "int too big to convert", []⟩
  else .ok (Sha256.bigEndian length value)

/-- The octets an encoded message has besides its filler: `k - padding_len`. -/
def framing (digest : DigestName) : ℕ := 3 + digest.info.length + digest.size

/-- The encoded message in `k` octets. -/
def encoded (k : ℕ) (message : Bytes) (digest : DigestName) : Bytes :=
  [byte 0, byte 1] ++ List.replicate (k - framing digest) (byte 0xFF) ++ [byte 0] ++ digest.info ++ digest.hash message

/-- `_rsa_verify`. -/
def rsaVerifyDigest (message signature : Bytes) (key : PublicKey) (digest : DigestName) : Except PyError Bool :=
  let k := key.octets
  if signature.length ≠ k then .ok false
  else do
    let power ← powMod (fromBytes signature) key.e key.n
    let em ← toBytes power k
    -- `padding_len < 8`
    if k < framing digest + 8 then return false else return em = encoded k message digest

/-- `_rsa_sign`. -/
def rsaSign (message : Bytes) (n d : ℕ) : Except PyError Bytes :=
  let k := (Nat.size n + 7) / 8
  if k < framing .sha256 + 8 then .error (controlError "POLICY_BUNDLE_SIGNATURE_INVALID" "modulus too small to sign" [])
  else do
    let power ← powMod (fromBytes (encoded k message .sha256)) d n
    toBytes power k

/-! ## The encoded message below the modulus -/

variable {k n : ℕ} {key : PublicKey} {message signature : Bytes} {digest : DigestName}

theorem framing_eq (digest : DigestName) : framing digest = 22 + digest.size := by
  rw [framing, info_length]

theorem encoded_length (hk : framing digest ≤ k) : (encoded k message digest).length = k := by
  rw [framing_eq] at hk
  unfold encoded
  simp only [List.length_append, List.length_cons, List.length_nil, List.length_replicate, info_length, hash_length,
    framing_eq]
  omega

theorem encoded_lt (hk : framing digest ≤ k) : fromBytes (encoded k message digest) < 2 * 256 ^ (k - 2) := by
  have hcons : encoded k message digest = byte 0 :: byte 1 :: (encoded k message digest).tail.tail := rfl
  have htail : (encoded k message digest).tail.tail.length = k - 2 := by
    rw [List.length_tail, List.length_tail, encoded_length hk]
    omega
  have hlt := fromBytes_lt (encoded k message digest).tail.tail
  rw [hcons, fromBytes_cons, fromBytes_cons, htail, show (byte 0).val = 0 from rfl, show (byte 1).val = 1 from rfl]
  rw [htail] at hlt
  omega

theorem lt_octets (key : PublicKey) : key.n < 256 ^ key.octets := by
  refine (Nat.lt_size_self key.n).trans_le ?_
  rw [show (256 : ℕ) = 2 ^ 8 from rfl, ← pow_mul]
  refine Nat.pow_le_pow_right (by norm_num) ?_
  unfold PublicKey.octets
  omega

theorem octets_le (hpos : 0 < key.octets) : 256 ^ (key.octets - 1) ≤ key.n := by
  rw [show (256 : ℕ) = 2 ^ 8 from rfl, ← pow_mul]
  refine Nat.lt_size.mp ?_
  unfold PublicKey.octets at hpos ⊢
  omega

theorem encoded_lt_modulus (hk : framing digest ≤ key.octets) : fromBytes (encoded key.octets message digest) < key.n := by
  have hframe := framing_eq digest
  have hlow : 256 ^ (key.octets - 1) ≤ key.n := octets_le (by omega)
  have hlt : fromBytes (encoded key.octets message digest) < _ := encoded_lt hk
  have hsplit : key.octets - 1 = key.octets - 2 + 1 := by omega
  rw [hsplit, pow_succ] at hlow
  omega

/-! ## What the operations return -/

theorem powMod_eq_ok (hn : 0 < n) (base exponent : ℕ) : powMod base exponent n = .ok (base ^ exponent % n) :=
  if_neg hn.ne'

theorem toBytes_eq_ok {value length : ℕ} (h : value < 256 ^ length) :
    toBytes value length = .ok (Sha256.bigEndian length value) :=
  if_neg (not_le.mpr h)

/-- Verification accepts the octets whose power is the encoded message, and raises nothing. -/
theorem rsaVerifyDigest_eq (hn : 0 < key.n) : rsaVerifyDigest message signature key digest =
    .ok (decide (signature.length = key.octets ∧ framing digest + 8 ≤ key.octets ∧
      fromBytes signature ^ key.e % key.n = fromBytes (encoded key.octets message digest))) := by
  have hlt : fromBytes signature ^ key.e % key.n < 256 ^ key.octets := (Nat.mod_lt _ hn).trans (lt_octets key)
  unfold rsaVerifyDigest
  dsimp only
  by_cases hlen : signature.length = key.octets
  · rw [if_neg (not_not.mpr hlen), powMod_eq_ok hn]
    show (toBytes _ _ >>= _) = _
    rw [toBytes_eq_ok hlt]
    show (if _ then _ else _) = _
    by_cases hframe : key.octets < framing digest + 8
    · rw [if_pos hframe, decide_eq_false fun h => absurd h.2.1 (not_le.mpr hframe)]
      rfl
    · have hem : Sha256.bigEndian key.octets (fromBytes signature ^ key.e % key.n) = encoded key.octets message digest ↔
          fromBytes signature ^ key.e % key.n = fromBytes (encoded key.octets message digest) := by
        constructor
        · intro h
          rw [← h, fromBytes_bigEndian hlt]
        · intro h
          have hwritten := bigEndian_fromBytes (encoded key.octets message digest)
          rw [encoded_length (by omega)] at hwritten
          rw [h, hwritten]
      rw [if_neg hframe]
      refine congrArg Except.ok (decide_eq_decide.mpr ?_)
      rw [hem]
      exact ⟨fun h => ⟨hlen, not_lt.mp hframe, h⟩, fun h => h.2.2⟩
  · rw [if_pos hlen, decide_eq_false fun h => hlen h.1]

/-- A signature is the power of the encoded message, written in the octets of the modulus. -/
theorem rsaSign_eq {d : ℕ} (hn : 0 < key.n) (hframe : framing .sha256 + 8 ≤ key.octets) : rsaSign message key.n d =
    .ok (Sha256.bigEndian key.octets (fromBytes (encoded key.octets message .sha256) ^ d % key.n)) := by
  have hlt : fromBytes (encoded key.octets message .sha256) ^ d % key.n < 256 ^ key.octets :=
    (Nat.mod_lt _ hn).trans (lt_octets key)
  show (if key.octets < framing .sha256 + 8 then _ else _) = _
  rw [if_neg (not_lt.mpr hframe)]
  show (powMod (fromBytes (encoded key.octets message .sha256)) d key.n >>= fun power => toBytes power key.octets) = _
  rw [powMod_eq_ok hn]
  exact toBytes_eq_ok hlt

/-! ## The round trip -/

variable {p q e d : ℕ}

/-- **For two different primes and inverse exponents, every message that is signed verifies under the public key,
verifying raises nothing whatever the signature is, and signing is refused exactly to moduli that are too short.** -/
theorem rsa_round_trip : ∀ (p q e d : ℕ) (message : Bytes), p.Prime → q.Prime → p ≠ q →
    e * d ≡ 1 [MOD Nat.lcm (p - 1) (q - 1)] →
      (∀ signature, rsaSign message (p * q) d = .ok signature →
        rsaVerifyDigest message signature ⟨p * q, e⟩ .sha256 = .ok true) ∧
      (∀ signature, ∃ accepted, rsaVerifyDigest message signature ⟨p * q, e⟩ .sha256 = .ok accepted) ∧
      ((∃ signature, rsaSign message (p * q) d = .ok signature) ↔ 62 ≤ (Nat.size (p * q) + 7) / 8) := by
  intro p q e d message hp hq hne hexp
  have hn : 0 < p * q := Nat.mul_pos hp.pos hq.pos
  have hrefused : ¬ 62 ≤ (Nat.size (p * q) + 7) / 8 → ∀ signature, rsaSign message (p * q) d ≠ .ok signature := by
    intro hshort signature hsign
    have hneeded : framing .sha256 + 8 = 62 := rfl
    unfold rsaSign at hsign
    dsimp only at hsign
    rw [hneeded, if_pos (not_le.mp hshort)] at hsign
    cases hsign
  have hsigned (hlong : 62 ≤ (Nat.size (p * q) + 7) / 8) : rsaSign message (PublicKey.n ⟨p * q, e⟩) d = .ok _ :=
    rsaSign_eq hn hlong
  refine ⟨fun signature hsign => ?_, fun signature => ⟨_, rsaVerifyDigest_eq hn⟩, fun ⟨signature, hsign⟩ => ?_,
    fun hlong => ⟨_, hsigned hlong⟩⟩
  · by_cases hlong : 62 ≤ (Nat.size (p * q) + 7) / 8
    · cases (hsigned hlong).symm.trans hsign
      have hem : fromBytes (encoded (PublicKey.octets ⟨p * q, e⟩) message .sha256) < p * q :=
        encoded_lt_modulus ((Nat.le_add_right _ 8).trans hlong)
      have hroot := pow_inverse hp hq hne hexp hem
      have hlt := (Nat.mod_lt (fromBytes (encoded (PublicKey.octets ⟨p * q, e⟩) message .sha256) ^ d) hn).trans
        (lt_octets ⟨p * q, e⟩)
      rw [rsaVerifyDigest_eq hn]
      refine congrArg Except.ok (decide_eq_true ⟨Sha256.bigEndian_length _ _, hlong, ?_⟩)
      rw [fromBytes_bigEndian hlt]
      exact hroot
    · exact absurd hsign (hrefused hlong signature)
  · by_contra hshort
    exact hrefused hshort signature hsign

/-- A Mersenne prime. -/
def samplePrime : ℕ := mersenne 521

theorem samplePrime_prime : samplePrime.Prime := lucas_lehmer_sufficiency 521 (by norm_num) (by norm_num)

/-- The inverse of 65537 to a modulus of that prime and three. -/
def sampleExponent : ℕ := 0x180807F7F80807F7F80807F7F80807F7F80807F7F80807F7F80807F7F80807F7F80807F7F80807F7F80807F7F80807F7F80807F7F80807F7F80807F7F80807F7F7F

theorem sampleExponent_inverse :
    samplePrime ≠ 3 ∧ 65537 * sampleExponent ≡ 1 [MOD Nat.lcm (samplePrime - 1) (3 - 1)] := by decide +kernel

theorem rsa_round_trip_sample :
    (∀ signature, rsaSign [] (samplePrime * 3) sampleExponent = .ok signature →
      rsaVerifyDigest [] signature ⟨samplePrime * 3, 65537⟩ .sha256 = .ok true) ∧
    (∀ signature, ∃ accepted, rsaVerifyDigest [] signature ⟨samplePrime * 3, 65537⟩ .sha256 = .ok accepted) ∧
    ((∃ signature, rsaSign [] (samplePrime * 3) sampleExponent = .ok signature) ↔
      62 ≤ (Nat.size (samplePrime * 3) + 7) / 8) :=
  rsa_round_trip samplePrime 3 65537 sampleExponent [] samplePrime_prime Nat.prime_three sampleExponent_inverse.1 sampleExponent_inverse.2

/-! ## Unique signatures -/

theorem pow_add_modulus (x e n : ℕ) : (x + n) ^ e % n = x ^ e % n := by
  rw [Nat.pow_mod, Nat.add_mod_right, ← Nat.pow_mod]

/-- Below the octets of the modulus a representative and its sum with the modulus are both accepted. -/
theorem rsaVerifyDigest_representatives (hn : 0 < key.n) (hframe : framing digest + 8 ≤ key.octets) {x : ℕ}
    (hx : x + key.n < 256 ^ key.octets)
    (hroot : x ^ key.e % key.n = fromBytes (encoded key.octets message digest)) :
    rsaVerifyDigest message (Sha256.bigEndian key.octets x) key digest = .ok true ∧
      rsaVerifyDigest message (Sha256.bigEndian key.octets (x + key.n)) key digest = .ok true := by
  rw [rsaVerifyDigest_eq hn, rsaVerifyDigest_eq hn, fromBytes_bigEndian hx,
    fromBytes_bigEndian ((Nat.le_add_right x key.n).trans_lt hx), pow_add_modulus]
  have haccepted : ∀ value, (Sha256.bigEndian key.octets value).length = key.octets ∧ framing digest + 8 ≤ key.octets ∧
      x ^ key.e % key.n = fromBytes (encoded key.octets message digest) :=
    fun value => ⟨Sha256.bigEndian_length _ value, hframe, hroot⟩
  exact ⟨congrArg Except.ok (decide_eq_true (haccepted x)), congrArg Except.ok (decide_eq_true (haccepted (x + key.n)))⟩

/-- What an accepted signature is: so many octets whose power is the encoded message. -/
theorem rsaVerifyDigest_accepted (h : rsaVerifyDigest message signature key digest = .ok true) :
    0 < key.n ∧ signature.length = key.octets ∧ framing digest + 8 ≤ key.octets ∧
      fromBytes signature ^ key.e % key.n = fromBytes (encoded key.octets message digest) := by
  by_cases hn : 0 < key.n
  · rw [rsaVerifyDigest_eq hn] at h
    exact ⟨hn, of_decide_eq_true (Except.ok.inj h)⟩
  · unfold rsaVerifyDigest at h
    dsimp only at h
    have hpow : powMod (fromBytes signature) key.e key.n = .error ⟨.valueError, "pow() 3rd argument cannot be 0", []⟩ :=
      if_pos (Nat.eq_zero_of_not_pos hn)
    rw [hpow] at h
    split_ifs at h
    · cases h
    · cases h
    · cases h

/-- **Under a key whose power map permutes the residues, a message has one accepted signature at most, and its
representative is a residue, exactly if the modulus is too short for the digest or no number that stays within the
octets of the modulus when the modulus is added to it has the encoded message as its power.** -/
theorem rsa_signature_unique : ∀ (key : PublicKey) (digest : DigestName) (message : Bytes),
    Set.BijOn (fun x => x ^ key.e % key.n) (Set.Iio key.n) (Set.Iio key.n) →
      (((∀ signature signature', rsaVerifyDigest message signature key digest = .ok true →
            rsaVerifyDigest message signature' key digest = .ok true → signature = signature') ∧
          ∀ signature, rsaVerifyDigest message signature key digest = .ok true → fromBytes signature < key.n) ↔
        key.octets < framing digest + 8 ∨
          ∀ x, x + key.n < 256 ^ key.octets → x ^ key.e % key.n ≠ fromBytes (encoded key.octets message digest)) := by
  intro key digest message hperm
  constructor
  · rintro ⟨-, hrange⟩
    by_contra hnot
    obtain ⟨hframe, hroots⟩ := not_or.mp hnot
    push Not at hroots
    obtain ⟨x, hx, hroot⟩ := hroots
    have hn : 0 < key.n := by
      by_contra hzero
      have hoctets : key.octets = 0 := by
        rw [PublicKey.octets, Nat.eq_zero_of_not_pos hzero]
        rfl
      omega
    have hboth := rsaVerifyDigest_representatives hn (not_lt.mp hframe) hx hroot
    have hlow := hrange _ hboth.2
    rw [fromBytes_bigEndian hx] at hlow
    omega
  · intro hcond
    have hrange : ∀ signature, rsaVerifyDigest message signature key digest = .ok true → fromBytes signature < key.n := by
      intro signature h
      obtain ⟨hn, hlen, hframe, hroot⟩ := rsaVerifyDigest_accepted h
      by_contra hhigh
      have hlt := fromBytes_lt signature
      rw [hlen] at hlt
      have hsum : fromBytes signature - key.n + key.n = fromBytes signature := Nat.sub_add_cancel (not_lt.mp hhigh)
      rcases hcond with hshort | hroots
      · omega
      · refine hroots (fromBytes signature - key.n) (by rwa [hsum]) ?_
        rw [← pow_add_modulus, hsum, hroot]
    refine ⟨fun signature signature' h h' => ?_, hrange⟩
    obtain ⟨-, hlen, -, hroot⟩ := rsaVerifyDigest_accepted h
    obtain ⟨-, hlen', -, hroot'⟩ := rsaVerifyDigest_accepted h'
    have hsame := hperm.injOn (hrange signature h) (hrange signature' h') (hroot.trans hroot'.symm)
    rw [← bigEndian_fromBytes signature, ← bigEndian_fromBytes signature', hlen, hlen', hsame]

def sampleKey : PublicKey := ⟨samplePrime * 3, 65537⟩

/-- An encoded message over SHA-256 fits the modulus, and one over SHA-512 does not. -/
theorem sampleKey_room :
    0 < sampleKey.n ∧ framing .sha256 + 8 ≤ sampleKey.octets ∧ sampleKey.n + sampleKey.n < 256 ^ sampleKey.octets ∧
      sampleKey.octets < framing .sha512 + 8 := by
  decide +kernel

theorem sampleKey_bijOn : Set.BijOn (fun x => x ^ sampleKey.e % sampleKey.n) (Set.Iio sampleKey.n) (Set.Iio sampleKey.n) :=
  pow_bijOn samplePrime_prime Nat.prime_three sampleExponent_inverse.1 sampleExponent_inverse.2

/-- SHA-512 does not fit a modulus of 66 octets: no signature is accepted. -/
theorem rsa_signature_unique_sample :
    (∀ signature signature', rsaVerifyDigest [] signature sampleKey .sha512 = .ok true →
        rsaVerifyDigest [] signature' sampleKey .sha512 = .ok true → signature = signature') ∧
      ∀ signature, rsaVerifyDigest [] signature sampleKey .sha512 = .ok true →
        fromBytes signature < sampleKey.n :=
  (rsa_signature_unique sampleKey .sha512 [] sampleKey_bijOn).mpr (.inl sampleKey_room.2.2.2)

/-- The signature of the empty message and its sum with the modulus, in the same octets. -/
theorem rsa_signature_not_unique : ¬ ∀ (key : PublicKey) (digest : DigestName) (message : Bytes),
    Set.BijOn (fun x => x ^ key.e % key.n) (Set.Iio key.n) (Set.Iio key.n) →
      ∀ signature signature', rsaVerifyDigest message signature key digest = .ok true →
        rsaVerifyDigest message signature' key digest = .ok true → signature = signature' := by
  intro h
  obtain ⟨hn, hframe, hroom, -⟩ := sampleKey_room
  have hem : fromBytes (encoded sampleKey.octets [] .sha256) < sampleKey.n := encoded_lt_modulus ((Nat.le_add_right _ 8).trans hframe)
  obtain ⟨x, hx, hroot⟩ := Set.BijOn.surjOn sampleKey_bijOn hem
  have hlt : x < sampleKey.n := hx
  obtain ⟨hfirst, hsecond⟩ : _ ∧ _ := rsaVerifyDigest_representatives hn hframe (by omega) hroot
  have hsame := congrArg fromBytes (h sampleKey .sha256 [] sampleKey_bijOn _ _ hfirst hsecond)
  rw [fromBytes_bigEndian (by omega), fromBytes_bigEndian (by omega)] at hsame
  omega

end OcorRuntime.Security
