import OcorRuntime.Security.Der
import OcorRuntime.Security.EllipticCurve
import OcorRuntime.Security.Pkcs1

/-! ECDSA verification over P-256 (`security/control_plane.py`), and the signatures it must
accept: the ones the signing equation makes with the private key, written in DER. -/
namespace OcorRuntime.Security.P256
set_option autoImplicit false
set_option maxHeartbeats 250000

/-! ## Verifying -/

/-- The leftmost bits of the digest, as many as the order of the generator has. -/
def messageScalar (digest : DigestName) (message : Bytes) : ℕ :=
  let value := digest.hash message
  fromBytes value >>> (value.length * 8 - Nat.size N)

/-- The arithmetic of `_ecdsa_verify`, with the numbers of the signature and of the digest. -/
def ecdsaCheck (r s z : ℕ) (qx qy : ℤ) : Except PyError Bool := do
  let w ← inverseMod s N
  let u1 := z * w % N
  let u2 := r * w % N
  let base ← ecScalarMult u1.toNat (GX, GY)
  let key ← ecScalarMult u2.toNat (qx, qy)
  let point ← ecPointAdd base key
  match point with
  | none => return false
  | some (x, _) => return decide (x % N = r)

/-- `_ecdsa_verify`. -/
def ecdsaVerify (message signatureDer : Bytes) (qx qy : ℤ) (digest : DigestName) : Except PyError Bool := do
  let sequence ← tlv signatureDer 0
  if sequence.tag ≠ 0x30 then return false
  else
    let first ← tlv signatureDer sequence.start
    let second ← tlv signatureDer first.stop
    if second.stop ≠ sequence.stop then return false
    else
      let r := fromBytes (first.content signatureDer)
      let s := fromBytes (second.content signatureDer)
      if ¬ ((1 ≤ r ∧ r < N) ∧ (1 ≤ s ∧ s < N)) then return false
      else ecdsaCheck r s (messageScalar digest message) qx qy

/-! ## Signatures -/

/-- A natural number as a DER INTEGER: the fewest octets whose first bit is zero. -/
def derInteger (n : ℕ) : Bytes :=
  byte 0x02 :: byte (Nat.size n / 8 + 1) :: Sha256.bigEndian (Nat.size n / 8 + 1) n

/-- The DER SEQUENCE of two INTEGERs. -/
def derSignature (r s : ℕ) : Bytes :=
  byte 0x30 :: byte (derInteger r ++ derInteger s).length :: (derInteger r ++ derInteger s)

/-- The signing equation, with a private key and a nonce: `r` is the first coordinate of the nonce's point, and
`s` times the nonce is the digest plus `r` times the key. -/
structure EcdsaSigned (digest : DigestName) (message : Bytes) (d nonce r s : ℕ) : Prop where
  key_range : 0 < d ∧ d < N
  nonce_range : 0 < nonce ∧ nonce < N
  r_eq : ∃ R : CurvePoint, R.toPoint = nonce • G.toPoint ∧ (r : ℤ) = R.x % N
  s_eq : (s : ZMod N) = (nonce : ZMod N)⁻¹ * (messageScalar digest message + r * d)
  r_pos : 0 < r
  s_range : 0 < s ∧ s < N

/-! ## Elements in short form -/

theorem tlv_short {data pre rest : Bytes} {tag len : ℕ} (hdata : data = pre ++ byte tag :: byte len :: rest)
    (htag : tag < 256) (hlen : len < 0x80) :
    tlv data pre.length = .ok ⟨tag, len, pre.length + 2, pre.length + 2 + len⟩ := by
  have hfirst : octet data pre.length = .ok tag := by
    rw [octet, hdata, List.getElem?_append_right le_rfl, Nat.sub_self]
    exact congrArg Except.ok (byte_val tag htag)
  have hsecond : octet data (pre.length + 1) = .ok len := by
    rw [octet, hdata, List.getElem?_append_right (Nat.le_add_right _ _), Nat.add_sub_cancel_left]
    exact congrArg Except.ok (byte_val len (by omega))
  have hshort : ¬ (len &&& 0x80 ≠ 0) := by
    have hall : ∀ len < 0x80, ¬ (len &&& 0x80 ≠ 0) := by decide
    exact hall len hlen
  rw [tlv, hfirst, hsecond]
  show (if len &&& 0x80 ≠ 0 then _ else _) = _
  rw [if_neg hshort]
  rfl

theorem slice_middle (pre body rest : Bytes) {stop : ℕ} (hstop : stop = pre.length + body.length) :
    slice (pre ++ body ++ rest) pre.length stop = body := by
  rw [slice, hstop, ← List.length_append, List.take_left, List.drop_left]

/-- An INTEGER below the order is read back where it stands, and the next element stands behind it. -/
theorem tlv_derInteger {data pre rest : Bytes} {n : ℕ} (hdata : data = pre ++ derInteger n ++ rest) (hn : n < N) :
    ∃ element, tlv data pre.length = .ok element ∧ element.stop = pre.length + (derInteger n).length ∧
      fromBytes (element.content data) = n := by
  set k := Nat.size n / 8 + 1 with hk
  set body := Sha256.bigEndian k n with hbody
  have hlength : body.length = k := Sha256.bigEndian_length k n
  have hsize : Nat.size n ≤ 256 := Nat.size_le.2 (hn.trans (by decide))
  have hshape : derInteger n = byte 0x02 :: byte k :: body := rfl
  have hparts : data = pre ++ byte 0x02 :: byte k :: (body ++ rest) := by
    rw [hdata, hshape, List.append_assoc]
    rfl
  have hread := tlv_short hparts (by norm_num) (by omega)
  refine ⟨_, hread, ?_, ?_⟩
  · rw [hshape, List.length_cons, List.length_cons, hlength]
    show pre.length + 2 + k = _
    omega
  · have hcontent : Tlv.content data ⟨0x02, k, pre.length + 2, pre.length + 2 + k⟩ = body := by
      have hparts : data = pre ++ [byte 0x02, byte k] ++ body ++ rest := by
        rw [hdata, hshape]
        simp only [List.append_assoc, List.cons_append, List.nil_append]
      have hstop : pre.length + 2 + k = (pre ++ [byte 0x02, byte k]).length + body.length := by
        rw [List.length_append, hlength]
        rfl
      have hslice := slice_middle (pre ++ [byte 0x02, byte k]) body rest hstop
      rw [List.length_append] at hslice
      rw [Tlv.content, hparts]
      exact hslice
    have hvalue : n < 256 ^ k := by
      refine (Nat.lt_size_self n).trans_le ?_
      rw [show (256 : ℕ) = 2 ^ 8 from rfl, ← pow_mul]
      exact Nat.pow_le_pow_right (by norm_num) (by omega)
    rw [hcontent, hbody, fromBytes_bigEndian hvalue]

theorem derInteger_length {n : ℕ} (hn : n < N) : (derInteger n).length ≤ 35 := by
  have hsize : Nat.size n ≤ 256 := Nat.size_le.2 (hn.trans (by decide))
  rw [derInteger, List.length_cons, List.length_cons, Sha256.bigEndian_length]
  omega

theorem ecdsaVerify_derSignature (message : Bytes) {r s : ℕ} (hr : 0 < r ∧ r < N) (hs : 0 < s ∧ s < N) (qx qy : ℤ)
    (digest : DigestName) : ecdsaVerify message (derSignature r s) qx qy digest =
      ecdsaCheck r s (messageScalar digest message) qx qy := by
  set body := derInteger r ++ derInteger s with hbody
  have hlong : body.length < 0x80 := by
    have hfirst := derInteger_length hr.2
    have hsecond := derInteger_length hs.2
    rw [hbody, List.length_append]
    omega
  have hsequence : tlv (derSignature r s) 0 = .ok ⟨0x30, body.length, 2, 2 + body.length⟩ :=
    tlv_short (show derSignature r s = [] ++ byte 0x30 :: byte body.length :: body from rfl) (by norm_num) hlong
  have hparts : derSignature r s = [byte 0x30, byte body.length] ++ derInteger r ++ derInteger s := rfl
  obtain ⟨first, hfirst, hstop, hread⟩ := tlv_derInteger hparts hr.2
  obtain ⟨second, hsecond, hstop', hread'⟩ := tlv_derInteger (hparts.trans (List.append_nil _).symm) hs.2
  have hnext : ([byte 0x30, byte body.length] ++ derInteger r).length = first.stop := by
    rw [hstop, List.length_append]
  have hend : second.stop = 2 + body.length := by
    rw [hstop', List.length_append, hbody, List.length_append, Nat.add_assoc]
    rfl
  rw [hnext] at hsecond
  rw [ecdsaVerify, hsequence]
  show (if (0x30 : ℕ) ≠ 0x30 then (.ok false : Except PyError Bool) else _) = _
  rw [if_neg (not_not.mpr rfl)]
  show (tlv _ [byte 0x30, byte body.length].length >>= _) = _
  rw [hfirst]
  show (tlv _ first.stop >>= _) = _
  rw [hsecond]
  show (if second.stop ≠ 2 + body.length then _ else _) = _
  rw [if_neg (not_not.mpr hend)]
  show (if ¬ ((1 ≤ fromBytes _ ∧ fromBytes _ < N) ∧ (1 ≤ fromBytes _ ∧ fromBytes _ < N)) then _ else _) = _
  rw [hread, hread', if_neg (not_not.mpr ⟨hr, hs⟩)]

/-! ## Accepting what the signing equation makes -/

theorem CurvePoint.toPoint_injective : Function.Injective CurvePoint.toPoint := by
  rintro ⟨x, y, hx, hy, hcurve⟩ ⟨x', y', hx', hy', hcurve'⟩ h
  obtain ⟨hxx, hyy⟩ := WeierstrassCurve.Affine.Point.some.inj h
  cases intCast_injOn hx hx' hxx
  cases intCast_injOn hy hy' hyy
  rfl

theorem Represents.eq_coordinates {c : Coordinates} {Q : curve.Point} (h : Represents c Q) {R : CurvePoint}
    (hQ : R.toPoint = Q) : c = R.coordinates := by
  cases h with
  | infinity => exact absurd hQ (WeierstrassCurve.Affine.Point.some_ne_zero _)
  | point S => rw [CurvePoint.toPoint_injective hQ]

variable {digest : DigestName} {message : Bytes} {d nonce r s : ℕ}

theorem EcdsaSigned.r_range (h : EcdsaSigned digest message d nonce r s) : 0 < r ∧ r < N := by
  obtain ⟨R, -, hr⟩ := h.r_eq
  have hlt := Int.emod_lt_of_pos R.x (Int.natCast_pos.mpr (Nat.Prime.pos n_prime))
  rw [← hr] at hlt
  exact ⟨h.r_pos, by exact_mod_cast hlt⟩

theorem natCast_ne_zero {n : ℕ} (h : 0 < n ∧ n < N) : (n : ZMod N) ≠ 0 := by
  rw [ne_eq, ZMod.natCast_eq_zero_iff]
  exact fun hdvd => absurd (Nat.le_of_dvd h.1 hdvd) (not_le.mpr h.2)

theorem EcdsaSigned.scalars (h : EcdsaSigned digest message d nonce r s) {w : ℤ} (hw : (w : ZMod N) = (s : ZMod N)⁻¹) :
    (messageScalar digest message * w % N : ℤ).toNat + (r * w % N : ℤ).toNat * d ≡ nonce [MOD N] := by
  have hn : (N : ℤ) ≠ 0 := Int.natCast_ne_zero.2 (Nat.Prime.ne_zero n_prime)
  have hcast (a : ℤ) : ((a % N).toNat : ZMod N) = a := by
    rw [← Int.cast_natCast, Int.toNat_of_nonneg (Int.emod_nonneg a hn), ZMod.intCast_mod]
  have hs := natCast_ne_zero h.s_range
  have hnonce := natCast_ne_zero h.nonce_range
  have hsum : (messageScalar digest message : ZMod N) + r * d = nonce * s := by
    rw [h.s_eq, mul_inv_cancel_left₀ hnonce]
  rw [← ZMod.natCast_eq_natCast_iff, Nat.cast_add, Nat.cast_mul, hcast, hcast]
  push_cast
  rw [hw]
  calc (messageScalar digest message : ZMod N) * (s : ZMod N)⁻¹ + r * (s : ZMod N)⁻¹ * d
      = (messageScalar digest message + r * d) * (s : ZMod N)⁻¹ := by ring
    _ = nonce := by rw [hsum, mul_inv_cancel_right₀ hs]

theorem EcdsaSigned.accepted (h : EcdsaSigned digest message d nonce r s) {K : CurvePoint}
    (hK : K.toPoint = d • G.toPoint) : ecdsaCheck r s (messageScalar digest message) K.x K.y = .ok true := by
  obtain ⟨R, hR, hr⟩ := h.r_eq
  have hs : ((s : ℤ) : ZMod N) ≠ 0 := by exact_mod_cast natCast_ne_zero h.s_range
  obtain ⟨w, hw, hvalue⟩ := inverseMod_eq_ok hs
  rw [Int.cast_natCast] at hvalue
  obtain ⟨base, hbase, hbaseQ⟩ := ecScalarMult_represents (messageScalar digest message * w % N : ℤ).toNat G
  obtain ⟨key, hkey, hkeyQ⟩ := ecScalarMult_represents (r * w % N : ℤ).toNat K
  obtain ⟨point, hpoint, hpointQ⟩ := ecPointAdd_represents hbaseQ hkeyQ
  have hscalars : (messageScalar digest message * w % N : ℤ).toNat • G.toPoint + (r * w % N : ℤ).toNat • K.toPoint =
      nonce • G.toPoint := by
    rw [hK, ← mul_nsmul', ← add_nsmul]
    refine (nsmul_eq_nsmul_iff_modEq).mpr ?_
    rw [generator_order]
    exact h.scalars hvalue
  rw [hscalars] at hpointQ
  cases hpointQ.eq_coordinates hR
  have hbase' : ecScalarMult (messageScalar digest message * w % N : ℤ).toNat (GX, GY) = .ok base := hbase
  rw [ecdsaCheck, hw]
  show (ecScalarMult (messageScalar digest message * w % N : ℤ).toNat (GX, GY) >>= _) = _
  rw [hbase']
  show (ecScalarMult (r * w % N : ℤ).toNat (K.x, K.y) >>= _) = _
  rw [hkey]
  show (ecPointAdd base key >>= _) = _
  rw [hpoint]
  exact congrArg Except.ok (decide_eq_true hr.symm)

/-- **Every multiple of every point of the curve is found without a failure and is the multiple in the group of the
curve, and every signature that the signing equation makes with a private key verifies under its public key.** -/
theorem p256_computes_in_the_group :
    (∀ (k : ℕ) (R : CurvePoint), ∃ c, ecScalarMult k (R.x, R.y) = .ok c ∧ Represents c (k • R.toPoint)) ∧
    ∀ (digest : DigestName) (message : Bytes) (d nonce r s : ℕ) (K : CurvePoint), K.toPoint = d • G.toPoint →
      EcdsaSigned digest message d nonce r s →
        ecdsaVerify message (derSignature r s) K.x K.y digest = .ok true := by
  refine ⟨ecScalarMult_represents, fun digest message d nonce r s K hK h => ?_⟩
  rw [ecdsaVerify_derSignature message h.r_range h.s_range]
  exact h.accepted hK

/-- The signature of the empty message with the key one and the nonce one. -/
def sampleS : ℕ := (messageScalar .sha256 [] + (GX % N).toNat) % N

theorem sample_signed : EcdsaSigned .sha256 [] 1 1 (GX % N).toNat sampleS where
  key_range := by decide
  nonce_range := by decide
  r_eq := ⟨G, (one_nsmul _).symm, by decide⟩
  s_eq := by
    rw [sampleS, ZMod.natCast_mod, Nat.cast_one, inv_one, one_mul, mul_one, Nat.cast_add]
  r_pos := by decide
  s_range := by decide +kernel

theorem p256_computes_in_the_group_sample :
    (∃ c, ecScalarMult 5 (GX, GY) = .ok c ∧ Represents c (5 • G.toPoint)) ∧
      ecdsaVerify [] (derSignature (GX % N).toNat sampleS) GX GY .sha256 = .ok true :=
  ⟨p256_computes_in_the_group.1 5 G, p256_computes_in_the_group.2 .sha256 [] 1 1 _ _ G (one_nsmul _).symm sample_signed⟩

end OcorRuntime.Security.P256
