import Mathlib.AlgebraicGeometry.EllipticCurve.Affine.Point
import Mathlib.Data.Int.GCD
import Mathlib.Tactic.NormNum.Prime
import OcorRuntime.Foundations.PrimeCertificates
import OcorRuntime.Security.GrantForms

/-! The P-256 arithmetic of the control plane (`security/control_plane.py`): affine
coordinates, with no coordinates for the point at infinity, and multiplication by doubling and
adding. It computes in the group of the curve. -/
namespace OcorRuntime.Security.P256
open WeierstrassCurve.Affine
set_option autoImplicit false
set_option maxHeartbeats 250000

/-! ## The domain parameters and the operations -/

def P : ℕ := 0xFFFFFFFF00000001000000000000000000000000FFFFFFFFFFFFFFFFFFFFFFFF
def A : ℕ := P - 3
def B : ℕ := 0x5AC635D8AA3A93E7B3EBBD55769886BC651D06B0CC53B0F63BCE3C3E27D2604B
def GX : ℤ := 0x6B17D1F2E12C4247F8BCE6E563A440F277037D812DEB33A0F4A13945D898C296
def GY : ℤ := 0x4FE342E2FE1A7F9B8EE7EB4A7C0F9E162BCE33576B315ECECBB6406837BF51F5
def N : ℕ := 0xFFFFFFFF00000000FFFFFFFFFFFFFFFFBCE6FAADA7179E84F3B9CAC2FC632551

/-- `pow(base, -1, modulus)`. -/
def inverseMod (base : ℤ) (modulus : ℕ) : Except PyError ℤ :=
  if Int.gcd base modulus = 1 then .ok (Int.gcdA base modulus % modulus)
  else .error ⟨.valueError, "base is not invertible for the given modulus", []⟩

abbrev Coordinates := Option (ℤ × ℤ)

/-- The slope of the line through two points, or of the tangent in one. -/
def slopeOf (x1 y1 x2 y2 : ℤ) : Except PyError ℤ := do
  if (x1, y1) = (x2, y2) then
    let inverse ← inverseMod (2 * y1) P
    return (3 * x1 * x1 + A) * inverse % P
  else
    let inverse ← inverseMod (x2 - x1) P
    return (y2 - y1) * inverse % P

/-- `_ec_point_add`. -/
def ecPointAdd : Coordinates → Coordinates → Except PyError Coordinates
  | none, p2 => .ok p2
  | some p1, none => .ok (some p1)
  | some (x1, y1), some (x2, y2) =>
    if x1 = x2 ∧ (y1 + y2) % P = 0 then .ok none
    else do
      let slope ← slopeOf x1 y1 x2 y2
      let x3 := (slope * slope - x1 - x2) % P
      let y3 := (slope * (x1 - x3) - y1) % P
      return some (x3, y3)

/-- The loop of `_ec_scalar_mult`. -/
def scalarLoop (k : ℕ) (result addend : Coordinates) : Except PyError Coordinates :=
  if k = 0 then .ok result
  else do
    let sum ← if k % 2 = 1 then ecPointAdd result addend else .ok result
    let double ← ecPointAdd addend addend
    scalarLoop (k / 2) sum double
termination_by k
decreasing_by omega

/-- `_ec_scalar_mult`. -/
def ecScalarMult (k : ℕ) (point : ℤ × ℤ) : Except PyError Coordinates := scalarLoop k none (some point)

/-! ## The two primes -/

/-- The primes below a thousand among the divisors. -/
def smallPrimes : List ℕ :=
  [2, 3, 5, 7, 11, 13, 17, 19, 23, 29, 31, 37, 41, 43, 53, 71, 97, 107, 127, 131, 151, 157, 173, 181, 197, 229, 241, 257,
    263, 311, 313, 337, 373, 641, 661, 727, 757, 919]

/-- Every prime with a base of full order and the factors of its predecessor. -/
def certificate : List PrimeCertificates.Step :=
  [⟨1531, 2, [2, 3, 3, 5, 17]⟩, ⟨65537, 3, [2, 2, 2, 2, 2, 2, 2, 2, 2, 2, 2, 2, 2, 2, 2, 2]⟩,
    ⟨490463, 14, [2, 7, 53, 661]⟩, ⟨17449, 14, [2, 2, 2, 3, 727]⟩, ⟨6700417, 5, [2, 2, 2, 2, 2, 2, 2, 3, 17449]⟩,
    ⟨2411, 6, [2, 5, 241]⟩, ⟨3769, 7, [2, 2, 2, 3, 157]⟩, ⟨204061199, 11, [2, 11, 23, 107, 3769]⟩,
    ⟨34282281433, 17, [2, 2, 2, 3, 7, 204061199]⟩, ⟨3677, 2, [2, 2, 919]⟩,
    ⟨66417393611, 6, [2, 5, 53, 173, 197, 3677]⟩, ⟨11290956913871, 13, [2, 5, 17, 66417393611]⟩,
    ⟨18169, 11, [2, 2, 2, 3, 757]⟩, ⟨1087, 3, [2, 3, 181]⟩, ⟨4349, 2, [2, 2, 1087]⟩, ⟨78283, 3, [2, 3, 3, 4349]⟩,
    ⟨704251, 2, [2, 3, 3, 5, 5, 5, 313]⟩, ⟨46076956964474543, 5, [2, 23, 18169, 78283, 704251]⟩,
    ⟨774023187263532362759620327192479577272145303, 3, [2, 3, 3, 2411, 34282281433, 11290956913871, 46076956964474543]⟩,
    ⟨835945042244614951780389953367877943453916927241, 11, [2, 2, 2, 3, 3, 3, 5,
      774023187263532362759620327192479577272145303]⟩,
    ⟨P, 6, [2, 3, 5, 5, 17, 257, 641, 1531, 65537, 490463, 6700417, 835945042244614951780389953367877943453916927241]⟩,
    ⟨3407, 5, [2, 13, 131]⟩, ⟨9547, 2, [2, 3, 37, 43]⟩, ⟨38189, 2, [2, 2, 9547]⟩, ⟨1201, 11, [2, 2, 2, 2, 3, 5, 5]⟩,
    ⟨9350987, 2, [2, 17, 229, 1201]⟩, ⟨187019741, 2, [2, 2, 5, 9350987]⟩, ⟨311245691, 2, [2, 5, 7, 17, 29, 29, 311]⟩,
    ⟨622491383, 5, [2, 311245691]⟩, ⟨126241, 7, [2, 2, 2, 2, 2, 3, 5, 263]⟩, ⟨104471, 11, [2, 5, 31, 337]⟩,
    ⟨3969899, 2, [2, 19, 104471]⟩, ⟨1002328039319, 19, [2, 126241, 3969899]⟩, ⟨1297, 10, [2, 2, 2, 2, 3, 3, 3, 3]⟩,
    ⟨16879, 3, [2, 3, 29, 97]⟩, ⟨1511, 11, [2, 5, 151]⟩, ⟨3023, 5, [2, 1511]⟩, ⟨155317, 5, [2, 2, 3, 7, 43, 43]⟩,
    ⟨191039911, 3, [2, 3, 5, 41, 155317]⟩, ⟨208150935158385979, 2, [2, 3, 11, 43, 127, 3023, 191039911]⟩,
    ⟨2624747550333869278416773953, 7, [2, 2, 2, 2, 2, 2, 3, 3, 1297, 16879, 208150935158385979]⟩,
    ⟨N, 7, [2, 2, 2, 2, 3, 71, 131, 373, 3407, 17449, 38189, 187019741, 622491383, 1002328039319,
      2624747550333869278416773953]⟩]

theorem smallPrimes_prime : ∀ q ∈ smallPrimes, q.Prime := by
  simp only [smallPrimes, List.forall_mem_cons, List.not_mem_nil, false_imp_iff, imp_true_iff, and_true]
  norm_num

theorem certificate_holds : PrimeCertificates.certifies smallPrimes certificate = true := by decide +kernel

theorem p_prime : P.Prime :=
  PrimeCertificates.prime_of_certifies smallPrimes_prime certificate_holds (s := certificate[20]) (List.getElem_mem _)

theorem n_prime : N.Prime :=
  PrimeCertificates.prime_of_certifies smallPrimes_prime certificate_holds (s := certificate[41]) (List.getElem_mem _)

instance : Fact P.Prime := ⟨p_prime⟩

instance : Fact N.Prime := ⟨n_prime⟩

/-! ## The curve -/

/-- `y² = x³ - 3x + b` over the field of `P` elements. -/
def curve : WeierstrassCurve.Affine (ZMod P) where
  a₁ := 0
  a₂ := 0
  a₃ := 0
  a₄ := -3
  a₆ := B

theorem natCast_a : (A : ZMod P) = -3 := by
  have hnat : A + 3 = P := by decide
  have hsum : (A : ZMod P) + ((3 : ℕ) : ZMod P) = ((P : ℕ) : ZMod P) := by rw [← Nat.cast_add, hnat]
  rw [ZMod.natCast_self] at hsum
  exact eq_neg_of_add_eq_zero_left hsum

theorem intCast_ne_zero {n : ℤ} (h : ¬ (P : ℤ) ∣ n) : (n : ZMod P) ≠ 0 := by
  rwa [ne_eq, ZMod.intCast_zmod_eq_zero_iff_dvd]

theorem curve_discriminant : curve.Δ ≠ 0 := by
  have hΔ : curve.Δ = ((1728 - 432 * (B : ℤ) ^ 2 : ℤ) : ZMod P) := by
    simp only [WeierstrassCurve.Δ, WeierstrassCurve.b₂, WeierstrassCurve.b₄, WeierstrassCurve.b₆, WeierstrassCurve.b₈, curve]
    push_cast
    ring
  rw [hΔ]
  exact intCast_ne_zero (by decide)

/-- The coordinates of a point of the curve. -/
structure CurvePoint where
  x : ℤ
  y : ℤ
  x_range : 0 ≤ x ∧ x < P
  y_range : 0 ≤ y ∧ y < P
  onCurve : y ^ 2 % P = (x ^ 3 - 3 * x + B) % P

namespace CurvePoint

def coordinates (R : CurvePoint) : Coordinates := some (R.x, R.y)

end CurvePoint

theorem equation_iff (x y : ℤ) : curve.Equation (x : ZMod P) (y : ZMod P) ↔ y ^ 2 % P = (x ^ 3 - 3 * x + B) % P := by
  rw [WeierstrassCurve.Affine.equation_iff, ← Int.ModEq, ← ZMod.intCast_eq_intCast_iff]
  simp only [curve]
  push_cast
  constructor
  · intro h
    linear_combination h
  · intro h
    linear_combination h

theorem nonsingular {x y : ℤ} (h : y ^ 2 % P = (x ^ 3 - 3 * x + B) % P) : curve.Nonsingular (x : ZMod P) (y : ZMod P) :=
  (equation_iff_nonsingular_of_Δ_ne_zero curve_discriminant).mp ((equation_iff x y).mpr h)

/-- The point of the group with these coordinates. -/
def CurvePoint.toPoint (R : CurvePoint) : curve.Point := .some _ _ (nonsingular R.onCurve)

/-- The coordinates of a point; the point at infinity has none. -/
inductive Represents : Coordinates → curve.Point → Prop
  | infinity : Represents none 0
  | point (R : CurvePoint) : Represents R.coordinates R.toPoint

theorem p_pos : (0 : ℤ) < P := Int.natCast_pos.mpr (Nat.Prime.pos p_prime)

theorem represents_mod {x y : ℤ} {X Y : ZMod P} (h : curve.Nonsingular X Y) (hx : (x : ZMod P) = X)
    (hy : (y : ZMod P) = Y) : Represents (some (x % P, y % P)) (.some X Y h) := by
  subst hx hy
  have hmodx : ((x % P : ℤ) : ZMod P) = x := ZMod.intCast_mod x P
  have hmody : ((y % P : ℤ) : ZMod P) = y := ZMod.intCast_mod y P
  have hequation : curve.Equation ((x % P : ℤ) : ZMod P) ((y % P : ℤ) : ZMod P) := by
    rw [hmodx, hmody]
    exact h.1
  let R : CurvePoint := {
    x := x % P
    y := y % P
    x_range := ⟨Int.emod_nonneg x (ne_of_gt p_pos), Int.emod_lt_of_pos x p_pos⟩
    y_range := ⟨Int.emod_nonneg y (ne_of_gt p_pos), Int.emod_lt_of_pos y p_pos⟩
    onCurve := (equation_iff _ _).mp hequation }
  have hsame : R.toPoint = .some _ _ h := by
    simp only [CurvePoint.toPoint, R, hmodx, hmody]
  rw [← hsame]
  exact .point R

/-! ## Addition -/

theorem inverseMod_eq_ok {m : ℕ} [Fact m.Prime] {a : ℤ} (ha : (a : ZMod m) ≠ 0) :
    ∃ b, inverseMod a m = .ok b ∧ (b : ZMod m) = (a : ZMod m)⁻¹ := by
  have hgcd : Int.gcd a m = 1 := by
    rw [Int.gcd_comm]
    refine (Nat.Prime.coprime_iff_not_dvd (p := m) Fact.out).mpr fun hdvd => ha ?_
    exact (ZMod.intCast_zmod_eq_zero_iff_dvd a m).mpr (Int.natCast_dvd.mpr hdvd)
  refine ⟨_, if_pos hgcd, ?_⟩
  have hbezout := Int.gcd_eq_gcd_ab a m
  rw [hgcd] at hbezout
  have hcast := congrArg (Int.cast : ℤ → ZMod m) hbezout
  push_cast at hcast
  rw [ZMod.natCast_self, zero_mul, add_zero] at hcast
  rw [ZMod.intCast_mod]
  exact eq_inv_of_mul_eq_one_right hcast.symm

theorem intCast_injOn {x y : ℤ} (hx : 0 ≤ x ∧ x < P) (hy : 0 ≤ y ∧ y < P) (h : (x : ZMod P) = y) : x = y := by
  have hmod := (ZMod.intCast_eq_intCast_iff x y P).mp h
  rwa [Int.ModEq, Int.emod_eq_of_lt hx.1 hx.2, Int.emod_eq_of_lt hy.1 hy.2] at hmod

theorem negY_eq (x y : ZMod P) : curve.negY x y = -y := by
  simp [WeierstrassCurve.Affine.negY, curve]

theorem opposite_iff (R S : CurvePoint) : ((R.x : ZMod P) = S.x ∧ (R.y : ZMod P) = curve.negY S.x S.y) ↔
    R.x = S.x ∧ (R.y + S.y) % P = 0 := by
  rw [negY_eq, eq_neg_iff_add_eq_zero, ← Int.cast_add, ZMod.intCast_zmod_eq_zero_iff_dvd, Int.dvd_iff_emod_eq_zero]
  exact and_congr_left' ⟨intCast_injOn R.x_range S.x_range, congrArg _⟩

/-- Away from opposite points the slope is found, and it is the slope of the group law. -/
theorem slopeOf_eq_ok {R S : CurvePoint} (h : ¬ (R.x = S.x ∧ (R.y + S.y) % P = 0)) :
    ∃ slope, slopeOf R.x R.y S.x S.y = .ok slope ∧ (slope : ZMod P) = curve.slope R.x S.x R.y S.y := by
  have hopposite := mt (opposite_iff R S).mp h
  by_cases hx : R.x = S.x
  · -- the second coordinates agree, since they are not opposite
    have hcast : (R.x : ZMod P) = S.x := congrArg _ hx
    have hyne : (R.y : ZMod P) ≠ curve.negY S.x S.y := fun hy => hopposite ⟨hcast, hy⟩
    have hy := Y_eq_of_Y_ne ((equation_iff _ _).mpr R.onCurve) ((equation_iff _ _).mpr S.onCurve) hcast hyne
    have hsame : R.y = S.y := intCast_injOn R.y_range S.y_range hy
    have hdouble : ((2 * R.y : ℤ) : ZMod P) ≠ 0 := by
      intro hzero
      refine hyne ?_
      rw [negY_eq, eq_neg_iff_add_eq_zero, ← hy, ← two_mul]
      exact_mod_cast hzero
    obtain ⟨inverse, hinverse, hvalue⟩ := inverseMod_eq_ok hdouble
    refine ⟨(3 * R.x * R.x + A) * inverse % P, ?_, ?_⟩
    · rw [slopeOf, if_pos (by rw [hx, hsame]), hinverse]
      rfl
    · rw [slope_of_Y_ne hcast hyne, ZMod.intCast_mod, negY_eq]
      push_cast
      rw [hvalue, natCast_a, div_eq_mul_inv]
      simp only [curve]
      push_cast
      ring_nf
  · have hne : ((S.x - R.x : ℤ) : ZMod P) ≠ 0 := by
      rw [Int.cast_sub, sub_ne_zero]
      exact fun heq => hx (intCast_injOn S.x_range R.x_range heq).symm
    obtain ⟨inverse, hinverse, hvalue⟩ := inverseMod_eq_ok hne
    refine ⟨(S.y - R.y) * inverse % P, ?_, ?_⟩
    · rw [slopeOf, if_neg (fun heq => hx (Prod.mk.inj heq).1), hinverse]
      rfl
    · have hcast : (R.x : ZMod P) ≠ S.x := fun heq => hx (intCast_injOn R.x_range S.x_range heq)
      rw [slope_of_X_ne hcast, ZMod.intCast_mod]
      push_cast
      rw [hvalue, Int.cast_sub, ← neg_sub (R.y : ZMod P), ← neg_sub (R.x : ZMod P), div_eq_mul_inv, inv_neg, neg_mul_neg]

theorem ecPointAdd_represents {p1 p2 : Coordinates} {Q1 Q2 : curve.Point} (h1 : Represents p1 Q1)
    (h2 : Represents p2 Q2) : ∃ p3, ecPointAdd p1 p2 = .ok p3 ∧ Represents p3 (Q1 + Q2) := by
  cases h1 with
  | infinity =>
    rw [zero_add]
    exact ⟨p2, by cases p2 <;> rfl, h2⟩
  | point R =>
    cases h2 with
    | infinity =>
      rw [add_zero]
      exact ⟨_, rfl, .point R⟩
    | point S =>
      by_cases hopposite : R.x = S.x ∧ (R.y + S.y) % P = 0
      · have hpoints := (opposite_iff R S).mpr hopposite
        refine ⟨none, if_pos hopposite, ?_⟩
        rw [CurvePoint.toPoint, CurvePoint.toPoint, Point.add_of_Y_eq hpoints.1 hpoints.2]
        exact .infinity
      · obtain ⟨slope, hslope, hvalue⟩ := slopeOf_eq_ok hopposite
        have hadd : Point.some _ _ (nonsingular R.onCurve) + Point.some _ _ (nonsingular S.onCurve) = _ :=
          Point.add_some (mt (opposite_iff R S).mp hopposite)
        refine ⟨some ((slope * slope - R.x - S.x) % P, (slope * (R.x - (slope * slope - R.x - S.x) % P) - R.y) % P), ?_, ?_⟩
        · show (if _ then _ else slopeOf R.x R.y S.x S.y >>= _) = _
          rw [if_neg hopposite, hslope]
          rfl
        · rw [CurvePoint.toPoint, CurvePoint.toPoint, hadd]
          -- the third point, reduced step by step as the code does
          have hx : (((slope * slope - R.x - S.x : ℤ)) : ZMod P) = curve.addX R.x S.x (curve.slope R.x S.x R.y S.y) := by
            rw [← hvalue]
            simp only [addX, curve]
            push_cast
            ring
          have hy : (((slope * (R.x - (slope * slope - R.x - S.x) % P) - R.y : ℤ)) : ZMod P) =
              curve.addY R.x S.x R.y (curve.slope R.x S.x R.y S.y) := by
            rw [Int.cast_sub, Int.cast_mul, Int.cast_sub, ZMod.intCast_mod, hx, ← hvalue]
            simp only [addY, negAddY, negY_eq]
            ring
          exact represents_mod _ hx hy

/-! ## Multiplication -/

theorem scalarLoop_represents (k : ℕ) : ∀ {result addend : Coordinates} {S Q : curve.Point}, Represents result S →
    Represents addend Q → ∃ c, scalarLoop k result addend = .ok c ∧ Represents c (S + k • Q) := by
  induction k using Nat.strong_induction_on with
  | _ k ih =>
    intro result addend S Q hresult haddend
    rw [scalarLoop]
    by_cases hk : k = 0
    · rw [if_pos hk, hk, zero_nsmul, add_zero]
      exact ⟨result, rfl, hresult⟩
    · rw [if_neg hk]
      obtain ⟨double, hdouble, hQ⟩ := ecPointAdd_represents haddend haddend
      have hhalf : k / 2 < k := by omega
      by_cases hodd : k % 2 = 1
      · obtain ⟨sum, hsum, hS⟩ := ecPointAdd_represents hresult haddend
        obtain ⟨c, hc, hvalue⟩ := ih (k / 2) hhalf hS hQ
        refine ⟨c, ?_, ?_⟩
        · rw [if_pos hodd, hsum, hdouble]
          exact hc
        · have hbits : k / 2 * 2 + 1 = k := by omega
          rw [← two_nsmul, ← mul_nsmul', add_assoc, ← succ_nsmul', hbits] at hvalue
          exact hvalue
      · obtain ⟨c, hc, hvalue⟩ := ih (k / 2) hhalf hresult hQ
        refine ⟨c, ?_, ?_⟩
        · rw [if_neg hodd, hdouble]
          exact hc
        · have hbits : k / 2 * 2 = k := by omega
          rw [← two_nsmul, ← mul_nsmul', hbits] at hvalue
          exact hvalue

/-- The generator. -/
def G : CurvePoint where
  x := GX
  y := GY
  x_range := by decide
  y_range := by decide
  onCurve := by decide

/-- **Multiplying coordinates multiplies the point, for every scalar and every point of the curve.** -/
theorem ecScalarMult_represents (k : ℕ) (R : CurvePoint) :
    ∃ c, ecScalarMult k (R.x, R.y) = .ok c ∧ Represents c (k • R.toPoint) := by
  have h := scalarLoop_represents k .infinity (.point R)
  rwa [zero_add] at h

/-! ## The order of the generator

The multiple is evaluated in coordinates `X / Z²`, `Y / Z³`, which need no inverses. -/

structure Weighted where
  X : ℤ
  Y : ℤ
  Z : ℤ

def Weighted.double (p : Weighted) : Weighted :=
  let s := 4 * p.X * p.Y ^ 2 % (P : ℤ)
  let m := 3 * (p.X ^ 2 - p.Z ^ 4) % (P : ℤ)
  let x := (m ^ 2 - 2 * s) % (P : ℤ)
  ⟨x, (m * (s - x) - 8 * p.Y ^ 4) % (P : ℤ), 2 * p.Y * p.Z % (P : ℤ)⟩

def Weighted.rise (p : Weighted) : ℤ := (GX * p.Z ^ 2 - p.X) % (P : ℤ)

/-- The generator is added. -/
def Weighted.addG (p : Weighted) : Weighted :=
  let h := p.rise
  let r := (GY * p.Z ^ 3 - p.Y) % (P : ℤ)
  let x := (r ^ 2 - h ^ 3 - 2 * p.X * h ^ 2) % (P : ℤ)
  ⟨x, (r * (p.X * h ^ 2 - x) - p.Y * h ^ 3) % (P : ℤ), h * p.Z % (P : ℤ)⟩

/-- The multiple of the generator with these further binary digits, unless a tangent or a secant is vertical. -/
def ladder : List Bool → Weighted → Option Weighted
  | [], p => some p
  | digit :: digits, p =>
    if p.Y % P = 0 then none
    else if digit then
      if p.double.rise = 0 then none else ladder digits p.double.addG
    else ladder digits p.double

def digitsOf (n : ℕ) : List Bool := n.bits.reverse.tail

/-- The weighted coordinates of a point. -/
def Weighted.Of (p : Weighted) (Q : curve.Point) : Prop :=
  ∃ x y h, Q = .some x y h ∧ (p.Z : ZMod P) ≠ 0 ∧ (p.X : ZMod P) = x * p.Z ^ 2 ∧ (p.Y : ZMod P) = y * p.Z ^ 3

theorem intCast_of_emod {n : ℤ} : (n : ZMod P) = 0 ↔ n % P = 0 := by
  rw [ZMod.intCast_zmod_eq_zero_iff_dvd, Int.dvd_iff_emod_eq_zero]

theorem addX_eq (x₁ x₂ L : ZMod P) : curve.addX x₁ x₂ L = L ^ 2 - x₁ - x₂ := by
  simp [addX, curve]

theorem addY_eq (x₁ x₂ y₁ L : ZMod P) : curve.addY x₁ x₂ y₁ L = L * (x₁ - (L ^ 2 - x₁ - x₂)) - y₁ := by
  rw [addY, negY_eq, negAddY, addX_eq]
  ring

theorem Weighted.Of.double {p : Weighted} {Q : curve.Point} (h : p.Of Q) (hY : p.Y % P ≠ 0) : p.double.Of (Q + Q) := by
  obtain ⟨x, y, hpoint, rfl, hZ, hX, hYeq⟩ := h
  have hY' : (p.Y : ZMod P) ≠ 0 := mt intCast_of_emod.1 hY
  have hy : y ≠ 0 := by
    rintro rfl
    exact hY' (by rw [hYeq, zero_mul])
  have htwo : (2 : ZMod P) ≠ 0 := by
    have := intCast_ne_zero (n := 2) (by decide)
    exact_mod_cast this
  have hne : y ≠ curve.negY x y := by
    rw [negY_eq]
    intro heq
    have htwice : 2 * y = 0 := (two_mul y).trans (eq_neg_iff_add_eq_zero.mp heq)
    exact hy ((mul_eq_zero.mp htwice).resolve_left htwo)
  have hslope : curve.slope x x y y * (2 * y) = 3 * x ^ 2 - 3 := by
    rw [slope_of_Y_ne rfl hne, negY_eq, sub_neg_eq_add, ← two_mul, div_mul_cancel₀ _ (mul_ne_zero htwo hy)]
    simp only [curve]
    ring
  have hadd : Point.some x y hpoint + Point.some x y hpoint = _ := Point.add_some fun hxy => hne hxy.2
  have hm : (3 * ((p.X : ZMod P) ^ 2 - (p.Z : ZMod P) ^ 4)) = 2 * y * curve.slope x x y y * p.Z ^ 4 := by
    rw [hX]
    linear_combination -(p.Z : ZMod P) ^ 4 * hslope
  refine ⟨_, _, _, hadd, ?_, ?_, ?_⟩
  · simp only [Weighted.double, ZMod.intCast_mod]
    push_cast
    exact mul_ne_zero (mul_ne_zero htwo hY') hZ
  · simp only [Weighted.double, ZMod.intCast_mod, addX_eq]
    push_cast [ZMod.intCast_mod]
    rw [hm, hX, hYeq]
    ring
  · simp only [Weighted.double, ZMod.intCast_mod, addY_eq]
    push_cast [ZMod.intCast_mod]
    rw [hm, hX, hYeq]
    ring

theorem Weighted.Of.addG {p : Weighted} {Q : curve.Point} (h : p.Of Q) (hrise : p.rise ≠ 0) : p.addG.Of (Q + G.toPoint) := by
  obtain ⟨x, y, hpoint, rfl, hZ, hX, hYeq⟩ := h
  have hh : (p.rise : ZMod P) = (GX - x) * p.Z ^ 2 := by
    rw [Weighted.rise, ZMod.intCast_mod]
    push_cast
    rw [hX]
    ring
  have hh' : (p.rise : ZMod P) ≠ 0 := by
    intro hzero
    rw [intCast_of_emod, Weighted.rise, Int.emod_emod] at hzero
    exact hrise hzero
  have hne : x ≠ (GX : ZMod P) := by
    rintro rfl
    exact hh' (by rw [hh, sub_self, zero_mul])
  have hslope : curve.slope x GX y GY * (GX - x) = GY - y := by
    rw [slope_of_X_ne hne, ← neg_sub x, ← neg_sub y, mul_neg, div_mul_cancel₀ _ (sub_ne_zero.mpr hne)]
  have hadd : Point.some x y hpoint + G.toPoint = .some (curve.addX x GX (curve.slope x GX y GY)) (curve.addY x GX y (curve.slope x GX y GY)) _ :=
    Point.add_some fun hxy => hne hxy.1
  have hr : (GY : ZMod P) * p.Z ^ 3 - p.Y = curve.slope x GX y GY * (GX - x) * p.Z ^ 3 := by
    rw [hYeq]
    linear_combination -(p.Z : ZMod P) ^ 3 * hslope
  refine ⟨_, _, _, hadd, ?_, ?_, ?_⟩
  · simp only [Weighted.addG, ZMod.intCast_mod]
    push_cast
    exact mul_ne_zero hh' hZ
  · simp only [Weighted.addG, ZMod.intCast_mod, addX_eq]
    push_cast [ZMod.intCast_mod]
    rw [hr, hh, hX]
    ring
  · simp only [Weighted.addG, ZMod.intCast_mod, addY_eq]
    push_cast [ZMod.intCast_mod]
    rw [hr, hh, hX, hYeq]
    ring


/-- The number with these further binary digits. -/
def numberOf (n : ℕ) (digits : List Bool) : ℕ := digits.foldl (fun n digit => 2 * n + digit.toNat) n

theorem ladder_of : ∀ {digits : List Bool} {p q : Weighted} {n : ℕ}, ladder digits p = some q → p.Of (n • G.toPoint) →
    q.Of (numberOf n digits • G.toPoint)
  | [], _, _, _, h, hp => by
    cases h
    exact hp
  | digit :: digits, p, q, n, h, hp => by
    rw [ladder] at h
    split_ifs at h with hY hdigit hrise
    · have hsum := (hp.double hY).addG hrise
      rw [← two_nsmul, ← mul_nsmul', ← succ_nsmul] at hsum
      rw [hdigit]
      exact @ladder_of digits _ _ _ h hsum
    · have hsum := hp.double hY
      rw [← two_nsmul, ← mul_nsmul'] at hsum
      rw [Bool.not_eq_true] at hdigit
      rw [hdigit]
      exact @ladder_of digits _ _ _ h hsum

theorem ladder_opposite : ∃ q, ladder (digitsOf (N - 1)) ⟨GX, GY, 1⟩ = some q ∧
    (GX * q.Z ^ 2 - q.X) % P = 0 ∧ (GY * q.Z ^ 3 + q.Y) % P = 0 := by
  have hany : (ladder (digitsOf (N - 1)) ⟨GX, GY, 1⟩).any (fun q =>
      decide ((GX * q.Z ^ 2 - q.X) % P = 0 ∧ (GY * q.Z ^ 3 + q.Y) % P = 0)) = true := by decide +kernel
  obtain ⟨q, hq, hopposite⟩ := (Option.any_eq_true _ _).mp hany
  exact ⟨q, hq, of_decide_eq_true hopposite⟩

theorem numberOf_digits : numberOf 1 (digitsOf (N - 1)) = N - 1 := by decide +kernel

theorem order_annihilates : N • G.toPoint = 0 := by
  obtain ⟨q, hq, hx, hy⟩ := ladder_opposite
  have hstart : (⟨GX, GY, 1⟩ : Weighted).Of (1 • G.toPoint) :=
    ⟨GX, GY, nonsingular G.onCurve, one_nsmul _, by simp, by simp, by simp⟩
  have hmultiple := ladder_of hq hstart
  rw [numberOf_digits] at hmultiple
  obtain ⟨x, y, hpoint, hvalue, hZ, hX, hY⟩ := hmultiple
  have hxG : (GX : ZMod P) = x := by
    have h := intCast_of_emod.2 hx
    push_cast at h
    rw [hX, ← sub_mul] at h
    exact sub_eq_zero.mp ((mul_eq_zero.mp h).resolve_right (pow_ne_zero 2 hZ))
  have hyG : (GY : ZMod P) = -y := by
    have h := intCast_of_emod.2 hy
    push_cast at h
    rw [hY, ← add_mul] at h
    exact eq_neg_of_add_eq_zero_left ((mul_eq_zero.mp h).resolve_right (pow_ne_zero 3 hZ))
  have hsum : Point.some x y hpoint + G.toPoint = 0 := by
    refine Point.add_of_Y_eq hxG.symm ?_
    rw [negY_eq]
    exact (neg_eq_iff_eq_neg.mpr hyG).symm
  rw [← Nat.sub_add_cancel (show 1 ≤ N by decide), succ_nsmul, hvalue, hsum]

theorem generator_order : addOrderOf G.toPoint = N := addOrderOf_eq_prime order_annihilates (Point.some_ne_zero _)

end OcorRuntime.Security.P256
