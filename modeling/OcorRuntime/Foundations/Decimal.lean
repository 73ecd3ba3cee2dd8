import Mathlib.Algebra.Order.Field.Basic
import Mathlib.Algebra.Order.Field.Power
import Mathlib.Data.Rat.Cast.Order
import Mathlib.Tactic.FieldSimp
import Mathlib.Tactic.Linarith
import Mathlib.Tactic.NormNum
import Mathlib.Tactic.Positivity
import OcorRuntime.Foundations.Numbers

/-! Reading decimals back. Rounding to binary64 depends on the ratio alone, and seventeen
significant digits read back as the value they were taken from. -/
namespace OcorRuntime
set_option autoImplicit false
set_option maxHeartbeats 250000

namespace Binary64

/-! ## Ratios -/

theorem scale_pos {base p q : ℕ} {e : ℤ} (hb : 0 < base) (hq : 0 < q) : 0 < (scale base p q e).2 := by
  unfold scale
  split_ifs
  · exact Nat.mul_pos hq (Nat.pow_pos hb)
  · exact hq

theorem scale_ratio {base p q : ℕ} (e : ℤ) (hb : 0 < base) :
    ((scale base p q e).1 : ℚ) / (scale base p q e).2 = (p : ℚ) / q / (base : ℚ) ^ e := by
  have hbase : (base : ℚ) ≠ 0 := by positivity
  unfold scale
  split_ifs with h
  · obtain ⟨n, rfl⟩ := Int.eq_ofNat_of_zero_le h
    simp only [Int.toNat_natCast, zpow_natCast]
    push_cast
    rw [div_div]
  · obtain ⟨n, hn⟩ := Int.eq_ofNat_of_zero_le (show 0 ≤ -e by omega)
    rw [show e = -(n : ℤ) by omega, neg_neg, Int.toNat_natCast, zpow_neg, zpow_natCast, div_inv_eq_mul]
    push_cast
    ring

theorem scale_le_iff {base p q : ℕ} {e : ℤ} (hb : 0 < base) (hq : 0 < q) :
    (scale base p q e).2 ≤ (scale base p q e).1 ↔ (base : ℚ) ^ e ≤ (p : ℚ) / q := by
  have hpos : (0 : ℚ) < (scale base p q e).2 := by exact_mod_cast scale_pos hb hq
  have hbase : (0 : ℚ) < (base : ℚ) ^ e := by positivity
  have hratio := scale_ratio (p := p) (q := q) e hb
  rw [← Nat.cast_le (α := ℚ), ← one_le_div hpos, hratio, one_le_div hbase]

/-- `leading` is the exponent of the greatest power of the base below the ratio. -/
theorem leading_spec {base p q : ℕ} (hb : 1 < base) (hp : 0 < p) (hq : 0 < q) :
    (base : ℚ) ^ leading base p q ≤ (p : ℚ) / q ∧ (p : ℚ) / q < (base : ℚ) ^ (leading base p q + 1) := by
  have hb0 : (0 : ℚ) < base := by positivity
  have hqpos : (0 : ℚ) < q := by positivity
  have hplow : ((base : ℚ) ^ (Nat.log base p : ℤ)) ≤ p := by
    rw [zpow_natCast]
    exact_mod_cast Nat.pow_log_le_self base hp.ne'
  have hphigh : (p : ℚ) < (base : ℚ) ^ ((Nat.log base p : ℤ) + 1) := by
    exact_mod_cast Nat.lt_pow_succ_log_self hb p
  have hqlow : ((base : ℚ) ^ (Nat.log base q : ℤ)) ≤ q := by
    rw [zpow_natCast]
    exact_mod_cast Nat.pow_log_le_self base hq.ne'
  have hqhigh : (q : ℚ) < (base : ℚ) ^ ((Nat.log base q : ℤ) + 1) := by
    exact_mod_cast Nat.lt_pow_succ_log_self hb q
  unfold leading
  dsimp only
  split_ifs with h
  · refine ⟨(scale_le_iff (by omega) hq).mp h, ?_⟩
    rw [div_lt_iff₀ hqpos]
    calc (p : ℚ) < (base : ℚ) ^ ((Nat.log base p : ℤ) + 1) := hphigh
      _ = (base : ℚ) ^ ((Nat.log base p : ℤ) - Nat.log base q + 1) * (base : ℚ) ^ (Nat.log base q : ℤ) := by
          rw [← zpow_add₀ hb0.ne']
          congr 1
          omega
      _ ≤ (base : ℚ) ^ ((Nat.log base p : ℤ) - Nat.log base q + 1) * q := by gcongr
  · rw [scale_le_iff (by omega) hq, not_le] at h
    refine ⟨?_, by rwa [sub_add_cancel]⟩
    rw [le_div_iff₀ hqpos]
    calc (base : ℚ) ^ ((Nat.log base p : ℤ) - Nat.log base q - 1) * q
        ≤ (base : ℚ) ^ ((Nat.log base p : ℤ) - Nat.log base q - 1) * (base : ℚ) ^ ((Nat.log base q : ℤ) + 1) := by gcongr
      _ = (base : ℚ) ^ (Nat.log base p : ℤ) := by
          rw [← zpow_add₀ hb0.ne']
          congr 1
          omega
      _ ≤ p := hplow

theorem leading_congr {base p q p' q' : ℕ} (hb : 1 < base) (hp : 0 < p) (hq : 0 < q) (hp' : 0 < p') (hq' : 0 < q')
    (h : p * q' = p' * q) : leading base p q = leading base p' q' := by
  have hratio : (p : ℚ) / q = (p' : ℚ) / q' := by
    rw [div_eq_div_iff (by positivity) (by positivity)]
    exact_mod_cast h
  have hbase : (1 : ℚ) < base := by exact_mod_cast hb
  obtain ⟨hlow, hhigh⟩ := leading_spec hb hp hq
  obtain ⟨hlow', hhigh'⟩ := leading_spec hb hp' hq'
  rw [← hratio] at hlow' hhigh'
  have h1 := (zpow_lt_zpow_iff_right₀ hbase).mp (lt_of_le_of_lt hlow hhigh')
  have h2 := (zpow_lt_zpow_iff_right₀ hbase).mp (lt_of_le_of_lt hlow' hhigh)
  omega

theorem roundHalfEven_mul {p q c : ℕ} (hc : 0 < c) : roundHalfEven (c * p) (c * q) = roundHalfEven p q := by
  unfold roundHalfEven
  simp only [Nat.mul_div_mul_left _ _ hc, Nat.mul_mod_mul_left]
  have hless : 2 * (c * (p % q)) < c * q ↔ 2 * (p % q) < q := by
    rw [Nat.mul_left_comm]
    exact Nat.mul_lt_mul_left hc
  have hmore : c * q < 2 * (c * (p % q)) ↔ q < 2 * (p % q) := by
    rw [Nat.mul_left_comm]
    exact Nat.mul_lt_mul_left hc
  simp only [hless, hmore]

theorem roundHalfEven_congr {p q p' q' : ℕ} (hq : 0 < q) (hq' : 0 < q') (h : p * q' = p' * q) :
    roundHalfEven p q = roundHalfEven p' q' := by
  rw [← roundHalfEven_mul hq', ← roundHalfEven_mul (p := p') hq, Nat.mul_comm q' p, h, Nat.mul_comm p' q,
    Nat.mul_comm q' q]

theorem scale_congr {base p q p' q' : ℕ} (e : ℤ) (hb : 0 < base) (hq : 0 < q) (hq' : 0 < q') (h : p * q' = p' * q) :
    (scale base p q e).1 * (scale base p' q' e).2 = (scale base p' q' e).1 * (scale base p q e).2 := by
  have hratio : (p : ℚ) / q = (p' : ℚ) / q' := by
    rw [div_eq_div_iff (by positivity) (by positivity)]
    exact_mod_cast h
  have hpos : (0 : ℚ) < (scale base p q e).2 := by exact_mod_cast scale_pos hb hq
  have hpos' : (0 : ℚ) < (scale base p' q' e).2 := by exact_mod_cast scale_pos hb hq'
  have hs := scale_ratio (p := p) (q := q) e hb
  rw [hratio, ← scale_ratio e hb, div_eq_div_iff hpos.ne' hpos'.ne'] at hs
  exact_mod_cast hs

theorem ofRatio_congr (neg : Bool) {p q p' q' : ℕ} (hq : 0 < q) (hq' : 0 < q') (h : p * q' = p' * q) :
    ofRatio neg p q = ofRatio neg p' q' := by
  by_cases hp : p = 0
  · subst hp
    have hp' : p' = 0 := by
      rw [Nat.zero_mul] at h
      exact (Nat.mul_eq_zero.mp h.symm).resolve_right hq.ne'
    subst hp'
    rfl
  · have hp' : p' ≠ 0 := by
      rintro rfl
      rw [Nat.zero_mul] at h
      exact (Nat.mul_eq_zero.mp h).elim hp hq'.ne'
    have hlead := leading_congr (show 1 < 2 by omega) (by omega) hq (by omega) hq' h
    unfold ofRatio
    simp only [if_neg hp, if_neg hp', hlead]
    rw [roundHalfEven_congr (scale_pos (by omega) hq) (scale_pos (by omega) hq') (scale_congr _ (by omega) hq hq' h)]

/-! ## Rounding to a nearby mantissa -/

theorem roundHalfEven_near {p q m : ℕ} (hlow : 2 * (m * q) < 2 * p + q) (hhigh : 2 * p < 2 * (m * q) + q) :
    roundHalfEven p q = m := by
  have hq : 0 < q := by omega
  unfold roundHalfEven
  dsimp only
  have hdiv := Nat.div_add_mod' p q
  have hmod := Nat.mod_lt p hq
  by_cases hside : m * q ≤ p
  · have hfloor : p / q = m := by
      refine Nat.div_eq_of_lt_le hside ?_
      rw [Nat.succ_mul]
      omega
    rw [hfloor] at hdiv ⊢
    rw [if_pos (by omega)]
  · obtain ⟨k, rfl⟩ : ∃ k, m = k + 1 := by
      refine ⟨m - 1, ?_⟩
      have : m ≠ 0 := by
        rintro rfl
        simp at hside
      omega
    rw [Nat.add_one_mul k q] at hside hlow hhigh
    have hfloor : p / q = k := by
      refine Nat.div_eq_of_lt_le (by omega) ?_
      rw [Nat.succ_mul]
      omega
    rw [hfloor] at hdiv ⊢
    rw [if_neg (by omega), if_pos (by omega)]

theorem roundHalfEven_dist {p q : ℕ} (hq : 0 < q) :
    2 * p ≤ 2 * (roundHalfEven p q * q) + q ∧ 2 * (roundHalfEven p q * q) ≤ 2 * p + q := by
  have hdiv := Nat.div_add_mod' p q
  have hmod := Nat.mod_lt p hq
  unfold roundHalfEven
  dsimp only
  split_ifs <;> simp only [Nat.succ_mul] <;> omega

theorem leading_eq {base p q : ℕ} {e : ℤ} (hb : 1 < base) (hp : 0 < p) (hq : 0 < q)
    (hlow : (base : ℚ) ^ e ≤ (p : ℚ) / q) (hhigh : (p : ℚ) / q < (base : ℚ) ^ (e + 1)) : leading base p q = e := by
  have hbase : (1 : ℚ) < base := by exact_mod_cast hb
  obtain ⟨hlow', hhigh'⟩ := leading_spec hb hp hq
  have h1 := (zpow_lt_zpow_iff_right₀ hbase).mp (lt_of_le_of_lt hlow hhigh')
  have h2 := (zpow_lt_zpow_iff_right₀ hbase).mp (lt_of_le_of_lt hlow' hhigh)
  omega

theorem roundHalfEven_of_lt {p q m : ℕ} (hq : 0 < q) (hlow : (m : ℚ) - 1 / 2 < (p : ℚ) / q)
    (hhigh : (p : ℚ) / q < (m : ℚ) + 1 / 2) : roundHalfEven p q = m := by
  have hqpos : (0 : ℚ) < q := by exact_mod_cast hq
  rw [lt_div_iff₀ hqpos] at hlow
  rw [div_lt_iff₀ hqpos] at hhigh
  apply roundHalfEven_near
  · have h : (2 : ℚ) * (m * q) < 2 * p + q := by linarith
    exact_mod_cast h
  · have h : (2 : ℚ) * p < 2 * (m * q) + q := by linarith
    exact_mod_cast h

theorem roundHalfEven_error {p q : ℕ} (hq : 0 < q) :
    |(roundHalfEven p q : ℚ) - (p : ℚ) / q| ≤ 1 / 2 := by
  have hqpos : (0 : ℚ) < q := by exact_mod_cast hq
  obtain ⟨h1, h2⟩ := roundHalfEven_dist (p := p) hq
  have h1' : (2 : ℚ) * p ≤ 2 * (roundHalfEven p q * q) + q := by exact_mod_cast h1
  have h2' : (2 : ℚ) * (roundHalfEven p q * q) ≤ 2 * p + q := by exact_mod_cast h2
  rw [abs_le]
  constructor
  · rw [neg_le_sub_iff_le_add, div_le_iff₀ hqpos]
    linarith
  · rw [sub_le_iff_le_add', ← sub_le_iff_le_add, le_div_iff₀ hqpos]
    linarith

end Binary64

namespace FiniteFloat
open Binary64

/-- The absolute value. -/
def magnitude (x : FiniteFloat) : ℚ := x.mantissa * (2 : ℚ) ^ x.exponent

theorem ratio_pos (x : FiniteFloat) : 0 < x.ratio.2 := scale_pos (by omega) (by omega)

theorem ratio_eq_magnitude (x : FiniteFloat) : (x.ratio.1 : ℚ) / x.ratio.2 = x.magnitude := by
  unfold ratio
  rw [scale_ratio _ (by omega), Nat.cast_one, div_one, zpow_neg, div_inv_eq_mul]
  rfl

end FiniteFloat

namespace Binary64
open FiniteFloat

theorem ofParts_self (x : FiniteFloat) : ofParts x.neg x.mantissa x.exponent = .finite x := by
  unfold ofParts
  rw [dif_pos x.canonical]

theorem zpow_two_shift (n : ℕ) (e : ℤ) : (2 : ℚ) ^ ((n : ℤ) + e) = 2 ^ n * (2 : ℚ) ^ e := by
  rw [zpow_add₀ (by norm_num), zpow_natCast]

/-- Rounding at the exponent of `x` a ratio within half a unit of it gives its mantissa. -/
theorem round_scale_near {x : FiniteFloat} {p q : ℕ} (hq : 0 < q)
    (hlow : x.magnitude - (2 : ℚ) ^ x.exponent / 2 < (p : ℚ) / q)
    (hhigh : (p : ℚ) / q < x.magnitude + (2 : ℚ) ^ x.exponent / 2) :
    roundHalfEven (scale 2 p q x.exponent).1 (scale 2 p q x.exponent).2 = x.mantissa := by
  have hunit : (0 : ℚ) < (2 : ℚ) ^ x.exponent := by positivity
  have hscale := scale_ratio (p := p) (q := q) x.exponent (show 0 < 2 by omega)
  rw [Nat.cast_ofNat] at hscale
  unfold magnitude at hlow hhigh
  refine roundHalfEven_of_lt (scale_pos (by omega) hq) ?_ ?_
  · rw [hscale, lt_div_iff₀ hunit]
    linarith
  · rw [hscale, div_lt_iff₀ hunit]
    linarith

/-- A ratio within half a unit of `x`, or a quarter below a power of two, rounds to `x`. -/
theorem ofRatio_near {x : FiniteFloat} (hx : ¬ x.IsZero) {p q : ℕ} (hq : 0 < q)
    (hlow : x.magnitude - (2 : ℚ) ^ x.exponent / 2 < (p : ℚ) / q)
    (hhigh : (p : ℚ) / q < x.magnitude + (2 : ℚ) ^ x.exponent / 2)
    (hedge : x.mantissa = 2 ^ 52 → x.magnitude - (2 : ℚ) ^ x.exponent / 4 < (p : ℚ) / q) :
    ofRatio x.neg p q = .finite x := by
  obtain ⟨hm, hemin, hemax, hnormal⟩ := x.canonical
  have hunit : (0 : ℚ) < (2 : ℚ) ^ x.exponent := by positivity
  have hmpos : (1 : ℚ) ≤ x.mantissa := by exact_mod_cast Nat.one_le_iff_ne_zero.mpr hx
  have hmtop : (x.mantissa : ℚ) + 1 ≤ 2 ^ 53 := by exact_mod_cast hm
  have hround := round_scale_near hq hlow hhigh
  have hself := ofParts_self x
  unfold magnitude at hlow hhigh hedge
  have hpos : (0 : ℚ) < (p : ℚ) / q := by nlinarith
  have hp : 0 < p := by
    rcases Nat.eq_zero_or_pos p with rfl | hp
    · simp at hpos
    · exact hp
  have htop : (p : ℚ) / q < (2 : ℚ) ^ ((52 : ℕ) + x.exponent + 1) := by
    rw [show ((52 : ℕ) : ℤ) + x.exponent + 1 = ((53 : ℕ) : ℤ) + x.exponent by push_cast; ring, zpow_two_shift]
    nlinarith
  -- the exponent the rounding picks is that of `x`, except just below a power of two
  have hsame : max (-1074) (leading 2 p q - 52) = x.exponent → ofRatio x.neg p q = .finite x := by
    intro he
    unfold ofRatio
    simp only [if_neg hp.ne', he, hround]
    rw [if_neg hm.ne, hself]
  by_cases hside : (2 : ℚ) ^ ((52 : ℕ) + x.exponent) ≤ (p : ℚ) / q
  · have hlead : leading 2 p q = (52 : ℕ) + x.exponent := leading_eq (by omega) hp hq hside htop
    exact hsame (by omega)
  · rw [not_le] at hside
    by_cases hbottom : x.exponent = -1074
    · have hlead := (leading_spec (show 1 < 2 by omega) hp hq).1
      have hlt := (zpow_lt_zpow_iff_right₀ (show (1 : ℚ) < 2 by norm_num)).mp (lt_of_le_of_lt hlead hside)
      exact hsame (by omega)
    · rw [zpow_two_shift] at hside
      have hm52 : x.mantissa = 2 ^ 52 := by
        have hge := hnormal.resolve_right hbottom
        have hlt : (x.mantissa : ℚ) < 2 ^ 52 + 1 := by nlinarith
        have hlt' : x.mantissa < 2 ^ 52 + 1 := by exact_mod_cast hlt
        omega
      have hedge := hedge hm52
      have hhalf : (2 : ℚ) ^ x.exponent = 2 * (2 : ℚ) ^ (x.exponent - 1) := by
        rw [zpow_sub_one₀ (by norm_num)]
        ring
      have hlead : leading 2 p q = (52 : ℕ) + (x.exponent - 1) := by
        apply leading_eq (by omega) hp hq
        · rw [Nat.cast_ofNat, zpow_two_shift]
          rw [hm52, hhalf] at hedge
          push_cast at hedge
          have hsmall : (0 : ℚ) < (2 : ℚ) ^ (x.exponent - 1) := by positivity
          linarith
        · rw [Nat.cast_ofNat, show ((52 : ℕ) : ℤ) + (x.exponent - 1) + 1 = ((52 : ℕ) : ℤ) + x.exponent by ring,
            zpow_two_shift]
          exact hside
      have he : max (-1074) (leading 2 p q - 52) = x.exponent - 1 := by omega
      have hsmall : (0 : ℚ) < (2 : ℚ) ^ (x.exponent - 1) := by positivity
      have hup : roundHalfEven (scale 2 p q (x.exponent - 1)).1 (scale 2 p q (x.exponent - 1)).2 = 2 ^ 53 := by
        have hscale := scale_ratio (p := p) (q := q) (x.exponent - 1) (show 0 < 2 by omega)
        rw [Nat.cast_ofNat] at hscale
        rw [hm52, hhalf] at hedge
        rw [hhalf] at hside
        push_cast at hedge
        refine roundHalfEven_of_lt (scale_pos (by omega) hq) ?_ ?_
        · rw [hscale, lt_div_iff₀ hsmall]
          push_cast
          linarith
        · rw [hscale, div_lt_iff₀ hsmall]
          push_cast
          linarith
      unfold ofRatio
      simp only [if_neg hp.ne', he, hup, if_true, sub_add_cancel]
      rw [← hm52, hself]

theorem ofDecimal_ratio (d : ℕ) (e : ℤ) :
    ((scale 10 d 1 (-e)).1 : ℚ) / (scale 10 d 1 (-e)).2 = d * (10 : ℚ) ^ e := by
  rw [scale_ratio _ (by omega), Nat.cast_one, div_one, zpow_neg, div_inv_eq_mul]
  norm_num

end Binary64

/-! ## Seventeen digits -/

namespace FiniteFloat
open Binary64

theorem normal_of_large {x : FiniteFloat} {n : ℕ} (hx : x.ratio.1 = n * x.ratio.2) (hn : 2 ^ 53 ≤ n) :
    2 ^ 52 ≤ x.mantissa := by
  obtain ⟨hmantissa, -, -, hnormal⟩ := x.canonical
  refine hnormal.resolve_right fun hbottom => ?_
  have hpow : 0 < 2 ^ (-x.exponent).toNat := Nat.pow_pos (by omega)
  have hle := Nat.le_mul_of_pos_right n hpow
  unfold ratio scale at hx
  rw [if_pos (by omega)] at hx
  simp only [Nat.one_mul] at hx
  omega

theorem magnitude_pos {x : FiniteFloat} (hx : ¬ x.IsZero) : 0 < x.magnitude := by
  have hmpos : (1 : ℚ) ≤ x.mantissa := by exact_mod_cast Nat.one_le_iff_ne_zero.mpr hx
  have hunit : (0 : ℚ) < (2 : ℚ) ^ x.exponent := by positivity
  exact mul_pos (by linarith) hunit

theorem decimalOf_seventeen {x : FiniteFloat} (hx : ¬ x.IsZero) : (x.decimalOf 17).isSome := by
  have hmag := magnitude_pos hx
  have hratio := ratio_eq_magnitude x
  have hpos := ratio_pos x
  have hnum : 0 < x.ratio.1 := by
    rcases Nat.eq_zero_or_pos x.ratio.1 with h | h
    · rw [h, Nat.cast_zero, zero_div] at hratio
      exact absurd hratio hmag.ne
    · exact h
  obtain ⟨e, he⟩ : ∃ e, e = leading 10 x.ratio.1 x.ratio.2 - (17 : ℕ) + 1 := ⟨_, rfl⟩
  obtain ⟨d, hd⟩ : ∃ d, d = roundHalfEven (scale 10 x.ratio.1 x.ratio.2 e).1 (scale 10 x.ratio.1 x.ratio.2 e).2 :=
    ⟨_, rfl⟩
  have hten : (0 : ℚ) < (10 : ℚ) ^ e := by positivity
  have herror := roundHalfEven_error (p := (scale 10 x.ratio.1 x.ratio.2 e).1)
    (scale_pos (p := x.ratio.1) (e := e) (show 0 < 10 by omega) hpos)
  rw [← hd, scale_ratio e (by omega), hratio, abs_le, Nat.cast_ofNat] at herror
  have hlow : (d : ℚ) * 10 ^ e ≤ x.magnitude + 10 ^ e / 2 := by
    have h := herror.2
    rw [sub_le_iff_le_add', ← sub_le_iff_le_add, le_div_iff₀ hten] at h
    linarith
  have hhigh : x.magnitude - 10 ^ e / 2 ≤ (d : ℚ) * 10 ^ e := by
    have h := herror.1
    rw [neg_le_sub_iff_le_add, div_le_iff₀ hten] at h
    linarith
  have hlead : (10 : ℚ) ^ 16 * (10 : ℚ) ^ e ≤ x.magnitude := by
    have h := (leading_spec (show 1 < 10 by omega) hnum hpos).1
    rw [hratio, Nat.cast_ofNat, show leading 10 x.ratio.1 x.ratio.2 = ((16 : ℕ) : ℤ) + e by omega,
      zpow_add₀ (by norm_num), zpow_natCast] at h
    exact h
  have hunit : (0 : ℚ) < (2 : ℚ) ^ x.exponent := by positivity
  have htop : (x.mantissa : ℚ) + 1 ≤ 2 ^ 53 := by exact_mod_cast x.canonical.1
  have hmagtop : x.magnitude < 2 ^ 53 * (2 : ℚ) ^ x.exponent := by
    unfold magnitude
    nlinarith
  have hread : ofDecimal x.neg d e = .finite x := by
    have hval := ofDecimal_ratio d e
    refine ofRatio_near hx (scale_pos (by omega) (by omega)) ?_ ?_ ?_
    · rw [hval]
      linarith
    · rw [hval]
      linarith
    · intro hedge
      have hmagedge : x.magnitude = 2 ^ 52 * (2 : ℚ) ^ x.exponent := by
        unfold magnitude
        rw [hedge]
        norm_num
      rw [hval]
      linarith
  unfold decimalOf
  dsimp only
  rw [← he, ← hd]
  simp [hread]

theorem ofDecimal_shortest {x : FiniteFloat} (hx : ¬ x.IsZero) :
    ofDecimal x.neg x.shortest.1 x.shortest.2 = .finite x := by
  have hsome : ((List.range 17).findSome? fun n => x.decimalOf (n + 1)).isSome := by
    rw [List.findSome?_isSome_iff]
    exact ⟨16, by simp, decimalOf_seventeen hx⟩
  obtain ⟨⟨d, e⟩, hde⟩ := Option.isSome_iff_exists.mp hsome
  obtain ⟨i, -, hi⟩ := List.exists_of_findSome?_eq_some hde
  have hshortest : x.shortest = (d, e) := by
    unfold shortest
    rw [hde]
    rfl
  rw [hshortest]
  unfold decimalOf at hi
  dsimp only at hi
  obtain ⟨d', hfind, heq⟩ := Option.map_eq_some_iff.mp hi
  have hreads := List.find?_some hfind
  cases heq
  simpa using hreads

end FiniteFloat
end OcorRuntime
