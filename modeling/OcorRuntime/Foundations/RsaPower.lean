import Mathlib.Data.Nat.ChineseRemainder
import Mathlib.FieldTheory.Finite.Basic

/-! Powers modulo a product of two primes: an exponent that is one modulo the least common
multiple of the two orders changes nothing, also where the base shares a factor with the
modulus. -/
namespace OcorRuntime
set_option autoImplicit false
set_option maxHeartbeats 250000

variable {p q e d : ℕ}

/-- An exponent that is one modulo `p - 1` changes nothing modulo `p`. -/
theorem pow_modEq_self (hp : p.Prime) {k : ℕ} (hk : k ≡ 1 [MOD p - 1]) (hpos : 1 ≤ k) (x : ℕ) : x ^ k ≡ x [MOD p] := by
  obtain ⟨t, ht⟩ := (Nat.modEq_iff_dvd' hpos).mp hk.symm
  have hsplit : k = 1 + (p - 1) * t := by omega
  rw [← ZMod.natCast_eq_natCast_iff, hsplit]
  have := Fact.mk hp
  push_cast
  rw [pow_add, pow_one, pow_mul]
  by_cases hx : (x : ZMod p) = 0
  · rw [hx, zero_mul]
  · rw [ZMod.pow_card_sub_one_eq_one hx, one_pow, mul_one]

theorem one_le_of_inverse (hp : p.Prime) (hq : q.Prime) (hne : p ≠ q) (h : e * d ≡ 1 [MOD Nat.lcm (p - 1) (q - 1)]) :
    1 ≤ e * d := by
  by_contra hzero
  rw [Nat.lt_one_iff.mp (not_le.mp hzero)] at h
  have hunit : Nat.lcm (p - 1) (q - 1) ∣ 1 := (Nat.modEq_zero_iff_dvd.mp h.symm)
  have hp1 : p - 1 ∣ 1 := (Nat.dvd_lcm_left _ _).trans hunit
  have hq1 : q - 1 ∣ 1 := (Nat.dvd_lcm_right _ _).trans hunit
  have hp2 := hp.two_le
  have hq2 := hq.two_le
  rw [Nat.dvd_one] at hp1 hq1
  omega

/-- **Raising to inverse exponents one after the other gives every residue back.** -/
theorem pow_inverse (hp : p.Prime) (hq : q.Prime) (hne : p ≠ q) (h : e * d ≡ 1 [MOD Nat.lcm (p - 1) (q - 1)])
    {x : ℕ} (hx : x < p * q) : (x ^ d % (p * q)) ^ e % (p * q) = x := by
  have hpos := one_le_of_inverse hp hq hne h
  have hmodp : x ^ (e * d) ≡ x [MOD p] := pow_modEq_self hp (h.of_dvd (Nat.dvd_lcm_left _ _)) hpos x
  have hmodq : x ^ (e * d) ≡ x [MOD q] := pow_modEq_self hq (h.of_dvd (Nat.dvd_lcm_right _ _)) hpos x
  have hmod : x ^ (e * d) ≡ x [MOD p * q] :=
    (Nat.modEq_and_modEq_iff_modEq_mul ((Nat.coprime_primes hp hq).mpr hne)).mp ⟨hmodp, hmodq⟩
  rw [← Nat.pow_mod, ← pow_mul, Nat.mul_comm d e]
  exact Nat.mod_eq_of_modEq hmod hx

theorem pow_bijOn (hp : p.Prime) (hq : q.Prime) (hne : p ≠ q) (h : e * d ≡ 1 [MOD Nat.lcm (p - 1) (q - 1)]) :
    Set.BijOn (fun x => x ^ e % (p * q)) (Set.Iio (p * q)) (Set.Iio (p * q)) := by
  have hpos : 0 < p * q := Nat.mul_pos hp.pos hq.pos
  have hswap : d * e ≡ 1 [MOD Nat.lcm (p - 1) (q - 1)] := by rwa [Nat.mul_comm]
  have hinverse : Set.InvOn (fun x => x ^ d % (p * q)) (fun x => x ^ e % (p * q)) (Set.Iio (p * q)) (Set.Iio (p * q)) :=
    ⟨fun x hx => pow_inverse hp hq hne hswap hx, fun x hx => pow_inverse hp hq hne h hx⟩
  exact hinverse.bijOn (fun x _ => Nat.mod_lt _ hpos) fun x _ => Nat.mod_lt _ hpos

end OcorRuntime
