import Mathlib.Data.List.Prime
import Mathlib.Data.Nat.Size
import Mathlib.NumberTheory.LucasPrimality

/-! Certificates of primality: a list of numbers, each with a base whose powers show its
order and with the factors of its predecessor, which are two or numbers listed before. -/
namespace OcorRuntime.PrimeCertificates
set_option autoImplicit false
set_option maxHeartbeats 250000

/-- `acc * a ^ n % m`, over `k` binary digits of `n`. -/
def powerMod (m : ℕ) : ℕ → ℕ → ℕ → ℕ → ℕ
  | 0, acc, _, _ => acc % m
  | k + 1, acc, a, n => powerMod m k (if n % 2 = 1 then acc * a % m else acc) (a * a % m) (n / 2)

structure Step where
  number : ℕ
  base : ℕ
  factors : List ℕ

/-- The power of the base modulo the number. -/
def Step.power (s : Step) (n : ℕ) : ℕ := powerMod s.number (Nat.size s.number) 1 s.base n

def Step.holds (known : List ℕ) (s : Step) : Bool :=
  decide (2 ≤ s.number) && decide (s.factors.prod = s.number - 1) && decide (s.power (s.number - 1) = 1) &&
    s.factors.all fun q => decide (q ∈ known) && decide (s.power ((s.number - 1) / q) ≠ 1)

def certifies : List ℕ → List Step → Bool
  | _, [] => true
  | known, s :: steps => s.holds known && certifies (s.number :: known) steps

theorem powerMod_modEq (m : ℕ) : ∀ (k acc a n : ℕ), n < 2 ^ k → powerMod m k acc a n ≡ acc * a ^ n [MOD m] := by
  intro k
  induction k with
  | zero =>
    intro acc a n hn
    rw [powerMod, Nat.lt_one_iff.mp hn, pow_zero, mul_one]
    exact Nat.mod_modEq acc m
  | succ k ih =>
    intro acc a n hn
    have hhalf : n / 2 < 2 ^ k := by
      rw [pow_succ] at hn
      omega
    have hsquare : (a * a % m) ^ (n / 2) ≡ a ^ (2 * (n / 2)) [MOD m] := by
      rw [pow_mul, sq]
      exact (Nat.mod_modEq _ m).pow _
    rw [powerMod]
    refine (ih _ _ _ hhalf).trans ?_
    split_ifs with hodd
    · have hn2 : n = 2 * (n / 2) + 1 := by omega
      calc acc * a % m * (a * a % m) ^ (n / 2) ≡ acc * a * a ^ (2 * (n / 2)) [MOD m] := (Nat.mod_modEq _ m).mul hsquare
        _ = acc * a ^ (2 * (n / 2) + 1) := by rw [pow_succ', mul_assoc]
        _ = acc * a ^ n := by rw [← hn2]
    · have hn2 : 2 * (n / 2) = n := by omega
      rw [hn2] at hsquare
      exact hsquare.mul_left acc

theorem Step.power_eq {s : Step} (hs : 2 ≤ s.number) {n : ℕ} (hn : n ≤ s.number - 1) :
    ((s.base : ZMod s.number) ^ n = 1) ↔ s.power n = 1 := by
  have hlt : n < 2 ^ Nat.size s.number := (by omega : n < s.number).trans (Nat.lt_size_self s.number)
  have hpower := powerMod_modEq s.number (Nat.size s.number) 1 s.base n hlt
  have hreduced : ∀ (k acc a n : ℕ), powerMod s.number k acc a n < s.number := by
    intro k
    induction k with
    | zero => exact fun acc _ _ => Nat.mod_lt acc (by omega)
    | succ k ih => exact fun _ _ _ => ih _ _ _
  rw [one_mul] at hpower
  have hone : ((1 : ℕ) : ZMod s.number) = 1 := Nat.cast_one
  rw [← Nat.cast_pow, ← hone, ZMod.natCast_eq_natCast_iff]
  constructor
  · intro h
    exact Nat.ModEq.eq_of_lt_of_lt (hpower.trans h) (hreduced _ _ _ _) (by omega)
  · intro h
    have hval : powerMod s.number (Nat.size s.number) 1 s.base n = 1 := h
    rw [hval] at hpower
    exact hpower.symm

/-- A number with a base of full order is prime, if the factors of its predecessor are. -/
theorem Step.prime {known : List ℕ} (hknown : ∀ q ∈ known, q.Prime) {s : Step} (h : s.holds known = true) :
    s.number.Prime := by
  simp only [Step.holds, Bool.and_eq_true, decide_eq_true_eq, List.all_eq_true] at h
  obtain ⟨⟨⟨htwo, hprod⟩, hfull⟩, hfactors⟩ := h
  refine lucas_primality s.number s.base ((Step.power_eq htwo le_rfl).mpr hfull) ?_
  intro q hq hdvd
  rw [← hprod] at hdvd
  obtain ⟨factor, hmem, hfactor⟩ := (Prime.dvd_prod_iff hq.prime).mp hdvd
  obtain rfl := (Nat.prime_dvd_prime_iff_eq hq (hknown factor (hfactors factor hmem).1)).mp hfactor
  rw [ne_eq, Step.power_eq htwo (Nat.div_le_self _ _)]
  exact (hfactors q hmem).2

/-- **Every number of a certificate is prime.** -/
theorem prime_of_certifies {known : List ℕ} {steps : List Step} (hknown : ∀ q ∈ known, q.Prime)
    (h : certifies known steps = true) {s : Step} (hs : s ∈ steps) : s.number.Prime := by
  induction steps generalizing known with
  | nil => exact absurd hs List.not_mem_nil
  | cons first steps ih =>
    obtain ⟨hfirst, hrest⟩ := Bool.and_eq_true_iff.mp h
    have hprime := Step.prime hknown hfirst
    rcases List.mem_cons.mp hs with rfl | hs
    · exact hprime
    · exact ih (List.forall_mem_cons.mpr ⟨hprime, hknown⟩) hrest hs

end OcorRuntime.PrimeCertificates
