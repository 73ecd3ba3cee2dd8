import Mathlib.Data.Nat.Digits.Defs
import Mathlib.Data.Nat.Digits.Lemmas
import Mathlib.Data.Nat.Log
import Mathlib.Tactic.Ring
import OcorRuntime.Foundations.Text

/-! Number texts: the decimal text of an integer, and IEEE-754 binary64 with
rounding to nearest, ties to even, and the shortest text that reads back as the
same value (`repr`). -/
namespace OcorRuntime
set_option autoImplicit false
set_option maxHeartbeats 250000
set_option maxRecDepth 120000

/-! ## Decimal text -/

def digitChar (d : ℕ) : CodePoint := codePoint (48 + d)

def IsDigit (c : CodePoint) : Prop := 48 ≤ c.val ∧ c.val ≤ 57

instance (c : CodePoint) : Decidable (IsDigit c) := inferInstanceAs (Decidable (_ ∧ _))

def natText (n : ℕ) : PyStr :=
  if n = 0 then [digitChar 0] else (Nat.digits 10 n).reverse.map digitChar

def intText (n : ℤ) : PyStr := if n < 0 then py "-" ++ natText n.natAbs else natText n.natAbs

def digitsValue (s : PyStr) : ℕ := s.foldl (fun acc c => acc * 10 + (c.val - 48)) 0

theorem digitChar_val {d : ℕ} (h : d < 10) : (digitChar d).val = 48 + d := codePoint_val _ (by omega)

theorem natText_digits (n : ℕ) : ∀ c ∈ natText n, IsDigit c := by
  intro c hc
  unfold natText at hc
  split_ifs at hc with h0
  · rw [List.mem_singleton.mp hc, IsDigit, digitChar_val (by omega)]
    omega
  · obtain ⟨d, hd, rfl⟩ := List.mem_map.mp hc
    have hlt : d < 10 := Nat.digits_lt_base (by omega) (List.mem_reverse.mp hd)
    rw [IsDigit, digitChar_val hlt]
    omega

theorem natText_ne_nil (n : ℕ) : natText n ≠ [] := by
  unfold natText
  split_ifs with h0
  · simp
  · simp [Nat.digits_ne_nil_iff_ne_zero.mpr h0]

theorem natText_head {n : ℕ} {rest : PyStr} (h : natText n = digitChar 0 :: rest) : rest = [] := by
  unfold natText at h
  split_ifs at h with h0
  · exact (List.cons.inj h).2.symm
  · exfalso
    have hne : Nat.digits 10 n ≠ [] := Nat.digits_ne_nil_iff_ne_zero.mpr h0
    have hlast := Nat.getLast_digit_ne_zero 10 h0
    have hlt : (Nat.digits 10 n).getLast hne < 10 := Nat.digits_lt_base (by omega) (List.getLast_mem hne)
    have hhead : (Nat.digits 10 n).reverse = (Nat.digits 10 n).getLast hne :: (Nat.digits 10 n).dropLast.reverse := by
      conv_lhs => rw [← List.dropLast_append_getLast hne]
      simp
    rw [hhead, List.map_cons] at h
    have hv := congrArg Fin.val (List.cons.inj h).1
    rw [digitChar_val hlt, digitChar_val (by omega)] at hv
    omega

theorem digitsValue_map_reverse (ds : List ℕ) (hds : ∀ d ∈ ds, d < 10) :
    digitsValue (ds.reverse.map digitChar) = Nat.ofDigits 10 ds := by
  induction ds with
  | nil => rfl
  | cons d ds ih =>
    have hd := hds d (List.mem_cons_self ..)
    have hrest := ih fun e he => hds e (List.mem_cons_of_mem d he)
    unfold digitsValue at hrest ⊢
    rw [List.reverse_cons, List.map_append, List.foldl_append, hrest, Nat.ofDigits_cons]
    simp only [List.map_cons, List.map_nil, List.foldl_cons, List.foldl_nil, digitChar_val hd]
    omega

theorem digitsValue_natText (n : ℕ) : digitsValue (natText n) = n := by
  unfold natText
  split_ifs with h0
  · rw [h0]
    rfl
  · rw [digitsValue_map_reverse _ fun d hd => Nat.digits_lt_base (by omega) hd, Nat.ofDigits_digits]

theorem intText_chars (n : ℤ) : ∀ c ∈ intText n, IsDigit c ∨ c = codePoint 0x2D := by
  intro c hc
  unfold intText at hc
  split_ifs at hc
  · rcases List.mem_append.mp hc with hc | hc
    · exact .inr (List.mem_singleton.mp hc)
    · exact .inl (natText_digits _ c hc)
  · exact .inl (natText_digits _ c hc)

theorem intText_injective {m n : ℤ} (h : intText m = intText n) : m = n := by
  have hdash : ∀ a b : ℕ, py "-" ++ natText a ≠ natText b := by
    intro a b hab
    have hdigit := natText_digits b (codePoint 0x2D) (hab ▸ List.mem_append_left _ (List.mem_singleton_self _))
    exact absurd hdigit (by decide)
  have hvalue : ∀ a b : ℕ, natText a = natText b → a = b := by
    intro a b hab
    rw [← digitsValue_natText a, hab, digitsValue_natText]
  unfold intText at h
  split_ifs at h with hm hn hn
  · have := hvalue _ _ (List.append_cancel_left h)
    omega
  · exact absurd h (hdash _ _)
  · exact absurd h.symm (hdash _ _)
  · have := hvalue _ _ h
    omega

/-! ## Binary64 -/

/-- A finite binary64 value `± mantissa * 2 ^ exponent` in its one canonical form. -/
structure FiniteFloat where
  neg : Bool
  mantissa : ℕ
  exponent : ℤ
  canonical : mantissa < 2 ^ 53 ∧ -1074 ≤ exponent ∧ exponent ≤ 971 ∧ (2 ^ 52 ≤ mantissa ∨ exponent = -1074)
deriving DecidableEq

inductive Binary64
  | finite (x : FiniteFloat)
  | infinite (neg : Bool)
  | nan
deriving DecidableEq

namespace Binary64

/-- The ratio `p / q` divided by `base ^ e`, as numerator and denominator. -/
def scale (base p q : ℕ) (e : ℤ) : ℕ × ℕ :=
  if 0 ≤ e then (p, q * base ^ e.toNat) else (p * base ^ (-e).toNat, q)

def roundHalfEven (p q : ℕ) : ℕ :=
  let floor := p / q
  let rest := p % q
  if 2 * rest < q then floor
  else if q < 2 * rest then floor + 1
  else if floor % 2 = 0 then floor else floor + 1

/-- The largest `e` with `base ^ e ≤ p / q`, for positive `p` and `q`. -/
def leading (base p q : ℕ) : ℤ :=
  let guess : ℤ := (Nat.log base p : ℤ) - Nat.log base q
  if (scale base p q guess).2 ≤ (scale base p q guess).1 then guess else guess - 1

/-- An exponent past the largest one overflows to infinity. -/
def ofParts (neg : Bool) (m : ℕ) (e : ℤ) : Binary64 :=
  if h : m < 2 ^ 53 ∧ -1074 ≤ e ∧ e ≤ 971 ∧ (2 ^ 52 ≤ m ∨ e = -1074) then .finite ⟨neg, m, e, h⟩ else .infinite neg

/-- The binary64 value nearest to `± p / q`, ties to even. -/
def ofRatio (neg : Bool) (p q : ℕ) : Binary64 :=
  if p = 0 then ofParts neg 0 (-1074)
  else
    let e := max (-1074) (leading 2 p q - 52)
    let m := roundHalfEven (scale 2 p q e).1 (scale 2 p q e).2
    if m = 2 ^ 53 then ofParts neg (2 ^ 52) (e + 1) else ofParts neg m e

/-- `float(n)`; an infinite result is Python's `OverflowError`. -/
def ofInt (n : ℤ) : Binary64 := ofRatio (decide (n < 0)) n.natAbs 1

/-- `float` of the text `± digits * 10 ^ e`. -/
def ofDecimal (neg : Bool) (digits : ℕ) (e : ℤ) : Binary64 :=
  ofRatio neg (scale 10 digits 1 (-e)).1 (scale 10 digits 1 (-e)).2

end Binary64

namespace FiniteFloat

def ratio (x : FiniteFloat) : ℕ × ℕ := Binary64.scale 2 x.mantissa 1 (-x.exponent)

def IsZero (x : FiniteFloat) : Prop := x.mantissa = 0

instance (x : FiniteFloat) : Decidable x.IsZero := inferInstanceAs (Decidable (_ = _))

/-- `abs(x) <= k` for an integer `k`. -/
def AbsLe (x : FiniteFloat) (k : ℕ) : Prop := x.ratio.1 ≤ k * x.ratio.2

instance (x : FiniteFloat) (k : ℕ) : Decidable (x.AbsLe k) := inferInstanceAs (Decidable (_ ≤ _))

/-- `x == n` for an integer `n`. -/
def EqInt (x : FiniteFloat) (n : ℤ) : Prop :=
  x.ratio.1 = n.natAbs * x.ratio.2 ∧ (x.mantissa = 0 ∨ (x.neg = true ↔ n < 0))

instance (x : FiniteFloat) (n : ℤ) : Decidable (x.EqInt n) := inferInstanceAs (Decidable (_ ∧ _))

/-- The closest decimals of `n` significant digits on either side that read back as `x`, nearest first. -/
def decimalOf (x : FiniteFloat) (n : ℕ) : Option (ℕ × ℤ) :=
  let e := Binary64.leading 10 x.ratio.1 x.ratio.2 - n + 1
  let (a, b) := Binary64.scale 10 x.ratio.1 x.ratio.2 e
  let low := a / b
  let nearest := Binary64.roundHalfEven a b
  let other := if nearest = low then low + 1 else low
  ([nearest, other].find? fun d => Binary64.ofDecimal x.neg d e = .finite x).map fun d => (d, e)

/-- The shortest decimal that reads back as `x`; seventeen digits always do. -/
def shortest (x : FiniteFloat) : ℕ × ℤ :=
  ((List.range 17).findSome? fun n => x.decimalOf (n + 1)).getD (0, 0)

/-- `repr(abs(x))`. -/
def reprAbs (x : FiniteFloat) : PyStr :=
  if x.IsZero then py "0.0"
  else
    let digits := natText x.shortest.1
    let point : ℤ := digits.length + x.shortest.2
    if 16 < point ∨ point < -3 then
      let coefficient := digits.take 1 ++ (if digits.length = 1 then [] else py "." ++ digits.drop 1)
      let e := natText (point - 1).natAbs
      coefficient ++ py "e" ++ (if point - 1 < 0 then py "-" else py "+") ++
        (if e.length < 2 then py "0" ++ e else e)
    else if point ≤ 0 then py "0." ++ List.replicate point.natAbs (digitChar 0) ++ digits
    else if point < digits.length then digits.take point.toNat ++ py "." ++ digits.drop point.toNat
    else digits ++ List.replicate (point.toNat - digits.length) (digitChar 0) ++ py ".0"

end FiniteFloat

/-! ## Integers of at most 53 bits are exact -/

theorem leading_two_nat {n : ℕ} (hn : n ≠ 0) : Binary64.leading 2 n 1 = Nat.log 2 n := by
  unfold Binary64.leading Binary64.scale
  have h := Nat.pow_log_le_self 2 hn
  simp [h]

theorem roundHalfEven_one (n : ℕ) : Binary64.roundHalfEven n 1 = n := by
  simp [Binary64.roundHalfEven, Nat.mod_one]

theorem shift_bounds {n : ℕ} (h0 : n ≠ 0) (hn : n < 2 ^ 53) :
    Nat.log 2 n ≤ 52 ∧ 2 ^ 52 ≤ n * 2 ^ (52 - Nat.log 2 n) ∧ n * 2 ^ (52 - Nat.log 2 n) < 2 ^ 53 := by
  have hlog : Nat.log 2 n < 53 := Nat.log_lt_of_lt_pow h0 hn
  have hlow := Nat.pow_log_le_self 2 h0
  have hhigh := Nat.lt_pow_succ_log_self (by omega : 1 < 2) n
  have hsplit : 52 - Nat.log 2 n + Nat.log 2 n = 52 := by omega
  refine ⟨by omega, ?_, ?_⟩
  · calc 2 ^ 52 = 2 ^ Nat.log 2 n * 2 ^ (52 - Nat.log 2 n) := by rw [← pow_add, Nat.add_comm, hsplit]
      _ ≤ n * 2 ^ (52 - Nat.log 2 n) := Nat.mul_le_mul_right _ hlow
  · calc n * 2 ^ (52 - Nat.log 2 n) < 2 ^ (Nat.log 2 n).succ * 2 ^ (52 - Nat.log 2 n) :=
          Nat.mul_lt_mul_of_pos_right hhigh (by positivity)
      _ = 2 ^ 53 := by rw [← pow_add]; congr 1; omega

theorem scale_shift (n k : ℕ) : Binary64.scale 2 n 1 (-(k : ℤ)) = (n * 2 ^ k, 1) := by
  unfold Binary64.scale
  by_cases hk : k = 0
  · subst hk
    simp
  · rw [if_neg (by omega)]
    simp

theorem ofRatio_nat (neg : Bool) {n : ℕ} (hn : n < 2 ^ 53) :
    ∃ x, Binary64.ofRatio neg n 1 = .finite x ∧ x.ratio.1 = n * x.ratio.2 := by
  by_cases h0 : n = 0
  · subst h0
    refine ⟨⟨neg, 0, -1074, by decide⟩, ?_, ?_⟩
    · rfl
    · simp only [FiniteFloat.ratio, Binary64.scale]
      exact (Nat.zero_mul _).symm
  · obtain ⟨hlog, hlow, hhigh⟩ := shift_bounds h0 hn
    have he : max (-1074) ((Nat.log 2 n : ℤ) - 52) = -((52 - Nat.log 2 n : ℕ) : ℤ) := by omega
    have hcan : n * 2 ^ (52 - Nat.log 2 n) < 2 ^ 53 ∧ -1074 ≤ -((52 - Nat.log 2 n : ℕ) : ℤ) ∧
        -((52 - Nat.log 2 n : ℕ) : ℤ) ≤ 971 ∧
        (2 ^ 52 ≤ n * 2 ^ (52 - Nat.log 2 n) ∨ -((52 - Nat.log 2 n : ℕ) : ℤ) = -1074) :=
      ⟨hhigh, by omega, by omega, Or.inl hlow⟩
    refine ⟨⟨neg, _, _, hcan⟩, ?_, ?_⟩
    · simp only [Binary64.ofRatio, if_neg h0, leading_two_nat h0, he, scale_shift, roundHalfEven_one]
      rw [if_neg (by omega), Binary64.ofParts, dif_pos hcan]
    · simp [FiniteFloat.ratio, Binary64.scale]

end OcorRuntime
