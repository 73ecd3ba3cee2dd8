import OcorRuntime.Canonical.NumberReading

/-! The layout step of a float's canonical text, on any decimal text of the shape `repr`
writes: the same rational number, in the one layout ECMAScript has for it. -/
namespace OcorRuntime.Canonical
open StandardJson
set_option autoImplicit false
set_option maxHeartbeats 250000

/-! ## The texts laid out -/

/-- A positive finite value as `repr` writes it: digits with a point among them, or an exponent after them, the
integer part without a leading zero unless it is zero itself. -/
structure ReprText where
  integer : PyStr
  fraction : PyStr
  /-- Whether it is negative, and its digits. -/
  exponent : Option (Bool × PyStr)
  whole : Whole integer
  fraction_digits : Digits fraction
  exponent_digits : ∀ e ∈ exponent, Digits e.2 ∧ e.2 ≠ []
  pointed : exponent = none → fraction ≠ []
  positive : ∃ c ∈ integer ++ fraction, c ≠ digitChar 0

namespace ReprText

def text (r : ReprText) : PyStr :=
  r.integer ++ (if r.fraction = [] then [] else py "." ++ r.fraction) ++
    match r.exponent with
    | none => []
    | some (negative, digits) => py "e" ++ (if negative then py "-" else py "+") ++ digits

/-- The exponent written. -/
def power (r : ReprText) : ℤ :=
  match r.exponent with
  | none => 0
  | some (negative, digits) => if negative then -(digitsValue digits : ℤ) else digitsValue digits

/-- The number written. -/
def value (r : ReprText) : ℚ := digitsValue (r.integer ++ r.fraction) * (10 : ℚ) ^ (r.power - r.fraction.length)

variable (r : ReprText)

theorem digits : Digits (r.integer ++ r.fraction) := digits_append r.whole.1 r.fraction_digits

theorem decimalParts_mantissa : decimalParts (r.integer ++ (if r.fraction = [] then [] else py "." ++ r.fraction)) =
    (r.integer ++ r.fraction, (r.integer.length : ℤ)) ∧
      exponentMark ∉ r.integer ++ (if r.fraction = [] then [] else py "." ++ r.fraction) := by
  have hinteger : exponentMark ∉ r.integer := not_mem_of_digits r.whole.1 (by decide)
  split_ifs with hfraction
  · rw [hfraction, List.append_nil]
    exact ⟨decimalParts_plain r.whole.1, hinteger⟩
  · rw [py_point, List.singleton_append]
    refine ⟨decimalParts_point r.whole.1 r.fraction_digits, ?_⟩
    rw [List.mem_append, List.mem_cons, not_or, not_or]
    exact ⟨hinteger, by decide, not_mem_of_digits r.fraction_digits (by decide)⟩

theorem decimalParts_text : decimalParts r.text = (r.integer ++ r.fraction, (r.integer.length : ℤ) + r.power) := by
  obtain ⟨hparts, hmark⟩ := r.decimalParts_mantissa
  unfold text power
  cases r.exponent with
  | none => rw [List.append_nil, hparts, add_zero]
  | some e =>
    obtain ⟨negative, digits⟩ := e
    dsimp only
    rw [py_exponentMark, List.append_assoc [exponentMark], List.singleton_append, decimalParts_exponent hmark, hparts]
    cases negative
    · rfl
    · rfl

theorem decimalValue_text : decimalValue (decimalParts r.text) = r.value := by
  rw [decimalParts_text, decimalValue, value, List.length_append]
  congr 2
  push_cast
  ring

theorem digitsValue_pos : 0 < digitsValue (r.integer ++ r.fraction) := by
  obtain ⟨c, hc, hne⟩ := r.positive
  obtain ⟨before, after, heq⟩ := List.append_of_mem hc
  have hdigit := r.digits c hc
  have hval : 0 < c.val - 48 := by
    have hne' : c.val ≠ 48 := fun h => hne (Fin.ext (h.trans (digitChar_val (d := 0) (by decide)).symm))
    unfold IsDigit at hdigit
    omega
  rw [heq, digitsValue_append, ← List.singleton_append, digitsValue_append]
  have hsingle : digitsValue [c] = c.val - 48 := by simp [digitsValue]
  rw [hsingle]
  have hpow : 0 < 10 ^ after.length := Nat.pow_pos (by decide)
  have := Nat.mul_pos hval hpow
  omega

end ReprText

/-! ## The shortest digits -/

/-- Digits without a redundant zero at either end. -/
structure Shortest (ds : PyStr) : Prop extends Significant ds where
  last : ∀ t, ds ≠ t ++ [digitChar 0]

theorem Significant.whole {ds : PyStr} (h : Significant ds) : Whole ds := by
  have := h.whole_zeros 0
  rwa [List.replicate_zero, List.append_nil] at this

theorem shortest_strip {all : PyStr} (hd : Digits all) (hpos : 0 < digitsValue all) (position : ℤ) :
    Shortest (stripTrailingZeros (stripLeadingZeros all position).1) := by
  have hne : all ≠ [] := by
    rintro rfl
    exact absurd hpos (by decide)
  have hdigits := digits_strip hd position
  obtain ⟨k, hk, -⟩ := stripLeadingZeros_eq all position
  have hinner := stripLeadingZeros_ne_nil all position hne
  have hhead := stripLeadingZeros_head all position
  generalize (stripLeadingZeros all position).1 = inner at hk hinner hhead hdigits ⊢
  have hvalue : 0 < digitsValue inner := by
    rw [hk, digitsValue_append, digitsValue_zeros, Nat.zero_mul, Nat.zero_add] at hpos
    exact hpos
  obtain ⟨j, hj⟩ := stripTrailingZeros_eq inner
  have hcore : stripTrailingZeros inner ≠ [] := by
    unfold stripTrailingZeros
    simpa using stripLeadingZeros_ne_nil inner.reverse 0 (by simpa using hinner)
  have hlast := stripLeadingZeros_head inner.reverse 0
  rw [← List.reverse_reverse (stripLeadingZeros inner.reverse 0).1] at hlast
  change (∃ c, (stripTrailingZeros inner).reverse = [c]) ∨
    ∀ c t, (stripTrailingZeros inner).reverse = c :: t → c ≠ digitChar 0 at hlast
  generalize stripTrailingZeros inner = core at hdigits hj hcore hlast ⊢
  have hfirst : ∀ c t, core = c :: t → c ≠ digitChar 0 := by
    rintro c t rfl rfl
    rw [List.cons_append] at hj
    rcases hhead with ⟨d, rfl⟩ | hhead
    · rw [(List.cons.inj hj).1] at hvalue
      exact absurd hvalue (by decide)
    · exact hhead _ _ hj rfl
  obtain ⟨c, t, rfl⟩ := List.exists_cons_of_ne_nil hcore
  refine ⟨⟨hdigits, c, t, rfl, hfirst c t rfl⟩, fun u hu => ?_⟩
  have hrev : (c :: t).reverse = digitChar 0 :: u.reverse := by
    rw [hu, List.reverse_append, List.reverse_singleton, List.singleton_append]
  rcases hlast with ⟨d, hlast⟩ | hlast
  · rw [hrev] at hlast
    obtain ⟨-, htail⟩ := List.cons.inj hlast
    rw [List.reverse_eq_nil_iff.mp htail, List.nil_append] at hu
    exact hfirst c t rfl (List.cons.inj hu).1
  · exact hlast _ _ hrev rfl

theorem Shortest.mod_ten {ds : PyStr} (h : Shortest ds) : digitsValue ds % 10 ≠ 0 := by
  obtain ⟨t, c, heq⟩ : ∃ t c, ds = t ++ [c] := ⟨ds.dropLast, ds.getLast h.ne_nil, (List.dropLast_append_getLast h.ne_nil).symm⟩
  have hdigit := h.digits c (heq ▸ List.mem_append_right t (List.mem_singleton_self c))
  have hne : c.val ≠ 48 := by
    intro hc
    have hzero : c = digitChar 0 := Fin.ext (hc.trans (digitChar_val (d := 0) (by decide)).symm)
    exact h.last t (hzero ▸ heq)
  have hsingle : digitsValue [c] = c.val - 48 := by simp [digitsValue]
  rw [heq, digitsValue_append, hsingle, List.length_singleton, pow_one]
  unfold IsDigit at hdigit
  omega

theorem scaled_unique {m n : ℕ} {a b : ℤ} (hm : m % 10 ≠ 0) (hn : n % 10 ≠ 0)
    (h : (m : ℚ) * (10 : ℚ) ^ a = n * (10 : ℚ) ^ b) : m = n ∧ a = b := by
  have hle : ∀ {m n : ℕ} {a b : ℤ}, m % 10 ≠ 0 → (m : ℚ) * (10 : ℚ) ^ a = n * (10 : ℚ) ^ b → b ≤ a := by
    intro m n a b hm h
    by_contra hlt
    obtain ⟨k, hk⟩ : ∃ k : ℕ, b = a + (k + 1 : ℕ) := ⟨(b - a - 1).toNat, by omega⟩
    rw [hk, zpow_add₀ (by norm_num), zpow_natCast, mul_comm ((10 : ℚ) ^ a), ← mul_assoc] at h
    have hcancel := mul_right_cancel₀ (zpow_ne_zero a (by norm_num : (10 : ℚ) ≠ 0)) h
    have hnat : m = n * 10 ^ (k + 1) := by exact_mod_cast hcancel
    refine hm ?_
    rw [hnat, pow_succ, ← mul_assoc]
    exact Nat.mul_mod_left _ _
  have hab : a = b := le_antisymm (hle hn h.symm) (hle hm h)
  subst hab
  exact ⟨by exact_mod_cast mul_right_cancel₀ (zpow_ne_zero a (by norm_num : (10 : ℚ) ≠ 0)) h, rfl⟩

theorem Shortest.unique {ds es : PyStr} {m n : ℤ} (hd : Shortest ds) (he : Shortest es)
    (h : decimalValue (ds, m) = decimalValue (es, n)) : ds = es ∧ m = n := by
  obtain ⟨hvalue, hpower⟩ := scaled_unique hd.mod_ten he.mod_ten h
  have heq : ds = es := by
    rw [← natText_digitsValue hd.whole, hvalue, natText_digitsValue he.whole]
  subst heq
  dsimp only at hpower
  exact ⟨rfl, by omega⟩

/-! ## ECMAScript's layout -/

/-- `Number::toString` of the digits `s` whose value is `0.s × 10^n`. -/
def numberToString (digits : PyStr) (n : ℤ) : PyStr :=
  if -7 < n - 1 ∧ n - 1 < 21 then
    if (digits.length : ℤ) ≤ n then digits ++ List.replicate (n - digits.length).toNat (digitChar 0)
    else if 0 < n then digits.take n.toNat ++ py "." ++ digits.drop n.toNat
    else py "0." ++ List.replicate (-n).toNat (digitChar 0) ++ digits
  else
    let sign := if 0 < n - 1 then py "+" else py "-"
    if digits.length = 1 then digits ++ py "e" ++ sign ++ natText (n - 1).natAbs
    else digits.take 1 ++ py "." ++ digits.drop 1 ++ py "e" ++ sign ++ natText (n - 1).natAbs

theorem layoutDigits_eq {digits : PyStr} (hne : digits ≠ []) (n : ℤ) : layoutDigits digits n = numberToString digits n := by
  have hlen : 0 < digits.length := List.length_pos_iff.mpr hne
  unfold layoutDigits numberToString
  dsimp only
  by_cases hsci : 21 ≤ n - 1 ∨ n - 1 ≤ -7
  · have hsign : (if 0 ≤ n - 1 then py "+" else []) ++ intText (n - 1) =
        (if 0 < n - 1 then py "+" else py "-") ++ natText (n - 1).natAbs := by
      unfold intText
      rcases hsci with hlarge | hsmall
      · rw [if_pos (by omega), if_neg (by omega), if_pos (by omega)]
      · rw [if_neg (by omega), if_pos (by omega), if_neg (by omega), List.nil_append]
    have hplain : ¬ (-7 < n - 1 ∧ n - 1 < 21) := by omega
    rw [if_pos hsci, if_neg hplain, List.append_assoc, hsign, coefficient]
    by_cases hone : digits.length = 1
    · rw [if_neg (by omega), if_pos hone, List.take_of_length_le (by omega), List.append_nil]
      simp only [List.append_assoc]
    · rw [if_pos (by omega), if_neg hone]
      simp only [List.append_assoc]
  · have hplain : -7 < n - 1 ∧ n - 1 < 21 := by omega
    rw [if_neg hsci, if_pos hplain]
    by_cases hzero : n ≤ 0
    · have hlarge : ¬ (digits.length : ℤ) ≤ n := by omega
      rw [if_pos hzero, if_neg hlarge, if_neg (not_lt.mpr hzero)]
      congr 3
      omega
    · rw [if_neg hzero]
      by_cases hlarge : (digits.length : ℤ) ≤ n
      · rw [if_pos hlarge, if_pos hlarge]
        congr 2
        omega
      · rw [if_neg hlarge, if_neg hlarge, if_pos (not_le.mp hzero)]

/-- **The layout step keeps the number, and writes it in the only layout ECMAScript has for it.** -/
theorem layoutFloat_layout (r : ReprText) :
    decimalValue (decimalParts (layoutFloat r.text)) = r.value ∧
      ∃ digits n, Shortest digits ∧ decimalValue (digits, n) = r.value ∧ layoutFloat r.text = numberToString digits n ∧
        ∀ other m, Shortest other → decimalValue (other, m) = r.value → other = digits ∧ m = n := by
  have hne : r.integer ++ r.fraction ≠ [] := by
    obtain ⟨c, hc, -⟩ := r.positive
    exact List.ne_nil_of_mem hc
  have hvalue : decimalValue (decimalParts (layoutFloat r.text)) = r.value := by
    rw [decimalValue_layoutFloat (by rw [r.decimalParts_text]; exact r.digits) (by rw [r.decimalParts_text]; exact hne),
      r.decimalValue_text]
  refine ⟨hvalue, ?_⟩
  have hshort := shortest_strip r.digits r.digitsValue_pos (r.integer.length + r.power)
  have hlayout := layoutFloat_eq r.text
  rw [r.decimalParts_text] at hlayout
  dsimp only at hlayout
  have hmeaning : decimalValue (stripTrailingZeros (stripLeadingZeros (r.integer ++ r.fraction)
      (r.integer.length + r.power)).1, (stripLeadingZeros (r.integer ++ r.fraction) (r.integer.length + r.power)).2) =
      r.value := by
    rw [← hvalue, hlayout, decimalValue_layoutDigits hshort.digits hshort.ne_nil]
  refine ⟨_, _, hshort, hmeaning, hlayout.trans (layoutDigits_eq hshort.ne_nil _), fun other m hother hsame => ?_⟩
  exact hother.unique hshort (hsame.trans hmeaning.symm)

end OcorRuntime.Canonical
