import OcorRuntime.Canonical.Serialize
import OcorRuntime.Foundations.Decimal

/-! The canonical text of a positive integer determines it, also past 2^53, where the text
is the shortest decimal of the binary64 value and no longer its exact digits. -/
namespace OcorRuntime.Canonical
open Binary64
set_option autoImplicit false
set_option maxHeartbeats 250000

/-! ## Digits -/

theorem digitsValue_foldl (s : PyStr) (acc : ℕ) :
    s.foldl (fun acc c => acc * 10 + (c.val - 48)) acc = acc * 10 ^ s.length + digitsValue s := by
  induction s generalizing acc with
  | nil => simp [digitsValue]
  | cons c s ih =>
    unfold digitsValue
    rw [List.foldl_cons, List.foldl_cons, ih, ih (0 * 10 + _), List.length_cons, pow_succ]
    ring

theorem digitsValue_append (s t : PyStr) : digitsValue (s ++ t) = digitsValue s * 10 ^ t.length + digitsValue t := by
  rw [digitsValue, List.foldl_append, digitsValue_foldl]
  rfl

@[simp] theorem digitsValue_zeros (k : ℕ) : digitsValue (List.replicate k (digitChar 0)) = 0 := by
  induction k with
  | zero => rfl
  | succ k ih => exact ih

def Digits (s : PyStr) : Prop := ∀ c ∈ s, IsDigit c

theorem digits_append {s t : PyStr} (hs : Digits s) (ht : Digits t) : Digits (s ++ t) := by
  intro c hc
  rcases List.mem_append.mp hc with h | h
  · exact hs c h
  · exact ht c h

theorem digits_zeros (k : ℕ) : Digits (List.replicate k (digitChar 0)) := by
  intro c hc
  rw [(List.mem_replicate.mp hc).2]
  decide

theorem digits_natText (n : ℕ) : Digits (natText n) := natText_digits n

/-! ## Reading a decimal text -/

def exponentMark : CodePoint := codePoint 0x65
def decimalPoint : CodePoint := codePoint 0x2E

theorem splitOnce_append {c : CodePoint} {s : PyStr} (h : c ∉ s) (t : PyStr) : splitOnce c (s ++ c :: t) = (s, t) := by
  unfold splitOnce
  have hne : ∀ d ∈ s, (decide (d ≠ c)) = true := by
    intro d hd
    simp only [decide_eq_true_eq]
    rintro rfl
    exact h hd
  rw [List.takeWhile_append_of_pos hne, List.dropWhile_append_of_pos hne]
  simp

/-- The digits of a decimal text and where its point stands among them. -/
def decimalParts (rendered : PyStr) : PyStr × ℤ :=
  let (mantissa, exponent) :=
    if exponentMark ∈ rendered then
      ((splitOnce exponentMark rendered).1, exponentValue (splitOnce exponentMark rendered).2)
    else (rendered, 0)
  if decimalPoint ∈ mantissa then
    let (integerPart, fractionPart) := splitOnce decimalPoint mantissa
    (integerPart ++ fractionPart, (integerPart.length : ℤ) + exponent)
  else (mantissa, (mantissa.length : ℤ) + exponent)

theorem not_mem_of_digits {s : PyStr} (hs : Digits s) {c : CodePoint} (hc : ¬ IsDigit c) : c ∉ s :=
  fun h => hc (hs c h)

theorem decimalParts_plain {s : PyStr} (hs : Digits s) : decimalParts s = (s, (s.length : ℤ)) := by
  have he : exponentMark ∉ s := not_mem_of_digits hs (by decide)
  have hp : decimalPoint ∉ s := not_mem_of_digits hs (by decide)
  simp [decimalParts, he, hp]

theorem decimalParts_point {s t : PyStr} (hs : Digits s) (ht : Digits t) :
    decimalParts (s ++ decimalPoint :: t) = (s ++ t, (s.length : ℤ)) := by
  have he : exponentMark ∉ s ++ decimalPoint :: t := by
    simp only [List.mem_append, List.mem_cons, not_or]
    exact ⟨not_mem_of_digits hs (by decide), by decide, not_mem_of_digits ht (by decide)⟩
  have hp : decimalPoint ∉ s := not_mem_of_digits hs (by decide)
  have hmem : decimalPoint ∈ s ++ decimalPoint :: t := by simp
  unfold decimalParts
  simp only [if_neg he, if_pos hmem, splitOnce_append hp]
  simp

theorem decimalParts_exponent {m : PyStr} (hm : exponentMark ∉ m) (t : PyStr) :
    decimalParts (m ++ exponentMark :: t) = ((decimalParts m).1, (decimalParts m).2 + exponentValue t) := by
  have hmem : exponentMark ∈ m ++ exponentMark :: t := by simp
  unfold decimalParts
  simp only [if_pos hmem, if_neg hm, splitOnce_append hm]
  split_ifs <;> simp [add_comm]

theorem exponentValue_plus (s : PyStr) : exponentValue (py "+" ++ s) = digitsValue s := by
  rfl

theorem exponentValue_minus (s : PyStr) : exponentValue (py "-" ++ s) = -(digitsValue s : ℤ) := by
  rfl

theorem exponentValue_signed (n : ℤ) : exponentValue ((if 0 ≤ n then py "+" else []) ++ intText n) = n := by
  unfold intText
  split_ifs with h1 h2
  · omega
  · rw [exponentValue_plus, digitsValue_natText]
    omega
  · rw [List.nil_append, exponentValue_minus, digitsValue_natText]
    omega
  · omega

/-- The number a text's digits and point stand for. -/
def decimalValue (parts : PyStr × ℤ) : ℚ := digitsValue parts.1 * (10 : ℚ) ^ (parts.2 - parts.1.length)

/-! ## Coefficients -/

/-- One digit before the point, the others after it. -/
def coefficient (digits : PyStr) : PyStr :=
  digits.take 1 ++ (if 1 < digits.length then py "." ++ digits.drop 1 else [])

theorem digits_take {s : PyStr} (hs : Digits s) (n : ℕ) : Digits (s.take n) := fun c hc => hs c (List.mem_of_mem_take hc)

theorem digits_drop {s : PyStr} (hs : Digits s) (n : ℕ) : Digits (s.drop n) := fun c hc => hs c (List.mem_of_mem_drop hc)

theorem decimalParts_coefficient {digits : PyStr} (hd : Digits digits) (hne : digits ≠ []) :
    decimalParts (coefficient digits) = (digits, 1) ∧ exponentMark ∉ coefficient digits := by
  have hpos : 1 ≤ digits.length := List.length_pos_of_ne_nil hne
  have hlen : ((digits.take 1).length : ℤ) = 1 := by
    rw [List.length_take]
    omega
  unfold coefficient
  split_ifs with h
  · refine ⟨?_, ?_⟩
    · have hparts := decimalParts_point (digits_take hd 1) (digits_drop hd 1)
      rw [List.take_append_drop, hlen] at hparts
      exact hparts
    · simp only [List.mem_append, not_or]
      exact ⟨not_mem_of_digits (digits_take hd 1) (by decide), by decide, not_mem_of_digits (digits_drop hd 1) (by decide)⟩
  · rw [List.append_nil, List.take_of_length_le (by omega)]
    refine ⟨?_, not_mem_of_digits hd (by decide)⟩
    rw [decimalParts_plain hd]
    congr 1
    omega

/-! ## The ECMAScript layout keeps the value -/

theorem stripLeadingZeros_eq : ∀ (digits : PyStr) (position : ℤ), ∃ k : ℕ,
    digits = List.replicate k (digitChar 0) ++ (stripLeadingZeros digits position).1 ∧
      (stripLeadingZeros digits position).2 = position - k
  | [], position => ⟨0, by simp [stripLeadingZeros]⟩
  | [c], position => ⟨0, by simp [stripLeadingZeros]⟩
  | c :: d :: rest, position => by
      unfold stripLeadingZeros
      split_ifs with h
      · obtain ⟨k, hk, hp⟩ := stripLeadingZeros_eq (d :: rest) (position - 1)
        refine ⟨k + 1, ?_, by rw [hp]; omega⟩
        rw [List.replicate_succ, List.cons_append, ← hk, h]
      · exact ⟨0, by simp⟩

theorem stripLeadingZeros_ne_nil : ∀ (digits : PyStr) (position : ℤ), digits ≠ [] →
    (stripLeadingZeros digits position).1 ≠ []
  | [], _, h => absurd rfl h
  | [c], _, _ => by simp [stripLeadingZeros]
  | c :: d :: rest, position, _ => by
      unfold stripLeadingZeros
      split_ifs
      · exact stripLeadingZeros_ne_nil (d :: rest) (position - 1) (List.cons_ne_nil _ _)
      · exact List.cons_ne_nil _ _

theorem stripTrailingZeros_eq (digits : PyStr) : ∃ k : ℕ,
    digits = stripTrailingZeros digits ++ List.replicate k (digitChar 0) := by
  obtain ⟨k, hk, -⟩ := stripLeadingZeros_eq digits.reverse 0
  refine ⟨k, ?_⟩
  unfold stripTrailingZeros
  have hrev := congrArg List.reverse hk
  rw [List.reverse_reverse, List.reverse_append, List.reverse_replicate] at hrev
  exact hrev

/-- The layout of digits whose point stands after the first `decimalPosition` of them. -/
def layoutDigits (digits : PyStr) (decimalPosition : ℤ) : PyStr :=
  let scientificExponent := decimalPosition - 1
  if 21 ≤ scientificExponent ∨ scientificExponent ≤ -7 then
    coefficient digits ++ py "e" ++ (if 0 ≤ scientificExponent then py "+" else []) ++ intText scientificExponent
  else if decimalPosition ≤ 0 then
    py "0." ++ List.replicate decimalPosition.natAbs (digitChar 0) ++ digits
  else if (digits.length : ℤ) ≤ decimalPosition then
    digits ++ List.replicate (decimalPosition.toNat - digits.length) (digitChar 0)
  else digits.take decimalPosition.toNat ++ py "." ++ digits.drop decimalPosition.toNat

theorem layoutFloat_eq (rendered : PyStr) :
    layoutFloat rendered =
      let stripped := stripLeadingZeros (decimalParts rendered).1 (decimalParts rendered).2
      layoutDigits (stripTrailingZeros stripped.1) stripped.2 := by
  unfold layoutFloat decimalParts layoutDigits coefficient exponentMark decimalPoint
  rfl

theorem py_point : py "." = [decimalPoint] := rfl
theorem py_zeroPoint : py "0." = [digitChar 0, decimalPoint] := rfl
theorem py_pointZero : py ".0" = [decimalPoint, digitChar 0] := rfl
theorem py_exponentMark : py "e" = [exponentMark] := rfl

theorem digits_singleZero : Digits [digitChar 0] := digits_zeros 1

/-! The four shapes a decimal is written in, by the value they are read as. -/

theorem value_scientific {digits : PyStr} (hd : Digits digits) (hne : digits ≠ []) (t : PyStr) :
    decimalParts (coefficient digits ++ exponentMark :: t) = (digits, 1 + exponentValue t) := by
  obtain ⟨hparts, hmark⟩ := decimalParts_coefficient hd hne
  rw [decimalParts_exponent hmark, hparts]

theorem parts_fraction {digits : PyStr} (hd : Digits digits) (k : ℕ) :
    decimalParts (py "0." ++ List.replicate k (digitChar 0) ++ digits) =
      ([digitChar 0] ++ (List.replicate k (digitChar 0) ++ digits), 1) := by
  have hshape : py "0." ++ List.replicate k (digitChar 0) ++ digits =
      [digitChar 0] ++ decimalPoint :: (List.replicate k (digitChar 0) ++ digits) := by
    rw [py_zeroPoint]
    simp
  rw [hshape, decimalParts_point digits_singleZero (digits_append (digits_zeros k) hd)]
  rfl

theorem value_fraction {digits : PyStr} (hd : Digits digits) (k : ℕ) :
    decimalValue (decimalParts (py "0." ++ List.replicate k (digitChar 0) ++ digits)) = decimalValue (digits, -(k : ℤ)) := by
  rw [parts_fraction hd]
  unfold decimalValue
  dsimp only
  rw [digitsValue_append, digitsValue_append, digitsValue_zeros, show digitsValue [digitChar 0] = 0 from rfl]
  simp only [List.length_append, List.length_replicate, List.length_cons, List.length_nil, Nat.zero_mul, Nat.zero_add]
  congr 2
  omega

theorem value_zeros (digits : PyStr) (k : ℕ) (position : ℤ) :
    decimalValue (digits ++ List.replicate k (digitChar 0), position) = decimalValue (digits, position) := by
  unfold decimalValue
  dsimp only
  rw [digitsValue_append, digitsValue_zeros, List.length_append, List.length_replicate, Nat.add_zero]
  push_cast
  rw [mul_assoc, ← zpow_natCast, ← zpow_add₀ (by norm_num)]
  congr 2
  ring

theorem value_mixed {digits : PyStr} (hd : Digits digits) {p : ℕ} (hp : p ≤ digits.length) :
    decimalParts (digits.take p ++ py "." ++ digits.drop p) = (digits, (p : ℤ)) := by
  rw [py_point, List.append_assoc, List.singleton_append, decimalParts_point (digits_take hd _) (digits_drop hd _),
    List.take_append_drop, List.length_take, Nat.min_eq_left hp]

theorem decimalValue_layoutDigits {digits : PyStr} (hd : Digits digits) (hne : digits ≠ []) (position : ℤ) :
    decimalValue (decimalParts (layoutDigits digits position)) = decimalValue (digits, position) := by
  unfold layoutDigits
  dsimp only
  by_cases hsci : 21 ≤ position - 1 ∨ position - 1 ≤ -7
  · rw [if_pos hsci, py_exponentMark, List.append_assoc, List.append_assoc, List.singleton_append,
      value_scientific hd hne, exponentValue_signed, add_sub_cancel]
  rw [if_neg hsci]
  by_cases hsmall : position ≤ 0
  · rw [if_pos hsmall, value_fraction hd]
    congr 2
    omega
  rw [if_neg hsmall]
  by_cases hlarge : (digits.length : ℤ) ≤ position
  · have hposition : position = (digits.length : ℤ) + (position.toNat - digits.length : ℕ) := by omega
    rw [if_pos hlarge, decimalParts_plain (digits_append hd (digits_zeros _)), List.length_append, List.length_replicate,
      Nat.cast_add, value_zeros, ← hposition]
  · rw [if_neg hlarge, value_mixed hd (by omega)]
    congr 2
    omega

theorem digits_strip {digits : PyStr} (hd : Digits digits) (position : ℤ) :
    Digits (stripTrailingZeros (stripLeadingZeros digits position).1) := by
  obtain ⟨k, hk, -⟩ := stripLeadingZeros_eq digits position
  obtain ⟨j, hj⟩ := stripTrailingZeros_eq (stripLeadingZeros digits position).1
  intro c hc
  apply hd c
  rw [hk, hj]
  simp [hc]

theorem decimalValue_layoutFloat {rendered : PyStr} (hd : Digits (decimalParts rendered).1)
    (hne : (decimalParts rendered).1 ≠ []) :
    decimalValue (decimalParts (layoutFloat rendered)) = decimalValue (decimalParts rendered) := by
  rw [layoutFloat_eq]
  dsimp only
  generalize decimalParts rendered = parts at hd hne ⊢
  obtain ⟨digits, position⟩ := parts
  dsimp only at hd hne ⊢
  obtain ⟨k, hk, hposition⟩ := stripLeadingZeros_eq digits position
  have hne' := stripLeadingZeros_ne_nil digits position hne
  obtain ⟨inner, hinner⟩ : ∃ inner, inner = (stripLeadingZeros digits position).1 := ⟨_, rfl⟩
  rw [← hinner] at hk hne' ⊢
  rw [hposition]
  obtain ⟨j, hj⟩ := stripTrailingZeros_eq inner
  have hcore : stripTrailingZeros inner ≠ [] := by
    unfold stripTrailingZeros
    simpa using stripLeadingZeros_ne_nil inner.reverse 0 (by simpa using hne')
  obtain ⟨core, hcoredef⟩ : ∃ core, core = stripTrailingZeros inner := ⟨_, rfl⟩
  rw [← hcoredef] at hj hcore ⊢
  have hdcore : Digits core := by
    rw [hcoredef, hinner]
    exact digits_strip hd position
  rw [decimalValue_layoutDigits hdcore hcore, hk, hj]
  unfold decimalValue
  dsimp only
  rw [digitsValue_append, digitsValue_append, digitsValue_zeros, digitsValue_zeros]
  simp only [List.length_append, List.length_replicate, Nat.zero_mul, Nat.zero_add, Nat.add_zero]
  push_cast
  rw [mul_assoc, ← zpow_natCast, ← zpow_add₀ (by norm_num)]
  congr 2
  ring

/-! ## The shortest rendering has the value of the shortest decimal -/

theorem coefficient_repr (digits : PyStr) :
    digits.take 1 ++ (if digits.length = 1 then [] else py "." ++ digits.drop 1) =
      if digits = [] then py "." else coefficient digits := by
  unfold coefficient
  cases digits with
  | nil => simp
  | cons c rest =>
    cases rest with
    | nil => simp
    | cons d rest => simp

theorem exponentValue_padded (n : ℤ) :
    exponentValue ((if n < 0 then py "-" else py "+") ++
      (if (natText n.natAbs).length < 2 then py "0" ++ natText n.natAbs else natText n.natAbs)) = n := by
  have hdigits : digitsValue (if (natText n.natAbs).length < 2 then py "0" ++ natText n.natAbs else natText n.natAbs) =
      n.natAbs := by
    split_ifs
    · rw [digitsValue_append, digitsValue_natText, show digitsValue (py "0") = 0 from rfl, Nat.zero_mul, Nat.zero_add]
    · exact digitsValue_natText _
  by_cases hneg : n < 0
  · rw [if_pos hneg, exponentValue_minus, hdigits]
    omega
  · rw [if_neg hneg, exponentValue_plus, hdigits]
    omega

/-- The rendering of a value that is not zero, read again: its digits, and the value of its shortest decimal. -/
theorem decimalParts_reprAbs {x : FiniteFloat} (hx : ¬ x.IsZero) :
    Digits (decimalParts x.reprAbs).1 ∧ (decimalParts x.reprAbs).1 ≠ [] ∧
      decimalValue (decimalParts x.reprAbs) = x.shortest.1 * (10 : ℚ) ^ x.shortest.2 := by
  rcases hde : x.shortest with ⟨d, e⟩
  have hd := digits_natText d
  have hne := natText_ne_nil d
  obtain ⟨digits, hdigits⟩ : ∃ digits, digits = natText d := ⟨_, rfl⟩
  have hvalue : decimalValue (digits, (digits.length : ℤ) + e) = d * (10 : ℚ) ^ e := by
    unfold decimalValue
    dsimp only
    rw [hdigits, digitsValue_natText, add_sub_cancel_left]
  unfold FiniteFloat.reprAbs
  rw [if_neg hx, hde]
  dsimp only
  rw [← hdigits] at hd hne ⊢
  by_cases hsci : 16 < (digits.length : ℤ) + e ∨ (digits.length : ℤ) + e < -3
  · rw [if_pos hsci, coefficient_repr, if_neg hne, py_exponentMark, List.append_assoc, List.append_assoc,
      List.singleton_append, value_scientific hd hne, exponentValue_padded, add_sub_cancel]
    exact ⟨hd, hne, hvalue⟩
  rw [if_neg hsci]
  by_cases hsmall : (digits.length : ℤ) + e ≤ 0
  · rw [if_pos hsmall, value_fraction hd, parts_fraction hd]
    refine ⟨digits_append digits_singleZero (digits_append (digits_zeros _) hd), by simp, ?_⟩
    rw [← hvalue]
    congr 2
    omega
  rw [if_neg hsmall]
  by_cases hmixed : (digits.length : ℤ) + e < digits.length
  · rw [if_pos hmixed, value_mixed hd (by omega), Int.toNat_of_nonneg (by omega)]
    exact ⟨hd, hne, hvalue⟩
  · have hwhole : Digits (digits ++ List.replicate (((digits.length : ℤ) + e).toNat - digits.length) (digitChar 0)) :=
      digits_append hd (digits_zeros _)
    have hposition : (digits.length : ℤ) + e =
        (digits.length : ℤ) + (((digits.length : ℤ) + e).toNat - digits.length : ℕ) := by omega
    rw [if_neg hmixed, py_pointZero, show [decimalPoint, digitChar 0] = decimalPoint :: [digitChar 0] from rfl,
      decimalParts_point hwhole digits_singleZero]
    refine ⟨digits_append hwhole digits_singleZero, by simp [hne], ?_⟩
    rw [show [digitChar 0] = List.replicate 1 (digitChar 0) from rfl, value_zeros, List.length_append,
      List.length_replicate, Nat.cast_add, value_zeros, ← hposition, hvalue]

/-! ## Integers -/

/-- The text reads as a ratio that rounds to the binary64 value equal to `n`. -/
def Denotes (text : PyStr) (n : ℕ) : Prop :=
  ∃ (p q : ℕ) (x : FiniteFloat), 0 < q ∧ (p : ℚ) / q = decimalValue (decimalParts text) ∧
    ofRatio false p q = .finite x ∧ x.ratio.1 = n * x.ratio.2

theorem denotes_unique {text : PyStr} {m n : ℕ} (hm : Denotes text m) (hn : Denotes text n) : m = n := by
  obtain ⟨p, q, x, hq, hvalue, hround, hx⟩ := hm
  obtain ⟨p', q', x', hq', hvalue', hround', hx'⟩ := hn
  have hratio : p * q' = p' * q := by
    rw [← hvalue', div_eq_div_iff (by positivity) (by positivity)] at hvalue
    exact_mod_cast hvalue
  rw [ofRatio_congr false hq hq' hratio, hround'] at hround
  cases hround
  have hpos : 0 < x.ratio.2 := scale_pos (by omega) (by omega)
  exact Nat.eq_of_mul_eq_mul_right hpos (hx.symm.trans hx')

theorem denotes_natText {n : ℕ} (hn : n < 2 ^ 53) : Denotes (natText n) n := by
  obtain ⟨x, hround, hx⟩ := ofRatio_nat false hn
  refine ⟨n, 1, x, Nat.one_pos, ?_, hround, hx⟩
  rw [decimalParts_plain (digits_natText n)]
  unfold decimalValue
  dsimp only
  rw [digitsValue_natText, sub_self, zpow_zero]
  simp

theorem denotes_layoutFloat {x : FiniteFloat} {n : ℕ} (hneg : x.neg = false) (hzero : ¬ x.IsZero)
    (hx : x.ratio.1 = n * x.ratio.2) (hn : 2 ^ 53 ≤ n) : Denotes (layoutFloat x.reprAbs) n := by
  obtain ⟨hd, hne, hvalue⟩ := decimalParts_reprAbs hzero
  have hread := FiniteFloat.ofDecimal_shortest hzero
  rw [hneg] at hread
  refine ⟨_, _, x, scale_pos (by omega) (by omega), ?_, hread, hx⟩
  rw [scale_ratio _ (by omega), decimalValue_layoutFloat hd hne, hvalue, zpow_neg, div_inv_eq_mul]
  simp

/-- What the serializer writes for a positive integer: its digits, or the layout of the value that equals it. -/
theorem serializeInteger_cases {n : ℤ} (hn : 0 < n) {text : PyStr} (h : serializeInteger n = .ok text) :
    (n.natAbs < 2 ^ 53 ∧ text = natText n.natAbs) ∨
    ∃ x : FiniteFloat, x.neg = false ∧ ¬ x.IsZero ∧ x.ratio.1 = n.natAbs * x.ratio.2 ∧ 2 ^ 53 ≤ n.natAbs ∧
      text = layoutFloat x.reprAbs := by
  unfold serializeInteger at h
  by_cases hsafe : n.natAbs ≤ maxSafeInteger
  · rw [if_pos hsafe, intText, if_neg (by omega)] at h
    unfold maxSafeInteger at hsafe
    exact .inl ⟨by omega, (Except.ok.inj h).symm⟩
  rw [if_neg hsafe] at h
  cases hfloat : ofInt n with
  | finite x =>
    rw [hfloat] at h
    dsimp only at h
    split_ifs at h with heq
    obtain ⟨hx, hsign⟩ := heq
    have hlarge : 2 ^ 53 ≤ n.natAbs := by
      unfold maxSafeInteger at hsafe
      omega
    have hm := FiniteFloat.normal_of_large hx hlarge
    have hneg : x.neg = false := by
      rcases hsign with hzero | hiff
      · omega
      · simpa [show ¬ n < 0 by omega] using hiff
    have hzero : ¬ x.IsZero := by
      unfold FiniteFloat.IsZero
      omega
    unfold serializeFloat at h
    dsimp only at h
    rw [if_neg hzero, hneg] at h
    exact .inr ⟨x, hneg, hzero, hx, hlarge, (Except.ok.inj h).symm⟩
  | infinite neg =>
    rw [hfloat] at h
    cases h
  | nan =>
    rw [hfloat] at h
    cases h

theorem denotes_of_serializeInteger {n : ℤ} (hn : 0 < n) {text : PyStr} (h : serializeInteger n = .ok text) :
    Denotes text n.natAbs := by
  rcases serializeInteger_cases hn h with ⟨hlt, rfl⟩ | ⟨x, hneg, hzero, hx, hlarge, rfl⟩
  · exact denotes_natText hlt
  · exact denotes_layoutFloat hneg hzero hx hlarge

/-- **The canonical text of a positive integer determines it.** -/
theorem serializeInteger_injective {m n : ℤ} (hm : 0 < m) (hn : 0 < n) {text : PyStr}
    (h : serializeInteger m = .ok text) (h' : serializeInteger n = .ok text) : m = n := by
  have heq := denotes_unique (denotes_of_serializeInteger hm h) (denotes_of_serializeInteger hn h')
  omega

/-! ## The characters of a number -/

def NumberChar (c : CodePoint) : Prop := IsDigit c ∨ c.val = 0x2E ∨ c.val = 0x65 ∨ c.val = 0x2B ∨ c.val = 0x2D

instance (c : CodePoint) : Decidable (NumberChar c) := inferInstanceAs (Decidable (_ ∨ _))

def NumberText (s : PyStr) : Prop := ∀ c ∈ s, NumberChar c

@[simp] theorem numberText_append {s t : PyStr} : NumberText (s ++ t) ↔ NumberText s ∧ NumberText t := by
  simp only [NumberText, List.mem_append, or_imp, forall_and]

theorem numberText_digits {s : PyStr} (h : Digits s) : NumberText s := fun c hc => .inl (h c hc)

theorem numberText_py {s : String} (h : (py s).all fun c => NumberChar c) : NumberText (py s) := by
  intro c hc
  simpa using List.all_eq_true.mp h c hc

theorem numberText_intText (n : ℤ) : NumberText (intText n) := by
  unfold intText
  split_ifs
  · exact numberText_append.2 ⟨numberText_py (by decide), numberText_digits (digits_natText _)⟩
  · exact numberText_digits (digits_natText _)

theorem numberText_layoutDigits {digits : PyStr} (hd : Digits digits) (position : ℤ) :
    NumberText (layoutDigits digits position) := by
  have hpoint : NumberText (py ".") := numberText_py (by decide)
  have hmark : NumberText (py "e") := numberText_py (by decide)
  have hplus : NumberText (py "+") := numberText_py (by decide)
  have hzero : NumberText (py "0.") := numberText_py (by decide)
  have hnil : NumberText [] := fun c hc => by cases hc
  have htake := fun k => numberText_digits (digits_take hd k)
  have hdrop := fun k => numberText_digits (digits_drop hd k)
  have hzeros := fun k => numberText_digits (digits_zeros k)
  have hdigits := numberText_digits hd
  unfold layoutDigits coefficient
  dsimp only
  split_ifs <;> simp only [numberText_append, and_self, numberText_intText, hpoint, hmark, hplus, hzero, hnil, htake,
    hdrop, hzeros, hdigits]

theorem numberText_of_serializeInteger {n : ℤ} (hn : 0 < n) {text : PyStr} (h : serializeInteger n = .ok text) :
    NumberText text := by
  rcases serializeInteger_cases hn h with ⟨-, rfl⟩ | ⟨x, -, hzero, -, -, rfl⟩
  · exact numberText_digits (digits_natText _)
  · obtain ⟨hd, -, -⟩ := decimalParts_reprAbs hzero
    rw [layoutFloat_eq]
    exact numberText_layoutDigits (digits_strip hd _) _

end OcorRuntime.Canonical
