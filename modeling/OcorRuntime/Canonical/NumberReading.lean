import OcorRuntime.Canonical.RoundTrip
import OcorRuntime.Canonical.StandardNumbers

/-! What the canonical text of a number is read as. A layout with a point or an exponent is read as the float it
was made from; a layout without either is read as an integer if it is at most 2^53 - 1, and as that float otherwise.
In both cases the value read has the same canonical text. -/
namespace OcorRuntime.Canonical
open StandardJson
set_option autoImplicit false
set_option maxHeartbeats 250000
set_option maxRecDepth 120000

/-! ## Digits and their value -/

theorem digitChar_digit {c : CodePoint} (hc : IsDigit c) : digitChar (c.val - 48) = c := by
  unfold IsDigit at hc
  apply Fin.ext
  rw [digitChar_val (by omega)]
  omega

theorem natText_digitsValue {ds : PyStr} (h : Whole ds) : natText (digitsValue ds) = ds := by
  obtain ⟨hdigits, hne, hzero⟩ := h
  have hrev : (ds.reverse.map fun c => c.val - 48).reverse.map digitChar = ds := by
    rw [← List.map_reverse, List.reverse_reverse, List.map_map]
    conv_rhs => rw [← List.map_id ds]
    exact List.map_congr_left fun c hc => digitChar_digit (hdigits c hc)
  have hlt : ∀ d ∈ ds.reverse.map fun c => c.val - 48, d < 10 := by
    intro d hd
    obtain ⟨c, hc, rfl⟩ := List.mem_map.mp hd
    have := hdigits c (List.mem_reverse.mp hc)
    unfold IsDigit at this
    omega
  have hvalue : digitsValue ds = Nat.ofDigits 10 (ds.reverse.map fun c => c.val - 48) := by
    rw [← digitsValue_map_reverse _ hlt, hrev]
  obtain ⟨c, t, rfl⟩ := List.exists_cons_of_ne_nil hne
  by_cases hc : c = digitChar 0
  · subst hc
    rw [hzero t rfl]
    rfl
  · have hlast : ∀ hne', ((c :: t).reverse.map fun c => c.val - 48).getLast hne' ≠ 0 := by
      intro hne'
      simp only [List.reverse_cons, List.map_append, List.map_cons, List.map_nil, List.getLast_append_singleton]
      intro hval
      apply hc
      have hd := hdigits c List.mem_cons_self
      rw [← digitChar_digit hd, hval]
    have hnat := Nat.digits_ofDigits 10 (by omega) _ hlt hlast
    rw [← hvalue] at hnat
    have hpos : digitsValue (c :: t) ≠ 0 := by
      intro h0
      rw [h0, Nat.digits_zero] at hnat
      exact absurd hnat.symm (by simp)
    rw [natText, if_neg hpos, hnat, hrev]

theorem ofDecimal_congr (neg : Bool) {d d' : ℕ} {e e' : ℤ} (h : (d : ℚ) * (10 : ℚ) ^ e = d' * (10 : ℚ) ^ e') :
    Binary64.ofDecimal neg d e = Binary64.ofDecimal neg d' e' := by
  have hpos : ∀ (m : ℕ) (f : ℤ), 0 < (Binary64.scale 10 m 1 f).2 := fun m f => Binary64.scale_pos (by omega) (by omega)
  apply Binary64.ofRatio_congr neg (hpos _ _) (hpos _ _)
  rw [← Binary64.ofDecimal_ratio d e, ← Binary64.ofDecimal_ratio d' e'] at h
  have h1 : ((Binary64.scale 10 d 1 (-e)).2 : ℚ) ≠ 0 := by exact_mod_cast (hpos _ _).ne'
  have h2 : ((Binary64.scale 10 d' 1 (-e')).2 : ℚ) ≠ 0 := by exact_mod_cast (hpos _ _).ne'
  rw [div_eq_div_iff h1 h2] at h
  exact_mod_cast h

theorem ofDecimal_nat (neg : Bool) (n : ℕ) : Binary64.ofDecimal neg n 0 = Binary64.ofRatio neg n 1 := by
  simp [Binary64.ofDecimal, Binary64.scale]

/-! ## Integers from 2^53 on -/

theorem div_le_roundHalfEven (p q : ℕ) : p / q ≤ Binary64.roundHalfEven p q := by
  unfold Binary64.roundHalfEven
  dsimp only
  split_ifs <;> omega

theorem ratio_large {x : FiniteFloat} {k : ℕ} (hm : 2 ^ 52 ≤ x.mantissa) (he : x.exponent = k + 1) :
    2 ^ 53 * x.ratio.2 ≤ x.ratio.1 := by
  unfold FiniteFloat.ratio Binary64.scale
  rw [if_neg (by omega), he]
  have hexp : (-(-((k : ℤ) + 1))).toNat = k + 1 := by omega
  rw [hexp, Nat.mul_one]
  calc 2 ^ 53 = 2 ^ 52 * 2 ^ 1 := by norm_num
    _ ≤ x.mantissa * 2 ^ (k + 1) := Nat.mul_le_mul hm (Nat.pow_le_pow_right (by omega) (by omega))

theorem ofParts_eq_finite {neg : Bool} {m : ℕ} {e : ℤ} {x : FiniteFloat} (h : Binary64.ofParts neg m e = .finite x) :
    x.mantissa = m ∧ x.exponent = e := by
  unfold Binary64.ofParts at h
  split_ifs at h with hok
  cases h
  exact ⟨rfl, rfl⟩

theorem ofRatio_large {neg : Bool} {n : ℕ} (hn : 2 ^ 53 ≤ n) {x : FiniteFloat}
    (h : Binary64.ofRatio neg n 1 = .finite x) : 2 ^ 53 * x.ratio.2 ≤ x.ratio.1 := by
  have h0 : n ≠ 0 := by omega
  have hlog : 53 ≤ Nat.log 2 n := (Nat.le_log_iff_pow_le (by omega) h0).mpr hn
  obtain ⟨k, hk⟩ : ∃ k, Nat.log 2 n = 53 + k := ⟨Nat.log 2 n - 53, by omega⟩
  have he : max (-1074) ((Nat.log 2 n : ℤ) - 52) = ((k : ℤ) + 1) := by omega
  have hscale : Binary64.scale 2 n 1 ((k : ℤ) + 1) = (n, 2 ^ (k + 1)) := by
    unfold Binary64.scale
    have htoNat : ((k : ℤ) + 1).toNat = k + 1 := by omega
    rw [if_pos (by omega), htoNat, Nat.one_mul]
  have hround : 2 ^ 52 ≤ Binary64.roundHalfEven n (2 ^ (k + 1)) := by
    refine le_trans ?_ (div_le_roundHalfEven _ _)
    rw [Nat.le_div_iff_mul_le (Nat.pow_pos (by omega))]
    calc 2 ^ 52 * 2 ^ (k + 1) = 2 ^ (53 + k) := by rw [← Nat.pow_add]; congr 1; omega
      _ = 2 ^ Nat.log 2 n := by rw [hk]
      _ ≤ n := Nat.pow_log_le_self 2 h0
  unfold Binary64.ofRatio at h
  simp only [if_neg h0, leading_two_nat h0, he, hscale] at h
  split_ifs at h with hcarry
  · obtain ⟨hm, hexp⟩ := ofParts_eq_finite h
    have hexp' : x.exponent = (k + 1 : ℕ) + 1 := by
      rw [hexp]
      push_cast
      rfl
    exact ratio_large (hm ▸ le_refl _) hexp'
  · obtain ⟨hm, hexp⟩ := ofParts_eq_finite h
    exact ratio_large (hm ▸ hround) hexp

theorem le_maxSafe_of_absLe {neg : Bool} {n : ℕ} {x : FiniteFloat} (h : Binary64.ofRatio neg n 1 = .finite x)
    (hx : x.AbsLe maxSafeInteger) : n ≤ maxSafeInteger := by
  by_contra hlarge
  have hge := ofRatio_large (show 2 ^ 53 ≤ n by unfold maxSafeInteger at hlarge; omega) h
  have hpos := x.ratio_pos
  unfold FiniteFloat.AbsLe maxSafeInteger at hx
  have hlt : 9007199254740991 * x.ratio.2 < 2 ^ 53 * x.ratio.2 := Nat.mul_lt_mul_of_pos_right (by norm_num) hpos
  omega

/-! ## Scanning a layout -/

theorem scanExponent_signed (e : ℤ) {rest : PyStr} (hrest : EndsDigits rest) :
    scanExponent (exponentMark :: ((if 0 ≤ e then py "+" else []) ++ intText e ++ rest)) = (some e, rest) := by
  obtain ⟨htake, hdrop⟩ := takeDigits_ends (digits_natText e.natAbs) hrest
  have hne := natText_ne_nil e.natAbs
  rw [scanExponent.eq_def]
  unfold intText
  by_cases hneg : e < 0
  · rw [if_neg (by omega), if_pos hneg, show py "-" = [codePoint 0x2D] by decide]
    simp only [List.cons_append, List.nil_append]
    rw [if_pos (by decide), if_pos ⟨by decide, by rw [htake]; exact hne⟩, htake, hdrop, digitsValue_natText]
    congr 2
    omega
  · rw [if_pos (by omega), if_neg hneg, show py "+" = [codePoint 0x2B] by decide]
    simp only [List.cons_append, List.nil_append]
    rw [if_pos (by decide), if_neg (by rintro ⟨h, -⟩; exact absurd h (by decide)),
      if_pos ⟨by decide, by rw [htake]; exact hne⟩, htake, hdrop, digitsValue_natText]
    congr 2
    omega

section
variable (neg : Bool) {ds fs rest : PyStr}

theorem scanUnsigned_point (hds : Whole ds) (hfs : Digits fs) (hne : fs ≠ []) (hrest : Stop rest) :
    scanUnsigned neg (ds ++ decimalPoint :: (fs ++ rest)) =
      .ok (.float (Binary64.ofDecimal neg (digitsValue (ds ++ fs)) (-(fs.length : ℤ))), rest) := by
  rw [scanUnsigned, scanDigits_whole hds (endsDigits_cons (by decide) _)]
  simp only [scanFraction_point hfs hne (endsDigits_of_stop hrest), scanExponent_stop hrest, hne, false_and, if_false]
  simp

theorem scanUnsigned_exponent (e : ℤ) (hds : Whole ds) (hrest : Stop rest) :
    scanUnsigned neg (ds ++ exponentMark :: ((if 0 ≤ e then py "+" else []) ++ intText e ++ rest)) =
      .ok (.float (Binary64.ofDecimal neg (digitsValue ds) e), rest) := by
  rw [scanUnsigned, scanDigits_whole hds (endsDigits_cons (by decide) _)]
  simp only [scanFraction_none (show exponentMark.val ≠ 0x2E by decide),
    scanExponent_signed e (endsDigits_of_stop hrest)]
  simp

theorem scanUnsigned_scientific (e : ℤ) (hds : Whole ds) (hfs : Digits fs) (hne : fs ≠ []) (hrest : Stop rest) :
    scanUnsigned neg (ds ++ decimalPoint :: (fs ++ exponentMark ::
        ((if 0 ≤ e then py "+" else []) ++ intText e ++ rest))) =
      .ok (.float (Binary64.ofDecimal neg (digitsValue (ds ++ fs)) (e - fs.length)), rest) := by
  rw [scanUnsigned, scanDigits_whole hds (endsDigits_cons (by decide) _)]
  simp only [scanFraction_point hfs hne (endsDigits_cons (show ¬ IsDigit exponentMark by decide) _),
    scanExponent_signed e (endsDigits_of_stop hrest)]
  simp

theorem scanUnsigned_whole (hds : Whole ds) (hrest : Stop rest) :
    scanUnsigned neg (ds ++ rest) = (parseInteger neg ds).map fun v => (v, rest) := by
  rw [scanUnsigned, scanDigits_whole hds (endsDigits_of_stop hrest)]
  simp only [scanFraction_stop hrest, scanExponent_stop hrest, and_self, if_true]

end

/-- Significant digits: the first one is not zero. -/
structure Significant (ds : PyStr) : Prop where
  digits : Digits ds
  head : ∃ c t, ds = c :: t ∧ c ≠ digitChar 0

namespace Significant
variable {ds : PyStr}

theorem ne_nil (h : Significant ds) : ds ≠ [] := by
  obtain ⟨c, t, rfl, -⟩ := h.head
  exact List.cons_ne_nil c t

theorem whole_take (h : Significant ds) {n : ℕ} (hn : 0 < n) : Whole (ds.take n) := by
  obtain ⟨c, t, rfl, hc⟩ := h.head
  obtain ⟨k, rfl⟩ : ∃ k, n = k + 1 := ⟨n - 1, by omega⟩
  refine ⟨digits_take h.digits _, by simp, fun u hu => ?_⟩
  rw [List.take_succ_cons] at hu
  exact absurd (List.cons.inj hu).1 hc

theorem whole_zeros (h : Significant ds) (k : ℕ) : Whole (ds ++ List.replicate k (digitChar 0)) := by
  refine ⟨digits_append h.digits (digits_zeros k), by simp [h.ne_nil], fun u hu => ?_⟩
  obtain ⟨c, t, rfl, hc⟩ := h.head
  rw [List.cons_append] at hu
  exact absurd (List.cons.inj hu).1 hc

end Significant

/-- The layout is digits only. -/
def IsWhole (digits : PyStr) (position : ℤ) : Prop := position ≤ 21 ∧ (digits.length : ℤ) ≤ position

theorem scanUnsigned_layoutDigits (neg : Bool) {digits : PyStr} (hd : Significant digits) {position : ℤ}
    (hpos : ¬ IsWhole digits position) {rest : PyStr} (hrest : Stop rest) :
    scanUnsigned neg (layoutDigits digits position ++ rest) =
      .ok (.float (Binary64.ofDecimal neg (digitsValue digits) (position - digits.length)), rest) := by
  have hlen : 0 < digits.length := List.length_pos_iff.mpr hd.ne_nil
  unfold IsWhole at hpos
  unfold layoutDigits
  dsimp only
  by_cases hsci : 21 ≤ position - 1 ∨ position - 1 ≤ -7
  · rw [if_pos hsci, py_exponentMark]
    by_cases hone : 1 < digits.length
    · have hdrop : digits.drop 1 ≠ [] := by
        intro h
        have := congrArg List.length h
        rw [List.length_drop, List.length_nil] at this
        omega
      have h := scanUnsigned_scientific neg (position - 1) (hd.whole_take (show 0 < 1 by omega)) (digits_drop hd.digits 1) hdrop hrest
      rw [List.take_append_drop, List.length_drop] at h
      have he : position - 1 - ((digits.length - 1 : ℕ) : ℤ) = position - digits.length := by omega
      rw [he] at h
      rw [← h, coefficient, if_pos hone, py_point]
      simp only [List.append_assoc, List.cons_append, List.nil_append]
    · have h := scanUnsigned_exponent neg (position - 1) (hd.whole_take (show 0 < 1 by omega)) hrest
      rw [List.take_of_length_le (by omega)] at h
      have he : position - 1 = position - digits.length := by omega
      rw [← he, ← h, coefficient, if_neg hone, List.append_nil, List.take_of_length_le (by omega)]
      simp only [List.append_assoc, List.cons_append, List.nil_append]
  rw [if_neg hsci]
  by_cases hsmall : position ≤ 0
  · have hfs : List.replicate position.natAbs (digitChar 0) ++ digits ≠ [] := by simp [hd.ne_nil]
    have h := scanUnsigned_point neg (whole_single (c := digitChar 0) (by decide))
      (digits_append (digits_zeros position.natAbs) hd.digits) hfs hrest
    have hv : digitsValue ([digitChar 0] ++ (List.replicate position.natAbs (digitChar 0) ++ digits)) = digitsValue digits := by
      rw [digitsValue_append, digitsValue_append, digitsValue_zeros, show digitsValue [digitChar 0] = 0 from rfl,
        Nat.zero_mul, Nat.zero_add, Nat.zero_mul, Nat.zero_add]
    have he : -(((List.replicate position.natAbs (digitChar 0) ++ digits).length : ℕ) : ℤ) = position - digits.length := by
      rw [List.length_append, List.length_replicate]
      omega
    rw [hv, he] at h
    rw [← h, if_pos hsmall, py_zeroPoint]
    simp only [List.append_assoc, List.cons_append, List.nil_append]
  rw [if_neg hsmall, if_neg (by omega)]
  have hdrop : digits.drop position.toNat ≠ [] := by
    intro h
    have := congrArg List.length h
    rw [List.length_drop, List.length_nil] at this
    omega
  have h := scanUnsigned_point neg (hd.whole_take (show 0 < position.toNat by omega)) (digits_drop hd.digits _) hdrop hrest
  rw [List.take_append_drop, List.length_drop] at h
  have he : -((digits.length - position.toNat : ℕ) : ℤ) = position - digits.length := by omega
  rw [he] at h
  rw [← h, py_point]
  simp only [List.append_assoc, List.cons_append, List.nil_append]

theorem layoutDigits_whole {digits : PyStr} {position : ℤ} (hne : digits ≠ []) (hpos : IsWhole digits position) :
    layoutDigits digits position = digits ++ List.replicate (position.toNat - digits.length) (digitChar 0) := by
  have hlen : 0 < digits.length := List.length_pos_iff.mpr hne
  unfold IsWhole at hpos
  unfold layoutDigits
  dsimp only
  rw [if_neg (by omega), if_neg (by omega), if_pos hpos.2]

/-! ## The layout of a float -/

theorem stripLeadingZeros_head : ∀ (digits : PyStr) (position : ℤ),
    (∃ c, (stripLeadingZeros digits position).1 = [c]) ∨
      ∀ c t, (stripLeadingZeros digits position).1 = c :: t → c ≠ digitChar 0
  | [], _ => .inr fun c t h => by simp [stripLeadingZeros] at h
  | [c], _ => .inl ⟨c, by simp [stripLeadingZeros]⟩
  | c :: d :: rest, position => by
      unfold stripLeadingZeros
      split_ifs with h
      · exact stripLeadingZeros_head (d :: rest) (position - 1)
      · refine .inr fun a t heq => ?_
        obtain ⟨rfl, -⟩ := List.cons.inj heq
        exact h

theorem layoutFloat_parts {x : FiniteFloat} (hx : ¬ x.IsZero) : ∃ digits position,
    layoutFloat x.reprAbs = layoutDigits digits position ∧ Significant digits ∧
      Binary64.ofDecimal x.neg (digitsValue digits) (position - digits.length) = .finite x := by
  obtain ⟨hd, hne, hvalue⟩ := decimalParts_reprAbs hx
  have hlayout := decimalValue_layoutFloat hd hne
  rw [layoutFloat_eq] at hlayout ⊢
  dsimp only at hlayout ⊢
  generalize decimalParts x.reprAbs = parts at hd hne hvalue hlayout ⊢
  obtain ⟨all, point⟩ := parts
  dsimp only at hd hne hvalue hlayout ⊢
  have hinner := stripLeadingZeros_ne_nil all point hne
  have hhead := stripLeadingZeros_head all point
  have hdigits := digits_strip hd point
  generalize (stripLeadingZeros all point).2 = position at hlayout ⊢
  generalize (stripLeadingZeros all point).1 = inner at hinner hhead hdigits hlayout ⊢
  obtain ⟨j, hj⟩ := stripTrailingZeros_eq inner
  have hcore : stripTrailingZeros inner ≠ [] := by
    unfold stripTrailingZeros
    simpa using stripLeadingZeros_ne_nil inner.reverse 0 (by simpa using hinner)
  generalize stripTrailingZeros inner = digits at hdigits hlayout hj hcore ⊢
  rw [decimalValue_layoutDigits hdigits hcore, hvalue] at hlayout
  have hread : Binary64.ofDecimal x.neg (digitsValue digits) (position - digits.length) = .finite x := by
    rw [← FiniteFloat.ofDecimal_shortest hx]
    exact ofDecimal_congr x.neg hlayout
  refine ⟨digits, position, rfl, ⟨hdigits, ?_⟩, hread⟩
  obtain ⟨c, t, rfl⟩ := List.exists_cons_of_ne_nil hcore
  refine ⟨c, t, rfl, ?_⟩
  rcases hhead with ⟨d, rfl⟩ | hhead
  · -- a single digit: it is not zero, for the value is not
    rintro rfl
    have hzero : digitsValue (digitChar 0 :: t) = 0 := by
      rw [List.cons_append] at hj
      obtain ⟨-, hrest⟩ := List.cons.inj hj
      have ht : t = [] := (List.append_eq_nil_iff.mp hrest.symm).1
      rw [ht]
      rfl
    rw [decimalValue, hzero, Nat.cast_zero, zero_mul] at hlayout
    have hshort : (x.shortest.1 : ℚ) ≠ 0 := by exact_mod_cast shortest_ne_zero hx
    exact (mul_ne_zero hshort (zpow_ne_zero _ (by norm_num))) hlayout.symm
  · exact hhead c _ hj

/-- The canonical text of a float that is not zero. -/
def floatText (x : FiniteFloat) : PyStr := (if x.neg then py "-" else []) ++ layoutFloat x.reprAbs

theorem serialize_finite {x : FiniteFloat} (hx : ¬ x.IsZero) : serialize (.float (.finite x)) = .ok (floatText x) := by
  rw [serialize, serializeFloat, if_neg hx]
  rfl

/-- **The text of a float is read as a value with that text.** -/
theorem scanUnsigned_layoutFloat {x : FiniteFloat} (hx : ¬ x.IsZero) :
    ∃ v, (∀ rest, Stop rest → scanUnsigned x.neg (layoutFloat x.reprAbs ++ rest) = .ok (v, rest)) ∧
      serialize v = .ok (floatText x) := by
  obtain ⟨digits, position, hlayout, hd, hread⟩ := layoutFloat_parts hx
  rw [floatText, hlayout]
  by_cases hpos : IsWhole digits position
  · rw [layoutDigits_whole hd.ne_nil hpos]
    set zeros := List.replicate (position.toNat - digits.length) (digitChar 0) with hzeros
    have hwhole : Whole (digits ++ zeros) := hd.whole_zeros _
    have hlen : 0 < digits.length := List.length_pos_iff.mpr hd.ne_nil
    have hround : Binary64.ofRatio x.neg (digitsValue (digits ++ zeros)) 1 = .finite x := by
      rw [← ofDecimal_nat, ← hread]
      apply ofDecimal_congr
      rw [digitsValue_append, hzeros, digitsValue_zeros, List.length_replicate, Nat.add_zero, zpow_zero, mul_one]
      push_cast
      rw [← zpow_natCast]
      congr 2
      unfold IsWhole at hpos
      omega
    have hparse : parseInteger x.neg (digits ++ zeros) = if x.AbsLe maxSafeInteger then
        .ok (.int (if x.neg then -(digitsValue (digits ++ zeros) : ℤ) else digitsValue (digits ++ zeros)))
        else .ok (.float (.finite x)) := by
      rw [parseInteger, hround]
    by_cases hsafe : x.AbsLe maxSafeInteger
    · refine ⟨.int (if x.neg then -(digitsValue (digits ++ zeros) : ℤ) else digitsValue (digits ++ zeros)),
        fun rest hrest => ?_, ?_⟩
      · rw [scanUnsigned_whole x.neg hwhole hrest, hparse, if_pos hsafe]
        rfl
      · have hle := le_maxSafe_of_absLe hround hsafe
        have hposv : 0 < digitsValue (digits ++ zeros) := by
          rcases Nat.eq_zero_or_pos (digitsValue (digits ++ zeros)) with h0 | h0
          · have htext := natText_digitsValue hwhole
            rw [h0] at htext
            obtain ⟨c, t, rfl, hc⟩ := hd.head
            rw [List.cons_append] at htext
            exact absurd (List.cons.inj (show [digitChar 0] = _ from htext)).1.symm hc
          · exact h0
        rw [serialize, serializeInteger, if_pos (by split_ifs <;> omega), intText]
        cases hneg : x.neg with
        | true =>
          simp only [if_true]
          rw [if_pos (by omega), Int.natAbs_neg, Int.natAbs_natCast, natText_digitsValue hwhole]
        | false =>
          simp only [Bool.false_eq_true, if_false]
          rw [if_neg (by omega), Int.natAbs_natCast, natText_digitsValue hwhole, List.nil_append]
    · refine ⟨.float (.finite x), fun rest hrest => ?_, ?_⟩
      · rw [scanUnsigned_whole x.neg hwhole hrest, hparse, if_neg hsafe]
        rfl
      · rw [serialize_finite hx, floatText, hlayout, layoutDigits_whole hd.ne_nil hpos]
  · refine ⟨.float (.finite x), fun rest hrest => ?_, ?_⟩
    · rw [scanUnsigned_layoutDigits x.neg hd hpos hrest, hread]
    · rw [serialize_finite hx, floatText, hlayout]

/-! ## Numbers among other values -/

theorem readsAs_number {neg : Bool} {body : PyStr} {v : PyValue} (d : CodePoint) (t : PyStr) (hbody : body = d :: t)
    (hd : IsDigit d) (hscan : ∀ rest, Stop rest → scanUnsigned neg (body ++ rest) = .ok (v, rest)) :
    ReadsAs ((if neg then py "-" else []) ++ body) v := by
  have hdigit : 48 ≤ d.val ∧ d.val ≤ 57 := hd
  have hne : ∀ k : ℕ, k < 0x110000 → (k < 48 ∨ 57 < k) → codePoint k ≠ d := by
    intro k hk h he
    have := congrArg Fin.val he
    rw [codePoint_val k hk] at this
    omega
  cases neg with
  | false =>
    simp only [Bool.false_eq_true, if_false, List.nil_append]
    refine ⟨⟨d, t, hbody, by unfold Start; omega⟩, fun fuel rest hf hrest => ?_⟩
    have h := hscan rest hrest
    rw [hbody, List.length_cons] at hf
    obtain ⟨n, rfl⟩ : ∃ n, fuel = n + 1 := ⟨fuel - 1, by omega⟩
    rw [hbody, List.cons_append] at h ⊢
    rw [scanOnce, if_neg (by omega), if_neg (by omega), if_neg (by omega), py_null, py_true, py_false, py_nan,
      py_infinity, py_negInfinity, if_neg (not_prefix_cons (hne _ (by omega) (by omega)) _ _),
      if_neg (not_prefix_cons (hne _ (by omega) (by omega)) _ _),
      if_neg (not_prefix_cons (hne _ (by omega) (by omega)) _ _),
      if_neg (not_prefix_cons (hne _ (by omega) (by omega)) _ _),
      if_neg (not_prefix_cons (hne _ (by omega) (by omega)) _ _),
      if_neg (not_prefix_cons (hne _ (by omega) (by omega)) _ _), scanNumber, if_neg (by omega), h]
  | true =>
    have hm : py "-" = [codePoint 0x2D] := by decide
    simp only [if_true]
    rw [hm]
    refine ⟨⟨codePoint 0x2D, body, rfl, by unfold Start; decide⟩, fun fuel rest hf hrest => ?_⟩
    rw [List.singleton_append, List.length_cons] at hf
    obtain ⟨n, rfl⟩ : ∃ n, fuel = n + 1 := ⟨fuel - 1, by omega⟩
    have hinf : ¬ py "-Infinity" <+: codePoint 0x2D :: (body ++ rest) := by
      rw [py_negInfinity, List.cons_prefix_cons, hbody, List.cons_append]
      rintro ⟨-, hp⟩
      exact not_prefix_cons (hne _ (by omega) (by omega)) _ _ hp
    rw [List.singleton_append, List.cons_append, scanOnce, if_neg (by decide), if_neg (by decide), if_neg (by decide),
      py_null, py_true, py_false, py_nan, py_infinity, if_neg (not_prefix_cons (by decide) _ _),
      if_neg (not_prefix_cons (by decide) _ _), if_neg (not_prefix_cons (by decide) _ _),
      if_neg (not_prefix_cons (by decide) _ _), if_neg (not_prefix_cons (by decide) _ _), if_neg hinf, scanNumber,
      if_pos (by decide), hscan rest hrest]

theorem layoutDigits_head {digits : PyStr} (hd : Significant digits) (position : ℤ) :
    ∃ c t, layoutDigits digits position = c :: t ∧ IsDigit c := by
  obtain ⟨c, t, rfl, -⟩ := hd.head
  have hc := hd.digits c List.mem_cons_self
  unfold layoutDigits coefficient
  dsimp only
  split_ifs
  all_goals first
    | exact ⟨c, _, rfl, hc⟩
    | exact ⟨digitChar 0, _, rfl, by decide⟩
    | skip
  obtain ⟨k, hk⟩ : ∃ k, position.toNat = k + 1 := ⟨position.toNat - 1, by omega⟩
  rw [hk]
  exact ⟨c, _, rfl, hc⟩

theorem readsAs_floatText {x : FiniteFloat} (hx : ¬ x.IsZero) :
    ∃ v, ReadsAs (floatText x) v ∧ serialize v = .ok (floatText x) := by
  obtain ⟨v, hscan, hv⟩ := scanUnsigned_layoutFloat hx
  obtain ⟨digits, position, hlayout, hd, -⟩ := layoutFloat_parts hx
  obtain ⟨c, t, hct, hc⟩ := layoutDigits_head hd position
  exact ⟨v, readsAs_number c t (hlayout.trans hct) hc hscan, hv⟩

end OcorRuntime.Canonical
