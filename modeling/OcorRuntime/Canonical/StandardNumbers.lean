import OcorRuntime.Canonical.StandardText

/-! `json.loads` reads back the numbers `json.dumps` writes: integers exactly, and a float through the
shortest decimal that denotes it, in each of the layouts of `float.__repr__`. -/
namespace OcorRuntime.StandardJson
open Canonical
set_option autoImplicit false
set_option maxHeartbeats 250000
set_option maxRecDepth 120000

/-! ## Scanning -/

/-- The text does not go on with a digit. -/
def EndsDigits (rest : PyStr) : Prop := ∀ c t, rest = c :: t → ¬ IsDigit c

theorem endsDigits_of_stop {rest : PyStr} (h : Stop rest) : EndsDigits rest := by
  rintro c t rfl
  rcases h with h | ⟨d, tail, h, hd⟩
  · cases h
  · obtain ⟨rfl, -⟩ := List.cons.inj h
    unfold IsDigit
    omega

theorem endsDigits_cons {c : CodePoint} (h : ¬ IsDigit c) (t : PyStr) : EndsDigits (c :: t) := by
  intro d u heq
  obtain ⟨rfl, -⟩ := List.cons.inj heq
  exact h

theorem takeDigits_ends {ds rest : PyStr} (hds : Digits ds) (hrest : EndsDigits rest) :
    takeDigits (ds ++ rest) = ds ∧ dropDigits (ds ++ rest) = rest := by
  unfold takeDigits dropDigits
  induction ds with
  | nil =>
    cases rest with
    | nil => exact ⟨rfl, rfl⟩
    | cons c tail =>
      have hnd := hrest c tail rfl
      exact ⟨List.takeWhile_cons_of_neg (by simpa using hnd), List.dropWhile_cons_of_neg (by simpa using hnd)⟩
  | cons c ds ih =>
    have hc := hds c (List.mem_cons_self ..)
    obtain ⟨h1, h2⟩ := ih fun d hd => hds d (List.mem_cons_of_mem c hd)
    rw [List.cons_append, List.takeWhile_cons_of_pos (by simpa using hc),
      List.dropWhile_cons_of_pos (by simpa using hc), h1, h2]
    exact ⟨rfl, rfl⟩

/-- The digits in front of a point: `0`, or digits that do not start with it. -/
def Whole (ds : PyStr) : Prop := Digits ds ∧ ds ≠ [] ∧ ∀ t, ds = digitChar 0 :: t → t = []

theorem scanDigits_whole {ds rest : PyStr} (hds : Whole ds) (hrest : EndsDigits rest) :
    scanDigits (ds ++ rest) = some (ds, rest) := by
  obtain ⟨hdigits, hne, hzero⟩ := hds
  obtain ⟨c, t, rfl⟩ := List.exists_cons_of_ne_nil hne
  rw [List.cons_append, scanDigits]
  by_cases h0 : c = digitChar 0
  · subst h0
    rw [if_pos rfl, hzero t rfl, List.nil_append]
  · obtain ⟨h1, h2⟩ := takeDigits_ends (fun d hd => hdigits d (List.mem_cons_of_mem c hd)) hrest
    rw [if_neg h0, if_pos (hdigits c (List.mem_cons_self ..)), h1, h2]

theorem scanFraction_point {fs rest : PyStr} (hfs : Digits fs) (hne : fs ≠ []) (hrest : EndsDigits rest) :
    scanFraction (decimalPoint :: (fs ++ rest)) = (fs, rest) := by
  obtain ⟨h1, h2⟩ := takeDigits_ends hfs hrest
  rw [scanFraction, h1, h2, if_pos ⟨by decide, hne⟩]

theorem scanFraction_none {c : CodePoint} (hc : c.val ≠ 0x2E) (t : PyStr) : scanFraction (c :: t) = ([], c :: t) := by
  rw [scanFraction, if_neg fun h => hc h.1]

/-- The exponent of `float.__repr__`: a sign and at least two digits. -/
def exponentText (e : ℤ) : PyStr :=
  (if e < 0 then py "-" else py "+") ++ (if (natText e.natAbs).length < 2 then py "0" ++ natText e.natAbs else natText e.natAbs)

theorem scanExponent_text (e : ℤ) {rest : PyStr} (hrest : EndsDigits rest) :
    scanExponent (exponentMark :: (exponentText e ++ rest)) = (some e, rest) := by
  obtain ⟨ds, hds⟩ : ∃ ds, ds = if (natText e.natAbs).length < 2 then py "0" ++ natText e.natAbs else natText e.natAbs :=
    ⟨_, rfl⟩
  have hdigits : Digits ds := by
    rw [hds]
    split_ifs
    · exact digits_append digits_singleZero (digits_natText _)
    · exact digits_natText _
  have hne : ds ≠ [] := by
    rw [hds]
    have := natText_ne_nil e.natAbs
    split_ifs
    · simp [this]
    · exact this
  have hvalue : digitsValue ds = e.natAbs := by
    rw [hds]
    split_ifs
    · rw [digitsValue_append, digitsValue_natText, show digitsValue (py "0") = 0 from rfl, Nat.zero_mul, Nat.zero_add]
    · exact digitsValue_natText _
  obtain ⟨h1, h2⟩ := takeDigits_ends hdigits hrest
  unfold exponentText
  rw [← hds]
  rw [scanExponent.eq_def]
  by_cases hneg : e < 0
  · rw [if_pos hneg, show py "-" = [codePoint 0x2D] by decide]
    simp only [List.cons_append, List.nil_append]
    rw [if_pos (by decide), if_pos ⟨by decide, by rw [h1]; exact hne⟩, h1, h2, hvalue]
    congr 2
    omega
  · rw [if_neg hneg, show py "+" = [codePoint 0x2B] by decide]
    simp only [List.cons_append, List.nil_append]
    rw [if_pos (by decide), if_neg (by rintro ⟨h, -⟩; exact absurd h (by decide)),
      if_pos ⟨by decide, by rw [h1]; exact hne⟩, h1, h2, hvalue]
    congr 2
    omega

/-! ## Floats -/

theorem loadUnsigned_point (neg : Bool) {ds fs rest : PyStr} (hds : Whole ds) (hfs : Digits fs) (hne : fs ≠ [])
    (hrest : Stop rest) : loadUnsigned neg (ds ++ decimalPoint :: (fs ++ rest)) =
      .ok (.float (Binary64.ofDecimal neg (digitsValue (ds ++ fs)) (-(fs.length : ℤ))), rest) := by
  rw [loadUnsigned, scanDigits_whole hds (endsDigits_cons (by decide) _)]
  simp only [scanFraction_point hfs hne (endsDigits_of_stop hrest), scanExponent_stop hrest, hne, false_and, if_false]
  simp

theorem loadUnsigned_exponent (neg : Bool) {ds rest : PyStr} (e : ℤ) (hds : Whole ds) (hrest : Stop rest) :
    loadUnsigned neg (ds ++ exponentMark :: (exponentText e ++ rest)) =
      .ok (.float (Binary64.ofDecimal neg (digitsValue ds) e), rest) := by
  rw [loadUnsigned, scanDigits_whole hds (endsDigits_cons (by decide) _)]
  simp only [scanFraction_none (show exponentMark.val ≠ 0x2E by decide),
    scanExponent_text e (endsDigits_of_stop hrest)]
  simp

theorem loadUnsigned_scientific (neg : Bool) {ds fs rest : PyStr} (e : ℤ) (hds : Whole ds) (hfs : Digits fs)
    (hne : fs ≠ []) (hrest : Stop rest) :
    loadUnsigned neg (ds ++ decimalPoint :: (fs ++ exponentMark :: (exponentText e ++ rest))) =
      .ok (.float (Binary64.ofDecimal neg (digitsValue (ds ++ fs)) (e - fs.length)), rest) := by
  rw [loadUnsigned, scanDigits_whole hds (endsDigits_cons (by decide) _)]
  simp only [scanFraction_point hfs hne (endsDigits_cons (show ¬ IsDigit exponentMark by decide) _),
    scanExponent_text e (endsDigits_of_stop hrest)]
  simp

theorem whole_single {c : CodePoint} (hc : IsDigit c) : Whole [c] := by
  refine ⟨?_, by simp, ?_⟩
  · intro d hd
    rwa [List.mem_singleton.mp hd]
  · intro t ht
    exact (List.cons.inj ht).2.symm

theorem whole_take (d : ℕ) {n : ℕ} (hn : 0 < n) : Whole ((natText d).take n) := by
  obtain ⟨c, t, ht⟩ := List.exists_cons_of_ne_nil (natText_ne_nil d)
  obtain ⟨k, rfl⟩ : ∃ k, n = k + 1 := ⟨n - 1, by omega⟩
  refine ⟨digits_take (digits_natText d) _, by simp [ht], ?_⟩
  intro u hu
  rw [ht, List.take_succ_cons] at hu
  obtain ⟨rfl, rfl⟩ := List.cons.inj hu
  rw [natText_head ht, List.take_nil]

theorem whole_append_zeros {d : ℕ} (hd : d ≠ 0) (k : ℕ) : Whole (natText d ++ List.replicate k (digitChar 0)) := by
  obtain ⟨c, t, ht⟩ := List.exists_cons_of_ne_nil (natText_ne_nil d)
  refine ⟨digits_append (digits_natText d) (digits_zeros k), by simp [ht], ?_⟩
  intro u hu
  rw [ht, List.cons_append] at hu
  obtain ⟨rfl, -⟩ := List.cons.inj hu
  have hnil := natText_head ht
  subst hnil
  have hvalue := digitsValue_natText d
  rw [ht] at hvalue
  exact absurd hvalue.symm hd

theorem ofDecimal_mul (neg : Bool) (d k : ℕ) (e : ℤ) :
    Binary64.ofDecimal neg (d * 10 ^ k) (e - k) = Binary64.ofDecimal neg d e := by
  have hpos : ∀ (m : ℕ) (f : ℤ), 0 < (Binary64.scale 10 m 1 f).2 := fun m f => Binary64.scale_pos (by omega) (by omega)
  apply Binary64.ofRatio_congr neg (hpos _ _) (hpos _ _)
  have hleft := Binary64.ofDecimal_ratio (d * 10 ^ k) (e - k)
  have hright := Binary64.ofDecimal_ratio d e
  have hten : (10 : ℚ) ≠ 0 := by norm_num
  have hsame : ((d * 10 ^ k : ℕ) : ℚ) * (10 : ℚ) ^ (e - k) = d * (10 : ℚ) ^ e := by
    push_cast
    rw [zpow_sub₀ hten, zpow_natCast]
    field_simp
  rw [hsame, ← hright] at hleft
  have h1 : ((Binary64.scale 10 (d * 10 ^ k) 1 (-(e - k))).2 : ℚ) ≠ 0 := by exact_mod_cast (hpos _ _).ne'
  have h2 : ((Binary64.scale 10 d 1 (-e)).2 : ℚ) ≠ 0 := by exact_mod_cast (hpos _ _).ne'
  rw [div_eq_div_iff h1 h2] at hleft
  exact_mod_cast hleft

theorem shortest_ne_zero {x : FiniteFloat} (hx : ¬ x.IsZero) : x.shortest.1 ≠ 0 := by
  intro h
  have hread := FiniteFloat.ofDecimal_shortest hx
  rw [h] at hread
  have hzero : Binary64.ofDecimal x.neg 0 x.shortest.2 = .finite ⟨x.neg, 0, -1074, by decide⟩ := by
    unfold Binary64.ofDecimal Binary64.scale
    split_ifs <;> simp [Binary64.ofRatio, Binary64.ofParts]
  rw [hzero] at hread
  exact hx (congrArg FiniteFloat.mantissa (Binary64.finite.inj hread)).symm

theorem loadUnsigned_zero (neg : Bool) {rest : PyStr} (hrest : Stop rest) :
    loadUnsigned neg (py "0.0" ++ rest) = .ok (.float (.finite ⟨neg, 0, -1074, by decide⟩), rest) := by
  have hwhole : Whole [digitChar 0] := whole_single (by decide)
  have h := loadUnsigned_point neg hwhole digits_singleZero (by simp) hrest
  rw [show py "0.0" ++ rest = [digitChar 0] ++ decimalPoint :: ([digitChar 0] ++ rest) from rfl, h]
  cases neg <;> rfl

/-- Each layout of `float.__repr__` is read as the shortest decimal it was made from. -/
theorem loadUnsigned_reprAbs {x : FiniteFloat} (hx : ¬ x.IsZero) {rest : PyStr} (hrest : Stop rest) :
    loadUnsigned x.neg (x.reprAbs ++ rest) = .ok (.float (.finite x), rest) := by
  have hread := FiniteFloat.ofDecimal_shortest hx
  have hd0 := shortest_ne_zero hx
  rcases hde : x.shortest with ⟨d, e⟩
  rw [hde] at hread hd0
  dsimp only at hread hd0
  have hdigits := digits_natText d
  have hne := natText_ne_nil d
  have hvalue := digitsValue_natText d
  unfold FiniteFloat.reprAbs
  rw [if_neg hx, hde]
  dsimp only
  by_cases hsci : 16 < ((natText d).length : ℤ) + e ∨ ((natText d).length : ℤ) + e < -3
  · rw [if_pos hsci]
    have hexp : ∀ text : PyStr, text ++ py "e" ++ (if ((natText d).length : ℤ) + e - 1 < 0 then py "-" else py "+") ++
        (if (natText (((natText d).length : ℤ) + e - 1).natAbs).length < 2 then
          py "0" ++ natText (((natText d).length : ℤ) + e - 1).natAbs
        else natText (((natText d).length : ℤ) + e - 1).natAbs) ++ rest =
        text ++ exponentMark :: (exponentText (((natText d).length : ℤ) + e - 1) ++ rest) := by
      intro text
      rw [py_exponentMark, exponentText]
      simp only [List.append_assoc, List.cons_append, List.nil_append]
    rw [hexp]
    by_cases hone : (natText d).length = 1
    · rw [if_pos hone, List.append_nil, List.take_of_length_le (by omega)]
      have hwhole := whole_take d (n := 1) (by omega)
      rw [List.take_of_length_le (by omega)] at hwhole
      rw [loadUnsigned_exponent x.neg _ hwhole hrest, hvalue, hone, show ((1 : ℕ) : ℤ) + e - 1 = e by omega, hread]
    · have hlen : 0 < (natText d).length := List.length_pos_iff.mpr hne
      have hdrop : (natText d).drop 1 ≠ [] := by
        intro h
        have := congrArg List.length h
        rw [List.length_drop, List.length_nil] at this
        omega
      rw [if_neg hone, py_point]
      simp only [List.append_assoc, List.cons_append, List.nil_append]
      rw [loadUnsigned_scientific x.neg _ (whole_take d (by omega)) (digits_drop hdigits 1) hdrop hrest,
        List.take_append_drop, hvalue, List.length_drop]
      have he : ((natText d).length : ℤ) + e - 1 - ((natText d).length - 1 : ℕ) = e := by omega
      rw [he, hread]
  rw [if_neg hsci]
  by_cases hsmall : ((natText d).length : ℤ) + e ≤ 0
  · have hfs : List.replicate (((natText d).length : ℤ) + e).natAbs (digitChar 0) ++ natText d ≠ [] := by simp [hne]
    rw [if_pos hsmall, py_zeroPoint]
    simp only [List.append_assoc, List.cons_append, List.nil_append]
    have hwhole : Whole [digitChar 0] := whole_single (by decide)
    have h := loadUnsigned_point x.neg hwhole
      (digits_append (digits_zeros (((natText d).length : ℤ) + e).natAbs) hdigits) hfs hrest
    simp only [List.append_assoc, List.singleton_append] at h
    rw [h]
    have hv : digitsValue (digitChar 0 :: (List.replicate (((natText d).length : ℤ) + e).natAbs (digitChar 0) ++ natText d)) = d := by
      rw [← List.cons_append, ← List.replicate_succ, digitsValue_append, digitsValue_zeros, hvalue, Nat.zero_mul,
        Nat.zero_add]
    rw [hv, List.length_append, List.length_replicate]
    have he : -(((((natText d).length : ℤ) + e).natAbs + (natText d).length : ℕ) : ℤ) = e := by omega
    rw [he, hread]
  rw [if_neg hsmall]
  by_cases hmixed : ((natText d).length : ℤ) + e < (natText d).length
  · have hdrop : (natText d).drop (((natText d).length : ℤ) + e).toNat ≠ [] := by
      intro h
      have := congrArg List.length h
      rw [List.length_drop, List.length_nil] at this
      omega
    rw [if_pos hmixed, py_point]
    simp only [List.append_assoc, List.cons_append, List.nil_append]
    rw [loadUnsigned_point x.neg (whole_take d (by omega)) (digits_drop hdigits _) hdrop hrest,
      List.take_append_drop, hvalue, List.length_drop]
    have he : -((((natText d).length - (((natText d).length : ℤ) + e).toNat : ℕ)) : ℤ) = e := by omega
    rw [he, hread]
  · obtain ⟨k, hk⟩ : ∃ k, k = (((natText d).length : ℤ) + e).toNat - (natText d).length := ⟨_, rfl⟩
    rw [if_neg hmixed, py_pointZero, ← hk]
    have h := loadUnsigned_point x.neg (whole_append_zeros hd0 k) digits_singleZero (by simp) hrest
    simp only [List.append_assoc, List.cons_append, List.nil_append] at h ⊢
    rw [h]
    have hv : digitsValue (natText d ++ (List.replicate k (digitChar 0) ++ [digitChar 0])) = d * 10 ^ (k + 1) := by
      rw [← List.replicate_succ', digitsValue_append, digitsValue_zeros, hvalue, List.length_replicate, Nat.add_zero]
    have he : -(([digitChar 0].length : ℕ) : ℤ) = e - (k + 1 : ℕ) := by
      rw [List.length_singleton]
      omega
    rw [hv, he, ofDecimal_mul, hread]

/-! ## Integers -/

theorem natText_length {n : ℕ} (hn : n < 10 ^ maxStrDigits) : (natText n).length ≤ maxStrDigits := by
  unfold natText
  split_ifs
  · simp [maxStrDigits]
  · rw [List.length_map, List.length_reverse]
    exact (Nat.digits_length_le_iff (by omega) n).mpr hn

theorem whole_natText (n : ℕ) : Whole (natText n) :=
  ⟨digits_natText n, natText_ne_nil n, fun _ ht => natText_head ht⟩

theorem loadUnsigned_natText (neg : Bool) {n : ℕ} (hn : n < 10 ^ maxStrDigits) {rest : PyStr} (hrest : Stop rest) :
    loadUnsigned neg (natText n ++ rest) = .ok (.int (if neg then -(n : ℤ) else n), rest) := by
  have hlen := natText_length hn
  rw [loadUnsigned, scanDigits_whole (whole_natText n) (endsDigits_of_stop hrest)]
  simp only [scanFraction_stop hrest, scanExponent_stop hrest, and_self, if_true, loadInteger, digitsValue_natText]
  rw [if_neg (by omega)]
  rfl

end OcorRuntime.StandardJson
