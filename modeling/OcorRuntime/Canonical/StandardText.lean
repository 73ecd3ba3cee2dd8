import OcorRuntime.Canonical.Integers
import OcorRuntime.Canonical.Scan
import OcorRuntime.Canonical.StandardJson

/-! `json.loads` reads back the texts and the numbers `json.dumps` writes. A text comes back with each high
surrogate that stood in front of a low one joined to it, so exactly the texts without such a pair come
back as they were. -/
namespace OcorRuntime.StandardJson
open Canonical
set_option autoImplicit false
set_option maxHeartbeats 250000
set_option maxRecDepth 120000

/-! ## Characters -/

def IsHigh (c : CodePoint) : Prop := 0xD800 ≤ c.val ∧ c.val ≤ 0xDBFF
def IsLow (c : CodePoint) : Prop := 0xDC00 ≤ c.val ∧ c.val ≤ 0xDFFF

instance (c : CodePoint) : Decidable (IsHigh c) := inferInstanceAs (Decidable (_ ∧ _))
instance (c : CodePoint) : Decidable (IsLow c) := inferInstanceAs (Decidable (_ ∧ _))

/-- The character is written as one `\u` escape. -/
def escaped (c : CodePoint) : Bool :=
  decide (¬ (c.val = 0x08 ∨ c.val = 0x09 ∨ c.val = 0x0A ∨ c.val = 0x0C ∨ c.val = 0x0D ∨ (0x20 ≤ c.val ∧ c.val ≤ 0x7E)))

def highOf (c : CodePoint) : CodePoint := codePoint (0xD800 + (c.val - 0x10000) / 0x400)
def lowOf (c : CodePoint) : CodePoint := codePoint (0xDC00 + (c.val - 0x10000) % 0x400)

/-- The characters the scanner meets in the text of `c`. -/
def units (c : CodePoint) : List (Bool × CodePoint) :=
  if c.val < 0x10000 then [(escaped c, c)] else [(true, highOf c), (true, lowOf c)]

/-- What a text is read back as. -/
def rejoin (s : PyStr) : PyStr := joinSurrogates (s.flatMap units)

theorem scanChars_unicode {n : ℕ} (hn : n < 0x10000) (rest : PyStr) :
    scanChars (unicodeEscape n ++ rest) = (scanChars rest).map fun r => ((true, codePoint n) :: r.1, r.2) := by
  have hesc : simpleEscape (codePoint 0x75) = none := by decide
  have hfour : hexFour (hexDigit (n / 4096 % 16)) (hexDigit (n / 256 % 16)) (hexDigit (n / 16 % 16))
      (hexDigit (n % 16)) = some n := by
    simp only [hexFour, hexValue_hexDigit (Nat.mod_lt _ (show 0 < 16 by omega))]
    exact congrArg some (by omega)
  simp only [unicodeEscape, List.cons_append, List.nil_append]
  rw [scanChars.eq_def]
  simp only [show ¬ backslash = quote by decide, if_false, if_true, hesc, hfour,
    show (codePoint 0x75).val = 0x75 by decide]

theorem scanChars_ascii (c : CodePoint) (rest : PyStr) :
    scanChars (asciiChar c ++ rest) = (scanChars rest).map fun r => (units c ++ r.1, r.2) := by
  have hshort : ∀ (n : ℕ) (e : CodePoint), c.val = n → simpleEscape e = some (codePoint n) →
      escaped (codePoint n) = false → n < 0x10000 →
      scanChars (backslash :: e :: rest) = (scanChars rest).map fun r => (units c ++ r.1, r.2) := by
    intro n e hn he hx hlt
    have hc : c = codePoint n := Fin.ext (by rw [codePoint_val n (by omega), hn])
    rw [hc, units, if_pos (by rw [codePoint_val n (by omega)]; exact hlt), hx]
    exact scanChars_short e he rest
  unfold asciiChar
  split_ifs with h1 h2 h3 h4 h5 h6 h7 h8 h9
  · exact hshort _ quote h1 (by decide) (by decide) (by omega)
  · exact hshort _ backslash h2 (by decide) (by decide) (by omega)
  · exact hshort _ (codePoint 0x62) h3 (by decide) (by decide) (by omega)
  · exact hshort _ (codePoint 0x74) h4 (by decide) (by decide) (by omega)
  · exact hshort _ (codePoint 0x6E) h5 (by decide) (by decide) (by omega)
  · exact hshort _ (codePoint 0x66) h6 (by decide) (by decide) (by omega)
  · exact hshort _ (codePoint 0x72) h7 (by decide) (by decide) (by omega)
  · have hq : ¬ c = quote := fun h => h1 (by rw [h]; decide)
    have hb : ¬ c = backslash := fun h => h2 (by rw [h]; decide)
    have hx : escaped c = false := by
      apply decide_eq_false
      rw [not_not]
      omega
    rw [List.singleton_append, scanChars.eq_def]
    simp only [if_neg hq, if_neg hb, if_neg (show ¬ c.val ≤ 0x1F by omega), units,
      if_pos (show c.val < 0x10000 by omega), hx, List.singleton_append]
  · have hx : escaped c = true := by
      apply decide_eq_true
      omega
    rw [scanChars_unicode h9, codePoint_self, units, if_pos h9, hx]
    rfl
  · have hc := c.isLt
    rw [List.append_assoc, scanChars_unicode (by omega), scanChars_unicode (by omega), units, if_neg h9]
    cases scanChars rest <;> rfl

theorem scanString_ascii (s rest : PyStr) :
    scanString (s.flatMap asciiChar ++ quote :: rest) = .ok (rejoin s, rest) := by
  have hchars : scanChars (s.flatMap asciiChar ++ quote :: rest) = .ok (s.flatMap units, rest) := by
    induction s with
    | nil =>
      rw [List.flatMap_nil, List.nil_append, scanChars.eq_def]
      simp
    | cons c s ih =>
      rw [List.flatMap_cons, List.append_assoc, scanChars_ascii, ih]
      rfl
  rw [scanString, hchars]
  rfl

/-! ## Joined surrogates -/

/-- No high surrogate stands in front of a low one. -/
def NoSplitPair (s : PyStr) : Prop := s.IsChain fun a b => ¬ (IsHigh a ∧ IsLow b)

instance (s : PyStr) : Decidable (NoSplitPair s) := inferInstanceAs (Decidable (List.IsChain _ s))

@[simp] theorem rejoin_nil : rejoin [] = [] := rfl

theorem highOf_val {c : CodePoint} (hc : ¬ c.val < 0x10000) : (highOf c).val = 0xD800 + (c.val - 0x10000) / 0x400 := by
  have := c.isLt
  exact codePoint_val _ (by omega)

theorem lowOf_val (c : CodePoint) : (lowOf c).val = 0xDC00 + (c.val - 0x10000) % 0x400 :=
  codePoint_val _ (by omega)

/-- The first character the scanner meets in the text of `c` is low exactly if `c` is. -/
theorem units_cons (c : CodePoint) : ∃ e u more, units c = (e, u) :: more ∧ (IsLow u ↔ IsLow c) ∧ (IsLow u → e = true) := by
  by_cases hc : c.val < 0x10000
  · refine ⟨escaped c, c, [], by rw [units, if_pos hc], Iff.rfl, ?_⟩
    intro hlow
    unfold IsLow at hlow
    exact decide_eq_true (by omega)
  · refine ⟨true, highOf c, [(true, lowOf c)], by rw [units, if_neg hc], ?_, fun _ => rfl⟩
    have := c.isLt
    unfold IsLow
    rw [highOf_val hc]
    omega

theorem rejoin_astral {c : CodePoint} (hc : ¬ c.val < 0x10000) (s : PyStr) : rejoin (c :: s) = c :: rejoin s := by
  have hlt := c.isLt
  have hhigh := highOf_val hc
  have hlow := lowOf_val c
  have hcond : (true : Prop) ∧ (true : Prop) ∧ 0xD800 ≤ (highOf c).val ∧ (highOf c).val ≤ 0xDBFF ∧
      0xDC00 ≤ (lowOf c).val ∧ (lowOf c).val ≤ 0xDFFF := by
    refine ⟨rfl, rfl, ?_, ?_, ?_, ?_⟩ <;> omega
  rw [rejoin, List.flatMap_cons, units, if_neg hc]
  simp only [List.cons_append, List.nil_append]
  rw [joinSurrogates, if_pos hcond]
  refine congrArg₂ List.cons (Fin.ext ?_) rfl
  rw [codePoint_val _ (by omega)]
  omega

theorem rejoin_cons {c : CodePoint} {s : PyStr} (h : ∀ d t, s = d :: t → ¬ (IsHigh c ∧ IsLow d)) :
    rejoin (c :: s) = c :: rejoin s := by
  by_cases hc : c.val < 0x10000
  · rw [rejoin, List.flatMap_cons, units, if_pos hc, List.singleton_append]
    cases s with
    | nil => rfl
    | cons d s =>
      obtain ⟨e, u, more, hunits, hlow, -⟩ := units_cons d
      rw [List.flatMap_cons, hunits, List.cons_append, joinSurrogates, if_neg]
      · rw [rejoin, List.flatMap_cons, hunits, List.cons_append]
      · rintro ⟨-, -, h1, h2, h3, h4⟩
        exact h d s rfl ⟨⟨h1, h2⟩, hlow.mp ⟨h3, h4⟩⟩
  · exact rejoin_astral hc s

def joined (c d : CodePoint) : CodePoint := codePoint (0x10000 + (c.val - 0xD800) * 0x400 + (d.val - 0xDC00))

theorem rejoin_pair {c d : CodePoint} (hc : IsHigh c) (hd : IsLow d) (s : PyStr) :
    rejoin (c :: d :: s) = joined c d :: rejoin s := by
  have hcond : (escaped c : Prop) ∧ (escaped d : Prop) ∧ 0xD800 ≤ c.val ∧ c.val ≤ 0xDBFF ∧
      0xDC00 ≤ d.val ∧ d.val ≤ 0xDFFF := by
    unfold IsHigh at hc
    unfold IsLow at hd
    exact ⟨decide_eq_true (by omega), decide_eq_true (by omega), hc.1, hc.2, hd.1, hd.2⟩
  unfold IsHigh at hc
  unfold IsLow at hd
  rw [rejoin, List.flatMap_cons, List.flatMap_cons, units, if_pos (by omega), units, if_pos (by omega)]
  simp only [List.cons_append, List.nil_append]
  rw [joinSurrogates, if_pos hcond]
  rfl

theorem rejoin_induct {P : PyStr → Prop} (nil : P []) (pair : ∀ c d s, IsHigh c → IsLow d → P s → P (c :: d :: s))
    (cons : ∀ c s, (∀ d t, s = d :: t → ¬ (IsHigh c ∧ IsLow d)) → P s → P (c :: s)) (s : PyStr) : P s := by
  induction hn : s.length using Nat.strong_induction_on generalizing s with
  | _ n ih =>
    cases s with
    | nil => exact nil
    | cons c s =>
      rw [List.length_cons] at hn
      by_cases h : ∃ d t, s = d :: t ∧ IsHigh c ∧ IsLow d
      · obtain ⟨d, t, rfl, hc, hd⟩ := h
        rw [List.length_cons] at hn
        exact pair c d t hc hd (ih t.length (by omega) t rfl)
      · refine cons c s (fun d t hs hcd => h ⟨d, t, hs, hcd⟩) (ih s.length (by omega) s rfl)

theorem length_rejoin_le (s : PyStr) : (rejoin s).length ≤ s.length := by
  induction s using rejoin_induct with
  | nil => exact Nat.le_refl 0
  | pair c d s hc hd ih =>
    rw [rejoin_pair hc hd]
    simp only [List.length_cons]
    omega
  | cons c s h ih =>
    rw [rejoin_cons h]
    simp only [List.length_cons]
    omega

theorem rejoin_eq_self_iff (s : PyStr) : rejoin s = s ↔ NoSplitPair s := by
  induction s using rejoin_induct with
  | nil => simp [NoSplitPair]
  | pair c d s hc hd ih =>
    constructor
    · intro h
      have hlen := congrArg List.length h
      have hle := length_rejoin_le s
      rw [rejoin_pair hc hd] at hlen
      simp only [List.length_cons] at hlen
      omega
    · intro h
      exact absurd ⟨hc, hd⟩ (List.isChain_cons_cons.mp h).1
  | cons c s h ih =>
    rw [rejoin_cons h, List.cons.injEq]
    cases s with
    | nil => simp [NoSplitPair]
    | cons d s =>
      unfold NoSplitPair at ih ⊢
      rw [List.isChain_cons_cons, ih]
      have hd := h d s rfl
      tauto

theorem joined_val {c d : CodePoint} (hc : IsHigh c) (hd : IsLow d) : 0x10000 ≤ (joined c d).val := by
  unfold IsHigh at hc
  unfold IsLow at hd
  rw [joined, codePoint_val _ (by omega)]
  omega

theorem not_low_head_rejoin {s : PyStr} (h : ∀ d t, s = d :: t → ¬ IsLow d) :
    ∀ d t, rejoin s = d :: t → ¬ IsLow d := by
  induction s using rejoin_induct with
  | nil =>
    intro d t heq
    cases heq
  | pair c e s hc he _ =>
    intro d t heq
    rw [rejoin_pair hc he] at heq
    obtain ⟨rfl, -⟩ := List.cons.inj heq
    have := joined_val hc he
    unfold IsLow
    omega
  | cons c s hcs _ =>
    intro d t heq
    rw [rejoin_cons hcs] at heq
    obtain ⟨rfl, -⟩ := List.cons.inj heq
    exact h c s rfl

theorem noSplitPair_rejoin (s : PyStr) : NoSplitPair (rejoin s) := by
  unfold NoSplitPair
  induction s using rejoin_induct with
  | nil => exact List.IsChain.nil
  | pair c d s hc hd ih =>
    rw [rejoin_pair hc hd, List.isChain_cons]
    refine ⟨?_, ih⟩
    rintro e - ⟨hhigh, -⟩
    have := joined_val hc hd
    unfold IsHigh at hhigh
    omega
  | cons c s h ih =>
    rw [rejoin_cons h, List.isChain_cons]
    refine ⟨?_, ih⟩
    rintro e he ⟨hhigh, hlow⟩
    have hs : ∀ d t, s = d :: t → ¬ IsLow d := fun d t hs hd => h d t hs ⟨hhigh, hd⟩
    cases hr : rejoin s with
    | nil => simp [hr] at he
    | cons f t =>
      rw [hr, List.head?_cons, Option.mem_def, Option.some.injEq] at he
      subst he
      exact not_low_head_rejoin hs f t hr hlow

theorem noSplitPair_of_scalar {s : PyStr} (hs : Scalar s) : NoSplitPair s := by
  unfold NoSplitPair
  induction s with
  | nil => exact List.IsChain.nil
  | cons c s ih =>
    rw [List.isChain_cons]
    refine ⟨?_, ih fun d hd => hs d (List.mem_cons_of_mem c hd)⟩
    rintro e - ⟨hhigh, -⟩
    unfold IsHigh at hhigh
    exact hs c (List.mem_cons_self ..) ⟨hhigh.1, by omega⟩

end OcorRuntime.StandardJson
