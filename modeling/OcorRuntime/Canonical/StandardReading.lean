import Mathlib.Data.List.TakeWhile
import OcorRuntime.Canonical.StandardRoundTrip

/-! What `json.loads` can make of other texts. It reads a text from its front: what is left after a value is an
end of the text, the texts inside the value are no longer than what was read, and a text is refused if an
object follows a bar in it. -/
namespace OcorRuntime.StandardJson
open Canonical
set_option autoImplicit false
set_option maxHeartbeats 250000
set_option maxRecDepth 120000

/-! ## The bar -/

def bar : CodePoint := codePoint 0x7C

/-- A bar, an opened object, the quote of its first key, and that key's text. -/
def barred (g : PyStr) : PyStr := bar :: codePoint 0x7B :: quote :: codePoint 0x61 :: g

/-- The scan stands in front of the bar. -/
def Before (g s : PyStr) : Prop := ∃ u, s = u ++ barred g

/-- The scan stands in front of the bar, or took the quote behind it for the end of a text. -/
def Around (g s : PyStr) : Prop := Before g s ∨ s = codePoint 0x61 :: g

theorem before_cons {g : PyStr} {c : CodePoint} {s : PyStr} (h : Before g (c :: s)) (hc : c ≠ bar) : Before g s := by
  obtain ⟨u, hu⟩ := h
  cases u with
  | nil => exact absurd (List.cons.inj hu).1 hc
  | cons d u => exact ⟨u, (List.cons.inj hu).2⟩

theorem before_ne_nil {g s : PyStr} (h : Before g s) : s ≠ [] := by
  rintro rfl
  obtain ⟨u, hu⟩ := h
  simp [barred] at hu

theorem before_of_append {g consumed rest : PyStr} (h : Before g (consumed ++ rest)) (hbar : bar ∉ consumed) :
    Before g rest := by
  induction consumed with
  | nil => exact h
  | cons c consumed ih =>
    rw [List.mem_cons, not_or] at hbar
    exact ih (before_cons h fun hc => hbar.1 hc.symm) hbar.2

theorem before_dropWhile {g s : PyStr} (p : CodePoint → Bool) (hp : p bar = false) (h : Before g s) :
    Before g (s.dropWhile p) := by
  rw [← List.takeWhile_append_dropWhile (p := p) (l := s)] at h
  refine before_of_append h fun hmem => ?_
  have hbar := (List.mem_takeWhile_imp hmem)
  rw [hp] at hbar
  cases hbar

theorem before_skipSpace {g s : PyStr} (h : Before g s) : Before g (skipSpace s) :=
  before_dropWhile _ (by decide) h

theorem before_dropDigits {g s : PyStr} (h : Before g s) : Before g (dropDigits s) :=
  before_dropWhile _ (by decide) h

/-- Behind a text that ended at the quote there is neither space nor a delimiter. -/
theorem around_skipSpace {g s : PyStr} (h : Around g s) : Around g (skipSpace s) := by
  rcases h with h | rfl
  · exact .inl (before_skipSpace h)
  · exact .inr (skipSpace_cons (by decide) _)

theorem before_of_around {g : PyStr} {c : CodePoint} {s : PyStr} (h : Around g (c :: s)) (hc : c ≠ codePoint 0x61)
    (hbar : c ≠ bar) : Before g s := by
  rcases h with h | h
  · exact before_cons h hbar
  · exact absurd (List.cons.inj h).1 hc

theorem ne_of_val {c : CodePoint} {n m : ℕ} (h : c.val = n) (hm : m < 0x110000) (hne : n ≠ m) : c ≠ codePoint m := by
  rintro rfl
  rw [codePoint_val m hm] at h
  exact hne h.symm

/-! ## Texts -/

theorem hexFour_bar {a b c d : CodePoint} (h : a = bar ∨ b = bar ∨ c = bar ∨ d = bar) : hexFour a b c d = none := by
  have hbar : hexValue bar = none := by decide
  rcases h with rfl | rfl | rfl | rfl
  · simp [hexFour, hbar]
  · cases hexValue a <;> simp [hexFour, hbar]
  · cases hexValue a <;> cases hexValue b <;> simp [hexFour, hbar]
  · cases hexValue a <;> cases hexValue b <;> cases hexValue c <;> simp [hexFour, hbar]

theorem scanChars_barred (g : PyStr) :
    scanChars (barred g) = .ok ([(false, bar), (false, codePoint 0x7B)], codePoint 0x61 :: g) := by
  unfold barred
  rw [scanChars.eq_def]
  simp only [show ¬ bar = quote by decide, show ¬ bar = backslash by decide, show ¬ bar.val ≤ 0x1F by decide, if_false]
  rw [scanChars.eq_def]
  simp only [show ¬ codePoint 0x7B = quote by decide, show ¬ codePoint 0x7B = backslash by decide,
    show ¬ (codePoint 0x7B).val ≤ 0x1F by decide, if_false]
  rw [scanChars.eq_def]
  simp [Except.map]

/-- The text of a string literal is read up to a quote in front of the bar, or up to the one behind it. -/
theorem scanChars_around {g : PyStr} (u : PyStr) : ∀ {r : List (Bool × CodePoint) × PyStr},
    scanChars (u ++ barred g) = .ok r → Around g r.2 := by
  induction hn : u.length using Nat.strong_induction_on generalizing u with
  | _ n ih =>
    intro r hscan
    cases u with
    | nil =>
      rw [List.nil_append, scanChars_barred] at hscan
      cases hscan
      exact .inr rfl
    | cons c u =>
      rw [List.length_cons] at hn
      rw [List.cons_append, scanChars.eq_def] at hscan
      dsimp only at hscan
      split_ifs at hscan with hquote hback hcontrol
      · cases hscan
        exact .inl ⟨u, rfl⟩
      · -- an escape ends in front of the bar, or is none
        cases u with
        | nil => simp [barred, show simpleEscape bar = none by decide, show ¬ bar.val = 0x75 by decide] at hscan
        | cons e u =>
          rw [List.length_cons] at hn
          rw [List.cons_append] at hscan
          dsimp only at hscan
          split at hscan
          · obtain ⟨r', hr', heq⟩ := map_eq_ok hscan
            rw [← heq]
            exact (ih u.length (by omega) u rfl hr' : Around g r'.2)
          · split_ifs at hscan
            match u, hscan with
            | [], hscan =>
              simp [barred, hexFour_bar (.inl rfl)] at hscan
            | [a], hscan =>
              simp [barred, hexFour_bar (.inr (.inl rfl))] at hscan
            | [a, b], hscan =>
              simp [barred, hexFour_bar (.inr (.inr (.inl rfl)))] at hscan
            | [a, b, d], hscan =>
              simp [barred, hexFour_bar (.inr (.inr (.inr rfl)))] at hscan
            | a :: b :: d :: f :: u, hscan =>
              simp only [List.cons_append] at hscan
              split at hscan
              · obtain ⟨r', hr', heq⟩ := map_eq_ok hscan
                rw [← heq]
                exact (ih u.length (by simp at hn; omega) u rfl hr' : Around g r'.2)
              · cases hscan
      · obtain ⟨r', hr', heq⟩ := map_eq_ok hscan
        rw [← heq]
        exact (ih u.length (by omega) u rfl hr' : Around g r'.2)

theorem scanString_around {g s : PyStr} (h : Before g s) {r : PyStr × PyStr} (hscan : scanString s = .ok r) :
    Around g r.2 := by
  obtain ⟨u, rfl⟩ := h
  obtain ⟨r', hr', heq⟩ := map_eq_ok hscan
  rw [← heq]
  exact scanChars_around u hr'

/-! ## Numbers -/

theorem scanDigits_before {g s ds rest : PyStr} (h : Before g s) (hscan : scanDigits s = some (ds, rest)) :
    Before g rest := by
  cases s with
  | nil => cases hscan
  | cons c s =>
    rw [scanDigits] at hscan
    split_ifs at hscan with h0 hd
    · cases hscan
      exact before_cons h (by rw [h0]; decide)
    · cases hscan
      exact before_dropDigits (before_cons h (by rintro rfl; exact absurd hd (by decide)))

theorem scanFraction_before {g s : PyStr} (h : Before g s) : Before g (scanFraction s).2 := by
  cases s with
  | nil => exact h
  | cons c s =>
    rw [scanFraction]
    split_ifs with hc
    · exact before_dropDigits (before_cons h (ne_of_val hc.1 (by omega) (by omega)))
    · exact h

theorem scanExponent_before {g s : PyStr} (h : Before g s) : Before g (scanExponent s).2 := by
  cases s with
  | nil => exact h
  | cons c s =>
    rw [scanExponent.eq_def]
    dsimp only
    by_cases hc : c.val = 0x65 ∨ c.val = 0x45
    · have hs : Before g s := before_cons h (by
        rcases hc with hc | hc
        · exact ne_of_val hc (by omega) (by omega)
        · exact ne_of_val hc (by omega) (by omega))
      rw [if_pos hc]
      cases s with
      | nil => exact h
      | cons d s =>
        dsimp only
        split_ifs with hminus hplus
        · exact before_dropDigits (before_cons hs (ne_of_val hminus.1 (by omega) (by omega)))
        · exact before_dropDigits (before_cons hs (ne_of_val hplus.1 (by omega) (by omega)))
        · exact before_dropDigits hs
        · exact h
    · rw [if_neg hc]
      exact h

theorem loadUnsigned_before {g s : PyStr} {neg : Bool} (h : Before g s) {r : PyValue × PyStr}
    (hload : loadUnsigned neg s = .ok r) : Before g r.2 := by
  unfold loadUnsigned at hload
  split at hload
  · cases hload
  · next ds rest hscan =>
    have hrest := scanExponent_before (scanFraction_before (scanDigits_before h hscan))
    dsimp only at hload
    split_ifs at hload
    · obtain ⟨v, -, heq⟩ := map_eq_ok hload
      rw [← heq]
      exact hrest
    · cases hload
      exact hrest

theorem loadNumber_before {g s : PyStr} (h : Before g s) {r : PyValue × PyStr} (hload : loadNumber s = .ok r) :
    Before g r.2 := by
  cases s with
  | nil => cases hload
  | cons c s =>
    rw [loadNumber] at hload
    split_ifs at hload with hminus
    · exact loadUnsigned_before (before_cons h (ne_of_val hminus (by omega) (by omega))) hload
    · exact loadUnsigned_before h hload

theorem before_word {g s word : PyStr} (h : Before g s) (hword : word <+: s) (hbar : bar ∉ word) :
    Before g (s.drop word.length) := by
  obtain ⟨rest, rfl⟩ := hword
  rw [List.drop_left]
  exact before_of_append h hbar

/-! ## Values -/

/-- Where each part of the reader stands after it read from in front of the bar. -/
structure StaysAround (g : PyStr) (fuel : ℕ) : Prop where
  once : ∀ s r, Before g s → loadOnce fuel s = .ok r → Around g r.2
  items : ∀ s r, Before g s → loadItems fuel s = .ok r → Before g r.2
  members : ∀ s r, Before g s → loadMembers fuel s = .ok r → Before g r.2

theorem loadOnce_around {g : PyStr} {fuel : ℕ} (ih : StaysAround g fuel) (s : PyStr) (r : PyValue × PyStr)
    (h : Before g s) (hload : loadOnce (fuel + 1) s = .ok r) : Around g r.2 := by
  cases s with
  | nil => exact absurd rfl (before_ne_nil h)
  | cons c s =>
    have hword : ∀ word : PyStr, word <+: c :: s → bar ∉ word → ∀ v : PyValue,
        (.ok (v, (c :: s).drop word.length) : Except JsonFault (PyValue × PyStr)) = .ok r → Around g r.2 := by
      intro word hprefix hbar v heq
      cases heq
      exact .inl (before_word h hprefix hbar)
    rw [loadOnce] at hload
    by_cases h1 : c.val = 0x22
    · rw [if_pos h1] at hload
      obtain ⟨r', hr', heq⟩ := map_eq_ok hload
      rw [← heq]
      exact scanString_around (before_cons h (ne_of_val h1 (by omega) (by omega))) hr'
    rw [if_neg h1] at hload
    by_cases h2 : c.val = 0x7B
    · rw [if_pos h2] at hload
      have hs := before_skipSpace (before_cons h (ne_of_val h2 (by omega) (by omega)))
      split at hload
      · cases hload
      · next d rest heq =>
        rw [heq] at hs
        split_ifs at hload with hd
        · cases hload
          exact .inl (before_cons hs (ne_of_val hd (by omega) (by omega)))
        · obtain ⟨r', hr', heq⟩ := map_eq_ok hload
          rw [← heq]
          exact .inl (ih.members _ _ hs hr')
    rw [if_neg h2] at hload
    by_cases h3 : c.val = 0x5B
    · rw [if_pos h3] at hload
      have hs := before_skipSpace (before_cons h (ne_of_val h3 (by omega) (by omega)))
      split at hload
      · cases hload
      · next d rest heq =>
        rw [heq] at hs
        split_ifs at hload with hd
        · cases hload
          exact .inl (before_cons hs (ne_of_val hd (by omega) (by omega)))
        · obtain ⟨r', hr', heq⟩ := map_eq_ok hload
          rw [← heq]
          exact .inl (ih.items _ _ hs hr')
    rw [if_neg h3] at hload
    by_cases h4 : py "null" <+: c :: s
    · rw [if_pos h4] at hload
      exact hword (py "null") h4 (by decide) _ hload
    rw [if_neg h4] at hload
    by_cases h5 : py "true" <+: c :: s
    · rw [if_pos h5] at hload
      exact hword (py "true") h5 (by decide) _ hload
    rw [if_neg h5] at hload
    by_cases h6 : py "false" <+: c :: s
    · rw [if_pos h6] at hload
      exact hword (py "false") h6 (by decide) _ hload
    rw [if_neg h6] at hload
    by_cases h7 : py "NaN" <+: c :: s
    · rw [if_pos h7] at hload
      exact hword (py "NaN") h7 (by decide) _ hload
    rw [if_neg h7] at hload
    by_cases h8 : py "Infinity" <+: c :: s
    · rw [if_pos h8] at hload
      exact hword (py "Infinity") h8 (by decide) _ hload
    rw [if_neg h8] at hload
    by_cases h9 : py "-Infinity" <+: c :: s
    · rw [if_pos h9] at hload
      exact hword (py "-Infinity") h9 (by decide) _ hload
    rw [if_neg h9] at hload
    exact .inl (loadNumber_before h hload)

theorem bindJson_eq_ok {α β : Type} {x : Except JsonFault α} {f : α → Except JsonFault β} {b : β} :
    x >>= f = .ok b ↔ ∃ a, x = .ok a ∧ f a = .ok b := by
  cases x <;> simp [bind, Except.bind]

theorem loadItems_before {g : PyStr} {fuel : ℕ} (ih : StaysAround g fuel) (s : PyStr) (r : List PyValue × PyStr)
    (h : Before g s) (hload : loadItems (fuel + 1) s = .ok r) : Before g r.2 := by
  rw [loadItems] at hload
  obtain ⟨⟨value, rest⟩, hvalue, hload⟩ := bindJson_eq_ok.1 hload
  have hrest := around_skipSpace (ih.once _ _ h hvalue)
  dsimp only at hload hrest
  split at hload
  · next c tail heq =>
    rw [heq] at hrest
    split_ifs at hload with hclose hcomma
    · cases hload
      exact before_of_around hrest (ne_of_val hclose (by omega) (by omega)) (ne_of_val hclose (by omega) (by omega))
    · have htail := before_of_around hrest (ne_of_val hcomma (by omega) (by omega))
        (ne_of_val hcomma (by omega) (by omega))
      obtain ⟨⟨values, rest'⟩, hvalues, hload⟩ := bindJson_eq_ok.1 hload
      cases hload
      exact (ih.items _ (values, rest') (before_skipSpace htail) hvalues : Before g rest')
  · cases hload

theorem loadMembers_before {g : PyStr} {fuel : ℕ} (ih : StaysAround g fuel) (s : PyStr)
    (r : List (PyStr × PyValue) × PyStr) (h : Before g s) (hload : loadMembers (fuel + 1) s = .ok r) :
    Before g r.2 := by
  rw [loadMembers.eq_def] at hload
  cases s with
  | nil => exact absurd rfl (before_ne_nil h)
  | cons c s =>
    dsimp only at hload
    split_ifs at hload with hquote
    obtain ⟨⟨key, rest⟩, hkey, hload⟩ := bindJson_eq_ok.1 hload
    have hrest := around_skipSpace (scanString_around (before_cons h (ne_of_val hquote (by omega) (by omega))) hkey)
    dsimp only at hload hrest
    split at hload
    · next colon tail heq =>
      rw [heq] at hrest
      split_ifs at hload with hcolon
      have htail := before_of_around hrest (ne_of_val hcolon (by omega) (by omega))
        (ne_of_val hcolon (by omega) (by omega))
      obtain ⟨⟨value, rest'⟩, hvalue, hload⟩ := bindJson_eq_ok.1 hload
      have hrest' := around_skipSpace (ih.once _ _ (before_skipSpace htail) hvalue)
      dsimp only at hload hrest'
      split at hload
      · next d tail' heq' =>
        rw [heq'] at hrest'
        split_ifs at hload with hclose hcomma
        · cases hload
          exact before_of_around hrest' (ne_of_val hclose (by omega) (by omega)) (ne_of_val hclose (by omega) (by omega))
        · have htail' := before_of_around hrest' (ne_of_val hcomma (by omega) (by omega))
            (ne_of_val hcomma (by omega) (by omega))
          obtain ⟨⟨pairs, rest''⟩, hpairs, hload⟩ := bindJson_eq_ok.1 hload
          cases hload
          exact (ih.members _ (pairs, rest'') (before_skipSpace htail') hpairs : Before g rest'')
      · cases hload
    · cases hload

theorem staysAround (g : PyStr) : ∀ fuel, StaysAround g fuel
  | 0 => by
      refine ⟨?_, ?_, ?_⟩ <;> intro s r _ hload
      · rw [loadOnce] at hload
        cases hload
      · rw [loadItems] at hload
        cases hload
      · rw [loadMembers] at hload
        cases hload
  | fuel + 1 => by
      have ih := staysAround g fuel
      exact ⟨loadOnce_around ih, loadItems_before ih, loadMembers_before ih⟩

theorem loads_eq_ok {s : PyStr} {v : PyValue} (h : loads s = .ok v) :
    ∃ rest, loadOnce (s.length + 1) (skipSpace s) = .ok (v, rest) ∧ skipSpace rest = [] := by
  unfold loads at h
  split at h
  · next value hvalue =>
    cases h
    split_ifs at hvalue
    obtain ⟨⟨value, rest⟩, hscan, hvalue⟩ := bindJson_eq_ok.1 hvalue
    dsimp only at hvalue
    split_ifs at hvalue with hrest
    cases hvalue
    exact ⟨rest, hscan, hrest⟩
  · cases h

/-- **A text with an object behind a bar is no JSON document.** -/
theorem loads_barred (u g : PyStr) (v : PyValue) : loads (u ++ barred g) ≠ .ok v := by
  intro h
  obtain ⟨rest, hscan, hrest⟩ := loads_eq_ok h
  rcases (staysAround g _).once _ _ (before_skipSpace ⟨u, rfl⟩) hscan with hbefore | hinside
  · exact before_ne_nil (before_skipSpace hbefore) hrest
  · dsimp only at hinside
    rw [hinside, skipSpace_cons (by decide)] at hrest
    cases hrest

/-! ## Texts are no longer than what they were read from -/

theorem skipSpace_length (s : PyStr) : (skipSpace s).length ≤ s.length := (List.dropWhile_sublist _).length_le

theorem dropDigits_length (s : PyStr) : (dropDigits s).length ≤ s.length := (List.dropWhile_sublist _).length_le

theorem scanChars_length (s : PyStr) : ∀ {r : List (Bool × CodePoint) × PyStr}, scanChars s = .ok r →
    r.1.length + r.2.length ≤ s.length := by
  induction hn : s.length using Nat.strong_induction_on generalizing s with
  | _ n ih =>
    intro r hscan
    cases s with
    | nil => cases hscan
    | cons c s =>
      rw [List.length_cons] at hn
      rw [scanChars.eq_def] at hscan
      dsimp only at hscan
      split_ifs at hscan with hquote hback hcontrol
      · cases hscan
        simp
        omega
      · cases s with
        | nil => cases hscan
        | cons e s =>
          rw [List.length_cons] at hn
          dsimp only at hscan
          split at hscan
          · obtain ⟨r', hr', heq⟩ := map_eq_ok hscan
            have hle := ih s.length (by omega) s rfl hr'
            rw [← heq]
            simp only [List.length_cons]
            omega
          · split_ifs at hscan
            match s, hscan with
            | a :: b :: d :: f :: s, hscan =>
              dsimp only at hscan
              split at hscan
              · obtain ⟨r', hr', heq⟩ := map_eq_ok hscan
                simp only [List.length_cons] at hn
                have hle := ih s.length (by omega) s rfl hr'
                rw [← heq]
                simp only [List.length_cons]
                omega
              · cases hscan
            | [], hscan => cases hscan
            | [a], hscan => cases hscan
            | [a, b], hscan => cases hscan
            | [a, b, d], hscan => cases hscan
      · obtain ⟨r', hr', heq⟩ := map_eq_ok hscan
        have hle := ih s.length (by omega) s rfl hr'
        rw [← heq]
        simp only [List.length_cons]
        omega

theorem joinSurrogates_length : ∀ l : List (Bool × CodePoint), (joinSurrogates l).length ≤ l.length
  | [] => Nat.le_refl 0
  | [(_, _)] => Nat.le_refl 1
  | (e, u) :: (f, v) :: rest => by
      rw [joinSurrogates]
      split_ifs
      · have := joinSurrogates_length rest
        simp only [List.length_cons]
        omega
      · have := joinSurrogates_length ((f, v) :: rest)
        simp only [List.length_cons] at this ⊢
        omega

theorem scanString_length {s : PyStr} {r : PyStr × PyStr} (h : scanString s = .ok r) :
    r.1.length + r.2.length ≤ s.length := by
  obtain ⟨r', hr', heq⟩ := map_eq_ok h
  have h1 := scanChars_length s hr'
  have h2 := joinSurrogates_length r'.1
  rw [← heq]
  dsimp only
  omega

theorem scanFraction_length (s : PyStr) : (scanFraction s).2.length ≤ s.length := by
  cases s with
  | nil => exact Nat.le_refl _
  | cons c s =>
    have := dropDigits_length s
    rw [scanFraction]
    split_ifs
    · rw [List.length_cons]
      dsimp only
      omega
    · exact Nat.le_refl _

theorem scanExponent_length (s : PyStr) : (scanExponent s).2.length ≤ s.length := by
  cases s with
  | nil => exact Nat.le_refl _
  | cons c s =>
    rw [scanExponent.eq_def]
    dsimp only
    by_cases hc : c.val = 0x65 ∨ c.val = 0x45
    · rw [if_pos hc]
      cases s with
      | nil => exact Nat.le_refl _
      | cons d s =>
        have h1 := dropDigits_length s
        have h2 := dropDigits_length (d :: s)
        simp only [List.length_cons] at h2
        dsimp only
        split_ifs <;> simp <;> omega
    · rw [if_neg hc]

theorem scanDigits_length {s ds rest : PyStr} (h : scanDigits s = some (ds, rest)) : rest.length ≤ s.length := by
  cases s with
  | nil => cases h
  | cons c s =>
    have := dropDigits_length s
    rw [scanDigits] at h
    split_ifs at h <;> cases h
    · simp
    · rw [List.length_cons]
      omega

theorem loadUnsigned_length {neg : Bool} {s : PyStr} {r : PyValue × PyStr} (h : loadUnsigned neg s = .ok r) :
    r.2.length ≤ s.length ∧ ((∃ n, r.1 = .int n) ∨ ∃ x, r.1 = .float x) := by
  unfold loadUnsigned at h
  split at h
  · cases h
  · next ds rest hscan =>
    have h1 := scanDigits_length hscan
    have h2 := scanFraction_length rest
    have h3 := scanExponent_length (scanFraction rest).2
    dsimp only at h
    by_cases hint : (scanFraction rest).1 = [] ∧ (scanExponent (scanFraction rest).2).1 = none
    · rw [if_pos hint] at h
      obtain ⟨v, hv, heq⟩ := map_eq_ok h
      unfold loadInteger at hv
      by_cases hlong : maxStrDigits < ds.length
      · rw [if_pos hlong] at hv
        cases hv
      · rw [if_neg hlong] at hv
        rw [← heq, ← Except.ok.inj hv]
        exact ⟨by dsimp only; omega, .inl ⟨_, rfl⟩⟩
    · rw [if_neg hint] at h
      rw [← Except.ok.inj h]
      exact ⟨by dsimp only; omega, .inr ⟨_, rfl⟩⟩

/-- A text, and the texts that are members of an object, are no longer than `n`. -/
def Short (n : ℕ) (v : PyValue) : Prop :=
  (∀ t, v = .str t → t.length ≤ n) ∧ ∀ es, v = .mapping es → ∀ k t, (k, .str t) ∈ es → t.length ≤ n

theorem short_dictOf {pairs : List (PyStr × PyValue)} {n : ℕ}
    (h : ∀ p ∈ pairs, ∀ t, p.2 = .str t → t.length ≤ n) : Short n (dictOf pairs) := by
  refine ⟨by simp [dictOf], ?_⟩
  intro es hes k t hmem
  unfold dictOf at hes
  rw [PyValue.mapping.injEq] at hes
  rw [← hes] at hmem
  rcases Dict.mem_foldl_put (fun p : PyStr × PyValue => MappingKey.str p.1) Prod.snd pairs hmem with hnil | ⟨p, hp, hkv⟩
  · cases hnil
  · exact h p hp t (Prod.mk.inj hkv).2.symm

/-- How long the parts of what the reader returns can be. -/
structure Shrinks (fuel : ℕ) : Prop where
  once : ∀ s r, loadOnce fuel s = .ok r → r.2.length ≤ s.length ∧ Short s.length r.1
  items : ∀ s r, loadItems fuel s = .ok r → r.2.length ≤ s.length
  members : ∀ s r, loadMembers fuel s = .ok r →
    r.2.length ≤ s.length ∧ ∀ p ∈ r.1, ∀ t, p.2 = .str t → t.length ≤ s.length

theorem loadOnce_shrinks {fuel : ℕ} (ih : Shrinks fuel) (s : PyStr) (r : PyValue × PyStr)
    (h : loadOnce (fuel + 1) s = .ok r) : r.2.length ≤ s.length ∧ Short s.length r.1 := by
  cases s with
  | nil =>
    rw [loadOnce] at h
    cases h
  | cons c s =>
    have hword : ∀ (n : ℕ) (v : PyValue), Short (c :: s).length v →
        (.ok (v, (c :: s).drop n) : Except JsonFault (PyValue × PyStr)) = .ok r →
        r.2.length ≤ (c :: s).length ∧ Short (c :: s).length r.1 := by
      intro n v hv heq
      cases heq
      exact ⟨(List.drop_sublist n (c :: s)).length_le, hv⟩
    have hskip := skipSpace_length s
    rw [loadOnce] at h
    by_cases h1 : c.val = 0x22
    · rw [if_pos h1] at h
      obtain ⟨r', hr', heq⟩ := map_eq_ok h
      have hle := scanString_length hr'
      rw [← heq]
      simp only [List.length_cons]
      refine ⟨by omega, ?_, by simp⟩
      intro t ht
      cases ht
      omega
    rw [if_neg h1] at h
    by_cases h2 : c.val = 0x7B
    · rw [if_pos h2] at h
      split at h
      · cases h
      · next d rest heq =>
        rw [heq, List.length_cons] at hskip
        split_ifs at h
        · rw [← Except.ok.inj h]
          exact ⟨by simp only [List.length_cons]; omega, short_dictOf (by simp)⟩
        · obtain ⟨r', hr', heq'⟩ := map_eq_ok h
          obtain ⟨hle, htexts⟩ := ih.members _ _ hr'
          rw [← heq']
          simp only [List.length_cons] at hle htexts ⊢
          refine ⟨by omega, short_dictOf ?_⟩
          intro p hp t ht
          have := htexts p hp t ht
          omega
    rw [if_neg h2] at h
    by_cases h3 : c.val = 0x5B
    · rw [if_pos h3] at h
      split at h
      · cases h
      · next d rest heq =>
        rw [heq, List.length_cons] at hskip
        split_ifs at h
        · rw [← Except.ok.inj h]
          exact ⟨by simp only [List.length_cons]; omega, by simp [Short]⟩
        · obtain ⟨r', hr', heq'⟩ := map_eq_ok h
          have hle := ih.items _ _ hr'
          rw [← heq']
          simp only [List.length_cons] at hle ⊢
          exact ⟨by omega, by simp [Short]⟩
    rw [if_neg h3] at h
    by_cases h4 : py "null" <+: c :: s
    · rw [if_pos h4] at h
      exact hword 4 _ (by simp [Short]) h
    rw [if_neg h4] at h
    by_cases h5 : py "true" <+: c :: s
    · rw [if_pos h5] at h
      exact hword 4 _ (by simp [Short]) h
    rw [if_neg h5] at h
    by_cases h6 : py "false" <+: c :: s
    · rw [if_pos h6] at h
      exact hword 5 _ (by simp [Short]) h
    rw [if_neg h6] at h
    by_cases h7 : py "NaN" <+: c :: s
    · rw [if_pos h7] at h
      exact hword 3 _ (by simp [Short]) h
    rw [if_neg h7] at h
    by_cases h8 : py "Infinity" <+: c :: s
    · rw [if_pos h8] at h
      exact hword 8 _ (by simp [Short]) h
    rw [if_neg h8] at h
    by_cases h9 : py "-Infinity" <+: c :: s
    · rw [if_pos h9] at h
      exact hword 9 _ (by simp [Short]) h
    rw [if_neg h9] at h
    have hnumber : ∀ {neg : Bool} {text : PyStr}, text.length ≤ (c :: s).length → loadUnsigned neg text = .ok r →
        r.2.length ≤ (c :: s).length ∧ Short (c :: s).length r.1 := by
      intro neg text hle h
      obtain ⟨h1, h2⟩ := loadUnsigned_length h
      refine ⟨by omega, ?_⟩
      rcases h2 with ⟨n, hn⟩ | ⟨x, hx⟩
      · simp [Short, hn]
      · simp [Short, hx]
    rw [loadNumber] at h
    split_ifs at h
    · exact hnumber (by simp) h
    · exact hnumber (Nat.le_refl _) h

theorem loadItems_shrinks {fuel : ℕ} (ih : Shrinks fuel) (s : PyStr) (r : List PyValue × PyStr)
    (h : loadItems (fuel + 1) s = .ok r) : r.2.length ≤ s.length := by
  rw [loadItems] at h
  obtain ⟨⟨value, rest⟩, hvalue, h⟩ := bindJson_eq_ok.1 h
  have hrest := (ih.once _ _ hvalue).1
  have hskip := skipSpace_length rest
  dsimp only at h hrest
  split at h
  · next c tail heq =>
    rw [heq, List.length_cons] at hskip
    split_ifs at h
    · cases h
      dsimp only
      omega
    · obtain ⟨⟨values, rest'⟩, hvalues, h⟩ := bindJson_eq_ok.1 h
      have hle := ih.items _ _ hvalues
      have hskip' := skipSpace_length tail
      cases h
      dsimp only at hle ⊢
      omega
  · cases h

theorem loadMembers_shrinks {fuel : ℕ} (ih : Shrinks fuel) (s : PyStr) (r : List (PyStr × PyValue) × PyStr)
    (h : loadMembers (fuel + 1) s = .ok r) :
    r.2.length ≤ s.length ∧ ∀ p ∈ r.1, ∀ t, p.2 = .str t → t.length ≤ s.length := by
  rw [loadMembers.eq_def] at h
  cases s with
  | nil => cases h
  | cons c s =>
    dsimp only at h
    split_ifs at h
    obtain ⟨⟨key, rest⟩, hkey, h⟩ := bindJson_eq_ok.1 h
    have hkeylen := scanString_length hkey
    have hskip := skipSpace_length rest
    dsimp only at h hkeylen
    split at h
    · next colon tail heq =>
      rw [heq, List.length_cons] at hskip
      split_ifs at h
      obtain ⟨⟨value, rest'⟩, hvalue, h⟩ := bindJson_eq_ok.1 h
      obtain ⟨hrest', htext, -⟩ := ih.once _ _ hvalue
      have hskip' := skipSpace_length tail
      have hskip'' := skipSpace_length rest'
      dsimp only at h hrest' htext
      split at h
      · next d tail' heq' =>
        rw [heq', List.length_cons] at hskip''
        split_ifs at h
        · cases h
          simp only [List.length_cons]
          refine ⟨by omega, ?_⟩
          intro p hp t ht
          rw [List.mem_singleton] at hp
          rw [hp] at ht
          have := htext t ht
          omega
        · obtain ⟨⟨pairs, rest''⟩, hpairs, h⟩ := bindJson_eq_ok.1 h
          obtain ⟨hlen, htexts⟩ := ih.members _ _ hpairs
          have hskip3 := skipSpace_length tail'
          cases h
          simp only [List.length_cons] at hlen htexts ⊢
          refine ⟨by omega, ?_⟩
          intro p hp t ht
          rcases List.mem_cons.mp hp with rfl | hp
          · have := htext t ht
            omega
          · have := htexts p hp t ht
            omega
      · cases h
    · cases h

theorem shrinks : ∀ fuel, Shrinks fuel
  | 0 => by
      refine ⟨?_, ?_, ?_⟩ <;> intro s r hload
      · rw [loadOnce] at hload
        cases hload
      · rw [loadItems] at hload
        cases hload
      · rw [loadMembers] at hload
        cases hload
  | fuel + 1 => by
      have ih := shrinks fuel
      exact ⟨loadOnce_shrinks ih, loadItems_shrinks ih, loadMembers_shrinks ih⟩

/-- **A text member is no longer than the document it stands in.** -/
theorem loads_text_length {s : PyStr} {es : List (MappingKey × PyValue)} (h : loads s = .ok (.mapping es))
    {k : MappingKey} {t : PyStr} (hmem : (k, .str t) ∈ es) : t.length ≤ s.length := by
  obtain ⟨rest, hscan, -⟩ := loads_eq_ok h
  exact le_trans (((shrinks _).once _ _ hscan).2.2 es rfl k t hmem) (skipSpace_length s)

end OcorRuntime.StandardJson
