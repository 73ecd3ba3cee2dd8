import OcorRuntime.Canonical.Json
import OcorRuntime.Canonical.JsonLoads

/-! The scanner reads back what the serializer writes: strings, integers, and by
induction every I-JSON value, each followed by a delimiter or the end of the text. -/
namespace OcorRuntime.Canonical
set_option autoImplicit false
set_option maxHeartbeats 250000
set_option maxRecDepth 120000

/-! ## Strings -/

def hexEscaped (c : CodePoint) : Bool :=
  decide (c.val ≤ 0x1F ∧ c.val ≠ 0x08 ∧ c.val ≠ 0x09 ∧ c.val ≠ 0x0A ∧ c.val ≠ 0x0C ∧ c.val ≠ 0x0D)

theorem hexValue_hexDigit {d : ℕ} (h : d < 16) : hexValue (hexDigit d) = some d := by
  have hv := hexDigit_val h
  unfold hexValue
  rw [hv]
  split_ifs <;> first | omega | (congr 1; omega)

theorem scanChars_short {c : CodePoint} (e : CodePoint) (he : simpleEscape e = some c) (rest : PyStr) :
    scanChars (backslash :: e :: rest) = (scanChars rest).map fun r => ((false, c) :: r.1, r.2) := by
  rw [scanChars.eq_def]
  simp only [show ¬ backslash = quote by decide, if_false, if_true, he]

theorem scanChars_hex {c : CodePoint} (hc : c.val ≤ 0x1F) (rest : PyStr) :
    scanChars (backslash :: py "u" ++ [hexDigit 0, hexDigit 0, hexDigit (c.val / 16), hexDigit (c.val % 16)] ++ rest) =
      (scanChars rest).map fun r => ((true, c) :: r.1, r.2) := by
  have hu : py "u" = [codePoint 0x75] := by decide
  have hesc : simpleEscape (codePoint 0x75) = none := by decide
  have hfour : hexFour (hexDigit 0) (hexDigit 0) (hexDigit (c.val / 16)) (hexDigit (c.val % 16)) = some c.val := by
    simp only [hexFour, hexValue_hexDigit (show 0 < 16 by omega), hexValue_hexDigit (show c.val / 16 < 16 by omega),
      hexValue_hexDigit (show c.val % 16 < 16 by omega)]
    exact congrArg some (by omega)
  rw [hu]
  simp only [List.cons_append, List.nil_append]
  rw [scanChars.eq_def]
  simp only [show ¬ backslash = quote by decide, if_false, if_true, hesc, hfour, codePoint_self,
    show (codePoint 0x75).val = 0x75 by decide]

theorem scanChars_escape (c : CodePoint) (rest : PyStr) :
    scanChars (escapeChar c ++ rest) = (scanChars rest).map fun r => ((hexEscaped c, c) :: r.1, r.2) := by
  have hshort : ∀ (n : ℕ) (e : CodePoint), c.val = n → simpleEscape e = some (codePoint n) →
      hexEscaped (codePoint n) = false → n < 0x110000 →
      scanChars (backslash :: e :: rest) = (scanChars rest).map fun r => ((hexEscaped c, c) :: r.1, r.2) := by
    intro n e hn he hx hlt
    have hc : c = codePoint n := Fin.ext (by rw [codePoint_val n hlt, hn])
    rw [hc, hx]
    exact scanChars_short e he rest
  unfold escapeChar
  split_ifs with h1 h2 h3 h4 h5 h6 h7 h8
  · exact hshort _ quote h1 (by decide) (by decide) (by omega)
  · exact hshort _ backslash h2 (by decide) (by decide) (by omega)
  · exact hshort _ (codePoint 0x62) h3 (by decide) (by decide) (by omega)
  · exact hshort _ (codePoint 0x74) h4 (by decide) (by decide) (by omega)
  · exact hshort _ (codePoint 0x6E) h5 (by decide) (by decide) (by omega)
  · exact hshort _ (codePoint 0x66) h6 (by decide) (by decide) (by omega)
  · exact hshort _ (codePoint 0x72) h7 (by decide) (by decide) (by omega)
  · rw [scanChars_hex h8, show hexEscaped c = true from decide_eq_true ⟨h8, h3, h4, h5, h6, h7⟩]
  · rw [List.singleton_append, scanChars.eq_def]
    have hq : ¬ c = quote := fun h => h1 (by rw [h]; decide)
    have hb : ¬ c = backslash := fun h => h2 (by rw [h]; decide)
    have hx : hexEscaped c = false := decide_eq_false fun h => h8 h.1
    simp only [if_neg hq, if_neg hb, if_neg h8, hx]

theorem scanChars_text (s rest : PyStr) :
    scanChars (s.flatMap escapeChar ++ quote :: rest) = .ok (s.map fun c => (hexEscaped c, c), rest) := by
  induction s with
  | nil =>
    rw [List.flatMap_nil, List.nil_append, scanChars.eq_def]
    simp
  | cons c s ih =>
    rw [List.flatMap_cons, List.append_assoc, scanChars_escape, ih]
    rfl

theorem joinSurrogates_scalar (l : List (Bool × CodePoint)) (h : ∀ p ∈ l, ¬ IsSurrogate p.2) :
    joinSurrogates l = l.map Prod.snd := by
  induction l with
  | nil => rfl
  | cons p l ih =>
    have hp := h p (List.mem_cons_self ..)
    have hl := ih fun q hq => h q (List.mem_cons_of_mem p hq)
    obtain ⟨e, u⟩ := p
    cases l with
    | nil => rfl
    | cons q l =>
      obtain ⟨f, v⟩ := q
      rw [joinSurrogates, if_neg (by rintro ⟨-, -, h1, h2, -⟩; exact hp ⟨h1, le_trans h2 (by decide)⟩), hl]
      rfl

theorem scanString_text {s : PyStr} (hs : Scalar s) (rest : PyStr) :
    scanString (s.flatMap escapeChar ++ quote :: rest) = .ok (s, rest) := by
  rw [scanString, scanChars_text]
  have hj : joinSurrogates (s.map fun c => (hexEscaped c, c)) = s := by
    rw [joinSurrogates_scalar, List.map_map]
    · exact List.map_id s
    · intro p hp
      obtain ⟨c, hc, rfl⟩ := List.mem_map.mp hp
      exact hs c hc
  exact congrArg (fun t => Except.ok (t, rest)) hj

/-! ## Delimiters -/

/-- What may follow a value inside a text: nothing, a comma or a closing bracket. -/
def Stop (rest : PyStr) : Prop :=
  rest = [] ∨ ∃ c tail, rest = c :: tail ∧ (c.val = 0x2C ∨ c.val = 0x5D ∨ c.val = 0x7D)

theorem stop_cons {c : CodePoint} (tail : PyStr) (h : c.val = 0x2C ∨ c.val = 0x5D ∨ c.val = 0x7D) : Stop (c :: tail) :=
  Or.inr ⟨c, tail, rfl, h⟩

theorem skipSpace_cons {c : CodePoint} (h : ¬ IsSpace c) (tail : PyStr) : skipSpace (c :: tail) = c :: tail := by
  rw [skipSpace, List.dropWhile_cons_of_neg (by simpa using h)]

theorem takeDigits_append {ds rest : PyStr} (hds : ∀ c ∈ ds, IsDigit c) (hrest : Stop rest) :
    takeDigits (ds ++ rest) = ds ∧ dropDigits (ds ++ rest) = rest := by
  unfold takeDigits dropDigits
  induction ds with
  | nil =>
    rcases hrest with rfl | ⟨c, tail, rfl, hc⟩
    · exact ⟨rfl, rfl⟩
    · have hnd : ¬ IsDigit c := by unfold IsDigit; omega
      exact ⟨List.takeWhile_cons_of_neg (by simpa using hnd), List.dropWhile_cons_of_neg (by simpa using hnd)⟩
  | cons c ds ih =>
    have hc := hds c (List.mem_cons_self ..)
    obtain ⟨h1, h2⟩ := ih fun d hd => hds d (List.mem_cons_of_mem c hd)
    rw [List.cons_append, List.takeWhile_cons_of_pos (by simpa using hc),
      List.dropWhile_cons_of_pos (by simpa using hc), h1, h2]
    exact ⟨rfl, rfl⟩

/-! ## Integers -/

theorem scanDigits_natText (n : ℕ) {rest : PyStr} (hrest : Stop rest) :
    scanDigits (natText n ++ rest) = some (natText n, rest) := by
  have hall := natText_digits n
  cases ht : natText n with
  | nil => exact absurd ht (natText_ne_nil n)
  | cons c ds =>
    rw [ht] at hall
    rw [List.cons_append, scanDigits]
    by_cases h0 : c = digitChar 0
    · subst h0
      rw [if_pos rfl, natText_head ht, List.nil_append]
    · obtain ⟨h1, h2⟩ := takeDigits_append (fun d hd => hall d (List.mem_cons_of_mem c hd)) hrest
      rw [if_neg h0, if_pos (hall c (List.mem_cons_self ..)), h1, h2]

theorem scanFraction_stop {rest : PyStr} (h : Stop rest) : scanFraction rest = ([], rest) := by
  rcases h with rfl | ⟨c, tail, rfl, hc⟩
  · rfl
  · rw [scanFraction, if_neg (by omega)]

theorem scanExponent_stop {rest : PyStr} (h : Stop rest) : scanExponent rest = (none, rest) := by
  rcases h with rfl | ⟨c, tail, rfl, hc⟩
  · rfl
  · rw [scanExponent.eq_def]
    dsimp only
    rw [if_neg (by omega)]

theorem parseInteger_natText (neg : Bool) {n : ℕ} (hn : n ≤ maxSafeInteger) :
    parseInteger neg (natText n) = .ok (.int (if neg then -(n : ℤ) else n)) := by
  obtain ⟨x, hx, hratio⟩ := ofRatio_nat neg (show n < 2 ^ 53 by unfold maxSafeInteger at hn; omega)
  have hle : x.AbsLe maxSafeInteger := by
    unfold FiniteFloat.AbsLe
    rw [hratio]
    exact Nat.mul_le_mul_right _ hn
  rw [parseInteger, digitsValue_natText, hx]
  simp only [if_pos hle]

theorem scanUnsigned_natText (neg : Bool) {n : ℕ} (hn : n ≤ maxSafeInteger) {rest : PyStr} (hrest : Stop rest) :
    scanUnsigned neg (natText n ++ rest) = .ok (.int (if neg then -(n : ℤ) else n), rest) := by
  rw [scanUnsigned, scanDigits_natText n hrest]
  simp only [scanFraction_stop hrest, scanExponent_stop hrest, and_self, if_true, parseInteger_natText neg hn]
  rfl

theorem scanNumber_intText {n : ℤ} (hn : n.natAbs ≤ maxSafeInteger) {rest : PyStr} (hrest : Stop rest) :
    scanNumber (intText n ++ rest) = .ok (.int n, rest) := by
  unfold intText
  split_ifs with hneg
  · have hm : py "-" = [codePoint 0x2D] := by decide
    rw [hm, List.append_assoc, List.singleton_append, scanNumber, if_pos (by decide), scanUnsigned_natText true hn hrest]
    simp only [if_true]
    congr 3
    omega
  · have h := scanUnsigned_natText false hn hrest
    have hpos : (n.natAbs : ℤ) = n := by omega
    simp only [Bool.false_eq_true, if_false, hpos] at h
    cases ht : natText n.natAbs with
    | nil => exact absurd ht (natText_ne_nil _)
    | cons c ds =>
      have hc := natText_digits n.natAbs c (by rw [ht]; exact List.mem_cons_self ..)
      unfold IsDigit at hc
      rw [List.cons_append, scanNumber, if_neg (by omega), ← List.cons_append, ← ht, h]

/-! ## Values -/

def Start (c : CodePoint) : Prop := 0x20 < c.val ∧ c.val < 0x80 ∧ c.val ≠ 0x5D ∧ c.val ≠ 0x7D

theorem Start.not_space {c : CodePoint} (h : Start c) : ¬ IsSpace c := by
  unfold Start IsSpace at *
  omega

/-- The scanner reads the text as `v` in front of any delimiter. -/
structure ReadsAs (text : PyStr) (v : PyValue) : Prop where
  head : ∃ c t, text = c :: t ∧ Start c
  scan : ∀ fuel rest, text.length ≤ fuel → Stop rest → scanOnce fuel (text ++ rest) = .ok (v, rest)

/-- The scanner reads back the text of `u`. -/
def Reads (u : PyValue) : Prop := ReadsAs (render u) u

theorem joinCommas_singleton (x : PyStr) : joinCommas [x] = x := by
  simp [joinCommas, List.intercalate]

theorem joinCommas_cons (x y : PyStr) (l : List PyStr) :
    joinCommas (x :: y :: l) = x ++ codePoint 0x2C :: joinCommas (y :: l) := by
  have hc : py "," = [codePoint 0x2C] := by decide
  simp [joinCommas, hc, List.intercalate, List.intersperse]

/-- A text with the value it is read as. -/
abbrev TextOf := PyStr × PyValue

theorem scanItems_reads : ∀ (u : TextOf) (us : List TextOf), (∀ x ∈ u :: us, ReadsAs x.1 x.2) →
    ∀ fuel rest, (joinCommas ((u :: us).map Prod.fst)).length + 1 ≤ fuel →
      scanItems fuel (joinCommas ((u :: us).map Prod.fst) ++ codePoint 0x5D :: rest) =
        .ok ((u :: us).map Prod.snd, rest)
  | u, [], hr, 0, rest, hf => by omega
  | u, [], hr, fuel + 1, rest, hf => by
      rw [List.map_singleton, joinCommas_singleton] at hf ⊢
      have hstop : Stop (codePoint 0x5D :: rest) := stop_cons rest (by decide)
      rw [scanItems, (hr u (List.mem_cons_self ..)).scan fuel _ (by omega) hstop]
      simp only [bind, Except.bind, skipSpace_cons (show ¬ IsSpace (codePoint 0x5D) by decide),
        show (codePoint 0x5D).val = 0x5D by decide, if_true]
      rfl
  | u, w :: us, hr, 0, rest, hf => by omega
  | u, w :: us, hr, fuel + 1, rest, hf => by
      have hu := hr u (List.mem_cons_self ..)
      have hw := hr w (List.mem_cons_of_mem u (List.mem_cons_self ..))
      simp only [List.map_cons] at hf ⊢
      rw [joinCommas_cons] at hf ⊢
      rw [List.length_append, List.length_cons] at hf
      have hstop : Stop (codePoint 0x2C :: (joinCommas (w.1 :: us.map Prod.fst) ++ codePoint 0x5D :: rest)) :=
        stop_cons _ (by decide)
      obtain ⟨c, t, hct, hstart⟩ := hw.head
      have hskip : skipSpace (joinCommas (w.1 :: us.map Prod.fst) ++ codePoint 0x5D :: rest) =
          joinCommas (w.1 :: us.map Prod.fst) ++ codePoint 0x5D :: rest := by
        cases us with
        | nil => rw [List.map_nil, joinCommas_singleton, hct]; exact skipSpace_cons hstart.not_space _
        | cons x us => rw [List.map_cons, joinCommas_cons, hct]; exact skipSpace_cons hstart.not_space _
      have hpos : 0 < u.1.length := by
        obtain ⟨c', t', h', -⟩ := hu.head
        rw [h']
        exact Nat.succ_pos _
      have ih := scanItems_reads w us (fun x hx => hr x (List.mem_cons_of_mem u hx)) fuel rest
        (by rw [List.map_cons]; omega)
      rw [List.map_cons, List.map_cons] at ih
      rw [List.append_assoc, List.cons_append, scanItems, hu.scan fuel _ (by omega) hstop]
      simp only [bind, Except.bind, skipSpace_cons (show ¬ IsSpace (codePoint 0x2C) by decide),
        show (codePoint 0x2C).val = 0x2C by decide, show ¬ (0x2C : ℕ) = 0x5D by decide, if_false, if_true, hskip, ih]
      rfl

/-- A member, its value with the text it is read from. -/
abbrev MemberOf := PyStr × TextOf

def memberText (m : MemberOf) : PyStr := stringText m.1 ++ py ":" ++ m.2.1

def MemberOf.pair (m : MemberOf) : PyStr × PyValue := (m.1, m.2.2)

theorem scanMembers_head {m : MemberOf} (hm : Scalar m.1 ∧ ReadsAs m.2.1 m.2.2) (fuel : ℕ) (rest : PyStr)
    (hf : (memberText m).length ≤ fuel) (hrest : Stop rest) :
    scanMembers (fuel + 1) (memberText m ++ rest) = (do
      match skipSpace rest with
      | d :: rest =>
        if d.val = 0x7D then return ([m.pair], rest)
        else if d.val = 0x2C then
          let (pairs, rest) ← scanMembers fuel (skipSpace rest)
          return (m.pair :: pairs, rest)
        else .error .decode
      | [] => .error .decode) := by
  obtain ⟨key, text, value⟩ := m
  obtain ⟨hs, hr⟩ := hm
  obtain ⟨c, t, hct, hstart⟩ := hr.head
  have hcolon : py ":" = [codePoint 0x3A] := by decide
  have htext : memberText (key, text, value) ++ rest =
      quote :: (key.flatMap escapeChar ++ quote :: (codePoint 0x3A :: (text ++ rest))) := by
    simp [memberText, stringText, hcolon]
  have hlen : text.length ≤ fuel := by
    simp only [memberText, List.length_append] at hf
    omega
  have hskip : skipSpace (text ++ rest) = text ++ rest := by
    have hct : text = c :: t := hct
    rw [hct]
    exact skipSpace_cons hstart.not_space _
  rw [htext, scanMembers]
  simp only [show quote.val = 0x22 by decide, if_true, scanString_text hs, bind, Except.bind,
    skipSpace_cons (show ¬ IsSpace (codePoint 0x3A) by decide), show (codePoint 0x3A).val = 0x3A by decide, hskip,
    hr.scan fuel rest hlen hrest]
  all_goals rfl

theorem scanMembers_reads : ∀ (m : MemberOf) (ms : List MemberOf),
    (∀ x ∈ m :: ms, Scalar x.1 ∧ ReadsAs x.2.1 x.2.2) →
    ∀ fuel rest, (joinCommas ((m :: ms).map memberText)).length + 1 ≤ fuel →
      scanMembers fuel (joinCommas ((m :: ms).map memberText) ++ codePoint 0x7D :: rest) =
        .ok ((m :: ms).map MemberOf.pair, rest)
  | m, [], hr, 0, rest, hf => by omega
  | m, [], hr, fuel + 1, rest, hf => by
      rw [List.map_singleton, joinCommas_singleton] at hf ⊢
      rw [scanMembers_head (hr m (List.mem_cons_self ..)) fuel _ (by omega) (stop_cons rest (by decide)),
        skipSpace_cons (by decide)]
      rfl
  | m, n :: ms, hr, 0, rest, hf => by omega
  | m, n :: ms, hr, fuel + 1, rest, hf => by
      simp only [List.map_cons] at hf ⊢
      rw [joinCommas_cons] at hf ⊢
      rw [List.length_append, List.length_cons] at hf
      have hpos : 0 < (memberText m).length := by
        simp [memberText, stringText]
      have hskip : skipSpace (joinCommas (memberText n :: ms.map memberText) ++ codePoint 0x7D :: rest) =
          joinCommas (memberText n :: ms.map memberText) ++ codePoint 0x7D :: rest := by
        cases ms with
        | nil =>
          rw [List.map_nil, joinCommas_singleton]
          exact skipSpace_cons (show ¬ IsSpace quote by decide) _
        | cons x ms =>
          rw [List.map_cons, joinCommas_cons]
          exact skipSpace_cons (show ¬ IsSpace quote by decide) _
      have ih := scanMembers_reads n ms (fun x hx => hr x (List.mem_cons_of_mem m hx)) fuel rest
        (by rw [List.map_cons]; omega)
      rw [List.map_cons] at ih
      rw [List.append_assoc, List.cons_append, scanMembers_head (hr m (List.mem_cons_self ..)) fuel _ (by omega)
        (stop_cons _ (by decide)), skipSpace_cons (by decide)]
      simp only [show (codePoint 0x2C).val = 0x2C by decide, show ¬ (0x2C : ℕ) = 0x7D by decide, if_false, if_true,
        hskip, ih, bind, Except.bind]
      rfl

end OcorRuntime.Canonical
