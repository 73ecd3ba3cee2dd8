import OcorRuntime.Base.Time

/-! A date-time text determines the second it stands for. -/
namespace OcorRuntime
set_option autoImplicit false
set_option maxHeartbeats 250000

/-! ## Civil dates -/

/-- The year a day of an era falls in: centuries of 36524 days, in them cycles of 1461. -/
theorem yearOfEra_eq {q k d : ℕ} (hq : q ≤ 3) (hk : k ≤ 24) (hd : d ≤ 1460) (hlast : k = 24 → d ≤ 1459) :
    let day := 36524 * q + 1461 * k + d
    (day - day / 1460 + day / 36524 - day / 146096) / 365 = 100 * q + 4 * k + min 3 (d / 365) := by
  intro day
  have hcentury : day / 36524 = q := by omega
  have hera : day / 146096 = 0 := by omega
  by_cases hcarry : 24 * q + k + d < 1460
  · have hcycle : day / 1460 = 25 * q + k := by omega
    rw [hcentury, hera, hcycle]
    omega
  · have hcycle : day / 1460 = 25 * q + k + 1 := by omega
    rw [hcentury, hera, hcycle]
    omega

/-- The parts `civil` goes through, with nothing lost on the way. -/
theorem dayOfEra_parts {day : ℕ} (h : day < 146097) :
    let year := (day - day / 1460 + day / 36524 - day / 146096) / 365
    year < 400 ∧ 365 * year + year / 4 - year / 100 ≤ day ∧ day - (365 * year + year / 4 - year / 100) ≤ 365 := by
  intro year
  by_cases hlast : day = 146096
  · subst hlast
    decide
  · obtain ⟨q, k, d, hq, hk, hd, hk24, hday⟩ : ∃ q k d, q ≤ 3 ∧ k ≤ 24 ∧ d ≤ 1460 ∧ (k = 24 → d ≤ 1459) ∧
        day = 36524 * q + 1461 * k + d :=
      ⟨day / 36524, day % 36524 / 1461, day % 36524 % 1461, by omega, by omega, by omega, by omega, by omega⟩
    have hyear : year = 100 * q + 4 * k + min 3 (d / 365) := by
      have heq := yearOfEra_eq hq hk hd hk24
      simp only [← hday] at heq
      exact heq
    have hj : min 3 (d / 365) ≤ 3 := Nat.min_le_left _ _
    obtain ⟨j, hjdef⟩ : ∃ j, j = min 3 (d / 365) := ⟨_, rfl⟩
    rw [← hjdef] at hyear hj
    have h4 : year / 4 = 25 * q + k := by omega
    have h100 : year / 100 = q := by omega
    refine ⟨by omega, ?_, ?_⟩ <;> rw [h4, h100, hyear, hday] <;> omega

theorem dayOfYear_parts {day : ℕ} (h : day ≤ 365) :
    (5 * day + 2) / 153 ≤ 11 ∧ (153 * ((5 * day + 2) / 153) + 2) / 5 ≤ day := by
  refine ⟨by omega, by omega⟩

/-- The month of the year, from the months counted since March. -/
def civilMonth (shifted : ℕ) : ℕ := if shifted < 10 then shifted + 3 else shifted - 9

theorem civilMonth_injective {s t : ℕ} (hs : s ≤ 11) (ht : t ≤ 11) (h : civilMonth s = civilMonth t) : s = t := by
  unfold civilMonth at h
  split_ifs at h <;> omega

/-- A day number, from the parts of its civil date. -/
structure CivilParts (days era : ℤ) (year shifted day : ℕ) : Prop where
  era_eq : era = (days + 719468) / 146097
  year_lt : year < 400
  shifted_le : shifted ≤ 11
  days_eq : days + 719468 = era * 146097 + (365 * year + year / 4 - year / 100 : ℕ) + ((153 * shifted + 2) / 5 : ℕ) + day
  civil_eq : civil days = (if civilMonth shifted ≤ 2 then (year : ℤ) + era * 400 + 1 else (year : ℤ) + era * 400,
    civilMonth shifted, day + 1)

theorem civilParts (days : ℤ) : ∃ era year shifted day, CivilParts days era year shifted day := by
  obtain ⟨n, hn⟩ : ∃ n, n = (days + 719468 - (days + 719468) / 146097 * 146097).toNat := ⟨_, rfl⟩
  have hlt : n < 146097 := by omega
  obtain ⟨hylt, hyle, hdoy⟩ := dayOfEra_parts hlt
  obtain ⟨y, hy⟩ : ∃ y, y = (n - n / 1460 + n / 36524 - n / 146096) / 365 := ⟨_, rfl⟩
  rw [← hy] at hylt hyle hdoy
  obtain ⟨f, hf⟩ : ∃ f, f = 365 * y + y / 4 - y / 100 := ⟨_, rfl⟩
  rw [← hf] at hyle hdoy
  obtain ⟨hs, hsle⟩ := dayOfYear_parts hdoy
  obtain ⟨s, hsdef⟩ : ∃ s, s = (5 * (n - f) + 2) / 153 := ⟨_, rfl⟩
  rw [← hsdef] at hs hsle
  refine ⟨(days + 719468) / 146097, y, s, n - f - (153 * s + 2) / 5, rfl, hylt, hs, ?_, ?_⟩
  · rw [← hf]
    clear hy hf hsdef
    omega
  · unfold civil civilMonth
    simp only [← hn, ← hy, ← hf, ← hsdef]

theorem civil_injective : Function.Injective civil := by
  intro a b hab
  obtain ⟨era, y, s, d, ha⟩ := civilParts a
  obtain ⟨era', y', s', d', hb⟩ := civilParts b
  rw [ha.civil_eq, hb.civil_eq] at hab
  simp only [Prod.mk.injEq] at hab
  obtain ⟨hyear, hmonth, hday⟩ := hab
  have hs := civilMonth_injective ha.shifted_le hb.shifted_le hmonth
  subst hs
  have hyears : (y : ℤ) + era * 400 = y' + era' * 400 := by
    split_ifs at hyear <;> omega
  have hylt := ha.year_lt
  have hylt' := hb.year_lt
  have hy : y = y' := by omega
  have hera : era = era' := by omega
  subst hy
  subst hera
  have hdd : d = d' := by omega
  subst hdd
  have h := ha.days_eq
  rw [← hb.days_eq] at h
  omega

theorem civil_year_nonneg {days : ℤ} (h : -719468 ≤ days) : 0 ≤ (civil days).1 := by
  obtain ⟨era, y, s, d, hparts⟩ := civilParts days
  have hera := hparts.era_eq
  rw [hparts.civil_eq]
  dsimp only
  split_ifs <;> omega

/-! ## Texts -/

theorem padded_digits (width n : ℕ) : ∀ c ∈ padded width n, IsDigit c := by
  intro c hc
  rcases List.mem_append.mp hc with h | h
  · rw [(List.mem_replicate.mp h).2]
    decide
  · exact natText_digits n c h

theorem scalar_of_digits {s : PyStr} (h : ∀ c ∈ s, IsDigit c) : Scalar s := by
  intro c hc
  have hdigit := h c hc
  unfold IsDigit at hdigit
  unfold IsSurrogate
  omega

theorem scalar_natText (n : ℕ) : Scalar (natText n) := scalar_of_digits (natText_digits n)

theorem scalar_padded (width n : ℕ) : Scalar (padded width n) := scalar_of_digits (padded_digits width n)

theorem digitsValue_padded (width n : ℕ) : digitsValue (padded width n) = n := by
  have hzeros : ∀ k (s : PyStr), digitsValue (List.replicate k (digitChar 0) ++ s) = digitsValue s := by
    intro k s
    induction k with
    | zero => rfl
    | succ k ih => exact ih
  rw [padded, hzeros, digitsValue_natText]

theorem digits_append_inj {a b x y : PyStr} {c : CodePoint} (ha : ∀ d ∈ a, IsDigit d) (hb : ∀ d ∈ b, IsDigit d)
    (hc : ¬ IsDigit c) (h : a ++ c :: x = b ++ c :: y) : a = b ∧ x = y := by
  induction a generalizing b with
  | nil =>
    cases b with
    | nil => exact ⟨rfl, (List.cons.inj h).2⟩
    | cons d b =>
      have hd := hb d List.mem_cons_self
      rw [← (List.cons.inj h).1] at hd
      exact absurd hd hc
  | cons d a ih =>
    cases b with
    | nil =>
      have hd := ha d List.mem_cons_self
      rw [(List.cons.inj h).1] at hd
      exact absurd hd hc
    | cons e b =>
      obtain ⟨hde, hrest⟩ := List.cons.inj h
      obtain ⟨hab, hxy⟩ := ih (fun d hd => ha d (List.mem_cons_of_mem _ hd)) (fun d hd => hb d (List.mem_cons_of_mem _ hd)) hrest
      exact ⟨by rw [hde, hab], hxy⟩

theorem padded_append_inj {width m n : ℕ} {x y : PyStr} {c : CodePoint} (hc : ¬ IsDigit c)
    (h : padded width m ++ c :: x = padded width n ++ c :: y) : m = n ∧ x = y := by
  obtain ⟨hmn, hxy⟩ := digits_append_inj (padded_digits width m) (padded_digits width n) hc h
  have hvalue := congrArg digitsValue hmn
  rw [digitsValue_padded, digitsValue_padded] at hvalue
  exact ⟨hvalue, hxy⟩

theorem natText_append_inj {m n : ℕ} {x y : PyStr} {c : CodePoint} (hc : ¬ IsDigit c)
    (h : natText m ++ c :: x = natText n ++ c :: y) : m = n ∧ x = y := by
  obtain ⟨hmn, hxy⟩ := digits_append_inj (natText_digits m) (natText_digits n) hc h
  have hvalue := congrArg digitsValue hmn
  rw [digitsValue_natText, digitsValue_natText] at hvalue
  exact ⟨hvalue, hxy⟩

/-- `YYYY-MM-DDTHH:MM:SSZ` determines the second. -/
theorem timestamp_injective {t u : ℤ} (ht : minWall ≤ t) (hu : minWall ≤ u)
    (h : strftimeDate t ++ py "T" ++ clockText t ++ py "Z" = strftimeDate u ++ py "T" ++ clockText u ++ py "Z") :
    t / 1000000 = u / 1000000 := by
  have hdash : py "-" = [codePoint 0x2D] := rfl
  have htee : py "T" = [codePoint 0x54] := rfl
  have hcolon : py ":" = [codePoint 0x3A] := rfl
  have hzulu : py "Z" = [codePoint 0x5A] := rfl
  unfold strftimeDate clockText at h
  simp only [hdash, htee, hcolon, hzulu, List.append_assoc, List.cons_append, List.nil_append] at h
  obtain ⟨hyear, h⟩ := natText_append_inj (by decide) h
  obtain ⟨hmonth, h⟩ := padded_append_inj (by decide) h
  obtain ⟨hday, h⟩ := padded_append_inj (by decide) h
  obtain ⟨hhour, h⟩ := padded_append_inj (by decide) h
  obtain ⟨hminute, h⟩ := padded_append_inj (by decide) h
  obtain ⟨hsecond, -⟩ := padded_append_inj (by decide) h
  unfold minWall at ht hu
  have hdays : t / microsecondsPerDay = u / microsecondsPerDay := by
    have hlow : -719468 ≤ t / microsecondsPerDay ∧ -719468 ≤ u / microsecondsPerDay := by
      unfold microsecondsPerDay
      omega
    have hy := civil_year_nonneg hlow.1
    have hy' := civil_year_nonneg hlow.2
    apply civil_injective
    ext
    · omega
    · exact hmonth
    · exact hday
  unfold microsecondsPerDay at hdays hhour hminute hsecond
  omega

end OcorRuntime
