import OcorRuntime.Base.CalendarLaws

/-! The proleptic Gregorian calendar: the number of a date's day, which is what the civil date
of a day number is found from. -/
namespace OcorRuntime
set_option autoImplicit false
set_option maxHeartbeats 250000

/-! ## Days of a date -/

/-- The days of a month of the Gregorian calendar. -/
def daysInMonth (year month : ℕ) : ℕ :=
  if month = 2 then if year % 4 = 0 ∧ (year % 100 ≠ 0 ∨ year % 400 = 0) then 29 else 28
  else if month = 4 ∨ month = 6 ∨ month = 9 ∨ month = 11 then 30 else 31

def daysBeforeYear (year : ℕ) : ℕ := (year - 1) * 365 + (year - 1) / 4 - (year - 1) / 100 + (year - 1) / 400

def daysBeforeMonth (year month : ℕ) : ℕ := ((List.range (month - 1)).map fun m => daysInMonth year (m + 1)).sum

/-- `date(year, month, day).toordinal()`, counted from 1970-01-01. -/
def dayNumber (year month day : ℕ) : ℤ := (daysBeforeYear year + daysBeforeMonth year month + day : ℕ) - 719163

/-! ## Years that begin in March -/

/-- The days of an era before its year `y`. -/
def eraDays (y : ℕ) : ℕ := 365 * y + y / 4 - y / 100

/-- The days of a year before its month `s`, counted from March. -/
def marchDays (s : ℕ) : ℕ := (153 * s + 2) / 5

/-- Whether the year of an era ends with a leap day. -/
def EndsLeap (y : ℕ) : Prop := (y + 1) % 4 = 0 ∧ ((y + 1) % 100 ≠ 0 ∨ (y + 1) % 400 = 0)

instance (y : ℕ) : Decidable (EndsLeap y) := inferInstanceAs (Decidable (_ ∧ _))

def marchMonthLength (y s : ℕ) : ℕ :=
  if s = 11 then if EndsLeap y then 29 else 28 else marchDays (s + 1) - marchDays s

def yearLength (y : ℕ) : ℕ := if EndsLeap y then 366 else 365

theorem exists_cycle {y : ℕ} (hy : y < 400) : ∃ q k j, q ≤ 3 ∧ k ≤ 24 ∧ j ≤ 3 ∧ y = 100 * q + 4 * k + j ∧
    eraDays y = 36524 * q + 1461 * k + 365 * j ∧ (EndsLeap y ↔ j = 3 ∧ (k = 24 → q = 3)) := by
  refine ⟨y / 100, y % 100 / 4, y % 4, by omega, by omega, by omega, by omega, ?_, ?_⟩
  · unfold eraDays
    omega
  · unfold EndsLeap
    omega

theorem yearOfEra_of_parts {y doy n : ℕ} (hy : y < 400) (hdoy : doy < yearLength y) (hn : n = eraDays y + doy) :
    (n - n / 1460 + n / 36524 - n / 146096) / 365 = y ∧ n < 146097 := by
  obtain ⟨q, k, j, hq, hk, hj, hyear, hera, hleap⟩ := exists_cycle hy
  have hday : n = 36524 * q + 1461 * k + (365 * j + doy) := by omega
  have hbound : doy ≤ 364 ∨ doy = 365 ∧ j = 3 ∧ (k = 24 → q = 3) := by
    unfold yearLength at hdoy
    split_ifs at hdoy with h
    · have hlast := hleap.mp h
      omega
    · omega
  clear hera hleap hdoy hn
  by_cases hlast : k = 24 ∧ 365 * j + doy = 1460
  · have hq3 : q = 3 := by omega
    have hj3 : j = 3 := by omega
    subst hq3 hj3
    have hend : n = 146096 := by omega
    subst hend
    exact ⟨by omega, by omega⟩
  · have hd : 365 * j + doy ≤ 1460 ∧ (k = 24 → 365 * j + doy ≤ 1459) := by omega
    have hmin : min 3 ((365 * j + doy) / 365) = j := by omega
    have heq := yearOfEra_eq hq hk hd.1 hd.2
    simp only [← hday, hmin, ← hyear] at heq
    exact ⟨heq, by omega⟩

theorem marchMonth_of_parts {y s dd : ℕ} (hs : s ≤ 11) (hdd : dd < marchMonthLength y s) :
    (5 * (marchDays s + dd) + 2) / 153 = s ∧ marchDays s + dd < yearLength y := by
  unfold marchMonthLength at hdd
  unfold yearLength
  unfold marchDays at hdd ⊢
  split_ifs at hdd ⊢ <;> omega

theorem exists_marchMonth {y doy : ℕ} (hdoy : doy < yearLength y) :
    ∃ s dd, s ≤ 11 ∧ dd < marchMonthLength y s ∧ doy = marchDays s + dd := by
  have hle : doy ≤ 365 := by
    unfold yearLength at hdoy
    split_ifs at hdoy <;> omega
  refine ⟨(5 * doy + 2) / 153, doy - marchDays ((5 * doy + 2) / 153), by omega, ?_, ?_⟩
  · unfold yearLength at hdoy
    unfold marchMonthLength marchDays
    split_ifs at hdoy ⊢ <;> omega
  · unfold marchDays
    omega

theorem exists_yearOfEra {n : ℕ} (hn : n < 146097) : ∃ y doy, y < 400 ∧ doy < yearLength y ∧ n = eraDays y + doy := by
  by_cases hlast : n = 146096
  · exact ⟨399, 365, by decide, by decide, by rw [hlast]; decide⟩
  · obtain ⟨q, k, d, hq, hk, hd, hk24, hday⟩ : ∃ q k d, q ≤ 3 ∧ k ≤ 24 ∧ d ≤ 1460 ∧ (k = 24 → d ≤ 1459) ∧
        n = 36524 * q + 1461 * k + d :=
      ⟨n / 36524, n % 36524 / 1461, n % 36524 % 1461, by omega, by omega, by omega, by omega, by omega⟩
    have hj : min 3 (d / 365) ≤ 3 := Nat.min_le_left _ _
    obtain ⟨j, hjdef⟩ : ∃ j, j = min 3 (d / 365) := ⟨_, rfl⟩
    rw [← hjdef] at hj
    refine ⟨100 * q + 4 * k + j, d - 365 * j, by omega, ?_, ?_⟩
    · unfold yearLength
      have hleap : EndsLeap (100 * q + 4 * k + j) ↔ j = 3 ∧ (k = 24 → q = 3) := by
        unfold EndsLeap
        omega
      split_ifs with h
      · omega
      · rw [hleap] at h
        omega
    · have h4 : (100 * q + 4 * k + j) / 4 = 25 * q + k := by omega
      have h100 : (100 * q + 4 * k + j) / 100 = q := by omega
      unfold eraDays
      rw [h4, h100]
      omega

/-- What `civil` makes of a day, from its parts. -/
theorem civil_of_parts {era : ℤ} {y s dd : ℕ} (hy : y < 400) (hs : s ≤ 11) (hdd : dd < marchMonthLength y s) {days : ℤ}
    (hdays : days + 719468 = era * 146097 + (eraDays y + marchDays s + dd : ℕ)) :
    civil days = (if civilMonth s ≤ 2 then (y : ℤ) + era * 400 + 1 else (y : ℤ) + era * 400, civilMonth s, dd + 1) := by
  obtain ⟨hmonth, hdoy⟩ := marchMonth_of_parts hs hdd
  obtain ⟨n, hn⟩ : ∃ n, n = eraDays y + (marchDays s + dd) := ⟨_, rfl⟩
  obtain ⟨hyear, hlt⟩ := yearOfEra_of_parts hy hdoy hn
  have hera : (days + 719468) / 146097 = era := by omega
  have hday : (days + 719468 - era * 146097).toNat = n := by omega
  have hrest : n - (365 * y + y / 4 - y / 100) = marchDays s + dd := by
    change n - eraDays y = _
    omega
  unfold civil
  simp only [hera, hday, hyear, hrest, hmonth]
  change (if civilMonth s ≤ 2 then _ else _, civilMonth s, marchDays s + dd - marchDays s + 1) = _
  rw [Nat.add_sub_cancel_left]

theorem exists_parts (days : ℤ) : ∃ (era : ℤ) (y s dd : ℕ), y < 400 ∧ s ≤ 11 ∧ dd < marchMonthLength y s ∧
    days + 719468 = era * 146097 + (eraDays y + marchDays s + dd : ℕ) := by
  obtain ⟨y, doy, hy, hdoy, hn⟩ := exists_yearOfEra (n := (days + 719468 - (days + 719468) / 146097 * 146097).toNat)
    (by omega)
  obtain ⟨s, dd, hs, hdd, hmonth⟩ := exists_marchMonth hdoy
  exact ⟨(days + 719468) / 146097, y, s, dd, hy, hs, hdd, by omega⟩

/-! ## The calendar -/

theorem daysBeforeYear_eq (n : ℕ) : daysBeforeYear (n + 1) = n / 400 * 146097 + eraDays (n % 400) := by
  unfold daysBeforeYear eraDays
  rw [Nat.add_sub_cancel]
  omega

theorem daysBeforeYear_succ {year : ℕ} (hy : 1 ≤ year) :
    daysBeforeYear (year + 1) = daysBeforeYear year + 337 + daysInMonth year 2 := by
  obtain ⟨n, rfl⟩ : ∃ n, year = n + 1 := ⟨year - 1, by omega⟩
  unfold daysBeforeYear daysInMonth
  rw [Nat.add_sub_cancel, Nat.add_sub_cancel, if_pos rfl]
  have h4 : (n + 1) / 4 = n / 4 + if (n + 1) % 4 = 0 then 1 else 0 := by split_ifs <;> omega
  have h100 : (n + 1) / 100 = n / 100 + if (n + 1) % 100 = 0 then 1 else 0 := by split_ifs <;> omega
  have h400 : (n + 1) / 400 = n / 400 + if (n + 1) % 400 = 0 then 1 else 0 := by split_ifs <;> omega
  have hle : n / 100 ≤ n / 4 := Nat.div_le_div_left (by decide) (by decide)
  have hmod : ((n + 1) % 100 = 0 → (n + 1) % 4 = 0) ∧ ((n + 1) % 400 = 0 → (n + 1) % 100 = 0) := by omega
  rw [h4, h100, h400]
  clear h4 h100 h400
  by_cases hfour : (n + 1) % 4 = 0
  · by_cases hhundred : (n + 1) % 100 = 0
    · by_cases hcycle : (n + 1) % 400 = 0
      · rw [if_pos hfour, if_pos hhundred, if_pos hcycle, if_pos ⟨hfour, .inr hcycle⟩]
        omega
      · rw [if_pos hfour, if_pos hhundred, if_neg hcycle, if_neg fun h => h.2.elim (fun h => h hhundred) hcycle]
        omega
    · have hcycle : ¬ (n + 1) % 400 = 0 := fun h => hhundred (hmod.2 h)
      rw [if_pos hfour, if_neg hhundred, if_neg hcycle, if_pos ⟨hfour, .inl hhundred⟩]
      omega
  · have hhundred : ¬ (n + 1) % 100 = 0 := fun h => hfour (hmod.1 h)
    have hcycle : ¬ (n + 1) % 400 = 0 := fun h => hhundred (hmod.2 h)
    rw [if_neg hfour, if_neg hhundred, if_neg hcycle, if_neg fun h => hfour h.1]
    omega

/-- The year of a date that begins in March, and the month of it. -/
def marchYear (year month : ℕ) : ℕ := if month ≤ 2 then year - 1 else year

def marchMonth (month : ℕ) : ℕ := (month + 9) % 12

theorem dayNumber_parts {year month day : ℕ} (hy : 1 ≤ year) (hm : 1 ≤ month) (hm' : month ≤ 12) (hd : 1 ≤ day) :
    dayNumber year month day + 719468 = (marchYear year month / 400 : ℕ) * 146097 +
      (eraDays (marchYear year month % 400) + marchDays (marchMonth month) + (day - 1) : ℕ) := by
  unfold dayNumber marchYear marchMonth
  by_cases hearly : month ≤ 2
  · obtain ⟨n, rfl⟩ : ∃ n, year = n + 1 := ⟨year - 1, by omega⟩
    have hyear := daysBeforeYear_eq n
    rw [if_pos hearly, Nat.add_sub_cancel]
    interval_cases month
    · simp only [daysBeforeMonth, marchDays]
      simp
      omega
    · simp only [daysBeforeMonth, marchDays, daysInMonth]
      simp
      omega
  · have hyear := daysBeforeYear_eq year
    have hsucc := daysBeforeYear_succ hy
    have h1 : daysInMonth year 1 = 31 := rfl
    have h3 : daysInMonth year 3 = 31 := rfl
    have h4 : daysInMonth year 4 = 30 := rfl
    have h5 : daysInMonth year 5 = 31 := rfl
    have h6 : daysInMonth year 6 = 30 := rfl
    have h7 : daysInMonth year 7 = 31 := rfl
    have h8 : daysInMonth year 8 = 31 := rfl
    have h9 : daysInMonth year 9 = 30 := rfl
    have h10 : daysInMonth year 10 = 31 := rfl
    have h11 : daysInMonth year 11 = 30 := rfl
    rw [if_neg hearly]
    generalize year / 400 = era at hyear ⊢
    generalize eraDays (year % 400) = days at hyear ⊢
    interval_cases month <;>
      simp [daysBeforeMonth, marchDays, List.range_succ, h1, h3, h4, h5, h6, h7, h8, h9, h10, h11] <;> omega

theorem civilMonth_marchMonth {month : ℕ} (hm : 1 ≤ month) (hm' : month ≤ 12) : civilMonth (marchMonth month) = month := by
  unfold civilMonth marchMonth
  split_ifs <;> omega

theorem day_lt_of_daysInMonth {year month day : ℕ} (hy : 1 ≤ year) (hm : 1 ≤ month) (hm' : month ≤ 12) (hd : 1 ≤ day)
    (hd' : day ≤ daysInMonth year month) : day - 1 < marchMonthLength (marchYear year month % 400) (marchMonth month) := by
  unfold daysInMonth at hd'
  unfold marchMonthLength marchYear marchMonth
  by_cases hfeb : month = 2
  · subst hfeb
    rw [if_pos rfl] at hd' ⊢
    have hleap : EndsLeap ((year - 1) % 400) ↔ year % 4 = 0 ∧ (year % 100 ≠ 0 ∨ year % 400 = 0) := by
      unfold EndsLeap
      omega
    rw [if_pos (le_refl 2)]
    simp only [hleap]
    split_ifs at hd' ⊢ <;> omega
  · have hs : ¬ (month + 9) % 12 = 11 := by omega
    rw [if_neg hfeb] at hd'
    rw [if_neg hs]
    unfold marchDays
    clear hs
    interval_cases month <;> simp at hd' hfeb ⊢ <;> omega

theorem civil_dayNumber {year month day : ℕ} (hy : 1 ≤ year) (hm : 1 ≤ month) (hm' : month ≤ 12) (hd : 1 ≤ day)
    (hd' : day ≤ daysInMonth year month) : civil (dayNumber year month day) = ((year : ℤ), month, day) := by
  have hcivil := civil_of_parts (Nat.mod_lt _ (by decide)) (by unfold marchMonth; omega)
    (day_lt_of_daysInMonth hy hm hm' hd hd') (dayNumber_parts hy hm hm' hd)
  rw [hcivil, civilMonth_marchMonth hm hm']
  unfold marchYear
  refine Prod.ext ?_ (Prod.ext rfl ?_)
  · dsimp only
    split_ifs <;> omega
  · dsimp only
    omega

/-- What `civil` returns is a date. -/
theorem civil_valid {days : ℤ} (hyear : 1 ≤ (civil days).1) : (1 ≤ (civil days).2.1 ∧ (civil days).2.1 ≤ 12) ∧
    1 ≤ (civil days).2.2 ∧ (civil days).2.2 ≤ daysInMonth (civil days).1.toNat (civil days).2.1 := by
  obtain ⟨era, y, s, dd, hy, hs, hdd, hdays⟩ := exists_parts days
  rw [civil_of_parts hy hs hdd hdays] at hyear ⊢
  dsimp only at hyear ⊢
  refine ⟨?_, Nat.succ_le_succ (Nat.zero_le dd), ?_⟩
  · unfold civilMonth
    split_ifs <;> omega
  · unfold marchMonthLength at hdd
    unfold daysInMonth
    by_cases hfeb : s = 11
    · subst hfeb
      have hmonth : civilMonth 11 = 2 := rfl
      rw [hmonth] at hyear ⊢
      rw [if_pos rfl] at hdd ⊢
      rw [if_pos (le_refl 2)] at hyear ⊢
      have hleap : EndsLeap y ↔ ((y : ℤ) + era * 400 + 1).toNat % 4 = 0 ∧
          (((y : ℤ) + era * 400 + 1).toNat % 100 ≠ 0 ∨ ((y : ℤ) + era * 400 + 1).toNat % 400 = 0) := by
        unfold EndsLeap
        omega
      simp only [hleap] at hdd
      split_ifs at hdd ⊢ <;> omega
    · have hmonth : civilMonth s ≠ 2 := by
        unfold civilMonth
        split_ifs <;> omega
      rw [if_neg hfeb] at hdd
      rw [if_neg hmonth]
      unfold marchDays at hdd
      unfold civilMonth
      interval_cases s <;> simp at hdd ⊢ <;> omega

theorem dayNumber_civil {days : ℤ} (hyear : 1 ≤ (civil days).1) :
    dayNumber (civil days).1.toNat (civil days).2.1 (civil days).2.2 = days := by
  obtain ⟨⟨hm, hm'⟩, hd, hd'⟩ := civil_valid hyear
  apply civil_injective
  rw [civil_dayNumber (by omega) hm hm' hd hd', Int.toNat_of_nonneg (by omega)]

end OcorRuntime
