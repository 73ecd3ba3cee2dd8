import Mathlib.Data.List.DropRight
import OcorRuntime.Canonical.Integers
import OcorRuntime.Kernel.Timestamps

/-! Writing and reading of UTC timestamps are inverse to each other in the years that are
written with four digits, and in no other year. -/
namespace OcorRuntime.Kernel
open Canonical
set_option autoImplicit false
set_option maxHeartbeats 250000

/-! ## Digits of a given number -/

theorem length_natText_le {width n : ℕ} (hw : 1 ≤ width) (hn : n < 10 ^ width) : (natText n).length ≤ width := by
  unfold natText
  split_ifs
  · exact hw
  · rw [List.length_map, List.length_reverse]
    exact (Nat.digits_length_le_iff (by decide) n).mpr hn

theorem length_padded {width n : ℕ} (hw : 1 ≤ width) (hn : n < 10 ^ width) : (padded width n).length = width := by
  have hle := length_natText_le hw hn
  rw [padded, List.length_append, List.length_replicate]
  omega

theorem padded_year {year : ℕ} (hlow : 1000 ≤ year) (hhigh : year ≤ 9999) : padded 4 year = natText year := by
  have hle : (natText year).length ≤ 4 := length_natText_le (by decide) (by omega)
  have hlt : 3 < (natText year).length := by
    unfold natText
    rw [if_neg (by omega), List.length_map, List.length_reverse]
    exact (Nat.lt_digits_length_iff (by decide) year).mpr hlow
  rw [padded, show 4 - (natText year).length = 0 by omega, List.replicate_zero, List.nil_append]

theorem length_year_le {year : ℕ} (h : year < 1000) : (natText year).length ≤ 3 := length_natText_le (by decide) h

theorem exists_padded_two {n : ℕ} (hn : n < 100) : ∃ a b, padded 2 n = [a, b] :=
  List.length_eq_two.mp (length_padded (by decide) hn)

theorem exists_padded_four {n : ℕ} (hn : n < 10000) : ∃ a b c d, padded 4 n = [a, b, c, d] := by
  have hlen : (padded 4 n).length = 4 := length_padded (by decide) hn
  obtain ⟨a, rest, hrest⟩ := List.exists_cons_of_length_pos (l := padded 4 n) (by omega)
  rw [hrest, List.length_cons] at hlen
  obtain ⟨b, c, d, rfl⟩ := List.length_eq_three.mp (Nat.succ_injective hlen)
  exact ⟨a, b, c, d, hrest⟩

theorem digitsValue_lt {s : PyStr} (hs : Digits s) : digitsValue s < 10 ^ s.length := by
  induction s using List.reverseRecOn with
  | nil => decide
  | append_singleton s c ih =>
    have hc : IsDigit c := hs c (List.mem_append_right s (List.mem_singleton_self c))
    have hlt := ih fun d hd => hs d (List.mem_append_left _ hd)
    have hsingle : digitsValue [c] = c.val - 48 := by simp [digitsValue]
    unfold IsDigit at hc
    rw [digitsValue_append, hsingle, List.length_append, List.length_singleton, pow_one, pow_succ]
    omega

/-! ## The fraction -/

/-- The digits of a fraction, without the zeros at the end. -/
def trimmed (microsecond : ℕ) : PyStr := (padded 6 microsecond).rdropWhile (· = digitChar 0)

theorem trimmed_append (microsecond : ℕ) (h : microsecond < 1000000) : (trimmed microsecond).length ≤ 6 ∧
    trimmed microsecond ++ List.replicate (6 - (trimmed microsecond).length) (digitChar 0) = padded 6 microsecond := by
  have hsplit : trimmed microsecond ++ (padded 6 microsecond).rtakeWhile (fun c => decide (c = digitChar 0)) =
      padded 6 microsecond := List.rdropWhile_append_rtakeWhile
  have hzeros : (padded 6 microsecond).rtakeWhile (fun c => decide (c = digitChar 0)) =
      List.replicate ((padded 6 microsecond).rtakeWhile fun c => decide (c = digitChar 0)).length (digitChar 0) := by
    refine List.eq_replicate_of_mem fun c hc => ?_
    have hzero := List.mem_rtakeWhile_imp hc
    exact of_decide_eq_true hzero
  have hlen := congrArg List.length hsplit
  rw [List.length_append, length_padded (by decide) h] at hlen
  rw [hzeros] at hsplit
  refine ⟨by omega, ?_⟩
  rw [show 6 - (trimmed microsecond).length =
    ((padded 6 microsecond).rtakeWhile fun c => decide (c = digitChar 0)).length by omega]
  exact hsplit

theorem digits_trimmed (microsecond : ℕ) : Digits (trimmed microsecond) := fun c hc =>
  padded_digits 6 microsecond c ((List.rdropWhile_prefix _ _).subset hc)

theorem trimmed_eq_nil {microsecond : ℕ} (h : microsecond < 1000000) : trimmed microsecond = [] ↔ microsecond = 0 := by
  obtain ⟨-, happend⟩ := trimmed_append microsecond h
  constructor
  · intro hnil
    rw [hnil, List.nil_append] at happend
    have hvalue := congrArg digitsValue happend
    rw [digitsValue_zeros, digitsValue_padded] at hvalue
    exact hvalue.symm
  · rintro rfl
    decide

/-- The fraction as it is written. -/
def fractionWire (fraction : PyStr) : PyStr := if fraction = [] then [] else py "." ++ fraction

theorem fractionWire_trimmed (t : ℤ) :
    ((fractionText t).reverse.dropWhile (· = digitChar 0)).reverse = fractionWire (trimmed (t % 1000000).toNat) := by
  have hlt : (t % 1000000).toNat < 1000000 := by omega
  unfold fractionText fractionWire
  dsimp only
  by_cases hzero : (t % 1000000).toNat = 0
  · rw [if_pos hzero, if_pos ((trimmed_eq_nil hlt).mpr hzero)]
    rfl
  · have hne := fun h => hzero ((trimmed_eq_nil hlt).mp h)
    have hdrop : (((padded 6 (t % 1000000).toNat).reverse.dropWhile (· = digitChar 0)).isEmpty) = false := by
      rw [List.isEmpty_eq_false_iff]
      exact fun h => hne (by rw [trimmed, List.rdropWhile, h]; rfl)
    rw [if_neg hzero, if_neg hne, List.reverse_append, List.dropWhile_append, hdrop]
    simp only [Bool.false_eq_true, if_false, List.reverse_append, List.reverse_reverse]
    rfl

theorem isFractionEnd_wire {fraction : PyStr} (hdigits : Digits fraction) (hlen : fraction.length ≤ 6) :
    isFractionEnd (fractionWire fraction ++ py "Z") = true ∧ (fractionWire fraction ++ py "Z").tail.dropLast = fraction := by
  unfold fractionWire
  by_cases hnil : fraction = []
  · rw [if_pos hnil, hnil]
    exact ⟨by decide, rfl⟩
  · have hpos := List.length_pos_iff.mpr hnil
    have hzulu : py "Z" = [codePoint 0x5A] := rfl
    rw [if_neg hnil, py_point, hzulu, List.append_assoc, List.singleton_append]
    refine ⟨?_, by rw [List.tail_cons, List.dropLast_concat]⟩
    obtain ⟨c, rest, hcons⟩ := List.exists_cons_of_ne_nil (List.append_ne_nil_of_right_ne_nil fraction (List.cons_ne_nil (codePoint 0x5A) []))
    rw [hcons, isFractionEnd]
    · rw [← hcons, List.getLast?_concat, List.dropLast_concat, List.length_append, List.length_singleton]
      have hall : (fraction.all fun d => decide (IsDigit d)) = true :=
        List.all_eq_true.mpr fun d hd => decide_eq_true (hdigits d hd)
      simp only [hall, beq_self_eq_true, Bool.and_true, Bool.and_eq_true, decide_eq_true_iff]
      exact ⟨by decide, by omega, by omega⟩
    · intro heq
      cases heq

/-! ## Reading what is written -/

namespace WireTime

/-- The text of a wire time, with four digits for the year. -/
def text (w : WireTime) : PyStr :=
  padded 4 w.year ++ py "-" ++ padded 2 w.month ++ py "-" ++ padded 2 w.day ++ py "T" ++ padded 2 w.hour ++ py ":" ++
    padded 2 w.minute ++ py ":" ++ padded 2 w.second ++ fractionWire w.fraction ++ py "Z"

/-- The fields have no more digits than their places. -/
structure Fits (w : WireTime) : Prop where
  year : w.year < 10000
  month : w.month < 100
  day : w.day < 100
  hour : w.hour < 100
  minute : w.minute < 100
  second : w.second < 100
  digits : Digits w.fraction
  fraction : w.fraction.length ≤ 6

theorem matchUtcTimestamp_text {w : WireTime} (h : w.Fits) : matchUtcTimestamp w.text = some w := by
  obtain ⟨y1, y2, y3, y4, hyear⟩ := exists_padded_four h.year
  obtain ⟨m1, m2, hmonth⟩ := exists_padded_two h.month
  obtain ⟨d1, d2, hday⟩ := exists_padded_two h.day
  obtain ⟨h1, h2, hhour⟩ := exists_padded_two h.hour
  obtain ⟨n1, n2, hminute⟩ := exists_padded_two h.minute
  obtain ⟨s1, s2, hsecond⟩ := exists_padded_two h.second
  obtain ⟨hend, hfraction⟩ := isFractionEnd_wire h.digits h.fraction
  have hdash : py "-" = [codePoint 0x2D] := rfl
  have htee : py "T" = [codePoint 0x54] := rfl
  have hcolon : py ":" = [codePoint 0x3A] := rfl
  have hdigits : ∀ c ∈ padded 4 w.year ++ padded 2 w.month ++ padded 2 w.day ++ padded 2 w.hour ++ padded 2 w.minute ++
      padded 2 w.second, IsDigit c := by
    intro c hc
    simp only [List.mem_append] at hc
    rcases hc with ((((hc | hc) | hc) | hc) | hc) | hc <;> exact padded_digits _ _ c hc
  have hvalues := And.intro (digitsValue_padded 4 w.year) (And.intro (digitsValue_padded 2 w.month)
    (And.intro (digitsValue_padded 2 w.day) (And.intro (digitsValue_padded 2 w.hour)
      (And.intro (digitsValue_padded 2 w.minute) (digitsValue_padded 2 w.second)))))
  unfold text
  rw [hyear, hmonth, hday, hhour, hminute, hsecond] at hdigits hvalues ⊢
  obtain ⟨hy, hm, hd, hh, hn, hs⟩ := hvalues
  rw [hdash, htee, hcolon]
  simp only [List.cons_append, List.nil_append] at hdigits ⊢
  have hall : ([y1, y2, y3, y4, m1, m2, d1, d2, h1, h2, n1, n2, s1, s2].all fun c => decide (IsDigit c)) = true :=
    List.all_eq_true.mpr fun c hc => decide_eq_true (hdigits c hc)
  rw [matchUtcTimestamp, hall, hend, if_pos (by decide), hy, hm, hd, hh, hn, hs, hfraction]

end WireTime

/-- The fields an instant is written with. -/
def wireOf (t : Instant) : WireTime where
  year := (civil (t / microsecondsPerDay)).1.toNat
  month := (civil (t / microsecondsPerDay)).2.1
  day := (civil (t / microsecondsPerDay)).2.2
  hour := (t % microsecondsPerDay / 1000000).toNat / 3600
  minute := (t % microsecondsPerDay / 1000000).toNat / 60 % 60
  second := (t % microsecondsPerDay / 1000000).toNat % 60
  fraction := trimmed (t % 1000000).toNat

theorem civil_year_bounds {t : ℤ} (hlow : minWall ≤ t) (hhigh : t ≤ maxWall) :
    1 ≤ (civil (t / microsecondsPerDay)).1 ∧ (civil (t / microsecondsPerDay)).1 ≤ 9999 := by
  have hdays : -719162 ≤ t / microsecondsPerDay ∧ t / microsecondsPerDay ≤ 2932896 := by
    unfold minWall at hlow
    unfold maxWall at hhigh
    unfold microsecondsPerDay
    omega
  generalize t / microsecondsPerDay = days at hdays ⊢
  obtain ⟨era, y, s, dd, hy, hs, hdd, heq⟩ := exists_parts days
  obtain ⟨hmonth, hlength⟩ := marchMonth_of_parts hs hdd
  obtain ⟨-, hera⟩ := yearOfEra_of_parts hy hlength rfl
  rw [civil_of_parts hy hs hdd heq]
  have hlower : 0 ≤ era ∧ era ≤ 24 := by omega
  unfold civilMonth marchDays at *
  unfold eraDays at heq hera
  dsimp only
  split_ifs <;> omega

variable {t : ℤ}

theorem valid_wireOf (hlow : minWall ≤ t) (hhigh : t ≤ maxWall) : (wireOf t).Valid := by
  obtain ⟨hyear, hyear'⟩ := civil_year_bounds hlow hhigh
  obtain ⟨hmonth, hday, hday'⟩ := civil_valid hyear
  unfold WireTime.Valid wireOf
  refine ⟨by dsimp only; omega, hmonth, ⟨hday, hday'⟩, ?_, ?_, ?_⟩
  · dsimp only
    unfold microsecondsPerDay
    omega
  · dsimp only
    omega
  · dsimp only
    omega

theorem fits_of_valid {w : WireTime} (h : w.Valid) (hdigits : Digits w.fraction) (hlen : w.fraction.length ≤ 6) : w.Fits := by
  obtain ⟨⟨-, hyear⟩, ⟨-, hmonth⟩, ⟨-, hday⟩, hhour, hminute, hsecond⟩ := h
  have hmax : daysInMonth w.year w.month ≤ 31 := by
    unfold daysInMonth
    split_ifs <;> omega
  exact ⟨by omega, by omega, by omega, by omega, by omega, by omega, hdigits, hlen⟩

theorem fits_wireOf (hlow : minWall ≤ t) (hhigh : t ≤ maxWall) : (wireOf t).Fits :=
  fits_of_valid (valid_wireOf hlow hhigh) (digits_trimmed _) (trimmed_append _ (by omega)).1

theorem instant_wireOf (hlow : minWall ≤ t) (hhigh : t ≤ maxWall) : (wireOf t).instant = t := by
  obtain ⟨hyear, -⟩ := civil_year_bounds hlow hhigh
  have hday := dayNumber_civil hyear
  obtain ⟨-, happend⟩ := trimmed_append (t % 1000000).toNat (by omega)
  have hmicro : (wireOf t).microsecond = (t % 1000000).toNat := by
    unfold WireTime.microsecond wireOf
    rw [happend, digitsValue_padded]
  unfold WireTime.instant
  rw [hmicro]
  unfold wireOf
  dsimp only
  rw [hday]
  have hsum : t / 86400000000 * 86400000000 + (((t % 86400000000 / 1000000).toNat / 3600 * 3600 +
      (t % 86400000000 / 1000000).toNat / 60 % 60 * 60 + (t % 86400000000 / 1000000).toNat % 60 : ℕ) : ℤ) * 1000000 +
      ((t % 1000000).toNat : ℤ) = t := by omega
  exact hsum

theorem formatUtcTimestamp_eq (hyear : 1000 ≤ (civil (t / microsecondsPerDay)).1)
    (hhigh : (civil (t / microsecondsPerDay)).1 ≤ 9999) : formatUtcTimestamp t = (wireOf t).text := by
  unfold formatUtcTimestamp strftimeDate clockText WireTime.text wireOf
  dsimp only
  rw [fractionWire_trimmed, padded_year (by omega) (by omega)]
  simp only [List.append_assoc]

theorem parseUtcTimestamp_text {w : WireTime} (hvalid : w.Valid) (hfits : w.Fits) :
    parseUtcTimestamp w.text = .ok w.instant := by
  unfold parseUtcTimestamp
  rw [WireTime.matchUtcTimestamp_text hfits]
  exact bind_eq_ok.2 ⟨w, rfl, bind_eq_ok.2 ⟨(), refuseIf_eq_ok.2 (not_not.mpr hvalid), rfl⟩⟩

theorem digits_of_match {value : PyStr} {w : WireTime} (h : matchUtcTimestamp value = some w) :
    Digits (value.take 4) ∧ digitsValue (value.take 4) = w.year ∧ Digits w.fraction ∧ w.fraction.length ≤ 6 := by
  unfold matchUtcTimestamp at h
  split at h
  case h_2 => cases h
  case h_1 y1 y2 y3 y4 dash m1 m2 dash' d1 d2 tee h1 h2 colon n1 n2 colon' s1 s2 rest =>
    split_ifs at h with hmatch
    cases h
    simp only [Bool.and_eq_true] at hmatch
    obtain ⟨⟨hdigits, -⟩, hend⟩ := hmatch
    have hall := List.all_eq_true.mp hdigits
    refine ⟨fun c hc => ?_, rfl, ?_⟩
    · have hc' : c ∈ [y1, y2, y3, y4] := hc
      refine of_decide_eq_true (hall c ?_)
      simp only [List.mem_cons, List.not_mem_nil, or_false] at hc' ⊢
      tauto
    · dsimp only
      unfold isFractionEnd at hend
      split at hend
      · exact ⟨fun c hc => absurd hc List.not_mem_nil, Nat.zero_le 6⟩
      · simp only [Bool.and_eq_true, decide_eq_true_iff] at hend
        obtain ⟨⟨-, -, hlen⟩, hfraction⟩ := hend
        rw [List.tail_cons]
        refine ⟨fun c hc => of_decide_eq_true (List.all_eq_true.mp hfraction c hc), ?_⟩
        rw [List.length_dropLast]
        omega
      · cases hend

theorem parseUtcTimestamp_early (hyear : (civil (t / microsecondsPerDay)).1 < 1000) :
    ∃ e, parseUtcTimestamp (formatUtcTimestamp t) = .error e := by
  cases hmatch : matchUtcTimestamp (formatUtcTimestamp t) with
  | none =>
    unfold parseUtcTimestamp
    rw [hmatch]
    exact ⟨_, rfl⟩
  | some w =>
    obtain ⟨hdigits, -⟩ := digits_of_match hmatch
    have hlen : (natText (civil (t / microsecondsPerDay)).1.toNat).length ≤ 3 := length_year_le (by omega)
    have hdash : codePoint 0x2D ∈ (formatUtcTimestamp t).take 4 := by
      unfold formatUtcTimestamp strftimeDate
      rw [show py "-" = [codePoint 0x2D] from rfl]
      simp only [List.append_assoc]
      rw [List.take_append, List.mem_append]
      refine .inr ?_
      obtain ⟨k, hk⟩ : ∃ k, 4 - (natText (civil (t / microsecondsPerDay)).1.toNat).length = k + 1 :=
        ⟨3 - (natText (civil (t / microsecondsPerDay)).1.toNat).length, by omega⟩
      rw [hk, List.singleton_append, List.take_succ_cons]
      exact List.mem_cons_self
    exact absurd (hdigits _ hdash) (by decide)

theorem parse_formatUtcTimestamp (hlow : minWall ≤ t) (hhigh : t ≤ maxWall) :
    parseUtcTimestamp (formatUtcTimestamp t) = .ok t ↔ 1000 ≤ (civil (t / microsecondsPerDay)).1 := by
  obtain ⟨-, hmax⟩ := civil_year_bounds hlow hhigh
  constructor
  · intro h
    by_contra hyear
    obtain ⟨e, he⟩ := parseUtcTimestamp_early (not_le.mp hyear)
    rw [he] at h
    cases h
  · intro hyear
    rw [formatUtcTimestamp_eq hyear hmax, parseUtcTimestamp_text (valid_wireOf hlow hhigh) (fits_wireOf hlow hhigh),
      instant_wireOf hlow hhigh]

theorem dayNumber_bounds {year month day : ℕ} (hy : 1 ≤ year) (hy' : year ≤ 9999) (hm : 1 ≤ month) (hm' : month ≤ 12)
    (hd : 1 ≤ day) (hd' : day ≤ daysInMonth year month) :
    -719162 ≤ dayNumber year month day ∧ dayNumber year month day ≤ 2932896 := by
  constructor
  · unfold dayNumber
    omega
  · have hparts := dayNumber_parts hy hm hm' hd
    have hlt := day_lt_of_daysInMonth hy hm hm' hd hd'
    have hs : marchMonth month ≤ 11 := by
      unfold marchMonth
      omega
    obtain ⟨-, hlength⟩ := marchMonth_of_parts hs hlt
    have hlong : yearLength (marchYear year month % 400) ≤ 366 := by
      unfold yearLength
      split_ifs <;> omega
    by_cases hlast : marchYear year month = 9999
    · have hmonth : 3 ≤ month := by
        by_contra hearly
        unfold marchYear at hlast
        rw [if_pos (by omega)] at hlast
        omega
      have hshort : marchDays (marchMonth month) + (day - 1) ≤ 305 := by
        unfold marchMonthLength marchMonth at hlt
        unfold marchDays marchMonth
        unfold marchDays at hlt
        rw [if_neg (by omega)] at hlt
        omega
      have hdays : eraDays (9999 % 400) = 145731 := by decide
      rw [hlast, hdays] at hparts
      omega
    · have hyear : marchYear year month ≤ 9998 := by
        unfold marchYear at hlast ⊢
        split_ifs at hlast ⊢ <;> omega
      generalize marchYear year month = n at hparts hyear hlong hlength
      unfold eraDays at hparts
      omega

theorem microsecond_lt {w : WireTime} (hdigits : Digits w.fraction) (hlen : w.fraction.length ≤ 6) :
    w.microsecond < 1000000 := by
  have hlt := digitsValue_lt (digits_append hdigits (digits_zeros (6 - w.fraction.length)))
  rw [List.length_append, List.length_replicate, show w.fraction.length + (6 - w.fraction.length) = 6 by omega] at hlt
  exact hlt

theorem parseUtcTimestamp_eq_ok {value : PyStr} (h : parseUtcTimestamp value = .ok t) :
    minWall ≤ t ∧ t ≤ maxWall ∧ (civil (t / microsecondsPerDay)).1 = digitsValue (value.take 4) := by
  obtain ⟨w, hmatch, h⟩ := bind_eq_ok.1 h
  obtain ⟨_, hvalid, h⟩ := bind_eq_ok.1 h
  have hinstant : w.instant = t := Except.ok.inj h
  have hw := not_not.mp (refuseIf_eq_ok.1 hvalid)
  obtain ⟨-, hyear, hdigits, hlen⟩ := digits_of_match (orRaise_eq_ok.1 hmatch)
  have hmicro := microsecond_lt hdigits hlen
  obtain ⟨⟨hy, hy'⟩, ⟨hm, hm'⟩, ⟨hd, hd'⟩, hhour, hminute, hsecond⟩ := hw
  have hcivil := civil_dayNumber hy hm hm' hd hd'
  have hday := dayNumber_bounds hy hy' hm hm' hd hd'
  unfold WireTime.instant at hinstant
  generalize dayNumber w.year w.month w.day = days at hcivil hday hinstant
  generalize w.microsecond = micro at hmicro hinstant
  have hsum : days * 86400000000 + ((w.hour * 3600 + w.minute * 60 + w.second : ℕ) : ℤ) * 1000000 + (micro : ℤ) = t :=
    hinstant
  have hdays : t / 86400000000 = days := by omega
  refine ⟨?_, ?_, ?_⟩
  · unfold minWall
    omega
  · unfold maxWall
    omega
  · unfold microsecondsPerDay
    rw [hdays, hcivil, hyear]

theorem formatUtc_eq {d : DateTime} (haware : d.Aware) (hlow : minWall ≤ d.instant) (hhigh : d.instant ≤ maxWall) :
    formatUtc d = .ok (formatUtcTimestamp d.instant) := by
  refine bind_eq_ok.2 ⟨(), refuseIf_eq_ok.2 (not_not.mpr haware), ?_⟩
  exact bind_eq_ok.2 ⟨(), refuseIf_eq_ok.2 (not_not.mpr ⟨hlow, hhigh⟩), rfl⟩

/-- **A timestamp survives being written and read exactly in the years from 1000 on.** Every aware date-time of the
calendar is written, and what is written is read as the same instant exactly if its year in UTC has four digits; what
the wire accepts is written again, and read as the same instant, exactly if its year is not below 1000. -/
theorem timestamps_round_trip (d : DateTime) (value : PyStr) (t : Instant) :
    (d.Aware → minWall ≤ d.instant → d.instant ≤ maxWall → ∃ text, formatUtc d = .ok text ∧
      (parseUtcTimestamp text = .ok d.instant ↔ 1000 ≤ (civil (d.instant / microsecondsPerDay)).1)) ∧
    (parseUtcTimestamp value = .ok t → ∃ text, formatUtc (.utc t) = .ok text ∧
      (parseUtcTimestamp text = .ok t ↔ 1000 ≤ digitsValue (value.take 4))) := by
  constructor
  · intro haware hlow hhigh
    exact ⟨_, formatUtc_eq haware hlow hhigh, parse_formatUtcTimestamp hlow hhigh⟩
  · intro h
    obtain ⟨hlow, hhigh, hyear⟩ := parseUtcTimestamp_eq_ok h
    have hinstant : (DateTime.utc t).instant = t := sub_zero t
    refine ⟨formatUtcTimestamp t, ?_, ?_⟩
    · have hwritten := formatUtc_eq (d := .utc t) trivial (by rwa [hinstant]) (by rwa [hinstant])
      rwa [hinstant] at hwritten
    · rw [parse_formatUtcTimestamp hlow hhigh, hyear]
      norm_cast

/-- Half past midnight on a leap day, an hour ahead of UTC. -/
theorem timestamps_round_trip_leap_day : ∃ text, formatUtc ⟨951784200000000, .offset 3600000000⟩ = .ok text ∧
    parseUtcTimestamp text = .ok 951780600000000 := by
  obtain ⟨text, htext, hread⟩ :=
    (timestamps_round_trip ⟨951784200000000, .offset 3600000000⟩ [] 0).1 trivial (by decide) (by decide)
  exact ⟨text, htext, hread.mpr (by decide)⟩

/-- The first instant of the calendar is written with a year of one digit, which is not read. -/
theorem timestamps_lost_before_1000 : ¬ ∀ d : DateTime, d.Aware → minWall ≤ d.instant → d.instant ≤ maxWall →
    ∃ text, formatUtc d = .ok text ∧ parseUtcTimestamp text = .ok d.instant := by
  intro h
  obtain ⟨text, htext, hread⟩ := h (.utc minWall) trivial (by decide) (by decide)
  have hwritten : formatUtc (.utc minWall) = .ok (py "1-01-01T00:00:00Z") := by decide
  cases hwritten.symm.trans htext
  have hlost : (parseUtcTimestamp (py "1-01-01T00:00:00Z")).isOk = false := by decide
  rw [hread] at hlost
  cases hlost

end OcorRuntime.Kernel
