import OcorRuntime.Foundations.Collect
import OcorRuntime.Foundations.PagedScan
import Mathlib.Data.List.Count
import Mathlib.Data.List.Sort
import Mathlib.Order.Defs.LinearOrder

/-! Reading the beginning of a ranking again and again, twice as long each time and up to a bound,
until enough of its entries are accepted or the ranking ends; and the best entries of several
rankings that were cut off like this. -/
namespace OcorRuntime
set_option autoImplicit false
set_option maxHeartbeats 250000

/-- Entries `α` under keys `κ`, what they give `β`, and errors `ε`. -/
structure WidenedPages (α β κ ε : Type) where
  key : α → κ
  judge : α → Except ε (Option β)
  places : ℕ
  bound : ℕ
  places_pos : 1 ≤ places
  bound_pos : 1 ≤ bound

namespace WidenedPages
variable {α β κ ε : Type}

/-- How reading ends without a result: an error on the way, or the bound. -/
inductive Stop (ε : Type)
  | failed (error : ε)
  | exceeded
deriving DecidableEq

/-! ## The limits -/

variable {c : WidenedPages α β κ ε}

/-- The `i`-th limit. -/
def width (c : WidenedPages α β κ ε) (i : ℕ) : ℕ := min (min c.places c.bound * 2 ^ i) c.bound

theorem width_zero : c.width 0 = min c.places c.bound := by
  rw [width, pow_zero, mul_one, min_assoc, min_self]

theorem width_succ (i : ℕ) : min (c.width i * 2) c.bound = c.width (i + 1) := by
  rw [width, width, pow_succ]
  rcases le_total (min c.places c.bound * 2 ^ i) c.bound with h | h
  · rw [min_eq_left h, mul_assoc]
  · rw [min_eq_right h, min_eq_right (by omega), min_eq_right]
    rw [← mul_assoc]
    omega

theorem width_le (i : ℕ) : c.width i ≤ c.bound := min_le_right _ _

theorem width_mono {i j : ℕ} (h : i ≤ j) : c.width i ≤ c.width j :=
  min_le_min_right _ (Nat.mul_le_mul_left _ (Nat.pow_le_pow_right (by decide) h))

theorem width_bound : c.width c.bound = c.bound := by
  have hpos : 1 ≤ min c.places c.bound := le_min c.places_pos c.bound_pos
  have hpow : c.bound ≤ 2 ^ c.bound := Nat.lt_two_pow_self.le
  exact min_eq_right (hpow.trans (Nat.le_mul_of_pos_left _ hpos))

/-! ## Reading one ranking -/

section reading
variable [DecidableEq κ] (c)

/-- What the entries give whose key was not seen before. -/
def collect : List α → List κ → Except ε (List β)
  | [], _ => .ok []
  | entry :: rest, seen =>
    if c.key entry ∈ seen then collect rest seen
    else do
      let verdict ← c.judge entry
      let found ← collect rest (c.key entry :: seen)
      return verdict.toList ++ found

/-- `none` when the fuel does not last. -/
def widen (fetch : ℕ → Except ε (List α)) : ℕ → ℕ → Option (Except (Stop ε) (List β))
  | 0, _ => none
  | fuel + 1, limit =>
    match fetch limit with
    | .error e => some (.error (.failed e))
    | .ok entries =>
      match c.collect entries [] with
      | .error e => some (.error (.failed e))
      | .ok found =>
        if c.places ≤ found.length ∨ entries.length < limit then some (.ok (found.take c.places))
        else if c.bound ≤ limit then some (.error .exceeded)
        else widen fetch fuel (min (limit * 2) c.bound)

def run (fetch : ℕ → Except ε (List α)) (fuel : ℕ) : Option (Except (Stop ε) (List β)) :=
  c.widen fetch fuel (min c.places c.bound)

/-- The beginnings of one ranking. -/
def beginnings (ranking : List α) (limit : ℕ) : Except ε (List α) := .ok (ranking.take limit)

/-! ## What a ranking gives -/

def accepted (entry : α) : Option β := (c.judge entry).toOption.join

/-- What the entries of a ranking give, the first entry of each key. -/
def found (ranking : List α) : List β := (PagedScan.firsts c.key [] ranking).filterMap c.accepted

variable {c} {ranking : List α}

theorem collect_eq_ok {entries : List α} {seen : List κ} {results : List β} (h : c.collect entries seen = .ok results) :
    results = (PagedScan.firsts c.key seen entries).filterMap c.accepted := by
  induction entries generalizing seen results with
  | nil =>
    cases h
    rfl
  | cons entry rest ih =>
    rw [collect] at h
    rw [PagedScan.firsts]
    by_cases hseen : c.key entry ∈ seen
    · rw [if_pos hseen] at h ⊢
      exact ih h
    · rw [if_neg hseen] at h ⊢
      obtain ⟨verdict, hverdict, hrest⟩ := except_bind_eq_ok.1 h
      obtain ⟨others, hothers, hreturn⟩ := except_bind_eq_ok.1 hrest
      cases hreturn
      have haccepted : c.accepted entry = verdict := by
        rw [accepted, hverdict]
        cases verdict <;> rfl
      rw [List.filterMap_cons, haccepted, ih hothers]
      cases verdict <;> rfl

theorem collect_take {entries : List α} {seen : List κ} {results : List β} (h : c.collect entries seen = .ok results)
    (n : ℕ) : ∃ results', c.collect (entries.take n) seen = .ok results' := by
  induction entries generalizing seen results n with
  | nil => exact ⟨[], by rw [List.take_nil]; rfl⟩
  | cons entry rest ih =>
    cases n with
    | zero => exact ⟨[], rfl⟩
    | succ n =>
      rw [List.take_succ_cons, collect]
      rw [collect] at h
      by_cases hseen : c.key entry ∈ seen
      · rw [if_pos hseen] at h ⊢
        exact ih h n
      · rw [if_neg hseen] at h ⊢
        obtain ⟨verdict, hverdict, hrest⟩ := except_bind_eq_ok.1 h
        obtain ⟨others, hothers, -⟩ := except_bind_eq_ok.1 hrest
        obtain ⟨results', hresults'⟩ := ih hothers n
        exact ⟨_, except_bind_eq_ok.2 ⟨verdict, hverdict, except_bind_eq_ok.2 ⟨results', hresults', rfl⟩⟩⟩

theorem found_take_append (ranking : List α) (n : ℕ) : ∃ others, c.found ranking = c.found (ranking.take n) ++ others := by
  refine ⟨(PagedScan.firsts c.key ((ranking.take n).map c.key ++ []) (ranking.drop n)).filterMap c.accepted, ?_⟩
  conv_lhs => rw [found, ← List.take_append_drop n ranking, PagedScan.firsts_append, List.filterMap_append]
  rfl

theorem found_take_length {m n : ℕ} (h : m ≤ n) : (c.found (ranking.take m)).length ≤ (c.found (ranking.take n)).length := by
  obtain ⟨others, hothers⟩ := found_take_append (c := c) (ranking.take n) m
  rw [List.take_take, Nat.min_eq_left h] at hothers
  rw [hothers, List.length_append]
  exact Nat.le_add_right _ _

/-! ## One ranking -/

/-- Read up to a limit without an error, the ranking fills the places, or it ends before. -/
def Served (c : WidenedPages α β κ ε) (ranking : List α) (limit : ℕ) : Prop :=
  ∃ results, c.collect (ranking.take limit) [] = .ok results ∧ (c.places ≤ results.length ∨ ranking.length < limit)

/-- One of the limits suffices. -/
def Answers (c : WidenedPages α β κ ε) (ranking : List α) : Prop := ∃ i, c.Served ranking (c.width i)

/-- Read up to the bound without an error, the ranking does not fill the places, and it does not end before. -/
def Overflows (c : WidenedPages α β κ ε) (ranking : List α) : Prop :=
  c.bound ≤ ranking.length ∧ ∃ results, c.collect (ranking.take c.bound) [] = .ok results ∧ results.length < c.places

theorem widen_succ (fuel limit : ℕ) : c.widen (beginnings ranking) (fuel + 1) limit =
    match c.collect (ranking.take limit) [] with
    | .error e => some (.error (.failed e))
    | .ok results =>
      if c.places ≤ results.length ∨ ranking.length < limit then some (.ok (results.take c.places))
      else if c.bound ≤ limit then some (.error .exceeded)
      else c.widen (beginnings ranking) fuel (min (limit * 2) c.bound) := by
  have hlen : (ranking.take limit).length < limit ↔ ranking.length < limit := by
    rw [List.length_take]
    omega
  rw [widen, beginnings]
  dsimp only
  cases c.collect (ranking.take limit) [] with
  | error e => rfl
  | ok results =>
    dsimp only
    simp only [hlen]

theorem widen_ends (ranking : List α) {n i : ℕ} (h : c.bound ≤ i + n) :
    ∃ outcome, c.widen (beginnings ranking) (n + 1) (c.width i) = some outcome := by
  induction n generalizing i with
  | zero =>
    have hbound : c.width i = c.bound := le_antisymm (width_le i) (width_bound (c := c) ▸ width_mono h)
    rw [widen_succ]
    split
    · exact ⟨_, rfl⟩
    · split_ifs with hdone hlimit
      · exact ⟨_, rfl⟩
      · exact ⟨_, rfl⟩
      · exact absurd hbound.ge hlimit
  | succ n ih =>
    rw [widen_succ]
    split
    · exact ⟨_, rfl⟩
    · split_ifs
      · exact ⟨_, rfl⟩
      · exact ⟨_, rfl⟩
      · rw [width_succ]
        exact ih (by omega)

theorem run_ends (ranking : List α) : ∃ outcome, c.run (beginnings ranking) (c.bound + 1) = some outcome := by
  obtain ⟨outcome, h⟩ := widen_ends (c := c) ranking (n := c.bound) (i := 0) (by omega)
  rw [width_zero] at h
  exact ⟨outcome, h⟩

/-- A result is the beginning of what the whole ranking gives, and one of the limits sufficed. -/
theorem widen_result {fuel i : ℕ} {results : List β}
    (h : c.widen (beginnings ranking) fuel (c.width i) = some (.ok results)) :
    results = (c.found ranking).take c.places ∧ c.Answers ranking := by
  induction fuel generalizing i with
  | zero => cases h
  | succ fuel ih =>
    rw [widen_succ] at h
    split at h
    · cases h
    · next results' hcollect =>
      split_ifs at h with hdone hlimit
      · cases h
        refine ⟨?_, i, results', hcollect, hdone⟩
        have hfound : results' = c.found (ranking.take (c.width i)) := collect_eq_ok hcollect
        rcases hdone with hfull | hend
        · obtain ⟨others, hothers⟩ := found_take_append (c := c) ranking (c.width i)
          rw [← hfound] at hothers
          rw [hothers, List.take_append_of_le_length hfull]
        · rw [hfound, List.take_of_length_le hend.le]
      · cases h
      · rw [width_succ] at h
        exact ih h

theorem widen_exceeded {fuel i : ℕ} (h : c.widen (beginnings ranking) fuel (c.width i) = some (.error .exceeded)) :
    c.Overflows ranking := by
  induction fuel generalizing i with
  | zero => cases h
  | succ fuel ih =>
    rw [widen_succ] at h
    split at h
    · cases h
    · next results' hcollect =>
      split_ifs at h with hdone hlimit
      · cases h
      · obtain ⟨hfew, hlong⟩ := not_or.mp hdone
        have hbound : c.width i = c.bound := le_antisymm (width_le i) hlimit
        rw [hbound] at hcollect hlong
        exact ⟨not_lt.mp hlong, results', hcollect, not_le.mp hfew⟩
      · rw [width_succ] at h
        exact ih h

theorem widen_failed {fuel i : ℕ} {e : ε} (h : c.widen (beginnings ranking) fuel (c.width i) = some (.error (.failed e))) :
    ∃ j, c.collect (ranking.take (c.width j)) [] = .error e ∧ ∀ k < j, i ≤ k → ¬ c.Served ranking (c.width k) := by
  induction fuel generalizing i with
  | zero => cases h
  | succ fuel ih =>
    rw [widen_succ] at h
    split at h
    · next e' hcollect =>
      cases h
      exact ⟨i, hcollect, fun k hk hik => absurd hk (not_lt.mpr hik)⟩
    · next results hcollect =>
      split_ifs at h with hdone hlimit
      · cases h
      · cases h
      · rw [width_succ] at h
        obtain ⟨j, hj, hbefore⟩ := ih h
        refine ⟨j, hj, fun k hk hik hserved => ?_⟩
        rcases Nat.eq_or_lt_of_le hik with rfl | hlt
        · obtain ⟨results', hcollect', hdone'⟩ := hserved
          rw [hcollect] at hcollect'
          cases hcollect'
          exact hdone hdone'
        · exact hbefore k hk hlt hserved

theorem Overflows.not_served (h : c.Overflows ranking) (i : ℕ) : ¬ c.Served ranking (c.width i) := by
  obtain ⟨hlong, results, hcollect, hfew⟩ := h
  rintro ⟨results', hcollect', hfull | hend⟩
  · have hle : (c.found (ranking.take (c.width i))).length ≤ (c.found (ranking.take c.bound)).length :=
      found_take_length (width_le i)
    rw [collect_eq_ok hcollect] at hfew
    rw [collect_eq_ok hcollect'] at hfull
    exact absurd (hfull.trans hle) (not_le.mpr hfew)
  · exact absurd (hlong.trans_lt hend) (not_lt.mpr (width_le i))

theorem Overflows.collect_ne (h : c.Overflows ranking) (i : ℕ) (e : ε) :
    c.collect (ranking.take (c.width i)) [] ≠ .error e := by
  obtain ⟨-, results, hcollect, -⟩ := h
  obtain ⟨results', hresults'⟩ := collect_take hcollect (c.width i)
  rw [List.take_take, Nat.min_eq_left (width_le i)] at hresults'
  rw [hresults']
  exact fun h => by cases h

theorem run_result {fuel : ℕ} {results : List β} (h : c.run (beginnings ranking) fuel = some (.ok results)) :
    results = (c.found ranking).take c.places ∧ c.Answers ranking := by
  rw [run, ← width_zero] at h
  exact widen_result h

theorem run_exceeded {fuel : ℕ} (h : c.run (beginnings ranking) fuel = some (.error .exceeded)) : c.Overflows ranking := by
  rw [run, ← width_zero] at h
  exact widen_exceeded h

theorem run_failed {fuel : ℕ} {e : ε} (h : c.run (beginnings ranking) fuel = some (.error (.failed e))) :
    ∃ j, c.collect (ranking.take (c.width j)) [] = .error e ∧ ∀ k < j, ¬ c.Served ranking (c.width k) := by
  rw [run, ← width_zero] at h
  obtain ⟨j, hj, hbefore⟩ := widen_failed h
  exact ⟨j, hj, fun k hk => hbefore k hk (Nat.zero_le k)⟩

theorem run_of_overflows (h : c.Overflows ranking) : c.run (beginnings ranking) (c.bound + 1) = some (.error .exceeded) := by
  obtain ⟨outcome, hrun⟩ := run_ends (c := c) ranking
  cases outcome with
  | ok results =>
    obtain ⟨i, hserved⟩ := (run_result hrun).2
    exact absurd hserved (h.not_served i)
  | error stop =>
    cases stop with
    | failed e =>
      obtain ⟨j, hj, -⟩ := run_failed hrun
      exact absurd hj (h.collect_ne j e)
    | exceeded => exact hrun

theorem run_of_answers (h : c.Answers ranking) :
    c.run (beginnings ranking) (c.bound + 1) = some (.ok ((c.found ranking).take c.places)) := by
  obtain ⟨i, hserved⟩ := h
  obtain ⟨outcome, hrun⟩ := run_ends (c := c) ranking
  cases outcome with
  | ok results => rw [hrun, (run_result hrun).1]
  | error stop =>
    cases stop with
    | failed e =>
      obtain ⟨j, hj, hbefore⟩ := run_failed hrun
      rcases Nat.lt_or_ge i j with hlt | hge
      · exact absurd hserved (hbefore i hlt)
      · obtain ⟨results, hcollect, -⟩ := hserved
        obtain ⟨results', hresults'⟩ := collect_take hcollect (c.width j)
        rw [List.take_take, Nat.min_eq_left (width_mono hge), hj] at hresults'
        cases hresults'
    | exceeded => exact absurd hserved ((run_exceeded hrun).not_served i)

/-! ## Several rankings -/

variable {π : Type} (c)

/-- What is read of each part, in turn. -/
def gather (fetch : π → ℕ → Except ε (List α)) (fuel : ℕ) : List π → Option (Except (Stop ε) (List β))
  | [] => some (.ok [])
  | part :: parts =>
    match c.run (fetch part) fuel with
    | none => none
    | some (.error stop) => some (.error stop)
    | some (.ok results) => (gather fetch fuel parts).map fun others => others.map (results ++ ·)

attribute [local grind =] gather

variable {c} {rankings : π → List α} {parts : List π} {fuel : ℕ}

theorem gather_ends (rankings : π → List α) (parts : List π) :
    ∃ outcome, c.gather (fun part => beginnings (rankings part)) (c.bound + 1) parts = some outcome := by
  induction parts with
  | nil => exact ⟨_, rfl⟩
  | cons part parts ih =>
    obtain ⟨outcome, hrun⟩ := run_ends (c := c) (rankings part)
    obtain ⟨others, hothers⟩ := ih
    rw [gather, hrun, hothers]
    cases outcome with
    | ok results => exact ⟨_, rfl⟩
    | error stop => exact ⟨_, rfl⟩

theorem gather_results {results : List β}
    (h : c.gather (fun part => beginnings (rankings part)) fuel parts = some (.ok results)) :
    results = parts.flatMap fun part => (c.found (rankings part)).take c.places := by
  induction parts generalizing results with
  | nil =>
    cases h
    rfl
  | cons part parts ih =>
    rw [gather] at h
    split at h
    · cases h
    · cases h
    · next first hrun =>
      obtain ⟨others, hothers, hresults⟩ := Option.map_eq_some_iff.mp h
      cases others with
      | error stop => cases hresults
      | ok others =>
        cases hresults
        rw [List.flatMap_cons, ← (run_result hrun).1, ← ih hothers]

/-- A part overflows before which every part has a result. -/
def Refused (c : WidenedPages α β κ ε) (rankings : π → List α) (parts : List π) : Prop :=
  ∃ before part after, parts = before ++ part :: after ∧ (∀ q ∈ before, c.Answers (rankings q)) ∧
    c.Overflows (rankings part)

theorem gather_exceeded (h : c.gather (fun part => beginnings (rankings part)) fuel parts = some (.error .exceeded)) :
    c.Refused rankings parts := by
  induction parts with
  | nil => cases h
  | cons part parts ih =>
    rw [gather] at h
    split at h
    · cases h
    · next stop hrun =>
      cases h
      exact ⟨[], part, parts, rfl, fun q hq => absurd hq List.not_mem_nil, run_exceeded hrun⟩
    · next first hrun =>
      obtain ⟨others, hothers, hresults⟩ := Option.map_eq_some_iff.mp h
      cases others with
      | ok others => cases hresults
      | error stop =>
        cases hresults
        obtain ⟨before, refused, after, rfl, hbefore, hoverflows⟩ := ih hothers
        refine ⟨part :: before, refused, after, rfl, fun q hq => ?_, hoverflows⟩
        rcases List.mem_cons.mp hq with rfl | hq
        · exact (run_result hrun).2
        · exact hbefore q hq

theorem gather_of_refused (h : c.Refused rankings parts) :
    c.gather (fun part => beginnings (rankings part)) (c.bound + 1) parts = some (.error .exceeded) := by
  obtain ⟨before, refused, after, rfl, hbefore, hoverflows⟩ := h
  induction before with
  | nil => rw [List.nil_append, gather, run_of_overflows hoverflows]
  | cons part before ih =>
    rw [List.cons_append, gather, run_of_answers (hbefore part List.mem_cons_self),
      ih fun q hq => hbefore q (List.mem_cons_of_mem _ hq)]
    rfl

end reading

/-! ## The best of several parts -/

section top
variable {β π R : Type} [LinearOrder R]

/-- At most as many results as places, none below what is left out, and nothing left out while there are places. -/
def IsTop (places : ℕ) (score : β → R) (all results : List β) : Prop :=
  ∃ rest, (results ++ rest).Perm all ∧ (∀ a ∈ results, ∀ b ∈ rest, score b ≤ score a) ∧ results.length ≤ places ∧
    (rest ≠ [] → results.length = places)

variable {places : ℕ} {score : β → R} {l : π → List β} {parts : List π} {merged : List β}

theorem part_sublist {p : π} (hp : p ∈ parts) :
    ((l p).take places).Sublist (parts.flatMap fun p => (l p).take places) := by
  have hmem : (l p).take places ∈ parts.map fun p => (l p).take places := List.mem_map_of_mem hp
  exact List.sublist_flatten_of_mem hmem

/-- A part that was cut off filled the places, with nothing below what was cut off. -/
theorem countP_cut {l : List β} (hsorted : l.Pairwise fun a b => score b ≤ score a) {b : β} (hb : b ∈ l.drop places)
    {s : R} (hs : s < score b) : (l.take places).countP (fun a => s < score a) = places := by
  have hsplit := List.take_append_drop places l
  rw [← hsplit] at hsorted
  have hlen : places < l.length := by
    have hpos := List.length_pos_of_mem hb
    rw [List.length_drop] at hpos
    omega
  have hall : (l.take places).countP (fun a => s < score a) = (l.take places).length :=
    List.countP_eq_length.mpr fun a ha =>
      decide_eq_true (hs.trans_le ((List.pairwise_append.mp hsorted).2.2 a ha b hb))
  rw [hall, List.length_take, Nat.min_eq_left hlen.le]

/-- The best of parts that were cut off after the places are the best of the whole parts. -/
theorem isTop_take (hparts : ∀ p ∈ parts, (l p).Pairwise fun a b => score b ≤ score a)
    (hperm : merged.Perm (parts.flatMap fun p => (l p).take places))
    (hmerged : merged.Pairwise fun a b => score b ≤ score a) :
    IsTop places score (parts.flatMap l) (merged.take places) := by
  have hsplit := List.take_append_drop places merged
  have hbelow : ∀ a ∈ merged.take places, ∀ b ∈ merged.drop places, score b ≤ score a := by
    rw [← hsplit] at hmerged
    exact (List.pairwise_append.mp hmerged).2.2
  have hlen : (merged.take places).length ≤ places := List.length_take_le _ _
  refine ⟨merged.drop places ++ parts.flatMap fun p => (l p).drop places, ?_, ?_, hlen, ?_⟩
  · rw [← List.append_assoc, hsplit]
    refine (hperm.append_right _).trans ((List.flatMap_append_perm _ _ _).trans ?_)
    simp only [List.take_append_drop]
    exact List.Perm.refl _
  · intro a ha b hb
    rcases List.mem_append.mp hb with hb | hb
    · exact hbelow a ha b hb
    · -- if `b` were above `a`, so would be as many merged entries as there are places
      obtain ⟨p, hp, hb⟩ := List.mem_flatMap.mp hb
      by_contra hlt
      have hcut := countP_cut (hparts p hp) hb (not_le.mp hlt)
      have hcount : ((l p).take places).countP (fun c => score a < score c) ≤
          (parts.flatMap fun p => (l p).take places).countP fun c => score a < score c := (part_sublist hp).countP_le
      have hdrop : (merged.drop places).countP (fun c => score a < score c) = 0 :=
        List.countP_eq_zero.mpr fun c hc => by simpa using hbelow a ha c hc
      have htake : (merged.take places).countP (fun c => score a < score c) < (merged.take places).length :=
        List.countP_lt_length_iff.mpr ⟨a, ha, decide_eq_false (lt_irrefl _)⟩
      rw [← hperm.countP_eq, ← hsplit, List.countP_append, hdrop] at hcount
      omega
  · intro hrest
    have hlong : places ≤ merged.length := by
      by_contra hshort
      rw [not_le] at hshort
      refine hrest ?_
      rw [List.drop_eq_nil_of_le hshort.le, List.nil_append, List.flatMap_eq_nil_iff]
      intro p hp
      have hle : ((l p).take places).length ≤ _ := (part_sublist hp).length_le
      rw [← hperm.length_eq, List.length_take] at hle
      exact List.drop_eq_nil_of_le (by omega)
    rw [List.length_take, Nat.min_eq_left hlong]

end top
end WidenedPages
end OcorRuntime
