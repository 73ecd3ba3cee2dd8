import Mathlib.Data.List.Basic
import Mathlib.Tactic.Linarith

/-! Reading a ranking page by page until enough of its entries are taken. Entries seen before
are skipped, entries that are not taken cost no place, and every entry read counts against
a budget of the whole scan. -/
namespace OcorRuntime
set_option autoImplicit false
set_option maxHeartbeats 250000

structure PagedScan (α β κ ε : Type) where
  key : α → κ
  /-- What an entry gives, if it is taken. -/
  take : α → Option β
  limit : ℕ
  pageSize : ℕ
  budget : ℕ
  exhausted : ε

namespace PagedScan
variable {α β κ ε : Type} {c : PagedScan α β κ ε}

/-! ## The budget in pages -/

/-- The entries a scan reads at most: the least number of whole pages that reaches the budget. -/
def horizon (c : PagedScan α β κ ε) : ℕ := (c.budget + c.pageSize - 1) / c.pageSize * c.pageSize

theorem page_le_horizon {k : ℕ} (hk : k * c.pageSize < c.budget) : (k + 1) * c.pageSize ≤ c.horizon := by
  by_cases hpage : 0 < c.pageSize
  · refine Nat.mul_le_mul_right _ ((Nat.le_div_iff_mul_le hpage).mpr ?_)
    rw [Nat.succ_mul]
    omega
  · rw [Nat.eq_zero_of_not_pos hpage]
    exact Nat.zero_le _

theorem horizon_le {k : ℕ} (hk : c.budget ≤ k * c.pageSize) : c.horizon ≤ k * c.pageSize := by
  refine Nat.mul_le_mul_right _ ?_
  by_cases hpage : 0 < c.pageSize
  · rw [Nat.div_le_iff_le_mul_add_pred hpage, Nat.mul_comm]
    omega
  · rw [Nat.eq_zero_of_not_pos hpage, Nat.div_zero]
    exact Nat.zero_le _

/-! ## The loop -/

variable [DecidableEq κ]

structure Found (β κ : Type) where
  results : List β
  seen : List κ

/-- One page, up to the entry that fills the last place. -/
def collect (c : PagedScan α β κ ε) : List α → Found β κ → Found β κ
  | [], found => found
  | entry :: rest, found =>
    if c.key entry ∈ found.seen then c.collect rest found
    else
      match c.take entry with
      | none => c.collect rest ⟨found.results, c.key entry :: found.seen⟩
      | some result =>
        let found' : Found β κ := ⟨found.results ++ [result], c.key entry :: found.seen⟩
        if found'.results.length = c.limit then found' else c.collect rest found'

/-- The scan from an offset on; `none` when the fuel does not last. -/
def loop (c : PagedScan α β κ ε) (page : ℕ → Except ε (List α)) : ℕ → ℕ → Found β κ → Option (Except ε (List β))
  | 0, _, _ => none
  | fuel + 1, offset, found =>
    if found.results.length < c.limit then
      if c.budget ≤ offset then some (.error c.exhausted)
      else
        match page offset with
        | .error e => some (.error e)
        | .ok entries =>
          if entries.length < c.pageSize then some (.ok (c.collect entries found).results)
          else c.loop page fuel (offset + entries.length) (c.collect entries found)
    else some (.ok found.results)

def run (c : PagedScan α β κ ε) (page : ℕ → Except ε (List α)) (fuel : ℕ) : Option (Except ε (List β)) :=
  c.loop page fuel 0 ⟨[], []⟩

/-- A stable answer: every page is a window of one ranking. -/
def pageOf (c : PagedScan α β κ ε) (ranking : List α) (offset : ℕ) : Except ε (List α) :=
  .ok ((ranking.drop offset).take c.pageSize)

/-- The scan comes to an end with a result. -/
def Returns (c : PagedScan α β κ ε) (ranking : List α) : Prop :=
  ∃ fuel results, c.run (c.pageOf ranking) fuel = some (.ok results)

/-! ## Different entries -/

/-- The entries with a key that is not among those seen, the first of each key. -/
def firsts (key : α → κ) : List κ → List α → List α
  | _, [] => []
  | seen, entry :: rest =>
    if key entry ∈ seen then firsts key seen rest else entry :: firsts key (key entry :: seen) rest

attribute [local grind =] loop firsts

theorem firsts_congr {key : α → κ} {seen seen' : List κ} (h : ∀ k, k ∈ seen ↔ k ∈ seen') (l : List α) :
    firsts key seen l = firsts key seen' l := by
  induction l generalizing seen seen' with
  | nil => rfl
  | cons entry rest ih =>
    by_cases hseen : key entry ∈ seen
    · rw [firsts, firsts, if_pos hseen, if_pos ((h _).mp hseen), ih h]
    · have hcons : ∀ k, k ∈ key entry :: seen ↔ k ∈ key entry :: seen' := fun k => by
        rw [List.mem_cons, List.mem_cons, h]
      rw [firsts, firsts, if_neg hseen, if_neg fun h' => hseen ((h _).mpr h'), ih hcons]

theorem firsts_sublist (key : α → κ) (seen : List κ) (l : List α) : (firsts key seen l).Sublist l := by
  induction l generalizing seen with
  | nil => exact List.Sublist.refl _
  | cons entry rest ih =>
    rw [firsts]
    by_cases hseen : key entry ∈ seen
    · rw [if_pos hseen]
      exact (ih seen).cons _
    · rw [if_neg hseen]
      exact (ih _).cons_cons _

theorem firsts_append {key : α → κ} (seen : List κ) (l m : List α) :
    firsts key seen (l ++ m) = firsts key seen l ++ firsts key (l.map key ++ seen) m := by
  induction l generalizing seen with
  | nil => rfl
  | cons entry rest ih =>
    rw [List.cons_append, List.map_cons, List.cons_append, firsts, firsts]
    by_cases hseen : key entry ∈ seen
    · rw [if_pos hseen, if_pos hseen, ih]
      congr 1
      refine firsts_congr (fun k => ?_) m
      rw [List.mem_cons]
      exact ⟨Or.inr, fun h => h.elim (fun hk => List.mem_append_right _ (hk ▸ hseen)) id⟩
    · rw [if_neg hseen, if_neg hseen, ih, List.cons_append]
      congr 2
      refine firsts_congr (fun k => ?_) m
      simp only [List.mem_append, List.mem_cons]
      tauto

/-- What the different entries of a ranking give, in its order. -/
def taken (c : PagedScan α β κ ε) (ranking : List α) : List β := (firsts c.key [] ranking).filterMap c.take

/-- The different entries that give nothing. -/
def passedOver (c : PagedScan α β κ ε) (ranking : List α) : List α :=
  (firsts c.key [] ranking).filter fun entry => (c.take entry).isNone

variable {ranking : List α}

theorem taken_append (l m : List α) : c.taken (l ++ m) = c.taken l ++ (firsts c.key (l.map c.key) m).filterMap c.take := by
  rw [taken, firsts_append, List.filterMap_append, List.append_nil, taken]

theorem taken_length_mono (l m : List α) : (c.taken l).length ≤ (c.taken (l ++ m)).length := by
  rw [taken_append, List.length_append]
  exact Nat.le_add_right _ _

/-! ## One page -/

/-- A page fills the places that are left with what its new entries give; if any place is left, all were read. -/
theorem collect_spec (entries : List α) {found : Found β κ} (hlen : found.results.length < c.limit) :
    (c.collect entries found).results =
        (found.results ++ (firsts c.key found.seen entries).filterMap c.take).take c.limit ∧
      ((c.collect entries found).results.length < c.limit →
        ∀ k, k ∈ (c.collect entries found).seen ↔ k ∈ entries.map c.key ∨ k ∈ found.seen) := by
  induction entries generalizing found with
  | nil =>
    refine ⟨?_, fun _ k => by simp [collect]⟩
    rw [collect, firsts, List.filterMap_nil, List.append_nil, List.take_of_length_le hlen.le]
  | cons entry rest ih =>
    rw [collect, firsts]
    by_cases hseen : c.key entry ∈ found.seen
    · rw [if_pos hseen, if_pos hseen]
      obtain ⟨hresults, hkeys⟩ := ih hlen
      refine ⟨hresults, fun hleft k => ?_⟩
      rw [hkeys hleft, List.map_cons, List.mem_cons]
      exact ⟨fun h => h.imp_left Or.inr, fun h => by
        rcases h with (rfl | h) | h
        · exact .inr hseen
        · exact .inl h
        · exact .inr h⟩
    · rw [if_neg hseen, if_neg hseen]
      cases htake : c.take entry with
      | none =>
        dsimp only
        have hlen' : (⟨found.results, c.key entry :: found.seen⟩ : Found β κ).results.length < c.limit := hlen
        obtain ⟨hresults, hkeys⟩ := ih hlen'
        rw [List.filterMap_cons_none htake]
        refine ⟨hresults, fun hleft k => ?_⟩
        rw [hkeys hleft, List.map_cons, List.mem_cons, List.mem_cons]
        tauto
      | some result =>
        dsimp only
        rw [List.filterMap_cons_some htake,
          List.append_cons found.results result ((firsts c.key (c.key entry :: found.seen) rest).filterMap c.take)]
        by_cases hfull : (found.results ++ [result]).length = c.limit
        · rw [if_pos hfull, List.take_append_of_le_length hfull.ge, List.take_of_length_le hfull.le]
          exact ⟨rfl, fun hleft => absurd hfull hleft.ne⟩
        · have hlen' : (⟨found.results ++ [result], c.key entry :: found.seen⟩ : Found β κ).results.length < c.limit := by
            rw [List.length_append, List.length_singleton] at hfull ⊢
            omega
          rw [if_neg hfull]
          obtain ⟨hresults, hkeys⟩ := ih hlen'
          refine ⟨hresults, fun hleft k => ?_⟩
          rw [hkeys hleft, List.map_cons, List.mem_cons, List.mem_cons]
          tauto

/-! ## The scan -/

/-- Every entry before the offset was read, and places are left. -/
structure Reached (c : PagedScan α β κ ε) (ranking : List α) (offset : ℕ) (found : Found β κ) : Prop where
  offset_le : offset ≤ ranking.length
  results : found.results = c.taken (ranking.take offset)
  seen : ∀ k, k ∈ found.seen ↔ k ∈ (ranking.take offset).map c.key
  left : found.results.length < c.limit

variable {offset : ℕ} {found : Found β κ}

theorem Reached.page (h : c.Reached ranking offset found) :
    (c.collect ((ranking.drop offset).take c.pageSize) found).results =
        (c.taken (ranking.take (offset + c.pageSize))).take c.limit ∧
      ((c.collect ((ranking.drop offset).take c.pageSize) found).results.length < c.limit →
        offset + c.pageSize ≤ ranking.length →
          c.Reached ranking (offset + c.pageSize) (c.collect ((ranking.drop offset).take c.pageSize) found)) := by
  obtain ⟨hresults, hkeys⟩ := collect_spec ((ranking.drop offset).take c.pageSize) h.left
  have hsplit : ranking.take (offset + c.pageSize) = ranking.take offset ++ (ranking.drop offset).take c.pageSize :=
    List.take_add
  have htaken : c.taken (ranking.take (offset + c.pageSize)) =
      found.results ++ (firsts c.key found.seen ((ranking.drop offset).take c.pageSize)).filterMap c.take := by
    rw [hsplit, taken_append, h.results, firsts_congr fun k => (h.seen k).symm]
  rw [← htaken] at hresults
  refine ⟨hresults, fun hleft hle => ⟨hle, ?_, fun k => ?_, hleft⟩⟩
  · rw [hresults, List.length_take] at hleft
    rw [hresults, List.take_of_length_le (by omega)]
  · rw [hkeys hleft, hsplit, List.map_append, List.mem_append, h.seen]
    exact Or.comm

theorem reached_start (hlimit : 1 ≤ c.limit) : c.Reached ranking 0 ⟨[], []⟩ where
  offset_le := Nat.zero_le _
  results := rfl
  seen := fun k => by simp
  left := hlimit

theorem take_taken_of_full {n : ℕ} (h : c.limit ≤ ((c.taken (ranking.take n)).take c.limit).length) :
    (c.taken (ranking.take n)).take c.limit = (c.taken ranking).take c.limit := by
  have hsplit := List.take_append_drop n ranking
  rw [List.length_take] at h
  conv_rhs => rw [← hsplit, taken_append, List.take_append_of_le_length (by omega)]

theorem loop_succ {fuel : ℕ} (hleft : found.results.length < c.limit) (hbudget : ¬ c.budget ≤ offset) :
    c.loop (c.pageOf ranking) (fuel + 1) offset found =
      if ((ranking.drop offset).take c.pageSize).length < c.pageSize then
        some (.ok (c.collect ((ranking.drop offset).take c.pageSize) found).results)
      else c.loop (c.pageOf ranking) fuel (offset + ((ranking.drop offset).take c.pageSize).length)
        (c.collect ((ranking.drop offset).take c.pageSize) found) := by
  rw [loop, if_pos hleft, if_neg hbudget]
  rfl

theorem loop_results {fuel : ℕ} {results : List β} (hreached : c.Reached ranking offset found)
    (h : c.loop (c.pageOf ranking) fuel offset found = some (.ok results)) : results = (c.taken ranking).take c.limit := by
  induction fuel generalizing offset found with
  | zero => cases h
  | succ fuel ih =>
    obtain ⟨hresults, hnext⟩ := hreached.page
    by_cases hbudget : c.budget ≤ offset
    · rw [loop, if_pos hreached.left, if_pos hbudget] at h
      cases h
    · rw [loop_succ hreached.left hbudget] at h
      split_ifs at h with hshort
      · cases h
        rw [List.length_take, List.length_drop] at hshort
        have hall : ranking.take (offset + c.pageSize) = ranking := List.take_of_length_le (by omega)
        rw [hresults, hall]
      · rw [List.length_take, List.length_drop] at hshort h
        have hle := hreached.offset_le
        have hfull : min c.pageSize (ranking.length - offset) = c.pageSize := by omega
        rw [hfull] at h
        by_cases hleft : (c.collect ((ranking.drop offset).take c.pageSize) found).results.length < c.limit
        · exact ih (hnext hleft (by omega)) h
        · cases fuel with
          | zero => cases h
          | succ fuel =>
            rw [loop, if_neg hleft] at h
            cases h
            rw [hresults] at hleft ⊢
            exact take_taken_of_full (not_lt.mp hleft)

theorem taken_length_take (ranking : List α) {m n : ℕ} (h : m ≤ n) :
    (c.taken (ranking.take m)).length ≤ (c.taken (ranking.take n)).length := by
  have hsplit : ranking.take n = ranking.take m ++ (ranking.take n).drop m := by
    conv_lhs => rw [← List.take_append_drop m (ranking.take n), List.take_take, Nat.min_eq_left h]
  rw [hsplit]
  exact taken_length_mono _ _

/-- What has to hold for a result: the ranking ends before the horizon, or enough is taken before it. -/
def Suffices (c : PagedScan α β κ ε) (ranking : List α) : Prop :=
  0 < c.pageSize ∧ (ranking.length < c.horizon ∨ c.limit ≤ (c.taken (ranking.take c.horizon)).length)

theorem loop_returns (h : c.Suffices ranking) {k : ℕ} (hreached : c.Reached ranking (k * c.pageSize) found) :
    ∃ fuel results, c.loop (c.pageOf ranking) fuel (k * c.pageSize) found = some (.ok results) := by
  obtain ⟨hpage, hsuffices⟩ := h
  induction hn : c.budget - k * c.pageSize using Nat.strong_induction_on generalizing k found with
  | _ n ih =>
    obtain ⟨hresults, hnext⟩ := hreached.page
    have hle := hreached.offset_le
    have hbudget : ¬ c.budget ≤ k * c.pageSize := by
      intro hbudget
      have hhorizon := horizon_le hbudget
      rcases hsuffices with hshort | hfull
      · omega
      · have hmono := taken_length_take (c := c) ranking hhorizon
        have hleft := hreached.left
        rw [hreached.results] at hleft
        omega
    by_cases hshort : ((ranking.drop (k * c.pageSize)).take c.pageSize).length < c.pageSize
    · exact ⟨1, _, by rw [loop_succ hreached.left hbudget, if_pos hshort]⟩
    · have hlen := hshort
      rw [List.length_take, List.length_drop] at hlen
      have hsucc : k * c.pageSize + c.pageSize = (k + 1) * c.pageSize := (Nat.succ_mul k c.pageSize).symm
      have hread : ((ranking.drop (k * c.pageSize)).take c.pageSize).length = c.pageSize := by
        rw [List.length_take, List.length_drop]
        omega
      by_cases hleft : (c.collect ((ranking.drop (k * c.pageSize)).take c.pageSize) found).results.length < c.limit
      · have hreached' := hnext hleft (by omega)
        rw [hsucc] at hreached'
        obtain ⟨fuel, results, hloop⟩ := ih _ (by omega) hreached' rfl
        exact ⟨fuel + 1, results, by rw [loop_succ hreached.left hbudget, if_neg hshort, hread, hsucc, hloop]⟩
      · exact ⟨2, _, by rw [loop_succ hreached.left hbudget, if_neg hshort, loop, if_neg hleft]⟩

theorem loop_exhausted (hpage : 0 < c.pageSize) (hlength : c.horizon ≤ ranking.length)
    (hfew : (c.taken (ranking.take c.horizon)).length < c.limit) {k : ℕ}
    (hreached : c.Reached ranking (k * c.pageSize) found) (fuel : ℕ) (results : List β) :
    c.loop (c.pageOf ranking) fuel (k * c.pageSize) found ≠ some (.ok results) := by
  induction fuel generalizing k found with
  | zero => exact fun h => by cases h
  | succ fuel ih =>
    obtain ⟨hresults, hnext⟩ := hreached.page
    by_cases hbudget : c.budget ≤ k * c.pageSize
    · rw [loop, if_pos hreached.left, if_pos hbudget]
      exact fun h => by cases h
    · have hend := page_le_horizon (not_le.mp hbudget)
      have hsucc : k * c.pageSize + c.pageSize = (k + 1) * c.pageSize := (Nat.succ_mul k c.pageSize).symm
      have hread : ((ranking.drop (k * c.pageSize)).take c.pageSize).length = c.pageSize := by
        rw [List.length_take, List.length_drop]
        omega
      have hleft : (c.collect ((ranking.drop (k * c.pageSize)).take c.pageSize) found).results.length < c.limit := by
        have hmono := taken_length_take (c := c) ranking hend
        rw [hresults, List.length_take, hsucc]
        omega
      have hreached' := hnext hleft (by omega)
      rw [hsucc] at hreached'
      rw [loop_succ hreached.left hbudget, hread, if_neg (lt_irrefl _), hsucc]
      exact ih hreached'

theorem loop_stalls (hpage : c.pageSize = 0) {fuel : ℕ} {results : List β} (hleft : found.results.length < c.limit) :
    c.loop (c.pageOf ranking) fuel offset found ≠ some (.ok results) := by
  induction fuel with
  | zero => exact fun h => by cases h
  | succ fuel ih =>
    by_cases hbudget : c.budget ≤ offset
    · rw [loop, if_pos hleft, if_pos hbudget]
      exact fun h => by cases h
    · rw [loop_succ hleft hbudget, hpage, List.take_zero]
      exact ih

/-- A scan returns exactly if its ranking ends before the horizon or fills the places before it. -/
theorem returns_iff (hlimit : 1 ≤ c.limit) : c.Returns ranking ↔ c.Suffices ranking := by
  have hstart : c.Reached ranking (0 * c.pageSize) ⟨[], []⟩ := by
    rw [Nat.zero_mul]
    exact reached_start hlimit
  constructor
  · rintro ⟨fuel, results, hrun⟩
    have hpage : 0 < c.pageSize := by
      by_contra hpage
      exact loop_stalls (Nat.eq_zero_of_not_pos hpage) hstart.left hrun
    refine ⟨hpage, ?_⟩
    by_contra hnot
    obtain ⟨hlength, hfew⟩ := not_or.mp hnot
    have hnever := loop_exhausted hpage (not_lt.mp hlength) (not_le.mp hfew) hstart fuel results
    rw [Nat.zero_mul] at hnever
    exact hnever hrun
  · intro h
    obtain ⟨fuel, results, hloop⟩ := loop_returns h hstart
    rw [Nat.zero_mul] at hloop
    exact ⟨fuel, results, hloop⟩

theorem run_results (hlimit : 1 ≤ c.limit) {fuel : ℕ} {results : List β}
    (h : c.run (c.pageOf ranking) fuel = some (.ok results)) : results = (c.taken ranking).take c.limit :=
  loop_results (reached_start hlimit) h

end PagedScan
end OcorRuntime
