import Mathlib
import OcorRuntime.Foundations.Dict

/-! Greedy selection: the best entry that remains is taken, or dropped if it is not accepted, and
what was taken moves the scores of the rest. Dropping at selection time selects as if the entries
that are not accepted had never been there. -/
namespace OcorRuntime
set_option autoImplicit false
set_option maxHeartbeats 250000

/-- Candidates `α` under keys `κ`, scores `ρ`, counters `σ`, results `β` and errors `ε`. -/
structure GreedySelection (κ α ρ σ β ε : Type) where
  score : σ → α → ρ
  /-- Asked of a candidate when it is the best. -/
  accept : α → Except ε Bool
  /-- The counters after a candidate was taken. -/
  count : σ → α → σ
  emit : σ → α → β

namespace GreedySelection

/-! ## The best entry -/

section best
variable {κ α ρ σ β ε : Type} [LinearOrder κ] [LinearOrder ρ] (c : GreedySelection κ α ρ σ β ε)

/-- A higher score, or the same score and a smaller key. -/
def Before (state : σ) (p q : κ × α) : Prop :=
  c.score state q.2 < c.score state p.2 ∨ (c.score state p.2 = c.score state q.2 ∧ p.1 < q.1)

instance (state : σ) (p q : κ × α) : Decidable (c.Before state p q) := inferInstanceAs (Decidable (_ ∨ _))

def improve (state : σ) : Option (κ × α) → κ × α → Option (κ × α)
  | none, entry => some entry
  | some best, entry => if c.Before state entry best then some entry else some best

def best (state : σ) (remaining : Dict κ α) : Option (κ × α) := remaining.entries.foldl (c.improve state) none

variable {c} {state : σ}

theorem Before.trans {p q r : κ × α} (hpq : c.Before state p q) (hqr : c.Before state q r) : c.Before state p r := by
  rcases hpq with hpq | ⟨hpq, hkey⟩
  · rcases hqr with hqr | ⟨hqr, -⟩
    · exact .inl (hqr.trans hpq)
    · exact .inl (hqr ▸ hpq)
  · rcases hqr with hqr | ⟨hqr, hkey'⟩
    · exact .inl (hpq ▸ hqr)
    · exact .inr ⟨hpq.trans hqr, hkey.trans hkey'⟩

theorem Before.asymm {p q : κ × α} (hpq : c.Before state p q) : ¬ c.Before state q p := by
  intro hqp
  rcases hpq.trans hqp with h | ⟨-, h⟩
  · exact lt_irrefl _ h
  · exact lt_irrefl _ h

theorem before_of_not {p q : κ × α} (hkey : p.1 ≠ q.1) (h : ¬ c.Before state q p) : c.Before state p q := by
  obtain ⟨hscore, hsame⟩ := not_or.mp h
  rcases lt_or_eq_of_le (not_lt.mp hscore) with hlt | heq
  · exact .inl hlt
  · refine .inr ⟨heq.symm, lt_of_le_of_ne (not_lt.mp fun hlt => hsame ⟨heq, hlt⟩) hkey⟩

/-- An entry that every other one comes after. -/
def IsBest (c : GreedySelection κ α ρ σ β ε) (state : σ) (entries : List (κ × α)) (p : κ × α) : Prop :=
  p ∈ entries ∧ ∀ q ∈ entries, q = p ∨ c.Before state p q

theorem IsBest.unique {entries : List (κ × α)} {p q : κ × α} (hp : c.IsBest state entries p)
    (hq : c.IsBest state entries q) : p = q := by
  rcases hp.2 q hq.1 with h | h
  · exact h.symm
  · rcases hq.2 p hp.1 with h' | h'
    · exact h'
    · exact absurd h' h.asymm

theorem foldl_improve (entries read : List (κ × α)) {p : κ × α} (hkeys : ((read ++ entries).map Prod.fst).Nodup)
    (hp : c.IsBest state read p) :
    ∃ q, entries.foldl (c.improve state) (some p) = some q ∧ c.IsBest state (read ++ entries) q := by
  induction entries generalizing read p with
  | nil => exact ⟨p, rfl, by rwa [List.append_nil]⟩
  | cons entry rest ih =>
    have happend : read ++ entry :: rest = (read ++ [entry]) ++ rest := by rw [List.append_assoc, List.singleton_append]
    have hne : p.1 ≠ entry.1 := by
      intro heq
      rw [List.map_append, List.map_cons] at hkeys
      exact (List.nodup_append.mp hkeys).2.2 p.1 (List.mem_map_of_mem hp.1) entry.1 List.mem_cons_self heq
    rw [happend] at hkeys ⊢
    rw [List.foldl_cons, improve]
    by_cases hbefore : c.Before state entry p
    · rw [if_pos hbefore]
      refine ih (read ++ [entry]) hkeys ⟨List.mem_append_right _ (List.mem_singleton_self _), fun q hq => ?_⟩
      rcases List.mem_append.mp hq with hq | hq
      · rcases hp.2 q hq with rfl | hpq
        · exact .inr hbefore
        · exact .inr (hbefore.trans hpq)
      · exact .inl (List.mem_singleton.mp hq)
    · rw [if_neg hbefore]
      refine ih (read ++ [entry]) hkeys ⟨List.mem_append_left _ hp.1, fun q hq => ?_⟩
      rcases List.mem_append.mp hq with hq | hq
      · exact hp.2 q hq
      · rw [List.mem_singleton.mp hq]
        exact .inr (before_of_not hne hbefore)

theorem exists_best {remaining : Dict κ α} (hne : remaining.entries ≠ []) :
    ∃ q, c.best state remaining = some q ∧ c.IsBest state remaining.entries q := by
  obtain ⟨first, rest, hentries⟩ := List.exists_cons_of_ne_nil hne
  have hkeys := remaining.nodup
  rw [hentries] at hkeys
  rw [best, hentries]
  exact foldl_improve rest [first] hkeys
    ⟨List.mem_singleton_self _, fun q hq => .inl (List.mem_singleton.mp hq)⟩

theorem best_of_nil {remaining : Dict κ α} (h : remaining.entries = []) : c.best state remaining = none := by
  rw [best, h]
  rfl

theorem best_eq_none_iff {remaining : Dict κ α} : c.best state remaining = none ↔ remaining.entries = [] := by
  refine ⟨fun h => ?_, best_of_nil⟩
  by_contra hne
  obtain ⟨q, hq, -⟩ : ∃ q, c.best state remaining = some q ∧ _ := exists_best hne
  rw [h] at hq
  cases hq

theorem best_eq_some_iff {remaining : Dict κ α} {p : κ × α} :
    c.best state remaining = some p ↔ c.IsBest state remaining.entries p := by
  by_cases hne : remaining.entries = []
  · rw [best_of_nil hne, hne]
    exact iff_of_false (fun h => by cases h) fun h => List.not_mem_nil h.1
  · obtain ⟨q, hq, hbest⟩ : ∃ q, c.best state remaining = some q ∧ c.IsBest state remaining.entries q := exists_best hne
    rw [hq]
    constructor
    · intro h
      rwa [← Option.some.inj h]
    · intro h
      rw [hbest.unique h]

end best

/-! ## What is kept -/

section keeps
variable {κ α : Type} [DecidableEq κ]

/-- The candidates of `kept` are those of `all` that pass, marked, under the same keys. -/
def Keeps (passes : α → Bool) (mark : α → α) (all kept : Dict κ α) : Prop :=
  ∀ k, kept.get? k = ((all.get? k).filter passes).map mark

variable {passes : α → Bool} {mark : α → α} {all kept : Dict κ α}

theorem Keeps.mem_iff (h : Keeps passes mark all kept) (k : κ) (b : α) :
    (k, b) ∈ kept.entries ↔ ∃ a, (k, a) ∈ all.entries ∧ passes a = true ∧ mark a = b := by
  rw [Dict.mem_entries_iff, h k, Option.map_eq_some_iff]
  simp only [Option.filter_eq_some_iff, Dict.mem_entries_iff, and_assoc]

theorem Keeps.erase (h : Keeps passes mark all kept) (k : κ) : Keeps passes mark (all.erase k) (kept.erase k) := by
  intro j
  rw [Dict.get?_erase, Dict.get?_erase, h j]
  split_ifs <;> rfl

theorem Keeps.erase_left (h : Keeps passes mark all kept) {k : κ} {a : α} (ha : (k, a) ∈ all.entries)
    (hpasses : passes a = false) : Keeps passes mark (all.erase k) kept := by
  intro j
  rw [Dict.get?_erase, h j]
  split_ifs with hj
  · rw [← hj, (Dict.mem_entries_iff all k a).mp ha, Option.filter_some, hpasses]
    rfl
  · rfl

theorem Keeps.entries_nil (h : Keeps passes mark all kept) (hall : all.entries = []) : kept.entries = [] := by
  refine List.eq_nil_iff_forall_not_mem.mpr fun p hp => ?_
  obtain ⟨a, ha, -⟩ := (h.mem_iff p.1 p.2).mp hp
  rw [hall] at ha
  exact List.not_mem_nil ha

theorem length_erase_lt {d : Dict κ α} {p : κ × α} (hp : p ∈ d.entries) : (d.erase p.1).entries.length < d.entries.length := by
  refine List.length_filter_lt_length_iff_exists.mpr ⟨p, hp, ?_⟩
  simp

end keeps

/-! ## Selecting -/

variable {κ α ρ σ β ε : Type} [LinearOrder κ] [DecidableEq κ] [LinearOrder ρ] (c : GreedySelection κ α ρ σ β ε)

/-- At most `topK` results; one round for each entry that remains. -/
def run (topK : ℕ) : ℕ → σ → Dict κ α → List β → Except ε (List β)
  | 0, _, _, ranked => .ok ranked
  | rounds + 1, state, remaining, ranked =>
    if ranked.length < topK then
      match c.best state remaining with
      | none => .ok ranked
      | some (key, chosen) => do
        if ← c.accept chosen then
          run topK rounds (c.count state chosen) (remaining.erase key) (ranked ++ [c.emit state chosen])
        else run topK rounds state (remaining.erase key) ranked
    else .ok ranked

attribute [local grind =] run

def select (topK : ℕ) (state : σ) (candidates : Dict κ α) : Except ε (List β) :=
  c.run topK candidates.entries.length state candidates []

variable {c} {c' : GreedySelection κ α ρ σ β ε} {state : σ} {passes : α → Bool} {mark : α → α} {all kept : Dict κ α}

theorem run_nil (topK rounds : ℕ) {d : Dict κ α} (h : d.entries = []) (ranked : List β) :
    c.run topK rounds state d ranked = .ok ranked := by
  cases rounds with
  | zero => rfl
  | succ rounds =>
    rw [run, best_of_nil h]
    split_ifs <;> rfl

theorem run_returns (haccept : ∀ a, ∃ accepted, c.accept a = .ok accepted) (topK : ℕ) {n : ℕ} (all : Dict κ α)
    (ranked : List β) : ∃ results, c.run topK n state all ranked = .ok results := by
  induction n generalizing state all ranked with
  | zero => exact ⟨ranked, rfl⟩
  | succ n ih =>
    rw [run]
    split_ifs
    · cases c.best state all with
      | none => exact ⟨ranked, rfl⟩
      | some p =>
        obtain ⟨accepted, hp⟩ := haccept p.2
        dsimp only
        rw [hp]
        cases accepted with
        | true => exact ih _ _
        | false => exact ih _ _
    · exact ⟨ranked, rfl⟩

/-- The second selection treats marked candidates as the first one treats them unmarked. -/
structure Marks (c c' : GreedySelection κ α ρ σ β ε) (mark : α → α) : Prop where
  score : ∀ state a, c'.score state (mark a) = c.score state a
  count : ∀ state a, c'.count state (mark a) = c.count state a
  emit : ∀ state a, c'.emit state (mark a) = c.emit state a

theorem Keeps.isBest (h : Keeps passes mark all kept) (hmark : Marks c c' mark) {k : κ} {a : α}
    (hbest : c.IsBest state all.entries (k, a)) (hpasses : passes a = true) :
    c'.IsBest state kept.entries (k, mark a) := by
  refine ⟨(h.mem_iff k (mark a)).mpr ⟨a, hbest.1, hpasses, rfl⟩, fun q hq => ?_⟩
  obtain ⟨j, b'⟩ := q
  obtain ⟨b, hb, -, rfl⟩ := (h.mem_iff j b').mp hq
  rcases hbest.2 _ hb with heq | hbefore
  · cases heq
    exact .inl rfl
  · refine .inr ?_
    rw [Before, hmark.score, hmark.score]
    exact hbefore

/-- The run over all candidates makes the choices of the run over those that pass, in the same order. -/
theorem run_eq_of_keeps (hmark : Marks c c' mark) (haccept : ∀ p ∈ all.entries, c.accept p.2 = .ok (passes p.2))
    (haccept' : ∀ p ∈ kept.entries, c'.accept p.2 = .ok true) (h : Keeps passes mark all kept) (topK : ℕ) {n m : ℕ}
    (hn : all.entries.length ≤ n) (hm : kept.entries.length ≤ m) (ranked : List β) :
    c.run topK n state all ranked = c'.run topK m state kept ranked := by
  induction n generalizing m state all kept ranked with
  | zero =>
    have hall := List.eq_nil_of_length_eq_zero (Nat.le_zero.mp hn)
    rw [run_nil topK m (h.entries_nil hall), run_nil topK 0 hall]
  | succ n ih =>
    by_cases hroom : ranked.length < topK
    · cases hbest : c.best state all with
      | none =>
        have hall := best_eq_none_iff.1 hbest
        rw [run_nil topK m (h.entries_nil hall), run_nil topK (n + 1) hall]
      | some p =>
        obtain ⟨k, a⟩ := p
        have hp := best_eq_some_iff.1 hbest
        have hn' : ((all.erase k).entries).length ≤ n := Nat.le_of_lt_succ ((length_erase_lt hp.1).trans_le hn)
        have hrest : ∀ q ∈ (all.erase k).entries, c.accept q.2 = .ok (passes q.2) := fun q hq =>
          haccept q (List.mem_of_mem_filter hq)
        rw [run, if_pos hroom, hbest]
        dsimp only
        rw [haccept _ hp.1]
        cases hpasses : passes a with
        | true =>
          have hkept := h.isBest hmark hp hpasses
          cases m with
          | zero =>
            have hnil := List.eq_nil_of_length_eq_zero (Nat.le_zero.mp hm)
            rw [hnil] at hkept
            exact absurd hkept.1 List.not_mem_nil
          | succ m =>
            have hm' : (kept.erase k).entries.length ≤ m := Nat.le_of_lt_succ ((length_erase_lt hkept.1).trans_le hm)
            have hrest' : ∀ q ∈ (kept.erase k).entries, c'.accept q.2 = .ok true := fun q hq =>
              haccept' q (List.mem_of_mem_filter hq)
            rw [run, if_pos hroom, best_eq_some_iff.2 hkept]
            dsimp only
            rw [haccept' _ hkept.1, hmark.count, hmark.emit]
            exact ih hrest hrest' (h.erase k) hn' hm' _
        | false => exact ih hrest haccept' (h.erase_left hp.1 hpasses) hn' hm ranked
    · rw [run, if_neg hroom]
      cases m with
      | zero => rfl
      | succ m => rw [run, if_neg hroom]

/-- **Dropping at selection time selects what a selection from the candidates that pass selects.** -/
theorem select_eq_of_keeps (hmark : Marks c c' mark) (haccept : ∀ p ∈ all.entries, c.accept p.2 = .ok (passes p.2))
    (haccept' : ∀ p ∈ kept.entries, c'.accept p.2 = .ok true) (h : Keeps passes mark all kept) (topK : ℕ) (state : σ) :
    c.select topK state all = c'.select topK state kept :=
  run_eq_of_keeps hmark haccept haccept' h topK le_rfl le_rfl []

end GreedySelection
end OcorRuntime
