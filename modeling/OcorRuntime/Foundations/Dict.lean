import Mathlib.Algebra.BigOperators.Group.List.Basic
import Mathlib.Algebra.Ring.Int.Defs
import Mathlib.Data.List.Nodup

/-! Insertion-ordered dictionaries. An update keeps the key's place and a new key
goes last, so iterating over the entries is iterating in insertion order.
Mathlib's `AList` moves an updated key to the front, which is why it is not used. -/
namespace OcorRuntime
set_option autoImplicit false
set_option maxHeartbeats 250000

structure Dict (κ ν : Type) where
  entries : List (κ × ν)
  nodup : (entries.map Prod.fst).Nodup
deriving DecidableEq

namespace Dict
variable {κ ν : Type} [DecidableEq κ]

/-! ## Association lists -/

def find : List (κ × ν) → κ → Option ν
  | [], _ => none
  | (key, value) :: rest, k => if key = k then some value else find rest k

def put (k : κ) (v : ν) : List (κ × ν) → List (κ × ν)
  | [] => [(k, v)]
  | (key, value) :: rest => if key = k then (k, v) :: rest else (key, value) :: put k v rest

attribute [local grind =] find put

theorem put_keys (k : κ) (v : ν) (l : List (κ × ν)) :
    (put k v l).map Prod.fst = if k ∈ l.map Prod.fst then l.map Prod.fst else l.map Prod.fst ++ [k] := by
  induction l with
  | nil => simp [put]
  | cons p l ih =>
    obtain ⟨key, value⟩ := p
    by_cases h : key = k
    · simp [put, h]
    · have h' : ¬ k = key := fun e => h e.symm
      simp only [put, if_neg h, List.map_cons, ih, List.mem_cons, h', false_or]
      split <;> simp

theorem find_put (k j : κ) (v : ν) (l : List (κ × ν)) :
    find (put k v l) j = if k = j then some v else find l j := by
  induction l with
  | nil => simp [put, find]
  | cons p l ih =>
    obtain ⟨key, value⟩ := p
    by_cases h : key = k
    · subst h
      by_cases hj : key = j <;> simp [put, find, hj]
    · by_cases hj : key = j
      · subst hj
        simp [put, find, h, Ne.symm h]
      · simp [put, find, h, hj, ih]

theorem put_of_notMem {k : κ} {v : ν} {l : List (κ × ν)} (h : k ∉ l.map Prod.fst) : put k v l = l ++ [(k, v)] := by
  induction l with
  | nil => rfl
  | cons p l ih =>
    rw [List.map_cons, List.mem_cons, not_or] at h
    rw [put, if_neg fun hk => h.1 hk.symm, ih h.2, List.cons_append]

theorem mem_of_find {l : List (κ × ν)} {k : κ} {v : ν} (h : find l k = some v) : (k, v) ∈ l := by
  induction l with
  | nil => cases h
  | cons p l ih =>
    obtain ⟨key, value⟩ := p
    rw [find] at h
    split_ifs at h with hk
    · cases h
      cases hk
      exact List.mem_cons_self ..
    · exact List.mem_cons_of_mem _ (ih h)

theorem find_eq_some_iff {l : List (κ × ν)} (hl : (l.map Prod.fst).Nodup) (k : κ) (v : ν) :
    find l k = some v ↔ (k, v) ∈ l := by
  induction l with
  | nil => simp [find]
  | cons p l ih =>
    obtain ⟨key, value⟩ := p
    rw [List.map_cons, List.nodup_cons] at hl
    by_cases h : key = k
    · subst h
      have hv : (key, v) ∉ l := fun hm => hl.1 (List.mem_map.mpr ⟨(key, v), hm, rfl⟩)
      simp [find, hv, eq_comm]
    · have h' : ¬ k = key := fun e => h e.symm
      simp [find, h, h', ih hl.2]

theorem find_perm {l m : List (κ × ν)} (hl : (l.map Prod.fst).Nodup) (h : l.Perm m) (k : κ) : find l k = find m k := by
  refine Option.ext fun v => ?_
  rw [find_eq_some_iff hl, find_eq_some_iff ((h.map Prod.fst).nodup_iff.mp hl), h.mem_iff]

theorem nodup_put {k : κ} {v : ν} {l : List (κ × ν)} (h : (l.map Prod.fst).Nodup) : ((put k v l).map Prod.fst).Nodup := by
  rw [put_keys]
  split_ifs with hk
  · exact h
  · refine List.nodup_append.mpr ⟨h, List.nodup_singleton k, fun a ha b hb hab => hk ?_⟩
    rw [← List.mem_singleton.mp hb, ← hab]
    exact ha

theorem mem_put {k : κ} {v : ν} {l : List (κ × ν)} {e : κ × ν} (h : e ∈ put k v l) : e ∈ l ∨ e = (k, v) := by
  induction l with
  | nil => exact Or.inr (List.mem_singleton.mp h)
  | cons p l ih =>
    rw [put] at h
    split_ifs at h
    · rcases List.mem_cons.mp h with h | h
      · exact Or.inr h
      · exact Or.inl (List.mem_cons_of_mem _ h)
    · rcases List.mem_cons.mp h with h | h
      · exact Or.inl (List.mem_cons.mpr (Or.inl h))
      · exact (ih h).imp_left (List.mem_cons_of_mem _)

section Collected
variable {α : Type} (key : α → κ) (value : α → ν)

/-- `{key(a): value(a) for a in items}`, over what is there already. -/
theorem nodup_foldl_put (items : List α) {l : List (κ × ν)} (h : (l.map Prod.fst).Nodup) :
    ((items.foldl (fun acc a => put (key a) (value a) acc) l).map Prod.fst).Nodup := by
  induction items generalizing l with
  | nil => exact h
  | cons a items ih => exact ih (nodup_put h)

theorem foldl_put_of_nodup (items : List α) {l : List (κ × ν)} (h : (l.map Prod.fst ++ items.map key).Nodup) :
    items.foldl (fun acc a => put (key a) (value a) acc) l = l ++ items.map fun a => (key a, value a) := by
  induction items generalizing l with
  | nil => rw [List.foldl_nil, List.map_nil, List.append_nil]
  | cons a items ih =>
    have hnew : key a ∉ l.map Prod.fst := fun hmem =>
      (List.nodup_append.mp h).2.2 _ hmem _ List.mem_cons_self rfl
    rw [List.foldl_cons, put_of_notMem hnew, ih, List.append_assoc, List.singleton_append, List.map_cons]
    rw [List.map_append, List.append_assoc]
    exact h

theorem mem_foldl_put (items : List α) {l : List (κ × ν)} {e : κ × ν}
    (h : e ∈ items.foldl (fun acc a => put (key a) (value a) acc) l) : e ∈ l ∨ ∃ a ∈ items, e = (key a, value a) := by
  induction items generalizing l with
  | nil => exact Or.inl h
  | cons a items ih =>
    rcases ih h with h | ⟨b, hb, heq⟩
    · exact (mem_put h).imp_right fun heq => ⟨a, List.mem_cons_self, heq⟩
    · exact Or.inr ⟨b, List.mem_cons_of_mem _ hb, heq⟩

theorem keys_foldl_put (items : List α) {l : List (κ × ν)} (k : κ) :
    k ∈ (items.foldl (fun acc a => put (key a) (value a) acc) l).map Prod.fst ↔ k ∈ l.map Prod.fst ∨ k ∈ items.map key := by
  induction items generalizing l with
  | nil => simp
  | cons a items ih =>
    rw [List.foldl_cons, ih, put_keys, List.map_cons, List.mem_cons]
    split_ifs with hk
    · have : k = key a → k ∈ l.map Prod.fst := fun heq => heq ▸ hk
      tauto
    · rw [List.mem_append, List.mem_singleton]
      tauto

end Collected

theorem find_filter_ne (k j : κ) (l : List (κ × ν)) :
    find (l.filter fun e => e.1 ≠ k) j = if k = j then none else find l j := by
  induction l with
  | nil => simp [find]
  | cons p l ih =>
    obtain ⟨key, value⟩ := p
    by_cases hk : key = k
    · rw [List.filter_cons_of_neg (by simpa using hk), ih, find]
      split_ifs with hj hj'
      · rfl
      · exact absurd (hk.symm.trans hj') hj
      · rfl
    · rw [List.filter_cons_of_pos (by simpa using hk), find, find, ih]
      by_cases hj : key = j
      · subst hj
        rw [if_pos rfl, if_pos rfl, if_neg (Ne.symm hk)]
      · rw [if_neg hj, if_neg hj]

/-- Putting a value adds its amount and takes away the amount of the one it replaces. -/
theorem sum_put (f : ν → ℤ) (k : κ) (v : ν) (l : List (κ × ν)) :
    ((put k v l).map fun e => f e.2).sum = (l.map fun e => f e.2).sum + f v - ((find l k).map f).getD 0 := by
  induction l with
  | nil => simp [put, find]
  | cons p l ih =>
    obtain ⟨key, value⟩ := p
    by_cases h : key = k
    · simp only [put, find, if_pos h, List.map_cons, List.sum_cons, Option.map_some, Option.getD_some]
      omega
    · simp only [put, find, if_neg h, List.map_cons, List.sum_cons, ih]
      omega

theorem sum_filter_ne (f : ν → ℤ) (k : κ) {l : List (κ × ν)} (hl : (l.map Prod.fst).Nodup) :
    ((l.filter fun e => e.1 ≠ k).map fun e => f e.2).sum = (l.map fun e => f e.2).sum - ((find l k).map f).getD 0 := by
  induction l with
  | nil => simp [find]
  | cons p l ih =>
    obtain ⟨key, value⟩ := p
    rw [List.map_cons, List.nodup_cons] at hl
    have hrest := ih hl.2
    by_cases h : key = k
    · subst h
      have hnone : find l key = none := by
        cases hf : find l key with
        | none => rfl
        | some w => exact absurd (List.mem_map.mpr ⟨(key, w), (find_eq_some_iff hl.2 key w).mp hf, rfl⟩) hl.1
      rw [hnone] at hrest
      simp only [ne_eq, not_true_eq_false, decide_false, Bool.false_eq_true, not_false_eq_true, List.filter_cons_of_neg,
        find, if_true, List.map_cons, List.sum_cons, Option.map_some, Option.getD_some]
      simp only [Option.map_none, Option.getD_none, ne_eq] at hrest
      omega
    · rw [List.filter_cons_of_pos (by simpa using h), List.map_cons, List.sum_cons, hrest]
      simp only [find, if_neg h, List.map_cons, List.sum_cons]
      omega

/-! ## Operations -/

def empty : Dict κ ν := ⟨[], List.nodup_nil⟩

def get? (d : Dict κ ν) (k : κ) : Option ν := find d.entries k

def keys (d : Dict κ ν) : List κ := d.entries.map Prod.fst

def values (d : Dict κ ν) : List ν := d.entries.map Prod.snd

def set (d : Dict κ ν) (k : κ) (v : ν) : Dict κ ν where
  entries := put k v d.entries
  nodup := by
    rw [put_keys]
    split
    · exact d.nodup
    · next h =>
      refine List.nodup_append.mpr ⟨d.nodup, List.nodup_singleton k, ?_⟩
      rintro a ha b hb rfl
      exact h (List.mem_singleton.mp hb ▸ ha)

def erase (d : Dict κ ν) (k : κ) : Dict κ ν where
  entries := d.entries.filter fun e => e.1 ≠ k
  nodup := d.nodup.sublist (List.filter_sublist.map Prod.fst)

@[simp] theorem get?_empty (k : κ) : (empty : Dict κ ν).get? k = none := rfl

theorem get?_set (d : Dict κ ν) (k j : κ) (v : ν) :
    (d.set k v).get? j = if k = j then some v else d.get? j :=
  find_put k j v d.entries

@[simp] theorem get?_set_self (d : Dict κ ν) (k : κ) (v : ν) : (d.set k v).get? k = some v := by
  rw [get?_set, if_pos rfl]

theorem get?_set_of_ne (d : Dict κ ν) {k j : κ} (v : ν) (h : k ≠ j) : (d.set k v).get? j = d.get? j := by
  rw [get?_set, if_neg h]

theorem get?_erase (d : Dict κ ν) (k j : κ) : (d.erase k).get? j = if k = j then none else d.get? j :=
  find_filter_ne k j d.entries

theorem get?_foldl_set {α : Type} (key : α → κ) (value : α → ν) (items : List α) (d : Dict κ ν) (k : κ) :
    (items.foldl (fun d item => d.set (key item) (value item)) d).get? k =
      ((items.filter fun item => key item = k).getLast?.map value).or (d.get? k) := by
  induction items generalizing d with
  | nil => rfl
  | cons item items ih =>
    rw [List.foldl_cons, ih, get?_set, List.filter_cons]
    by_cases h : key item = k
    · rw [if_pos h, if_pos (decide_eq_true h), List.getLast?_cons]
      cases (items.filter fun item => key item = k).getLast? <;> rfl
    · rw [if_neg h, if_neg (by simp [h])]

theorem sum_set (d : Dict κ ν) (f : ν → ℤ) (k : κ) (v : ν) :
    ((d.set k v).values.map f).sum = (d.values.map f).sum + f v - ((d.get? k).map f).getD 0 := by
  simp only [values, List.map_map]
  exact sum_put f k v d.entries

theorem sum_erase (d : Dict κ ν) (f : ν → ℤ) (k : κ) :
    ((d.erase k).values.map f).sum = (d.values.map f).sum - ((d.get? k).map f).getD 0 := by
  simp only [values, List.map_map]
  exact sum_filter_ne f k d.nodup

theorem mem_entries_iff (d : Dict κ ν) (k : κ) (v : ν) : (k, v) ∈ d.entries ↔ d.get? k = some v :=
  (find_eq_some_iff d.nodup k v).symm

theorem mem_values_iff (d : Dict κ ν) (v : ν) : v ∈ d.values ↔ ∃ k, d.get? k = some v := by
  simp only [values, List.mem_map]
  constructor
  · rintro ⟨⟨k, w⟩, hm, rfl⟩
    exact ⟨k, (d.mem_entries_iff k w).mp hm⟩
  · rintro ⟨k, hk⟩
    exact ⟨(k, v), (d.mem_entries_iff k v).mpr hk, rfl⟩

theorem mem_keys_iff (d : Dict κ ν) (k : κ) : k ∈ d.keys ↔ ∃ v, d.get? k = some v := by
  simp only [keys, List.mem_map]
  constructor
  · rintro ⟨⟨j, w⟩, hm, rfl⟩
    exact ⟨w, (d.mem_entries_iff j w).mp hm⟩
  · rintro ⟨v, hk⟩
    exact ⟨(k, v), (d.mem_entries_iff k v).mpr hk, rfl⟩

end Dict
end OcorRuntime
