import OcorRuntime.Foundations.Dict

/-! Items grouped under a key and, inside a group, under a code: the first value met under a
code stays, and the tags of all items under it are collected as a set. -/
namespace OcorRuntime.Grouping
set_option autoImplicit false
set_option maxHeartbeats 250000

variable {κ β ν τ : Type}

structure Item (κ β ν τ : Type) where
  key : κ
  code : β
  value : ν
  tag : τ

/-- The value of a code with its tags. -/
abbrev Tagged (ν τ : Type) := ν × List τ

/-- What the value and the tags under a code come from. -/
structure Entered (items : List (Item κ β ν τ)) (key : κ) (code : β) (entry : Tagged ν τ) : Prop where
  distinct : entry.2.Nodup
  tags : ∀ tag, tag ∈ entry.2 ↔ ∃ i ∈ items, i.key = key ∧ i.code = code ∧ i.tag = tag
  value : ∃ i ∈ items, i.key = key ∧ i.code = code ∧ i.value = entry.1

theorem Entered.mono {items : List (Item κ β ν τ)} {key : κ} {code : β} {entry : Tagged ν τ}
    (h : Entered items key code entry) {item : Item κ β ν τ} (hother : ¬ (item.key = key ∧ item.code = code)) :
    Entered (items ++ [item]) key code entry := by
  refine ⟨h.distinct, fun tag => ?_, ?_⟩
  · rw [h.tags]
    constructor
    · rintro ⟨i, hi, hrest⟩
      exact ⟨i, List.mem_append_left _ hi, hrest⟩
    · rintro ⟨i, hi, hkey, hcode, htag⟩
      rcases List.mem_append.mp hi with hi | hi
      · exact ⟨i, hi, hkey, hcode, htag⟩
      · rw [List.mem_singleton.mp hi] at hkey hcode
        exact absurd ⟨hkey, hcode⟩ hother
  · obtain ⟨i, hi, hrest⟩ := h.value
    exact ⟨i, List.mem_append_left _ hi, hrest⟩

section
variable [DecidableEq τ]

def tagged (entry : Tagged ν τ) (tag : τ) : Tagged ν τ := if tag ∈ entry.2 then entry else (entry.1, entry.2 ++ [tag])

theorem mem_tagged {entry : Tagged ν τ} {tag tag' : τ} : tag' ∈ (tagged entry tag).2 ↔ tag' ∈ entry.2 ∨ tag' = tag := by
  unfold tagged
  split_ifs with h
  · constructor
    · exact Or.inl
    · rintro (hmem | rfl)
      · exact hmem
      · exact h
  · rw [List.mem_append, List.mem_singleton]

theorem Entered.tag {items : List (Item κ β ν τ)} {item : Item κ β ν τ} {old : Option (Tagged ν τ)}
    (hold : ∀ entry ∈ old, Entered items item.key item.code entry)
    (hnone : old = none → ¬ ∃ i ∈ items, i.key = item.key ∧ i.code = item.code) :
    Entered (items ++ [item]) item.key item.code (tagged (old.getD (item.value, [])) item.tag) := by
  have hmember : item ∈ items ++ [item] := List.mem_append_right _ (List.mem_singleton_self item)
  have htags : ∀ tag, tag ∈ (old.getD (item.value, [])).2 ↔
      ∃ i ∈ items, i.key = item.key ∧ i.code = item.code ∧ i.tag = tag := by
    intro tag
    cases hcase : old with
    | some entry => exact (hold entry hcase).tags tag
    | none =>
      refine iff_of_false List.not_mem_nil ?_
      rintro ⟨i, hi, hkey, hcode, -⟩
      exact hnone hcase ⟨i, hi, hkey, hcode⟩
  constructor
  · have hdistinct : (old.getD (item.value, [])).2.Nodup := by
      cases hcase : old with
      | some entry => exact (hold entry hcase).distinct
      | none => exact List.nodup_nil
    unfold tagged
    split_ifs with h
    · exact hdistinct
    · exact List.Nodup.append hdistinct (List.nodup_singleton _) fun tag hmem htag => h (List.mem_singleton.mp htag ▸ hmem)
  · intro tag
    rw [mem_tagged, htags]
    constructor
    · rintro (⟨i, hi, hrest⟩ | rfl)
      · exact ⟨i, List.mem_append_left _ hi, hrest⟩
      · exact ⟨item, hmember, rfl, rfl, rfl⟩
    · rintro ⟨i, hi, hkey, hcode, htag⟩
      rcases List.mem_append.mp hi with hi | hi
      · exact Or.inl ⟨i, hi, hkey, hcode, htag⟩
      · rw [List.mem_singleton.mp hi] at htag
        exact Or.inr htag.symm
  · have hfirst : (tagged (old.getD (item.value, [])) item.tag).1 = (old.getD (item.value, [])).1 := by
      unfold tagged
      split_ifs <;> rfl
    rw [hfirst]
    cases hcase : old with
    | some entry =>
      obtain ⟨i, hi, hrest⟩ := (hold entry hcase).value
      exact ⟨i, List.mem_append_left _ hi, hrest⟩
    | none => exact ⟨item, hmember, rfl, rfl, rfl⟩

end

variable [DecidableEq κ] [DecidableEq β]

abbrev Groups (κ β ν τ : Type) [DecidableEq κ] [DecidableEq β] := Dict κ (Dict β (Tagged ν τ))

def add [DecidableEq τ] (groups : Groups κ β ν τ) (item : Item κ β ν τ) : Groups κ β ν τ :=
  let values := (groups.get? item.key).getD .empty
  groups.set item.key (values.set item.code (tagged ((values.get? item.code).getD (item.value, [])) item.tag))

structure Collected (items : List (Item κ β ν τ)) (groups : Groups κ β ν τ) : Prop where
  keys : ∀ key, key ∈ groups.keys ↔ ∃ i ∈ items, i.key = key
  codes : ∀ key values, groups.get? key = some values →
    ∀ code, code ∈ values.keys ↔ ∃ i ∈ items, i.key = key ∧ i.code = code
  entries : ∀ key values, groups.get? key = some values →
    ∀ code entry, values.get? code = some entry → Entered items key code entry

theorem collected_empty : Collected ([] : List (Item κ β ν τ)) .empty := by
  refine ⟨fun key => ?_, nofun, nofun⟩
  rw [Dict.mem_keys_iff]
  simp

theorem Collected.add [DecidableEq τ] {items : List (Item κ β ν τ)} {groups : Groups κ β ν τ} (h : Collected items groups)
    (item : Item κ β ν τ) : Collected (items ++ [item]) (add groups item) := by
  -- the group the item falls into, before the item
  have hcodes : ∀ code, (∃ entry, ((groups.get? item.key).getD .empty).get? code = some entry) ↔
      ∃ i ∈ items, i.key = item.key ∧ i.code = code := by
    intro code
    cases hget : groups.get? item.key with
    | some values =>
      rw [← h.codes item.key values hget code, Dict.mem_keys_iff]
      rfl
    | none =>
      refine iff_of_false (fun ⟨entry, hentry⟩ => nomatch hentry) ?_
      rintro ⟨i, hi, hkey, -⟩
      obtain ⟨values, hvalues⟩ := (Dict.mem_keys_iff groups item.key).mp ((h.keys item.key).mpr ⟨i, hi, hkey⟩)
      rw [hget] at hvalues
      cases hvalues
  have hentries : ∀ code, ∀ entry ∈ ((groups.get? item.key).getD .empty).get? code, Entered items item.key code entry := by
    intro code entry hentry
    cases hget : groups.get? item.key with
    | some values => exact h.entries item.key values hget code entry (by rwa [hget] at hentry)
    | none =>
      rw [hget] at hentry
      cases hentry
  constructor
  · intro key
    rw [Dict.mem_keys_iff, Grouping.add, Dict.get?_set]
    split_ifs with hkey
    · subst hkey
      exact iff_of_true ⟨_, rfl⟩ ⟨item, List.mem_append_right _ (List.mem_singleton_self item), rfl⟩
    · rw [← Dict.mem_keys_iff, h.keys]
      simp [or_and_right, exists_or, hkey]
  · intro key values hget code
    rw [Grouping.add, Dict.get?_set] at hget
    split_ifs at hget with hkey
    · subst hkey
      cases hget
      rw [Dict.mem_keys_iff]
      simp only [Dict.get?_set]
      split_ifs with hcode
      · subst hcode
        exact iff_of_true ⟨_, rfl⟩ ⟨item, List.mem_append_right _ (List.mem_singleton_self item), rfl, rfl⟩
      · rw [hcodes]
        simp [or_and_right, exists_or, hcode]
    · rw [h.codes key values hget]
      simp [or_and_right, exists_or, hkey]
  · intro key values hget code entry hentry
    rw [Grouping.add, Dict.get?_set] at hget
    split_ifs at hget with hkey
    · subst hkey
      cases hget
      rw [Dict.get?_set] at hentry
      split_ifs at hentry with hcode
      · subst hcode
        cases hentry
        refine Entered.tag (hentries item.code) fun hnone hitem => ?_
        obtain ⟨entry, hentry⟩ := (hcodes item.code).mpr hitem
        rw [hnone] at hentry
        cases hentry
      · exact (hentries code entry hentry).mono fun hsame => hcode hsame.2
    · exact (h.entries key values hget code entry hentry).mono fun hsame => hkey hsame.1

theorem Collected.foldl [DecidableEq τ] {items : List (Item κ β ν τ)} {groups : Groups κ β ν τ} (h : Collected items groups)
    (more : List (Item κ β ν τ)) : Collected (items ++ more) (more.foldl Grouping.add groups) := by
  induction more generalizing items groups with
  | nil => rwa [List.append_nil]
  | cons item more ih =>
    have hnext := ih (h.add item)
    rwa [List.append_assoc, List.singleton_append] at hnext

end OcorRuntime.Grouping
