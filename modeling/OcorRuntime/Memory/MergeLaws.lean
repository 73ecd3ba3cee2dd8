import OcorRuntime.Canonical.FixedPoint
import OcorRuntime.Foundations.Collect
import OcorRuntime.Foundations.Grouping
import OcorRuntime.Kernel.Records
import OcorRuntime.Memory.ClaimMerge

/-! What the merge of assertions keeps (`memory/consolidation.py`). Merging is grouping by subject and
attribute and, inside a group, by canonical bytes; the result depends on the set of assertions only. -/
namespace OcorRuntime.Memory
open Canonical Kernel Grouping
set_option autoImplicit false
set_option maxHeartbeats 250000

/-! ## Assertions with the versions they come from -/

abbrev Asserted := PyStr × PyStr × PyStr × PyValue

namespace Asserted

def ref (a : Asserted) : PyStr := a.1
def key (a : Asserted) : ClaimKey := (a.2.1, a.2.2.1)
def value (a : Asserted) : PyValue := a.2.2.2

end Asserted

def assertionsOf (sources : List ClaimSource) : List Asserted :=
  sources.flatMap fun source => source.assertions.map fun assertion => (source.versionRef, assertion)

/-- A version asserts, under this key, a value with these canonical bytes. -/
def Supports (asserted : List Asserted) (key : ClaimKey) (bytes : Bytes) (ref : PyStr) : Prop :=
  ∃ a ∈ asserted, a.key = key ∧ canonicalize a.value = .ok bytes ∧ a.ref = ref

/-- Exactly the versions that assert the value, each once and in order. -/
def Cites (asserted : List Asserted) (key : ClaimKey) (bytes : Bytes) (refs : List PyStr) : Prop :=
  refs.Pairwise (· < ·) ∧ ∀ ref, ref ∈ refs ↔ Supports asserted key bytes ref

/-! ## What a merge has to be -/

/-- A statement: all values asserted under its key have its canonical bytes. -/
structure Agreed (asserted : List Asserted) (s : Statement) : Prop where
  asserted_value : ∃ a ∈ asserted, a.key = s.key ∧ a.value = s.value
  cited : ∃ bytes, canonicalize s.value = .ok bytes ∧
    (∀ a ∈ asserted, a.key = s.key → canonicalize a.value = .ok bytes) ∧ Cites asserted s.key bytes s.supportRefs

/-- A conflict: one alternative for each of the several canonical values, in their order. -/
structure Disputed (asserted : List Asserted) (c : Conflict) : Prop where
  identified : keyId c.key = .ok c.conflictId
  alternatives : ∃ encodings : List Bytes, encodings.Pairwise (· < ·) ∧ 2 ≤ encodings.length ∧
    (∀ bytes, bytes ∈ encodings ↔ ∃ ref, Supports asserted c.key bytes ref) ∧
    List.Forall₂ (fun bytes alternative => canonicalize alternative.1 = .ok bytes ∧
      (∃ a ∈ asserted, a.key = c.key ∧ a.value = alternative.1) ∧ Cites asserted c.key bytes alternative.2)
      encodings c.alternatives

/-- Every key of an assertion, once: as a statement where its values agree, as a conflict where they do not. -/
structure Merges (asserted : List Asserted) (result : MergeResult) : Prop where
  once : (result.statements.map Statement.key ++ result.conflicts.map Conflict.key).Nodup
  complete : ∀ key, key ∈ result.statements.map Statement.key ++ result.conflicts.map Conflict.key ↔
    ∃ a ∈ asserted, a.key = key
  stated : ∀ key, key ∈ result.statements.map Statement.key ↔ (∃ a ∈ asserted, a.key = key) ∧
    ∃ bytes, ∀ a ∈ asserted, a.key = key → canonicalize a.value = .ok bytes
  agreed : ∀ s ∈ result.statements, Agreed asserted s
  disputed : ∀ c ∈ result.conflicts, Disputed asserted c

/-- Two values with the same canonical bytes. -/
def SameBytes (v w : PyValue) : Prop := ∃ bytes, canonicalize v = .ok bytes ∧ canonicalize w = .ok bytes

def SameStatement (s t : Statement) : Prop := s.key = t.key ∧ SameBytes s.value t.value ∧ s.supportRefs = t.supportRefs

def SameConflict (c d : Conflict) : Prop :=
  c.key = d.key ∧ c.conflictId = d.conflictId ∧
    List.Forall₂ (fun a b => SameBytes a.1 b.1 ∧ a.2 = b.2) c.alternatives d.alternatives

/-- The same result, up to values with the same canonical bytes. -/
def SameResult (r r' : MergeResult) : Prop :=
  List.Forall₂ SameStatement r.statements r'.statements ∧ List.Forall₂ SameConflict r.conflicts r'.conflicts

/-! ## The groups -/

def itemOf (a : Asserted) : Except PyError (Item ClaimKey Bytes PyValue PyStr) := do
  let canonical ← canonicalize a.value
  return ⟨a.key, canonical, a.value, a.ref⟩

theorem itemOf_eq_ok {a : Asserted} {item : Item ClaimKey Bytes PyValue PyStr} :
    itemOf a = .ok item ↔
      a.key = item.key ∧ canonicalize a.value = .ok item.code ∧ a.value = item.value ∧ a.ref = item.tag := by
  rw [itemOf]
  constructor
  · intro h
    obtain ⟨bytes, hbytes, h⟩ := bind_eq_ok.1 h
    cases h
    exact ⟨rfl, hbytes, rfl, rfl⟩
  · rintro ⟨hkey, hcode, hvalue, htag⟩
    rw [hcode, hkey, hvalue, htag]
    rfl

theorem support_add (support : Support) (versionRef : PyStr) : support.add versionRef = tagged support versionRef := by
  unfold Support.add tagged
  split_ifs <;> rfl

theorem addAssertion_eq_ok {groups groups' : ClaimGroups} {a : Asserted} :
    addAssertion groups a = .ok groups' ↔ ∃ item, itemOf a = .ok item ∧ Grouping.add groups item = groups' := by
  constructor
  · intro h
    obtain ⟨bytes, hbytes, h⟩ := bind_eq_ok.1 h
    refine ⟨⟨a.key, bytes, a.value, a.ref⟩, itemOf_eq_ok.2 ⟨rfl, hbytes, rfl, rfl⟩, ?_⟩
    rw [← Except.ok.inj h, support_add]
    rfl
  · rintro ⟨item, hitem, rfl⟩
    obtain ⟨bytes, hbytes, hitem⟩ := bind_eq_ok.1 hitem
    refine bind_eq_ok.2 ⟨bytes, hbytes, ?_⟩
    rw [← Except.ok.inj hitem, support_add]
    rfl

theorem foldlM_addAssertion {asserted : List Asserted} {groups groups' : ClaimGroups} :
    asserted.foldlM addAssertion groups = .ok groups' ↔
      ∃ items, asserted.mapM itemOf = .ok items ∧ items.foldl Grouping.add groups = groups' := by
  induction asserted generalizing groups with
  | nil =>
    constructor
    · intro h
      exact ⟨[], rfl, Except.ok.inj h⟩
    · rintro ⟨items, hitems, rfl⟩
      cases hitems
      rfl
  | cons a asserted ih =>
    rw [List.foldlM_cons, List.mapM_cons]
    constructor
    · intro h
      obtain ⟨next, hnext, h⟩ := bind_eq_ok.1 h
      obtain ⟨item, hitem, rfl⟩ := addAssertion_eq_ok.1 hnext
      obtain ⟨items, hitems, rfl⟩ := ih.mp h
      exact ⟨item :: items, by rw [hitem, hitems]; rfl, rfl⟩
    · rintro ⟨all, hall, rfl⟩
      obtain ⟨item, hitem, hall⟩ := bind_eq_ok.1 hall
      obtain ⟨items, hitems, hall⟩ := bind_eq_ok.1 hall
      cases hall
      exact bind_eq_ok.2 ⟨_, addAssertion_eq_ok.2 ⟨item, hitem, rfl⟩, ih.mpr ⟨items, hitems, rfl⟩⟩

/-- The groups an assertion list is collected in. -/
structure Grouped (asserted : List Asserted) (groups : ClaimGroups) : Prop where
  keys : ∀ key, key ∈ groups.keys ↔ ∃ a ∈ asserted, a.key = key
  encoded : ∀ a ∈ asserted, ∃ bytes, canonicalize a.value = .ok bytes
  codes : ∀ key values, groups.get? key = some values →
    ∀ bytes, bytes ∈ values.keys ↔ ∃ ref, Supports asserted key bytes ref
  support : ∀ key values, groups.get? key = some values → ∀ bytes entry, values.get? bytes = some entry →
    entry.2.Nodup ∧ (∀ ref, ref ∈ entry.2 ↔ Supports asserted key bytes ref) ∧
      ∃ a ∈ asserted, a.key = key ∧ canonicalize a.value = .ok bytes ∧ a.value = entry.1

theorem grouped_of_foldlM {asserted : List Asserted} {groups : ClaimGroups}
    (h : asserted.foldlM addAssertion .empty = .ok groups) : Grouped asserted groups := by
  obtain ⟨items, hitems, rfl⟩ := foldlM_addAssertion.1 h
  have hcollected := collected_empty.foldl items
  rw [List.nil_append] at hcollected
  have hall := forall₂_of_mapM.1 hitems
  have hitem : ∀ P : Item ClaimKey Bytes PyValue PyStr → Prop,
      (∃ i ∈ items, P i) ↔ ∃ a ∈ asserted, ∃ bytes, canonicalize a.value = .ok bytes ∧ P ⟨a.key, bytes, a.value, a.ref⟩ := by
    intro P
    constructor
    · rintro ⟨i, hi, hP⟩
      obtain ⟨a, ha, hai⟩ := exists_of_forall₂_right hall hi
      obtain ⟨hkey, hcode, hvalue, htag⟩ := itemOf_eq_ok.1 hai
      refine ⟨a, ha, i.code, hcode, ?_⟩
      rw [hkey, hvalue, htag]
      exact hP
    · rintro ⟨a, ha, bytes, hbytes, hP⟩
      obtain ⟨i, hi, hai⟩ := exists_of_forall₂_left hall ha
      obtain ⟨hkey, hcode, hvalue, htag⟩ := itemOf_eq_ok.1 hai
      rw [hbytes, Except.ok.injEq] at hcode
      refine ⟨i, hi, ?_⟩
      rwa [hkey, hcode, hvalue, htag] at hP
  have hencoded : ∀ a ∈ asserted, ∃ bytes, canonicalize a.value = .ok bytes := by
    intro a ha
    obtain ⟨i, -, hai⟩ := exists_of_forall₂_left hall ha
    exact ⟨i.code, (itemOf_eq_ok.1 hai).2.1⟩
  refine ⟨fun key => ?_, hencoded, fun key values hvalues bytes => ?_, fun key values hvalues bytes entry hentry => ?_⟩
  · rw [hcollected.keys, hitem]
    refine exists_congr fun a => and_congr_right fun ha => ?_
    obtain ⟨bytes, hbytes⟩ := hencoded a ha
    exact ⟨fun ⟨_, _, hkey⟩ => hkey, fun hkey => ⟨bytes, hbytes, hkey⟩⟩
  · rw [hcollected.codes key values hvalues, hitem]
    constructor
    · rintro ⟨a, ha, code, hcode, hkey, rfl⟩
      exact ⟨a.ref, a, ha, hkey, hcode, rfl⟩
    · rintro ⟨ref, a, ha, hkey, hcode, -⟩
      exact ⟨a, ha, bytes, hcode, hkey, rfl⟩
  · obtain ⟨hdistinct, htags, hvalue⟩ := hcollected.entries key values hvalues bytes entry hentry
    refine ⟨hdistinct, fun ref => ?_, ?_⟩
    · rw [htags, hitem]
      constructor
      · rintro ⟨a, ha, code, hcode, hkey, rfl, htag⟩
        exact ⟨a, ha, hkey, hcode, htag⟩
      · rintro ⟨a, ha, hkey, hcode, htag⟩
        exact ⟨a, ha, bytes, hcode, hkey, rfl, htag⟩
    · obtain ⟨a, ha, code, hcode, hkey, rfl, heq⟩ := (hitem _).mp hvalue
      exact ⟨a, ha, hkey, hcode, heq⟩

/-! ## One group -/

theorem sortedTexts_pairwise {texts : List PyStr} (h : texts.Nodup) : (sortedTexts texts).Pairwise (· < ·) := by
  have hsorted : (sortedTexts texts).Pairwise (· ≤ ·) := List.pairwise_insertionSort (· ≤ ·) texts
  have hnodup : (sortedTexts texts).Nodup := (List.perm_insertionSort (· ≤ ·) texts).nodup_iff.mpr h
  exact (hsorted.and hnodup).imp fun hab => lt_of_le_of_ne hab.1 hab.2

theorem cites_sortedTexts {asserted : List Asserted} {key : ClaimKey} {bytes : Bytes} {refs : List PyStr}
    (hnodup : refs.Nodup) (hrefs : ∀ ref, ref ∈ refs ↔ Supports asserted key bytes ref) :
    Cites asserted key bytes (sortedTexts refs) :=
  ⟨sortedTexts_pairwise hnodup, fun ref => (List.mem_insertionSort _).trans (hrefs ref)⟩

/-- What a group becomes. -/
def Outcome (asserted : List Asserted) (key : ClaimKey) : Statement ⊕ Conflict → Prop
  | .inl s => s.key = key ∧ Agreed asserted s
  | .inr c => c.key = key ∧ Disputed asserted c

theorem supports_of_mem {asserted : List Asserted} {groups : ClaimGroups} (h : Grouped asserted groups) {key : ClaimKey}
    {values : Dict Bytes Support} (hvalues : groups.get? key = some values) {a : Asserted} (ha : a ∈ asserted)
    (hkey : a.key = key) : ∃ bytes ∈ values.keys, canonicalize a.value = .ok bytes := by
  obtain ⟨bytes, hbytes⟩ := h.encoded a ha
  exact ⟨bytes, (h.codes key values hvalues bytes).mpr ⟨a.ref, a, ha, hkey, hbytes, rfl⟩, hbytes⟩

theorem agreed_of_singleton {asserted : List Asserted} {groups : ClaimGroups} (h : Grouped asserted groups)
    {key : ClaimKey} {values : Dict Bytes Support} (hvalues : groups.get? key = some values) {bytes : Bytes}
    {support : Support} (hsingle : values.entries = [(bytes, support)]) :
    Agreed asserted ⟨key.1, key.2, support.1, sortedTexts support.2⟩ := by
  have hget : values.get? bytes = some support := by
    rw [← Dict.mem_entries_iff, hsingle]
    exact List.mem_singleton_self _
  obtain ⟨hnodup, hrefs, a, ha, hkey, hbytes, hvalue⟩ := h.support key values hvalues bytes support hget
  refine ⟨⟨a, ha, hkey, hvalue⟩, bytes, hvalue ▸ hbytes, ?_, cites_sortedTexts hnodup hrefs⟩
  intro b hb hbkey
  obtain ⟨code, hcode, hencoded⟩ := supports_of_mem h hvalues hb hbkey
  rw [Dict.keys, hsingle] at hcode
  rw [hencoded, List.mem_singleton.mp hcode]

theorem disputed_of_several {asserted : List Asserted} {groups : ClaimGroups} (h : Grouped asserted groups)
    {key : ClaimKey} {values : Dict Bytes Support} (hvalues : groups.get? key = some values)
    (hseveral : 2 ≤ values.entries.length) {conflictId : PyStr} (hid : keyId key = .ok conflictId) :
    Disputed asserted ⟨conflictId, key.1, key.2, sortedAlternatives values⟩ := by
  let sorted := values.entries.insertionSort fun a b => a.1 ≤ b.1
  have hperm : sorted.Perm values.entries := List.perm_insertionSort _ _
  have htotal : Std.Total fun a b : Bytes × Support => a.1 ≤ b.1 := ⟨fun a b => le_total a.1 b.1⟩
  have htrans : IsTrans (Bytes × Support) fun a b => a.1 ≤ b.1 := ⟨fun _ _ _ h1 h2 => le_trans (α := Bytes) h1 h2⟩
  have hsorted : (sorted.map Prod.fst).Pairwise (· ≤ ·) :=
    List.pairwise_map.mpr (List.pairwise_insertionSort (fun a b : Bytes × Support => a.1 ≤ b.1) values.entries)
  have hnodup : (sorted.map Prod.fst).Nodup := (hperm.map Prod.fst).nodup_iff.mpr values.nodup
  refine ⟨hid, sorted.map Prod.fst, (hsorted.and hnodup).imp fun hab => lt_of_le_of_ne hab.1 hab.2, ?_, ?_, ?_⟩
  · rwa [List.length_map, hperm.length_eq]
  · intro bytes
    rw [(hperm.map Prod.fst).mem_iff]
    exact h.codes key values hvalues bytes
  · rw [sortedAlternatives, List.forall₂_map_left_iff, List.forall₂_map_right_iff, List.forall₂_same]
    intro entry hentry
    have hget : values.get? entry.1 = some entry.2 := (values.mem_entries_iff entry.1 entry.2).mp (hperm.mem_iff.1 hentry)
    obtain ⟨hdistinct, hrefs, a, ha, hkey, hbytes, hvalue⟩ := h.support key values hvalues entry.1 entry.2 hget
    exact ⟨hvalue ▸ hbytes, ⟨a, ha, hkey, hvalue⟩, cites_sortedTexts hdistinct hrefs⟩

theorem mergeGroup_outcome {asserted : List Asserted} {groups : ClaimGroups} (h : Grouped asserted groups)
    {key : ClaimKey} (hkey : key ∈ groups.keys) {outcome : Statement ⊕ Conflict}
    (hmerged : mergeGroup key ((groups.get? key).getD .empty) = .ok outcome) : Outcome asserted key outcome := by
  obtain ⟨values, hvalues⟩ := (Dict.mem_keys_iff groups key).mp hkey
  rw [hvalues, Option.getD_some, mergeGroup] at hmerged
  split at hmerged
  · next bytes value support hsingle =>
    cases hmerged
    exact ⟨rfl, agreed_of_singleton h hvalues hsingle⟩
  · next hother =>
    obtain ⟨conflictId, hid, hmerged⟩ := bind_eq_ok.1 hmerged
    cases hmerged
    refine ⟨rfl, disputed_of_several h hvalues ?_ hid⟩
    -- the group has a value, and more than one
    obtain ⟨a, ha, hakey⟩ := (h.keys key).mp hkey
    obtain ⟨bytes, hbytes, -⟩ := supports_of_mem h hvalues ha hakey
    match hentries : values.entries with
    | [] =>
      rw [Dict.keys, hentries] at hbytes
      cases hbytes
    | [(code, value, support)] => exact absurd hentries (hother code value support)
    | _ :: _ :: rest => simp

theorem mergeGroup_returns {key : ClaimKey} (values : Dict Bytes Support)
    (h : (∃ bytes support, values.entries = [(bytes, support)]) ∨ ∃ conflictId, keyId key = .ok conflictId) :
    ∃ outcome, mergeGroup key values = .ok outcome := by
  unfold mergeGroup
  split
  · exact ⟨_, rfl⟩
  · next hother =>
    rcases h with ⟨bytes, ⟨value, support⟩, hsingle⟩ | ⟨conflictId, hid⟩
    · exact absurd hsingle (hother bytes value support)
    · exact ⟨_, bind_eq_ok.2 ⟨conflictId, hid, rfl⟩⟩

/-! ## The whole merge -/

theorem claimKey_le_antisymm {a b : ClaimKey} (hab : a.Le b) (hba : b.Le a) : a = b := by
  have heq : [a.1, a.2] = [b.1, b.2] := le_antisymm hab hba
  simp only [List.cons.injEq, and_true] at heq
  exact Prod.ext heq.1 heq.2

theorem sortedKeys_eq_of_perm {keys keys' : List ClaimKey} (h : keys.Perm keys') : sortedKeys keys = sortedKeys keys' := by
  have htotal : Std.Total ClaimKey.Le := ⟨fun a b => le_total [a.1, a.2] [b.1, b.2]⟩
  have htrans : IsTrans ClaimKey ClaimKey.Le := ⟨fun a b c hab hbc => le_trans (b := [b.1, b.2]) hab hbc⟩
  have hperm : (sortedKeys keys).Perm (sortedKeys keys') :=
    (List.perm_insertionSort _ _).trans (h.trans (List.perm_insertionSort _ _).symm)
  exact hperm.eq_of_pairwise (fun _ _ _ _ => claimKey_le_antisymm) (List.pairwise_insertionSort ClaimKey.Le keys)
    (List.pairwise_insertionSort ClaimKey.Le keys')

theorem mergeClaims_eq_ok {sources : List ClaimSource} {result : MergeResult} :
    mergeClaims sources = .ok result ↔ ∃ groups merged, (assertionsOf sources).foldlM addAssertion .empty = .ok groups ∧
      List.Forall₂ (fun key outcome => mergeGroup key ((groups.get? key).getD .empty) = .ok outcome)
        (sortedKeys groups.keys) merged ∧
      result = ⟨merged.filterMap Sum.getLeft?, merged.filterMap Sum.getRight?⟩ := by
  constructor
  · intro h
    obtain ⟨groups, hgroups, h⟩ := bind_eq_ok.1 h
    obtain ⟨merged, hmerged, h⟩ := bind_eq_ok.1 h
    exact ⟨groups, merged, hgroups, forall₂_of_mapM.1 hmerged, (Except.ok.inj h).symm⟩
  · rintro ⟨groups, merged, hgroups, hmerged, rfl⟩
    exact bind_eq_ok.2 ⟨groups, hgroups, bind_eq_ok.2 ⟨merged, forall₂_of_mapM.2 hmerged, rfl⟩⟩

def outcomeKey : Statement ⊕ Conflict → ClaimKey := Sum.elim Statement.key Conflict.key

theorem Outcome.key_eq {asserted : List Asserted} {key : ClaimKey} {outcome : Statement ⊕ Conflict}
    (h : Outcome asserted key outcome) : outcomeKey outcome = key := by
  cases outcome with
  | inl s => exact h.1
  | inr c => exact h.1

theorem split_perm (merged : List (Statement ⊕ Conflict)) :
    ((merged.filterMap Sum.getLeft?).map Statement.key ++ (merged.filterMap Sum.getRight?).map Conflict.key).Perm
      (merged.map outcomeKey) := by
  induction merged with
  | nil => exact .refl _
  | cons outcome merged ih =>
    cases outcome with
    | inl s => exact ih.cons s.key
    | inr c => exact List.perm_middle.trans (ih.cons c.key)

theorem outcomes_of_merge {asserted : List Asserted} {groups : ClaimGroups} (h : Grouped asserted groups)
    {merged : List (Statement ⊕ Conflict)}
    (hmerged : List.Forall₂ (fun key outcome => mergeGroup key ((groups.get? key).getD .empty) = .ok outcome)
      (sortedKeys groups.keys) merged) : List.Forall₂ (Outcome asserted) (sortedKeys groups.keys) merged := by
  have hmem : ∀ key ∈ sortedKeys groups.keys, key ∈ groups.keys := fun key => (List.mem_insertionSort _).mp
  generalize sortedKeys groups.keys = sorted at hmerged hmem
  induction hmerged with
  | nil => exact .nil
  | @cons key outcome keys outcomes hfirst _ ih =>
    exact .cons (mergeGroup_outcome h (hmem key List.mem_cons_self) hfirst)
      (ih fun key hkey => hmem key (List.mem_cons_of_mem _ hkey))

theorem Disputed.not_agreed {asserted : List Asserted} {c : Conflict} (h : Disputed asserted c) :
    ¬ ∃ bytes, ∀ a ∈ asserted, a.key = c.key → canonicalize a.value = .ok bytes := by
  obtain ⟨encodings, hsorted, hlength, hmem, -⟩ := h.alternatives
  rintro ⟨bytes, hall⟩
  have hevery : ∀ code ∈ encodings, code = bytes := by
    intro code hcode
    obtain ⟨ref, a, ha, hkey, hencoded, -⟩ := (hmem code).mp hcode
    rw [hall a ha hkey] at hencoded
    exact (Except.ok.inj hencoded).symm
  match encodings, hsorted, hlength, hevery with
  | first :: second :: rest, hsorted, _, hevery =>
    have hlt : first < second := (List.pairwise_cons.mp hsorted).1 second List.mem_cons_self
    rw [hevery first List.mem_cons_self, hevery second (List.mem_cons_of_mem _ List.mem_cons_self)] at hlt
    exact absurd hlt (lt_irrefl _)

theorem merges_of_outcomes {asserted : List Asserted} {groups : ClaimGroups} (h : Grouped asserted groups)
    {merged : List (Statement ⊕ Conflict)} (hall : List.Forall₂ (Outcome asserted) (sortedKeys groups.keys) merged) :
    Merges asserted ⟨merged.filterMap Sum.getLeft?, merged.filterMap Sum.getRight?⟩ := by
  have hkeys := map_of_forall₂ (f := id) (g := outcomeKey) (hall.imp fun _ _ => Outcome.key_eq)
  rw [List.map_id] at hkeys
  have hperm := split_perm merged
  rw [hkeys] at hperm
  have hsorted : (sortedKeys groups.keys).Perm groups.keys := List.perm_insertionSort _ _
  have hoccurs : ∀ key, key ∈ (merged.filterMap Sum.getLeft?).map Statement.key ++
      (merged.filterMap Sum.getRight?).map Conflict.key ↔ ∃ a ∈ asserted, a.key = key := fun key =>
    (hperm.trans hsorted).mem_iff.trans (h.keys key)
  have hagreed : ∀ s ∈ merged.filterMap Sum.getLeft?, Agreed asserted s := by
    intro s hs
    obtain ⟨outcome, houtcome, hleft⟩ := List.mem_filterMap.mp hs
    obtain ⟨key, -, hkey⟩ := exists_of_forall₂_right hall houtcome
    rw [Sum.getLeft?_eq_some_iff] at hleft
    subst hleft
    exact hkey.2
  have hdisputed : ∀ c ∈ merged.filterMap Sum.getRight?, Disputed asserted c := by
    intro c hc
    obtain ⟨outcome, houtcome, hright⟩ := List.mem_filterMap.mp hc
    obtain ⟨key, -, hkey⟩ := exists_of_forall₂_right hall houtcome
    rw [Sum.getRight?_eq_some_iff] at hright
    subst hright
    exact hkey.2
  refine ⟨(hperm.trans hsorted).nodup_iff.mpr groups.nodup, hoccurs, fun key => ?_, hagreed, hdisputed⟩
  constructor
  · intro hkey
    obtain ⟨s, hs, rfl⟩ := List.mem_map.mp hkey
    obtain ⟨bytes, -, hsame, -⟩ := (hagreed s hs).cited
    exact ⟨(hoccurs s.key).mp (List.mem_append_left _ hkey), bytes, hsame⟩
  · rintro ⟨hkey, hsame⟩
    rcases List.mem_append.mp ((hoccurs key).mpr hkey) with hmem | hmem
    · exact hmem
    · obtain ⟨c, hc, rfl⟩ := List.mem_map.mp hmem
      exact absurd hsame (hdisputed c hc).not_agreed

/-! ## The set of assertions decides -/

theorem supports_congr {asserted asserted' : List Asserted} (h : ∀ a, a ∈ asserted ↔ a ∈ asserted') {key : ClaimKey}
    {bytes : Bytes} {ref : PyStr} : Supports asserted key bytes ref ↔ Supports asserted' key bytes ref := by
  simp only [Supports, h]

theorem Cites.unique {asserted : List Asserted} {key : ClaimKey} {bytes : Bytes} {refs refs' : List PyStr}
    (h : Cites asserted key bytes refs) (h' : Cites asserted key bytes refs') : refs = refs' := by
  have hnodup := h.1.imp fun hlt => ne_of_lt hlt
  have hnodup' := h'.1.imp fun hlt => ne_of_lt hlt
  have hperm : refs.Perm refs' := (List.perm_ext_iff_of_nodup hnodup hnodup').mpr fun ref => (h.2 ref).trans (h'.2 ref).symm
  exact hperm.eq_of_pairwise (fun a b _ _ hab hba => absurd (lt_trans hab hba) (lt_irrefl a)) h.1 h'.1

theorem Outcome.congr {asserted asserted' : List Asserted} (h : ∀ a, a ∈ asserted ↔ a ∈ asserted') {key : ClaimKey}
    {outcome : Statement ⊕ Conflict} (houtcome : Outcome asserted key outcome) : Outcome asserted' key outcome := by
  cases outcome with
  | inl s =>
    obtain ⟨hkey, hvalue, hcited⟩ := houtcome
    simp only [Cites, supports_congr h, h] at hvalue hcited
    exact ⟨hkey, hvalue, hcited⟩
  | inr c =>
    obtain ⟨hkey, hid, halternatives⟩ := houtcome
    simp only [Cites, supports_congr h, h] at halternatives
    exact ⟨hkey, hid, halternatives⟩

theorem Outcome.unique {asserted : List Asserted} {key : ClaimKey} {outcome outcome' : Statement ⊕ Conflict}
    (h : Outcome asserted key outcome) (h' : Outcome asserted key outcome') :
    Sum.LiftRel SameStatement SameConflict outcome outcome' := by
  cases outcome with
  | inl s =>
    obtain ⟨hkey, ⟨a, ha, hakey, -⟩, bytes, hbytes, hall, hcites⟩ := h
    cases outcome' with
    | inl t =>
      obtain ⟨hkey', -, bytes', hbytes', hall', hcites'⟩ := h'
      have hsame : bytes = bytes' := Except.ok.inj
        ((hall a ha hakey).symm.trans (hall' a ha (by rw [hakey, hkey, hkey'])))
      subst hsame
      rw [hkey] at hcites
      rw [hkey'] at hcites'
      exact .inl ⟨hkey.trans hkey'.symm, ⟨bytes, hbytes, hbytes'⟩, hcites.unique hcites'⟩
    | inr c =>
      refine absurd ⟨bytes, fun b hb hbkey => hall b hb ?_⟩ h'.2.not_agreed
      rw [hbkey, h'.1, hkey]
  | inr c =>
    cases outcome' with
    | inl t =>
      obtain ⟨hkey', -, bytes, -, hall, -⟩ := h'
      refine absurd ⟨bytes, fun b hb hbkey => hall b hb ?_⟩ h.2.not_agreed
      rw [hbkey, h.1, hkey']
    | inr d =>
      obtain ⟨hkey, hid, encodings, hsorted, -, hmem, halternatives⟩ := h
      obtain ⟨hkey', hid', encodings', hsorted', -, hmem', halternatives'⟩ := h'
      rw [hkey] at hid hmem halternatives
      rw [hkey'] at hid' hmem' halternatives'
      have hperm : encodings.Perm encodings' :=
        (List.perm_ext_iff_of_nodup (hsorted.imp fun hlt => ne_of_lt hlt) (hsorted'.imp fun hlt => ne_of_lt hlt)).mpr
          fun bytes => (hmem bytes).trans (hmem' bytes).symm
      have hsame : encodings = encodings' :=
        hperm.eq_of_pairwise (fun a b _ _ hab hba => absurd (lt_trans hab hba) (lt_irrefl a)) hsorted hsorted'
      subst hsame
      refine .inr ⟨hkey.trans hkey'.symm, Except.ok.inj (hid.symm.trans hid'), ?_⟩
      refine forall₂_of_common halternatives halternatives' ?_
      rintro bytes a b ⟨ha, -, hcites⟩ ⟨hb, -, hcites'⟩
      exact ⟨⟨bytes, ha, hb⟩, hcites.unique hcites'⟩

/-- Merging goes through where every value can be encoded and every disputed key identified. -/
theorem mergeClaims_returns {sources : List ClaimSource}
    (hencoded : ∀ a ∈ assertionsOf sources, ∃ bytes, canonicalize a.value = .ok bytes)
    (hidentified : ∀ a ∈ assertionsOf sources,
      (∃ bytes, ∀ b ∈ assertionsOf sources, b.key = a.key → canonicalize b.value = .ok bytes) ∨
        ∃ conflictId, keyId a.key = .ok conflictId) : ∃ result, mergeClaims sources = .ok result := by
  have hitems := mapM_ok (l := assertionsOf sources) (f := itemOf)
    (g := fun a => ⟨a.key, (canonicalize a.value).toOption.getD [], a.value, a.ref⟩) fun a ha => by
      obtain ⟨bytes, hbytes⟩ := hencoded a ha
      rw [hbytes]
      exact itemOf_eq_ok.2 ⟨rfl, hbytes, rfl, rfl⟩
  obtain ⟨groups, hgroups⟩ : ∃ groups, (assertionsOf sources).foldlM addAssertion .empty = .ok groups :=
    ⟨_, foldlM_addAssertion.2 ⟨_, hitems, rfl⟩⟩
  have hgrouped := grouped_of_foldlM hgroups
  have hreturns : ∀ key ∈ sortedKeys groups.keys, ∃ outcome,
      mergeGroup key ((groups.get? key).getD .empty) = .ok outcome := by
    intro key hkey
    have hmem : key ∈ groups.keys := (List.mem_insertionSort _).mp hkey
    obtain ⟨values, hvalues⟩ := (Dict.mem_keys_iff groups key).mp hmem
    obtain ⟨a, ha, rfl⟩ := (hgrouped.keys key).mp hmem
    refine mergeGroup_returns _ ((hidentified a ha).imp_left ?_)
    rintro ⟨bytes, hall⟩
    rw [hvalues, Option.getD_some]
    -- the one encoding is the only code of the group
    have honly : ∀ code ∈ values.keys, code = bytes := by
      intro code hcode
      obtain ⟨ref, b, hb, hbkey, hencoded, -⟩ := (hgrouped.codes a.key values hvalues code).mp hcode
      exact Except.ok.inj (hencoded.symm.trans (hall b hb hbkey))
    obtain ⟨code, hcode, -⟩ := supports_of_mem hgrouped hvalues ha rfl
    have hnodup := values.nodup
    match hentries : values.entries with
    | [] =>
      rw [Dict.keys, hentries] at hcode
      cases hcode
    | [(first, support)] => exact ⟨first, support, rfl⟩
    | first :: second :: rest =>
      rw [Dict.keys, hentries] at honly
      rw [hentries] at hnodup
      have hfirst := honly first.1 List.mem_cons_self
      have hsecond := honly second.1 (List.mem_cons_of_mem _ List.mem_cons_self)
      exact absurd (List.mem_cons.mpr (Or.inl (hfirst.trans hsecond.symm))) (List.nodup_cons.mp hnodup).1
  have hmerged : ∃ merged, List.Forall₂ (fun key outcome => mergeGroup key ((groups.get? key).getD .empty) = .ok outcome)
      (sortedKeys groups.keys) merged := by
    generalize sortedKeys groups.keys = keys at hreturns
    induction keys with
    | nil => exact ⟨[], .nil⟩
    | cons key keys ih =>
      obtain ⟨outcome, houtcome⟩ := hreturns key List.mem_cons_self
      obtain ⟨outcomes, houtcomes⟩ := ih fun k hk => hreturns k (List.mem_cons_of_mem _ hk)
      exact ⟨outcome :: outcomes, .cons houtcome houtcomes⟩
  obtain ⟨merged, hmerged⟩ := hmerged
  exact ⟨_, mergeClaims_eq_ok.2 ⟨groups, merged, hgroups, hmerged, rfl⟩⟩

theorem mergeClaims_congr {sources sources' : List ClaimSource}
    (h : ∀ a, a ∈ assertionsOf sources' ↔ a ∈ assertionsOf sources) {result : MergeResult}
    (hresult : mergeClaims sources = .ok result) :
    ∃ result', mergeClaims sources' = .ok result' ∧ SameResult result result' := by
  obtain ⟨groups, merged, hgroups, hmerged, rfl⟩ := mergeClaims_eq_ok.1 hresult
  have hgrouped := grouped_of_foldlM hgroups
  have houtcomes := outcomes_of_merge hgrouped hmerged
  have hreturns : ∃ result', mergeClaims sources' = .ok result' := by
    refine mergeClaims_returns (fun a ha => hgrouped.encoded a ((h a).mp ha)) fun a ha => ?_
    have hkey : a.key ∈ sortedKeys groups.keys :=
      (List.mem_insertionSort _).mpr ((hgrouped.keys a.key).mpr ⟨a, (h a).mp ha, rfl⟩)
    obtain ⟨outcome, -, houtcome⟩ := exists_of_forall₂_left houtcomes hkey
    cases outcome with
    | inl s =>
      obtain ⟨hskey, -, bytes, -, hall, -⟩ := houtcome
      exact Or.inl ⟨bytes, fun b hb hbkey => hall b ((h b).mp hb) (hbkey.trans hskey.symm)⟩
    | inr c =>
      obtain ⟨hckey, hid, -⟩ := houtcome
      exact Or.inr ⟨c.conflictId, hckey ▸ hid⟩
  obtain ⟨result', hresult'⟩ := hreturns
  refine ⟨result', hresult', ?_⟩
  obtain ⟨groups', merged', hgroups', hmerged', rfl⟩ := mergeClaims_eq_ok.1 hresult'
  have hgrouped' := grouped_of_foldlM hgroups'
  have houtcomes' := (outcomes_of_merge hgrouped' hmerged').imp fun _ _ => Outcome.congr h
  have hkeys : groups'.keys.Perm groups.keys := by
    refine (List.perm_ext_iff_of_nodup groups'.nodup groups.nodup).mpr fun key => ?_
    rw [← Dict.keys, ← Dict.keys, hgrouped'.keys, hgrouped.keys]
    simp only [h]
  rw [sortedKeys_eq_of_perm hkeys] at houtcomes'
  have hsame := forall₂_of_common houtcomes houtcomes' fun _ _ _ => Outcome.unique
  refine ⟨List.rel_filterMap ?_ hsame, List.rel_filterMap ?_ hsame⟩
  · rintro _ _ (hs | hc)
    · exact .some hs
    · exact .none
  · rintro _ _ (hs | hc)
    · exact .none
    · exact .some hc

/-! ## Parsed assertions -/

theorem serialize_memberOf {es : List (MappingKey × PyValue)} {text : PyStr} (h : serialize (.mapping es) = .ok text)
    (name : String) : ∃ t, serialize (memberOf es name) = .ok t := by
  rw [memberOf]
  cases hfind : Dict.find es (.str (py name)) with
  | none => exact ⟨_, rfl⟩
  | some v => exact serialize_member h (Dict.mem_of_find hfind)

theorem serialize_item {items : List PyValue} {text : PyStr} (h : serialize (.list items) = .ok text) :
    ∀ item ∈ items, ∃ t, serialize item = .ok t := by
  rw [serialize] at h
  obtain ⟨parts, hparts, -⟩ := bind_eq_ok.1 h
  rw [serializeItems_eq] at hparts
  exact mapM_mem_ok hparts

theorem parseAssertion_encoded {entry : PyValue} {text : PyStr} (htext : serialize entry = .ok text)
    {assertion : PyStr × PyStr × PyValue} (h : parseAssertion entry = .ok assertion) :
    Scalar assertion.1 ∧ Scalar assertion.2.1 ∧ ∃ bytes, canonicalize assertion.2.2 = .ok bytes := by
  unfold parseAssertion at h
  split at h
  · next es =>
    split at h
    · split at h
      · next c subject d attr hsubject hattr =>
        split_ifs at h
        cases h
        obtain ⟨t, ht⟩ := serialize_memberOf htext "subject"
        obtain ⟨u, hu⟩ := serialize_memberOf htext "attribute"
        obtain ⟨w, hw⟩ := serialize_memberOf htext "value"
        rw [hsubject] at ht
        rw [hattr] at hu
        exact ⟨scalar_of_serialize ht, scalar_of_serialize hu, _, canonicalize_eq_ok.2 ⟨w, hw, rfl⟩⟩
      · cases h
    · cases h
  · cases h

theorem parseAssertions_encoded {payload : Bytes} {assertions : List (PyStr × PyStr × PyValue)}
    (h : parseAssertions payload = .ok assertions) :
    ∀ a ∈ assertions, Scalar a.1 ∧ Scalar a.2.1 ∧ ∃ bytes, canonicalize a.2.2 = .ok bytes := by
  unfold parseAssertions at h
  split at h
  · cases h
  · next es hload =>
    have htext : ∃ text, serialize (.mapping es) = .ok text := by
      unfold loadIJson at hload
      split at hload
      · cases hload
      · cases hload
      · obtain ⟨bytes, hbytes, hsame⟩ := bind_eq_ok.1 hload
        cases hsame
        obtain ⟨text, htext, -⟩ := canonicalize_eq_ok.1 hbytes
        exact ⟨text, htext⟩
    obtain ⟨text, htext⟩ := htext
    split_ifs at h
    split at h
    · next entry raw hraw =>
      obtain ⟨t, ht⟩ := serialize_memberOf htext "assertions"
      rw [hraw] at ht
      intro a ha
      obtain ⟨item, hitem, hparsed⟩ := exists_of_forall₂_right (forall₂_of_mapM.1 h) ha
      obtain ⟨u, hu⟩ := serialize_item ht item hitem
      exact parseAssertion_encoded hu hparsed
    · cases h
  · cases h

theorem keyId_returns {key : ClaimKey} (hsubject : Scalar key.1) (hattr : Scalar key.2) :
    ∃ conflictId, keyId key = .ok conflictId := by
  have hjson : IJson (fields [("subject", some (.str key.1)), ("attribute", some (.str key.2))]) :=
    iJson_fields (by simp) (by simp [hsubject, hattr])
  rw [keyId, digestOf, canonicalize_eq hjson]
  exact ⟨_, rfl⟩

theorem mergeClaims_parsed {sources : List ClaimSource}
    (h : ∀ source ∈ sources, ∃ payload, parseAssertions payload = .ok source.assertions) :
    ∃ result, mergeClaims sources = .ok result := by
  have hall : ∀ a ∈ assertionsOf sources, Scalar a.key.1 ∧ Scalar a.key.2 ∧ ∃ bytes, canonicalize a.value = .ok bytes := by
    intro a ha
    obtain ⟨source, hsource, ha⟩ := List.mem_flatMap.mp ha
    obtain ⟨assertion, hassertion, rfl⟩ := List.mem_map.mp ha
    obtain ⟨payload, hpayload⟩ := h source hsource
    exact parseAssertions_encoded hpayload assertion hassertion
  refine mergeClaims_returns (fun a ha => (hall a ha).2.2) fun a ha => Or.inr ?_
  obtain ⟨hsubject, hattr, -⟩ := hall a ha
  exact keyId_returns hsubject hattr

/-- **A merge keeps everything and votes on nothing.** Parsed sources always merge. Every key that is asserted
is there once, agreed or with one alternative for each canonical value, each with exactly the versions that
assert it; and sources that assert the same, in whatever order and number, merge alike. -/
theorem merge_keeps_everything :
    (∀ sources : List ClaimSource, (∀ source ∈ sources, ∃ payload, parseAssertions payload = .ok source.assertions) →
      ∃ result, mergeClaims sources = .ok result) ∧
    ∀ (sources : List ClaimSource) (result : MergeResult), mergeClaims sources = .ok result →
      Merges (assertionsOf sources) result ∧
        ∀ sources' : List ClaimSource, (∀ a, a ∈ assertionsOf sources' ↔ a ∈ assertionsOf sources) →
          ∃ result', mergeClaims sources' = .ok result' ∧ SameResult result result' := by
  refine ⟨fun sources => mergeClaims_parsed, fun sources result hresult => ⟨?_, fun sources' h => ?_⟩⟩
  · obtain ⟨groups, merged, hgroups, hmerged, rfl⟩ := mergeClaims_eq_ok.1 hresult
    have hgrouped := grouped_of_foldlM hgroups
    exact merges_of_outcomes hgrouped (outcomes_of_merge hgrouped hmerged)
  · exact mergeClaims_congr h hresult

/-! ### Two versions that write one number differently -/

def samplePayload (value : String) : Bytes :=
  utf8Encode (py "\x7b\"assertions\":[\x7b\"subject\":\"s\",\"attribute\":\"a\",\"value\":" ++ py value ++ py "\x7d]\x7d")

def sampleSource (ref : String) (value : PyValue) : ClaimSource where
  versionRef := py ref
  itemDigest := py "item"
  contentDigest := py "content"
  confidence := .ofInt 1
  assertions := [(py "s", py "a", value)]

def wholeSource : ClaimSource := sampleSource "v1" (.int 1)
def pointSource : ClaimSource := sampleSource "v2" (.float (.ofInt 1))

theorem sources_parsed : parseAssertions (samplePayload "1") = .ok wholeSource.assertions ∧
    parseAssertions (samplePayload "1.0") = .ok pointSource.assertions := by
  decide +kernel

theorem merge_keeps_everything_sample :
    ∃ result, mergeClaims [wholeSource, pointSource] = .ok result ∧
      Merges (assertionsOf [wholeSource, pointSource]) result ∧
        ∃ result', mergeClaims [pointSource, wholeSource, pointSource] = .ok result' ∧ SameResult result result' := by
  obtain ⟨result, hresult⟩ := merge_keeps_everything.1 [wholeSource, pointSource] (by
    intro source hsource
    rcases List.mem_pair.mp hsource with rfl | rfl
    · exact ⟨_, sources_parsed.1⟩
    · exact ⟨_, sources_parsed.2⟩)
  obtain ⟨hmerges, hsame⟩ := merge_keeps_everything.2 _ result hresult
  refine ⟨result, hresult, hmerges, hsame [pointSource, wholeSource, pointSource] fun a => ?_⟩
  simp only [assertionsOf, List.flatMap_cons, List.flatMap_nil, List.mem_append, List.not_mem_nil, or_false]
  tauto

end OcorRuntime.Memory
