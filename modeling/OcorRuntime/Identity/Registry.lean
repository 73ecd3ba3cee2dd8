import Mathlib.Data.List.Sort
import OcorRuntime.Canonical.Value
import OcorRuntime.Foundations.Normalization

/-! `IdentityRegistry` (`c2_identity.py`): immutable records by canonical identifier, and
the index from normalized identifiers to the identities they may name. The index grows
one identifier at a time; a record none of whose identifiers is bound adds itself to
each of them and to nothing else. -/
namespace OcorRuntime.Identity
set_option autoImplicit false
set_option maxHeartbeats 250000

/-! ## Records -/

structure IdentityRecord where
  canonicalId : PyStr
  /-- A frozen set. -/
  aliases : List PyStr
  attributes : PyValue
  named : strip canonicalId ≠ []

/-- `IdentityRecord(...)` with `__post_init__`. -/
def IdentityRecord.create (canonicalId : PyStr) (aliases : List PyStr) (attributes : PyValue) :
    Except PyError IdentityRecord := do
  let ⟨named⟩ ← require (strip canonicalId ≠ []) ⟨.valueError, "canonical_id must be a non-empty string", []⟩
  return { canonicalId, aliases, attributes, named }

/-- `(record.canonical_id, *record.aliases)`. -/
def IdentityRecord.identifiers (r : IdentityRecord) : List PyStr := r.canonicalId :: r.aliases

/-- `==` between two records. -/
def IdentityRecord.pyEq (a b : IdentityRecord) : Bool :=
  a.canonicalId == b.canonicalId && decide (a.aliases ⊆ b.aliases ∧ b.aliases ⊆ a.aliases) &&
    PyValue.fieldEq a.attributes b.attributes

/-! ## The registry -/

structure IdentityRegistry where
  records : Dict PyStr IdentityRecord
  /-- Sets of canonical identifiers. -/
  aliases : Dict PyStr (List PyStr)

section Registry
variable (u : UnicodeData)

def normalizeIdentifier (value : PyStr) : Except PyError PyStr := do
  refuseIf (strip value = []) ⟨.valueError, "identity identifier must be a non-empty string", []⟩
  return u.casefold (strip (u.nfkc value))

namespace IdentityRegistry

def get (r : IdentityRegistry) (canonicalId : PyStr) : Option IdentityRecord := r.records.get? canonicalId

/-- `self._aliases.get(normalized, ())`. -/
def bound (r : IdentityRegistry) (normalized : PyStr) : List PyStr := (r.aliases.get? normalized).getD []

def candidates (r : IdentityRegistry) (identifier : PyStr) : Except PyError (List PyStr) := do
  let normalized ← normalizeIdentifier u identifier
  return (r.bound normalized).insertionSort (· ≤ ·)

/-- `self._aliases.setdefault(normalize_identifier(identifier), set()).add(canonical_id)`. -/
def bind (canonicalId identifier : PyStr) : Op IdentityRegistry PyError Unit := do
  let normalized ← Op.lift (normalizeIdentifier u identifier)
  Op.update fun r => { r with aliases := r.aliases.set normalized ((r.bound normalized).insert canonicalId) }

def bindAll (canonicalId : PyStr) : List PyStr → Op IdentityRegistry PyError Unit
  | [] => pure ()
  | identifier :: rest => do
    bind u canonicalId identifier
    bindAll canonicalId rest

/-- `_store`. -/
def store (record : IdentityRecord) : Op IdentityRegistry PyError IdentityRecord := do
  let r ← Op.read
  match r.records.get? record.canonicalId with
  | some existing => do
    Op.lift (refuseIf (existing.pyEq record = false)
      ⟨.identityConflictError, "canonical identity %r is immutable", [.text record.canonicalId]⟩)
    return existing
  | none => do
    Op.update fun r => { r with records := r.records.set record.canonicalId record }
    bindAll u record.canonicalId record.identifiers
    return record

/-- `_admit_provisioned`. -/
def admitProvisioned (record : IdentityRecord) : Op IdentityRegistry PyError IdentityRecord := store u record

def empty : IdentityRegistry := ⟨.empty, .empty⟩

/-- `IdentityRegistry(records)`. -/
def create (records : List IdentityRecord) : Except PyError IdentityRegistry :=
  match Op.collect (store u) records empty with
  | (.ok _, r) => .ok r
  | (.error error, _) => .error error

end IdentityRegistry

/-! ## Normalized identifiers -/

/-- `{normalize_identifier(item) for item in items}`, or what the first blank item raises. -/
def normalizeAll : List PyStr → Except PyError (List PyStr)
  | [] => .ok []
  | item :: rest => do
    let normalized ← normalizeIdentifier u item
    let others ← normalizeAll rest
    return normalized :: others

attribute [local grind =] normalizeAll

variable {u}

theorem normalizeAll_eq_ok {items normalized : List PyStr} :
    normalizeAll u items = .ok normalized ↔ List.Forall₂ (fun x n => normalizeIdentifier u x = .ok n) items normalized := by
  induction items generalizing normalized with
  | nil =>
    rw [normalizeAll, List.forall₂_nil_left_iff, Except.ok.injEq, eq_comm]
  | cons x items ih =>
    rw [normalizeAll, bind_eq_ok, List.forall₂_cons_left_iff]
    constructor
    · rintro ⟨n, hn, hrest⟩
      obtain ⟨others, hothers, hall⟩ := bind_eq_ok.1 hrest
      exact ⟨n, others, hn, ih.mp hothers, (Except.ok.inj hall).symm⟩
    · rintro ⟨n, others, hn, hothers, rfl⟩
      exact ⟨n, hn, bind_eq_ok.2 ⟨others, ih.mpr hothers, rfl⟩⟩

theorem mem_normalizeAll {items normalized : List PyStr} (h : normalizeAll u items = .ok normalized) {m : PyStr} :
    m ∈ normalized ↔ ∃ x ∈ items, normalizeIdentifier u x = .ok m := by
  rw [normalizeAll_eq_ok] at h
  induction h with
  | nil => simp
  | @cons x n items normalized hn _ ih =>
    rw [List.mem_cons, ih, List.exists_mem_cons_iff, hn, Except.ok.injEq]
    exact or_congr_left eq_comm

theorem normalized_of_mem {items normalized : List PyStr} (h : normalizeAll u items = .ok normalized) {x : PyStr}
    (hx : x ∈ items) : ∃ n ∈ normalized, normalizeIdentifier u x = .ok n := by
  rw [normalizeAll_eq_ok] at h
  induction h with
  | nil => cases hx
  | @cons y n items normalized hn _ ih =>
    rcases List.mem_cons.mp hx with rfl | hx
    · exact ⟨n, List.mem_cons_self, hn⟩
    · obtain ⟨m, hm, hname⟩ := ih hx
      exact ⟨m, List.mem_cons_of_mem n hm, hname⟩

namespace IdentityRegistry
variable {r : IdentityRegistry}

theorem candidates_eq_ok {x : PyStr} {found : List PyStr} :
    r.candidates u x = .ok found ↔ ∃ n, normalizeIdentifier u x = .ok n ∧ (r.bound n).insertionSort (· ≤ ·) = found := by
  rw [candidates, bind_eq_ok]
  constructor
  · rintro ⟨n, hn, hfound⟩
    exact ⟨n, hn, Except.ok.inj hfound⟩
  · rintro ⟨n, hn, hfound⟩
    exact ⟨n, hn, congrArg Except.ok hfound⟩

theorem candidates_eq_nil {x : PyStr} :
    r.candidates u x = .ok [] ↔ ∃ n, normalizeIdentifier u x = .ok n ∧ r.bound n = [] := by
  rw [candidates_eq_ok]
  refine exists_congr fun n => and_congr_right fun _ => ?_
  rw [← List.length_eq_zero_iff, List.length_insertionSort, List.length_eq_zero_iff]

/-! ## Storing a new record -/

theorem bound_set (r : IdentityRegistry) (n : PyStr) (ids : List PyStr) (m : PyStr) :
    bound { r with aliases := r.aliases.set n ids } m = if n = m then ids else r.bound m := by
  rw [bound, Dict.get?_set]
  split_ifs
  · rfl
  · rfl

/-- Binding identifiers that can be normalized returns, and adds the identity to each of them. -/
theorem bindAll_returns (id : PyStr) {items normalized : List PyStr} (h : normalizeAll u items = .ok normalized)
    (r : IdentityRegistry) :
    ∃ r' : IdentityRegistry, bindAll u id items r = (.ok (), r') ∧ r'.records = r.records ∧
      ∀ m, r'.bound m = if m ∈ normalized then (r.bound m).insert id else r.bound m := by
  rw [normalizeAll_eq_ok] at h
  induction h generalizing r with
  | nil => exact ⟨r, rfl, rfl, fun m => rfl⟩
  | @cons x n items normalized hn _ ih =>
    have hbind : bind u id x r = (.ok (), { r with aliases := r.aliases.set n ((r.bound n).insert id) }) := by
      rw [bind, hn]
      rfl
    obtain ⟨r', hrun, hrecords, hbound⟩ := ih { r with aliases := r.aliases.set n ((r.bound n).insert id) }
    refine ⟨r', ?_, hrecords, fun m => ?_⟩
    · rw [bindAll, Op.bind_of_ok hbind]
      exact hrun
    · rw [hbound, bound_set]
      by_cases hm : m ∈ normalized
      · by_cases hnm : n = m
        · subst hnm
          simp [hm]
        · simp [hm, hnm]
      · by_cases hnm : n = m
        · subst hnm
          simp [hm]
        · simp [hm, hnm, Ne.symm hnm]

/-- `r'` is `r` with one record more, none of whose identifiers was bound. -/
structure Admits (u : UnicodeData) (r r' : IdentityRegistry) (record : IdentityRecord) : Prop where
  fresh : r.get record.canonicalId = none
  unbound : ∀ x ∈ record.identifiers, r.candidates u x = .ok []
  records : r'.records = r.records.set record.canonicalId record
  named : ∀ x ∈ record.identifiers, r'.candidates u x = .ok [record.canonicalId]
  others : ∀ m, (∀ x ∈ record.identifiers, normalizeIdentifier u x ≠ .ok m) → r'.bound m = r.bound m

theorem normalizeAll_of_candidates {items : List PyStr} (h : ∀ x ∈ items, r.candidates u x = .ok []) :
    ∃ normalized, normalizeAll u items = .ok normalized ∧ ∀ n ∈ normalized, r.bound n = [] := by
  induction items with
  | nil => exact ⟨[], rfl, fun n hn => absurd hn List.not_mem_nil⟩
  | cons x items ih =>
    obtain ⟨n, hn, hnone⟩ := candidates_eq_nil.1 (h x List.mem_cons_self)
    obtain ⟨normalized, hall, hnone'⟩ := ih fun y hy => h y (List.mem_cons_of_mem x hy)
    refine ⟨n :: normalized, ?_, List.forall_mem_cons.mpr ⟨hnone, hnone'⟩⟩
    rw [normalizeAll, hn, hall]
    rfl

theorem store_new {record : IdentityRecord} (hfresh : r.get record.canonicalId = none)
    (hunbound : ∀ x ∈ record.identifiers, r.candidates u x = .ok []) :
    ∃ r', store u record r = (.ok record, r') ∧ Admits u r r' record := by
  obtain ⟨normalized, hall, hnone⟩ := normalizeAll_of_candidates hunbound
  obtain ⟨r', hrun, hrecords, hbound⟩ := bindAll_returns record.canonicalId hall
    { r with records := r.records.set record.canonicalId record }
  have hsame : ∀ m, bound { r with records := r.records.set record.canonicalId record } m = r.bound m := fun m => rfl
  refine ⟨r', ?_, hfresh, hunbound, hrecords, ?_, ?_⟩
  · rw [store, Op.read_bind]
    have hget : r.records.get? record.canonicalId = none := hfresh
    rw [hget]
    dsimp only
    rw [Op.update_bind, Op.bind_of_ok hrun]
    rfl
  · intro x hx
    obtain ⟨n, hn, hempty⟩ := candidates_eq_nil.1 (hunbound x hx)
    refine candidates_eq_ok.2 ⟨n, hn, ?_⟩
    rw [hbound, if_pos ((mem_normalizeAll hall).mpr ⟨x, hx, hn⟩), hsame, hempty]
    rfl
  · intro m hm
    rw [hbound, if_neg fun h => ?_, hsame]
    obtain ⟨x, hx, hn⟩ := (mem_normalizeAll hall).mp h
    exact hm x hx hn

theorem normalizeAll_of_bindAll {id : PyStr} {items : List PyStr} {r' : IdentityRegistry}
    (h : bindAll u id items r = (.ok (), r')) : ∃ normalized, normalizeAll u items = .ok normalized := by
  induction items generalizing r with
  | nil => exact ⟨[], rfl⟩
  | cons x items ih =>
    obtain ⟨_, r₁, hbind, hrest⟩ := Op.bind_eq_ok.1 h
    obtain ⟨n, _, hlift, -⟩ := Op.bind_eq_ok.1 hbind
    obtain ⟨normalized, hall⟩ := ih hrest
    refine ⟨n :: normalized, ?_⟩
    rw [normalizeAll, (Op.lift_eq_ok.1 hlift).1, hall]
    rfl

/-! ## The index covers the records -/

/-- Every record is kept under its identifier, and every identifier of it is bound to it. -/
def Linked (u : UnicodeData) (r : IdentityRegistry) : Prop :=
  ∀ id record, r.get id = some record → record.canonicalId = id ∧
    ∀ x ∈ record.identifiers, ∃ n, normalizeIdentifier u x = .ok n ∧ id ∈ r.bound n

theorem Linked.store {record stored : IdentityRecord} {r' : IdentityRegistry} (hr : r.Linked u)
    (h : store u record r = (.ok stored, r')) : r'.Linked u := by
  rw [IdentityRegistry.store, Op.read_bind] at h
  cases hget : r.records.get? record.canonicalId with
  | some existing =>
    rw [hget] at h
    obtain ⟨_, r₁, hcheck, hpure⟩ := Op.bind_eq_ok.1 h
    cases hpure
    obtain ⟨-, rfl⟩ := Op.lift_eq_ok.1 hcheck
    exact hr
  | none =>
    rw [hget] at h
    dsimp only at h
    rw [Op.update_bind] at h
    obtain ⟨_, r₁, hbind, hpure⟩ := Op.bind_eq_ok.1 h
    cases hpure
    obtain ⟨normalized, hall⟩ := normalizeAll_of_bindAll hbind
    obtain ⟨r₂, hrun, hrecords, hbound⟩ := bindAll_returns record.canonicalId hall
      { r with records := r.records.set record.canonicalId record }
    cases hrun.symm.trans hbind
    have hbound' : ∀ m, r'.bound m = if m ∈ normalized then (r.bound m).insert record.canonicalId else r.bound m := hbound
    intro id known hknown
    rw [get, hrecords, Dict.get?_set] at hknown
    split_ifs at hknown with hid
    · cases hknown
      subst hid
      refine ⟨rfl, fun x hx => ?_⟩
      obtain ⟨n, hmem, hname⟩ := normalized_of_mem hall hx
      refine ⟨n, hname, ?_⟩
      rw [hbound', if_pos hmem]
      exact List.mem_insert_self
    · obtain ⟨hself, hindex⟩ := hr id known hknown
      refine ⟨hself, fun x hx => ?_⟩
      obtain ⟨n, hn, hmem⟩ := hindex x hx
      refine ⟨n, hn, ?_⟩
      rw [hbound']
      split_ifs
      · exact List.mem_insert_of_mem hmem
      · exact hmem

theorem Linked.collect {records stored : List IdentityRecord} {r' : IdentityRegistry} (hr : r.Linked u)
    (h : Op.collect (IdentityRegistry.store u) records r = (.ok stored, r')) : r'.Linked u := by
  induction records generalizing r stored with
  | nil =>
    cases h
    exact hr
  | cons record records ih =>
    obtain ⟨first, r₁, hfirst, h⟩ := Op.bind_eq_ok.1 h
    obtain ⟨rest, r₂, hrest, h⟩ := Op.bind_eq_ok.1 h
    cases h
    exact ih (hr.store hfirst) hrest

theorem linked_create {records : List IdentityRecord} (h : create u records = .ok r) : r.Linked u := by
  have hempty : empty.Linked u := fun id record hget => by cases hget
  unfold create at h
  rcases hrun : Op.collect (store u) records empty with ⟨_ | stored, r'⟩
  · rw [hrun] at h
    cases h
  · rw [hrun] at h
    cases h
    exact hempty.collect hrun

/-- Every normalized identifier names at most one identity. -/
def Unambiguous (r : IdentityRegistry) : Prop := ∀ m, (r.bound m).length ≤ 1

theorem Admits.unambiguous {r' : IdentityRegistry} {record : IdentityRecord} (h : Admits u r r' record)
    (hr : r.Unambiguous) : r'.Unambiguous := by
  intro m
  by_cases hm : ∃ x ∈ record.identifiers, normalizeIdentifier u x = .ok m
  · obtain ⟨x, hx, hn⟩ := hm
    obtain ⟨n, hn', hsorted⟩ := candidates_eq_ok.1 (h.named x hx)
    cases hn.symm.trans hn'
    rw [← List.length_insertionSort (· ≤ ·) (r'.bound m), hsorted]
    rfl
  · rw [h.others m fun x hx hn => hm ⟨x, hx, hn⟩]
    exact hr m

end IdentityRegistry
end Registry
end OcorRuntime.Identity
