import OcorRuntime.Foundations.Run
import OcorRuntime.Identity.Registry

/-! Registering identities one by one (`IdentityRegistry.register`). The record is kept before
its aliases are normalized, so a blank alias leaves it half registered; a registry that never
meets one has every identifier of every record in its index. -/
namespace OcorRuntime.Identity
set_option autoImplicit false
set_option maxHeartbeats 250000

/-- `RESERVED_PRINCIPAL_ATTRIBUTES`. -/
def reservedPrincipalAttributes : List PyStr := [py "principal_kind", py "status", py "roles"]

/-- `RESERVED_PRINCIPAL_ATTRIBUTES & set(record.attributes)` is not empty. -/
def IdentityRecord.Reserved (record : IdentityRecord) : Prop :=
  ∃ name ∈ reservedPrincipalAttributes, match record.attributes with
    | .mapping entries => MappingKey.str name ∈ entries.map Prod.fst
    | _ => False

instance (record : IdentityRecord) : Decidable record.Reserved := by
  unfold IdentityRecord.Reserved
  cases record.attributes <;> infer_instance

namespace IdentityRegistry
variable (u : UnicodeData)

def register (record : IdentityRecord) : Op IdentityRegistry PyError IdentityRecord := do
  let r ← Op.read
  Op.lift (refuseIf (r.records.get? record.canonicalId = none ∧ record.Reserved)
    ⟨.identityRegistrationDenied,
      "IDENTITY_PRIVILEGED_RECORD_REQUIRES_PROVISIONING: new identity %r carries reserved principal attributes",
      [.text record.canonicalId]⟩)
  store u record

def addAlias (canonicalId aliasText : PyStr) : Op IdentityRegistry PyError Unit := do
  let normalized ← Op.lift (normalizeIdentifier u aliasText)
  let r ← Op.read
  Op.lift (refuseIf (r.records.get? canonicalId = none) ⟨.keyError, "%r", [.text canonicalId]⟩)
  Op.update fun r => { r with aliases := r.aliases.set normalized ((r.bound normalized).insert canonicalId) }

/-! ## One registration -/

/-- Every identifier of the record leads to it. -/
def Resolves (r : IdentityRegistry) (record : IdentityRecord) : Prop :=
  ∀ x ∈ record.identifiers, ∃ found, r.candidates u x = .ok found ∧ record.canonicalId ∈ found

/-- The registration returns with the record kept and every identifier leading to it, or raises and changes nothing. -/
def Atomic (r : IdentityRegistry) (record : IdentityRecord) : Prop :=
  match register u record r with
  | (.ok stored, r') => r'.get record.canonicalId = some stored ∧ stored.pyEq record = true ∧ r'.Resolves u record
  | (.error _, r') => r' = r

/-- No identifier of the record is blank. -/
def Named (record : IdentityRecord) : Prop := ∀ x ∈ record.identifiers, strip x ≠ []

variable {u} {r : IdentityRegistry} {record : IdentityRecord}

theorem normalizeIdentifier_returns {x : PyStr} :
    (∃ n, normalizeIdentifier u x = .ok n) ↔ strip x ≠ [] := by
  unfold normalizeIdentifier
  constructor
  · rintro ⟨n, h⟩
    obtain ⟨_, h, -⟩ := bind_eq_ok.1 h
    exact refuseIf_eq_ok.1 h
  · intro h
    exact ⟨_, bind_eq_ok.2 ⟨(), refuseIf_eq_ok.2 h, rfl⟩⟩

theorem normalizeAll_returns {items : List PyStr} :
    (∃ normalized, normalizeAll u items = .ok normalized) ↔ ∀ x ∈ items, strip x ≠ [] := by
  induction items with
  | nil => exact ⟨fun _ x hx => absurd hx List.not_mem_nil, fun _ => ⟨[], rfl⟩⟩
  | cons x items ih =>
    rw [List.forall_mem_cons, ← ih, ← normalizeIdentifier_returns (u := u)]
    constructor
    · rintro ⟨normalized, h⟩
      obtain ⟨n, hn, h⟩ := bind_eq_ok.1 h
      obtain ⟨others, hothers, -⟩ := bind_eq_ok.1 h
      exact ⟨⟨n, hn⟩, others, hothers⟩
    · rintro ⟨⟨n, hn⟩, others, hothers⟩
      exact ⟨n :: others, bind_eq_ok.2 ⟨n, hn, bind_eq_ok.2 ⟨others, hothers, rfl⟩⟩⟩

theorem mem_candidates {x n : PyStr} (hn : normalizeIdentifier u x = .ok n) {id : PyStr} :
    (∃ found, r.candidates u x = .ok found ∧ id ∈ found) ↔ id ∈ r.bound n := by
  constructor
  · rintro ⟨found, hfound, hmem⟩
    obtain ⟨m, hm, rfl⟩ := candidates_eq_ok.1 hfound
    cases hn.symm.trans hm
    exact (List.mem_insertionSort _).mp hmem
  · intro hmem
    exact ⟨_, candidates_eq_ok.2 ⟨n, hn, rfl⟩, (List.mem_insertionSort _).mpr hmem⟩

theorem bindAll_records (id : PyStr) (items : List PyStr) (r : IdentityRegistry) :
    (bindAll u id items r).2.records = r.records := by
  induction items generalizing r with
  | nil => rfl
  | cons x items ih =>
    have hbind : (bind u id x r).2.records = r.records := by
      unfold IdentityRegistry.bind
      cases normalizeIdentifier u x <;> rfl
    rw [bindAll]
    rcases hrun : bind u id x r with ⟨outcome, r₁⟩
    rw [hrun] at hbind
    cases outcome with
    | ok a => rw [Op.bind_of_ok hrun, ih, hbind]
    | error e => rw [Op.bind_of_error hrun, hbind]

theorem register_of_known {existing : IdentityRecord} (h : r.get record.canonicalId = some existing) :
    register u record r =
      if existing.pyEq record = false then
        (.error ⟨.identityConflictError, "canonical identity %r is immutable", [.text record.canonicalId]⟩, r)
      else (.ok existing, r) := by
  have hget : r.records.get? record.canonicalId = some existing := h
  unfold register store
  rw [Op.read_bind, refuseIf, if_neg (by rw [hget]; simp), Op.lift_ok_bind, Op.read_bind, hget]
  dsimp only
  unfold refuseIf
  split_ifs
  · rw [Op.lift_error_bind]
  · rw [Op.lift_ok_bind]
    rfl

theorem register_of_reserved (h : r.get record.canonicalId = none) (hreserved : record.Reserved) :
    ∃ e, register u record r = (.error e, r) := by
  have hget : r.records.get? record.canonicalId = none := h
  unfold register
  rw [Op.read_bind, refuseIf, if_pos ⟨hget, hreserved⟩, Op.lift_error_bind]
  exact ⟨_, rfl⟩

theorem register_of_new (hreserved : ¬ record.Reserved) :
    register u record r = store u record r := by
  unfold register
  rw [Op.read_bind, refuseIf, if_neg fun hboth => hreserved hboth.2, Op.lift_ok_bind]

/-- A new record with named identifiers is stored, and its identifiers lead to it. -/
theorem store_named (h : r.get record.canonicalId = none) (hnamed : Named record) :
    ∃ r', store u record r = (.ok record, r') ∧ r'.get record.canonicalId = some record ∧ r'.Resolves u record := by
  obtain ⟨normalized, hall⟩ := normalizeAll_returns (u := u).mpr hnamed
  obtain ⟨r', hrun, hrecords, hbound⟩ := bindAll_returns record.canonicalId hall
    { r with records := r.records.set record.canonicalId record }
  have hget : r.records.get? record.canonicalId = none := h
  refine ⟨r', ?_, ?_, fun x hx => ?_⟩
  · unfold store
    rw [Op.read_bind, hget]
    dsimp only
    rw [Op.update_bind, Op.bind_of_ok hrun]
    rfl
  · rw [get, hrecords]
    exact Dict.get?_set_self _ _ _
  · obtain ⟨n, hmem, hn⟩ := normalized_of_mem hall hx
    rw [mem_candidates hn, hbound, if_pos hmem]
    exact List.mem_insert_self

theorem store_blank (h : r.get record.canonicalId = none) (hblank : ¬ Named record) :
    ∃ e r', store u record r = (.error e, r') ∧ r'.get record.canonicalId = some record := by
  have hget : r.records.get? record.canonicalId = none := h
  rcases hrun : bindAll u record.canonicalId record.identifiers
      { r with records := r.records.set record.canonicalId record } with ⟨outcome, r'⟩
  have hrecords := bindAll_records (u := u) record.canonicalId record.identifiers
    { r with records := r.records.set record.canonicalId record }
  rw [hrun] at hrecords
  cases outcome with
  | ok a => exact absurd (normalizeAll_returns.1 (normalizeAll_of_bindAll hrun)) hblank
  | error e =>
    refine ⟨e, r', ?_, ?_⟩
    · unfold store
      rw [Op.read_bind, hget]
      dsimp only
      rw [Op.update_bind, Op.bind_of_error hrun]
    · unfold get
      rw [hrecords]
      exact Dict.get?_set_self _ _ _

theorem resolves_of_pyEq {existing : IdentityRecord} (h : existing.pyEq record = true) :
    r.Resolves u existing ↔ r.Resolves u record := by
  unfold IdentityRecord.pyEq at h
  simp only [Bool.and_eq_true, beq_iff_eq, decide_eq_true_iff] at h
  obtain ⟨⟨hid, hsub, hsup⟩, -⟩ := h
  have hmem : ∀ x, x ∈ existing.identifiers ↔ x ∈ record.identifiers := by
    intro x
    unfold IdentityRecord.identifiers
    rw [List.mem_cons, List.mem_cons, hid]
    exact or_congr_right ⟨fun hx => hsub hx, fun hx => hsup hx⟩
  unfold Resolves
  rw [hid]
  exact forall_congr' fun x => imp_congr_left (hmem x)

theorem pyEq_self (record : IdentityRecord) : record.pyEq record = true := by
  simp [IdentityRecord.pyEq, PyValue.fieldEq_self]

variable (u r record) in
/-- When a registration is atomic. -/
def RegistersCleanly : Prop :=
  match r.get record.canonicalId with
  | some existing => existing.pyEq record = true → r.Resolves u existing
  | none => record.Reserved ∨ Named record

theorem atomic_iff : Atomic u r record ↔ RegistersCleanly u r record := by
  unfold Atomic RegistersCleanly
  cases hget : r.get record.canonicalId with
  | some existing =>
    rw [register_of_known hget]
    dsimp only
    split_ifs with hdiffers
    · simp [hdiffers]
    · rw [Bool.not_eq_false] at hdiffers
      dsimp only
      rw [hget, resolves_of_pyEq hdiffers]
      simp [hdiffers]
  | none =>
    dsimp only
    by_cases hreserved : record.Reserved
    · obtain ⟨e, hrun⟩ := register_of_reserved (u := u) hget hreserved
      rw [hrun]
      simp [hreserved]
    · rw [register_of_new hreserved]
      by_cases hnamed : Named record
      · obtain ⟨r', hrun, hkept, hresolves⟩ := store_named (u := u) hget hnamed
        rw [hrun]
        simp [hkept, hresolves, hnamed, pyEq_self]
      · obtain ⟨e, r', hrun, hkept⟩ := store_blank (u := u) hget hnamed
        rw [hrun]
        simp only [hreserved, hnamed, or_self, iff_false]
        rintro rfl
        rw [hget] at hkept
        cases hkept

/-! ## Runs -/

/-- What reaches a registry that has been constructed. -/
inductive RegistryCall
  | register (record : IdentityRecord)
  | admitProvisioned (record : IdentityRecord)
  | addAlias (canonicalId aliasText : PyStr)

/-- The registry after a call, whether it returned or raised. -/
def step (u : UnicodeData) (r : IdentityRegistry) : RegistryCall → IdentityRegistry
  | .register record => (register u record r).2
  | .admitProvisioned record => (IdentityRegistry.admitProvisioned u record r).2
  | .addAlias canonicalId aliasText => (IdentityRegistry.addAlias u canonicalId aliasText r).2

/-- The call stores no record with a blank identifier. -/
def Clean (r : IdentityRegistry) : RegistryCall → Prop
  | .register record => r.get record.canonicalId ≠ none ∨ record.Reserved ∨ Named record
  | .admitProvisioned record => r.get record.canonicalId ≠ none ∨ Named record
  | .addAlias _ _ => True

theorem store_of_known {existing : IdentityRecord} (h : r.get record.canonicalId = some existing) :
    (store u record r).2 = r := by
  have hget : r.records.get? record.canonicalId = some existing := h
  unfold store
  rw [Op.read_bind, hget]
  dsimp only
  unfold refuseIf
  split_ifs <;> rfl

theorem linked_store_iff (hr : r.Linked u) :
    (store u record r).2.Linked u ↔ r.get record.canonicalId ≠ none ∨ Named record := by
  cases hget : r.get record.canonicalId with
  | some existing =>
    rw [store_of_known hget]
    simp [hr]
  | none =>
    by_cases hnamed : Named record
    · obtain ⟨r', hrun, -, -⟩ := store_named (u := u) hget hnamed
      have hlinked := hr.store hrun
      rw [hrun]
      simp [hlinked, hnamed]
    · obtain ⟨e, r', hrun, hkept⟩ := store_blank (u := u) hget hnamed
      rw [hrun]
      simp only [hnamed, ne_eq, not_true_eq_false, or_self, iff_false]
      intro hlinked
      refine hnamed fun x hx => ?_
      obtain ⟨n, hn, -⟩ := (hlinked record.canonicalId record hkept).2 x hx
      exact normalizeIdentifier_returns.1 ⟨n, hn⟩

theorem Linked.addAlias (hr : r.Linked u) (canonicalId aliasText : PyStr) :
    (IdentityRegistry.addAlias u canonicalId aliasText r).2.Linked u := by
  unfold IdentityRegistry.addAlias
  cases hn : normalizeIdentifier u aliasText with
  | error e => exact hr
  | ok normalized =>
    rw [Op.lift_ok_bind, Op.read_bind, refuseIf]
    split_ifs
    · exact hr
    · rw [Op.lift_ok_bind]
      intro id known hknown
      obtain ⟨hself, hindex⟩ := hr id known hknown
      refine ⟨hself, fun x hx => ?_⟩
      obtain ⟨n, hname, hmem⟩ := hindex x hx
      refine ⟨n, hname, ?_⟩
      change id ∈ bound { r with aliases := r.aliases.set normalized ((r.bound normalized).insert canonicalId) } n
      rw [bound_set]
      split_ifs with hsame
      · exact List.mem_insert_of_mem (hsame ▸ hmem)
      · exact hmem

theorem linked_step_iff (hr : r.Linked u) (call : RegistryCall) : (step u r call).Linked u ↔ Clean r call := by
  cases call with
  | addAlias canonicalId aliasText => exact iff_true_intro (hr.addAlias canonicalId aliasText)
  | admitProvisioned record => exact linked_store_iff hr
  | register record =>
    unfold step Clean
    dsimp only
    cases hget : r.get record.canonicalId with
    | some existing =>
      rw [register_of_known hget]
      split_ifs <;> simp [hr]
    | none =>
      by_cases hreserved : record.Reserved
      · obtain ⟨e, hrun⟩ := register_of_reserved (u := u) hget hreserved
        rw [hrun]
        simp [hr, hreserved]
      · rw [register_of_new hreserved, linked_store_iff hr, hget]
        simp [hreserved]

/-- **A registration is atomic exactly when it meets no blank alias**: it returns with the record stored and every
identifier leading to it, or raises and changes nothing, unless the record is new, unprivileged and has a blank alias,
or was left half indexed before. The index of a registry covers its records throughout a run exactly when no step of
the run stores a record with a blank alias. -/
theorem register_atomic_iff (u : UnicodeData) :
    (∀ r record, Atomic u r record ↔ RegistersCleanly u r record) ∧
      ∀ seeds r, create u seeds = .ok r → ∀ calls : List RegistryCall,
        (∀ before after, calls = before ++ after → (run (step u) r before).Linked u) ↔ AllSteps (step u) Clean r calls := by
  refine ⟨fun r record => atomic_iff, fun seeds r hcreate calls => ?_⟩
  exact run_prefixes_iff (P := Linked u) (fun (_ : IdentityRegistry) (_ : RegistryCall) (_ : True) => trivial)
    (fun _ call _ hr => linked_step_iff hr call) trivial (linked_create hcreate) calls

/-! A record with a blank alias. -/

namespace BlankAlias

/-- Every character stands for itself. -/
def plain : UnicodeData where
  decomposition c := [c]
  combiningClass _ := 0
  composition _ _ := none
  caseFolding c := [c]

def named : IdentityRecord := ⟨py "a", [[]], .mapping [], by decide⟩

end BlankAlias

open BlankAlias in
theorem register_atomic_iff_named :
    (run (step plain) empty [.register ⟨py "b", [py "bee"], .mapping [], by decide⟩]).Linked plain := by
  have hnamed : Named ⟨py "b", [py "bee"], .mapping [], by decide⟩ := by
    unfold Named
    decide
  have hclean : AllSteps (step plain) Clean empty [.register ⟨py "b", [py "bee"], .mapping [], by decide⟩] :=
    ⟨.inr (.inr hnamed), trivial⟩
  exact ((register_atomic_iff plain).2 [] empty rfl _).mpr hclean _ [] (List.append_nil _).symm

open BlankAlias in
/-- The registration raises, and the record stays. -/
theorem register_keeps_blank_alias : ¬ ∀ (u : UnicodeData) (r : IdentityRegistry) (record : IdentityRecord),
    Atomic u r record := by
  intro h
  have hclean := atomic_iff.1 (h plain empty named)
  have hnamed : Named named := hclean.resolve_left (by decide)
  exact absurd rfl (hnamed [] (by decide))

end IdentityRegistry
end OcorRuntime.Identity
