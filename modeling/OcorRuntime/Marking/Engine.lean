import OcorRuntime.Marking.Scheme

/-! The marking engine (`c4_marking.py`): products of marking lattices. A scheme a
marking set does not name counts as bottom when sets are joined, and as a denial when
a clearance does not name it. -/
namespace OcorRuntime.Marking
set_option autoImplicit false
set_option maxHeartbeats 250000

structure MarkingSet where
  values : Dict PyStr PyStr

/-- Equality of marking sets: mappings compare without regard to order. -/
def MarkingSet.Same (a b : MarkingSet) : Prop := ∀ schemeId, a.values.get? schemeId = b.values.get? schemeId

structure MarkingEngine where
  schemes : Dict PyStr MarkingSchemeDefinition
  nonempty : schemes.entries ≠ []
  keyed : ∀ schemeId scheme, schemes.get? schemeId = some scheme → scheme.schemeId = schemeId

namespace MarkingEngine

/-- `{scheme.scheme_id: scheme for scheme in definitions}`. -/
def schemeMapping (definitions : List MarkingSchemeDefinition) : Dict PyStr MarkingSchemeDefinition :=
  definitions.foldl (fun mapping scheme => mapping.set scheme.schemeId scheme) .empty

theorem schemeMapping_keyed (definitions : List MarkingSchemeDefinition) (schemeId : PyStr)
    (scheme : MarkingSchemeDefinition) (h : (schemeMapping definitions).get? schemeId = some scheme) :
    scheme.schemeId = schemeId := by
  have hfold : ∀ (l : List MarkingSchemeDefinition) (d : Dict PyStr MarkingSchemeDefinition),
      (∀ k s, d.get? k = some s → s.schemeId = k) →
      ∀ k s, (l.foldl (fun mapping scheme => mapping.set scheme.schemeId scheme) d).get? k = some s → s.schemeId = k := by
    intro l
    induction l with
    | nil => exact fun d hd => hd
    | cons x l ih =>
      intro d hd
      refine ih (d.set x.schemeId x) fun k s hs => ?_
      rw [Dict.get?_set] at hs
      split_ifs at hs with hk
      · cases hs
        exact hk
      · exact hd k s hs
  exact hfold definitions .empty (by simp) schemeId scheme h

/-- `MarkingEngine(schemes)`. -/
def create (definitions : List MarkingSchemeDefinition) : Except PyError MarkingEngine :=
  if h : (schemeMapping definitions).entries = [] then
    .error (markingError "at least one marking scheme is required" [])
  else if (schemeMapping definitions).entries.length ≠ definitions.length then
    .error (markingError "marking scheme identifiers must be unique" [])
  else .ok ⟨schemeMapping definitions, h, schemeMapping_keyed definitions⟩

/-- The label checks of `validate`. -/
def requireKnown (e : MarkingEngine) : List (PyStr × PyStr) → Except PyError Unit
  | [] => .ok ()
  | (schemeId, label) :: rest => do
    let scheme ← subscript e.schemes schemeId
    scheme.requireLabel label
    e.requireKnown rest

def validate (e : MarkingEngine) (markings : MarkingSet) : Except PyError Unit :=
  let unknown := markings.values.keys.filter fun schemeId => (e.schemes.get? schemeId).isNone
  if unknown ≠ [] then
    .error (markingError "unknown marking schemes: %r" ((unknown.mergeSort fun a b => decide (a ≤ b)).map .text))
  else e.requireKnown markings.values.entries

def validateAll (e : MarkingEngine) : List MarkingSet → Except PyError Unit
  | [] => .ok ()
  | m :: rest => do
    e.validate m
    e.validateAll rest

/-- The labels the marking sets give for one scheme, the bottom where they give none. -/
def labelsFor (schemeId : PyStr) (scheme : MarkingSchemeDefinition) (markingSets : List MarkingSet) : List PyStr :=
  markingSets.map fun m => (m.values.get? schemeId).getD scheme.bottom

/-- The loop of `join` over the schemes. -/
def joinSchemes (markingSets : List MarkingSet) :
    List (PyStr × MarkingSchemeDefinition) → Dict PyStr PyStr → Except PyError (Dict PyStr PyStr)
  | [], combined => .ok combined
  | (schemeId, scheme) :: rest, combined => do
    let label ← scheme.join (labelsFor schemeId scheme markingSets)
    joinSchemes markingSets rest (combined.set schemeId label)

def join (e : MarkingEngine) (markingSets : List MarkingSet) : Except PyError MarkingSet := do
  e.validateAll markingSets
  let combined ← joinSchemes markingSets e.schemes.entries .empty
  return ⟨combined⟩

/-- The loop of `is_authorized`. -/
def dominatedBy (e : MarkingEngine) (clearance : MarkingSet) : List (PyStr × PyStr) → Except PyError Bool
  | [] => .ok true
  | (schemeId, required) :: rest =>
    match clearance.values.get? schemeId with
    | none => .ok false
    | some granted => do
      let scheme ← subscript e.schemes schemeId
      let dominated ← scheme.dominates granted required
      if dominated then e.dominatedBy clearance rest else return false

def isAuthorized (e : MarkingEngine) (markings clearance : MarkingSet) : Except PyError Bool := do
  e.validate markings
  e.validate clearance
  e.dominatedBy clearance markings.values.entries

/-! ## Valid marking sets -/

/-- Every scheme is known and every label belongs to its scheme. -/
def Valid (e : MarkingEngine) (m : MarkingSet) : Prop :=
  ∀ schemeId label, m.values.get? schemeId = some label →
    ∃ scheme, e.schemes.get? schemeId = some scheme ∧ label ∈ scheme.labels

def Total (e : MarkingEngine) (m : MarkingSet) : Prop :=
  ∀ schemeId scheme, e.schemes.get? schemeId = some scheme → ∃ label, m.values.get? schemeId = some label

variable {e : MarkingEngine}

theorem requireKnown_eq_ok : ∀ {entries : List (PyStr × PyStr)},
    e.requireKnown entries = .ok () ↔
      ∀ entry ∈ entries, ∃ scheme, e.schemes.get? entry.1 = some scheme ∧ entry.2 ∈ scheme.labels
  | [] => by simp [requireKnown]
  | (schemeId, label) :: rest => by
      rw [requireKnown, bind_eq_ok]
      constructor
      · rintro ⟨scheme, hs, h⟩
        obtain ⟨⟨⟩, hl, h⟩ := bind_eq_ok.1 h
        intro entry he
        rcases List.mem_cons.mp he with rfl | he
        · exact ⟨scheme, subscript_eq_ok.1 hs, scheme.requireLabel_eq_ok.1 hl⟩
        · exact requireKnown_eq_ok.1 h entry he
      · intro h
        obtain ⟨scheme, hs, hl⟩ := h _ (List.mem_cons_self ..)
        refine ⟨scheme, subscript_eq_ok.2 hs, bind_eq_ok.2 ⟨(), scheme.requireLabel_eq_ok.2 hl, ?_⟩⟩
        exact requireKnown_eq_ok.2 fun entry he => h entry (List.mem_cons_of_mem _ he)

theorem validate_eq_ok {m : MarkingSet} : e.validate m = .ok () ↔ e.Valid m := by
  unfold validate
  dsimp only
  constructor
  · intro h schemeId label hl
    split_ifs at h with hu
    exact requireKnown_eq_ok.1 h (schemeId, label) ((m.values.mem_entries_iff schemeId label).mpr hl)
  · intro h
    have hknown : (m.values.keys.filter fun schemeId => (e.schemes.get? schemeId).isNone) = [] := by
      rw [List.filter_eq_nil_iff]
      intro schemeId hk
      obtain ⟨label, hl⟩ := (m.values.mem_keys_iff schemeId).mp hk
      obtain ⟨scheme, hs, -⟩ := h schemeId label hl
      simp [hs]
    rw [if_neg (not_not.mpr hknown)]
    refine requireKnown_eq_ok.2 fun entry he => ?_
    exact h entry.1 entry.2 ((m.values.mem_entries_iff entry.1 entry.2).mp he)

theorem validateAll_eq_ok : ∀ {sets : List MarkingSet}, e.validateAll sets = .ok () ↔ ∀ m ∈ sets, e.Valid m
  | [] => by simp [validateAll]
  | m :: rest => by
      rw [validateAll, bind_eq_ok]
      constructor
      · rintro ⟨⟨⟩, hm, h⟩ x hx
        rcases List.mem_cons.mp hx with rfl | hx
        · exact validate_eq_ok.1 hm
        · exact validateAll_eq_ok.1 h x hx
      · intro h
        exact ⟨(), validate_eq_ok.2 (h m (List.mem_cons_self ..)),
          validateAll_eq_ok.2 fun x hx => h x (List.mem_cons_of_mem m hx)⟩

/-! ## Authorization -/

theorem dominatedBy_eq_true {clearance : MarkingSet} (hc : e.Valid clearance) :
    ∀ {entries : List (PyStr × PyStr)},
      (∀ entry ∈ entries, ∃ scheme, e.schemes.get? entry.1 = some scheme ∧ entry.2 ∈ scheme.labels) →
      (e.dominatedBy clearance entries = .ok true ↔ ∀ entry ∈ entries, ∃ scheme granted,
        e.schemes.get? entry.1 = some scheme ∧ clearance.values.get? entry.1 = some granted ∧ scheme.Leq entry.2 granted)
  | [], _ => by simp [dominatedBy]
  | (schemeId, required) :: rest, h => by
      obtain ⟨scheme, hs, hl⟩ := h _ (List.mem_cons_self ..)
      have ih := dominatedBy_eq_true hc fun entry he => h entry (List.mem_cons_of_mem (schemeId, required) he)
      rw [dominatedBy]
      cases hg : clearance.values.get? schemeId with
      | none =>
        simp only [Except.ok.injEq, Bool.false_eq_true, false_iff]
        intro hall
        obtain ⟨-, granted, -, hg', -⟩ := hall _ (List.mem_cons_self ..)
        rw [hg] at hg'
        cases hg'
      | some granted =>
        obtain ⟨scheme', hs', hgl⟩ := hc schemeId granted hg
        rw [hs] at hs'
        cases hs'
        have hdom : scheme.dominates granted required = .ok (decide (scheme.Leq required granted)) :=
          scheme.leq_eq_ok hl hgl
        simp only [subscript_eq_ok.2 hs, hdom, bind, Except.bind]
        by_cases hleq : scheme.Leq required granted
        · simp only [hleq, decide_true, if_true]
          rw [ih]
          simp only [List.forall_mem_cons]
          exact ⟨fun hrest => ⟨⟨scheme, granted, hs, hg, hleq⟩, hrest⟩, fun hall => hall.2⟩
        · simp only [hleq, decide_false, Bool.false_eq_true, if_false, pure, Except.pure, Except.ok.injEq, false_iff]
          intro hall
          obtain ⟨scheme', granted', hs', hg', hleq'⟩ := hall _ (List.mem_cons_self ..)
          rw [hs] at hs'
          rw [hg] at hg'
          cases hs'
          cases hg'
          exact hleq hleq'

theorem isAuthorized_eq_true {m clearance : MarkingSet} (hm : e.Valid m) (hc : e.Valid clearance) :
    e.isAuthorized m clearance = .ok true ↔ ∀ schemeId label scheme, m.values.get? schemeId = some label →
      e.schemes.get? schemeId = some scheme →
      ∃ granted, clearance.values.get? schemeId = some granted ∧ scheme.Leq label granted := by
  have hstep : e.isAuthorized m clearance = e.dominatedBy clearance m.values.entries := by
    rw [isAuthorized, validate_eq_ok.2 hm, validate_eq_ok.2 hc]
    rfl
  have hentries : ∀ entry ∈ m.values.entries, ∃ scheme, e.schemes.get? entry.1 = some scheme ∧ entry.2 ∈ scheme.labels :=
    fun entry he => hm entry.1 entry.2 ((m.values.mem_entries_iff entry.1 entry.2).mp he)
  rw [hstep, dominatedBy_eq_true hc hentries]
  constructor
  · intro h schemeId label scheme hl hs
    obtain ⟨scheme', granted, hs', hg, hleq⟩ := h (schemeId, label) ((m.values.mem_entries_iff schemeId label).mpr hl)
    rw [hs] at hs'
    cases hs'
    exact ⟨granted, hg, hleq⟩
  · intro h entry he
    obtain ⟨scheme, hs, -⟩ := hentries entry he
    obtain ⟨granted, hg, hleq⟩ := h entry.1 entry.2 scheme ((m.values.mem_entries_iff entry.1 entry.2).mp he) hs
    exact ⟨scheme, granted, hs, hg, hleq⟩

/-! ## Joins -/

theorem labelsFor_known {sets : List MarkingSet} (h : ∀ m ∈ sets, e.Valid m) {schemeId : PyStr}
    {scheme : MarkingSchemeDefinition} (hs : e.schemes.get? schemeId = some scheme) :
    ∀ l ∈ labelsFor schemeId scheme sets, l ∈ scheme.labels := by
  intro l hl
  obtain ⟨m, hm, rfl⟩ := List.mem_map.mp hl
  cases hv : m.values.get? schemeId with
  | none => exact scheme.lattice.bottom_least.1
  | some label =>
    obtain ⟨scheme', hs', hl'⟩ := h m hm schemeId label hv
    rw [hs] at hs'
    cases hs'
    exact hl'

/-- The loop records, for each scheme it goes through, the join of the labels given for it. -/
theorem joinSchemes_spec (sets : List MarkingSet) :
    ∀ (entries : List (PyStr × MarkingSchemeDefinition)) (combined : Dict PyStr PyStr), (entries.map Prod.fst).Nodup →
      (∀ entry ∈ entries, ∀ l ∈ labelsFor entry.1 entry.2 sets, l ∈ entry.2.labels) →
      ∃ result, joinSchemes sets entries combined = .ok result ∧
        (∀ entry ∈ entries, ∃ j, result.get? entry.1 = some j ∧ entry.2.IsJoin (labelsFor entry.1 entry.2 sets) j) ∧
        ∀ schemeId, schemeId ∉ entries.map Prod.fst → result.get? schemeId = combined.get? schemeId
  | [], combined, _, _ => ⟨combined, rfl, by simp, fun _ _ => rfl⟩
  | (schemeId, scheme) :: rest, combined, hnd, hknown => by
      rw [List.map_cons, List.nodup_cons] at hnd
      have hlabels := hknown (schemeId, scheme) (List.mem_cons_self ..)
      obtain ⟨j, hj⟩ := scheme.exists_isJoin hlabels
      obtain ⟨result, hres, hentries, hother⟩ := joinSchemes_spec sets rest (combined.set schemeId j) hnd.2
        fun entry he => hknown entry (List.mem_cons_of_mem _ he)
      refine ⟨result, ?_, fun entry he => ?_, fun id hid => ?_⟩
      · rw [joinSchemes, scheme.join_eq hlabels hj]
        exact hres
      · rcases List.mem_cons.mp he with rfl | he
        · exact ⟨j, by rw [hother schemeId hnd.1, Dict.get?_set_self], hj⟩
        · exact hentries entry he
      · rw [List.map_cons, List.mem_cons, not_or] at hid
        rw [hother id hid.2, Dict.get?_set_of_ne _ _ (Ne.symm hid.1)]

/-- Joining valid marking sets never raises, and gives the join of every scheme and nothing else. -/
theorem join_spec {sets : List MarkingSet} (h : ∀ m ∈ sets, e.Valid m) :
    ∃ j, e.join sets = .ok j ∧
      (∀ schemeId scheme, e.schemes.get? schemeId = some scheme → ∃ label, j.values.get? schemeId = some label ∧
        scheme.IsJoin (labelsFor schemeId scheme sets) label) ∧
      ∀ schemeId, e.schemes.get? schemeId = none → j.values.get? schemeId = none := by
  obtain ⟨result, hres, hentries, hother⟩ := joinSchemes_spec sets e.schemes.entries .empty e.schemes.nodup
    fun entry he => labelsFor_known h ((e.schemes.mem_entries_iff entry.1 entry.2).mp he)
  refine ⟨⟨result⟩, ?_, fun schemeId scheme hs => ?_, fun schemeId hs => ?_⟩
  · rw [join, validateAll_eq_ok.2 h, hres]
    rfl
  · exact hentries (schemeId, scheme) ((e.schemes.mem_entries_iff schemeId scheme).mpr hs)
  · refine hother schemeId fun hk => ?_
    obtain ⟨scheme, hs'⟩ := (e.schemes.mem_keys_iff schemeId).mp hk
    rw [hs] at hs'
    cases hs'

theorem join_valid {sets : List MarkingSet} (h : ∀ m ∈ sets, e.Valid m) {j : MarkingSet} (hj : e.join sets = .ok j) :
    e.Valid j ∧ e.Total j := by
  obtain ⟨j', hj', hschemes, hnone⟩ := join_spec h
  rw [hj] at hj'
  cases hj'
  constructor
  · intro schemeId label hl
    cases hs : e.schemes.get? schemeId with
    | none =>
      rw [hnone schemeId hs] at hl
      cases hl
    | some scheme =>
      obtain ⟨label', hl', hjoin⟩ := hschemes schemeId scheme hs
      rw [hl] at hl'
      cases hl'
      exact ⟨scheme, rfl, hjoin.known⟩
  · intro schemeId scheme hs
    obtain ⟨label, hl, -⟩ := hschemes schemeId scheme hs
    exact ⟨label, hl⟩

theorem join_eq_join {sets sets' : List MarkingSet} (h : ∀ m ∈ sets, e.Valid m) (h' : ∀ m ∈ sets', e.Valid m)
    (hiff : ∀ schemeId scheme, e.schemes.get? schemeId = some scheme → ∀ u ∈ scheme.labels,
      (∀ l ∈ labelsFor schemeId scheme sets, scheme.Leq l u) ↔ ∀ l ∈ labelsFor schemeId scheme sets', scheme.Leq l u) :
    e.join sets = e.join sets' := by
  have hloop : ∀ (entries : List (PyStr × MarkingSchemeDefinition)) (combined : Dict PyStr PyStr),
      (∀ entry ∈ entries, e.schemes.get? entry.1 = some entry.2) →
      joinSchemes sets entries combined = joinSchemes sets' entries combined := by
    intro entries
    induction entries with
    | nil => exact fun _ _ => rfl
    | cons entry rest ih =>
      intro combined hmem
      obtain ⟨schemeId, scheme⟩ := entry
      have hs := hmem (schemeId, scheme) (List.mem_cons_self ..)
      rw [joinSchemes, joinSchemes,
        scheme.join_congr (labelsFor_known h hs) (labelsFor_known h' hs) (hiff schemeId scheme hs)]
      refine congrArg _ (funext fun label => ?_)
      exact ih _ fun entry he => hmem entry (List.mem_cons_of_mem _ he)
  rw [join, join, validateAll_eq_ok.2 h, validateAll_eq_ok.2 h',
    hloop _ _ fun entry he => (e.schemes.mem_entries_iff entry.1 entry.2).mp he]

def labelOf (schemeId : PyStr) (scheme : MarkingSchemeDefinition) (m : MarkingSet) : PyStr :=
  (m.values.get? schemeId).getD scheme.bottom

theorem labelOf_join_leq {sets : List MarkingSet} (h : ∀ m ∈ sets, e.Valid m) {j : MarkingSet}
    (hj : e.join sets = .ok j) {schemeId : PyStr} {scheme : MarkingSchemeDefinition}
    (hs : e.schemes.get? schemeId = some scheme) {u : PyStr} (hu : u ∈ scheme.labels) :
    scheme.Leq (labelOf schemeId scheme j) u ↔ ∀ m ∈ sets, scheme.Leq (labelOf schemeId scheme m) u := by
  obtain ⟨j', hj', hschemes, -⟩ := join_spec h
  rw [hj] at hj'
  cases hj'
  obtain ⟨label, hl, hjoin⟩ := hschemes schemeId scheme hs
  rw [labelOf, hl, Option.getD_some, hjoin.leq_iff scheme (labelsFor_known h hs) hu, labelsFor]
  simp [labelOf]

/-! ## No downgrade -/

theorem authorized_of_join {sets : List MarkingSet} {clearance : MarkingSet} (h : ∀ m ∈ sets, e.Valid m)
    (hc : e.Valid clearance) {j : MarkingSet} (hj : e.join sets = .ok j) (ha : e.isAuthorized j clearance = .ok true)
    {m : MarkingSet} (hm : m ∈ sets) : e.isAuthorized m clearance = .ok true := by
  obtain ⟨hvalid, htotal⟩ := join_valid h hj
  refine (isAuthorized_eq_true (h m hm) hc).mpr fun schemeId label scheme hl hs => ?_
  obtain ⟨jl, hjl⟩ := htotal schemeId scheme hs
  obtain ⟨granted, hg, hleq⟩ := (isAuthorized_eq_true hvalid hc).mp ha schemeId jl scheme hjl hs
  obtain ⟨scheme', hs', hgl⟩ := hc schemeId granted hg
  rw [hs] at hs'
  cases hs'
  have := (labelOf_join_leq h hj hs hgl).mp (by rw [labelOf, hjl]; exact hleq) m hm
  rw [labelOf, hl] at this
  exact ⟨granted, hg, this⟩

theorem join_authorized {sets : List MarkingSet} {clearance : MarkingSet} (h : ∀ m ∈ sets, e.Valid m)
    (hc : e.Valid clearance) (ht : e.Total clearance) {j : MarkingSet} (hj : e.join sets = .ok j)
    (ha : ∀ m ∈ sets, e.isAuthorized m clearance = .ok true) : e.isAuthorized j clearance = .ok true := by
  refine (isAuthorized_eq_true (join_valid h hj).1 hc).mpr fun schemeId label scheme hl hs => ?_
  obtain ⟨granted, hg⟩ := ht schemeId scheme hs
  obtain ⟨scheme', hs', hgl⟩ := hc schemeId granted hg
  rw [hs] at hs'
  cases hs'
  refine ⟨granted, hg, ?_⟩
  have hjoin := (labelOf_join_leq h hj hs hgl).mpr fun m hm => ?_
  · rwa [labelOf, hl] at hjoin
  · cases hv : m.values.get? schemeId with
    | none =>
      rw [labelOf, hv]
      exact scheme.lattice.bottom_least.2 granted hgl
    | some required =>
      obtain ⟨granted', hg', hleq⟩ := (isAuthorized_eq_true (h m hm) hc).mp (ha m hm) schemeId required scheme hv hs
      rw [hg] at hg'
      cases hg'
      rw [labelOf, hv]
      exact hleq

theorem valid_pair {a b : MarkingSet} (ha : e.Valid a) (hb : e.Valid b) : ∀ m ∈ [a, b], e.Valid m := by
  intro m hm
  simp only [List.mem_cons, List.not_mem_nil, or_false] at hm
  rcases hm with rfl | rfl
  · exact ha
  · exact hb

theorem forall_labelsFor {schemeId : PyStr} {scheme : MarkingSchemeDefinition} {sets : List MarkingSet} {u : PyStr} :
    (∀ l ∈ labelsFor schemeId scheme sets, scheme.Leq l u) ↔ ∀ m ∈ sets, scheme.Leq (labelOf schemeId scheme m) u := by
  simp [labelsFor, labelOf]

theorem join_comm {a b : MarkingSet} (ha : e.Valid a) (hb : e.Valid b) : e.join [a, b] = e.join [b, a] := by
  refine join_eq_join (valid_pair ha hb) (valid_pair hb ha) fun schemeId scheme hs u hu => ?_
  rw [forall_labelsFor, forall_labelsFor]
  simp [and_comm]

theorem join_assoc {a b c ab bc : MarkingSet} (ha : e.Valid a) (hb : e.Valid b) (hc : e.Valid c)
    (hab : e.join [a, b] = .ok ab) (hbc : e.join [b, c] = .ok bc) : e.join [ab, c] = e.join [a, bc] := by
  have hva := (join_valid (valid_pair ha hb) hab).1
  have hvb := (join_valid (valid_pair hb hc) hbc).1
  refine join_eq_join (valid_pair hva hc) (valid_pair ha hvb) fun schemeId scheme hs u hu => ?_
  rw [forall_labelsFor, forall_labelsFor]
  simp only [List.forall_mem_cons, List.not_mem_nil, false_implies, implies_true, and_true,
    labelOf_join_leq (valid_pair ha hb) hab hs hu, labelOf_join_leq (valid_pair hb hc) hbc hs hu]
  exact and_assoc

theorem join_idem {a : MarkingSet} (ha : e.Valid a) (ht : e.Total a) : ∃ aa, e.join [a, a] = .ok aa ∧ aa.Same a := by
  obtain ⟨aa, haa, hschemes, hnone⟩ := join_spec (valid_pair ha ha)
  refine ⟨aa, haa, fun schemeId => ?_⟩
  cases hs : e.schemes.get? schemeId with
  | none =>
    rw [hnone schemeId hs]
    cases hl : a.values.get? schemeId with
    | none => rfl
    | some label =>
      obtain ⟨scheme, hs', -⟩ := ha schemeId label hl
      rw [hs] at hs'
      cases hs'
  | some scheme =>
    obtain ⟨label, hl⟩ := ht schemeId scheme hs
    obtain ⟨j, hj, hjoin⟩ := hschemes schemeId scheme hs
    obtain ⟨scheme', hs', hknown⟩ := ha schemeId label hl
    rw [hs] at hs'
    cases hs'
    have hself : scheme.IsJoin (labelsFor schemeId scheme [a, a]) label := by
      have hlabels : ∀ l ∈ labelsFor schemeId scheme [a, a], l = label := by
        simp [labelsFor, hl]
      refine ⟨hknown, fun l hm => ?_, fun u _ hub => hub label (by simp [labelsFor, hl])⟩
      rw [hlabels l hm]
      exact scheme.lattice.refl label hknown
    rw [hj, hl, hjoin.unique scheme hself]

/-- **Joins never downgrade.** For every engine, valid marking sets and valid clearance: the join exists; what it
is cleared for, every input is cleared for; the converse holds when the clearance names every scheme; and on
marking sets that name every scheme the join is commutative, associative and idempotent. -/
theorem join_never_downgrades (e : MarkingEngine) (sets : List MarkingSet) (clearance : MarkingSet)
    (hsets : ∀ m ∈ sets, e.validate m = .ok ()) (hclearance : e.validate clearance = .ok ()) :
    (∃ j, e.join sets = .ok j ∧
      (e.isAuthorized j clearance = .ok true → ∀ m ∈ sets, e.isAuthorized m clearance = .ok true) ∧
      (e.Total clearance → (∀ m ∈ sets, e.isAuthorized m clearance = .ok true) →
        e.isAuthorized j clearance = .ok true)) ∧
    ∀ a b c, e.validate a = .ok () → e.validate b = .ok () → e.validate c = .ok () →
      e.Total a → e.Total b → e.Total c →
      e.join [a, b] = e.join [b, a] ∧
      (∃ ab bc abc, e.join [a, b] = .ok ab ∧ e.join [b, c] = .ok bc ∧ e.join [ab, c] = .ok abc ∧
        e.join [a, bc] = .ok abc) ∧
      ∃ aa, e.join [a, a] = .ok aa ∧ aa.Same a := by
  constructor
  · have hvalid : ∀ m ∈ sets, e.Valid m := fun m hm => validate_eq_ok.1 (hsets m hm)
    have hc := validate_eq_ok.1 hclearance
    obtain ⟨j, hj, -⟩ := join_spec hvalid
    exact ⟨j, hj, fun ha m hm => authorized_of_join hvalid hc hj ha hm, fun ht ha => join_authorized hvalid hc ht hj ha⟩
  · intro a b c ha hb hc hta _ _
    rw [validate_eq_ok] at ha hb hc
    obtain ⟨ab, hab, -⟩ := join_spec (valid_pair ha hb)
    obtain ⟨bc, hbc, -⟩ := join_spec (valid_pair hb hc)
    obtain ⟨abc, habc, -⟩ := join_spec (valid_pair (join_valid (valid_pair ha hb) hab).1 hc)
    refine ⟨join_comm ha hb, ⟨ab, bc, abc, hab, hbc, habc, ?_⟩, join_idem ha hta⟩
    rw [← join_assoc ha hb hc hab hbc]
    exact habc

/-- Two incomparable compartments between public and secret. -/
def compartments : Except PyError MarkingSchemeDefinition :=
  MarkingSchemeDefinition.create (py "scheme") none (some [py "P", py "A", py "B", py "S"])
    [.sequence [py "P", py "A"], .sequence [py "P", py "B"], .sequence [py "A", py "S"], .sequence [py "B", py "S"]]

def marked (label : PyStr) : MarkingSet := ⟨Dict.empty.set (py "scheme") label⟩

theorem join_never_downgrades_compartments :
    ∃ scheme e, compartments = .ok scheme ∧ create [scheme] = .ok e ∧
      ∃ j, e.join [marked (py "A"), marked (py "B")] = .ok j ∧
        (e.isAuthorized j (marked (py "S")) = .ok true →
          ∀ m ∈ [marked (py "A"), marked (py "B")], e.isAuthorized m (marked (py "S")) = .ok true) ∧
        (e.Total (marked (py "S")) →
          (∀ m ∈ [marked (py "A"), marked (py "B")], e.isAuthorized m (marked (py "S")) = .ok true) →
          e.isAuthorized j (marked (py "S")) = .ok true) := by
  have h : (compartments >>= fun scheme => create [scheme] >>= fun e => e.validate (marked (py "A")) >>= fun _ =>
      e.validate (marked (py "B")) >>= fun _ => e.validate (marked (py "S"))) = .ok () := by decide
  obtain ⟨scheme, hscheme, h⟩ := bind_eq_ok.1 h
  obtain ⟨e, he, h⟩ := bind_eq_ok.1 h
  obtain ⟨⟨⟩, ha, h⟩ := bind_eq_ok.1 h
  obtain ⟨⟨⟩, hb, hs⟩ := bind_eq_ok.1 h
  refine ⟨scheme, e, hscheme, he, (join_never_downgrades e _ (marked (py "S")) ?_ hs).1⟩
  intro m hm
  simp only [List.mem_cons, List.not_mem_nil, or_false] at hm
  rcases hm with rfl | rfl
  · exact ha
  · exact hb

end MarkingEngine
end OcorRuntime.Marking
