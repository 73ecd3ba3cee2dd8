import OcorRuntime.Memory.Eligibility

/-! The predicate pushed into the index and the checks after the query agree on every item
whose missing bounds are not reached: an index knows a missing bound as an instant of the
year 2255. -/
namespace OcorRuntime.Memory
open Canonical Kernel ItemField
set_option autoImplicit false
set_option maxHeartbeats 250000

/-! ## Checks in order -/

theorem allOf_eq_true {checks : List (Except PyError Bool)} : allOf checks = .ok true ↔ ∀ check ∈ checks, check = .ok true := by
  induction checks with
  | nil => exact ⟨fun _ check hcheck => absurd hcheck List.not_mem_nil, fun _ => rfl⟩
  | cons check rest ih =>
    rw [List.forall_mem_cons, ← ih, allOf, bind_eq_ok]
    constructor
    · rintro ⟨passed, hcheck, hrest⟩
      cases passed with
      | false => cases hrest
      | true => exact ⟨hcheck, hrest⟩
    · rintro ⟨hcheck, hrest⟩
      exact ⟨true, hcheck, hrest⟩

theorem allOf_ok (checks : List Bool) : allOf (checks.map .ok) = .ok (checks.all id) := by
  induction checks with
  | nil => rfl
  | cons check rest ih =>
    cases check with
    | false => rfl
    | true => exact ih

/-! ## Confidence -/

theorem neg_of_ofRatio {neg : Bool} {p q : ℕ} {x : FiniteFloat} (h : Binary64.ofRatio neg p q = .finite x) : x.neg = neg := by
  unfold Binary64.ofRatio Binary64.ofParts at h
  dsimp only at h
  split_ifs at h <;> cases h <;> rfl

theorem below_ofInt {n : ℕ} (hn : n < 2 ^ 53) (y : Binary64) : (Binary64.ofInt n).below y = numberBelow (.int n) y := by
  obtain ⟨x, hx, hvalue⟩ := ofRatio_nat false hn
  have hpos : x.neg = false := neg_of_ofRatio hx
  have hfloat : Binary64.ofInt n = .finite x := by
    rw [Binary64.ofInt, Int.natAbs_natCast, decide_eq_false (by omega), hx]
  rw [hfloat]
  cases y with
  | nan => rfl
  | infinite neg => cases neg <;> rfl
  | finite y =>
    have hratio : (0 : ℤ) < x.ratio.2 := by exact_mod_cast x.ratio_pos
    have hswap : (n : ℤ) * x.ratio.2 * y.ratio.2 = n * y.ratio.2 * x.ratio.2 := by ring
    have hbelow : (Binary64.finite x).below (.finite y) = decide ((n : ℤ) * x.ratio.2 * y.ratio.2 <
        (if y.neg then -(y.ratio.1 : ℤ) else y.ratio.1) * x.ratio.2) := by
      unfold Binary64.below FiniteFloat.below
      simp only [hpos, hvalue, Bool.false_eq_true, if_false, Nat.cast_mul]
    rw [hbelow, hswap]
    refine decide_eq_decide.mpr ?_
    exact mul_lt_mul_iff_left₀ hratio

theorem confidence_below {name : String} {value number : PyValue} (h : unitNumber name value = .ok number) :
    ∃ x, confidenceFloat number = .ok x ∧ ∀ y, x.below y = numberBelow number y := by
  cases unitNumber_eq_ok h
  unfold unitNumber at h
  dsimp only at h
  split_ifs at h with hinside
  cases value with
  | int n =>
    have hn : n = 0 ∨ n = 1 := by
      have hunit := of_decide_eq_true hinside
      omega
    rcases hn with rfl | rfl
    · exact ⟨.ofInt 0, rfl, below_ofInt (n := 0) (by decide)⟩
    · exact ⟨.ofInt 1, rfl, below_ofInt (n := 1) (by decide)⟩
  | float x => exact ⟨x, rfl, fun y => by cases y <;> rfl⟩
  | _ => cases hinside

/-! ## Attributes -/

variable {p : EligibilityPredicate} {plan : SearchPlan} {item : GovernedMemoryItem} {attributes : List (MappingKey × PyValue)}

/-- What the predicate is decided by, where every attribute is there. -/
def attributesAccepted (p : EligibilityPredicate) (item : GovernedMemoryItem) : Bool :=
  [decide (PyValue.bool false = .bool false), decide (PyValue.bool item.deletionEpoch.isSome = .bool false),
    decide (PyValue.str (py item.lifecycleStatus.value) = .str (py "ACTIVE")),
    decide (py item.memoryKind.value ∈ p.memoryKinds), decide (py item.memoryScope.value ∈ p.memoryScopes),
    decide ((item.validFrom ≤ p.validAt ∧ p.validAt < item.validUntil.getD unboundedUs) ∧
      ¬ item.expiresAt.getD unboundedUs ≤ p.now),
    p.sourceKinds.all fun kinds => decide (py item.sourceKind.value ∈ kinds),
    p.contentSchemaRefs.all fun refs => decide (item.contentSchemaRef ∈ refs),
    p.minConfidence.all fun minimum => !numberBelow item.confidence minimum,
    p.excludeTaintLabels.all fun label => decide (label ∉ item.taintLabels)].all id

theorem attributeOf_eq {name : String} {value : PyValue} (h : member attributes name = some value) :
    attributeOf attributes name = .ok value := orRaise_eq_ok.2 h

theorem attributeWithin_eq {texts : Option (List PyStr)} {name : String} {text : PyStr}
    (h : member attributes name = some (.str text)) :
    attributeWithin texts attributes name = .ok (texts.all fun texts => decide (text ∈ texts)) := by
  cases texts with
  | none => rfl
  | some texts => exact bind_eq_ok.2 ⟨_, attributeOf_eq h, rfl⟩

theorem excluded_labels (texts labels : List PyStr) :
    (labels.map PyValue.str).mapM (inTexts texts) = .ok (labels.map fun label => decide (label ∈ texts)) := by
  rw [forall₂_of_mapM, List.forall₂_map_left_iff, List.forall₂_map_right_iff, List.forall₂_same]
  exact fun label _ => rfl

theorem excluded_any {texts labels : List PyStr} :
    (!((sortedTexts labels).map fun label => decide (label ∈ texts)).any id) = texts.all fun label => decide (label ∉ labels) := by
  rw [Bool.eq_iff_iff]
  simp only [Bool.not_eq_true', List.any_map, List.any_eq_false, List.all_eq_true, Function.comp_apply, id_eq,
    decide_eq_true_eq]
  have hsorted : ∀ label, label ∈ sortedTexts labels ↔ label ∈ labels := fun label =>
    (List.perm_insertionSort _ labels).mem_iff
  constructor
  · exact fun h label hlabel hmem => h label ((hsorted label).mpr hmem) hlabel
  · exact fun h label hmem hlabel => h label hlabel ((hsorted label).mp hmem)

theorem attributeColumns_nodup (item : GovernedMemoryItem) (x : Binary64) :
    ((attributeColumns item x).map fun column => MappingKey.str (py column.1)).Nodup := by
  have hnames : (["memory_item_id", "memory_version", "memory_kind", "memory_scope", "source_kind", "content_schema_ref",
    "confidence", "taint_labels", "lifecycle_status", "deleted", "valid_from_us", "valid_until_us", "expires_at_us",
    "superseded"].map fun name => MappingKey.str (py name)).Nodup := by decide
  exact hnames

theorem accepts_indexAttributes {name : String} {raw : PyValue} (hnumber : unitNumber name raw = .ok item.confidence) :
    ∃ attributes, indexAttributes item = .ok (.mapping attributes) ∧
      ∀ p : EligibilityPredicate, p.accepts attributes = .ok (attributesAccepted p item) := by
  obtain ⟨x, hx, hbelow⟩ := confidence_below hnumber
  refine ⟨_, bind_eq_ok.2 ⟨x, hx, rfl⟩, fun p => ?_⟩
  have hnames := attributeColumns_nodup item x
  generalize hattributes : ((attributeColumns item x).filterMap fun column =>
    column.2.map fun value => (MappingKey.str (py column.1), value)) = attributes
  have hcell : ∀ (k : ℕ) (name : String) (value : PyValue), (attributeColumns item x)[k]? = some (name, some value) →
      member attributes name = some value := fun k name value hk => hattributes ▸ member_fields hnames hk
  have hjudge : p.judge attributes = .ok (attributesAccepted p item) := by
    unfold EligibilityPredicate.judge
    rw [attributeOf_eq (hcell 13 _ _ rfl), attributeOf_eq (hcell 9 _ _ rfl), attributeOf_eq (hcell 8 _ _ rfl),
      attributeOf_eq (hcell 2 _ _ rfl), attributeOf_eq (hcell 3 _ _ rfl), attributeOf_eq (hcell 10 _ _ rfl),
      attributeOf_eq (hcell 11 _ _ rfl), attributeOf_eq (hcell 12 _ _ rfl), attributeWithin_eq (hcell 4 _ _ rfl),
      attributeWithin_eq (hcell 5 _ _ rfl), attributeOf_eq (hcell 6 _ _ rfl), attributeOf_eq (hcell 7 _ _ rfl)]
    dsimp only [bind, Except.bind, strings]
    rw [excluded_labels]
    unfold attributesAccepted
    rw [← allOf_ok, ← excluded_any]
    simp only [← hbelow]
    rfl
  unfold EligibilityPredicate.accepts
  rw [hjudge]

/-! ## Vocabulary -/

theorem injective_of_found {α : Type} (ofValue? : PyStr → Option α) {valueOf : α → String}
    (h : ∀ a, ofValue? (py (valueOf a)) = some a) : Function.Injective fun a => py (valueOf a) := fun a b hab => by
  have hsame := congrArg ofValue? hab
  rw [h, h] at hsame
  exact Option.some.inj hsame

theorem memoryKind_injective : Function.Injective fun kind : MemoryKind => py kind.value :=
  injective_of_found MemoryKind.ofValue? fun kind => by cases kind <;> decide

theorem memoryScope_injective : Function.Injective fun scope : MemoryScope => py scope.value :=
  injective_of_found MemoryScope.ofValue? fun scope => by cases scope <;> decide

theorem sourceKind_injective : Function.Injective fun kind : SourceKind => py kind.value :=
  injective_of_found SourceKind.ofValue? fun kind => by cases kind <;> decide

theorem lifecycleStatus_active {status : LifecycleStatus} : py status.value = py "ACTIVE" ↔ status = .active := by
  have hinjective : Function.Injective fun status : LifecycleStatus => py status.value :=
    injective_of_found LifecycleStatus.ofValue? fun status => by cases status <;> decide
  have hvalue : py LifecycleStatus.active.value = py "ACTIVE" := rfl
  rw [← hvalue]
  exact hinjective.eq_iff

/-! ## Agreement -/

/-- The item is current and requested, within its bounds at the instants of the plan, and passes the filters. -/
structure Searchable (plan : SearchPlan) (item : GovernedMemoryItem) : Prop where
  active : item.lifecycleStatus = .active
  kept : item.deletionEpoch = none
  kind : item.memoryKind ∈ plan.query.memoryKinds
  scope : item.memoryScope ∈ plan.query.memoryScopes
  started : item.validFrom ≤ plan.validAt
  unended : ∀ validUntil ∈ item.validUntil, plan.validAt < validUntil
  unexpired : ∀ expiresAt ∈ item.expiresAt, plan.now < expiresAt
  filtered : plan.query.filters.accepts item = true

/-- The instants of the plan are before the one an index takes for a missing bound. -/
structure WithinHorizon (plan : SearchPlan) (item : GovernedMemoryItem) : Prop where
  unended : item.validUntil = none → plan.validAt < unboundedUs
  unexpired : item.expiresAt = none → plan.now < unboundedUs

theorem itemChecks_iff : plan.itemChecks item = true ↔ Searchable plan item := by
  unfold SearchPlan.itemChecks SearchPlan.isCurrent SearchPlan.isRequested SearchPlan.isValid SearchPlan.isUnexpired
  simp only [Bool.and_eq_true, decide_eq_true_eq, Bool.not_eq_true', Bool.or_eq_false_iff, decide_eq_false_iff_not,
    Option.any_eq_false, Option.isNone_iff_eq_none, not_lt, not_le]
  constructor
  · rintro ⟨⟨⟨⟨⟨hactive, hkept⟩, hkind, hscope⟩, hstarted, hunended⟩, hunexpired⟩, hfiltered⟩
    exact ⟨hactive, hkept, hkind, hscope, hstarted, hunended, hunexpired, hfiltered⟩
  · rintro ⟨hactive, hkept, hkind, hscope, hstarted, hunended, hunexpired, hfiltered⟩
    exact ⟨⟨⟨⟨⟨hactive, hkept⟩, hkind, hscope⟩, hstarted, hunended⟩, hunexpired⟩, hfiltered⟩

/-- A committed version of an authorized partition is a candidate if it passes the checks on the item and those on its
head, its partition's reader and the policy. -/
theorem eligible_eq_some {metadata : MetadataStore} {ports : RetrievalPorts} {memoryItemId : PyStr} {memoryVersion : ℕ}
    {stored : StoredVersion} (hstored : metadata.get memoryItemId memoryVersion = some stored)
    (hstate : stored.state = .committed) (hpartition : stored.staged.partition.digest ∈ plan.partitionDigests)
    (hitem : stored.staged.verify = .ok item) :
    plan.eligible metadata ports memoryItemId memoryVersion = .ok (some ⟨stored, item, stored.staged.partition⟩) ↔
      plan.itemChecks item = true ∧ metadata.head item.memoryItemId = item.memoryVersion ∧
        supported item.memoryKind item.memoryScope = true ∧ item.compartments ⊆ plan.context.compartments ∧
        ports.dominates plan.context.classificationMarkingRef item.classificationMarkingRef = .ok true ∧
        materializationPermitted ports item plan.context = .ok true := by
  unfold SearchPlan.eligible SearchPlan.itemChecks
  rw [hstored]
  dsimp only
  rw [if_neg (not_not.mpr hstate), if_neg (not_not.mpr hpartition), hitem]
  constructor
  · intro h
    obtain ⟨_, hitem', h⟩ := bind_eq_ok.1 h
    cases hitem'
    obtain ⟨permitted, hchecks, h⟩ := bind_eq_ok.1 h
    cases permitted with
    | false => cases h
    | true =>
      rw [allOf_eq_true] at hchecks
      simp only [List.forall_mem_cons, Except.ok.injEq, decide_eq_true_eq] at hchecks
      obtain ⟨hhead, hcurrent, hrequested, hsupported, hvalid, hunexpired, hcompartments, hdominates, hfilters, hpermitted, -⟩ :=
        hchecks
      rw [hcurrent, hrequested, hvalid, hunexpired, hfilters]
      refine ⟨rfl, hhead, hsupported, hcompartments, ?_, hpermitted⟩
      cases hanswer : ports.dominates plan.context.classificationMarkingRef item.classificationMarkingRef with
      | ok dominated =>
        rw [hanswer] at hdominates
        exact hdominates
      | error e =>
        rw [hanswer] at hdominates
        dsimp only at hdominates
        split_ifs at hdominates <;> cases hdominates
  · rintro ⟨hchecks, hhead, hsupported, hcompartments, hdominates, hpermitted⟩
    simp only [Bool.and_eq_true] at hchecks
    obtain ⟨⟨⟨⟨hcurrent, hrequested⟩, hvalid⟩, hunexpired⟩, hfilters⟩ := hchecks
    refine bind_eq_ok.2 ⟨item, rfl, bind_eq_ok.2 ⟨true, allOf_eq_true.2 ?_, rfl⟩⟩
    simp only [List.forall_mem_cons, Except.ok.injEq, decide_eq_true_eq]
    rw [hdominates]
    exact ⟨hhead, hcurrent, hrequested, hsupported, hvalid, hunexpired, hcompartments, rfl, hfilters, hpermitted,
      fun check hcheck => absurd hcheck List.not_mem_nil⟩

theorem predicate_of_plan (plan : SearchPlan) :
    plan.predicate.memoryKinds = plan.query.memoryKinds.map (fun kind => py kind.value) ∧
      plan.predicate.memoryScopes = plan.query.memoryScopes.map (fun scope => py scope.value) ∧
      plan.predicate.validAt = plan.validAt ∧ plan.predicate.now = plan.now ∧
      plan.predicate.sourceKinds = plan.query.filters.sourceKinds.map (List.map fun kind => py kind.value) ∧
      plan.predicate.contentSchemaRefs = plan.query.filters.contentSchemaRefs ∧
      plan.predicate.minConfidence = plan.query.filters.minConfidence ∧
      plan.predicate.excludeTaintLabels = plan.query.filters.excludeTaintLabels := by
  have h := plan.predicate_eq
  unfold SearchQuery.predicate at h
  dsimp only at h
  split_ifs at h with hnamed
  have hpredicate := Except.ok.inj h
  rw [← hpredicate]
  exact ⟨rfl, rfl, rfl, rfl, rfl, rfl, rfl, rfl⟩

theorem sourceKinds_accepted {kinds : Option (List SourceKind)} :
    ((kinds.map (List.map fun kind => py kind.value)).all fun kinds => decide (py item.sourceKind.value ∈ kinds)) =
      kinds.all fun kinds => decide (item.sourceKind ∈ kinds) := by
  cases kinds with
  | none => rfl
  | some kinds => exact decide_eq_decide.mpr (List.mem_map_of_injective sourceKind_injective)

theorem before_bound {bound : Option Instant} {t : ℤ} : t < bound.getD unboundedUs ↔
    (∀ instant ∈ bound, t < instant) ∧ (bound = none → t < unboundedUs) := by
  cases bound <;> simp

theorem attributesAccepted_iff :
    attributesAccepted plan.predicate item = true ↔ Searchable plan item ∧ WithinHorizon plan item := by
  obtain ⟨hkinds, hscopes, hvalidAt, hnow, hsources, hschemas, hminimum, hexcluded⟩ := predicate_of_plan plan
  unfold attributesAccepted
  rw [hkinds, hscopes, hvalidAt, hnow, hsources, hschemas, hminimum, hexcluded, sourceKinds_accepted]
  simp only [List.all_cons, List.all_nil, id_eq, Bool.and_eq_true, decide_eq_true_eq, Bool.and_true, PyValue.str.injEq,
    PyValue.bool.injEq, Option.isSome_eq_false_iff, Option.isNone_iff_eq_none, lifecycleStatus_active,
    List.mem_map_of_injective memoryKind_injective, List.mem_map_of_injective memoryScope_injective, not_le, before_bound]
  constructor
  · rintro ⟨-, hkept, hactive, hkind, hscope, ⟨⟨hstarted, hunended, hlate⟩, hunexpired, hlate'⟩, hsource, hschema,
      hconfidence, hlabels⟩
    refine ⟨⟨hactive, hkept, hkind, hscope, hstarted, hunended, hunexpired, ?_⟩, ⟨hlate, hlate'⟩⟩
    unfold SearchFilters.accepts
    rw [hsource, hschema, hconfidence, hlabels]
    rfl
  · rintro ⟨h, hrange⟩
    have hfiltered := h.filtered
    unfold SearchFilters.accepts at hfiltered
    simp only [Bool.and_eq_true] at hfiltered
    obtain ⟨⟨⟨hsource, hschema⟩, hconfidence⟩, hlabels⟩ := hfiltered
    exact ⟨trivial, h.kept, h.active, h.kind, h.scope, ⟨⟨h.started, h.unended, hrange.unended⟩, h.unexpired, hrange.unexpired⟩,
      hsource, hschema, hconfidence, hlabels⟩

theorem accepts_of_read {value : PyValue} (hitem : GovernedMemoryItem.fromMapping value = .ok item) :
    ∃ attributes, indexAttributes item = .ok (.mapping attributes) ∧
      ∀ p : EligibilityPredicate, p.accepts attributes = .ok (attributesAccepted p item) := by
  obtain ⟨_, -, -, -, hreads⟩ := fromMapping_eq_ok.1 hitem
  obtain ⟨raw, -, hnumber⟩ := requiredField_eq_ok.1 hreads.confidence
  exact accepts_indexAttributes hnumber

/-- **The predicate pushed into the index and the checks after the query agree on an item exactly when a bound the item
lacks does not come before an instant of the plan; where the item fails one of the checks both refuse it.** -/
theorem predicate_agrees : ∀ (plan : SearchPlan) (value : PyValue) (item : GovernedMemoryItem),
    GovernedMemoryItem.fromMapping value = .ok item → ∃ attributes accepted,
      indexAttributes item = .ok (.mapping attributes) ∧ plan.predicate.accepts attributes = .ok accepted ∧
        ((accepted = true ↔ plan.itemChecks item = true) ↔ (Searchable plan item → WithinHorizon plan item)) := by
  intro plan value item hitem
  obtain ⟨attributes, hattributes, haccepts⟩ := accepts_of_read hitem
  refine ⟨attributes, _, hattributes, haccepts plan.predicate, ?_⟩
  rw [attributesAccepted_iff, itemChecks_iff]
  constructor
  · exact fun h hsearchable => (h.mpr hsearchable).2
  · exact fun h => ⟨And.left, fun hsearchable => ⟨hsearchable, h hsearchable⟩⟩

/-- A search for summaries of the domain, valid and unexpired at one instant. -/
def summaryPlan (instant : Instant) : SearchPlan where
  query := ⟨[.semantic], [.domain], ⟨none, none, none, []⟩, none⟩
  context := ⟨[], [], [], [], [], [], [], [], [], [], []⟩
  partitions := []
  now := instant
  validAt := instant
  predicate := ⟨[py "SEMANTIC"], [py "DOMAIN"], instant, instant, none, none, none, [], by decide⟩
  predicate_eq := rfl

/-- An item without an end is found in the year 2024. -/
theorem predicate_agrees_today : ∃ item attributes accepted,
    GovernedMemoryItem.fromMapping (.mapping (summaryEntries "1000-01-01T00:00:00.5Z")) = .ok item ∧
      indexAttributes item = .ok (.mapping attributes) ∧
      (summaryPlan 1710000000000000).predicate.accepts attributes = .ok accepted ∧
      (accepted = true ↔ (summaryPlan 1710000000000000).itemChecks item = true) := by
  obtain ⟨item, hitem⟩ := summary_of_1000
  obtain ⟨attributes, accepted, hattributes, haccepts, hagree⟩ := predicate_agrees (summaryPlan 1710000000000000) _ item hitem
  refine ⟨item, attributes, accepted, hitem, hattributes, haccepts, hagree.mpr fun _ => ⟨fun _ => ?_, fun _ => ?_⟩⟩
  · exact (by decide : (1710000000000000 : ℤ) < unboundedUs)
  · exact (by decide : (1710000000000000 : ℤ) < unboundedUs)

theorem summary_searchable {item : GovernedMemoryItem} (instant : ℤ)
    (hitem : GovernedMemoryItem.fromMapping (.mapping (summaryEntries "1000-01-01T00:00:00.5Z")) = .ok item)
    (hinstant : 1709251199120000 ≤ instant) : Searchable (summaryPlan instant) item ∧ item.validUntil = none := by
  obtain ⟨_, hvalue, -, -, hreads⟩ := fromMapping_eq_ok.1 hitem
  cases hvalue
  have hstatus : Except.ok item.lifecycleStatus = Except.ok .active :=
    hreads.lifecycleStatus.symm.trans (by decide)
  have hkind : Except.ok item.memoryKind = Except.ok .semantic := hreads.memoryKind.symm.trans (by decide)
  have hscope : Except.ok item.memoryScope = Except.ok .domain := hreads.memoryScope.symm.trans (by decide)
  have hfrom : Except.ok item.validFrom = Except.ok (1709251199120000 : ℤ) :=
    hreads.validFrom.symm.trans (by decide)
  have hepoch : Except.ok item.deletionEpoch = Except.ok none := hreads.deletionEpoch.symm.trans (by decide)
  have huntil : Except.ok item.validUntil = Except.ok none := hreads.validUntil.symm.trans (by decide)
  have hexpires : Except.ok item.expiresAt = Except.ok none := hreads.expiresAt.symm.trans (by decide)
  have hstarted : item.validFrom ≤ instant := by
    rw [Except.ok.inj hfrom]
    exact hinstant
  refine ⟨⟨Except.ok.inj hstatus, Except.ok.inj hepoch, ?_, ?_, hstarted, ?_, ?_, rfl⟩, Except.ok.inj huntil⟩
  · rw [Except.ok.inj hkind]
    exact List.mem_singleton_self _
  · rw [Except.ok.inj hscope]
    exact List.mem_singleton_self _
  · rw [Except.ok.inj huntil]
    exact fun validUntil hmem => by cases hmem
  · rw [Except.ok.inj hexpires]
    exact fun expiresAt hmem => by cases hmem

/-- At an instant of the year 2300 the index hides an item without an end that the checks let pass. -/
theorem predicate_hides_unbounded : ¬ ∀ (plan : SearchPlan) (value : PyValue) (item : GovernedMemoryItem),
    (∃ text, parseUtcTimestamp text = .ok plan.validAt) → (∃ text, parseUtcTimestamp text = .ok plan.now) →
    GovernedMemoryItem.fromMapping value = .ok item → ∃ attributes accepted,
      indexAttributes item = .ok (.mapping attributes) ∧ plan.predicate.accepts attributes = .ok accepted ∧
        (accepted = true ↔ plan.itemChecks item = true) := by
  intro h
  obtain ⟨item, hitem⟩ := summary_of_1000
  have hinstant : parseUtcTimestamp (py "2300-01-01T00:00:00Z") = .ok 10413792000000000 := by decide
  obtain ⟨hsearchable, huntil⟩ := summary_searchable 10413792000000000 hitem (by decide)
  obtain ⟨attributes, accepted, hattributes, haccepts, hagree⟩ :=
    h (summaryPlan 10413792000000000) _ item ⟨_, hinstant⟩ ⟨_, hinstant⟩ hitem
  obtain ⟨attributes', hattributes', haccepts'⟩ := accepts_of_read hitem
  cases hattributes.symm.trans hattributes'
  cases haccepts.symm.trans (haccepts' _)
  have hrange := (attributesAccepted_iff.1 (hagree.mpr (itemChecks_iff.2 hsearchable))).2.unended huntil
  exact absurd hrange (by decide : ¬ (10413792000000000 : ℤ) < unboundedUs)

end OcorRuntime.Memory
