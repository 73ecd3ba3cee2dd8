import OcorRuntime.Memory.ClaimMerge
import OcorRuntime.Memory.ItemRoundTrip

/-! Which items a search may find (`memory/stores.py`, `memory/retrieval.py`): the predicate
that is pushed into the index queries, over the attributes stored beside the entries, and the
checks every exact version passes again after the query. -/
namespace OcorRuntime.Memory
open Canonical Kernel
set_option autoImplicit false
set_option maxHeartbeats 250000

/-! ## Comparisons -/

/-- `x < y` of a number and a float. -/
def numberBelow : PyValue → Binary64 → Bool
  | .float x, y => x.below y
  | x, .finite y => x.integer?.any fun n => n * y.ratio.2 < if y.neg then -(y.ratio.1 : ℤ) else y.ratio.1
  | x, .infinite neg => x.integer?.isSome && !neg
  | _, .nan => false

/-- `isinstance(value, (int, float))`. -/
def isNumber : PyValue → Bool
  | .bool _ | .int _ | .float _ => true
  | _ => false

/-- `value in texts`, of a set of texts. -/
def inTexts (texts : List PyStr) (value : PyValue) : Except PyError Bool :=
  match value with
  | .str text => .ok (decide (text ∈ texts))
  | .list _ | .mapping _ => .error ⟨.typeError, "unhashable type: '%s'", [.text (py (typeName value))]⟩
  | _ => .ok false

/-- Checks in order, up to the first that fails. -/
def allOf : List (Except PyError Bool) → Except PyError Bool
  | [] => .ok true
  | check :: rest => do
    if ← check then allOf rest else return false

/-! ## Attributes -/

/-- `UNBOUNDED_US`: no upper bound. -/
def unboundedUs : ℤ := 9000000000000000

/-- The attributes of an item, given its confidence as a float; an instant is its microseconds already. -/
def attributeColumns (item : GovernedMemoryItem) (confidence : Binary64) : List (String × Option PyValue) :=
  [("memory_item_id", some (.str item.memoryItemId)), ("memory_version", some (.int item.memoryVersion)),
    ("memory_kind", some (.str (py item.memoryKind.value))), ("memory_scope", some (.str (py item.memoryScope.value))),
    ("source_kind", some (.str (py item.sourceKind.value))), ("content_schema_ref", some (.str item.contentSchemaRef)),
    ("confidence", some (.float confidence)), ("taint_labels", some (strings (sortedTexts item.taintLabels))),
    ("lifecycle_status", some (.str (py item.lifecycleStatus.value))), ("deleted", some (.bool item.deletionEpoch.isSome)),
    ("valid_from_us", some (.int item.validFrom)), ("valid_until_us", some (.int (item.validUntil.getD unboundedUs))),
    ("expires_at_us", some (.int (item.expiresAt.getD unboundedUs))), ("superseded", some (.bool false))]

/-- `index_attributes`. -/
def indexAttributes (item : GovernedMemoryItem) : Except PyError PyValue := do
  let confidence ← confidenceFloat item.confidence
  return fields (attributeColumns item confidence)

/-- `attributes[name]`. -/
def attributeOf (attributes : List (MappingKey × PyValue)) (name : String) : Except PyError PyValue :=
  orRaise (member attributes name) ⟨.keyError, "%r", [.text (py name)]⟩

/-- `texts is None or attributes[name] in texts`. -/
def attributeWithin (texts : Option (List PyStr)) (attributes : List (MappingKey × PyValue)) (name : String) :
    Except PyError Bool :=
  match texts with
  | none => .ok true
  | some texts => attributeOf attributes name >>= inTexts texts

structure EligibilityPredicate where
  memoryKinds : List PyStr
  memoryScopes : List PyStr
  validAt : Instant
  now : Instant
  sourceKinds : Option (List PyStr)
  contentSchemaRefs : Option (List PyStr)
  minConfidence : Option Binary64
  excludeTaintLabels : List PyStr
  /-- `__post_init__`. -/
  named : memoryKinds ≠ [] ∧ memoryScopes ≠ []

namespace EligibilityPredicate

/-- The body of `accepts`, which looks attributes up as it goes. -/
def judge (p : EligibilityPredicate) (attributes : List (MappingKey × PyValue)) : Except PyError Bool :=
  allOf [
    (attributeOf attributes "superseded").map fun v => v = .bool false,
    (attributeOf attributes "deleted").map fun v => v = .bool false,
    (attributeOf attributes "lifecycle_status").map fun v => v = .str (py "ACTIVE"),
    attributeOf attributes "memory_kind" >>= inTexts p.memoryKinds,
    attributeOf attributes "memory_scope" >>= inTexts p.memoryScopes,
    do
      let validFrom ← attributeOf attributes "valid_from_us"
      let validUntil ← attributeOf attributes "valid_until_us"
      let expiresAt ← attributeOf attributes "expires_at_us"
      match validFrom.integer?, validUntil.integer?, expiresAt.integer? with
      | some validFrom, some validUntil, some expiresAt =>
        return decide ((validFrom ≤ p.validAt ∧ p.validAt < validUntil) ∧ ¬ expiresAt ≤ p.now)
      | _, _, _ => return false,
    attributeWithin p.sourceKinds attributes "source_kind",
    attributeWithin p.contentSchemaRefs attributes "content_schema_ref",
    (attributeOf attributes "confidence").map fun v => p.minConfidence.all fun minimum =>
      isNumber v && !numberBelow v minimum,
    do
      match ← attributeOf attributes "taint_labels" with
      | .list labels =>
        let excluded ← labels.mapM (inTexts p.excludeTaintLabels)
        return !excluded.any id
      | _ => return false]

/-- `accepts`: an entry that lacks an attribute is never eligible. -/
def accepts (p : EligibilityPredicate) (attributes : List (MappingKey × PyValue)) : Except PyError Bool :=
  match p.judge attributes with
  | .error e => if e.cls = .keyError then .ok false else .error e
  | .ok accepted => .ok accepted

end EligibilityPredicate

/-! ## Search plans -/

structure SearchFilters where
  sourceKinds : Option (List SourceKind)
  contentSchemaRefs : Option (List PyStr)
  minConfidence : Option Binary64
  excludeTaintLabels : List PyStr

def SearchFilters.accepts (f : SearchFilters) (item : GovernedMemoryItem) : Bool :=
  (f.sourceKinds.all fun kinds => item.sourceKind ∈ kinds) &&
    (f.contentSchemaRefs.all fun refs => item.contentSchemaRef ∈ refs) &&
    (f.minConfidence.all fun minimum => !numberBelow item.confidence minimum) &&
    f.excludeTaintLabels.all fun label => label ∉ item.taintLabels

/-- What of a `SearchQuery` decides which items are eligible. -/
structure SearchQuery where
  memoryKinds : List MemoryKind
  memoryScopes : List MemoryScope
  filters : SearchFilters
  validAt : Option Instant

/-- `EligibilityPredicate(...)` of a query. -/
def SearchQuery.predicate (q : SearchQuery) (validAt now : Instant) : Except PyError EligibilityPredicate :=
  let kinds := q.memoryKinds.map fun kind => py kind.value
  let scopes := q.memoryScopes.map fun scope => py scope.value
  if h : kinds ≠ [] ∧ scopes ≠ [] then
    .ok ⟨kinds, scopes, validAt, now, q.filters.sourceKinds.map (List.map fun kind => py kind.value),
      q.filters.contentSchemaRefs, q.filters.minConfidence, q.filters.excludeTaintLabels, h⟩
  else .error (storeError "MEMORY_SCHEMA_INVALID" "QUERY_INVALID" "kinds and scopes must not be empty")

/-- `_Plan`, with the predicate of its query. -/
structure SearchPlan where
  query : SearchQuery
  context : GovernedContext
  partitions : List MemoryPartition
  now : Instant
  validAt : Instant
  predicate : EligibilityPredicate
  predicate_eq : query.predicate validAt now = .ok predicate

/-- The end of `_plan`: a query without an instant of its own is about now. -/
def SearchQuery.plan (q : SearchQuery) (context : GovernedContext) (partitions : List MemoryPartition) (now : Instant) :
    Except PyError SearchPlan :=
  match h : q.predicate (q.validAt.getD now) now with
  | .ok predicate => .ok ⟨q, context, partitions, now, q.validAt.getD now, predicate, h⟩
  | .error e => .error e

/-! ## After the query -/

structure SearchCandidate where
  stored : StoredVersion
  item : GovernedMemoryItem
  partition : MemoryPartition

/-- What the service asks: the markings and the policy port, whose answer may be no decision. -/
structure RetrievalPorts where
  dominates : PyStr → PyStr → Except PyError Bool
  authorizeMaterialization : GovernedMemoryItem → GovernedContext → Except PyError (Option MemoryPolicyDecision)

def retrievalError (reasonCode detailCode message : String) : PyError := memoryError .retrieval reasonCode detailCode message

/-- The decision on one exact version. -/
def materializationPermitted (ports : RetrievalPorts) (item : GovernedMemoryItem) (context : GovernedContext) :
    Except PyError Bool := do
  let answer ← match ports.authorizeMaterialization item context with
    | .ok answer => .ok answer
    | .error e =>
      if e.cls.isMemoryError then .error e
      else .error (retrievalError "CONTROL_PLANE_UNAVAILABLE" "POLICY_UNAVAILABLE"
        "materialisation policy evaluation failed closed")
  let decision ← orRaise answer (retrievalError "CONTROL_PLANE_UNAVAILABLE" "POLICY_DECISION_INVALID" "no policy decision")
  refuseIf (decision.policyBundleDigest ≠ context.policyBundleDigest)
    (retrievalError "STALE_POLICY" "POLICY_BUNDLE_MISMATCH"
      "materialisation decision was not evaluated against the context bundle")
  return decision.permitted

namespace SearchPlan

/-- `partition_digests`. -/
def partitionDigests (plan : SearchPlan) : List PyStr := plan.partitions.map MemoryPartition.digest

/-- The status and the deletion epoch. -/
def isCurrent (item : GovernedMemoryItem) : Bool := item.lifecycleStatus = .active && item.deletionEpoch.isNone

/-- The kind and the scope are requested. -/
def isRequested (plan : SearchPlan) (item : GovernedMemoryItem) : Bool :=
  item.memoryKind ∈ plan.query.memoryKinds && item.memoryScope ∈ plan.query.memoryScopes

/-- Valid at the instant of the plan. -/
def isValid (plan : SearchPlan) (item : GovernedMemoryItem) : Bool :=
  !(decide (plan.validAt < item.validFrom) || item.validUntil.any fun validUntil => validUntil ≤ plan.validAt)

/-- Not expired now. -/
def isUnexpired (plan : SearchPlan) (item : GovernedMemoryItem) : Bool :=
  !(item.expiresAt.any fun expiresAt => expiresAt ≤ plan.now)

/-- The checks on the item alone. -/
def itemChecks (plan : SearchPlan) (item : GovernedMemoryItem) : Bool :=
  isCurrent item && plan.isRequested item && plan.isValid item && plan.isUnexpired item && plan.query.filters.accepts item

/-- `_eligible`. -/
def eligible (plan : SearchPlan) (metadata : MetadataStore) (ports : RetrievalPorts) (memoryItemId : PyStr)
    (memoryVersion : ℕ) : Except PyError (Option SearchCandidate) :=
  match metadata.get memoryItemId memoryVersion with
  | none => .ok none
  | some stored =>
    if stored.state ≠ .committed then .ok none
    else if stored.staged.partition.digest ∉ plan.partitionDigests then .ok none
    else do
      let item ← stored.staged.verify
      let dominated :=
        match ports.dominates plan.context.classificationMarkingRef item.classificationMarkingRef with
        | .ok dominated => .ok dominated
        | .error e => if e.cls.isMemoryError then .ok false else .error e
      let permitted ← allOf [
        .ok (decide (metadata.head item.memoryItemId = item.memoryVersion)), .ok (isCurrent item),
        .ok (plan.isRequested item), .ok (supported item.memoryKind item.memoryScope), .ok (plan.isValid item),
        .ok (plan.isUnexpired item), .ok (decide (item.compartments ⊆ plan.context.compartments)), dominated,
        .ok (plan.query.filters.accepts item), materializationPermitted ports item plan.context]
      return if permitted then some ⟨stored, item, stored.staged.partition⟩ else none

end SearchPlan
end OcorRuntime.Memory
