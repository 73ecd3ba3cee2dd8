import OcorRuntime.Canonical.FixedPoint
import OcorRuntime.Kernel.Governance
import OcorRuntime.Kernel.Records

/-! The boundary codec of the governed context (`kernel/governed_context.py`, with the set order and
the digest check of `kernel/canonical.py`). The same eleven fields arrive as JSON text, as a mapping or
as a message; every decoder validates them, compares the context with the one of a verified binding
and recomputes its digest. -/
namespace OcorRuntime.Kernel
open Canonical
set_option autoImplicit false
set_option maxHeartbeats 250000

inductive ContextErrorCode
  | governedContextInvalid
  | governedContextIncomplete
  | governedContextAdditionalProperty
  | governedContextMismatch
deriving DecidableEq

/-- The error of this boundary; `%s` in the message marks the place of each argument. -/
structure GovernedContextError where
  code : ContextErrorCode
  message : String
  args : List PyStr := []
deriving DecidableEq

/-! ## Sets and digests -/

/-- The order of `canonical_set`: by the canonical bytes. -/
def BytesLe {α : Type} (a b : Bytes × α) : Prop := a.1 ≤ b.1

instance {α : Type} : DecidableRel (BytesLe (α := α)) := fun _ _ => inferInstanceAs (Decidable (_ ≤ _))

/-- `canonical_set`, of strings. -/
def canonicalSet (values : List PyStr) : Except PyError (List PyStr) := do
  let keyed ← values.mapM fun value => (canonicalize (.str value)).map fun bytes => (bytes, value)
  let sorted := keyed.insertionSort BytesLe
  refuseIf (¬ sorted.IsChain fun previous current => previous.1 ≠ current.1)
    (canonicalizationError "duplicate canonical value in semantic set")
  return sorted.map Prod.snd

/-- `verify_canonical_digest`; a claim that is no string fails the first check. -/
def verifyCanonicalDigest (value claimedDigest : PyValue) : Except PyError PyStr :=
  match claimedDigest with
  | .str claimed =>
    if ¬ IsDigest claimed then .error (canonicalizationError "claimed digest is not a canonical SHA-256 URN")
    else do
      let bytes ← canonicalize value
      let calculated := py "urn:sha256:" ++ Sha256.hexdigest bytes
      refuseIf (calculated ≠ claimed) (canonicalizationError "canonical digest mismatch")
      return calculated
  | _ => .error (canonicalizationError "claimed digest is not a canonical SHA-256 URN")

/-! ## Field checks -/

def contextInvalid {α : Type} (message : String) (args : List PyStr) : Except GovernedContextError α :=
  .error ⟨.governedContextInvalid, message, args⟩

/-- `_required_string`. -/
def requiredString (field : String) : PyValue → Except GovernedContextError PyStr
  | .str (c :: value) => .ok (c :: value)
  | _ => contextInvalid "%s must be a non-empty string without coercion" [py field]

/-- `_required_digest`. -/
def requiredDigest (field : String) (value : PyValue) : Except GovernedContextError PyStr := do
  let result ← requiredString field value
  if IsDigest result then return result else contextInvalid "%s must be a canonical SHA-256 URN" [py field]

/-- The checks of `_required_array` on the items of a sequence. -/
def requiredItems (field : String) (value : List PyValue) (semanticSet : Bool) :
    Except GovernedContextError (List PyStr) := do
  let items ← value.mapM (requiredString field)
  if items = [] then contextInvalid "%s must be a non-empty array" [py field]
  else if ¬ items.Nodup then contextInvalid "%s contains a duplicate value" [py field]
  else if semanticSet then
    match canonicalSet items with
    | .ok sorted => return sorted
    | .error e => contextInvalid e.message []
  else return items

/-- `_required_array`. -/
def requiredArray (field : String) (value : PyValue) (semanticSet : Bool) : Except GovernedContextError (List PyStr) :=
  match value with
  | .list items | .tuple items => requiredItems field items semanticSet
  | _ => contextInvalid "%s must be a non-empty array" [py field]

/-- `_required_mapping_array`: at a mapping boundary an array is a list. -/
def requiredMappingArray (field : String) (value : PyValue) (semanticSet : Bool) :
    Except GovernedContextError (List PyStr) :=
  match value with
  | .list _ => requiredArray field value semanticSet
  | _ => contextInvalid "%s must be a non-empty array" [py field]

/-! ## The record -/

/-- `GCS_FIELDS`. -/
def gcsFields : List PyStr :=
  [py "tenant_id", py "organization_id", py "domain_id", py "compartments", py "classification_marking_ref",
    py "purpose", py "effective_principal_id", py "actor_chain", py "ontology_release_digest",
    py "policy_bundle_digest", py "correlation_id"]

namespace GovernedContext

/-- `GovernedContext(...)` with `__post_init__`, of the values given for its fields. -/
def create (value : String → PyValue) : Except GovernedContextError GovernedContext := do
  let tenantId ← requiredString "tenant_id" (value "tenant_id")
  let organizationId ← requiredString "organization_id" (value "organization_id")
  let domainId ← requiredString "domain_id" (value "domain_id")
  let purpose ← requiredString "purpose" (value "purpose")
  let effectivePrincipalId ← requiredString "effective_principal_id" (value "effective_principal_id")
  let compartments ← requiredArray "compartments" (value "compartments") true
  let actorChain ← requiredArray "actor_chain" (value "actor_chain") false
  let classificationMarkingRef ← requiredDigest "classification_marking_ref" (value "classification_marking_ref")
  let ontologyReleaseDigest ← requiredDigest "ontology_release_digest" (value "ontology_release_digest")
  let policyBundleDigest ← requiredDigest "policy_bundle_digest" (value "policy_bundle_digest")
  let correlationId ← requiredString "correlation_id" (value "correlation_id")
  return ⟨tenantId, organizationId, domainId, compartments, classificationMarkingRef, purpose, effectivePrincipalId,
    actorChain, ontologyReleaseDigest, policyBundleDigest, correlationId⟩

/-- The members of `to_mapping`, in their order. -/
def members (c : GovernedContext) : List (PyStr × PyValue) :=
  [(py "tenant_id", .str c.tenantId), (py "organization_id", .str c.organizationId), (py "domain_id", .str c.domainId),
    (py "compartments", strings c.compartments), (py "classification_marking_ref", .str c.classificationMarkingRef),
    (py "purpose", .str c.purpose), (py "effective_principal_id", .str c.effectivePrincipalId),
    (py "actor_chain", strings c.actorChain), (py "ontology_release_digest", .str c.ontologyReleaseDigest),
    (py "policy_bundle_digest", .str c.policyBundleDigest), (py "correlation_id", .str c.correlationId)]

/-- `value[field]`, on a mapping known to have the field. -/
def item (value : List (PyStr × PyValue)) (field : String) : PyValue := (Dict.find value (py field)).getD .none

/-- `from_mapping`, of the members of a mapping with string keys. -/
def fromMapping (value : List (PyStr × PyValue)) : Except GovernedContextError GovernedContext := do
  let present := value.map Prod.fst
  let missing := (gcsFields.filter fun field => field ∉ present).insertionSort (· ≤ ·)
  let additional := (present.filter fun key => key ∉ gcsFields).insertionSort (· ≤ ·)
  if missing ≠ [] then .error ⟨.governedContextIncomplete, "missing GovernedContext fields: %s", missing⟩
  else if additional ≠ [] then
    .error ⟨.governedContextAdditionalProperty, "additional GovernedContext fields: %s", additional⟩
  else
    -- the arrays are arguments of the constructor: they are checked before its own checks
    let compartments ← requiredMappingArray "compartments" (item value "compartments") true
    let actorChain ← requiredMappingArray "actor_chain" (item value "actor_chain") false
    create fun field =>
      if field = "compartments" then .tuple (compartments.map .str)
      else if field = "actor_chain" then .tuple (actorChain.map .str)
      else item value field

end GovernedContext

/-! ## The codec -/

/-- The fields of `InvocationContext` the codec reads and writes. -/
structure InvocationContext where
  tenantId : PyStr
  organizationId : PyStr
  domainId : PyStr
  compartments : List PyStr
  classificationMarkingRef : PyStr
  purpose : PyStr
  ontologyReleaseDigest : PyStr
  policyBundleDigest : PyStr
  correlationId : PyStr
  governedContextDigest : PyStr

/-- `PROTO_DECLARED_FIELDS` with the values the message has for them. -/
def InvocationContext.declared (m : InvocationContext) : List (PyStr × PyValue) :=
  [(py "tenant_id", .str m.tenantId), (py "organization_id", .str m.organizationId), (py "domain_id", .str m.domainId),
    (py "compartments", strings m.compartments), (py "classification_marking_ref", .str m.classificationMarkingRef),
    (py "purpose", .str m.purpose), (py "ontology_release_digest", .str m.ontologyReleaseDigest),
    (py "policy_bundle_digest", .str m.policyBundleDigest), (py "correlation_id", .str m.correlationId)]

namespace GovernedContextCodec
open GovernedContext

/-- `_require_binding`; a binding argument that is no verified binding is `none`. -/
def requireBinding (binding : Option VerifiedGovernedContextBinding) :
    Except GovernedContextError VerifiedGovernedContextBinding :=
  orRaise binding ⟨.governedContextMismatch, "a verified binding is required", []⟩

/-- The fields two contexts differ in. -/
def differing (candidate expected : GovernedContext) : List PyStr :=
  gcsFields.filter fun field => Dict.find candidate.members field ≠ Dict.find expected.members field

/-- `_admit`. -/
def admitContext (candidate : GovernedContext) (binding : Option VerifiedGovernedContextBinding) (claimedDigest : PyValue) :
    Except GovernedContextError GovernedContext := do
  let binding ← requireBinding binding
  if candidate ≠ binding.expected then
    .error ⟨.governedContextMismatch, "binding mismatch for: %s", differing candidate binding.expected⟩
  else
    match verifyCanonicalDigest candidate.toMapping claimedDigest with
    | .error e => .error ⟨.governedContextMismatch, "governed context digest mismatch: " ++ e.message, []⟩
    | .ok _ => return candidate

def toJson (context : GovernedContext) : Except PyError Bytes := canonicalize context.toMapping

def fromJson (payload : Document) (binding : Option VerifiedGovernedContextBinding) (claimedDigest : PyValue) :
    Except GovernedContextError GovernedContext :=
  match loadIJson payload with
  | .error e => contextInvalid ("invalid JSON or duplicate key: " ++ e.message) []
  | .ok (.mapping entries) => do
    let candidate ← fromMapping (entries.map fun entry => (keyText entry.1, entry.2))
    admitContext candidate binding claimedDigest
  | .ok _ => contextInvalid "GovernedContext JSON must be an object" []

theorem members_nodup (context : GovernedContext) : (context.members.map Prod.fst).Nodup := by
  have hfields : gcsFields.Nodup := by decide
  exact hfields

def toOpenapi (context : GovernedContext) : Dict PyStr PyValue := ⟨context.members, members_nodup context⟩

def fromOpenapi (value : Dict PyStr PyValue) (binding : Option VerifiedGovernedContextBinding)
    (claimedDigest : PyValue) : Except GovernedContextError GovernedContext := do
  let candidate ← fromMapping value.entries
  admitContext candidate binding claimedDigest

/-- `to_proto`: every declared field of the message is set. -/
def toProto (context : GovernedContext) (message : InvocationContext) : InvocationContext :=
  { message with
    tenantId := context.tenantId
    organizationId := context.organizationId
    domainId := context.domainId
    compartments := context.compartments
    classificationMarkingRef := context.classificationMarkingRef
    purpose := context.purpose
    ontologyReleaseDigest := context.ontologyReleaseDigest
    policyBundleDigest := context.policyBundleDigest
    correlationId := context.correlationId
    governedContextDigest := context.digest }

/-- `from_proto`: the fields the message does not carry come from the binding. -/
def fromProto (message : InvocationContext) (binding : Option VerifiedGovernedContextBinding) :
    Except GovernedContextError GovernedContext := do
  let verified ← requireBinding binding
  let values := message.declared.foldl (fun acc entry => Dict.put entry.1 entry.2 acc) verified.expected.members
  let candidate ← fromMapping values
  admitContext candidate binding (.str message.governedContextDigest)

end GovernedContextCodec
end OcorRuntime.Kernel
