import OcorRuntime.Canonical.Refusals
import OcorRuntime.Kernel.ContextBoundaries
import OcorRuntime.Kernel.Timestamps

/-! How the governance boundary refuses (`kernel/governance.py`): the constructor of a
`GovernanceFault` checks its own title and identifiers, so that a refusal may end in another
exception. A `UnicodeEncodeError` and an `IdentifierError` are kept as the `ValueError` they are. -/
namespace OcorRuntime.Governance
open Canonical Kernel
set_option autoImplicit false
set_option maxHeartbeats 250000

/-! ## Faults -/

/-- A title that fits: UTF-8 text of at most 256 bytes without control characters. -/
def TitleFits (title : PyStr) : Prop :=
  title ≠ [] ∧ Scalar title ∧ (utf8Encode title).length ≤ 256 ∧ ∀ c ∈ title, 32 ≤ c.val

instance (title : PyStr) : Decidable (TitleFits title) :=
  haveI : Decidable (∀ c ∈ title, 32 ≤ c.val) := List.decidableBAll (fun c : CodePoint => 32 ≤ c.val) title
  inferInstanceAs (Decidable (_ ∧ _ ∧ _ ∧ _))

/-- A `GovernanceFault` that was built. -/
structure GovernanceFault where
  reasonCode : FaultReason
  correlationId : PyStr
  causationId : Option PyStr
  title : PyStr
  titled : TitleFits title
  traced : IsIdentifier correlationId ∧ ∀ c ∈ causationId, IsIdentifier c

/-- What a boundary ends in without a result. -/
inductive Refusal
  | fault (f : GovernanceFault)
  | raised (e : PyError)

inductive Refusal.IsFault : Refusal → Prop
  | intro (f : GovernanceFault) : IsFault (.fault f)

def titleError : PyError := ⟨.valueError, "a non-control, UTF-8 title of at most 256 bytes is required", []⟩

def encodeError : PyError := ⟨.valueError, "'utf-8' codec can't encode characters: surrogates not allowed", []⟩

def identifierError (field : String) : PyError := ⟨.valueError, field ++ " must be a canonical UUID", []⟩

/-- `_fault(...)`, to be raised; the failure class is the one the reason declares. -/
def fault (reason : FaultReason) (correlationId title : PyStr) (causationId : Option PyStr := none) : Refusal :=
  if title = [] then .raised titleError
  else if ¬ Scalar title then .raised encodeError
  else if h : TitleFits title then
    if hcorrelation : IsIdentifier correlationId then
      if hcausation : ∀ c ∈ causationId, IsIdentifier c then
        .fault ⟨reason, correlationId, causationId, title, h, hcorrelation, hcausation⟩
      else .raised (identifierError "causation_id")
    else .raised (identifierError "correlation_id")
  else .raised titleError

/-! ## Field checks -/

/-- `_string`. -/
def string (field : String) (value : PyValue) (correlationId : PyStr := correlationZero) : Except Refusal {s : PyStr // s ≠ []} :=
  match value with
  | .str (c :: s) => .ok ⟨c :: s, List.cons_ne_nil c s⟩
  | _ => .error (fault .governanceRecordInvalid correlationId (py (field ++ " is required")))

/-- `_digest`. -/
def digest (field : String) (value : PyValue) (correlationId : PyStr := correlationZero) :
    Except Refusal {s : PyStr // IsDigest s} := do
  let result ← string field value correlationId
  let ⟨h⟩ ← require (IsDigest result)
    (fault .governanceRecordInvalid correlationId (py (field ++ " is not a SHA-256 URN")))
  return ⟨result, h⟩

/-- A counter of a lease, from `low` on; a boolean is none. -/
def counter (field : String) (low : ℤ) (value : PyValue) : Except Refusal {n : ℤ // low ≤ n} :=
  match value with
  | .int n => do
    let ⟨h⟩ ← require (low ≤ n) (fault .leaseInvalid correlationZero (py (field ++ " is invalid")))
    return ⟨n, h⟩
  | _ => .error (fault .leaseInvalid correlationZero (py (field ++ " is invalid")))

/-- The type a message names. -/
def typeName : PyValue → String
  | .none => "NoneType"
  | .bool _ => "bool"
  | .int _ => "int"
  | .float _ => "float"
  | .str _ => "str"
  | .list _ => "list"
  | .tuple _ => "tuple"
  | .mapping _ => "dict"
  | .other name => name

/-- `tuple(value)`, of a JSON value. -/
def tupleOf : PyValue → Except PyError (List PyValue)
  | .list items | .tuple items => .ok items
  | .str s => .ok (s.map fun c => .str [c])
  | .mapping entries => .ok (entries.map fun e => match e.1 with
    | .str s => .str s
    | .other _ => .other "key")
  | value => .error ⟨.typeError, "'" ++ typeName value ++ "' object is not iterable", []⟩

def textOf? : PyValue → Option PyStr
  | .str (c :: s) => some (c :: s)
  | _ => none

/-- What `_refs` returns: a non-empty array of distinct texts. -/
def Listed (items : List PyStr) : Prop := items ≠ [] ∧ (∀ s ∈ items, s ≠ []) ∧ items.Nodup

theorem listed_texts {items : List PyValue} (h : ¬ (items = [] ∨ ∃ item ∈ items, (textOf? item).isNone))
    (hnodup : (items.filterMap textOf?).Nodup) : Listed (items.filterMap textOf?) := by
  rw [not_or, not_exists] at h
  refine ⟨fun hnil => ?_, fun s hs hempty => ?_, hnodup⟩
  · obtain ⟨item, rest, rfl⟩ := List.exists_cons_of_ne_nil h.1
    exact h.2 item ⟨List.mem_cons_self, Option.isNone_iff_eq_none.mpr (List.filterMap_eq_nil_iff.mp hnil item List.mem_cons_self)⟩
  · obtain ⟨item, -, htext⟩ := List.mem_filterMap.mp hs
    unfold textOf? at htext
    split at htext
    · rw [← Option.some.inj htext] at hempty
      cases hempty
    · cases htext

/-- `_refs`. -/
def refs (field : String) (value : PyValue) (correlationId : PyStr) : Except Refusal {l : List PyStr // Listed l} :=
  match value with
  | .str _ => .error (fault .provenanceIncomplete correlationId (py (field ++ " must be an array")))
  | value => do
    let items ← (tupleOf value).mapError .raised
    let ⟨h⟩ ← require (¬ (items = [] ∨ ∃ item ∈ items, (textOf? item).isNone))
      (fault .provenanceIncomplete correlationId (py (field ++ " is incomplete")))
    let ⟨hnodup⟩ ← require (items.filterMap textOf?).Nodup
      (fault .provenanceIncomplete correlationId (py (field ++ " has duplicates")))
    return ⟨items.filterMap textOf?, listed_texts h hnodup⟩

/-- `parse_utc_timestamp`, of any value. -/
def timestamp : PyValue → Except PyError Instant
  | .str s => parseUtcTimestamp s
  | _ => .error (timestampError "timestamp must be canonical RFC 3339 UTC with Z suffix")

/-- `except (KeyError, TypeError, ValueError) as exc`. -/
def isCaught : ErrorClass → Bool
  | .keyError | .typeError | .valueError | .timestampError => true
  | _ => false

/-- The handler of the two readers: what is caught becomes a fault that carries its text. -/
def guarded {α : Type} (reason : FaultReason) (label : String) (x : Except Refusal α) : Except Refusal α :=
  match x with
  | .error (.raised e) =>
    .error (if isCaught e.cls then fault reason correlationZero (py (label ++ e.message)) else .raised e)
  | x => x

/-! ## Closed records -/

/-- `', '.join(names)`. -/
def joined (names : List PyStr) : PyStr := (py ", ").intercalate names

def missingFields (required : List String) (value : Dict PyStr PyValue) : List PyStr :=
  ((required.map py).filter fun name => name ∉ value.keys).insertionSort (· ≤ ·)

def additionalFields (required : List String) (value : Dict PyStr PyValue) : List PyStr :=
  (value.keys.filter fun name => name ∉ required.map py).insertionSort (· ≤ ·)

/-- The title that names the additional fields. -/
def additionalTitle (record : String) (required : List String) (value : Dict PyStr PyValue) : PyStr :=
  py ("additional " ++ record ++ " fields: ") ++ joined (additionalFields required value)

/-- The fields of a record are these and no others. -/
def closed (reason : FaultReason) (record : String) (required : List String) (value : Dict PyStr PyValue) :
    Except Refusal Unit := do
  refuseIf (missingFields required value ≠ []) (fault reason correlationZero
    (py ("missing " ++ record ++ " fields: ") ++ joined (missingFields required value)))
  refuseIf (additionalFields required value ≠ []) (fault reason correlationZero (additionalTitle record required value))

/-- `value[name]`, of a field that is there. -/
def item (value : Dict PyStr PyValue) (name : String) : PyValue := (value.get? (py name)).getD .none

/-! ### Leases -/

/-- `CapabilityLease.fields`. -/
def leaseFields : List String :=
  ["lease_id", "capability_id", "effective_principal_id", "delegation_ref", "action_instance_id",
    "governed_context_digest", "gate_package_digest", "stop_epoch", "fencing_token", "issued_at", "expires_at"]

theorem window_of {issuedAt expiresAt : Instant} (hopen : issuedAt < expiresAt) (hshort : expiresAt - issuedAt ≤ 5000000) :
    issuedAt < expiresAt ∧ expiresAt - issuedAt ≤ 5000000 :=
  ⟨hopen, hshort⟩

/-- `CapabilityLease(...)` with `__post_init__`, of instants that were parsed and are aware. -/
def createLease (value : String → PyValue) (issuedAt expiresAt : Instant) : Except Refusal CapabilityLease := do
  let leaseId ← string "lease_id" (value "lease_id")
  let capabilityId ← string "capability_id" (value "capability_id")
  let effectivePrincipalId ← string "effective_principal_id" (value "effective_principal_id")
  let actionInstanceId ← string "action_instance_id" (value "action_instance_id")
  let delegationRef ← digest "delegation_ref" (value "delegation_ref")
  let governedContextDigest ← digest "governed_context_digest" (value "governed_context_digest")
  let gatePackageDigest ← digest "gate_package_digest" (value "gate_package_digest")
  let stopEpoch ← counter "stop_epoch" 0 (value "stop_epoch")
  let fencingToken ← counter "fencing_token" 1 (value "fencing_token")
  let ⟨hopen⟩ ← require (issuedAt < expiresAt) (fault .leaseInvalid correlationZero (py "lease validity window is empty"))
  let ⟨hshort⟩ ← require (expiresAt - issuedAt ≤ 5000000)
    (fault .leaseInvalid correlationZero (py "lease TTL exceeds five seconds"))
  return {
    leaseId := leaseId, capabilityId := capabilityId, effectivePrincipalId := effectivePrincipalId,
    delegationRef := delegationRef, actionInstanceId := actionInstanceId,
    governedContextDigest := governedContextDigest, gatePackageDigest := gatePackageDigest, stopEpoch := stopEpoch,
    fencingToken := fencingToken, issuedAt := issuedAt, expiresAt := expiresAt,
    identified := ⟨leaseId.2, capabilityId.2, effectivePrincipalId.2, actionInstanceId.2⟩,
    bound := ⟨delegationRef.2, governedContextDigest.2, gatePackageDigest.2⟩, counted := ⟨stopEpoch.2, fencingToken.2⟩,
    window := window_of hopen hshort }

/-- `CapabilityLease.from_mapping`. -/
def leaseFromMapping (value : Dict PyStr PyValue) : Except Refusal CapabilityLease := do
  closed .leaseInvalid "lease" leaseFields value
  guarded .leaseInvalid "invalid lease: " do
    let issuedAt ← (timestamp (item value "issued_at")).mapError .raised
    let expiresAt ← (timestamp (item value "expires_at")).mapError .raised
    createLease (item value) issuedAt expiresAt

/-! ### Provenance -/

/-- `ProvenanceRecord.fields`. -/
def provenanceFields : List String :=
  ["provenance_id", "evidence_refs", "source_refs", "activity_refs", "actor_refs", "governed_context_digest",
    "correlation_id", "causation_id", "created_at"]

structure ProvenanceRecord where
  provenanceId : PyStr
  evidenceRefs : List PyStr
  sourceRefs : List PyStr
  activityRefs : List PyStr
  actorRefs : List PyStr
  governedContextDigest : PyStr
  correlationId : PyStr
  causationId : PyStr
  createdAt : Instant
  named : provenanceId ≠ []
  listed : Listed evidenceRefs ∧ Listed sourceRefs ∧ Listed activityRefs ∧ Listed actorRefs
  bound : IsDigest governedContextDigest
  traced : IsIdentifier correlationId ∧ IsIdentifier causationId

/-- What `_validate_identifier` says of a value it refuses; `uuid` tells whether `uuid.UUID` reads a text, and what
it writes it as. -/
def identifierText (uuid : PyStr → Option PyStr) (field : String) (value : PyValue) : String :=
  match value with
  | .str (c :: s) =>
    match uuid (c :: s) with
    | none => field ++ " must be a canonical UUID"
    | some written =>
      if written ≠ c :: s then field ++ " must use lowercase hyphenated canonical form"
      else field ++ " must be a non-nil RFC 4122 UUID"
  | _ => field ++ " must be a non-empty canonical UUID"

/-- An identifier of the causal binding. -/
def causal (uuid : PyStr → Option PyStr) (field : String) (value : PyValue) : Except Refusal {s : PyStr // IsIdentifier s} :=
  let invalid := fault .provenanceIncomplete correlationZero
    (py ("causal binding invalid: " ++ identifierText uuid field value))
  match value with
  | .str s => if h : IsIdentifier s then .ok ⟨s, h⟩ else .error invalid
  | _ => .error invalid

/-- `except GovernanceFault as exc`: the fault is raised again under another reason. -/
def reworded {α : Type} (reason : FaultReason) (correlationId : PyStr) (x : Except Refusal α) : Except Refusal α :=
  match x with
  | .error (.fault f) => .error (fault reason correlationId f.title)
  | x => x

/-- `ProvenanceRecord(...)` with `__post_init__`. -/
def ProvenanceRecord.create (uuid : PyStr → Option PyStr) (value : String → PyValue) (createdAt : Instant) :
    Except Refusal ProvenanceRecord := do
  let correlationId ← causal uuid "correlation_id" (value "correlation_id")
  let causationId ← causal uuid "causation_id" (value "causation_id")
  let provenanceId ← string "provenance_id" (value "provenance_id") correlationId
  let evidenceRefs ← refs "evidence_refs" (value "evidence_refs") correlationId
  let sourceRefs ← refs "source_refs" (value "source_refs") correlationId
  let activityRefs ← refs "activity_refs" (value "activity_refs") correlationId
  let actorRefs ← refs "actor_refs" (value "actor_refs") correlationId
  let governedContextDigest ← reworded .provenanceIncomplete correlationId
    (digest "governed_context_digest" (value "governed_context_digest") correlationId)
  return {
    provenanceId := provenanceId, evidenceRefs := evidenceRefs, sourceRefs := sourceRefs, activityRefs := activityRefs,
    actorRefs := actorRefs, governedContextDigest := governedContextDigest, correlationId := correlationId,
    causationId := causationId, createdAt := createdAt, named := provenanceId.2,
    listed := ⟨evidenceRefs.2, sourceRefs.2, activityRefs.2, actorRefs.2⟩, bound := governedContextDigest.2,
    traced := ⟨correlationId.2, causationId.2⟩ }

/-- `ProvenanceRecord.from_mapping`, of a mapping. -/
def ProvenanceRecord.fromMapping (uuid : PyStr → Option PyStr) (value : Dict PyStr PyValue) :
    Except Refusal ProvenanceRecord := do
  closed .provenanceIncomplete "provenance" provenanceFields value
  guarded .provenanceIncomplete "invalid provenance: " do
    let createdAt ← (timestamp (item value "created_at")).mapError .raised
    ProvenanceRecord.create uuid (item value) createdAt

/-! ### Authority -/

inductive RiskClass
  | r0Informational
  | r1Low
  | r2Controlled
  | r3HighImpact
deriving DecidableEq

/-- The value of the `IntEnum`. -/
def RiskClass.value : RiskClass → ℕ
  | r0Informational => 0
  | r1Low => 1
  | r2Controlled => 2
  | r3HighImpact => 3

/-- An `Authority` that was built. -/
structure Authority where
  authorityId : PyStr
  effectivePrincipalId : PyStr
  capabilityIds : List PyStr
  resourceScopes : List PyStr
  tenantId : PyStr
  domains : List PyStr
  compartments : List PyStr
  permittedPurposes : List PyStr
  riskCeiling : RiskClass
  notBefore : Instant
  expiresAt : Instant
  delegationRef : PyStr
  policyBundleDigest : PyStr
  signatureRef : PyStr
  named : authorityId ≠ [] ∧ effectivePrincipalId ≠ [] ∧ tenantId ≠ [] ∧ signatureRef ≠ []
  listed : Listed capabilityIds ∧ Listed resourceScopes ∧ Listed domains ∧ Listed compartments ∧ Listed permittedPurposes
  bound : IsDigest delegationRef ∧ IsDigest policyBundleDigest
  window : notBefore < expiresAt

/-- An `AuthorityRequest` that was built. -/
structure AuthorityRequest where
  capabilityId : PyStr
  resourceScope : PyStr
  riskClass : RiskClass
  governedContext : GovernedContext
  at' : Instant
  causationId : Option PyStr
  named : capabilityId ≠ [] ∧ resourceScope ≠ []
  governed : Admissible governedContext
  caused : ∀ c ∈ causationId, IsIdentifier c

structure VerifiedAuthorityBinding where
  bindingRef : PyStr
  delegationRef : PyStr
  expectedContext : GovernedContext
  named : bindingRef ≠ []
  bound : IsDigest delegationRef
  governed : Admissible expectedContext

structure AuthorityDecision where
  authorityId : PyStr
  governedContextDigest : PyStr
  purpose : PyStr
  validUntil : Instant

/-- The binding is missing, or is of another delegation or context. -/
def BindingDiffers (authority : Authority) (context : GovernedContext) : Option VerifiedAuthorityBinding → Prop
  | none => True
  | some binding => authority.delegationRef ≠ binding.delegationRef ∨ context ≠ binding.expectedContext ∨
      context.actorChain ≠ binding.expectedContext.actorChain

instance (authority : Authority) (context : GovernedContext) (binding : Option VerifiedAuthorityBinding) :
    Decidable (BindingDiffers authority context binding) :=
  match binding with
  | none => isTrue trivial
  | some _ => inferInstanceAs (Decidable (_ ∨ _ ∨ _))

/-- `in_scope`. -/
def InScope (authority : Authority) (request : AuthorityRequest) : Prop :=
  let context := request.governedContext
  context.effectivePrincipalId = authority.effectivePrincipalId ∧ request.capabilityId ∈ authority.capabilityIds ∧
    request.resourceScope ∈ authority.resourceScopes ∧ context.tenantId = authority.tenantId ∧
    context.domainId ∈ authority.domains ∧ (∀ c ∈ context.compartments, c ∈ authority.compartments) ∧
    context.purpose ∈ authority.permittedPurposes ∧ request.riskClass.value ≤ authority.riskCeiling.value ∧
    context.policyBundleDigest = authority.policyBundleDigest

instance (authority : Authority) (request : AuthorityRequest) : Decidable (InScope authority request) :=
  inferInstanceAs (Decidable (_ ∧ _ ∧ _ ∧ _ ∧ _ ∧ _ ∧ _ ∧ _ ∧ _))

/-- `context.digest()`, with the errors of canonicalization. -/
def contextDigest (context : GovernedContext) : Except Refusal PyStr :=
  ((canonicalize context.toMapping).map fun bytes => py "urn:sha256:" ++ Sha256.hexdigest bytes).mapError .raised

def validateAuthority (authority : Authority) (request : AuthorityRequest) (signatureVerified revoked : Bool)
    (verifiedBinding : Option VerifiedAuthorityBinding) : Except Refusal AuthorityDecision := do
  let context := request.governedContext
  let denied (reason : FaultReason) (title : String) : Refusal :=
    fault reason context.correlationId (py title) request.causationId
  refuseIf (signatureVerified = false ∨ authority.signatureRef = [])
    (denied .authorityUnsigned "Authority signature is not verified")
  refuseIf (revoked = true) (denied .authorityRevoked "Authority is revoked")
  refuseIf (BindingDiffers authority context verifiedBinding)
    (denied .authorityBindingMismatch "Authority delegation or verified GovernedContext binding differs")
  refuseIf (request.at' < authority.notBefore) (denied .authorityNotYetValid "Authority is not yet valid")
  refuseIf (authority.expiresAt ≤ request.at') (denied .authorityExpired "Authority is expired")
  refuseIf (¬ InScope authority request)
    (denied .authorityScopeMismatch "Authority does not contain the requested scope, purpose, risk, or binding")
  let governedContextDigest ← contextDigest context
  return ⟨authority.authorityId, governedContextDigest, context.purpose, authority.expiresAt⟩

end OcorRuntime.Governance
