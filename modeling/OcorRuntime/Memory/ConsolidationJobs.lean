import OcorRuntime.Memory.ClaimMerge

/-! What a consolidation is configured with and what it leaves behind
(`memory/consolidation.py`): pinned algorithms and approved profiles, jobs and their
completion records, the registered references, and the guard that admits derived memory
only while the service expects it. -/
namespace OcorRuntime.Memory
open Canonical Kernel
set_option autoImplicit false
set_option maxHeartbeats 250000

/-! ## Algorithms and profiles -/

structure ConsolidationAlgorithm where
  algorithmRef : PyStr
  specification : PyValue
  modelRef : Option PyStr := none
  modelDigest : Option PyStr := none

namespace ConsolidationAlgorithm

def algorithmDigest (a : ConsolidationAlgorithm) : PyStr := canonicalDigest a.specification

def pins (a : ConsolidationAlgorithm) : PyValue :=
  let optional (text : Option PyStr) : Option PyValue := some ((text.map .str).getD .none)
  fields [("algorithm_ref", some (.str a.algorithmRef)), ("algorithm_digest", some (.str a.algorithmDigest)),
    ("model_ref", optional a.modelRef), ("model_digest", optional a.modelDigest)]

end ConsolidationAlgorithm

/-- `CLAIM_MERGE`, the one implemented algorithm. -/
def claimMerge : ConsolidationAlgorithm where
  algorithmRef := py "urn:ocor:memory-consolidation-algorithm:claim-merge:1.0"
  specification := fields
    [("name", some (.str (py "claim-merge"))), ("version", some (.str (py "1.0"))),
      ("input", some (.str (py "I-JSON object \x7bassertions: [\x7bsubject, attribute, value\x7d]\x7d"))),
      ("grouping", some (.str (py "(subject, attribute)"))),
      ("agreement", some (.str (py "one canonical value across every supporting version -> statement"))),
      ("disagreement", some (.str (py "two or more canonical values -> UNRESOLVED conflict and DISSENT item"))),
      ("alternative_order", some (.str (py "canonical value bytes, never support count"))),
      ("confidence", some (.str (py "floor6(min input confidence * statements / (statements + conflicts))"))),
      ("deterministic", some (.bool true))]

/-- `CONSOLIDATION_TARGET_KINDS`. -/
def consolidationTargetKinds : List MemoryKind := [.episodic, .semantic, .reflection]

structure ConsolidationProfile where
  profileRef : PyStr
  algorithm : ConsolidationAlgorithm
  targetKinds : List MemoryKind
  reviewerPolicies : Dict PyStr LifecycleStatus
  retentionPolicyRef : PyStr
  automatic : Bool := false
  maxInputs : ℕ := 32
  maxInputBytes : ℕ := 262144
  named : profileRef ≠ [] ∧ retentionPolicyRef ≠ []
  pinned : algorithm.algorithmRef = claimMerge.algorithmRef ∧ algorithm.algorithmDigest = claimMerge.algorithmDigest
  targets : targetKinds ≠ [] ∧ ∀ kind ∈ targetKinds, kind ∈ consolidationTargetKinds
  reviewed : reviewerPolicies.entries ≠ [] ∧ ∀ entry ∈ reviewerPolicies.entries, entry.1 ≠ [] ∧
    (entry.2 = .proposed ∨ entry.2 = .active ∧ automatic = true)
  budgeted : 1 ≤ maxInputs ∧ 1 ≤ maxInputBytes

def ConsolidationProfile.budget (p : ConsolidationProfile) : PyValue :=
  fields [("max_inputs", some (.int p.maxInputs)), ("max_input_bytes", some (.int p.maxInputBytes))]

structure ConsolidationProfileRegistry where
  profiles : List ConsolidationProfile
  /-- "a reviewer policy is ambiguous across profiles". -/
  unambiguous : (profiles.flatMap fun p => p.reviewerPolicies.keys.map fun reviewer =>
    (p.algorithm.algorithmRef, reviewer)).Nodup

/-- `resolve`, with the status the reviewer policy produces. -/
def ConsolidationProfileRegistry.resolve (r : ConsolidationProfileRegistry) (algorithmRef algorithmDigest
    reviewerPolicyRef : PyStr) (targetKind : MemoryKind) : Except PyError (ConsolidationProfile × LifecycleStatus) := do
  let candidates := r.profiles.filter fun p => p.algorithm.algorithmRef = algorithmRef
  refuseIf (candidates.isEmpty = true)
    (consolidationError "UNSUPPORTED_CAPABILITY" "ALGORITHM_NOT_APPROVED"
      "the consolidation algorithm is not in an approved profile")
  refuseIf (∃ p ∈ candidates, p.algorithm.algorithmDigest ≠ algorithmDigest)
    (consolidationError "POLICY_DENIED" "ALGORITHM_DIGEST_MISMATCH"
      "algorithm_digest does not match the approved algorithm pin")
  let (profile, status) ← orRaise
    (candidates.findSome? fun p => (p.reviewerPolicies.get? reviewerPolicyRef).map fun status => (p, status))
    (consolidationError "POLICY_DENIED" "REVIEWER_POLICY_NOT_APPROVED"
      "the reviewer policy is not approved for this algorithm")
  refuseIf (targetKind ∉ profile.targetKinds)
    (consolidationError "UNSUPPORTED_CAPABILITY" "TARGET_KIND_NOT_APPROVED" "%s is not an approved target of the profile"
      [.text (py targetKind.value)])
  return (profile, status)

/-! ## Jobs -/

structure MemoryConsolidationJob where
  operationId : PyStr
  tenantId : PyStr
  isolation : PyValue
  inputQueryDigest : PyStr
  inputRefs : List PyStr
  inputItemDigests : List PyStr
  algorithm : ConsolidationAlgorithm
  profileRef : PyStr
  targetKind : MemoryKind
  targetScope : MemoryScope
  reviewerPolicyRef : PyStr
  budget : PyValue

namespace MemoryConsolidationJob

/-- `to_mapping`; the selection digest is one of the entries. -/
def toMapping (j : MemoryConsolidationJob) : Except PyError PyValue := do
  let selection ← digestOf (.list (List.zipWith (fun ref digest => strings [ref, digest]) j.inputRefs j.inputItemDigests))
  return fields [("operation_id", some (.str j.operationId)), ("tenant_id", some (.str j.tenantId)),
    ("isolation", some j.isolation), ("input_query_digest", some (.str j.inputQueryDigest)),
    ("input_refs", some (strings j.inputRefs)), ("input_item_digests", some (strings j.inputItemDigests)),
    ("input_selection_digest", some (.str selection)), ("algorithm", some j.algorithm.pins),
    ("profile_ref", some (.str j.profileRef)), ("target_memory_kind", some (.str (py j.targetKind.value))),
    ("target_memory_scope", some (.str (py j.targetScope.value))),
    ("reviewer_policy_ref", some (.str j.reviewerPolicyRef)), ("budget", some j.budget)]

def digest (j : MemoryConsolidationJob) : Except PyError PyStr := do
  let mapping ← j.toMapping
  digestOf mapping

end MemoryConsolidationJob

/-- `job_ref` of the job with this digest. -/
def jobRefOf (jobDigest : PyStr) : PyStr := py "urn:ocor:memory-consolidation-job:" ++ hexOf jobDigest

/-- `_isolation`: the context without its correlation id. -/
def isolation (context : GovernedContext) : PyValue :=
  match context.toMapping with
  | .mapping es => .mapping (es.filter fun entry => entry.1 ≠ .str (py "correlation_id"))
  | other => other

/-! ## Outcomes and the job ledger -/

def consolidationLedgerCorrupted (message : String) : PyError :=
  consolidationError "INTERNAL_ERROR" "CONSOLIDATION_LEDGER_CORRUPTED" message

structure ConsolidationReceipt where
  operationId : PyStr
  operationKind : PyStr
  governedContextDigest : PyStr
  auditRef : PyStr
deriving DecidableEq

structure ConsolidationOutcome where
  receipt : ConsolidationReceipt
  operationKind : PyStr
  jobRef : PyStr
  jobDigest : PyStr
  derivedRef : PyStr
  dissentRefs : List PyStr
  lifecycleStatus : LifecycleStatus
deriving DecidableEq

structure ConsolidationJobRecord where
  tenantId : PyStr
  operationId : PyStr
  outcome : ConsolidationOutcome
  auditEvent : Members

/-- `verify`. -/
def ConsolidationJobRecord.verify (record : ConsolidationJobRecord) : Except PyError Unit := do
  let digest ← digestOf (.mapping record.auditEvent)
  refuseIf (digest ≠ record.outcome.receipt.auditRef)
    (consolidationLedgerCorrupted "audit_ref does not bind the audit event")
  refuseIf (memberOf record.auditEvent "job_digest" ≠ .str record.outcome.jobDigest ∨
      memberOf record.auditEvent "operation_id" ≠ .str record.operationId ∨
      record.outcome.receipt.operationId ≠ record.operationId)
    (consolidationLedgerCorrupted "record does not bind its job and operation")

def operationReused : PyError :=
  consolidationError "MEMORY_IDEMPOTENCY_CONFLICT" "CONSOLIDATION_OPERATION_REUSED"
    "operation_id is already bound to another consolidation outcome"

/-- `InMemoryConsolidationJobLedger`: the completed jobs by tenant and operation. -/
abbrev JobLedger := Dict (PyStr × PyStr) ConsolidationJobRecord

def JobLedger.append (jobs : JobLedger) (record : ConsolidationJobRecord) : Except PyError JobLedger := do
  record.verify
  refuseIf ((jobs.get? (record.tenantId, record.operationId)).isSome = true) operationReused
  return jobs.set (record.tenantId, record.operationId) record

/-! ## References -/

/-- A provenance record the service registered. -/
structure RegisteredProvenance extends ProvenanceRecord where
  governedContextDigest : PyStr

/-- What `ConsolidationReferenceResolver` keeps. -/
structure References where
  sources : Dict PyStr PyStr
  provenance : Dict PyStr RegisteredProvenance

namespace References

def register (r : References) (sourceRef sourceDigest : PyStr) (provenance : RegisteredProvenance) : References :=
  ⟨r.sources.set sourceRef sourceDigest, r.provenance.set provenance.provenanceId provenance⟩

/-- The collaborators of an admission, with the registered references in front of the resolver's. -/
def resolver (r : References) (env : AdmissionEnv) : AdmissionEnv :=
  { env with
    sourceDigest := fun n sourceRef context => (r.sources.get? sourceRef).or (env.sourceDigest n sourceRef context)
    provenance := fun n provenanceRef context =>
      match r.provenance.get? provenanceRef with
      | some registered =>
        if registered.governedContextDigest = context.digest then some registered.toProvenanceRecord else none
      | none => env.provenance n provenanceRef context }

end References

/-! ## The guard -/

/-- The item digests the service expects, each with how often. -/
abbrev Expected := Dict PyStr ℕ

namespace Expected

def count (e : Expected) (itemDigest : PyStr) : ℕ := (e.get? itemDigest).getD 0

def expect (e : Expected) (itemDigest : PyStr) : Expected := e.set itemDigest (e.count itemDigest + 1)

def release (e : Expected) (itemDigest : PyStr) : Expected :=
  if e.count itemDigest ≤ 1 then e.erase itemDigest else e.set itemDigest (e.count itemDigest - 1)

end Expected

/-- `_guarded`: why the item enters only through the service. -/
def guardedReason {ω : Type} (env : Env) (item : GovernedMemoryItem) : Act ω (Option String) :=
  if item.sourceKind = .memoryConsolidation then
    pure (some "CONSOLIDATION_PROVENANCE_UNREGISTERED")
  else if 1 < item.memoryVersion then do
    let predecessor ← ledgerGet env item.memoryItemId (item.memoryVersion - 1)
    match predecessor with
    | none => return none
    | some predecessor =>
      if predecessor.item.sourceKind = .memoryConsolidation then
        return some "CONSOLIDATED_VERSION_UNGUARDED"
      else if predecessor.item.memoryKind = .dissent ∧ predecessor.item.contentDigest ≠ item.contentDigest then
        return some "DISSENT_REWRITE"
      else return none
  else pure none

/-- `ConsolidationGuardPolicy.authorize_admission`, around the policy of the collaborators. -/
def consolidationGuard {ω : Type} (env : AdmissionEnv) (expected : Expected) : AdmissionPolicy ω := fun item context => do
  let reason ← guardedReason env.toEnv item
  match reason with
  | some reason =>
    if 0 < expected.count item.digest then
      query env.toEnv fun n _ => .ok (env.authorizeAdmission n item context)
    else
      return some ⟨false, py ("decision:consolidation-guard:" ++ reason.toLower), context.policyBundleDigest⟩
  | none => query env.toEnv fun n _ => .ok (env.authorizeAdmission n item context)

end OcorRuntime.Memory
