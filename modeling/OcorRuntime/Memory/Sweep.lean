import OcorRuntime.Memory.Saga

/-! The expiry and retention sweeps (`memory/lifecycle.py`): every visible item that is
due is moved, in the order of due instant and item id, up to an optional limit. -/
namespace OcorRuntime.Memory
open Kernel
set_option autoImplicit false
set_option maxHeartbeats 250000

structure Candidate where
  due : Instant
  memoryItemId : PyStr
  head : AdmittedMemoryVersion

/-- The order candidates are taken in. -/
def Candidate.Le (a b : Candidate) : Prop := a.due < b.due ∨ a.due = b.due ∧ a.memoryItemId ≤ b.memoryItemId

instance (a b : Candidate) : Decidable (a.Le b) := inferInstanceAs (Decidable (_ ∨ _))

/-- What a sweep has done so far. -/
structure SweepProgress where
  processed : List PyStr := []
  held : List PyStr := []
  incomplete : List PyStr := []
  unresolved : List PyStr := []
  deferred : List PyStr := []

/-- The items of the metadata store, by partition digest and in staging order, each once. -/
def MetadataStore.itemIds (metadata : MetadataStore) : List PyStr :=
  ((metadata.partitions.insertionSort fun a b => a.digest ≤ b.digest).flatMap fun partition =>
    (metadata.versionsIn partition.digest).map fun stored => stored.staged.memoryItemId).eraseDups

def LifecycleOperation.sweepTarget : LifecycleOperation → LifecycleStatus
  | expiry => .expired
  | _ => .deletionPending

def LifecycleOperation.sweepReason : LifecycleOperation → PyStr
  | expiry => py "EXPIRY"
  | _ => py "RETENTION_ELAPSED"

namespace Coordinator
variable {ω : Type} (c : Coordinator ω) (env : Env)

/-- `head`: the committed head record of an item. -/
def head (memoryItemId : PyStr) : Act ω (Option AdmittedMemoryVersion) := do
  let version ← metadataHead env memoryItemId
  if version < 1 then pure none else ledgerGet env memoryItemId version

/-- `_due`. Retention runs from the admission of the item, not of its latest version. -/
def due (kind : LifecycleOperation) (item : GovernedMemoryItem) : Act ω (Option Instant) :=
  if kind = .expiry then
    pure (if item.lifecycleStatus = .active then item.expiresAt else none)
  else if item.lifecycleStatus = .deleted ∨ item.lifecycleStatus = .deletionPending then
    pure none
  else do
    let first ← ledgerGet env item.memoryItemId 1
    match first, c.horizons.get? item.retentionPolicyRef with
    | some first, some horizon => do
      let due ← Op.lift (((DateTime.utc first.item.createdAt).add horizon).mapError .exception)
      pure (some due.instant)
    | _, _ => pure none

/-- What the sweep finds about one item: nothing, that its retention policy is unknown, or that it is due. -/
def examine (kind : LifecycleOperation) (context : GovernedContext) (now : Instant) (memoryItemId : PyStr) :
    Act ω (List PyStr × List Candidate) := do
  let found ← head env memoryItemId
  match found with
  | none => pure ([], [])
  | some head => do
    let seen ← c.visible env head.item context
    if seen = false then
      pure ([], [])
    else if kind = .retention ∧ c.horizons.get? head.item.retentionPolicyRef = none ∧
        head.item.lifecycleStatus ≠ .deleted ∧ head.item.lifecycleStatus ≠ .deletionPending then
      pure ([head.item.versionRef], [])
    else do
      let due ← c.due env kind head.item
      match due with
      | some due => pure ([], if due ≤ now then [⟨due, memoryItemId, head⟩] else [])
      | none => pure ([], [])

/-- The items with an unknown policy and the candidates, in the order they are found. -/
def examineAll (kind : LifecycleOperation) (context : GovernedContext) (now : Instant) :
    List PyStr → Act ω (List PyStr × List Candidate)
  | [] => pure ([], [])
  | memoryItemId :: rest => do
    let (unresolved, candidates) ← c.examine env kind context now memoryItemId
    let (moreUnresolved, moreCandidates) ← examineAll kind context now rest
    return (unresolved ++ moreUnresolved, candidates ++ moreCandidates)

/-- The plan of the sweep for one candidate. -/
def sweepPlan (kind : LifecycleOperation) (binding : VerifiedGovernedContextBinding) (operationId : PyStr)
    (candidate : Candidate) : Plan where
  action := py kind.value
  request := ⟨operationId ++ py ":" ++ candidate.memoryItemId, binding.expected, binding.expected.digest, binding⟩
  head := candidate.head
  target := kind.sweepTarget
  reasonCode := kind.sweepReason
  requestDigest := canonicalDigest (fields [("operation", some (.str (py kind.value))),
    ("memory_item_id", some (.str candidate.memoryItemId)), ("version", some (.int candidate.head.item.memoryVersion))])

/-- One candidate: held, out of reach of the target, beyond the limit, or moved. -/
def sweepOne (kind : LifecycleOperation) (binding : VerifiedGovernedContextBinding) (operationId : PyStr)
    (limit : Option ℕ) (progress : SweepProgress) (candidate : Candidate) : Act ω SweepProgress :=
  if candidate.head.item.lifecycleStatus = .legalHold then
    pure { progress with held := progress.held ++ [candidate.head.item.versionRef] }
  else if kind.sweepTarget ∉ candidate.head.item.lifecycleStatus.transitions then
    pure { progress with unresolved := progress.unresolved ++ [candidate.head.item.versionRef] }
  else if ∃ n ∈ limit, n ≤ progress.processed.length + progress.incomplete.length then
    pure { progress with deferred := progress.deferred ++ [candidate.head.item.versionRef] }
  else do
    let plan := sweepPlan kind binding operationId candidate
    let receipt ← (if kind.sweepTarget = .deletionPending then c.forget env plan else c.apply env plan)
    if receipt.lifecycleStatus = .deletionIncomplete then
      return { progress with incomplete := progress.incomplete ++ [receipt.memoryVersionRef] }
    else
      return { progress with processed := progress.processed ++ [receipt.memoryVersionRef] }

def sweepAll (kind : LifecycleOperation) (binding : VerifiedGovernedContextBinding) (operationId : PyStr)
    (limit : Option ℕ) (progress : SweepProgress) : List Candidate → Act ω SweepProgress
  | [] => pure progress
  | candidate :: rest => do
    let progress ← c.sweepOne env kind binding operationId limit progress candidate
    sweepAll kind binding operationId limit progress rest

/-- What the audit event of a sweep says, which its report is bound to. -/
def sweepEvent (kind : LifecycleOperation) (binding : VerifiedGovernedContextBinding) (operationId : PyStr)
    (progress : SweepProgress) (now : Instant) : PyValue :=
  fields [("action", some (.str (py kind.value))), ("outcome", some (.str (py "COMPLETED"))),
    ("operation_id", some (.str operationId)), ("processed", some (strings progress.processed)),
    ("held", some (strings progress.held)), ("incomplete", some (strings progress.incomplete)),
    ("unresolved", some (strings (sortedTexts progress.unresolved))), ("deferred", some (strings progress.deferred)),
    ("governed_context_digest", some (.str binding.expected.digest)), ("binding_ref", some (.str binding.bindingRef)),
    ("correlation_id", some (.str binding.expected.correlationId)), ("at", some (.str (formatUtcTimestamp now)))]

/-- `_run_sweep`. -/
def runSweep (kind : LifecycleOperation) (binding : VerifiedGovernedContextBinding) (operationId : PyStr)
    (limit : Option ℕ) : Act ω SweepReport := do
  let now ← now env
  let items ← query env fun _ s => .ok s.metadata.itemIds
  let (unresolved, candidates) ← c.examineAll env kind binding.expected now items
  let progress ← c.sweepAll env kind binding operationId limit { unresolved } (candidates.insertionSort Candidate.Le)
  failClosed (fun _ => false)
    (lifecycleError "CONTROL_PLANE_UNAVAILABLE" "AUDIT_UNAVAILABLE" "the sweep could not be audited")
    (outside env (c.audit (.sweep operationId kind progress.processed progress.held progress.incomplete
      (sortedTexts progress.unresolved) progress.deferred binding.expected.digest binding.bindingRef
      binding.expected.correlationId now)))
  return { operationId, operationKind := kind, processed := progress.processed, held := progress.held,
           incomplete := progress.incomplete, unresolved := sortedTexts progress.unresolved,
           deferred := progress.deferred,
           auditRef := canonicalDigest (sweepEvent kind binding operationId progress now) }

/-- `_sweep`. -/
def sweep (kind : LifecycleOperation) (binding : Option VerifiedGovernedContextBinding) (operationId : PyStr)
    (limit : Option ℤ) : Act ω SweepReport :=
  c.denying env kind (some operationId) none (binding.map (·.expected.digest)) binding do
    let binding ← Op.lift ((orRaise binding (lifecycleError "AUTHENTICATION_REQUIRED" "BINDING_MISSING"
      "lifecycle sweeps require an authenticated governed-context binding")).mapError .exception)
    check (operationId = []) (lifecycleSchemaError "ENVELOPE_INVALID" "operation_id must be a non-empty string")
    check (∃ n ∈ limit, n < 1) (lifecycleSchemaError "LIMIT_INVALID" "limit must be a positive integer")
    c.runSweep env kind binding operationId (limit.map Int.toNat)

/-- `enforce_expiry`. -/
def enforceExpiry (binding : Option VerifiedGovernedContextBinding) (operationId : PyStr) (limit : Option ℤ) :
    Act ω SweepReport :=
  c.sweep env .expiry binding operationId limit

/-- `enforce_retention`. -/
def enforceRetention (binding : Option VerifiedGovernedContextBinding) (operationId : PyStr) (limit : Option ℤ) :
    Act ω SweepReport :=
  c.sweep env .retention binding operationId limit

end Coordinator
end OcorRuntime.Memory
