import OcorRuntime.Kernel.Governance
import OcorRuntime.Kernel.GovernedContext

/-! Named queries, their consistency requirements and the context they are served in
(`c2/ports.py`). What the constructors check is carried by the records: a request binds
the digest of its own governed context, a strong requirement names a commit. -/
namespace OcorRuntime.Projection
open Kernel
set_option autoImplicit false
set_option maxHeartbeats 250000

def c2Error (reason message : String) (args : List ErrorArg) : PyError := ⟨.c2Error reason, message, args⟩

/-- `"urn:sha256:" + hashlib.sha256(data).hexdigest()`. -/
def sha256Urn (data : Bytes) : PyStr := py "urn:sha256:" ++ Sha256.hexdigest data

/-- `_required`. -/
def required (field : String) (value : PyStr) : Except PyError (PLift (value ≠ [])) :=
  require (value ≠ []) (c2Error "QUERY_CONTRACT_INVALID" "%s is required" [.text (py field)])

/-- `_digest`. -/
def digest (field : String) (value : PyStr) : Except PyError (PLift (IsDigest value)) := do
  let _ ← required field value
  require (IsDigest value) (c2Error "QUERY_CONTRACT_INVALID" "%s must be a SHA-256 URN" [.text (py field)])

inductive ConsistencyMode
  | bestAvailable
  | atLeastCommit
  | exactAtCommit
deriving DecidableEq

structure ConsistencyRequirement where
  mode : ConsistencyMode
  requiredCommit : Option PyStr
  declared : requiredCommit = none ↔ mode = .bestAvailable
  named : requiredCommit ≠ some []

structure ServedContext where
  branch : PyStr
  ontologyReleaseDigest : PyStr
  canonicalCommit : PyStr
  projectionWatermark : PyStr
  stalenessMs : ℤ
  governedContextDigest : PyStr
  policyBundleDigest : PyStr
  located : branch ≠ [] ∧ canonicalCommit ≠ [] ∧ projectionWatermark ≠ []
  bound : IsDigest ontologyReleaseDigest ∧ IsDigest governedContextDigest ∧ IsDigest policyBundleDigest
  aged : 0 ≤ stalenessMs

/-- `ServedContext(...)`. -/
def ServedContext.create (branch ontologyReleaseDigest canonicalCommit projectionWatermark : PyStr) (stalenessMs : ℤ)
    (governedContextDigest policyBundleDigest : PyStr) : Except PyError ServedContext := do
  let hbranch ← required "branch" branch
  let hcommit ← required "canonical_commit" canonicalCommit
  let hmark ← required "projection_watermark" projectionWatermark
  let hrelease ← digest "ontology_release_digest" ontologyReleaseDigest
  let hcontext ← digest "governed_context_digest" governedContextDigest
  let hbundle ← digest "policy_bundle_digest" policyBundleDigest
  let haged ← require (0 ≤ stalenessMs) (c2Error "QUERY_CONTRACT_INVALID" "staleness_ms must be non-negative" [])
  return {
    branch := branch
    ontologyReleaseDigest := ontologyReleaseDigest
    canonicalCommit := canonicalCommit
    projectionWatermark := projectionWatermark
    stalenessMs := stalenessMs
    governedContextDigest := governedContextDigest
    policyBundleDigest := policyBundleDigest
    located := ⟨hbranch.down, hcommit.down, hmark.down⟩
    bound := ⟨hrelease.down, hcontext.down, hbundle.down⟩
    aged := haged.down }

/-- `ConsistencyRequirement.verify_served`. -/
def ConsistencyRequirement.verifyServed (r : ConsistencyRequirement) (served : ServedContext) :
    Except PyError ServedContext :=
  if r.mode = .bestAvailable then .ok served
  else if some served.projectionWatermark ≠ r.requiredCommit then
    .error (c2Error (if r.mode = .exactAtCommit then "CONSISTENCY_DOWNGRADE" else "PROJECTION_NOT_READY")
      "served watermark does not satisfy the requested commit" [])
  else if r.mode = .exactAtCommit ∧ some served.canonicalCommit ≠ r.requiredCommit then
    .error (c2Error "CONSISTENCY_DOWNGRADE" "served commit is not exact" [])
  else .ok served

structure NamedQueryRequest where
  requestId : PyStr
  parameters : Dict PyStr PyValue
  governedContext : GovernedContext
  governedContextDigest : PyStr
  consistency : ConsistencyRequirement
  identified : IsIdentifier requestId
  bound : IsDigest governedContextDigest ∧ governedContextDigest = governedContext.digest
  pinned : IsDigest governedContext.ontologyReleaseDigest ∧ IsDigest governedContext.policyBundleDigest

/-- `NamedQueryRequest.verify_served`. -/
def NamedQueryRequest.verifyServed (r : NamedQueryRequest) (served : ServedContext) : Except PyError ServedContext :=
  if served.governedContextDigest ≠ r.governedContextDigest ∨
      served.policyBundleDigest ≠ r.governedContext.policyBundleDigest ∨
      served.ontologyReleaseDigest ≠ r.governedContext.ontologyReleaseDigest then
    .error (c2Error "STALE_CONTEXT" "served context drifted from request bindings" [])
  else r.consistency.verifyServed served

structure NamedQueryResponse where
  requestId : PyStr
  resultRef : PyStr
  resultDigest : PyStr
  served : ServedContext
  identified : IsIdentifier requestId
  named : resultRef ≠ []
  digested : IsDigest resultDigest

/-! ## What the checks establish -/

/-- What a served watermark and commit have to be for the requirement. -/
def ConsistencyRequirement.Met (r : ConsistencyRequirement) (watermark commit : PyStr) : Prop :=
  match r.mode with
  | .bestAvailable => True
  | .atLeastCommit => r.requiredCommit = some watermark
  | .exactAtCommit => r.requiredCommit = some watermark ∧ r.requiredCommit = some commit

instance (r : ConsistencyRequirement) (watermark commit : PyStr) : Decidable (r.Met watermark commit) := by
  unfold ConsistencyRequirement.Met
  cases r.mode <;> infer_instance

theorem ConsistencyRequirement.verifyServed_of_met {r : ConsistencyRequirement} {served : ServedContext}
    (h : r.Met served.projectionWatermark served.canonicalCommit) : r.verifyServed served = .ok served := by
  unfold Met at h
  unfold verifyServed
  cases hmode : r.mode with
  | bestAvailable => rfl
  | atLeastCommit =>
    rw [hmode] at h
    simp [h]
  | exactAtCommit =>
    rw [hmode] at h
    have hsame : some served.projectionWatermark = some served.canonicalCommit := h.1.symm.trans h.2
    simp [h.1, hsame]

theorem ConsistencyRequirement.verifyServed_of_not_met {r : ConsistencyRequirement} {served : ServedContext}
    (h : ¬ r.Met served.projectionWatermark served.canonicalCommit) : ∃ e, r.verifyServed served = .error e := by
  unfold Met at h
  unfold verifyServed
  cases hmode : r.mode with
  | bestAvailable =>
    rw [hmode] at h
    exact absurd trivial h
  | atLeastCommit =>
    rw [hmode] at h
    have hne : some served.projectionWatermark ≠ r.requiredCommit := fun heq => h heq.symm
    exact ⟨_, by rw [if_neg (by decide), if_pos hne]⟩
  | exactAtCommit =>
    rw [hmode] at h
    by_cases hmark : some served.projectionWatermark ≠ r.requiredCommit
    · exact ⟨_, by rw [if_neg (by decide), if_pos hmark]⟩
    · have hcommit : some served.canonicalCommit ≠ r.requiredCommit := fun heq =>
        h ⟨(not_not.mp hmark).symm, heq.symm⟩
      exact ⟨_, by rw [if_neg (by decide), if_neg hmark, if_pos ⟨rfl, hcommit⟩]⟩

end OcorRuntime.Projection
