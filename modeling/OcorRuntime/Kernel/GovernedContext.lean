import OcorRuntime.Canonical.Serialize

/-! The governed context (`kernel/governed_context.py`) and canonical digests
(`kernel/canonical.py`). The values a digest is taken of here are built from Unicode
text and from counters below 2^53: on those canonicalization never fails. -/
namespace OcorRuntime.Kernel
open Canonical
set_option autoImplicit false
set_option maxHeartbeats 250000

/-- `canonical_digest`. -/
def canonicalDigest (value : PyValue) : PyStr :=
  py "urn:sha256:" ++ Sha256.hexdigest ((canonicalize value).toOption.getD [])

def strings (items : List PyStr) : PyValue := .list (items.map .str)

/-- A mapping with the entries that are present. -/
def fields (entries : List (String × Option PyValue)) : PyValue :=
  .mapping (entries.filterMap fun entry => entry.2.map fun value => (.str (py entry.1), value))

structure GovernedContext where
  tenantId : PyStr
  organizationId : PyStr
  domainId : PyStr
  compartments : List PyStr
  classificationMarkingRef : PyStr
  purpose : PyStr
  effectivePrincipalId : PyStr
  actorChain : List PyStr
  ontologyReleaseDigest : PyStr
  policyBundleDigest : PyStr
  correlationId : PyStr
deriving DecidableEq

namespace GovernedContext

def toMapping (c : GovernedContext) : PyValue :=
  fields [("tenant_id", some (.str c.tenantId)), ("organization_id", some (.str c.organizationId)),
    ("domain_id", some (.str c.domainId)), ("compartments", some (strings c.compartments)),
    ("classification_marking_ref", some (.str c.classificationMarkingRef)), ("purpose", some (.str c.purpose)),
    ("effective_principal_id", some (.str c.effectivePrincipalId)), ("actor_chain", some (strings c.actorChain)),
    ("ontology_release_digest", some (.str c.ontologyReleaseDigest)),
    ("policy_bundle_digest", some (.str c.policyBundleDigest)), ("correlation_id", some (.str c.correlationId))]

def digest (c : GovernedContext) : PyStr := canonicalDigest c.toMapping

end GovernedContext

structure VerifiedGovernedContextBinding where
  bindingRef : PyStr
  expected : GovernedContext
deriving DecidableEq

end OcorRuntime.Kernel
