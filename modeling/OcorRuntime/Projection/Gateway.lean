import OcorRuntime.Identity.Registry
import OcorRuntime.Marking.Engine
import OcorRuntime.Projection.Consistency

/-! The named-query gateway (`c2/gateway.py`): the requester's identity, the registration of the query
and the marking of the resource it names are checked before the projection is read. The policy reads the
request's `resource_id`, the projection its `fact_id`. -/
namespace OcorRuntime

/-! ## Identity resolution -/

namespace Identity
set_option autoImplicit false
set_option maxHeartbeats 250000

inductive ResolutionStatus
  | identified
  | abstain
deriving DecidableEq

/-- `ResolutionStatus.ABSTAIN.value`. -/
def abstainValue : PyStr := py "ABSTAIN"

structure ResolutionOutcome where
  status : ResolutionStatus
  canonicalId : Option PyStr
  reason : String
  candidates : List PyStr
deriving DecidableEq

/-- `resolve` without evidence: every candidate scores one, so that two of them leave no margin. -/
def IdentityRegistry.resolve (u : UnicodeData) (r : IdentityRegistry) (identifier : PyStr) :
    Except PyError ResolutionOutcome := do
  match ← r.candidates u identifier with
  | [] => return ⟨.abstain, none, "no authoritative identity candidate", []⟩
  | [winner] => return ⟨.identified, some winner, "authoritative identity resolved", [winner]⟩
  | found => return ⟨.abstain, none, "candidate evidence is ambiguous", found⟩

theorem resolve_identified {u : UnicodeData} {r : IdentityRegistry} {identifier : PyStr} {outcome : ResolutionOutcome}
    (h : r.resolve u identifier = .ok outcome) {canonicalId : PyStr} (hid : outcome.canonicalId = some canonicalId) :
    r.candidates u identifier = .ok [canonicalId] := by
  obtain ⟨found, hfound, h⟩ := bind_eq_ok.1 h
  split at h
  · cases h
    cases hid
  · cases h
    cases hid
    exact hfound
  · cases h
    cases hid

end Identity

namespace Projection
open Kernel Identity Marking
set_option autoImplicit false
set_option maxHeartbeats 250000

/-! ## The gateway -/

/-- A request with the contract it names, which the projection does not read. -/
structure GatewayRequest extends NamedQueryRequest where
  contractId : PyStr
  contractVersion : PyStr

structure RegisteredNamedQuery where
  contractId : PyStr
  versions : List PyStr
  markingSchemeId : PyStr

inductive PolicyDecision
  | permit
  | deny
deriving DecidableEq

/-- `NamedQueryGateway` with its authority, its policy and the marking port behind it. -/
structure NamedQueryGateway where
  unicode : UnicodeData
  identityRegistry : IdentityRegistry
  registry : Dict PyStr RegisteredNamedQuery
  markingEngine : MarkingEngine
  /-- `MarkingAuthorizationPort.exists_authorized`. -/
  existsAuthorized : PyStr → MarkingSet → Except PyError Bool
  clearanceByMarkingRef : Dict PyStr MarkingSet

namespace NamedQueryGateway

/-- `IdentityBackedAuthority.resolve`. -/
def resolve (g : NamedQueryGateway) (request : GatewayRequest) : Except PyError PyStr := do
  let outcome ← g.identityRegistry.resolve g.unicode request.governedContext.effectivePrincipalId
  match outcome.status, outcome.canonicalId with
  | .identified, some canonicalId => return canonicalId
  | _, _ => return abstainValue

/-- The resource the request names: a non-empty `resource_id`. -/
def resourceOf (request : GatewayRequest) : Option PyStr :=
  match request.parameters.get? (py "resource_id") with
  | some (.str (c :: resourceId)) => some (c :: resourceId)
  | _ => none

/-- The marking half of `RegistrationAndMarkingPolicy.decide`. -/
def decideResource (g : NamedQueryGateway) (request : GatewayRequest) (resourceId : PyStr) :
    Except PyError PolicyDecision :=
  match g.clearanceByMarkingRef.get? request.governedContext.classificationMarkingRef with
  | none => .ok .deny
  | some clearance => do
    g.markingEngine.validate clearance
    let authorized ← g.existsAuthorized resourceId clearance
    return if authorized then .permit else .deny

/-- `RegistrationAndMarkingPolicy.decide`. -/
def decide (g : NamedQueryGateway) (request : GatewayRequest) : Except PyError PolicyDecision :=
  match g.registry.get? request.contractId with
  | none => .ok .deny
  | some registered =>
    if request.contractVersion ∉ registered.versions then .ok .deny
    else
      match resourceOf request with
      | none => .ok .permit
      | some resourceId => g.decideResource request resourceId

def execute (g : NamedQueryGateway) (d : Database) (request : GatewayRequest) : Except PyError NamedQueryResponse := do
  let resolvedIdentity ← g.resolve request
  refuseIf (resolvedIdentity = abstainValue)
    (c2Error "IDENTITY_AMBIGUOUS" "requester identity could not be uniquely resolved" [])
  let decision ← g.decide request
  refuseIf (decision ≠ .permit)
    (c2Error "ARBITRARY_QUERY_FORBIDDEN" "named query is not a registered, authorized contract" [])
  d.read request.toNamedQueryRequest

/-! ## What an answer rests on -/

/-- The contract is registered in the version the request declares. -/
def Registered (g : NamedQueryGateway) (request : GatewayRequest) : Prop :=
  ∃ registered, g.registry.get? request.contractId = some registered ∧ request.contractVersion ∈ registered.versions

/-- The requester resolves to exactly one identity. -/
def Resolved (g : NamedQueryGateway) (request : GatewayRequest) : Prop :=
  ∃ canonicalId, g.identityRegistry.candidates g.unicode request.governedContext.effectivePrincipalId = .ok [canonicalId]

/-- The clearance of the request's marking reference is known and valid, and authorizes the resource. -/
def Authorized (g : NamedQueryGateway) (request : GatewayRequest) (resourceId : PyStr) : Prop :=
  ∃ clearance, g.clearanceByMarkingRef.get? request.governedContext.classificationMarkingRef = some clearance ∧
    g.markingEngine.Valid clearance ∧ g.existsAuthorized resourceId clearance = .ok true

variable {g : NamedQueryGateway} {d : Database} {request : GatewayRequest}

theorem resolved_of_resolve {resolvedIdentity : PyStr} (h : g.resolve request = .ok resolvedIdentity)
    (hne : resolvedIdentity ≠ abstainValue) : g.Resolved request := by
  obtain ⟨outcome, houtcome, h⟩ := bind_eq_ok.1 h
  split at h
  · next canonicalId hstatus hid =>
    exact ⟨canonicalId, resolve_identified houtcome hid⟩
  · cases h
    exact absurd rfl hne

theorem authorized_of_permit {resourceId : PyStr} (h : g.decideResource request resourceId = .ok .permit) :
    g.Authorized request resourceId := by
  unfold decideResource at h
  split at h
  · cases h
  · next clearance hclearance =>
    obtain ⟨hvalid, h⟩ := check_bind_eq_ok.1 h
    obtain ⟨authorized, hport, h⟩ := bind_eq_ok.1 h
    cases authorized with
    | false => cases h
    | true => exact ⟨clearance, hclearance, g.markingEngine.validate_eq_ok.1 hvalid, hport⟩

theorem permitted (h : g.decide request = .ok .permit) :
    g.Registered request ∧ ∀ resourceId ∈ resourceOf request, g.Authorized request resourceId := by
  unfold decide at h
  split at h
  · cases h
  · next registered hregistered =>
    by_cases hversion : request.contractVersion ∈ registered.versions
    · rw [if_neg (not_not.mpr hversion)] at h
      refine ⟨⟨registered, hregistered, hversion⟩, fun resourceId hresource => ?_⟩
      rw [Option.mem_def] at hresource
      rw [hresource] at h
      exact authorized_of_permit h
    · rw [if_pos hversion] at h
      cases h

theorem execute_eq_ok {response : NamedQueryResponse} (h : g.execute d request = .ok response) :
    g.Resolved request ∧ g.decide request = .ok .permit ∧ d.read request.toNamedQueryRequest = .ok response := by
  obtain ⟨resolvedIdentity, hresolve, h⟩ := bind_eq_ok.1 h
  obtain ⟨hne, h⟩ := check_bind_eq_ok.1 h
  obtain ⟨decision, hdecide, h⟩ := bind_eq_ok.1 h
  obtain ⟨hpermit, h⟩ := check_bind_eq_ok.1 h
  rw [refuseIf_eq_ok] at hne hpermit
  rw [not_not] at hpermit
  exact ⟨resolved_of_resolve hresolve hne, hpermit ▸ hdecide, h⟩

/-- **What the gateway serves.** Whatever the parameters, the registries, the clearances and the projection hold: an
answer is given only for a contract registered in its version and a requester that resolves to one identity. It is
the digest of the fact the request names, and a resource the request names is authorized for the clearance of its
marking reference: the fact itself, where the request names it as its resource. -/
theorem gateway_answers (g : NamedQueryGateway) (d : Database) (request : GatewayRequest)
    (response : NamedQueryResponse) (h : g.execute d request = .ok response) :
    g.Registered request ∧ g.Resolved request ∧
      (∀ resourceId ∈ resourceOf request, g.Authorized request resourceId) ∧
      ∃ factId fact, Database.factIdOf request.toNamedQueryRequest = some factId ∧ d.facts.get? factId = some fact ∧
        response.resultDigest = Database.servedDigest fact.payload ∧
        (resourceOf request = some factId → g.Authorized request factId) := by
  obtain ⟨hresolved, hpermit, hread⟩ := execute_eq_ok h
  obtain ⟨hregistered, hauthorized⟩ := permitted hpermit
  obtain ⟨factId, fact, hserves, hdigest⟩ := Database.serves_of_read hread
  exact ⟨hregistered, hresolved, hauthorized, factId, fact, hserves.named, hserves.found, hdigest, hauthorized factId⟩

/-! A request for one fact, with or without naming it as its resource. -/

/-- Unicode on the small ASCII letters of the sample's identifiers. -/
def sampleUnicode : UnicodeData := ⟨fun c => [c], fun _ => 0, fun _ _ => none, fun c => [c]⟩

def sampleEngine : Option MarkingEngine :=
  (MarkingEngine.compartments >>= fun scheme => MarkingEngine.create [scheme]).toOption

theorem sampleEngine_created : sampleEngine.isSome := by decide

def sampleContract : PyStr := py "urn:ocor:contract:named-query:facts"

def sampleIdentities : IdentityRegistry :=
  ⟨.empty, Dict.empty.set (py "urn:ocor:principal:analyst-1") [py "urn:ocor:principal:analyst-1"]⟩

theorem sample_identified : sampleIdentities.resolve sampleUnicode (py "urn:ocor:principal:analyst-1") =
    .ok ⟨.identified, some (py "urn:ocor:principal:analyst-1"), "authoritative identity resolved",
      [py "urn:ocor:principal:analyst-1"]⟩ := by decide

/-- The analyst is registered, and so is the contract; the port authorizes the given resources. -/
def sampleGateway (authorized : List PyStr) : NamedQueryGateway where
  unicode := sampleUnicode
  identityRegistry := sampleIdentities
  registry := Dict.empty.set sampleContract ⟨sampleContract, [py "1.0.0"], py "scheme"⟩
  markingEngine := sampleEngine.get sampleEngine_created
  existsAuthorized := fun resourceId _ => .ok (authorized.contains resourceId)
  clearanceByMarkingRef := Dict.empty.set Database.zeroDigest ⟨.empty⟩

def sampleDatabase : Database := ⟨Dict.empty.set (py "fact-1") ⟨py "commit-1", py "V1"⟩, [py "commit-1"]⟩

def sampleQuery (parameters : Dict PyStr PyValue) : GatewayRequest :=
  { Database.sampleRequest (py "fact-1") (Database.exactAt "commit-1" (by decide)) with
    parameters := parameters
    contractId := sampleContract
    contractVersion := py "1.0.0" }

def factAlone : Dict PyStr PyValue := Dict.empty.set (py "fact_id") (.str (py "fact-1"))

def factAsResource : Dict PyStr PyValue := factAlone.set (py "resource_id") (.str (py "fact-1"))

theorem sample_served {authorized : List PyStr} {parameters : Dict PyStr PyValue}
    (hpermit : (sampleGateway authorized).decide (sampleQuery parameters) = .ok .permit)
    (hfact : Database.factIdOf (sampleQuery parameters).toNamedQueryRequest = some (py "fact-1")) :
    ∃ response, (sampleGateway authorized).execute sampleDatabase (sampleQuery parameters) = .ok response := by
  have hresolve : (sampleGateway authorized).resolve (sampleQuery parameters) =
      .ok (py "urn:ocor:principal:analyst-1") :=
    bind_eq_ok.2 ⟨_, sample_identified, rfl⟩
  have hserves : Database.Serves sampleDatabase (sampleQuery parameters).toNamedQueryRequest (py "fact-1")
      ⟨py "commit-1", py "V1"⟩ := ⟨hfact, by decide, rfl, by decide, ⟨rfl, rfl⟩⟩
  obtain ⟨response, hread, -⟩ := Database.read_of_serves hserves
  refine ⟨response, ?_⟩
  unfold execute
  rw [hresolve]
  refine bind_eq_ok.2 ⟨_, rfl, check_bind_eq_ok.2 ⟨refuseIf_eq_ok.2 (by decide), ?_⟩⟩
  exact bind_eq_ok.2 ⟨_, hpermit, check_bind_eq_ok.2 ⟨refuseIf_eq_ok.2 (by simp), hread⟩⟩

theorem gateway_answers_authorized :
    ∃ response, (sampleGateway [py "fact-1"]).execute sampleDatabase (sampleQuery factAsResource) = .ok response ∧
      (sampleGateway [py "fact-1"]).Registered (sampleQuery factAsResource) ∧
      (sampleGateway [py "fact-1"]).Resolved (sampleQuery factAsResource) := by
  obtain ⟨response, hresponse⟩ := @sample_served [py "fact-1"] factAsResource (by decide) (by decide)
  have hanswer := gateway_answers _ _ _ _ hresponse
  exact ⟨response, hresponse, hanswer.1, hanswer.2.1⟩

/-- Without a resource in the request, a fact is served that nothing authorizes. -/
theorem unmarked_fact_is_served :
    ¬ ∀ (g : NamedQueryGateway) (d : Database) (request : GatewayRequest) (response : NamedQueryResponse),
      g.execute d request = .ok response →
        g.Registered request ∧ g.Resolved request ∧
          ∃ factId fact, Database.factIdOf request.toNamedQueryRequest = some factId ∧ d.facts.get? factId = some fact ∧
            response.resultDigest = Database.servedDigest fact.payload ∧ g.Authorized request factId := by
  intro h
  obtain ⟨response, hresponse⟩ := @sample_served [] factAlone (by decide) (by decide)
  obtain ⟨-, -, factId, fact, -, -, -, clearance, -, -, hport⟩ := h _ _ _ _ hresponse
  cases hport

end NamedQueryGateway
end Projection
end OcorRuntime
