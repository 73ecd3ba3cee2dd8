import Mathlib.Data.Finset.Sort
import OcorRuntime.Foundations.Run
import OcorRuntime.Safety.EmergencyStop

/-! Break-glass grants (`c6/safety.py`). The controller keeps what it issued and what it
revoked; everything else it decides on is read anew at each call: the trusted clock, the
identity registry, the emergency stop, and whether its audit and alert sinks take an event. -/
namespace OcorRuntime.Safety
set_option autoImplicit false
set_option maxHeartbeats 250000

/-! ## Grants -/

/-- `MAX_BREAK_GLASS_TTL`, fifteen minutes. -/
def maxBreakGlassTtl : Duration := 900000000

/-- `FORBIDDEN_BREAK_GLASS_CAPABILITIES`. -/
def forbiddenCapabilities : List PyStr :=
  [py "create_decision", py "reduce_marking", py "disable_provenance", py "disable_audit",
    py "ignore_emergency_stop", py "change_release_pin", py "authorize_r3_without_quorum",
    py "access_outside_compartment"]

structure BreakGlassGrant where
  grantId : PyStr
  requester : PyStr
  reason : PyStr
  incidentRef : PyStr
  scope : PyStr
  domain : PyStr
  capabilities : Finset PyStr
  approvers : PyStr × PyStr
  grantedAt : DateTime
  ttl : Duration
  aware : grantedAt.Aware
  described : grantId ≠ [] ∧ requester ≠ [] ∧ reason ≠ [] ∧ incidentRef ≠ [] ∧ scope ≠ []
  domain_valid : domain ≠ [] ∧ domain.any isSpace = false
  capabilities_named : capabilities ≠ ∅ ∧ ∀ name ∈ capabilities, name ≠ []
  approvers_distinct : approvers.1 ≠ approvers.2
  requester_apart : requester ≠ approvers.1 ∧ requester ≠ approvers.2
  ttl_bounded : 0 < ttl ∧ ttl ≤ maxBreakGlassTtl

namespace BreakGlassGrant

theorem described_of {grantId requester reason incidentRef scope : PyStr} (h1 : grantId ≠ []) (h2 : requester ≠ [])
    (h3 : reason ≠ []) (h4 : incidentRef ≠ []) (h5 : scope ≠ []) :
    grantId ≠ [] ∧ requester ≠ [] ∧ reason ≠ [] ∧ incidentRef ≠ [] ∧ scope ≠ [] :=
  ⟨h1, h2, h3, h4, h5⟩

/-- `BreakGlassGrant(...)` with `__post_init__`, at a reading known to be aware. -/
def create (grantId requester reason incidentRef scope domain : PyStr) (capabilities : Finset PyStr)
    (approvers : PyStr × PyStr) (grantedAt : {d : DateTime // d.Aware}) (ttl : Duration) :
    Except PyError BreakGlassGrant := do
  let invalid (message : String) : PyError := ⟨.valueError, message, []⟩
  let ⟨h1⟩ ← require (grantId ≠ []) (invalid "a BreakGlassGrant requires a grant_id")
  let ⟨h2⟩ ← require (requester ≠ []) (invalid "a BreakGlassGrant requires a requester")
  let ⟨h3⟩ ← require (reason ≠ []) (invalid "a BreakGlassGrant requires a typed reason")
  let ⟨h4⟩ ← require (incidentRef ≠ []) (invalid "a BreakGlassGrant requires an incident_ref")
  let ⟨h5⟩ ← require (scope ≠ []) (invalid "a BreakGlassGrant requires a minimal scope")
  let ⟨h6⟩ ← require (domain ≠ [] ∧ domain.any isSpace = false)
    (invalid "a BreakGlassGrant requires the affected domain")
  let ⟨h7⟩ ← require (capabilities ≠ ∅ ∧ ∀ name ∈ capabilities, name ≠ [])
    (invalid "a BreakGlassGrant requires at least one named capability")
  let ⟨h8⟩ ← require (approvers.1 ≠ approvers.2)
    (invalid "a BreakGlassGrant requires exactly two distinct human approvers")
  let ⟨h9⟩ ← require (requester ≠ approvers.1 ∧ requester ≠ approvers.2)
    (invalid "the requester of a BreakGlassGrant can never approve it")
  let ⟨h10⟩ ← require (0 < ttl ∧ ttl ≤ maxBreakGlassTtl)
    (invalid "break-glass ttl must be positive and at most 0:15:00")
  return ⟨grantId, requester, reason, incidentRef, scope, domain, capabilities, approvers, grantedAt.1, ttl,
    grantedAt.2, described_of h1 h2 h3 h4 h5, h6, h7, h8, h9, h10⟩

/-- The property `expires_at`: `granted_at + ttl`. -/
def expiresAt (grant : BreakGlassGrant) : Except PyError DateTime := grant.grantedAt.add grant.ttl

/-- The dataclass `==`: date-times compare as instants. -/
def Same (a b : BreakGlassGrant) : Prop :=
  a.grantId = b.grantId ∧ a.requester = b.requester ∧ a.reason = b.reason ∧ a.incidentRef = b.incidentRef ∧
    a.scope = b.scope ∧ a.domain = b.domain ∧ a.capabilities = b.capabilities ∧ a.approvers = b.approvers ∧
    a.grantedAt.instant = b.grantedAt.instant ∧ a.ttl = b.ttl

instance (a b : BreakGlassGrant) : Decidable (a.Same b) :=
  inferInstanceAs (Decidable (_ ∧ _ ∧ _ ∧ _ ∧ _ ∧ _ ∧ _ ∧ _ ∧ _ ∧ _))

end BreakGlassGrant

structure BreakGlassUse where
  grantId : PyStr
  capability : PyStr
  reviewRef : PyStr
  usedAt : DateTime
deriving DecidableEq

/-! ## Principals -/

structure Principal where
  canonicalId : PyStr
  kind : PyStr
  active : Bool
  roles : List PyStr
deriving DecidableEq

/-- `directory.get`; each call of the controller reads an identity at most once. -/
abbrev PrincipalDirectory := PyStr → Except PyError (Option IdentityRecord)

mutual
/-- Whether `kind not in PRINCIPAL_KINDS` can hash the attribute. -/
def hashable : PyValue → Bool
  | .list _ | .mapping _ => false
  | .tuple items => hashableItems items
  | .none | .bool _ | .int _ | .float _ | .str _ | .other _ => true
def hashableItems : List PyValue → Bool
  | [] => true
  | item :: items => hashable item && hashableItems items
end

/-- The text of a string value. -/
def text? : PyValue → Option PyStr
  | .str s => some s
  | _ => none

def attributesInvalid (message : String) (canonicalId : PyStr) : PyError :=
  safetyError "BREAK_GLASS_PRINCIPAL_ATTRIBUTES_INVALID" message [.text canonicalId]

/-- `_read_principal`, of a record found. -/
def readRecord (canonicalId : PyStr) (record : IdentityRecord) : Except PyError Principal := do
  let kind := (record.attributes.get? (py "principal_kind")).getD .none
  refuseIf (¬ hashable kind) ⟨.typeError, "unhashable type", []⟩
  let kind ← orRaise ([py "HUMAN", py "WORKLOAD"].find? fun k => kind = .str k)
    (attributesInvalid "%r has no valid principal_kind" canonicalId)
  let rawRoles ← orRaise (text? ((record.attributes.get? (py "roles")).getD (.str [])))
    (attributesInvalid "%r has non-string roles" canonicalId)
  let tokens := if rawRoles = [] then [] else rawRoles.splitOn (codePoint 0x20)
  -- sorted and unique: strictly increasing
  refuseIf (¬ (tokens.all isRoleToken ∧ tokens.Pairwise (· < ·)))
    (attributesInvalid "%r roles must be sorted, unique, single-space separated role tokens" canonicalId)
  return ⟨canonicalId, kind, record.attributes.get? (py "status") = some (.str (py "ACTIVE")), tokens⟩

def readPrincipal (directory : PrincipalDirectory) (canonicalId : PyStr) : Except PyError (Option Principal) := do
  match ← directory canonicalId with
  | none => return none
  | some record => return some (← readRecord canonicalId record)

def securityDutyOfficerRole : PyStr := py "SECURITY_DUTY_OFFICER"

def ownerRole (domain : PyStr) : PyStr := py "DOMAIN_OWNER:" ++ domain

def readApprover (directory : PrincipalDirectory) (approver : PyStr) : Except PyError Principal := do
  let principal ← orRaise (← readPrincipal directory approver)
    (safetyError "BREAK_GLASS_REQUIRES_TWO_DISTINCT_HUMANS" "unresolved approver: %r" [.text approver])
  refuseIf (principal.kind ≠ py "HUMAN")
    (safetyError "BREAK_GLASS_APPROVER_NOT_HUMAN" "approver %r is not a human principal" [.text approver])
  refuseIf (¬ principal.active)
    (safetyError "BREAK_GLASS_APPROVER_INACTIVE" "approver %r is not active" [.text approver])
  return principal

/-- One approver each for the two roles. -/
def Quorum (first second : Principal) (domain : PyStr) : Prop :=
  (securityDutyOfficerRole ∈ first.roles ∧ ownerRole domain ∈ second.roles) ∨
    (securityDutyOfficerRole ∈ second.roles ∧ ownerRole domain ∈ first.roles)

instance (first second : Principal) (domain : PyStr) : Decidable (Quorum first second domain) :=
  inferInstanceAs (Decidable (_ ∨ _))

def readRequester (directory : PrincipalDirectory) (requester : PyStr) : Except PyError Unit := do
  let requesting ← if requester = [] then .ok none else readPrincipal directory requester
  refuseIf (¬ ∃ principal ∈ requesting, principal.active)
    (safetyError "BREAK_GLASS_REQUESTER_INVALID" "requester %r is not a resolved active principal" [.text requester])

/-- `_validate_principals`, for any number of approvers. -/
def validatePrincipals (directory : PrincipalDirectory) (requester : PyStr) (approvers : List PyStr)
    (domain : PyStr) : Except PyError Unit := do
  refuseIf (approvers.length ≠ 2 ∨ ¬ approvers.Nodup)
    (safetyError "BREAK_GLASS_REQUIRES_TWO_DISTINCT_HUMANS" "break-glass requires exactly two distinct human approvers" [])
  refuseIf (requester ∈ approvers)
    (safetyError "BREAK_GLASS_REQUESTER_CANNOT_APPROVE" "the requester can never approve its own break-glass" [])
  readRequester directory requester
  match ← approvers.mapM (readApprover directory) with
  | [first, second] =>
    refuseIf (¬ Quorum first second domain)
      (safetyError "BREAK_GLASS_ROLE_QUORUM_UNMET"
        "break-glass requires a SECURITY_DUTY_OFFICER and the affected %s, held by distinct approvers"
        [.text (ownerRole domain)])
  | _ => .error ⟨.valueError, "too many values to unpack", []⟩

/-! ## Audit events -/

inductive BreakGlassEventKind
  | grantDenied
  | granted
  | grantWithdrawn
  | revoked
  | expiredRevoked
  | useDenied
  | useAuthorized
  | useWithdrawn
deriving DecidableEq

def BreakGlassEventKind.value : BreakGlassEventKind → String
  | grantDenied => "BREAK_GLASS_GRANT_DENIED"
  | granted => "BREAK_GLASS_GRANTED"
  | grantWithdrawn => "BREAK_GLASS_GRANT_WITHDRAWN"
  | revoked => "BREAK_GLASS_REVOKED"
  | expiredRevoked => "BREAK_GLASS_EXPIRED_REVOKED"
  | useDenied => "BREAK_GLASS_USE_DENIED"
  | useAuthorized => "BREAK_GLASS_USE_AUTHORIZED"
  | useWithdrawn => "BREAK_GLASS_USE_WITHDRAWN"

/-- An audit event: its kind, and the other members of the dictionary in order. -/
structure BreakGlassEvent where
  event : BreakGlassEventKind
  fields : List (String × PyValue)
deriving DecidableEq

def texts (values : List PyStr) : PyValue := .list (values.map .str)

/-- `_event` without a grant. -/
def plainEvent (kind : BreakGlassEventKind) (instant : DateTime) (fields : List (String × PyValue)) : BreakGlassEvent :=
  ⟨kind, ("at", .str instant.isoformat) :: fields⟩

/-- `_event` of a grant that expires at `expiresAt`. -/
def grantEvent (kind : BreakGlassEventKind) (grant : BreakGlassGrant) (expiresAt instant : DateTime)
    (fields : List (String × PyValue)) : BreakGlassEvent :=
  plainEvent kind instant
    ([("grant_id", .str grant.grantId), ("requester", .str grant.requester),
      ("approvers", texts [grant.approvers.1, grant.approvers.2]), ("domain", .str grant.domain),
      ("scope", .str grant.scope), ("incident_ref", .str grant.incidentRef),
      ("capabilities", texts (grant.capabilities.sort (· ≤ ·))), ("expires_at", .str expiresAt.isoformat)] ++ fields)

/-! ## The controller -/

/-- What a sink does with an event. -/
inductive SinkOutcome
  | returns
  | raises
  /-- A `BaseException` that is no `Exception`. -/
  | interrupts
deriving DecidableEq

/-- What one call of the controller finds around it. A call appends at most one event of each kind. -/
structure Surroundings where
  clock : Except PyError DateTime
  identities : PrincipalDirectory
  stop : StopStatus
  audit : BreakGlassEventKind → SinkOutcome
  alert : SinkOutcome

/-- The controller, with the events its audit sink has taken. -/
structure BreakGlassController where
  issued : Dict PyStr BreakGlassGrant
  revokedGrantIds : Finset PyStr
  audited : List BreakGlassEvent

structure GrantRequest where
  grantId : PyStr
  requester : PyStr
  reason : PyStr
  incidentRef : PyStr
  scope : PyStr
  domain : PyStr
  capabilities : Finset PyStr
  approvers : List PyStr
  ttl : Duration

def interrupted : PyError := ⟨.foreign "BaseException", "", []⟩

/-- An operation of the controller. -/
abbrev Act := Op BreakGlassController PyError

namespace BreakGlassController

def create : BreakGlassController := ⟨.empty, ∅, []⟩

/-- `_now`. -/
def now (env : Surroundings) : Except PyError {d : DateTime // d.Aware} := do
  let reading ← env.clock
  match h : requireAware reading "trusted clock" with
  | .error e => .error e
  | .ok _ => return ⟨reading, (requireAware_eq_ok.1 h).1⟩

/-- `_append`. -/
def append (env : Surroundings) (event : BreakGlassEvent) : Act Unit := fun c =>
  match env.audit event.event with
  | .returns => (.ok (), { c with audited := c.audited ++ [event] })
  | .raises =>
    (.error (safetyError "BREAK_GLASS_AUDIT_UNAVAILABLE" "audit append of %s failed" [.text (py event.event.value)]), c)
  | .interrupts => (.error interrupted, c)

/-- `except SafetyError as error: raise self._refuse(...)`: any other exception passes through. -/
def refuse {α : Type} (env : Surroundings) (kind : BreakGlassEventKind) (instant : DateTime)
    (fields : List (String × PyValue)) (error : PyError) : Act α :=
  match error.cls with
  | .safetyError reasonCode => do
    append env (plainEvent kind instant (("reason_code", .str (py reasonCode)) :: fields))
    Op.raise error
  | _ => Op.raise error

/-- The event appended and alerted; when the alert fails, the withdrawal is appended in turn. -/
def announce (env : Surroundings) (event withdrawn : BreakGlassEvent) (message : String) (grantId : PyStr) :
    Act Unit := do
  append env event
  match env.alert with
  | .returns => pure ()
  | .interrupts => Op.raise interrupted
  | .raises => do
    append env withdrawn
    Op.raise (safetyError "BREAK_GLASS_ALERT_UNAVAILABLE" message [.text grantId])

def checkRequest (c : BreakGlassController) (env : Surroundings) (request : GrantRequest) : Except PyError Unit := do
  refuseIf (request.grantId = [] ∨ request.reason = [] ∨ request.incidentRef = [] ∨ request.scope = [] ∨
      request.domain = [] ∨ request.capabilities = ∅)
    (safetyError "BREAK_GLASS_GRANT_INVALID"
      "grant id, typed reason, incident, minimal scope, affected domain and named capabilities are mandatory" [])
  refuseIf (c.issued.get? request.grantId).isSome
    (safetyError "BREAK_GLASS_GRANT_ID_REUSED" "grant %r was already issued; break-glass is never renewed"
      [.text request.grantId])
  let forbidden := request.capabilities.filter (· ∈ forbiddenCapabilities)
  refuseIf (forbidden ≠ ∅)
    (safetyError "BREAK_GLASS_FORBIDDEN_CAPABILITY" "break-glass can never grant %r"
      ((forbidden.sort (· ≤ ·)).map .text))
  validatePrincipals env.identities request.requester request.approvers request.domain

/-- `first, second = sorted(approvers)`, of two approvers. -/
def sortedPair (approvers : List PyStr) : PyStr × PyStr :=
  match approvers.insertionSort (· ≤ ·) with
  | [first, second] => (first, second)
  | _ => ([], [])

def withdrawalFields : List (String × PyValue) := [("reason_code", .str (py "BREAK_GLASS_ALERT_UNAVAILABLE"))]

/-- The grant value, or the refusal of `__post_init__` put on record. -/
def issue (env : Surroundings) (request : GrantRequest) (instant : {d : DateTime // d.Aware})
    (requestFields : List (String × PyValue)) : Act BreakGlassGrant :=
  match BreakGlassGrant.create request.grantId request.requester request.reason request.incidentRef request.scope
    request.domain request.capabilities (sortedPair request.approvers) instant request.ttl with
  | .ok issued => pure issued
  | .error invalid => do
    append env (plainEvent .grantDenied instant
      ([("reason_code", .str (py "BREAK_GLASS_GRANT_INVALID")), ("detail", .str (py invalid.message))] ++ requestFields))
    Op.raise invalid

/-- `grant` up to its registration: the request checked, the grant built, recorded and alerted. -/
def announced (env : Surroundings) (request : GrantRequest) : Act BreakGlassGrant := do
  let instant ← Op.lift (now env)
  let requestFields : List (String × PyValue) :=
    [("grant_id", .str request.grantId), ("requester", .str request.requester),
      ("approvers", texts request.approvers), ("domain", .str request.domain)]
  let c ← Op.read
  Op.guarded (Op.lift (checkRequest c env request)) (refuse env .grantDenied instant requestFields)
  let issued ← issue env request instant requestFields
  let expiresAt ← Op.lift issued.expiresAt
  announce env (grantEvent .granted issued expiresAt instant [("reason", .str request.reason)])
    (grantEvent .grantWithdrawn issued expiresAt instant withdrawalFields)
    "immediate alert for grant %r failed; grant withdrawn" request.grantId
  return issued

def grant (env : Surroundings) (request : GrantRequest) : Act BreakGlassGrant := do
  let issued ← announced env request
  Op.update fun c => { c with issued := c.issued.set request.grantId issued }
  return issued

/-- `_require_issued`. -/
def requireIssued (c : BreakGlassController) (grant : BreakGlassGrant) : Except PyError Unit :=
  refuseIf (¬ ∃ issued ∈ c.issued.get? grant.grantId, issued.Same grant)
    (safetyError "BREAK_GLASS_GRANT_NOT_ISSUED" "grant %r was not issued by this controller or was altered"
      [.text grant.grantId])

def markRevoked (grantId : PyStr) : Act Unit :=
  Op.update fun c => { c with revokedGrantIds := insert grantId c.revokedGrantIds }

/-- `revoke`: the revocation stands whatever becomes of its audit event. -/
def revoke (env : Surroundings) (grant : BreakGlassGrant) : Act Unit := do
  let instant ← Op.lift (now env)
  let c ← Op.read
  Op.lift (requireIssued c grant)
  markRevoked grant.grantId
  let expiresAt ← Op.lift grant.expiresAt
  append env (grantEvent .revoked grant expiresAt instant [])

/-- The checks of a use that come after the expiry. -/
def checkUse (env : Surroundings) (grant : BreakGlassGrant) (capability reviewRef : PyStr) (instant : Instant) :
    Except PyError Unit := do
  refuseIf (instant < grant.grantedAt.instant)
    (safetyError "BREAK_GLASS_NOT_YET_VALID" "grant %r is valid from %s"
      [.text grant.grantId, .text grant.grantedAt.isoformat])
  refuseIf (capability ∈ forbiddenCapabilities)
    (safetyError "BREAK_GLASS_FORBIDDEN_CAPABILITY" "break-glass can never authorize %r" [.text capability])
  refuseIf (capability ∉ grant.capabilities)
    (safetyError "BREAK_GLASS_CAPABILITY_NOT_GRANTED" "%r is not a capability named in grant %r"
      [.text capability, .text grant.grantId])
  refuseIf (env.stop ≠ .normal)
    (safetyError "BREAK_GLASS_STOP_ACTIVE" "break-glass can never override an active emergency stop" [])
  refuseIf (reviewRef = [])
    (safetyError "BREAK_GLASS_REVIEW_REQUIRED" "every break-glass use requires a mandatory review reference" [])
  validatePrincipals env.identities grant.requester [grant.approvers.1, grant.approvers.2] grant.domain

/-- Revocation at expiry: it comes before its audit event, and the use is refused either way. -/
def expire (env : Surroundings) (grant : BreakGlassGrant) (expiresAt instant : DateTime) : Act Unit := do
  markRevoked grant.grantId
  append env (grantEvent .expiredRevoked grant expiresAt instant [])
  Op.raise (safetyError "BREAK_GLASS_EXPIRED" "grant %r expired at %s"
    [.text grant.grantId, .text expiresAt.isoformat])

/-- The `try` block of `authorize`. -/
def admissible (env : Surroundings) (grant : BreakGlassGrant) (capability reviewRef : PyStr) (instant : DateTime) :
    Act Unit := do
  let c ← Op.read
  Op.lift (requireIssued c grant)
  Op.lift (refuseIf (grant.grantId ∈ c.revokedGrantIds)
    (safetyError "BREAK_GLASS_EXPIRED" "grant %r was revoked" [.text grant.grantId]))
  let expiresAt ← Op.lift grant.expiresAt
  if expiresAt.instant ≤ instant.instant then expire env grant expiresAt instant
  else Op.lift (checkUse env grant capability reviewRef instant.instant)

def authorize (env : Surroundings) (grant : BreakGlassGrant) (capability reviewRef : PyStr) : Act BreakGlassUse := do
  let instant ← Op.lift (now env)
  let useFields : List (String × PyValue) := [("capability", .str capability), ("review_ref", .str reviewRef)]
  Op.guarded (admissible env grant capability reviewRef instant)
    (refuse env .useDenied instant (("grant_id", .str grant.grantId) :: useFields))
  let expiresAt ← Op.lift grant.expiresAt
  announce env (grantEvent .useAuthorized grant expiresAt instant useFields)
    (grantEvent .useWithdrawn grant expiresAt instant (useFields ++ withdrawalFields))
    "immediate alert for a use of %r failed; use withdrawn" grant.grantId
  return ⟨grant.grantId, capability, reviewRef, instant⟩

end BreakGlassController
end OcorRuntime.Safety
