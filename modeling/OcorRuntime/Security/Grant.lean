import OcorRuntime.Kernel.Governance
import OcorRuntime.Kernel.GovernedContext

/-! Signed delegation grants and their revocations (`security/control_plane.py`): the
record a signature covers, its canonical bytes and the PKCS#1 v1.5 check. A grant's
fields are what a caller may put there: sets in any order, date-times with any offset,
ceilings as plain integers or as members of an `IntEnum`. -/
namespace OcorRuntime.Security
open Canonical Kernel
set_option autoImplicit false
set_option maxHeartbeats 250000

/-- `SecurityControlError(reason, message)`. -/
def controlError (reason message : String) (args : List ErrorArg) : PyError :=
  ⟨.securityControlError reason, message, args⟩

/-- `_sha256_urn`. -/
def sha256Urn (data : Bytes) : PyStr := py "urn:sha256:" ++ Sha256.hexdigest data

/-! ## Classes of operations and risks -/

/-- An `IntEnum` class, by its members in definition order. -/
structure IntEnum (ε : Type) where
  className : String
  members : List ε
  value : ε → ℤ
  name : ε → String

inductive OperationClass
  | r0Read
  | r1Derive
  | r2Mutate
  | r3HighImpact
deriving DecidableEq

inductive RiskClass
  | r0Informational
  | r1Low
  | r2Controlled
  | r3HighImpact
deriving DecidableEq

def OperationClass.value : OperationClass → ℤ
  | .r0Read => 0
  | .r1Derive => 1
  | .r2Mutate => 2
  | .r3HighImpact => 3

def RiskClass.value : RiskClass → ℤ
  | .r0Informational => 0
  | .r1Low => 1
  | .r2Controlled => 2
  | .r3HighImpact => 3

def operationClass : IntEnum OperationClass where
  className := "OperationClass"
  members := [.r0Read, .r1Derive, .r2Mutate, .r3HighImpact]
  value := OperationClass.value
  name
    | .r0Read => "R0_READ"
    | .r1Derive => "R1_DERIVE"
    | .r2Mutate => "R2_MUTATE"
    | .r3HighImpact => "R3_HIGH_IMPACT"

def riskClass : IntEnum RiskClass where
  className := "RiskClass"
  members := [.r0Informational, .r1Low, .r2Controlled, .r3HighImpact]
  value := RiskClass.value
  name
    | .r0Informational => "R0_INFORMATIONAL"
    | .r1Low => "R1_LOW"
    | .r2Controlled => "R2_CONTROLLED"
    | .r3HighImpact => "R3_HIGH_IMPACT"

/-- What passes `isinstance(value, int)`: a plain integer, a member of an `IntEnum`, or a boolean. -/
inductive Ordinal
  | int (n : ℤ)
  | member (n : ℤ)
  | bool (b : Bool)
deriving DecidableEq

/-- The integer it compares as. -/
def Ordinal.value : Ordinal → ℤ
  | .int n | .member n => n
  | .bool b => if b then 1 else 0

def Ordinal.isBool : Ordinal → Bool
  | .bool _ => true
  | .int _ | .member _ => false

/-- `_ordered_enum`. -/
def orderedEnum {ε : Type} (field : String) (value : Ordinal) (kind : IntEnum ε) (reason : String) : Except PyError ε := do
  refuseIf (value.isBool) (controlError reason "%s must be a %s" [.text (py field), .text (py kind.className)])
  orRaise (kind.members.find? fun m => kind.value m = value.value)
    (controlError reason "%s is not a %s" [.text (py field), .text (py kind.className)])

/-! ## Instants -/

/-- `_canonical_utc`: the UTC instant, to the whole second. -/
def canonicalUtc (dt : DateTime) : Except PyError Instant :=
  match dt.zone with
  | .naive | .undefined => .error (controlError "SECURITY_RECORD_INVALID" "time must be timezone-aware" [])
  | .offset o =>
    let utc := dt.wall - o
    if minWall ≤ utc ∧ utc ≤ maxWall then .ok (utc - utc % 1000000)
    else .error ⟨.overflowError, "date value out of range", []⟩

/-- `strftime(_RFC3339)` of a UTC instant. -/
def rfc3339 (t : Instant) : PyStr := strftimeDate t ++ py "T" ++ clockText t ++ py "Z"

example : rfc3339 951827696500000 = py "2000-02-29T12:34:56Z" := by decide

/-! ## Field checks -/

def grantInvalid (message : String) (args : List ErrorArg) : PyError := controlError "DELEGATION_INVALID" message args

/-- `_grant_string`. -/
def grantString (field : String) (value : PyStr) : Except PyError PyStr :=
  if value = [] then .error (grantInvalid "grant %s is incomplete" [.text (py field)]) else .ok value

/-- `_grant_digest_field`. -/
def grantDigestField (field : String) (value : PyStr) : Except PyError PyStr :=
  if IsDigest value then .ok value else .error (grantInvalid "grant %s is not a SHA-256 URN" [.text (py field)])

/-- `_grant_set`: a semantic set, sorted before it is signed. -/
def grantSet (field : String) (values : List PyStr) : Except PyError (List PyStr) := do
  let items ← values.mapM (grantString field)
  refuseIf (items = []) (grantInvalid "grant %s is empty" [.text (py field)])
  refuseIf (¬ items.Nodup) (grantInvalid "grant %s contains duplicates" [.text (py field)])
  return items.insertionSort (· ≤ ·)

/-- `_grant_instant`. -/
def grantInstant (field : String) (value : DateTime) : Except PyError Instant :=
  match value.zone with
  | .naive | .undefined => .error (grantInvalid "grant %s must be timezone-aware" [.text (py field)])
  | .offset _ => canonicalUtc value

/-! ## Grants -/

structure SignedDelegation where
  grantId : PyStr
  grantorPrincipal : PyStr
  granteePrincipal : PyStr
  capabilityId : PyStr
  capabilityVersion : PyStr
  resourceScope : PyStr
  tenantId : PyStr
  organizationId : PyStr
  domains : List PyStr
  compartments : List PyStr
  permittedPurposes : List PyStr
  effectCeiling : Ordinal
  riskCeiling : Ordinal
  notBefore : DateTime
  expiresAt : DateTime
  maxChainDepth : Ordinal
  policyBundleDigest : PyStr
  nonce : PyStr
  confirmationKeyThumbprint : PyStr
  signature : PyStr := []
  redelegationAllowed : Bool := false
  parentGrantDigest : Option PyStr := none

/-- What the signature of a grant covers. -/
structure SignedRecord where
  grantId : PyStr
  grantorPrincipal : PyStr
  granteePrincipal : PyStr
  capabilityId : PyStr
  capabilityVersion : PyStr
  resourceScope : PyStr
  tenantId : PyStr
  organizationId : PyStr
  domains : List PyStr
  compartments : List PyStr
  permittedPurposes : List PyStr
  effectCeiling : OperationClass
  riskCeiling : RiskClass
  notBefore : Instant
  expiresAt : Instant
  maxChainDepth : ℤ
  redelegationAllowed : Bool
  parentGrantDigest : Option PyStr
  policyBundleDigest : PyStr
  nonce : PyStr
  confirmationKeyThumbprint : PyStr
deriving DecidableEq

/-- A text, or `None`. -/
def optionalText : Option PyStr → PyValue
  | none => .none
  | some text => .str text

def SignedRecord.toMapping (r : SignedRecord) : PyValue :=
  fields [("grant_id", some (.str r.grantId)), ("grantor_principal", some (.str r.grantorPrincipal)),
    ("grantee_principal", some (.str r.granteePrincipal)), ("capability_id", some (.str r.capabilityId)),
    ("capability_version", some (.str r.capabilityVersion)), ("resource_scope", some (.str r.resourceScope)),
    ("tenant_id", some (.str r.tenantId)), ("organization_id", some (.str r.organizationId)),
    ("domains", some (strings r.domains)), ("compartments", some (strings r.compartments)),
    ("permitted_purposes", some (strings r.permittedPurposes)),
    ("effect_ceiling", some (.str (py (operationClass.name r.effectCeiling)))),
    ("risk_ceiling", some (.str (py (riskClass.name r.riskCeiling)))),
    ("not_before", some (.str (rfc3339 r.notBefore))), ("expires_at", some (.str (rfc3339 r.expiresAt))),
    ("max_chain_depth", some (.int r.maxChainDepth)), ("redelegation_allowed", some (.bool r.redelegationAllowed)),
    ("parent_grant_digest", some (optionalText r.parentGrantDigest)),
    ("policy_bundle_digest", some (.str r.policyBundleDigest)), ("nonce", some (.str r.nonce)),
    ("confirmation_key_thumbprint", some (.str r.confirmationKeyThumbprint))]

namespace SignedDelegation

/-- The record `signing_payload` builds, with its checks in their order. -/
def signedRecord (g : SignedDelegation) : Except PyError SignedRecord := do
  let grantId ← grantString "grant_id" g.grantId
  let grantorPrincipal ← grantString "grantor_principal" g.grantorPrincipal
  let granteePrincipal ← grantString "grantee_principal" g.granteePrincipal
  let capabilityId ← grantString "capability_id" g.capabilityId
  let capabilityVersion ← grantString "capability_version" g.capabilityVersion
  let resourceScope ← grantString "resource_scope" g.resourceScope
  let tenantId ← grantString "tenant_id" g.tenantId
  let organizationId ← grantString "organization_id" g.organizationId
  refuseIf (g.grantorPrincipal = g.granteePrincipal) (grantInvalid "grant delegates to its grantor" [])
  let domains ← grantSet "domains" g.domains
  let compartments ← grantSet "compartments" g.compartments
  let permittedPurposes ← grantSet "permitted_purposes" g.permittedPurposes
  let effectCeiling ← orderedEnum "effect_ceiling" g.effectCeiling operationClass "DELEGATION_INVALID"
  let riskCeiling ← orderedEnum "risk_ceiling" g.riskCeiling riskClass "DELEGATION_INVALID"
  let notBefore ← grantInstant "not_before" g.notBefore
  let expiresAt ← grantInstant "expires_at" g.expiresAt
  refuseIf (expiresAt ≤ notBefore) (grantInvalid "delegation validity window is empty" [])
  refuseIf (g.maxChainDepth.isBool = true ∨ g.maxChainDepth.value < 1) (grantInvalid "max_chain_depth must be >= 1" [])
  let parentGrantDigest ← g.parentGrantDigest.mapM (grantDigestField "parent_grant_digest")
  let policyBundleDigest ← grantDigestField "policy_bundle_digest" g.policyBundleDigest
  let nonce ← grantString "nonce" g.nonce
  refuseIf (nonce.length < 16) (grantInvalid "grant nonce is too short" [])
  let confirmationKeyThumbprint ← grantDigestField "confirmation_key_thumbprint" g.confirmationKeyThumbprint
  return { grantId, grantorPrincipal, granteePrincipal, capabilityId, capabilityVersion, resourceScope, tenantId,
           organizationId, domains, compartments, permittedPurposes, effectCeiling, riskCeiling, notBefore, expiresAt,
           maxChainDepth := g.maxChainDepth.value, redelegationAllowed := g.redelegationAllowed, parentGrantDigest,
           policyBundleDigest, nonce, confirmationKeyThumbprint }

def signingPayload (g : SignedDelegation) : Except PyError Bytes := do
  let record ← g.signedRecord
  canonicalize record.toMapping

def digest (g : SignedDelegation) : Except PyError PyStr := do
  let payload ← g.signingPayload
  return sha256Urn payload

end SignedDelegation

/-! ## Signatures -/

/-- The value of a base64 letter. -/
def base64Value (c : CodePoint) : Option ℕ :=
  if 0x41 ≤ c.val ∧ c.val ≤ 0x5A then some (c.val - 0x41)
  else if 0x61 ≤ c.val ∧ c.val ≤ 0x7A then some (c.val - 0x61 + 26)
  else if 0x30 ≤ c.val ∧ c.val ≤ 0x39 then some (c.val - 0x30 + 52)
  else if c.val = 0x2B then some 62
  else if c.val = 0x2F then some 63
  else none

/-- `binascii.a2b_base64`, not strict: foreign characters are skipped, and padding that
completes a group ends the data. The state is the position in the group of four, the bits
left over from it and the padding seen since the last letter. -/
def a2bBase64 : PyStr → (quad left pads : ℕ) → Except PyError Bytes
  | [], quad, _, _ =>
    if quad = 0 then .ok []
    else if quad = 1 then
      .error ⟨.valueError, "number of data characters cannot be 1 more than a multiple of 4", []⟩
    else .error ⟨.valueError, "Incorrect padding", []⟩
  | c :: rest, quad, left, pads =>
    if c.val = 0x3D then
      if 2 ≤ quad then
        if 4 ≤ quad + (pads + 1) then .ok [] else a2bBase64 rest quad left (pads + 1)
      else a2bBase64 rest quad left pads
    else match base64Value c with
      | none => a2bBase64 rest quad left pads
      | some v => match quad with
        | 0 => a2bBase64 rest 1 v 0
        | 1 => return byte (left * 4 + v / 16) :: (← a2bBase64 rest 2 (v % 16) 0)
        | 2 => return byte (left * 16 + v / 4) :: (← a2bBase64 rest 3 (v % 4) 0)
        | _ => return byte (left * 64 + v) :: (← a2bBase64 rest 0 0 0)

/-- `_b64_decode`. -/
def b64Decode (value : PyStr) : Except PyError Bytes := do
  let padded := value ++ List.replicate ((4 - value.length % 4) % 4) (codePoint 0x3D)
  refuseIf ((padded.all fun c => c.val < 0x80) = false)
    (⟨.valueError, "string argument should contain only ASCII characters", []⟩ : PyError)
  a2bBase64 padded 0 0 0


example : b64Decode (py "b2Nvcg") = .ok [byte 0x6F, byte 0x63, byte 0x6F, byte 0x72] := by decide

/-- `_DIGEST_INFO["sha256"]`. -/
def digestInfo : Bytes :=
  [0x30, 0x31, 0x30, 0x0D, 0x06, 0x09, 0x60, 0x86, 0x48, 0x01, 0x65, 0x03, 0x04, 0x02, 0x01, 0x05, 0x00, 0x04, 0x20].map byte

/-- `int.from_bytes(data, "big")`. -/
def fromBytes (data : Bytes) : ℕ := data.foldl (fun acc b => acc * 256 + b.val) 0

structure PublicKey where
  n : ℕ
  e : ℕ

/-- `(n.bit_length() + 7) // 8`. -/
def PublicKey.octets (key : PublicKey) : ℕ := (Nat.size key.n + 7) / 8

/-- The encoded message a signature must decrypt to, with `padding` filler octets. -/
def encodedMessage (padding : ℕ) (message : Bytes) : Bytes :=
  [byte 0, byte 1] ++ List.replicate padding (byte 0xFF) ++ [byte 0] ++ digestInfo ++ Sha256.digest message

/-- `_rsa_verify(message, signature, n, e, "sha256")`. -/
def rsaVerify (message signature : Bytes) (key : PublicKey) : Bool :=
  let k := key.octets
  if signature.length ≠ k then false
  else
    let em := Sha256.bigEndian k (fromBytes signature ^ key.e % key.n)
    let used := 3 + digestInfo.length + (Sha256.digest message).length
    -- `padding_len < 8`
    if k < used + 8 then false else em = encodedMessage (k - used) message

/-- The detached signature over `payload`, or what its refusal raises. -/
def checkSignature (payload : Bytes) (signature : PyStr) (key : PublicKey) (malformed mismatch : PyError) :
    Except PyError Unit := do
  let signature ← ((b64Decode signature).mapError fun _ => malformed)
  refuseIf (rsaVerify payload signature key = false) mismatch

/-- `verify_delegation_signature`: the content address of a grant the authority signed. -/
def verifyDelegationSignature (grant : SignedDelegation) (signer : PublicKey) : Except PyError PyStr := do
  let payload ← grant.signingPayload
  checkSignature payload grant.signature signer
    (controlError "DELEGATION_SIGNATURE_INVALID" "delegation signature is malformed" [])
    (controlError "DELEGATION_SIGNATURE_INVALID" "delegation signature does not verify" [])
  return sha256Urn payload

/-! ## Revocations -/

structure SignedDelegationRevocation where
  delegationId : PyStr
  revokedAt : DateTime
  signature : PyStr

/-- `\uXXXX`. -/
def unicodeEscape (unit : ℕ) : PyStr :=
  backslash :: py "u" ++ [hexDigit (unit / 4096 % 16), hexDigit (unit / 256 % 16), hexDigit (unit / 16 % 16), hexDigit (unit % 16)]

/-- One character of an ASCII-only JSON string. -/
def asciiEscape (c : CodePoint) : PyStr :=
  if c.val = 0x22 then [backslash, quote]
  else if c.val = 0x5C then [backslash, backslash]
  else if c.val = 0x0A then backslash :: py "n"
  else if c.val = 0x0D then backslash :: py "r"
  else if c.val = 0x09 then backslash :: py "t"
  else if c.val = 0x0C then backslash :: py "f"
  else if c.val = 0x08 then backslash :: py "b"
  else if 0x20 ≤ c.val ∧ c.val ≤ 0x7E then [c]
  else (utf16Units c).flatMap unicodeEscape

/-- `json.dumps` of a string. -/
def asciiText (value : PyStr) : PyStr := quote :: value.flatMap asciiEscape ++ [quote]

def revocationInvalid (message : String) : PyError := controlError "DELEGATION_REVOCATION_INVALID" message []

def SignedDelegationRevocation.signingPayload (r : SignedDelegationRevocation) : Except PyError Bytes := do
  refuseIf (r.delegationId = []) (revocationInvalid "revocation fields are incomplete")
  refuseIf (¬ r.revokedAt.Aware) (revocationInvalid "revocation time is not timezone-aware")
  let revokedAt ← canonicalUtc r.revokedAt
  return utf8Encode (py "\x7b\"delegation_id\":" ++ asciiText r.delegationId ++ py ",\"revoked_at\":" ++
    asciiText (rfc3339 revokedAt) ++ py "\x7d")

/-- `verify_signed_delegation_revocation`. -/
def verifySignedDelegationRevocation (revocation : SignedDelegationRevocation) (signer : PublicKey) :
    Except PyError Unit := do
  let payload ← revocation.signingPayload
  checkSignature payload revocation.signature signer (revocationInvalid "revocation signature is malformed")
    (revocationInvalid "revocation signature does not verify")

end OcorRuntime.Security
