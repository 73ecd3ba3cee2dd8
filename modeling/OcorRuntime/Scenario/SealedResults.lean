import OcorRuntime.Base.Time
import OcorRuntime.Foundations.Session
import OcorRuntime.Scenario.CausalOutcome

/-! The sealed-result store (`c7/adapters/seaweedfs.py`) on a versioned bucket. A call is the tree of its
requests; the server may lose a request or its response, answer it with any status, and it may store a
version without the lock that was asked for. -/
namespace OcorRuntime.Scenario
set_option autoImplicit false
set_option maxHeartbeats 250000
set_option maxRecDepth 120000

/-! ## The bucket -/

/-- `x-amz-object-lock-mode` and `x-amz-object-lock-retain-until-date`. -/
structure Retention where
  mode : PyStr
  retainUntil : PyStr
deriving DecidableEq

structure Version where
  key : PyStr
  versionId : PyStr
  payload : Bytes
  retention : Option Retention
deriving DecidableEq

/-- The versions of every key, the oldest first. -/
abbrev Bucket := List Version

inductive Request
  | listVersions (key : PyStr)
  | getVersion (key versionId : PyStr)
  /-- `PUT` with `If-None-Match: *` and the two lock headers. -/
  | put (key : PyStr) (payload : Bytes) (lock : Retention)
  | getRetention (key versionId : PyStr)
deriving DecidableEq

inductive Content
  | versions (truncated : Bool) (listed : List (PyStr × PyStr))
  | object (raw : Bytes)
  | stored (versionId : PyStr)
  | retention (mode : PyStr)
  | empty
deriving DecidableEq

/-- The versions one listing returns at most. -/
def maxKeys : ℕ := 1000

/-- What the server does with a request; `locks` says whether it applies the lock of a write. -/
def handle (locks : Bool) (b : Bucket) : Request → Bucket × (ℕ × Content)
  | .listVersions key =>
    let found := b.filter fun v => key <+: v.key
    (b, 200, .versions (decide (maxKeys < found.length)) ((found.reverse.take maxKeys).map fun v => (v.key, v.versionId)))
  | .getVersion key versionId =>
    match b.find? fun v => v.key = key ∧ v.versionId = versionId with
    | some v => (b, 200, .object v.payload)
    | none => (b, 404, .empty)
  | .put key payload lock =>
    if ∃ v ∈ b, v.key = key then (b, 412, .empty)
    else
      let versionId := natText (b.length + 1)
      (b ++ [⟨key, versionId, payload, if locks then some lock else none⟩], 200, .stored versionId)
  | .getRetention key versionId =>
    match (b.find? fun v => v.key = key ∧ v.versionId = versionId).bind Version.retention with
    | some lock => (b, 200, .retention lock.mode)
    | none => (b, 404, .empty)

/-- What becomes of a request. -/
inductive Fate
  | answered (locks : Bool)
  /-- No response arrives; the server may have handled the request all the same. -/
  | lost (handled locks : Bool)
  /-- A response without the content asked for. -/
  | failed (status : ℕ) (handled locks : Bool)
deriving DecidableEq

def Fate.locks : Fate → Bool
  | .answered locks => locks
  | .lost _ locks => locks
  | .failed _ _ locks => locks

def serve (b : Bucket) (q : Request) : Fate → Bucket × Option (ℕ × Content)
  | .answered locks => ((handle locks b q).1, some (handle locks b q).2)
  | .lost handled locks => (if handled then (handle locks b q).1 else b, none)
  | .failed status handled locks => (if handled then (handle locks b q).1 else b, some (status, .empty))

/-! ## The client -/

def retentionMode : PyStr := py "COMPLIANCE"
def keyPrefix : PyStr := py "sealed-results/sha256/"

/-- `re.fullmatch(r"[0-9a-f]{64}")`. -/
def IsHexDigest (digest : PyStr) : Prop :=
  digest.length = 64 ∧ ∀ c ∈ digest, 48 ≤ c.val ∧ c.val ≤ 57 ∨ 97 ≤ c.val ∧ c.val ≤ 102

instance (digest : PyStr) : Decidable (IsHexDigest digest) :=
  have : Decidable (∀ c ∈ digest, 48 ≤ c.val ∧ c.val ≤ 57 ∨ 97 ≤ c.val ∧ c.val ≤ 102) := List.decidableBAll ..
  inferInstanceAs (Decidable (_ ∧ _))

def objectKey (reproducibilityDigest : PyStr) : Except PyError PyStr := do
  refuseIf (¬ IsHexDigest reproducibilityDigest)
    (sealedResultError "INVALID_DIGEST" "a reproducibility digest is 64 lowercase hex characters")
  return keyPrefix ++ reproducibilityDigest

/-- `SeaweedFSSealedResultStore`; `retention` is positive. -/
structure Client where
  initialized : Bool
  retention : Duration
  positive : 0 < retention

structure SealedResult where
  reproducibilityDigest : PyStr
  newlySealed : Bool
deriving DecidableEq

/-- A method call in progress. -/
abbrev Call := Session Request (Option (ℕ × Content)) PyError

/-- `_request`. -/
def send (q : Request) : Call (ℕ × Content) := do
  match ← Session.request q with
  | some response => return response
  | none => .raised (sealedResultError "STORE_UNAVAILABLE" "SeaweedFS endpoint unreachable")

/-- `_denied`. -/
def denied (status : ℕ) : Except PyError Unit :=
  refuseIf (status = 403) (sealedResultError "ACCESS_DENIED" "SeaweedFS refused the request")

def unexpected (message : String) : PyError := sealedResultError "UNEXPECTED_RESPONSE" message

def requireInitialized (client : Client) : Except PyError Unit :=
  refuseIf (client.initialized = false) (sealedResultError "STORE_NOT_INITIALIZED" "initialize() must verify the bucket first")

/-- `_sealed_version`: versions are listed newest first. -/
def sealedVersion (key : PyStr) : Call (Option PyStr) := do
  let (status, content) ← send (.listVersions key)
  Session.lift (denied status)
  Session.lift (refuseIf (status ≠ 200) (unexpected "listing versions returned another status"))
  match content with
  | .versions truncated listed => do
    Session.lift (refuseIf (truncated = true) (unexpected "listing versions of one key was truncated"))
    match ((listed.filter fun entry => entry.1 = key).map Prod.snd).getLast? with
    | none => return none
    | some versionId => do
      Session.lift (refuseIf (versionId = []) (unexpected "a listed version has no version id"))
      return some versionId
  | _ => .raised (unexpected "listing versions returned invalid XML")

/-- The raw bytes of a response. -/
def Content.raw : Content → Bytes
  | .object raw => raw
  | _ => []

/-- `_sealed_bytes`. -/
def sealedBytes (key : PyStr) : Call (Option Bytes) := do
  match ← sealedVersion key with
  | none => return none
  | some version => do
    let (status, content) ← send (.getVersion key version)
    Session.lift (denied status)
    Session.lift (refuseIf (status ≠ 200) (unexpected "reading the sealed version returned another status"))
    return some content.raw

/-- `_settle`. -/
def settle (payload existing : Bytes) (digest : PyStr) : Except PyError SealedResult := do
  refuseIf (existing ≠ payload)
    (sealedResultError "SEALED_RESULT_CONFLICT" "a different content is already stored under this digest")
  return ⟨digest, false⟩

/-- `(datetime.now(UTC) + self._retention).strftime("%Y-%m-%dT%H:%M:%SZ")`. -/
def retainUntil (client : Client) (now : Instant) : Except PyError PyStr := do
  let until' ← (DateTime.utc now).add client.retention
  return strftimeDate until'.wall ++ py "T" ++ clockText until'.wall ++ py "Z"

/-- `headers.get("x-amz-version-id", "")`. -/
def Content.versionId : Content → PyStr
  | .stored versionId => versionId
  | _ => []

/-- The retention of the written version is read back. -/
def confirmRetention (key version digest : PyStr) : Call SealedResult := do
  let (status, content) ← send (.getRetention key version)
  Session.lift (refuseIf (¬ (status = 200 ∧ content = .retention retentionMode))
    (sealedResultError "RETENTION_NOT_APPLIED" "the sealed version has no COMPLIANCE retention"))
  return ⟨digest, true⟩

/-- `seal_result`; `now` is the clock when the version is written. -/
def sealResult (client : Client) (now : Instant) (outcome : CausalOutcome) : Call SealedResult := do
  Session.lift (requireInitialized client)
  let payload ← Session.lift (sealedPayload outcome)
  let digest := outcome.reproducibilityDigest
  let key ← Session.lift (objectKey digest)
  match ← sealedBytes key with
  | some existing => Session.lift (settle payload existing digest)
  | none => do
    let lockedUntil ← Session.lift (retainUntil client now)
    let (status, content) ← send (.put key payload ⟨retentionMode, lockedUntil⟩)
    Session.lift (denied status)
    if status = 412 then
      match ← sealedBytes key with
      | some existing => Session.lift (settle payload existing digest)
      | none => .raised (unexpected "conditional write refused but no sealed version exists")
    else do
      Session.lift (refuseIf (status ≠ 200 ∨ content.versionId = []) (unexpected "sealing returned without a version"))
      confirmRetention key content.versionId digest

def readSealedResult (client : Client) (reproducibilityDigest : PyStr) : Call CausalOutcome := do
  let key ← Session.lift (objectKey reproducibilityDigest)
  Session.lift (requireInitialized client)
  match ← sealedBytes key with
  | some payload => Session.lift (decode payload reproducibilityDigest)
  | none => .raised (sealedResultError "SEALED_RESULT_NOT_FOUND" "no result is sealed under this digest")

/-! ## Any number of clients -/

inductive StoreCall
  | sealResult (client : Client) (now : Instant) (outcome : CausalOutcome)
  | readSealedResult (client : Client) (reproducibilityDigest : PyStr)

inductive StoreResult
  | sealed (result : SealedResult)
  | outcome (outcome : CausalOutcome)

def program : StoreCall → Call StoreResult
  | .sealResult client now outcome => do
    let result ← sealResult client now outcome
    return .sealed result
  | .readSealedResult client digest => do
    let outcome ← readSealedResult client digest
    return .outcome outcome

abbrev Store := Interleaving Bucket StoreCall Request (Option (ℕ × Content)) PyError StoreResult

def Store.step : Store → Turn StoreCall Fate → Store := Interleaving.step serve program

def Store.initial : Store := ⟨[], []⟩

end OcorRuntime.Scenario
