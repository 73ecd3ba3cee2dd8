import OcorRuntime.Memory.Stores

/-! The world the memory coordinators work in: the three version stores, whatever lies
outside them (content objects, indexes, embedding representations, the audit sink), and
the port calls that reach them. Any call may fail, before or after its effect. -/
namespace OcorRuntime.Memory
open Kernel
set_option autoImplicit false
set_option maxHeartbeats 250000

inductive Fault
  | works
  | raises (why : Raised) (progress : Progress)

structure Stores (ω : Type) where
  ledger : VersionLedger
  metadata : MetadataStore
  tombstones : TombstoneStore
  outside : ω

/-- The stores, and how many port calls the running operation has made. -/
structure World (ω : Type) where
  stores : Stores ω
  calls : ℕ

abbrev Act (ω : Type) := Op (World ω) Raised

structure LegalHoldStatus where
  legalHoldRef : PyStr
  tenantId : PyStr
  active : Bool
deriving DecidableEq

/-- What the collaborators answer during one operation, by the number of the call. -/
structure Env where
  fault : ℕ → Fault
  clock : ℕ → Instant
  /-- `none` for an answer that is no decision. -/
  authorizeLifecycle : ℕ → PyStr → GovernedMemoryItem → LifecycleStatus → GovernedContext → Option MemoryPolicyDecision
  legalHold : ℕ → PyStr → GovernedContext → Option LegalHoldStatus
  /-- `none` for an answer that is no integer. -/
  stopEpoch : ℕ → GovernedContext → Option ℤ

/-! ## Port calls -/

section Ports
variable {ω α : Type} (env : Env)

/-- One call of a port, which may see its own number. -/
def port (x : ℕ → Op (Stores ω) Raised α) : Act ω α := fun w =>
  match env.fault w.calls with
  | .works => ((x w.calls w.stores).1, ⟨(x w.calls w.stores).2, w.calls + 1⟩)
  | .raises why .untouched => (.error why, ⟨w.stores, w.calls + 1⟩)
  | .raises why .caughtUp => (.error why, ⟨w.stores, w.calls + 1⟩)
  | .raises why .written => (.error why, ⟨(x w.calls w.stores).2, w.calls + 1⟩)
  | .raises why .done => (.error why, ⟨(x w.calls w.stores).2, w.calls + 1⟩)

/-- A call that changes nothing. -/
def query (answer : ℕ → Stores ω → Except PyError α) : Act ω α :=
  port env fun n s => ((answer n s).mapError .exception, s)

def now : Act ω Instant := query env fun n _ => .ok (env.clock n)

/-- A call of a store or service outside the version stores. -/
def outside (x : Op ω Raised α) : Act ω α :=
  port env fun _ s => ((x s.outside).1, { s with outside := (x s.outside).2 })

/-! The version ledger. -/

def ledgerGet (memoryItemId : PyStr) (memoryVersion : ℕ) : Act ω (Option AdmittedMemoryVersion) :=
  query env fun _ s => .ok (s.ledger.get memoryItemId memoryVersion)

def ledgerLatest (memoryItemId : PyStr) : Act ω ℕ :=
  query env fun _ s => .ok (s.ledger.latestVersion memoryItemId)

def ledgerByKey (key : IdempotencyKey) : Act ω (Option AdmittedMemoryVersion) :=
  query env fun _ s => .ok (s.ledger.byIdempotencyKey key)

def ledgerAppend (record : AdmittedMemoryVersion) : Act ω Unit :=
  port env fun _ s =>
    match s.ledger.append record with
    | .ok ledger => (.ok (), { s with ledger })
    | .error e => (.error (.exception e), s)

/-! The metadata store. -/

def metadataGet (memoryItemId : PyStr) (memoryVersion : ℕ) : Act ω (Option StoredVersion) :=
  query env fun _ s => .ok (s.metadata.get memoryItemId memoryVersion)

def metadataHead (memoryItemId : PyStr) : Act ω ℕ := query env fun _ s => .ok (s.metadata.head memoryItemId)

def metadataPointer (storeRef : PyStr) : Act ω (Option (RepresentationPointer × VersionState)) :=
  query env fun _ s => .ok (s.metadata.pointer storeRef)

def metadataStage (staged : StagedVersion) : Act ω StoredVersion :=
  port env fun _ s =>
    match s.metadata.stage staged with
    | .ok (stored, metadata) => (.ok stored, { s with metadata })
    | .error e => (.error (.exception e), s)

def metadataCommit (memoryItemId : PyStr) (memoryVersion : ℕ) (stageDigest : PyStr) (committedAt : Instant) :
    Act ω StoredVersion :=
  port env fun _ s =>
    match s.metadata.commit memoryItemId memoryVersion stageDigest committedAt with
    | .ok (stored, metadata) => (.ok stored, { s with metadata })
    | .error e => (.error (.exception e), s)

/-! The tombstones. -/

def tombstoneEntries (memoryItemId : PyStr) : Act ω (List TombstoneEntry) :=
  port env fun _ s => (.ok (s.tombstones.entries memoryItemId), { s with tombstones := s.tombstones.catchUp })

def tombstoneLatestEpoch : Act ω ℕ := query env fun _ s => .ok s.tombstones.latestEpoch

def tombstoneAppend (entry : TombstoneEntry) : Act ω Unit := fun w =>
  match env.fault w.calls with
  | .works =>
    ((TombstoneStore.append entry w.stores.tombstones).1.mapError .exception,
      ⟨{ w.stores with tombstones := (TombstoneStore.append entry w.stores.tombstones).2 }, w.calls + 1⟩)
  | .raises why progress =>
    (.error why, ⟨{ w.stores with tombstones := w.stores.tombstones.appended entry progress }, w.calls + 1⟩)

end Ports

/-! ## Failing closed -/

/-- `except Passing: raise`, then `except Exception: raise error`; an interrupt is no `Exception`. -/
def failClosed {ω α : Type} (passes : ErrorClass → Bool) (error : PyError) (x : Act ω α) : Act ω α :=
  Op.guarded x fun why =>
    match why with
    | .interrupt => Op.raise .interrupt
    | .exception e => Op.raise (.exception (if passes e.cls then e else error))

/-- `isinstance(error, MemoryStoreError)`. -/
def isStoreError : ErrorClass → Bool
  | .memoryError kind _ _ => kind = .store
  | _ => false

/-- The check that raises a Python error. -/
def check {ω : Type} (bad : Prop) [Decidable bad] (error : PyError) : Act ω Unit :=
  Op.lift ((refuseIf bad error).mapError .exception)

end OcorRuntime.Memory
