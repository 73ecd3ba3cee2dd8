import OcorRuntime.Foundations.Run
import OcorRuntime.Memory.AdmissionWrites
import OcorRuntime.Memory.RequestWrites

/-! Runs of governed memory: any sequence of admissions, store commits, transitions,
deletions and sweeps, each with its own collaborators and cut off anywhere. What the
ledger looks like after one: the versions of an item follow each other along the
lifecycle. -/
namespace OcorRuntime.Memory
open Kernel
set_option autoImplicit false
set_option maxHeartbeats 250000

variable {ω : Type}

/-- The services over one set of stores. -/
structure MemorySystem (ω : Type) where
  coordinator : Coordinator ω
  admission : AdmissionService ω

/-- One call of a public operation, with what its collaborators do meanwhile. -/
inductive Call
  | admission (env : AdmissionEnv) (request : AdmissionRequest) (binding : Option VerifiedGovernedContextBinding)
      (payload : Bytes)
  /-- The caller stores an admitted version. -/
  | store (env : Env) (memoryItemId : PyStr) (version : ℕ) (payload : Bytes) (embedding : Option (List Binary64))
  | transition (env : Env) (memoryItemId : PyStr) (request : TransitionRequest)
      (binding : Option VerifiedGovernedContextBinding)
  | deletion (env : Env) (memoryItemId : PyStr) (request : DeletionRequest)
      (binding : Option VerifiedGovernedContextBinding)
  | expiry (env : Env) (binding : Option VerifiedGovernedContextBinding) (operationId : PyStr) (limit : Option ℤ)
  | retention (env : Env) (binding : Option VerifiedGovernedContextBinding) (operationId : PyStr) (limit : Option ℤ)

def Call.env : Call → Env
  | admission env _ _ _ => env.toEnv
  | store env _ _ _ _ => env
  | transition env _ _ _ => env
  | deletion env _ _ _ => env
  | expiry env _ _ _ => env
  | retention env _ _ _ => env

namespace MemorySystem
variable (m : MemorySystem ω)

/-- `store.commit` of a version of the ledger. -/
def storeVersion (env : Env) (memoryItemId : PyStr) (version : ℕ) (payload : Bytes)
    (embedding : Option (List Binary64)) : Act ω Unit := do
  let found ← ledgerGet env memoryItemId version
  match found with
  | none => pure ()
  | some record => do
    let _ ← m.coordinator.backend.commit env record payload embedding

def perform : Call → Act ω Unit
  | .admission env request binding payload => do
    let _ ← m.admission.admitMemory env request binding payload
  | .store env memoryItemId version payload embedding => m.storeVersion env memoryItemId version payload embedding
  | .transition env memoryItemId request binding => do
    let _ ← m.coordinator.transition env memoryItemId request binding
  | .deletion env memoryItemId request binding => do
    let _ ← m.coordinator.requestDeletion env memoryItemId request binding
  | .expiry env binding operationId limit => do
    let _ ← m.coordinator.enforceExpiry env binding operationId limit
  | .retention env binding operationId limit => do
    let _ ← m.coordinator.enforceRetention env binding operationId limit

/-- The stores after a call, whether it returned or raised. -/
def step (s : Stores ω) (call : Call) : Stores ω := (m.perform call ⟨s, 0⟩).2.stores

/-- The stores before the first call. -/
def initial (outside : ω) : Stores ω := ⟨[], .empty, .empty, outside⟩

end MemorySystem

/-! ## Invariants -/

/-- Every version entered the lifecycle or was made from the one before it. -/
def Follows (ledger : VersionLedger) (record : AdmittedMemoryVersion) : Prop :=
  Enters ledger record ∨ ∃ head ∈ ledger, Changes (fun _ => True) head record

/-- What every call keeps. -/
structure Consistent (s : Stores ω) : Prop where
  ledger : s.ledger.Ordered
  keyed : s.ledger.Keyed
  metadata : s.metadata.Ordered
  follows : ∀ record ∈ s.ledger, Follows s.ledger record

theorem Changes.keyed {released : PyStr → Prop} {head record : AdmittedMemoryVersion} (h : Changes released head record) :
    ∃ operationId, record.idempotencyKey = idempotencyKey record.item operationId := by
  obtain ⟨plan, decision, epoch, phase, now, hbuilt⟩ := h.built
  refine ⟨lifecycleOperationId plan.request.operationId phase, ?_⟩
  rw [(Plan.version_eq_ok hbuilt).2]
  rfl

theorem Follows.keyed {ledger : VersionLedger} {record : AdmittedMemoryVersion} (h : Follows ledger record) :
    ∃ operationId, record.idempotencyKey = idempotencyKey record.item operationId := by
  rcases h with h | ⟨head, -, h⟩
  · exact h.keyed
  · exact h.keyed

theorem Fits.later {ledger : VersionLedger} {record other : AdmittedMemoryVersion} (fits : Fits ledger record)
    (ordered : ledger.Ordered) (hmem : other ∈ ledger) (hitem : other.item.memoryItemId = record.item.memoryItemId) :
    other.item.memoryVersion < record.item.memoryVersion := by
  have hbounds := (ordered.version_bounds hmem).2
  rw [hitem] at hbounds
  rw [fits.next]
  omega

theorem Follows.append {ledger : VersionLedger} {record new : AdmittedMemoryVersion} (h : Follows ledger record)
    (ordered : ledger.Ordered) (hmem : record ∈ ledger) (fits : Fits ledger new) : Follows (ledger ++ [new]) record := by
  rcases h with h | ⟨head, hhead, h⟩
  · refine .inl ⟨h.event, h.status, h.keyed, fun head hhead hitem hversion => ?_⟩
    rcases List.mem_append.mp hhead with hold | hnew
    · exact h.after head hold hitem hversion
    · rw [List.mem_singleton.mp hnew] at hitem hversion
      have hlater := fits.later ordered hmem hitem.symm
      omega
  · exact .inr ⟨head, List.mem_append_left _ hhead, h⟩

theorem Consistent.append {s : Stores ω} {record : AdmittedMemoryVersion} (h : Consistent s)
    (fits : Fits s.ledger record) (follows : Follows (s.ledger ++ [record]) record) :
    Consistent { s with ledger := s.ledger ++ [record] } := by
  refine ⟨.snoc h.ledger fits.next fits.fresh fits.verified, fun other hmem => ?_, h.metadata, fun other hmem => ?_⟩
  · rcases List.mem_append.mp hmem with hold | hnew
    · exact h.keyed other hold
    · rw [List.mem_singleton.mp hnew]
      exact follows.keyed
  · rcases List.mem_append.mp hmem with hold | hnew
    · exact (h.follows other hold).append h.ledger hold fits
    · rw [List.mem_singleton.mp hnew]
      exact follows

theorem Consistent.write {c : Coordinator ω} {P : VersionLedger → List TombstoneEntry → AdmittedMemoryVersion → Prop}
    {released : PyStr → Prop} {memoryItemId : PyStr} {s s' : Stores ω} (h : Consistent s)
    (hwrite : Write c P released memoryItemId s s') : Consistent s' := by
  have hmetadata := Write.ordered (.single hwrite) h.metadata
  cases hwrite with
  | quiet hquiet =>
    have hledger := Quiet.ledger_eq (.single hquiet)
    exact ⟨hledger ▸ h.ledger, hledger ▸ h.keyed, hmetadata, hledger ▸ h.follows⟩
  | entomb => exact ⟨h.ledger, h.keyed, hmetadata, h.follows⟩
  | @admission record item fits enters =>
    refine h.append fits (.inl ⟨enters.event, enters.status, enters.keyed, fun head hhead hitem hversion => ?_⟩)
    rcases List.mem_append.mp hhead with hold | hnew
    · exact enters.after head hold hitem hversion
    · rw [List.mem_singleton.mp hnew] at hversion
      omega
  | @change head record item fits mem changes entombed =>
    refine h.append fits (.inr ⟨head, List.mem_append_left _ mem, ?_⟩)
    exact ⟨changes.built, changes.declared, changes.restores,
      fun hheld => (changes.unheld hheld).imp fun _ href => ⟨href.1, trivial⟩⟩

theorem Admits.write {a : AdmissionService ω} {s s' : Stores ω} (c : Coordinator ω)
    (P : VersionLedger → List TombstoneEntry → AdmittedMemoryVersion → Prop) (released : PyStr → Prop)
    (ordered : s.ledger.Ordered) (h : Admits a s s') : AnyWrite c P released s s' := by
  cases h with
  | outside o => exact ⟨[], .quiet (.outside s o)⟩
  | @entry record sources fits event keyed examined =>
    refine ⟨_, .admission rfl fits ⟨event, examined.status, keyed, fun head hmem hitem hversion => ?_⟩⟩
    have hget := ordered.get_of_mem hmem
    have hpos := (ordered.version_bounds hmem).1
    refine examined.guarded (by omega) head ?_
    rw [← hversion, Nat.add_sub_cancel, ← hitem]
    exact hget

/-- The writes of an admission are writes about its item, and keep the stores consistent. -/
theorem Admits.writes {a : AdmissionService ω} {s s' : Stores ω} (c : Coordinator ω)
    (P : VersionLedger → List TombstoneEntry → AdmittedMemoryVersion → Prop) (released : PyStr → Prop)
    (h : Consistent s) (hadmits : Relation.ReflTransGen (Admits a) s s') :
    Relation.ReflTransGen (AnyWrite c P released) s s' ∧ Consistent s' := by
  induction hadmits with
  | refl => exact ⟨.refl, h⟩
  | tail _ hstep ih =>
    obtain ⟨hwrites, hconsistent⟩ := ih
    have hwrite := hstep.write c P released hconsistent.ledger
    exact ⟨hwrites.tail hwrite, hwrite.elim fun _ hw => hconsistent.write hw⟩

/-- Tombstones on any version. -/
def anyVersion : VersionLedger → List TombstoneEntry → AdmittedMemoryVersion → Prop := fun _ _ _ => True

theorem allowed_anyVersion (s : Stores ω) (memoryItemId operationId : PyStr) :
    Allowed anyVersion s memoryItemId operationId :=
  ⟨fun _ _ _ _ => trivial, fun _ _ _ _ => trivial, fun _ _ _ _ _ => trivial⟩

namespace MemorySystem
variable (m : MemorySystem ω)

/-- From consistent stores a call is a sequence of writes, wherever it is cut off. -/
theorem perform_writes {s : Stores ω} (h : Consistent s) (call : Call) :
    Relation.ReflTransGen (AnyWrite m.coordinator anyVersion call.env.Released) s (m.step s call) := by
  have hany {x : Act ω Unit} {Q : Unit → Stores ω → Prop} {M : Stores ω → Stores ω → Prop}
      (hM : ∀ s s', M s s' → AnyWrite m.coordinator anyVersion call.env.Released s s') (hx : Runs M s x Q) :
      Relation.ReflTransGen (AnyWrite m.coordinator anyVersion call.env.Released) s (x ⟨s, 0⟩).2.stores :=
    Relation.ReflTransGen.mono hM _ _ (hx 0).1
  cases call with
  | admission env request binding payload =>
    have hruns : Runs (Admits m.admission) s (m.perform (.admission env request binding payload)) fun _ _ => True :=
      Runs.bind (m.admission.runs_admitMemory env request binding payload) fun _ _ _ _ => Runs.pure trivial
    exact (Admits.writes m.coordinator anyVersion env.toEnv.Released h (hruns 0).1).1
  | store env memoryItemId version payload embedding =>
    refine hany (M := AnyWrite m.coordinator anyVersion env.Released) (Q := fun _ _ => True) (fun _ _ hw => hw) ?_
    refine Runs.after (still_read env s) fun found hfound => ?_
    cases found with
    | none => exact Runs.pure trivial
    | some record =>
      have hmem := (VersionLedger.get_eq_some hfound.symm).1
      refine Runs.bind ((Coordinator.quiet_storeCommit env m.coordinator.backend payload embedding hmem rfl).mono
        (fun _ _ hquiet => ⟨_, .quiet hquiet⟩) fun _ _ _ h => h) fun _ _ _ _ => Runs.pure trivial
  | transition env memoryItemId request binding =>
    refine hany (fun _ _ hw => ⟨_, hw⟩) (Runs.bind (m.coordinator.runs_transition env h.metadata h.keyed
      (allowed_anyVersion s _ _)) fun _ _ _ _ => Runs.pure (Q := fun _ _ => True) trivial)
  | deletion env memoryItemId request binding =>
    refine hany (fun _ _ hw => ⟨_, hw⟩) (Runs.bind (m.coordinator.runs_requestDeletion env h.metadata h.keyed
      (allowed_anyVersion s _ _)) fun _ _ _ _ => Runs.pure (Q := fun _ _ => True) trivial)
  | expiry env binding operationId limit =>
    refine hany (fun _ _ hw => hw) (Runs.bind (m.coordinator.runs_sweep env h.metadata (fun _ _ _ => trivial)
      (fun _ _ _ _ _ _ _ => trivial) (fun _ _ _ _ _ => trivial)) fun _ _ _ _ => Runs.pure (Q := fun _ _ => True) trivial)
  | retention env binding operationId limit =>
    refine hany (fun _ _ hw => hw) (Runs.bind (m.coordinator.runs_sweep env h.metadata (fun _ _ _ => trivial)
      (fun _ _ _ _ _ _ _ => trivial) (fun _ _ _ _ _ => trivial)) fun _ _ _ _ => Runs.pure (Q := fun _ _ => True) trivial)

theorem consistent_writes {released : PyStr → Prop} {s s' : Stores ω} (h : Consistent s)
    (hwrites : Relation.ReflTransGen (AnyWrite m.coordinator anyVersion released) s s') : Consistent s' := by
  induction hwrites with
  | refl => exact h
  | tail _ hstep ih => exact hstep.elim fun _ hw => ih.write hw

theorem consistent_step {s : Stores ω} (h : Consistent s) (call : Call) : Consistent (m.step s call) :=
  m.consistent_writes h (m.perform_writes h call)

theorem consistent_initial (outside : ω) : Consistent (initial outside) := by
  refine ⟨.nil, List.forall_mem_nil _, fun item version => ?_, List.forall_mem_nil _⟩
  simp only [initial, MetadataStore.Committed, MetadataStore.get, MetadataStore.head, MetadataStore.empty]
  simp
  omega

theorem consistent_run (outside : ω) (calls : List Call) : Consistent (run m.step (initial outside) calls) := by
  refine run_induction (fun s call h => ?_) (consistent_initial outside) calls
  exact m.consistent_step h call

end MemorySystem

/-! ## Consecutive versions -/

/-- The attributes that keep an item apart from others. -/
def MemoryFields.isolation (item : MemoryFields) :
    PyStr × PyStr × PyStr × List PyStr × PyStr × PyStr × PyStr × PyStr × MemoryScope × List (String × Option PyStr) :=
  (item.tenantId, item.organizationId, item.domainId, item.compartments, item.classificationMarkingRef, item.purpose,
    item.policyBundleDigest, item.ontologyReleaseDigest, item.memoryScope, item.scopeBindings)

theorem forItem_congr {item other : GovernedMemoryItem} (h : item.isolation = other.isolation) :
    MemoryPartition.forItem item = MemoryPartition.forItem other := by
  simp only [MemoryFields.isolation, Prod.mk.injEq] at h
  obtain ⟨h1, h2, h3, h4, h5, h6, h7, h8, h9, h10⟩ := h
  simp only [MemoryPartition.forItem, h1, h2, h3, h4, h5, h6, h7, h8, h9, h10]

/-- The content, the source, the isolation attributes and the partition of the predecessor. -/
structure Carries (head record : AdmittedMemoryVersion) : Prop where
  content : record.item.contentDigest = head.item.contentDigest
  source : record.item.sourceKind = head.item.sourceKind ∧ record.item.sourceRef = head.item.sourceRef ∧
    record.item.sourceDigest = head.item.sourceDigest
  isolation : record.item.isolation = head.item.isolation
  partition : MemoryPartition.forItem record.item = MemoryPartition.forItem head.item

theorem Changes.carries {released : PyStr → Prop} {head record : AdmittedMemoryVersion}
    (h : Changes released head record) : Carries head record := by
  obtain ⟨plan, decision, epoch, phase, now, hbuilt⟩ := h.built
  have hfields := (Plan.version_eq_ok hbuilt).1
  have hisolation : record.item.isolation = head.item.isolation :=
    (congrArg MemoryFields.isolation hfields).trans rfl
  exact ⟨(congrArg MemoryFields.contentDigest hfields).trans rfl,
    ⟨(congrArg MemoryFields.sourceKind hfields).trans rfl, (congrArg MemoryFields.sourceRef hfields).trans rfl,
      (congrArg MemoryFields.sourceDigest hfields).trans rfl⟩, hisolation, forItem_congr hisolation⟩

theorem Changes.slot {released : PyStr → Prop} {head record : AdmittedMemoryVersion} (h : Changes released head record) :
    record.item.memoryItemId = head.item.memoryItemId ∧ record.item.memoryVersion = head.item.memoryVersion + 1 := by
  obtain ⟨plan, decision, epoch, phase, now, hbuilt⟩ := h.built
  exact ⟨Plan.version_item hbuilt, Plan.version_number hbuilt⟩

/-- Consecutive versions of an item: an admission on an admittable version, or a lifecycle
change of it. -/
theorem Consistent.consecutive {s : Stores ω} (h : Consistent s) {memoryItemId : PyStr} {n : ℕ}
    {version next : AdmittedMemoryVersion} (hversion : s.ledger.get memoryItemId n = some version)
    (hnext : s.ledger.get memoryItemId (n + 1) = some next) :
    (version.item.lifecycleStatus.isAdmission = true ∧ Enters s.ledger next) ∨ Changes (fun _ => True) version next := by
  obtain ⟨hmem, hitem, hn⟩ := VersionLedger.get_eq_some hversion
  obtain ⟨hmem', hitem', hn'⟩ := VersionLedger.get_eq_some hnext
  rcases h.follows next hmem' with henters | ⟨head, hhead, hchanges⟩
  · exact .inl ⟨henters.after version hmem (hitem.trans hitem'.symm) (by omega), henters⟩
  · obtain ⟨hslot, hnumber⟩ := hchanges.slot
    have heq : head = version :=
      h.ledger.eq_of_slot hhead hmem (hslot.symm.trans (hitem'.trans hitem.symm)) (by omega)
    exact .inr (heq ▸ hchanges)

/-- What one version of an item allows the next to be. -/
structure LifecycleStep (version next : AdmittedMemoryVersion) : Prop where
  declared : next.item.lifecycleStatus ∈ version.item.lifecycleStatus.transitions ∨
    ((∃ ref status instant, next.lifecycleEvent = .admitted ref status instant) ∧
      version.item.lifecycleStatus.isAdmission = true ∧ next.item.lifecycleStatus.isAdmission = true)
  final : version.item.lifecycleStatus ≠ .deleted
  restores : version.item.lifecycleStatus = .legalHold →
    some next.item.lifecycleStatus = version.item.priorLifecycleStatus ∨ next.item.lifecycleStatus = .deletionPending
  carries : (∃ change, next.lifecycleEvent = .changed change) → Carries version next

/-- Every two consecutive versions of an item are a step of the lifecycle. -/
def VersionLedger.FollowsLifecycle (ledger : VersionLedger) : Prop :=
  ∀ memoryItemId n version next, ledger.get memoryItemId n = some version → ledger.get memoryItemId (n + 1) = some next →
    LifecycleStep version next

/-- **Consecutive versions of an item follow the lifecycle**, after every run of admissions,
store commits, transitions, deletions and sweeps, whatever the collaborators answer and
wherever a call is cut off: a declared transition or an admission on an admittable version,
nothing after a deleted one, out of a legal hold only what was there before or a deletion,
and a lifecycle version carries what its predecessor is about. -/
theorem MemorySystem.versions_follow_lifecycle (m : MemorySystem ω) (outside : ω) (calls : List Call) :
    (run m.step (initial outside) calls).ledger.FollowsLifecycle := by
  intro memoryItemId n version next hversion hnext
  rcases (m.consistent_run outside calls).consecutive hversion hnext with ⟨hadmittable, henters⟩ | hchanges
  · obtain ⟨instant, hevent⟩ := henters.event
    refine ⟨.inr ⟨⟨_, _, instant, hevent⟩, hadmittable, henters.status⟩, fun h => ?_, fun h => ?_, fun h => ?_⟩
    · rw [h] at hadmittable
      cases hadmittable
    · rw [h] at hadmittable
      cases hadmittable
    · obtain ⟨change, hchange⟩ := h
      rw [hevent] at hchange
      cases hchange
  · refine ⟨.inl hchanges.declared, fun h => ?_, fun h => (hchanges.restores h).symm, fun _ => hchanges.carries⟩
    have hdeclared := hchanges.declared
    rw [h] at hdeclared
    simp [LifecycleStatus.transitions] at hdeclared

end OcorRuntime.Memory
