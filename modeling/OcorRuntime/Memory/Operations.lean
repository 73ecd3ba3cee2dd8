import OcorRuntime.Memory.Writes

/-! The lifecycle operations as sequences of writes: one lemma for each function says
what it writes, wherever it is cut off, and what it has established when it returns. -/
namespace OcorRuntime.Memory
open Kernel
set_option autoImplicit false
set_option maxHeartbeats 250000

/-- The latest version of an item. -/
def VersionLedger.latest (ledger : VersionLedger) (memoryItemId : PyStr) : Option AdmittedMemoryVersion :=
  if ledger.latestVersion memoryItemId = 0 then none
  else ledger.get memoryItemId (ledger.latestVersion memoryItemId)

theorem VersionLedger.latest_eq_some {ledger : VersionLedger} {memoryItemId : PyStr} {record : AdmittedMemoryVersion}
    (h : ledger.latest memoryItemId = some record) :
    record ∈ ledger ∧ record.item.memoryItemId = memoryItemId ∧
      record.item.memoryVersion = ledger.latestVersion memoryItemId := by
  unfold latest at h
  split_ifs at h
  exact ⟨(get_eq_some h).1, (get_eq_some h).2.1, (get_eq_some h).2.2⟩

/-- The record of an operation, keyed by the latest version of the item. -/
def VersionLedger.recorded (ledger : VersionLedger) (memoryItemId operationId : PyStr) (phase : Phase) :
    Option AdmittedMemoryVersion :=
  (ledger.latest memoryItemId).bind fun latest =>
    ledger.byIdempotencyKey (idempotencyKey latest.item (lifecycleOperationId operationId phase))

/-- The record that answers a repeated operation. -/
def VersionLedger.first (ledger : VersionLedger) (memoryItemId operationId : PyStr) : Option AdmittedMemoryVersion :=
  (ledger.recorded memoryItemId operationId .transition).or (ledger.recorded memoryItemId operationId .pending)

/-- Every record is keyed by its own item, under some operation. -/
def VersionLedger.Keyed (ledger : VersionLedger) : Prop :=
  ∀ record ∈ ledger, ∃ operationId, record.idempotencyKey = idempotencyKey record.item operationId

theorem VersionLedger.recorded_eq_some {ledger : VersionLedger} {memoryItemId operationId : PyStr} {phase : Phase}
    {record : AdmittedMemoryVersion} (h : ledger.recorded memoryItemId operationId phase = some record) :
    ∃ latest, ledger.latest memoryItemId = some latest ∧ record ∈ ledger ∧
      record.idempotencyKey = idempotencyKey latest.item (lifecycleOperationId operationId phase) := by
  obtain ⟨latest, hlatest, hkey⟩ := Option.bind_eq_some_iff.mp h
  exact ⟨latest, hlatest, byKey_eq_some hkey⟩

/-- The record that answers has the key of the latest version, so an outcome has its key. -/
theorem VersionLedger.first_eq_some {ledger : VersionLedger} {memoryItemId operationId : PyStr}
    {first : AdmittedMemoryVersion} (hkeyed : ledger.Keyed) (h : ledger.first memoryItemId operationId = some first) :
    first ∈ ledger ∧ ∀ outcome, ledger.recorded memoryItemId operationId .outcome = some outcome →
      outcome.idempotencyKey = idempotencyKey first.item (lifecycleOperationId operationId .outcome) := by
  have hfound : ∃ phase, ledger.recorded memoryItemId operationId phase = some first := by
    rcases Option.or_eq_some_iff.mp h with h | ⟨-, h⟩
    · exact ⟨_, h⟩
    · exact ⟨_, h⟩
  obtain ⟨phase, hfound⟩ := hfound
  obtain ⟨latest, hlatest, hmem, hkey⟩ := recorded_eq_some hfound
  refine ⟨hmem, fun outcome houtcome => ?_⟩
  obtain ⟨latest', hlatest', -, hkey'⟩ := recorded_eq_some houtcome
  rw [hlatest] at hlatest'
  cases hlatest'
  obtain ⟨own, hown⟩ := hkeyed first hmem
  rw [hown] at hkey
  simp only [idempotencyKey, IdempotencyKey.mk.injEq] at hkey
  rw [hkey', idempotencyKey, idempotencyKey, hkey.1, hkey.2.1, hkey.2.2.1, hkey.2.2.2.1]

/-! ## The next version -/

theorem MemoryFields.validated_eq_ok {f : MemoryFields} {item : GovernedMemoryItem} (h : f.validated = .ok item) :
    item.toMemoryFields = f := by
  unfold validated at h
  split at h
  · cases h
    rfl
  · cases h

/-- What a plan makes after `head`: the record of an item with the successor's fields. -/
theorem Plan.version_eq_ok {plan : Plan} {decision : MemoryPolicyDecision} {deletionEpoch : Option ℕ}
    {status : LifecycleStatus} {phase : Phase} {head record : AdmittedMemoryVersion} {now : Instant}
    (h : plan.version decision deletionEpoch status phase head now = .ok record) :
    record.item.toMemoryFields = successorFields head.item status plan.legalHoldRef deletionEpoch now ∧
      record = plan.record decision phase head record.item deletionEpoch now := by
  unfold version at h
  simp only [bind_eq_ok, refuseIf_eq_ok] at h
  obtain ⟨_, -, _, -, item, hitem, hrecord⟩ := h
  cases hrecord
  exact ⟨MemoryFields.validated_eq_ok hitem, rfl⟩

section Built
variable {plan : Plan} {decision : MemoryPolicyDecision} {deletionEpoch : Option ℕ} {status : LifecycleStatus}
  {phase : Phase} {head record : AdmittedMemoryVersion} {now : Instant}
  (h : plan.version decision deletionEpoch status phase head now = .ok record)
include h

theorem Plan.version_item : record.item.memoryItemId = head.item.memoryItemId :=
  (congrArg MemoryFields.memoryItemId (version_eq_ok h).1).trans rfl

theorem Plan.version_number : record.item.memoryVersion = head.item.memoryVersion + 1 :=
  congrArg MemoryFields.memoryVersion (version_eq_ok h).1

theorem Plan.version_status : record.item.lifecycleStatus = status :=
  congrArg MemoryFields.lifecycleStatus (version_eq_ok h).1

theorem Plan.version_epoch : record.item.deletionEpoch = if status.isDeletion then deletionEpoch else none :=
  congrArg MemoryFields.deletionEpoch (version_eq_ok h).1

theorem Plan.version_requestDigest : record.lifecycleEvent.get (·.requestDigest) = plan.requestDigest := by
  rw [(version_eq_ok h).2]
  rfl

/-- The key of the version is the key of its predecessor's content under the operation. -/
theorem Plan.version_key : record.idempotencyKey =
    idempotencyKey head.item (lifecycleOperationId plan.request.operationId phase) := by
  rw [(version_eq_ok h).2]
  have hfields := (version_eq_ok h).1
  simp only [Plan.record, idempotencyKey, IdempotencyKey.mk.injEq, and_true]
  exact ⟨(congrArg MemoryFields.tenantId hfields).trans rfl, (congrArg MemoryFields.memoryScope hfields).trans rfl,
    (congrArg MemoryFields.sourceDigest hfields).trans rfl, (congrArg MemoryFields.contentDigest hfields).trans rfl⟩

end Built

namespace Coordinator
variable {ω : Type} (c : Coordinator ω) (env : Env) {s : Stores ω}

/-! ## Reading and deciding -/

theorem still_visible (item : GovernedMemoryItem) (context : GovernedContext) :
    Still s (c.visible env item context) fun _ => True := by
  refine Runs.after (Q := fun _ => True) ?_ fun _ _ => Runs.pure trivial
  refine Runs.guarded (Runs.weaken (still_query env s) fun _ _ _ _ => trivial) fun why s' _ => ?_
  cases why with
  | interrupt => exact Runs.raise _
  | exception e =>
    dsimp only
    split_ifs
    · exact Runs.pure trivial
    · exact Runs.raise _

theorem still_latestRecord (memoryItemId : PyStr) :
    Still s (latestRecord env memoryItemId) fun found => found = s.ledger.latest memoryItemId := by
  refine Runs.after (still_read env s) fun latest hlatest => ?_
  subst hlatest
  unfold VersionLedger.latest
  split_ifs with hzero
  · exact Runs.pure rfl
  · exact still_read env s

theorem still_committedHead (memoryItemId : PyStr) (context : GovernedContext) :
    Still s (c.committedHead env memoryItemId context) fun head =>
      s.ledger.latest memoryItemId = some head ∧ s.metadata.head memoryItemId = head.item.memoryVersion := by
  refine Runs.after (still_latestRecord env memoryItemId) fun found hfound => ?_
  refine Runs.after still_lift fun record hrecord => ?_
  rw [orRaise_eq_ok] at hrecord
  refine Runs.after (c.still_visible env record.item context) fun seen _ => ?_
  refine Runs.after still_check fun _ _ => ?_
  refine Runs.after (still_read env s) fun head hhead => ?_
  refine Runs.after still_check fun _ hcommitted => ?_
  refine Runs.pure ⟨hfound ▸ hrecord, ?_⟩
  rw [← hhead]
  exact not_not.mp hcommitted

theorem still_decide (action : PyStr) (item : GovernedMemoryItem) (target : LifecycleStatus) (context : GovernedContext) :
    Still s (decide env action item target context : Act ω MemoryPolicyDecision) fun _ => True := by
  refine Runs.after (Q := fun _ => True) (Runs.failClosed ((still_query env s).weaken fun _ _ => trivial)) fun _ _ => ?_
  refine Runs.after still_lift fun _ _ => ?_
  refine Runs.after still_check fun _ _ => ?_
  exact Runs.after still_check fun _ _ => Runs.pure trivial

theorem still_hold (legalHoldRef : PyStr) (context : GovernedContext) :
    Still s (hold env legalHoldRef context : Act ω (Option LegalHoldStatus)) fun status =>
      ∃ n, env.legalHold n legalHoldRef context = status := by
  refine Runs.after (Runs.failClosed (still_query env s)) fun status hstatus => ?_
  obtain ⟨n, hstatus⟩ := hstatus
  exact Runs.after still_check fun _ _ => Runs.pure ⟨n, Except.ok.inj hstatus⟩

theorem still_requireReleased (head : GovernedMemoryItem) (context : GovernedContext) :
    Still s (requireReleased env head context : Act ω Unit) fun _ =>
      ∃ ref, head.legalHoldRef = some ref ∧ env.Released ref := by
  refine Runs.after still_lift fun ref href => ?_
  rw [orRaise_eq_ok] at href
  refine Runs.after (still_hold env ref context) fun status hstatus => ?_
  refine Still.weaken still_check fun _ hinactive => ⟨ref, href, ?_⟩
  obtain ⟨n, hstatus⟩ := hstatus
  obtain ⟨found, hfound, hactive⟩ := not_not.mp hinactive
  exact ⟨n, context, found, hstatus.trans hfound, hactive⟩

theorem still_stopEpoch (context : GovernedContext) : Still s (stopEpoch env context : Act ω ℤ) fun _ => True := by
  refine Runs.after (Q := fun _ => True) (Runs.failClosed ((still_query env s).weaken fun _ _ => trivial)) fun _ _ => ?_
  exact Still.weaken still_lift fun _ _ => trivial

theorem still_requireStopEpoch (context : GovernedContext) (expected : Option ℤ) :
    Still s (requireStopEpoch env context expected : Act ω Unit) fun _ => True := by
  cases expected with
  | none => exact Runs.pure trivial
  | some expected =>
    exact Runs.after (still_stopEpoch env context) fun _ _ => Still.weaken still_check fun _ _ => trivial

theorem still_checkHoldRef (head : GovernedMemoryItem) (target : LifecycleStatus) (context : GovernedContext)
    (legalHoldRef : Option PyStr) : Still s (checkHoldRef env head target context legalHoldRef : Act ω Unit) fun _ => True := by
  unfold checkHoldRef
  split_ifs
  · refine Runs.after still_lift fun ref _ => ?_
    exact Runs.after (still_hold env ref context) fun _ _ => Still.weaken still_check fun _ _ => trivial
  · exact Still.weaken still_check fun _ _ => trivial

theorem still_checkRelease (head : GovernedMemoryItem) (target : LifecycleStatus) (context : GovernedContext) :
    Still s (checkRelease env head target context : Act ω Unit) fun _ => head.lifecycleStatus = .legalHold →
      (target = .deletionPending ∨ some target = head.priorLifecycleStatus) ∧
        ∃ ref, head.legalHoldRef = some ref ∧ env.Released ref := by
  unfold checkRelease
  split_ifs with hheld
  · refine Runs.after (still_requireReleased env head context) fun _ hreleased => ?_
    refine Still.weaken still_check fun _ hprior _ => ⟨?_, hreleased⟩
    by_contra hne
    push Not at hne
    exact hprior hne
  · exact Runs.pure fun h => absurd h hheld

theorem still_checkFsm (head : GovernedMemoryItem) (target : LifecycleStatus) (context : GovernedContext)
    (legalHoldRef : Option PyStr) :
    Still s (checkFsm env head target context legalHoldRef : Act ω Unit) fun _ =>
      (target ≠ .deleted ∧ target ≠ .deletionIncomplete) ∧ target ∈ head.lifecycleStatus.transitions ∧
        (head.lifecycleStatus = .legalHold →
          (target = .deletionPending ∨ some target = head.priorLifecycleStatus) ∧
            ∃ ref, head.legalHoldRef = some ref ∧ env.Released ref) := by
  refine Runs.after still_check fun _ hsaga => ?_
  refine Runs.after still_check fun _ hdeclared => ?_
  refine Runs.after (still_checkHoldRef env head target context legalHoldRef) fun _ _ => ?_
  exact (still_checkRelease env head target context).weaken fun _ hreleased =>
    ⟨not_or.mp hsaga, not_not.mp hdeclared, hreleased⟩

theorem still_version (plan : Plan) (decision : MemoryPolicyDecision) (deletionEpoch : Option ℕ)
    (status : LifecycleStatus) (phase : Phase) (head : AdmittedMemoryVersion) :
    Still s (version env plan decision deletionEpoch status phase head : Act ω AdmittedMemoryVersion) fun record =>
      ∃ now, plan.version decision deletionEpoch status phase head now = .ok record :=
  Runs.after (still_now env s) fun now _ => Still.weaken still_lift fun _ h => ⟨now, h⟩

theorem still_recorded (memoryItemId operationId : PyStr) (phase : Phase) :
    Still s (recorded env memoryItemId operationId phase : Act ω (Option AdmittedMemoryVersion)) fun found =>
      found = s.ledger.recorded memoryItemId operationId phase := by
  refine Runs.after (still_latestRecord env memoryItemId) fun latest hlatest => ?_
  rw [VersionLedger.recorded, ← hlatest]
  cases latest with
  | none => exact Runs.pure rfl
  | some latest => exact still_read env s

theorem still_versions (memoryItemId : PyStr) (upto : ℕ) :
    Still s (versions env memoryItemId upto : Act ω (List StoredVersion)) fun found =>
      found = s.metadata.committedVersions memoryItemId upto :=
  still_read env s

theorem still_checkForgettable (head : GovernedMemoryItem) (context : GovernedContext) :
    Still s (checkForgettable env head context : Act ω Unit) fun _ =>
      .deletionPending ∈ head.lifecycleStatus.transitions ∧
        (head.lifecycleStatus = .legalHold → ∃ ref, head.legalHoldRef = some ref ∧ env.Released ref) := by
  unfold checkForgettable
  split_ifs with hheld
  · refine (still_requireReleased env head context).weaken fun _ hreleased => ⟨?_, fun _ => hreleased⟩
    rw [hheld]
    simp [LifecycleStatus.transitions]
  · exact Still.weaken still_check fun _ h => ⟨not_not.mp h, fun hheld' => absurd hheld' hheld⟩

theorem still_reserveEpoch (head : GovernedMemoryItem) :
    Still s (reserveEpoch env head : Act ω ℕ) fun epoch =>
      head.lifecycleStatus = .deletionIncomplete → ∀ e, head.deletionEpoch = some e → e = epoch := by
  unfold reserveEpoch
  split
  · next hstatus hepoch =>
    exact Runs.pure fun _ e he => Option.some.inj (he.symm.trans hepoch)
  · next hne =>
    exact Runs.map (still_read env s) fun _ _ _ _ hstatus e he => (hne e hstatus he).elim

/-! ## Appending -/

theorem runs_ledgerAppend {M : Stores ω → Stores ω → Prop} {record : AdmittedMemoryVersion}
    (hM : Fits s.ledger record → M s { s with ledger := s.ledger ++ [record] }) :
    Runs M s (ledgerAppend env record) fun _ s' =>
      Fits s.ledger record ∧ s' = { s with ledger := s.ledger ++ [record] } := by
  cases happend : s.ledger.append record with
  | error e =>
    refine runs_port env s (fun _ => ?_) fun _ _ h => ?_
    · rw [happend]
      exact .inl rfl
    · rw [happend] at h
      cases h
  | ok ledger =>
    obtain ⟨hverified, -, hnext, hfresh, rfl⟩ := VersionLedger.append_eq_ok.1 happend
    refine runs_port env s (fun _ => ?_) fun _ _ _ => ?_
    · rw [happend]
      exact .inr (hM ⟨hverified, hnext, hfresh⟩)
    · rw [happend]
      exact ⟨⟨hverified, hnext, hfresh⟩, rfl⟩

/-! ## Quiet operations -/

variable {memoryItemId : PyStr}

theorem quiet_outside {α : Type} (x : Op ω Raised α) : Runs (Quiet memoryItemId) s (outside env x) fun _ _ => True :=
  runs_outside env s fun _ _ h => h

theorem quiet_stage {record : AdmittedMemoryVersion} {pointers : List RepresentationPointer} {stagedAt : Instant}
    (hmem : record ∈ s.ledger) (hitem : record.item.memoryItemId = memoryItemId)
    (hpointers : record.item.representationKinds = [.structured] →
      pointers = [structuredPointer record.item record.itemDigest]) :
    Runs (Quiet memoryItemId) s (metadataStage env (stagedVersion record pointers stagedAt)) fun stored s' =>
      s'.metadata.get memoryItemId record.item.memoryVersion = some stored := by
  subst hitem
  have hcases : (∃ e, s.metadata.stage (stagedVersion record pointers stagedAt) = .error e) ∨
      ∃ stored metadata, s.metadata.stage (stagedVersion record pointers stagedAt) = .ok (stored, metadata) := by
    cases s.metadata.stage (stagedVersion record pointers stagedAt) with
    | error e => exact .inl ⟨e, rfl⟩
    | ok result => exact .inr ⟨result.1, result.2, rfl⟩
  rcases hcases with ⟨e, hstage⟩ | ⟨stored, metadata, hstage⟩
  · refine runs_port env s (fun _ => ?_) fun _ _ h => ?_
    · rw [hstage]
      exact .inl rfl
    · rw [hstage] at h
      cases h
  · refine runs_port env s (fun _ => ?_) fun _ found h => ?_
    · rw [hstage]
      rcases MetadataStore.stage_eq_ok.1 hstage with ⟨-, -, rfl⟩ | ⟨hfree, rfl, rfl⟩
      · exact .inl rfl
      · exact .inr (.stage hmem rfl hfree hpointers)
    · rw [hstage] at h ⊢
      cases h
      rcases MetadataStore.stage_eq_ok.1 hstage with ⟨hget, -, rfl⟩ | ⟨-, rfl, rfl⟩
      · exact hget
      · exact Dict.get?_set_self _ _ _

theorem quiet_commit (version : ℕ) (stageDigest : PyStr) (committedAt : Instant) :
    Runs (Quiet memoryItemId) s (metadataCommit env memoryItemId version stageDigest committedAt) fun _ s' =>
      s'.metadata.Committed memoryItemId version := by
  have hcases : (∃ e, s.metadata.commit memoryItemId version stageDigest committedAt = .error e) ∨
      ∃ stored metadata, s.metadata.commit memoryItemId version stageDigest committedAt = .ok (stored, metadata) := by
    cases s.metadata.commit memoryItemId version stageDigest committedAt with
    | error e => exact .inl ⟨e, rfl⟩
    | ok result => exact .inr ⟨result.1, result.2, rfl⟩
  rcases hcases with ⟨e, hcommit⟩ | ⟨stored, metadata, hcommit⟩
  · refine runs_port env s (fun _ => ?_) fun _ _ h => ?_
    · rw [hcommit]
      exact .inl rfl
    · rw [hcommit] at h
      cases h
  · obtain ⟨found, hfound, -, hrest⟩ := MetadataStore.commit_eq_ok.1 hcommit
    refine runs_port env s (fun _ => ?_) fun _ _ _ => ?_
    · rw [hcommit]
      rcases hrest with ⟨-, -, rfl⟩ | ⟨hpending, rfl, rfl, rfl⟩
      · exact .inl rfl
      · exact .inr (.commit hfound hpending)
    · rw [hcommit]
      rcases hrest with ⟨hstate, -, rfl⟩ | ⟨-, rfl, rfl, rfl⟩
      · exact ⟨found, hfound, hstate⟩
      · exact ⟨_, Dict.get?_set_self _ _ _, rfl⟩

theorem quiet_retireAll {α : Type} (items : List α) (f : α → Op ω Raised Unit) :
    Runs (Quiet memoryItemId) s (items.forM fun item => outside env (f item)) fun _ _ => True :=
  Runs.forM fun item _ _ _ => quiet_outside env (f item)

theorem quiet_retirePredecessors (b : Backend ω) (staged : StagedVersion) :
    Runs (Quiet memoryItemId) s (b.retirePredecessors env staged) fun _ _ => True := by
  unfold Backend.retirePredecessors
  split_ifs
  · exact Runs.pure trivial
  · exact Runs.after (still_read env s) fun _ _ => Runs.failClosed (quiet_retireAll env _ _)

theorem still_verifyCommitted (stored : StoredVersion) :
    Still s (Backend.verifyCommitted env stored : Act ω GovernedMemoryItem) fun _ => True := by
  refine Runs.after still_lift fun _ _ => ?_
  refine Runs.after (Still.forM (Q := fun _ => True) fun pointer => ?_) fun _ _ => Runs.pure trivial
  exact Runs.after (still_read env s) fun _ _ => Still.weaken still_check fun _ _ => trivial

theorem still_storeReceipt (stored : StoredVersion) :
    Still s (Backend.receipt env stored : Act ω StoreCommitReceipt) fun _ => True :=
  Runs.after (still_read env s) fun _ _ => Runs.pure trivial

/-- What `_prepare` returns stages the record; a record without projections has one pointer. -/
theorem still_prepare (b : Backend ω) (record : AdmittedMemoryVersion) (payload : Bytes)
    (embedding : Option (List Binary64)) :
    Still s (b.prepare env record payload embedding) fun prepared =>
      ∃ pointers stagedAt, prepared.1 = stagedVersion record pointers stagedAt ∧
        (record.item.representationKinds = [.structured] →
          pointers = [structuredPointer record.item record.itemDigest]) := by
  refine Runs.after (Q := fun _ => True) (Runs.lift fun _ _ => trivial) fun _ _ => ?_
  refine Runs.after (still_read env s) fun _ _ => ?_
  refine Runs.after still_check fun _ _ => ?_
  refine Runs.after still_check fun _ _ => ?_
  refine Runs.after still_lift fun representations _ => ?_
  refine Runs.after still_lift fun pointers hpointers => ?_
  refine Runs.after (still_now env s) fun stagedAt _ => ?_
  refine Runs.pure ⟨pointers, stagedAt, rfl, fun hkinds => ?_⟩
  simp only [Backend.pointers, hkinds, List.mem_singleton] at hpointers
  have hfilter : [RepresentationKind.fullText, .structured, .vector].filter (· = RepresentationKind.structured) =
      [.structured] := by decide
  rw [hfilter] at hpointers
  simpa [Backend.pointer, pure, Except.pure, bind, Except.bind] using hpointers.symm

theorem quiet_commitStaged (b : Backend ω) (item : GovernedMemoryItem) (staged : StagedVersion) (payload : Bytes)
    (document : Option PyStr) (vector : Option (List Binary64)) :
    Runs (Quiet staged.memoryItemId) s (b.commitStaged env item staged payload document vector) fun _ s' =>
      s'.metadata.Committed staged.memoryItemId staged.memoryVersion := by
  refine Runs.bind (Runs.failClosed (Runs.bind (quiet_outside env _) fun _ _ _ _ => quiet_retireAll env _ _))
    fun _ s' _ _ => ?_
  refine Runs.bind (Runs.failClosed (Runs.after (still_now env s') fun _ _ => quiet_commit env _ _ _))
    fun _ _ _ hcommitted => ?_
  refine Runs.after still_check fun _ _ => ?_
  refine Runs.bind (quiet_retirePredecessors env b _) fun _ _ hquiet _ => ?_
  exact Runs.mono (still_storeReceipt env _) (fun _ _ h => h.elim) fun _ _ hsame _ =>
    Still.eq_of hsame ▸ Quiet.committed_mono hquiet hcommitted

theorem quiet_storeCommit (b : Backend ω) {record : AdmittedMemoryVersion} (payload : Bytes)
    (embedding : Option (List Binary64)) (hmem : record ∈ s.ledger) (hitem : record.item.memoryItemId = memoryItemId) :
    Runs (Quiet memoryItemId) s (b.commit env record payload embedding) fun _ s' =>
      s'.metadata.Committed memoryItemId record.item.memoryVersion := by
  refine Runs.after (still_prepare env b record payload embedding) fun prepared hprepared => ?_
  obtain ⟨staged, document, vector⟩ := prepared
  obtain ⟨pointers, stagedAt, rfl, hpointers⟩ := hprepared
  refine Runs.bind (quiet_stage env hmem hitem hpointers) fun stored s' _ hstored => ?_
  refine Runs.after still_check fun _ _ => ?_
  split_ifs with hstate
  · refine Runs.after (still_verifyCommitted env stored) fun _ _ => ?_
    refine Runs.bind (quiet_retirePredecessors env b _) fun _ _ hquiet _ => ?_
    exact Runs.mono (still_storeReceipt env _) (fun _ _ h => h.elim) fun _ _ hsame _ =>
      Still.eq_of hsame ▸ Quiet.committed_mono hquiet ⟨stored, hstored, hstate⟩
  · subst hitem
    exact quiet_commitStaged env b record.item (stagedVersion record pointers stagedAt) payload document vector

theorem quiet_readVersion (b : Backend ω) (partition : MemoryPartition) (item : PyStr) (version : ℕ) :
    Runs (Quiet memoryItemId) s (b.readVersion env partition item version) fun _ _ => True := by
  refine Runs.after (still_read env s) fun _ _ => ?_
  refine Runs.after still_lift fun stored _ => ?_
  refine Runs.after still_check fun _ _ => ?_
  refine Runs.after still_check fun _ _ => ?_
  refine Runs.after (still_verifyCommitted env stored) fun item _ => ?_
  refine Runs.bind (Runs.forM fun pointer _ s' _ => ?_) fun _ s' _ _ => quiet_outside env _
  exact Runs.bind (quiet_outside env _) fun _ s'' _ _ =>
    Runs.mono still_check (fun _ _ h => h.elim) fun _ _ _ _ => trivial

theorem quiet_embedding (item : GovernedMemoryItem) (payload : Bytes) :
    Runs (Quiet memoryItemId) s (c.embedding env item payload) fun _ _ => True := by
  unfold embedding
  by_cases hvector : .vector ∉ item.representationKinds
  · rw [if_pos hvector]
    exact Runs.pure trivial
  · rw [if_neg hvector]
    refine Runs.after still_lift fun embedQuery _ => ?_
    refine Runs.after still_lift fun _ _ => ?_
    refine Runs.after still_lift fun _ _ => ?_
    refine Runs.bind (quiet_outside env _) fun _ s' _ _ => ?_
    exact Runs.after still_check fun _ _ => Runs.pure trivial

theorem quiet_contentOf (record : AdmittedMemoryVersion) :
    Runs (Quiet memoryItemId) s (c.contentOf env record) fun _ _ => True := by
  refine Runs.after (still_read env s) fun _ _ => ?_
  refine Runs.after still_lift fun _ _ => ?_
  refine Runs.bind (quiet_readVersion env c.backend _ _ _) fun _ s' _ _ => ?_
  exact Runs.bind (c.quiet_embedding env _ _) fun _ _ _ _ => Runs.pure trivial

theorem quiet_invalidateRepresentations (record : AdmittedMemoryVersion) (binding : VerifiedGovernedContextBinding) :
    Runs (Quiet memoryItemId) s (c.invalidateRepresentations env record binding) fun _ _ => True := by
  unfold invalidateRepresentations
  cases c.invalidateAll with
  | none => exact Runs.pure trivial
  | some invalidateAll =>
    dsimp only
    split_ifs
    · exact Runs.pure trivial
    · refine Runs.guarded (quiet_outside env _) fun why s' _ => ?_
      cases why with
      | interrupt => exact Runs.raise _
      | exception e =>
        dsimp only
        split_ifs <;> exact Runs.raise _

theorem quiet_commitContentVersion {record : AdmittedMemoryVersion} (binding : VerifiedGovernedContextBinding)
    (content : Option (Bytes × Option (List Binary64))) (hmem : record ∈ s.ledger)
    (hitem : record.item.memoryItemId = memoryItemId) :
    Runs (Quiet memoryItemId) s (c.commitContentVersion env record binding content) fun _ s' =>
      s'.metadata.Committed memoryItemId record.item.memoryVersion := by
  refine Runs.after (still_read env s) fun stored hstored => ?_
  split_ifs with hcommitted
  · refine (c.quiet_invalidateRepresentations env _ _).weaken fun _ s' hquiet _ => Quiet.committed_mono hquiet ?_
    obtain ⟨row, hrow, hstate⟩ := hcommitted
    exact ⟨row, hitem ▸ hstored ▸ hrow, hstate⟩
  · refine Runs.bind (Q := fun _ s' => record ∈ s'.ledger) ?_ fun content s' _ hmem' => ?_
    · cases content with
      | some content => exact Runs.pure hmem
      | none =>
        refine (c.quiet_contentOf env record).weaken fun _ s' hquiet _ => ?_
        rw [Quiet.ledger_eq hquiet]
        exact hmem
    · refine Runs.bind (quiet_storeCommit env c.backend _ _ hmem' hitem) fun _ s'' _ hcommitted => ?_
      exact (c.quiet_invalidateRepresentations env _ _).weaken fun _ _ hquiet _ => Quiet.committed_mono hquiet hcommitted

theorem quiet_receipt (record : AdmittedMemoryVersion) (request : Request) (status : String)
    (tombstone : Option TombstoneEntry) :
    Runs (Quiet memoryItemId) s (c.receipt env record request status tombstone) fun receipt _ =>
      receipt = record.lifecycleReceipt request.operationId status tombstone :=
  Runs.bind (Runs.failClosed (quiet_outside env _)) fun _ _ _ _ => Runs.pure rfl

theorem quiet_retire (below : ℕ) : Runs (Quiet memoryItemId) s (c.retire env memoryItemId below) fun _ _ => True :=
  Runs.after (still_versions env memoryItemId (below - 1)) fun _ _ => Runs.failClosed (quiet_retireAll env _ _)

theorem quiet_switchMetadata {record : AdmittedMemoryVersion} {stagedAt : Instant} (hmem : record ∈ s.ledger) :
    Runs (Quiet record.item.memoryItemId) s
      (switchMetadata env record (stagedVersion record [structuredPointer record.item record.itemDigest] stagedAt))
      fun _ s' => s'.metadata.Committed record.item.memoryItemId record.item.memoryVersion := by
  refine Runs.bind (quiet_stage env hmem rfl fun _ => rfl) fun stored s' _ hstored => ?_
  split_ifs with hstate
  · exact Runs.pure ⟨stored, hstored, hstate⟩
  · refine Runs.after (still_now env s') fun committedAt _ => ?_
    refine Runs.bind (quiet_commit env _ _ _) fun committed s'' _ hcommitted => ?_
    exact Runs.mono still_check (fun _ _ h => h.elim) fun _ _ hsame _ => Still.eq_of hsame ▸ hcommitted

theorem quiet_commitMetadataVersion {record : AdmittedMemoryVersion} (hmem : record ∈ s.ledger) :
    Runs (Quiet record.item.memoryItemId) s (c.commitMetadataVersion env record) fun _ s' =>
      s'.metadata.Committed record.item.memoryItemId record.item.memoryVersion := by
  refine Runs.after (still_read env s) fun existing hexisting => ?_
  split_ifs with hcommitted
  · obtain ⟨row, hrow, hstate⟩ := hcommitted
    refine Runs.mono still_check (fun _ _ h => h.elim) fun _ _ hsame _ => Still.eq_of hsame ▸ ⟨row, ?_, hstate⟩
    exact hexisting ▸ hrow
  · refine Runs.after (still_now env s) fun stagedAt _ => ?_
    refine Runs.bind (Runs.failClosed (quiet_switchMetadata env hmem)) fun _ s' _ hcommitted => ?_
    exact (c.quiet_retire env _).weaken fun _ _ hquiet _ => Quiet.committed_mono hquiet hcommitted

theorem quiet_lastTombstone : Runs (Quiet memoryItemId) s (lastTombstone env memoryItemId) fun last _ =>
    last = (s.tombstones.entries memoryItemId).getLast? := by
  refine Runs.bind (Q := fun entries _ => entries = s.tombstones.entries memoryItemId)
    (runs_port env s (fun _ => .inr (.catchUp s)) fun _ _ h => (Except.ok.inj h).symm) fun entries s' _ hentries => ?_
  exact Runs.pure (by rw [hentries])

theorem quiet_participate {α : Type} (x : MetadataStore → DeletionTarget → Op ω Raised α) (target : DeletionTarget) :
    Runs (Quiet memoryItemId) s (participate env x target) fun _ _ => True :=
  runs_port env s (fun _ => .inr (.outside s _)) fun _ _ _ => trivial

theorem quiet_orElse {α : Type} {x : Act ω α} (instead : α) (hx : Runs (Quiet memoryItemId) s x fun _ _ => True) :
    Runs (Quiet memoryItemId) s (orElse instead x) fun _ _ => True := by
  refine hx.guarded fun why s' _ => ?_
  cases why with
  | interrupt => exact Runs.raise _
  | exception e => exact Runs.pure trivial

theorem quiet_purgeAll (target : DeletionTarget) (residue : List (PyStr × ℕ)) (retained : ℕ)
    (participants : List (Participant ω)) (hpositive : ∀ count ∈ residue, 1 ≤ count.2)
    (hnodup : (residue.map Prod.fst ++ participants.map Participant.name).Nodup) :
    Runs (Quiet memoryItemId) s (purgeAll env target residue retained participants) fun result _ =>
      (∀ count ∈ result.1, 1 ≤ count.2) ∧ (result.1.map Prod.fst).Nodup ∧
        ∀ count ∈ result.1, count.1 ∈ residue.map Prod.fst ++ participants.map Participant.name := by
  induction participants generalizing residue retained s with
  | nil =>
    refine Runs.pure ⟨hpositive, by simpa using hnodup, fun count hcount => ?_⟩
    rw [List.map_nil, List.append_nil]
    exact List.mem_map_of_mem hcount
  | cons participant rest ih =>
    refine Runs.bind (quiet_orElse () (quiet_participate env _ target)) fun _ s₁ _ _ => ?_
    refine Runs.bind (quiet_orElse _ (quiet_participate env _ target)) fun left s₂ _ _ => ?_
    refine Runs.bind (Q := fun _ _ => True) ?_ fun kept s₃ _ _ => ?_
    · cases participant.retained with
      | none => exact Runs.pure trivial
      | some kept => exact Runs.map (quiet_participate env _ target) fun _ _ _ _ => trivial
    · by_cases hleft : left = []
      · rw [if_pos hleft]
        refine (ih residue kept hpositive ?_).weaken fun result _ _ h => ⟨h.1, h.2.1, fun count hcount => ?_⟩
        · rw [List.map_cons, List.nodup_middle] at hnodup
          exact hnodup.of_cons
        · have hmem := h.2.2 count hcount
          simp only [List.mem_append, List.map_cons, List.mem_cons] at hmem ⊢
          tauto
      · rw [if_neg hleft]
        have hnames : ((residue ++ [(participant.name, left.length)]).map Prod.fst ++ rest.map Participant.name) =
            residue.map Prod.fst ++ (participant :: rest).map Participant.name := by simp
        refine (ih _ kept (fun count hcount => ?_) (hnames ▸ hnodup)).weaken fun result _ _ h => ?_
        · rcases List.mem_append.mp hcount with hold | hnew
          · exact hpositive count hold
          · rw [List.mem_singleton.mp hnew]
            exact List.length_pos_iff.mpr hleft
        · exact ⟨h.1, h.2.1, hnames ▸ h.2.2⟩

end Coordinator
end OcorRuntime.Memory
