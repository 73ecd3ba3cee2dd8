import OcorRuntime.Memory.Admission
import OcorRuntime.Memory.Operations

/-! Admission as a write: what has been checked about a candidate, and against which
versions of the ledger, when its record is appended. -/
namespace OcorRuntime.Memory
open Kernel
set_option autoImplicit false
set_option maxHeartbeats 250000

/-- The reference resolves to the version of the ledger, which is no later version of the item itself. -/
structure Resolves (ledger : VersionLedger) (item : GovernedMemoryItem) (ref : PyStr) (source : GovernedMemoryItem) : Prop where
  found : ∃ slot record, versionRef? ref = some slot ∧ ledger.get slot.1 slot.2 = some record ∧ record.item = source
  earlier : source.memoryItemId = item.memoryItemId → source.memoryVersion < item.memoryVersion
  tenant : source.tenantId = item.tenantId

/-- What the checks of a candidate establish, whatever the policy. -/
structure Checked {ω : Type} (a : AdmissionService ω) (ledger : VersionLedger) (item : GovernedMemoryItem)
    (payload : Bytes) (sources : List GovernedMemoryItem) : Prop where
  content : a.validateContent item payload = .ok ()
  status : item.lifecycleStatus.isAdmission = true
  predecessor : 1 < item.memoryVersion → ∃ head, ledger.get item.memoryItemId (item.memoryVersion - 1) = some head ∧
    AdmissionService.identity head.item = AdmissionService.identity item
  resolved : List.Forall₂ (Resolves ledger item) item.lineageRefs sources
  marking : ∃ others required, a.join (others ++ sources.map fun source => source.classificationMarkingRef) = .ok required ∧
    a.dominates item.classificationMarkingRef required = .ok true
  taint : ∀ source ∈ sources, ∀ label ∈ source.taintLabels, label ∈ item.taintLabels
  eligible : item.instructionEligible = true → py "MODEL_GENERATED" ∉ item.taintLabels

/-- What the checks of a candidate and the lifecycle guard establish. -/
structure Examined {ω : Type} (a : AdmissionService ω) (ledger : VersionLedger) (item : GovernedMemoryItem)
    (sources : List GovernedMemoryItem) : Prop where
  status : item.lifecycleStatus.isAdmission = true
  resolved : List.Forall₂ (Resolves ledger item) item.lineageRefs sources
  marking : ∃ others required, a.join (others ++ sources.map fun source => source.classificationMarkingRef) = .ok required ∧
    a.dominates item.classificationMarkingRef required = .ok true
  taint : ∀ source ∈ sources, ∀ label ∈ source.taintLabels, label ∈ item.taintLabels
  eligible : item.instructionEligible = true → py "MODEL_GENERATED" ∉ item.taintLabels
  guarded : 1 < item.memoryVersion → ∀ head, ledger.get item.memoryItemId (item.memoryVersion - 1) = some head →
    head.item.lifecycleStatus.isAdmission = true

/-- The writes of an admission of `candidate` under a policy that permits only what meets `G`. -/
inductive Enrolls {ω : Type} (a : AdmissionService ω) (candidate : MemoryFields)
    (G : VersionLedger → GovernedMemoryItem → Prop) : Stores ω → Stores ω → Prop
  | outside (s : Stores ω) (o : ω) : Enrolls a candidate G s { s with outside := o }
  | entry {s : Stores ω} {record : AdmittedMemoryVersion} {payload : Bytes} {sources : List GovernedMemoryItem}
      (fits : Fits s.ledger record)
      (event : ∃ instant, record.lifecycleEvent = .admitted record.item.versionRef record.item.lifecycleStatus instant)
      (keyed : ∃ operationId, record.idempotencyKey = idempotencyKey record.item operationId)
      (asked : record.item.toMemoryFields = candidate) (checked : Checked a s.ledger record.item payload sources)
      (granted : G s.ledger record.item) : Enrolls a candidate G s { s with ledger := s.ledger ++ [record] }

/-- The writes of an admission under the lifecycle guard. -/
inductive Admits {ω : Type} (a : AdmissionService ω) : Stores ω → Stores ω → Prop
  | outside (s : Stores ω) (o : ω) : Admits a s { s with outside := o }
  | entry {s : Stores ω} {record : AdmittedMemoryVersion} {sources : List GovernedMemoryItem}
      (fits : Fits s.ledger record)
      (event : ∃ instant, record.lifecycleEvent = .admitted record.item.versionRef record.item.lifecycleStatus instant)
      (keyed : ∃ operationId, record.idempotencyKey = idempotencyKey record.item operationId)
      (examined : Examined a s.ledger record.item sources) : Admits a s { s with ledger := s.ledger ++ [record] }

namespace AdmissionService
variable {ω : Type} (a : AdmissionService ω) (env : AdmissionEnv) {s : Stores ω}

theorem still_validateSlot (item : GovernedMemoryItem) : Still s (validateSlot env item : Act ω Unit) fun _ => True := by
  refine Runs.after (still_read env.toEnv s) fun latest _ => ?_
  refine Runs.after (Q := fun _ => True) ?_ fun existing _ => ?_
  · split_ifs
    · exact (still_read env.toEnv s).weaken fun _ _ => trivial
    · exact Runs.pure trivial
  refine Runs.after still_check fun _ _ => ?_
  refine Runs.after still_check fun _ _ => ?_
  refine Runs.after still_check fun _ _ => ?_
  exact Still.weaken still_check fun _ _ => trivial

theorem still_resolveSource (item : GovernedMemoryItem) (context : GovernedContext) (ref : PyStr)
    (htenant : item.tenantId = context.tenantId) :
    Still s (resolveSource env item context ref : Act ω GovernedMemoryItem) (Resolves s.ledger item ref) := by
  refine Runs.after still_lift fun slot hslot => ?_
  refine Runs.after still_check fun _ hself => ?_
  refine Runs.after (still_read env.toEnv s) fun found hfound => ?_
  refine Runs.after still_lift fun source hsource => ?_
  refine Runs.after still_check fun _ hsame => ?_
  refine Runs.after still_check fun _ _ => ?_
  have hslot := versionRef?_of_parse hslot
  rw [orRaise_eq_ok, hfound] at hsource
  obtain ⟨-, hitem, hversion⟩ := VersionLedger.get_eq_some hsource
  refine Runs.pure ⟨⟨slot, source, hslot, hsource, rfl⟩, fun h => ?_, ?_⟩
  · rw [hversion]
    by_contra hle
    exact hself ⟨hitem.symm.trans h, not_lt.mp hle⟩
  · rw [htenant]
    exact not_not.mp hsame

theorem versionRef?_memoryVersionRef {memoryItemId : PyStr} {version : ℕ} {slot : PyStr × ℕ}
    (h : versionRef? (memoryVersionRef memoryItemId version) = some slot) : slot = (memoryItemId, version) := by
  obtain ⟨⟨item, digits⟩, hgroups, rfl⟩ := Option.map_eq_some_iff.mp h
  obtain ⟨hitem, hversion⟩ := memoryVersionRef_injective (versionRefGroups_eq_some.1 hgroups).written
  rw [hitem, hversion]

theorem supersedesRef_of_validateSupersession {item : GovernedMemoryItem} (h : validateSupersession item = .ok ())
    (hlater : 1 < item.memoryVersion) :
    item.supersedesRef = some (memoryVersionRef item.memoryItemId (item.memoryVersion - 1)) := by
  rw [validateSupersession, if_neg (by omega)] at h
  obtain ⟨_, hrefused, -⟩ := bind_eq_ok.1 h
  exact not_not.mp (refuseIf_eq_ok.1 hrefused)

theorem still_validateLineage (item : GovernedMemoryItem) (context : GovernedContext)
    (htenant : item.tenantId = context.tenantId) :
    Still s (validateLineage env item context : Act ω (List GovernedMemoryItem)) fun sources =>
      List.Forall₂ (Resolves s.ledger item) item.lineageRefs sources ∧ (1 < item.memoryVersion →
        ∃ head, s.ledger.get item.memoryItemId (item.memoryVersion - 1) = some head ∧
          identity head.item = identity item) := by
  refine Runs.after (still_validateSlot env item) fun _ _ => ?_
  refine Runs.after still_lift fun _ hsupersedes => ?_
  refine Runs.after (Still.collect fun ref => still_resolveSource env item context ref htenant) fun sources hsources => ?_
  refine Runs.after still_check fun _ hsame => Runs.pure ⟨hsources, fun hlater => ?_⟩
  obtain ⟨source, hsource, hidentity, -⟩ := not_not.mp ((not_and.mp hsame) hlater)
  have href := supersedesRef_of_validateSupersession hsupersedes hlater
  have hrefs : item.lineageRefs.head? = some (memoryVersionRef item.memoryItemId (item.memoryVersion - 1)) := by
    rw [GovernedMemoryItem.lineageRefs, href]
    simp [List.eraseDups_cons]
  generalize item.lineageRefs = refs at hsources hrefs
  cases hsources with
  | nil => cases hsource
  | cons hfirst _ =>
    cases hrefs
    cases hsource
    obtain ⟨slot, record, hslot, hget, rfl⟩ := hfirst.found
    cases versionRef?_memoryVersionRef hslot
    exact ⟨record, hget, hidentity⟩

theorem still_resolveReferences (item : GovernedMemoryItem) (context : GovernedContext) (now : Instant) :
    Still s (resolveReferences env item context now : Act ω (List EvidenceRecord)) fun _ => True := by
  refine Runs.after (Q := fun _ => True) (Runs.failClosed ?_) fun answers _ => ?_
  · refine Runs.after (still_query env.toEnv s) fun _ _ => ?_
    refine Runs.after (Still.collect fun _ => still_query env.toEnv s) fun _ _ => ?_
    exact Runs.after (Still.collect fun _ => still_query env.toEnv s) fun _ _ => Runs.pure trivial
  · obtain ⟨sourceDigest, evidence, provenance⟩ := answers
    refine Runs.after still_check fun _ _ => ?_
    refine Runs.after still_lift fun _ _ => ?_
    exact Runs.after still_lift fun _ _ => Runs.pure trivial

theorem still_validateMarking (item : GovernedMemoryItem) (context : GovernedContext) (evidence : List EvidenceRecord)
    (sources : List GovernedMemoryItem) :
    Still s (a.validateMarking env item context evidence sources) fun _ =>
      ∃ others required, a.join (others ++ sources.map fun source => source.classificationMarkingRef) = .ok required ∧
        a.dominates item.classificationMarkingRef required = .ok true := by
  refine Runs.after (Still.forM (Q := fun _ => True) fun marking => ?_) fun _ _ => ?_
  · exact Runs.after (still_query env.toEnv s) fun _ _ => Still.weaken still_check fun _ _ => trivial
  refine Runs.after (still_query env.toEnv s) fun required hrequired => ?_
  refine Runs.after (still_query env.toEnv s) fun dominated hdominated => ?_
  refine Still.weaken still_check fun _ hpassed => ?_
  obtain ⟨_, hrequired⟩ := hrequired
  obtain ⟨_, hdominated⟩ := hdominated
  rw [Bool.not_eq_false] at hpassed
  exact ⟨context.classificationMarkingRef :: evidence.map EvidenceRecord.markingRef, required, hrequired,
    hpassed ▸ hdominated⟩

theorem still_validateScopeAuthority (item : GovernedMemoryItem) (context : GovernedContext) (now : Instant) :
    Still s (validateScopeAuthority env item context now : Act ω Unit) fun _ => True := by
  unfold validateScopeAuthority
  by_cases hscope : item.memoryScope ≠ .federated
  · rw [if_pos hscope]
    exact Still.weaken still_check fun _ _ => trivial
  · rw [if_neg hscope]
    refine Runs.after still_lift fun ref _ => ?_
    refine Runs.after (Runs.failClosed (still_query env.toEnv s)) fun policy _ => ?_
    exact Still.weaken still_check fun _ _ => trivial

theorem still_validateInstructionEligibility (item : GovernedMemoryItem) (context : GovernedContext) (now : Instant) :
    Still s (validateInstructionEligibility env item context now : Act ω Unit) fun _ =>
      item.instructionEligible = true → py "MODEL_GENERATED" ∉ item.taintLabels := by
  unfold validateInstructionEligibility
  split_ifs with heligible
  · exact Runs.pure fun h => by rw [heligible] at h; cases h
  · refine Runs.after still_check fun _ hgenerated => ?_
    refine Runs.after still_check fun _ _ => ?_
    refine Runs.after still_lift fun ref _ => ?_
    refine Runs.after (Runs.failClosed (still_query env.toEnv s)) fun approval _ => ?_
    exact Still.weaken still_check fun _ _ _ => (not_or.mp hgenerated).2

theorem still_guardPolicy (item : GovernedMemoryItem) (context : GovernedContext) :
    Still s (guardPolicy env item context : Act ω (Option MemoryPolicyDecision)) fun answer =>
      ∀ decision ∈ answer, decision.permitted = true → 1 < item.memoryVersion →
        ∀ head, s.ledger.get item.memoryItemId (item.memoryVersion - 1) = some head →
          head.item.lifecycleStatus.isAdmission = true := by
  refine Runs.after (Q := fun head => 1 < item.memoryVersion →
    head = s.ledger.get item.memoryItemId (item.memoryVersion - 1)) ?_ fun found hfound => ?_
  · split_ifs with hlater
    · exact (still_read env.toEnv s).weaken fun _ h _ => h
    · exact Runs.pure fun h => absurd h hlater
  · split_ifs with hhead
    · refine Runs.pure fun decision hdecision hpermitted => ?_
      cases Option.some.inj hdecision
      cases hpermitted
    · refine (still_query env.toEnv s).weaken fun _ _ decision _ _ hlater head hget => ?_
      push Not at hhead
      have hadmittable := hhead head ((hfound hlater).trans hget)
      simpa using hadmittable

theorem still_evaluateUnder {policy : AdmissionPolicy ω} {item : GovernedMemoryItem} {context : GovernedContext}
    {G : Prop} (hpolicy : Still s (policy item context) fun answer => ∀ decision ∈ answer, decision.permitted = true → G) :
    Still s (evaluateUnder policy item context) fun _ => G := by
  refine Runs.after (Runs.failClosed hpolicy) fun answer hanswer => ?_
  refine Runs.after still_lift fun decision hdecision => ?_
  refine Runs.after still_check fun _ _ => ?_
  refine Runs.after still_check fun _ hpermitted => Runs.pure ?_
  rw [orRaise_eq_ok] at hdecision
  exact hanswer decision hdecision (by simpa using hpermitted)

theorem validateKindRules_eq_ok {item : GovernedMemoryItem} (h : validateKindRules item = .ok ()) :
    item.lifecycleStatus.isAdmission = true := by
  unfold validateKindRules at h
  simp only [bind_eq_ok, refuseIf_eq_ok] at h
  obtain ⟨_, hstatus, -⟩ := h
  simpa using (not_or.mp hstatus).1

theorem validateTaint_eq_ok {item : GovernedMemoryItem} {sources : List GovernedMemoryItem}
    (h : validateTaint item sources = .ok ()) :
    ∀ source ∈ sources, ∀ label ∈ source.taintLabels, label ∈ item.taintLabels := by
  intro source hsource label hlabel
  rw [validateTaint, refuseIf_eq_ok] at h
  by_contra hmissing
  refine h ⟨label, ?_, hmissing⟩
  exact List.mem_append_right _ (List.mem_flatMap.mpr ⟨source, hsource, hlabel⟩)

theorem still_examineUnder {policy : AdmissionPolicy ω} (item : GovernedMemoryItem) (context : GovernedContext)
    (payload : Bytes) (now : Instant) (htenant : item.tenantId = context.tenantId) {G : Prop}
    (hpolicy : Still s (policy item context) fun answer => ∀ decision ∈ answer, decision.permitted = true → G) :
    Still s (a.examineUnder env policy item context payload now) fun _ =>
      (∃ sources, Checked a s.ledger item payload sources) ∧ G := by
  refine Runs.after still_lift fun _ hcontent => ?_
  refine Runs.after still_lift fun _ _ => ?_
  refine Runs.after still_lift fun _ hkind => ?_
  refine Runs.after (still_validateLineage env item context htenant) fun sources hsources => ?_
  refine Runs.after (still_resolveReferences env item context now) fun evidence _ => ?_
  refine Runs.after (a.still_validateMarking env item context evidence sources) fun _ hmarking => ?_
  refine Runs.after still_lift fun _ htaint => ?_
  refine Runs.after (still_validateScopeAuthority env item context now) fun _ _ => ?_
  refine Runs.after (still_validateInstructionEligibility env item context now) fun _ heligible => ?_
  refine (still_evaluateUnder hpolicy).weaken fun _ hgranted => ⟨⟨sources, ?_⟩, hgranted⟩
  exact ⟨hcontent, validateKindRules_eq_ok hkind, hsources.2, hsources.1, hmarking, validateTaint_eq_ok htaint, heligible⟩

theorem accept_eq_ok {request : AdmissionRequest} {binding : VerifiedGovernedContextBinding} {now : Instant}
    {item : GovernedMemoryItem} (h : accept request binding now = .ok item) :
    item.tenantId = request.governedContext.tenantId ∧ item.toMemoryFields = request.candidate := by
  unfold accept at h
  simp only [bind_eq_ok, refuseIf_eq_ok, bindToContext, not_not] at h
  obtain ⟨_, -, _, -, _, -, _, -, candidate, hvalidated, _, -, _, hbound, hitem⟩ := h
  cases hitem
  exact ⟨hbound.1, MemoryFields.validated_eq_ok hvalidated⟩

theorem runs_admitCandidateUnder {policy : AdmissionPolicy ω} {G : VersionLedger → GovernedMemoryItem → Prop}
    (hpolicy : ∀ item context, Still s (policy item context) fun answer =>
      ∀ decision ∈ answer, decision.permitted = true → G s.ledger item)
    (request : AdmissionRequest) (binding : VerifiedGovernedContextBinding) (payload : Bytes) :
    Runs (Enrolls a request.candidate G) s (a.admitCandidateUnder env policy request binding payload) fun _ _ => True := by
  refine Runs.after (still_now env.toEnv s) fun now _ => ?_
  refine Runs.after still_lift fun item hitem => ?_
  refine Runs.after (still_read env.toEnv s) fun previous _ => ?_
  cases previous with
  | some previous =>
    refine Runs.after still_check fun _ _ => ?_
    exact Runs.after still_lift fun _ _ => Runs.pure trivial
  | none =>
    refine Runs.after (a.still_examineUnder env item _ payload now (accept_eq_ok hitem).1 (hpolicy item _))
      fun decision hexamined => ?_
    obtain ⟨⟨sources, hchecked⟩, hgranted⟩ := hexamined
    refine Runs.bind (Coordinator.runs_ledgerAppend env.toEnv fun hfits =>
      .entry hfits ⟨now, rfl⟩ ⟨request.operationId, rfl⟩ (accept_eq_ok hitem).2 hchecked hgranted) fun _ _ _ _ => ?_
    exact Runs.pure trivial

/-- Wherever an admission is cut off, it has appended a record that was checked and granted, or nothing. -/
theorem runs_admitUnder {policy : AdmissionPolicy ω} {G : VersionLedger → GovernedMemoryItem → Prop}
    (hpolicy : ∀ item context, Still s (policy item context) fun answer =>
      ∀ decision ∈ answer, decision.permitted = true → G s.ledger item)
    (request : AdmissionRequest) (binding : Option VerifiedGovernedContextBinding) (payload : Bytes) :
    Runs (Enrolls a request.candidate G) s (a.admitUnder env policy request binding payload) fun _ _ => True := by
  refine Runs.guarded ?_ fun why s' _ => ?_
  · exact Runs.after still_lift fun binding _ => a.runs_admitCandidateUnder env hpolicy request binding payload
  · cases why with
    | interrupt => exact Runs.raise _
    | exception e =>
      refine Runs.bind (Runs.failClosed (Q := fun _ _ => True) ?_) fun _ _ _ _ => Runs.raise _
      refine Runs.after (still_now env.toEnv s') fun now _ => ?_
      cases a.audit with
      | none => exact Runs.raise _
      | some audit =>
        exact runs_port env.toEnv s' (fun _ => .inr (.outside s' _)) fun _ _ _ => trivial

/-- What the lifecycle guard grants. -/
def AdmittableHead (ledger : VersionLedger) (item : GovernedMemoryItem) : Prop :=
  1 < item.memoryVersion → ∀ head, ledger.get item.memoryItemId (item.memoryVersion - 1) = some head →
    head.item.lifecycleStatus.isAdmission = true

/-- Wherever an admission is cut off, it has appended a record that was examined, or nothing. -/
theorem runs_admitMemory (request : AdmissionRequest) (binding : Option VerifiedGovernedContextBinding) (payload : Bytes) :
    Runs (Admits a) s (a.admitMemory env request binding payload) fun _ _ => True := by
  have hguard : ∀ item context, Still s (guardPolicy env item context : Act ω (Option MemoryPolicyDecision)) fun answer =>
      ∀ decision ∈ answer, decision.permitted = true → AdmittableHead s.ledger item :=
    fun item context => still_guardPolicy env item context
  refine (a.runs_admitUnder env hguard request binding payload).mono (fun s₁ s₂ henrolls => ?_) fun _ _ _ h => h
  cases henrolls with
  | outside o => exact .outside s₁ o
  | entry fits event keyed asked checked granted =>
    exact .entry fits event keyed ⟨checked.status, checked.resolved, checked.marking, checked.taint, checked.eligible, granted⟩

end AdmissionService
end OcorRuntime.Memory
