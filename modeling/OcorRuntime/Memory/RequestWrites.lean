import OcorRuntime.Memory.SagaWrites

/-! The public lifecycle operations as sequences of writes: transitions, deletions and the
two sweeps, each from any ordered stores and wherever it is cut off. -/
namespace OcorRuntime.Memory
open Kernel
set_option autoImplicit false
set_option maxHeartbeats 250000

variable {ω : Type}

/-- What a request about an item may find for its tombstones to be among those `P` allows:
the head it starts from, and the pending version it resumes. -/
structure Allowed (P : VersionLedger → List TombstoneEntry → AdmittedMemoryVersion → Prop) (s : Stores ω)
    (memoryItemId operationId : PyStr) : Prop where
  starts : ∀ head, s.ledger.latest memoryItemId = some head → s.metadata.head memoryItemId = head.item.memoryVersion →
    s.ledger.first memoryItemId operationId = none → P s.ledger s.tombstones.all head
  resumes : ∀ pending, s.ledger.first memoryItemId operationId = some pending →
    pending.item.lifecycleStatus = .deletionPending → s.ledger.recorded memoryItemId operationId .outcome = none →
    P s.ledger s.tombstones.all pending
  pending : AllowsPending P

/-- A write about some item. -/
def AnyWrite (c : Coordinator ω) (P : VersionLedger → List TombstoneEntry → AdmittedMemoryVersion → Prop)
    (released : PyStr → Prop) (s s' : Stores ω) : Prop :=
  ∃ memoryItemId, Write c P released memoryItemId s s'

/-- What keeps `P` at the versions of the items that are not written about. -/
def LocalTo (c : Coordinator ω) (P : VersionLedger → List TombstoneEntry → AdmittedMemoryVersion → Prop)
    (released : PyStr → Prop) : Prop :=
  ∀ memoryItemId (s s' : Stores ω) head, Write c P released memoryItemId s s' → head.item.memoryItemId ≠ memoryItemId →
    P s.ledger s.tombstones.all head → P s'.ledger s'.tombstones.all head

/-- The candidate is the committed head of its item. -/
def Candidate.Current (s : Stores ω) (candidate : Candidate) : Prop :=
  candidate.head ∈ s.ledger ∧ candidate.head.item.memoryItemId = candidate.memoryItemId ∧
    candidate.head.item.memoryVersion = s.metadata.head candidate.memoryItemId

theorem Candidate.Current.frame {c : Coordinator ω}
    {P : VersionLedger → List TombstoneEntry → AdmittedMemoryVersion → Prop} {released : PyStr → Prop}
    {candidate : Candidate} {item : PyStr} {s s' : Stores ω} (hcurrent : candidate.Current s)
    (hwrites : Relation.ReflTransGen (Write c P released item) s s')
    (hne : item ≠ candidate.memoryItemId) : candidate.Current s' := by
  refine ⟨(Write.ledger_prefix hwrites).subset hcurrent.1, hcurrent.2.1, ?_⟩
  rw [hcurrent.2.2]
  clear hcurrent
  induction hwrites with
  | refl => rfl
  | tail _ hstep ih => rw [ih, hstep.head_of_ne hne]

namespace Coordinator
variable (c : Coordinator ω) (env : Env) {s : Stores ω}
  {P : VersionLedger → List TombstoneEntry → AdmittedMemoryVersion → Prop} {released : PyStr → Prop} {memoryItemId : PyStr}

/-! ## Transitions and deletions -/

theorem runs_apply {plan : Plan} (hmem : plan.head ∈ s.ledger) (hitem : plan.head.item.memoryItemId = memoryItemId)
    (hdeclared : plan.target ∈ plan.head.item.lifecycleStatus.transitions) (htarget : plan.target.isDeletion = false)
    (hrestores : plan.head.item.lifecycleStatus = .legalHold →
      (plan.target = .deletionPending ∨ some plan.target = plan.head.item.priorLifecycleStatus) ∧
        ∃ ref, plan.head.item.legalHoldRef = some ref ∧ env.Released ref) :
    Runs (Write c P env.Released memoryItemId) s (c.apply env plan) fun receipt s' =>
      ∃ record, Answers s' record memoryItemId plan.request.operationId plan.requestDigest receipt ∧
        record.idempotencyKey = idempotencyKey plan.head.item (lifecycleOperationId plan.request.operationId .transition) ∧
        record.item.lifecycleStatus = plan.target := by
  refine Runs.after (still_decide env _ _ _ _) fun decision _ => ?_
  refine Runs.after (Q := fun _ => True) ?_ fun expected _ => ?_
  · split_ifs
    · exact Runs.map (still_stopEpoch env _) fun _ _ _ _ => trivial
    · exact Runs.pure trivial
  refine Runs.after (still_version env _ _ _ _ _ _) fun record hbuilt => ?_
  obtain ⟨built, hbuilt⟩ := hbuilt
  have hitem' := (Plan.version_item hbuilt).trans hitem
  have hstatus := Plan.version_status hbuilt
  refine Runs.bind (Runs.quiet c (c.quiet_contentOf env record)) fun content s₁ _ hcontent => ?_
  have hledger := Quiet.ledger_eq hcontent.1
  refine Runs.after (still_requireStopEpoch env _ _) fun _ _ => ?_
  have hchanges : Changes env.Released plan.head record := by
    refine ⟨⟨plan, decision, none, .transition, built, by rw [hstatus]; exact hbuilt⟩, ?_, fun h => ?_,
      fun h => (hrestores h).2⟩
    · rw [hstatus]
      exact hdeclared
    · rw [hstatus]
      exact (hrestores h).1
  refine Runs.bind (runs_append env fun hfit => .change hitem' hfit (hledger ▸ hmem) hchanges fun h => ?_) ?_
  · rw [hstatus, htarget] at h
    cases h
  rintro - s₂ - ⟨-, rfl⟩
  refine Runs.bind (Runs.quiet c (c.quiet_commitContentVersion env _ _ (by simp) hitem')) ?_
  rintro - s₃ - ⟨hquiet, hcommitted⟩
  refine (Runs.quiet c (c.quiet_receipt env _ _ _ _)).weaken fun receipt s₄ _ hreceipt => ⟨record, ?_,
    Plan.version_key hbuilt, hstatus⟩
  refine ⟨?_, hitem', Plan.version_requestDigest hbuilt, ?_⟩
  · rw [Quiet.ledger_eq (hquiet.trans hreceipt.1)]
    simp
  · have hpending : record.item.lifecycleStatus ≠ .deletionPending := by
      rw [hstatus]
      rintro h
      rw [h] at htarget
      cases htarget
    rw [if_neg hpending]
    exact ⟨Quiet.committed_mono hreceipt.1 hcommitted, hreceipt.2⟩

theorem still_checkReason (reasonCode : PyStr) : Still s (checkReason reasonCode : Act ω Unit) fun _ => True :=
  Runs.after still_check fun _ _ => Still.weaken still_check fun _ _ => trivial

theorem runs_freshTransition {request : TransitionRequest} {parsed : Request} {target : LifecycleStatus}
    (hordered : s.metadata.Ordered) (hallowed : Allowed P s memoryItemId parsed.operationId)
    (hfirst : s.ledger.first memoryItemId parsed.operationId = none) :
    Runs (Write c P env.Released memoryItemId) s (c.freshTransition env memoryItemId request parsed target)
      fun receipt s' => ∃ first, Answers s' first memoryItemId parsed.operationId
        (request.digest memoryItemId parsed.gcsDigest) receipt := by
  refine Runs.after (c.still_committedHead env _ _) fun head hhead => ?_
  obtain ⟨hmem, hitem, -⟩ := VersionLedger.latest_eq_some hhead.1
  refine Runs.after still_check fun _ _ => ?_
  refine Runs.after (still_checkFsm env _ _ _ _) fun _ hfsm => ?_
  dsimp only
  split_ifs with htarget
  · subst htarget
    exact (c.runs_forget env hordered hmem hitem hhead.2.symm rfl (hallowed.starts _ hhead.1 hhead.2 hfirst)
      hallowed.pending).weaken fun _ _ _ ⟨pending, h, _⟩ => ⟨pending, h⟩
  · refine (c.runs_apply env hmem hitem hfsm.2.1 ?_ hfsm.2.2).weaken fun _ _ _ ⟨record, h, _⟩ => ⟨record, h⟩
    obtain ⟨⟨hdeleted, hincomplete⟩, -⟩ := hfsm
    simp [LifecycleStatus.isDeletion, htarget, hdeleted, hincomplete]

theorem runs_freshDeletion {request : DeletionRequest} {parsed : Request} (hordered : s.metadata.Ordered)
    (hallowed : Allowed P s memoryItemId parsed.operationId)
    (hfirst : s.ledger.first memoryItemId parsed.operationId = none) :
    Runs (Write c P env.Released memoryItemId) s (c.freshDeletion env memoryItemId request parsed)
      fun receipt s' => ∃ first, Answers s' first memoryItemId parsed.operationId
        (request.digest memoryItemId parsed.gcsDigest) receipt := by
  refine Runs.after still_check fun _ _ => ?_
  refine Runs.after (c.still_committedHead env _ _) fun head hhead => ?_
  obtain ⟨hmem, hitem, -⟩ := VersionLedger.latest_eq_some hhead.1
  exact (c.runs_forget env hordered hmem hitem hhead.2.symm rfl (hallowed.starts _ hhead.1 hhead.2 hfirst)
    hallowed.pending).weaken fun _ _ _ ⟨pending, h, _⟩ => ⟨pending, h⟩

theorem runs_orFresh {parsed : Request} {requestDigest : PyStr} {fresh : Act ω LifecycleReceipt}
    (hordered : s.metadata.Ordered) (hkeyed : s.ledger.Keyed) (hallowed : Allowed P s memoryItemId parsed.operationId)
    (hfresh : s.ledger.first memoryItemId parsed.operationId = none →
      Runs (Write c P env.Released memoryItemId) s fresh fun receipt s' =>
        ∃ first, Answers s' first memoryItemId parsed.operationId requestDigest receipt) :
    Runs (Write c P env.Released memoryItemId) s (do
      let replayed ← c.replay env memoryItemId parsed requestDigest
      match replayed with
      | some receipt => pure receipt
      | none => fresh) fun receipt s' =>
        ∃ first, Answers s' first memoryItemId parsed.operationId requestDigest receipt := by
  refine Runs.bind (c.runs_replay env hordered hkeyed hallowed.resumes) fun answer s' _ hanswer => ?_
  cases answer with
  | some receipt =>
    obtain ⟨first, -, hanswers⟩ := hanswer
    exact Runs.pure ⟨first, hanswers⟩
  | none =>
    obtain ⟨rfl, hnone⟩ := hanswer
    exact hfresh hnone

theorem runs_transitionRequest {request : TransitionRequest} {parsed : Request} (hordered : s.metadata.Ordered)
    (hkeyed : s.ledger.Keyed) (hallowed : Allowed P s memoryItemId parsed.operationId) :
    Runs (Write c P env.Released memoryItemId) s (c.transitionRequest env memoryItemId request parsed)
      fun receipt s' => ∃ first, Answers s' first memoryItemId parsed.operationId
        (request.digest memoryItemId parsed.gcsDigest) receipt := by
  refine Runs.after still_check fun _ _ => ?_
  refine Runs.after still_check fun _ _ => ?_
  refine Runs.after still_lift fun target _ => ?_
  refine Runs.after (still_checkReason _) fun _ _ => ?_
  refine Runs.after still_check fun _ _ => ?_
  refine Runs.after still_check fun _ _ => ?_
  exact c.runs_orFresh env hordered hkeyed hallowed (c.runs_freshTransition env hordered hallowed)

theorem runs_deletionRequest {request : DeletionRequest} {parsed : Request} (hordered : s.metadata.Ordered)
    (hkeyed : s.ledger.Keyed) (hallowed : Allowed P s memoryItemId parsed.operationId) :
    Runs (Write c P env.Released memoryItemId) s (c.deletionRequest env memoryItemId request parsed)
      fun receipt s' => ∃ first, Answers s' first memoryItemId parsed.operationId
        (request.digest memoryItemId parsed.gcsDigest) receipt := by
  refine Runs.after (still_checkReason _) fun _ _ => ?_
  refine Runs.after still_check fun _ _ => ?_
  refine Runs.after still_check fun _ _ => ?_
  refine Runs.after still_check fun _ _ => ?_
  exact c.runs_orFresh env hordered hkeyed hallowed (c.runs_freshDeletion env hordered hallowed)

theorem still_envelope (request : Envelope) (binding : Option VerifiedGovernedContextBinding) :
    Still s (envelope env request binding : Act ω Request) fun parsed =>
      parsed.operationId = request.operationId ∧ parsed.gcsDigest = request.governedContext.digest := by
  refine Runs.after still_lift fun binding _ => ?_
  refine Runs.after still_check fun _ _ => ?_
  refine Runs.after still_check fun _ _ => ?_
  refine Runs.after (still_now env s) fun now _ => ?_
  refine Runs.after still_check fun _ _ => ?_
  exact Runs.after still_check fun _ _ => Runs.pure ⟨rfl, rfl⟩

theorem quiet_recordDenial (kind : LifecycleOperation) (error : PyError) (operationId item gcsDigest : Option PyStr)
    (binding : Option VerifiedGovernedContextBinding) :
    Runs (Quiet memoryItemId) s (c.recordDenial env kind error operationId item gcsDigest binding) fun _ _ => True :=
  Runs.after (still_now env s) fun _ _ => Runs.failClosed (quiet_outside env _)

theorem runs_denying {α : Type} {x : Act ω α} {Q : α → Stores ω → Prop} {M : Stores ω → Stores ω → Prop}
    (kind : LifecycleOperation) (operationId item gcsDigest : Option PyStr)
    (binding : Option VerifiedGovernedContextBinding) (hM : ∀ s s', Quiet memoryItemId s s' → M s s')
    (hx : Runs M s x Q) : Runs M s (c.denying env kind operationId item gcsDigest binding x) Q := by
  refine hx.guarded fun why s' _ => ?_
  cases why with
  | interrupt => exact Runs.raise _
  | exception e =>
    dsimp only
    split_ifs
    · exact Runs.bind ((c.quiet_recordDenial env _ _ _ _ _ _).mono hM fun _ _ _ h => h) fun _ _ _ _ => Runs.raise _
    · exact Runs.raise _

theorem runs_guardedRequest {kind : LifecycleOperation} {request : Envelope}
    {binding : Option VerifiedGovernedContextBinding} {body : Request → Act ω LifecycleReceipt}
    {Q : PyStr → LifecycleReceipt → Stores ω → Prop}
    (hbody : ∀ parsed, parsed.operationId = request.operationId →
      Runs (Write c P released memoryItemId) s (body parsed) (Q parsed.gcsDigest)) :
    Runs (Write c P released memoryItemId) s (c.guardedRequest env kind memoryItemId request binding body)
      (Q request.governedContext.digest) := by
  refine Runs.bind (c.runs_denying env _ _ _ _ _ (fun _ _ => .quiet)
    ((still_envelope env request binding).mono (N := Write c P released memoryItemId) (fun _ _ h => h.elim)
      (R := fun parsed s' => s' = s ∧ parsed.operationId = request.operationId ∧
        parsed.gcsDigest = request.governedContext.digest) fun parsed s' hsame h => ⟨(Still.eq_of hsame).symm, h⟩)) ?_
  rintro parsed s' - ⟨rfl, hoperation, hdigest⟩
  refine c.runs_denying env _ _ _ _ _ (fun _ _ => .quiet) ?_
  rw [← hdigest]
  exact Runs.after still_check fun _ _ => hbody parsed hoperation

theorem runs_transition {request : TransitionRequest} {binding : Option VerifiedGovernedContextBinding}
    (hordered : s.metadata.Ordered) (hkeyed : s.ledger.Keyed) (hallowed : Allowed P s memoryItemId request.operationId) :
    Runs (Write c P env.Released memoryItemId) s (c.transition env memoryItemId request binding) fun receipt s' =>
      ∃ first, Answers s' first memoryItemId request.operationId
        (request.digest memoryItemId request.governedContext.digest) receipt := by
  refine c.runs_guardedRequest env (Q := fun gcsDigest receipt s' => ∃ first, Answers s' first memoryItemId
    request.operationId (request.digest memoryItemId gcsDigest) receipt) fun parsed hoperation => ?_
  rw [← hoperation] at hallowed ⊢
  exact c.runs_transitionRequest env hordered hkeyed hallowed

theorem runs_requestDeletion {request : DeletionRequest} {binding : Option VerifiedGovernedContextBinding}
    (hordered : s.metadata.Ordered) (hkeyed : s.ledger.Keyed) (hallowed : Allowed P s memoryItemId request.operationId) :
    Runs (Write c P env.Released memoryItemId) s (c.requestDeletion env memoryItemId request binding) fun receipt s' =>
      ∃ first, Answers s' first memoryItemId request.operationId
        (request.digest memoryItemId request.governedContext.digest) receipt := by
  refine c.runs_guardedRequest env (Q := fun gcsDigest receipt s' => ∃ first, Answers s' first memoryItemId
    request.operationId (request.digest memoryItemId gcsDigest) receipt) fun parsed hoperation => ?_
  rw [← hoperation] at hallowed ⊢
  exact c.runs_deletionRequest env hordered hkeyed hallowed

/-! ## Sweeps -/

theorem still_head (item : PyStr) : Still s (head env item : Act ω (Option AdmittedMemoryVersion)) fun found =>
    ∀ record ∈ found, record ∈ s.ledger ∧ record.item.memoryItemId = item ∧
      record.item.memoryVersion = s.metadata.head item := by
  refine Runs.after (still_read env s) fun version hversion => ?_
  subst hversion
  split_ifs
  · exact Runs.pure (by simp)
  · refine (still_read env s).weaken fun found hfound record hrecord => ?_
    exact VersionLedger.get_eq_some (hfound.symm.trans hrecord)

theorem still_due (kind : LifecycleOperation) (item : GovernedMemoryItem) :
    Still s (c.due env kind item) fun _ => True := by
  unfold due
  by_cases hexpiry : kind = .expiry
  · rw [if_pos hexpiry]
    exact Runs.pure trivial
  · rw [if_neg hexpiry]
    split_ifs
    · exact Runs.pure trivial
    · refine Runs.after (still_read env s) fun first _ => ?_
      split
      · exact Runs.after (Q := fun _ => True) (Runs.lift fun _ _ => trivial) fun _ _ => Runs.pure trivial
      · exact Runs.pure trivial

theorem still_examine (kind : LifecycleOperation) (context : GovernedContext) (now : Instant) (item : PyStr) :
    Still s (c.examine env kind context now item) fun result =>
      (∀ candidate ∈ result.2, candidate.Current s) ∧ (result.2.map Candidate.memoryItemId).Sublist [item] := by
  refine Runs.after (still_head env item) fun found hfound => ?_
  cases found with
  | none => exact Runs.pure (by simp)
  | some head =>
    refine Runs.after (c.still_visible env _ _) fun seen _ => ?_
    split_ifs
    · exact Runs.pure (by simp)
    · exact Runs.pure (by simp)
    · refine Runs.after (c.still_due env _ _) fun due _ => ?_
      cases due with
      | none => exact Runs.pure (by simp)
      | some due =>
        refine Runs.pure ?_
        dsimp only
        split_ifs
        · refine ⟨fun candidate hcandidate => ?_, List.Sublist.refl _⟩
          rw [List.mem_singleton.mp hcandidate]
          exact hfound head rfl
        · simp

theorem still_examineAll (kind : LifecycleOperation) (context : GovernedContext) (now : Instant) (items : List PyStr) :
    Still s (c.examineAll env kind context now items) fun result =>
      (∀ candidate ∈ result.2, candidate.Current s) ∧ (result.2.map Candidate.memoryItemId).Sublist items := by
  induction items with
  | nil => exact Runs.pure (by simp)
  | cons item rest ih =>
    refine Runs.after (c.still_examine env kind context now item) fun result hresult => ?_
    refine Runs.after ih fun more hmore => ?_
    refine Runs.pure ⟨fun candidate hcandidate => ?_, ?_⟩
    · rcases List.mem_append.mp hcandidate with h | h
      · exact hresult.1 candidate h
      · exact hmore.1 candidate h
    · rw [List.map_append]
      exact hresult.2.append hmore.2

theorem runs_sweepOne {kind : LifecycleOperation} {binding : VerifiedGovernedContextBinding} {operationId : PyStr}
    {limit : Option ℕ} {progress : SweepProgress} {candidate : Candidate} (hordered : s.metadata.Ordered)
    (hcurrent : candidate.Current s)
    (hallowed : kind.sweepTarget = .deletionPending → P s.ledger s.tombstones.all candidate.head)
    (hpending : AllowsPending P) :
    Runs (Write c P env.Released candidate.memoryItemId) s
      (c.sweepOne env kind binding operationId limit progress candidate) fun _ _ => True := by
  obtain ⟨hmem, hitem, hversion⟩ := hcurrent
  have hmoves (hheld : candidate.head.item.lifecycleStatus ≠ .legalHold)
      (hreachable : kind.sweepTarget ∈ candidate.head.item.lifecycleStatus.transitions) :
      Runs (Write c P env.Released candidate.memoryItemId) s
        (if kind.sweepTarget = .deletionPending then c.forget env (sweepPlan kind binding operationId candidate)
          else c.apply env (sweepPlan kind binding operationId candidate)) fun _ _ => True := by
    by_cases htarget : kind.sweepTarget = .deletionPending
    · rw [if_pos htarget]
      exact (c.runs_forget env hordered hmem hitem hversion htarget (hallowed htarget) hpending).weaken
        fun _ _ _ _ => trivial
    · rw [if_neg htarget]
      have hexpired : kind.sweepTarget = .expired := by
        cases kind <;> simp_all [LifecycleOperation.sweepTarget]
      refine (c.runs_apply env hmem hitem hreachable ?_ fun h => absurd h hheld).weaken fun _ _ _ _ => trivial
      exact congrArg LifecycleStatus.isDeletion hexpired
  unfold sweepOne
  by_cases hheld : candidate.head.item.lifecycleStatus = .legalHold
  · rw [if_pos hheld]
    exact Runs.pure trivial
  rw [if_neg hheld]
  by_cases hreachable : kind.sweepTarget ∉ candidate.head.item.lifecycleStatus.transitions
  · rw [if_pos hreachable]
    exact Runs.pure trivial
  rw [if_neg hreachable]
  by_cases hlimit : ∃ n ∈ limit, n ≤ progress.processed.length + progress.incomplete.length
  · rw [if_pos hlimit]
    exact Runs.pure trivial
  rw [if_neg hlimit]
  refine Runs.bind (hmoves hheld (not_not.mp hreachable)) fun receipt s' _ _ => ?_
  by_cases hincomplete : receipt.lifecycleStatus = .deletionIncomplete
  · rw [if_pos hincomplete]
    exact Runs.pure trivial
  · rw [if_neg hincomplete]
    exact Runs.pure trivial

theorem runs_sweepAll {kind : LifecycleOperation} {binding : VerifiedGovernedContextBinding} {operationId : PyStr}
    {limit : Option ℕ} {progress : SweepProgress} {candidates : List Candidate} (hordered : s.metadata.Ordered)
    (hcurrent : ∀ candidate ∈ candidates, candidate.Current s)
    (hdistinct : (candidates.map Candidate.memoryItemId).Nodup)
    (hallowed : kind.sweepTarget = .deletionPending → ∀ candidate ∈ candidates,
      P s.ledger s.tombstones.all candidate.head)
    (hlocal : LocalTo c P env.Released) (hpending : AllowsPending P) :
    Runs (AnyWrite c P env.Released) s (c.sweepAll env kind binding operationId limit progress candidates)
      fun _ _ => True := by
  induction candidates generalizing s progress with
  | nil => exact Runs.pure trivial
  | cons candidate rest ih =>
    rw [List.map_cons, List.nodup_cons] at hdistinct
    refine Runs.bind (Runs.mono (R := fun _ s' =>
        Relation.ReflTransGen (Write c P env.Released candidate.memoryItemId) s s')
      (c.runs_sweepOne env hordered (hcurrent _ List.mem_cons_self) (fun h => hallowed h _ List.mem_cons_self) hpending)
      (fun _ _ h => ⟨_, h⟩) fun _ _ hwrites _ => hwrites) fun progress' s' hrest hwrites => ?_
    have hother (next : Candidate) (hnext : next ∈ rest) : candidate.memoryItemId ≠ next.memoryItemId := by
      intro heq
      exact hdistinct.1 (heq ▸ List.mem_map_of_mem hnext)
    have hnext (next : Candidate) (hmem : next ∈ rest) := hcurrent next (List.mem_cons_of_mem _ hmem)
    refine ih ?_ (fun next hmem => (hnext next hmem).frame hwrites (hother next hmem)) hdistinct.2 fun htarget next hmem => ?_
    · exact Write.ordered hwrites hordered
    · have hne : next.head.item.memoryItemId ≠ candidate.memoryItemId := by
        rw [(hnext next hmem).2.1]
        exact (hother next hmem).symm
      have hP := hallowed htarget next (List.mem_cons_of_mem _ hmem)
      clear hcurrent hallowed ih hnext hrest
      induction hwrites with
      | refl => exact hP
      | tail _ hstep ih => exact hlocal _ _ _ _ hstep hne ih

theorem runs_sweep {kind : LifecycleOperation} {binding : Option VerifiedGovernedContextBinding} {operationId : PyStr}
    {limit : Option ℤ} (hordered : s.metadata.Ordered)
    (hallowed : kind.sweepTarget = .deletionPending → ∀ candidate : Candidate, candidate.Current s →
      P s.ledger s.tombstones.all candidate.head)
    (hlocal : LocalTo c P env.Released) (hpending : AllowsPending P) :
    Runs (AnyWrite c P env.Released) s (c.sweep env kind binding operationId limit) fun _ _ => True := by
  have hquiet : ∀ s s' : Stores ω, Quiet [] s s' → AnyWrite c P env.Released s s' := fun _ _ h => ⟨[], .quiet h⟩
  refine c.runs_denying env _ _ _ _ _ hquiet ?_
  refine Runs.after still_lift fun binding _ => ?_
  refine Runs.after still_check fun _ _ => ?_
  refine Runs.after still_check fun _ _ => ?_
  refine Runs.after (still_now env s) fun now _ => ?_
  refine Runs.after (still_read env s) fun items hitems => ?_
  refine Runs.after (c.still_examineAll env _ _ _ _) fun result hresult => ?_
  obtain ⟨unresolved, candidates⟩ := result
  have hperm := List.perm_insertionSort Candidate.Le candidates
  have hnodup : (candidates.map Candidate.memoryItemId).Nodup := by
    refine hresult.2.nodup ?_
    rw [hitems]
    unfold MetadataStore.itemIds
    exact nodup_eraseDups _
  refine Runs.bind (c.runs_sweepAll env hordered (fun candidate hmem => hresult.1 _ (hperm.mem_iff.1 hmem))
    ((hperm.map _).nodup_iff.mpr hnodup) (fun htarget candidate hmem =>
      hallowed htarget candidate (hresult.1 _ (hperm.mem_iff.1 hmem))) hlocal hpending) fun progress s' _ _ => ?_
  refine Runs.bind (Runs.failClosed (runs_outside env s' hquiet)) fun _ _ _ _ => ?_
  exact Runs.pure trivial

end Coordinator

end OcorRuntime.Memory
