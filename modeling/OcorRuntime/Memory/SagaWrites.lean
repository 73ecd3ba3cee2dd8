import OcorRuntime.Memory.Operations

/-! The deletion saga and the two requests as sequences of writes, with what the records
they leave say about the receipt they return. -/
namespace OcorRuntime.Memory
open Kernel
set_option autoImplicit false
set_option maxHeartbeats 250000

variable {ω : Type}

/-- The receipt of a saga of the item that ended in the outcome. -/
def sagaReceipt (s : Stores ω) (memoryItemId : PyStr) (outcome : AdmittedMemoryVersion) (operationId : PyStr) :
    LifecycleReceipt :=
  outcome.lifecycleReceipt operationId (if outcome.item.lifecycleStatus = .deleted then "COMPLETED" else "FAILED")
    (if outcome.item.lifecycleStatus = .deleted then (s.tombstones.entries memoryItemId).getLast? else none)

/-- The saga of the pending version has ended under the operation, with this receipt. -/
def Concludes (s : Stores ω) (pending : AdmittedMemoryVersion) (operationId : PyStr) (receipt : LifecycleReceipt) : Prop :=
  ∃ outcome ∈ s.ledger, outcome.idempotencyKey = idempotencyKey pending.item (lifecycleOperationId operationId .outcome) ∧
    receipt = sagaReceipt s pending.item.memoryItemId outcome operationId

/-- What the ledger says about a request that was answered: a version under its operation
and its digest, committed with this receipt, or the pending version of a concluded saga. -/
def Answers (s : Stores ω) (first : AdmittedMemoryVersion) (memoryItemId operationId requestDigest : PyStr)
    (receipt : LifecycleReceipt) : Prop :=
  first ∈ s.ledger ∧ first.item.memoryItemId = memoryItemId ∧
    first.lifecycleEvent.get (·.requestDigest) = requestDigest ∧
    if first.item.lifecycleStatus = .deletionPending then Concludes s first operationId receipt
    else s.metadata.Committed memoryItemId first.item.memoryVersion ∧
      receipt = first.lifecycleReceipt operationId "COMPLETED" none

/-- The versions a saga may write its tombstones on: `P` must allow a pending version that
is the latest of its item. -/
def AllowsPending (P : VersionLedger → List TombstoneEntry → AdmittedMemoryVersion → Prop) : Prop :=
  ∀ (ledger : VersionLedger) (entries : List TombstoneEntry) (pending : AdmittedMemoryVersion),
    pending.item.lifecycleStatus = .deletionPending →
    pending.item.memoryVersion = ledger.latestVersion pending.item.memoryItemId → P ledger entries pending

namespace Coordinator
variable (c : Coordinator ω) (env : Env) {s : Stores ω}
  {P : VersionLedger → List TombstoneEntry → AdmittedMemoryVersion → Prop} {released : PyStr → Prop} {memoryItemId : PyStr}

theorem Runs.quiet {α : Type} {x : Act ω α} {Q : α → Stores ω → Prop} (hx : Runs (Quiet memoryItemId) s x Q) :
    Runs (Write c P released memoryItemId) s x fun a s' => Relation.ReflTransGen (Quiet memoryItemId) s s' ∧ Q a s' :=
  hx.mono (fun _ _ h => .quiet h) fun _ _ hR hQ => ⟨hR, hQ⟩

/-! ## The two appends -/

theorem runs_append {M : Stores ω → Stores ω → Prop} {record : AdmittedMemoryVersion}
    (hM : Fits s.ledger record → M s { s with ledger := s.ledger ++ [record] }) :
    Runs M s (append env record) fun _ s' => Fits s.ledger record ∧ s' = { s with ledger := s.ledger ++ [record] } := by
  refine (runs_ledgerAppend env hM).guarded fun why s' _ => ?_
  split <;> exact Runs.raise _

theorem runs_tombstoneAppend {M : Stores ω → Stores ω → Prop} {entry : TombstoneEntry}
    (hcatch : M s { s with tombstones := s.tombstones.catchUp })
    (hM : ∀ progress, progress = .written ∨ progress = .done → epochConflict entry s.tombstones.all = none →
      M s { s with tombstones := s.tombstones.appended entry progress }) :
    Runs M s (tombstoneAppend env entry) fun _ s' => epochConflict entry s.tombstones.all = none ∧
      s' = { s with tombstones := s.tombstones.appended entry .done } := by
  have hwrites (progress : Progress) (hwrote : progress = .written ∨ progress = .done) :
      M s { s with tombstones := s.tombstones.appended entry progress } := by
    by_cases hfits : epochConflict entry s.tombstones.all = none
    · exact hM progress hwrote hfits
    · have hsame : s.tombstones.appended entry progress = s.tombstones.catchUp := by
        rcases hwrote with rfl | rfl <;> simp [TombstoneStore.appended, hfits]
      rw [hsame]
      exact hcatch
  intro n
  unfold tombstoneAppend Op.Moves Along
  cases hfault : env.fault n with
  | works =>
    simp only [hfault, TombstoneStore.append]
    cases hfits : epochConflict entry s.tombstones.all with
    | some conflict =>
      refine ⟨.single hcatch, fun a ha => ?_⟩
      cases ha
    | none => exact ⟨.single (hwrites .done (.inr rfl)), fun _ _ => ⟨rfl, rfl⟩⟩
  | raises why progress =>
    simp only [hfault]
    refine ⟨?_, fun a ha => by cases ha⟩
    cases progress with
    | untouched => exact .refl
    | caughtUp => exact .single hcatch
    | written => exact .single (hwrites .written (.inl rfl))
    | done => exact .single (hwrites .done (.inr rfl))

theorem all_appended {t : TombstoneStore} {entry : TombstoneEntry} {progress : Progress}
    (hfits : epochConflict entry t.all = none) (hwrote : progress = .written ∨ progress = .done) :
    (t.appended entry progress).all = t.all ++ [entry] := by
  rcases hwrote with rfl | rfl
  · simp only [TombstoneStore.appended, if_pos hfits]
    rfl
  · simp only [TombstoneStore.appended, if_pos hfits]
    exact List.append_nil _

/-! ## The saga -/

theorem runs_tombstone {head record : AdmittedMemoryVersion} {plan : Plan} {decision : MemoryPolicyDecision}
    {status : LifecycleStatus} {step : Phase} {built : Instant} {phase : TombstonePhase} {epoch : ℕ}
    {residue : List (PyStr × ℕ)} {retained : ℕ} (hitem : head.item.memoryItemId = memoryItemId)
    (hbuilt : plan.version decision (some epoch) status step head built = .ok record)
    (hhead : Entombable s head phase epoch) (hresidue : Residue c phase residue)
    (hallowed : P s.ledger s.tombstones.all head) :
    Runs (Write c P released memoryItemId) s (c.tombstone env record plan phase epoch residue retained) fun entry s' =>
      (∃ versions stamped, entry = c.tombstoneEntry record plan phase epoch residue retained versions stamped) ∧
        epochConflict entry s.tombstones.all = none ∧
        s' = { s with tombstones := s.tombstones.appended entry .done } := by
  have hversion : record.item.memoryVersion - 1 = head.item.memoryVersion := by
    rw [Plan.version_number hbuilt, Nat.add_sub_cancel]
  refine Runs.after (still_versions env _ _) fun earlier hearlier => ?_
  refine Runs.after (still_now env s) fun stamped _ => ?_
  rw [hversion, Plan.version_item hbuilt] at hearlier
  refine Runs.bind (Runs.failClosed (runs_tombstoneAppend env (.quiet (.catchUp s)) fun progress hwrote hfits => ?_))
    fun _ s' _ hs' => Runs.pure ⟨⟨earlier, stamped, rfl⟩, hs'⟩
  refine .entomb hitem hfits ⟨hhead, ?_⟩ hallowed
    progress hwrote
  exact ⟨record, plan, decision, status, step, residue, retained, built, stamped, hbuilt, hresidue, by rw [← hearlier]; rfl⟩

/-- What a saga has established about its outcome when it returns. -/
structure Concluded (s : Stores ω) (pending outcome : AdmittedMemoryVersion) (operationId : PyStr)
    (receipt : LifecycleReceipt) : Prop where
  mem : outcome ∈ s.ledger
  item : outcome.item.memoryItemId = pending.item.memoryItemId
  version : outcome.item.memoryVersion = pending.item.memoryVersion + 1
  key : outcome.idempotencyKey = idempotencyKey pending.item (lifecycleOperationId operationId .outcome)
  committed : s.metadata.Committed pending.item.memoryItemId outcome.item.memoryVersion
  receipt : receipt = sagaReceipt s pending.item.memoryItemId outcome operationId

theorem entries_appended {t : TombstoneStore} {entry : TombstoneEntry}
    (hfits : epochConflict entry t.all = none) :
    (t.appended entry .done).entries entry.memoryItemId = t.entries entry.memoryItemId ++ [entry] := by
  unfold TombstoneStore.entries
  rw [all_appended hfits (.inr rfl), List.filter_append]
  simp

theorem runs_runSaga {pending : AdmittedMemoryVersion} {plan : Plan} {decision : MemoryPolicyDecision}
    (hmem : pending ∈ s.ledger) (hitem : pending.item.memoryItemId = memoryItemId)
    (hstatus : pending.item.lifecycleStatus = .deletionPending)
    (hcommitted : pending.item.memoryVersion ≤ s.metadata.head memoryItemId)
    (hallowed : P s.ledger s.tombstones.all pending) :
    Runs (Write c P released memoryItemId) s (c.runSaga env pending plan decision) fun receipt s' =>
      ∃ outcome, Concluded s' pending outcome plan.request.operationId receipt := by
  refine Runs.after still_lift fun epoch hepoch => ?_
  rw [orRaise_eq_ok] at hepoch
  refine Runs.after (still_versions env _ _) fun earlier _ => ?_
  refine Runs.bind (Runs.quiet c (quiet_purgeAll env _ _ _ _ (by simp) (by simpa using c.named.2))) ?_
  rintro ⟨residue, retained⟩ s₁ - ⟨hquiet, hpositive, hdistinct, hnamed⟩
  refine Runs.after (still_version env _ _ _ _ _ _) fun outcome houtcome => ?_
  obtain ⟨built, hbuilt⟩ := houtcome
  have hledger : s₁.ledger = s.ledger := Quiet.ledger_eq hquiet
  have htombs : s₁.tombstones.all = s.tombstones.all := Quiet.tombstones_eq hquiet
  have hfound {phase : TombstonePhase} (hphase : phase ≠ .started) : Entombable s₁ pending phase epoch := by
    refine ⟨hledger ▸ hmem, ?_, fun h => absurd h hphase, fun h => absurd h hphase, fun _ => ⟨hstatus, hepoch⟩⟩
    rw [hitem]
    exact hcommitted.trans (Quiet.head_mono hquiet)
  have hphase : (if residue = [] then TombstonePhase.completed else .incomplete) ≠ .started := by
    split_ifs <;> simp
  have hresidue : Residue c (if residue = [] then TombstonePhase.completed else .incomplete) residue := by
    refine ⟨fun count hcount => by simpa using hnamed count hcount, hdistinct, hpositive, fun h => ?_⟩
    by_contra hne
    rw [if_neg hne] at h
    exact h rfl
  refine Runs.bind (runs_tombstone c env hitem hbuilt (hfound hphase) hresidue
    (by rw [hledger, htombs]; exact hallowed)) fun entry s₂ _ hentry => ?_
  obtain ⟨⟨versions, stamped, hentry⟩, hfits, rfl⟩ := hentry
  have hentryItem : entry.memoryItemId = memoryItemId := by
    rw [hentry]
    exact (Plan.version_item hbuilt).trans hitem
  have hentryEpoch : entry.deletionEpoch = epoch := by
    rw [hentry]
    rfl
  have hstatus' := Plan.version_status hbuilt
  have hitem' := (Plan.version_item hbuilt).trans hitem
  have hchanges : Changes released pending outcome := by
    refine ⟨⟨plan, decision, some epoch, .outcome, built, by rw [hstatus']; exact hbuilt⟩, ?_, fun h => ?_, fun h => ?_⟩
    · rw [hstatus', hstatus]
      split_ifs <;> simp [LifecycleStatus.transitions]
    · rw [hstatus] at h
      cases h
    · rw [hstatus] at h
      cases h
  have hentombed : ∃ e ∈ (s₁.tombstones.appended entry .done).all, e.memoryItemId = memoryItemId ∧
      outcome.item.deletionEpoch = some e.deletionEpoch := by
    rw [all_appended hfits (.inr rfl)]
    refine ⟨entry, by simp, hentryItem, ?_⟩
    rw [Plan.version_epoch hbuilt, hentryEpoch]
    split_ifs <;> simp_all [LifecycleStatus.isDeletion]
  refine Runs.bind (runs_append env fun hfit => .change hitem' hfit (hledger ▸ hmem) hchanges fun _ => hentombed) ?_
  rintro - s₃ - ⟨-, rfl⟩
  refine Runs.bind (Runs.quiet c (hitem' ▸ c.quiet_commitMetadataVersion env (by simp))) ?_
  rintro - s₄ - ⟨hquiet', hcommitted'⟩
  refine (Runs.quiet c (c.quiet_receipt env outcome _ _ _)).weaken fun receipt s₅ _ hreceipt => ⟨outcome, ?_⟩
  obtain ⟨hquiet'', hreceipt⟩ := hreceipt
  have hlast := hquiet'.trans hquiet''
  refine ⟨?_, Plan.version_item hbuilt, Plan.version_number hbuilt, Plan.version_key hbuilt, ?_, ?_⟩
  · rw [Quiet.ledger_eq hlast]
    simp
  · rw [hitem]
    exact Quiet.committed_mono hquiet'' hcommitted'
  · have hentries : s₅.tombstones.entries memoryItemId = s₁.tombstones.entries memoryItemId ++ [entry] := by
      unfold TombstoneStore.entries
      rw [Quiet.tombstones_eq hlast, ← hentryItem]
      exact entries_appended hfits
    rw [hreceipt, sagaReceipt, hstatus', hitem, hentries, List.getLast?_concat]
    split_ifs <;> simp_all

theorem epoch_of_isDeletion (item : GovernedMemoryItem) (h : item.lifecycleStatus.isDeletion = true) :
    ∃ epoch, item.deletionEpoch = some epoch := by
  have hvalid := item.valid
  unfold MemoryFields.validateConditionals at hvalid
  cases hscope : item.scopeBindings.find? fun binding => binding.2.isNone with
  | some binding =>
    rw [hscope] at hvalid
    cases hvalid
  | none =>
    simp only [hscope, bind_eq_ok, refuseIf_eq_ok] at hvalid
    obtain ⟨_, -, _, -, _, -, _, -, _, -, hepoch⟩ := hvalid
    exact Option.ne_none_iff_exists'.mp fun hnone => hepoch ⟨h, hnone⟩

theorem runs_forget {plan : Plan} (hordered : s.metadata.Ordered) (hmem : plan.head ∈ s.ledger)
    (hitem : plan.head.item.memoryItemId = memoryItemId)
    (hcurrent : plan.head.item.memoryVersion = s.metadata.head memoryItemId) (htarget : plan.target = .deletionPending)
    (hallowed : P s.ledger s.tombstones.all plan.head) (hpending : AllowsPending P) :
    Runs (Write c P env.Released memoryItemId) s (c.forget env plan) fun receipt s' =>
      ∃ pending, Answers s' pending memoryItemId plan.request.operationId plan.requestDigest receipt ∧
        pending.idempotencyKey = idempotencyKey plan.head.item (lifecycleOperationId plan.request.operationId .pending) ∧
        pending.item.lifecycleStatus = .deletionPending := by
  refine Runs.after still_check fun _ hfresh => ?_
  refine Runs.after (still_checkForgettable env _ _) fun _ hforgettable => ?_
  refine Runs.after (still_decide env _ _ _ _) fun decision _ => ?_
  refine Runs.after (still_reserveEpoch env _) fun epoch hepoch => ?_
  refine Runs.after (still_version env _ _ _ _ _ _) fun pending hbuilt => ?_
  obtain ⟨built, hbuilt⟩ := hbuilt
  rw [htarget] at hbuilt
  have hfound : Entombable s plan.head .started epoch := by
    refine ⟨hmem, ?_, fun _ => ?_, fun _ => ⟨hfresh, fun hincomplete => ?_⟩, fun h => absurd rfl h⟩
    · rw [hitem]
      exact hcurrent.le
    · rw [hitem]
      exact hcurrent
    · obtain ⟨e, he⟩ := epoch_of_isDeletion plan.head.item (by rw [hincomplete]; rfl)
      rw [he, hepoch hincomplete e he]
  have hresidue : Residue c .started [] := ⟨by simp, by simp, by simp, fun _ => rfl⟩
  refine Runs.bind (runs_tombstone c env hitem hbuilt hfound hresidue hallowed) fun entry s₁ _ hentry => ?_
  obtain ⟨⟨versions, stamped, hentry⟩, hfits, rfl⟩ := hentry
  have hitem' := (Plan.version_item hbuilt).trans hitem
  have hstatus := Plan.version_status hbuilt
  have hchanges : Changes env.Released plan.head pending := by
    refine ⟨⟨plan, decision, some epoch, .pending, built, by rw [hstatus]; exact hbuilt⟩, ?_, fun _ => .inl hstatus,
      hforgettable.2⟩
    rw [hstatus]
    exact hforgettable.1
  have hentombed : ∃ e ∈ (s.tombstones.appended entry .done).all, e.memoryItemId = memoryItemId ∧
      pending.item.deletionEpoch = some e.deletionEpoch := by
    rw [all_appended hfits (.inr rfl)]
    refine ⟨entry, by simp, ?_, ?_⟩
    · rw [hentry]
      exact hitem'
    · rw [Plan.version_epoch hbuilt, hentry]
      rfl
  refine Runs.bind (runs_append env fun hfit => .change hitem' hfit hmem hchanges fun _ => hentombed) ?_
  rintro - s₂ - ⟨hfit, rfl⟩
  refine Runs.bind (Runs.quiet c (hitem' ▸ c.quiet_commitMetadataVersion env (by simp))) ?_
  rintro - s₃ - ⟨hquiet, hcommitted⟩
  have hhead : pending.item.memoryVersion ≤ s₃.metadata.head memoryItemId :=
    ((Quiet.ordered hquiet hordered _ _).mp (hitem' ▸ hcommitted)).2
  have hlatest : pending.item.memoryVersion = s₃.ledger.latestVersion pending.item.memoryItemId := by
    rw [Quiet.ledger_eq hquiet, VersionLedger.latestVersion_append, if_pos rfl]
  refine (c.runs_runSaga env (by rw [Quiet.ledger_eq hquiet]; simp) hitem' hstatus hhead
    (hpending _ _ _ hstatus hlatest)).weaken fun receipt s₄ hwrites houtcome => ⟨pending, ?_, Plan.version_key hbuilt, hstatus⟩
  obtain ⟨outcome, houtcome⟩ := houtcome
  refine ⟨?_, hitem', Plan.version_requestDigest hbuilt, ?_⟩
  · refine (Write.ledger_prefix hwrites).subset ?_
    rw [Quiet.ledger_eq hquiet]
    simp
  · rw [if_pos hstatus]
    exact ⟨outcome, houtcome.mem, houtcome.key, houtcome.receipt⟩

/-! ## Repeated requests -/

theorem runs_resumeSaga {pending : AdmittedMemoryVersion} {request : Request} (hordered : s.metadata.Ordered)
    (hmem : pending ∈ s.ledger) (hitem : pending.item.memoryItemId = memoryItemId)
    (hstatus : pending.item.lifecycleStatus = .deletionPending)
    (hkey : ∀ outcome, s.ledger.recorded memoryItemId request.operationId .outcome = some outcome →
      outcome.idempotencyKey = idempotencyKey pending.item (lifecycleOperationId request.operationId .outcome))
    (hallowed : s.ledger.recorded memoryItemId request.operationId .outcome = none → P s.ledger s.tombstones.all pending) :
    Runs (Write c P released memoryItemId) s (c.resumeSaga env pending request) fun receipt s' =>
      Concludes s' pending request.operationId receipt := by
  subst hitem
  refine Runs.after (still_recorded env _ _ _) fun done hdone => ?_
  cases done with
  | some done =>
    have hfound := hkey done hdone.symm
    have hin : done ∈ s.ledger := by
      obtain ⟨latest, -, hlatest⟩ := Option.bind_eq_some_iff.mp hdone.symm
      exact (VersionLedger.byKey_eq_some hlatest).1
    refine Runs.bind (Runs.quiet c (quiet_lastTombstone env)) fun last s₁ _ hlast => ?_
    refine (Runs.quiet c (c.quiet_receipt env _ _ _ _)).weaken fun receipt s₂ _ hreceipt => ?_
    have hquiet := hlast.1.trans hreceipt.1
    refine ⟨done, by rw [Quiet.ledger_eq hquiet]; exact hin, hfound, ?_⟩
    rw [hreceipt.2, sagaReceipt, hlast.2]
    unfold TombstoneStore.entries
    rw [Quiet.tombstones_eq hquiet]
  | none =>
    refine Runs.bind (Runs.quiet c (c.quiet_commitMetadataVersion env hmem)) ?_
    rintro - s₁ - ⟨hquiet, hcommitted⟩
    have hhead : pending.item.memoryVersion ≤ s₁.metadata.head pending.item.memoryItemId :=
      ((Quiet.ordered hquiet hordered _ _).mp hcommitted).2
    refine (c.runs_runSaga env (by rw [Quiet.ledger_eq hquiet]; exact hmem) rfl hstatus hhead ?_).weaken ?_
    · rw [Quiet.ledger_eq hquiet, Quiet.tombstones_eq hquiet]
      exact hallowed hdone.symm
    · rintro receipt s₂ - ⟨outcome, houtcome⟩
      exact ⟨outcome, houtcome.mem, houtcome.key, houtcome.receipt⟩

theorem runs_replay {request : Request} {requestDigest : PyStr} (hordered : s.metadata.Ordered) (hkeyed : s.ledger.Keyed)
    (hallowed : ∀ pending, s.ledger.first memoryItemId request.operationId = some pending →
      pending.item.lifecycleStatus = .deletionPending → s.ledger.recorded memoryItemId request.operationId .outcome = none →
      P s.ledger s.tombstones.all pending) :
    Runs (Write c P released memoryItemId) s (c.replay env memoryItemId request requestDigest) fun answer s' =>
      match answer with
      | none => s' = s ∧ s.ledger.first memoryItemId request.operationId = none
      | some receipt => ∃ first, s.ledger.first memoryItemId request.operationId = some first ∧
          Answers s' first memoryItemId request.operationId requestDigest receipt := by
  refine Runs.after (still_recorded env _ _ _) fun plain hplain => ?_
  refine Runs.after (Q := fun found => found = s.ledger.first memoryItemId request.operationId) ?_ fun first hfirst => ?_
  · cases plain with
    | some record => exact Runs.pure (by rw [VersionLedger.first, ← hplain, Option.some_or])
    | none =>
      refine (still_recorded env _ _ _).weaken fun found hfound => ?_
      rw [VersionLedger.first, ← hplain, Option.none_or, hfound]
  · cases first with
    | none => exact Runs.pure ⟨rfl, hfirst.symm⟩
    | some first =>
      refine Runs.after still_check fun _ hchecked => ?_
      push Not at hchecked
      obtain ⟨hmem, hkey⟩ := VersionLedger.first_eq_some hkeyed hfirst.symm
      split_ifs with hstatus
      · refine Runs.map (c.runs_resumeSaga env hordered hmem hchecked.1 hstatus hkey fun hnone =>
          hallowed first hfirst.symm hstatus hnone) fun receipt s' hwrites hconcludes => ?_
        refine ⟨first, hfirst.symm, (Write.ledger_prefix hwrites).subset hmem, hchecked.1, hchecked.2, ?_⟩
        rw [if_pos hstatus]
        exact hconcludes
      · refine Runs.bind (Runs.quiet c (c.quiet_commitContentVersion env _ _ hmem hchecked.1)) ?_
        rintro - s₁ - ⟨hquiet, hcommitted⟩
        refine Runs.map (Runs.quiet c (c.quiet_receipt env _ _ _ _)) fun receipt s₂ _ hreceipt => ?_
        refine ⟨first, hfirst.symm, ?_, hchecked.1, hchecked.2, ?_⟩
        · rw [Quiet.ledger_eq (hquiet.trans hreceipt.1)]
          exact hmem
        · rw [if_neg hstatus]
          exact ⟨Quiet.committed_mono hreceipt.1 hcommitted, hreceipt.2⟩

end Coordinator
end OcorRuntime.Memory
