import Mathlib.Data.Finset.Insert
import OcorRuntime.Foundations.Run
import OcorRuntime.Kernel.Governance

/-! One-shot consumption of capability leases: the authoritative lease state and the
consumption ledger over it (`kernel/governance.py`). Three authorities move on their
own (the stop epoch, the fencing token of each action, the revocation set), each in
one direction only, and the consumed map only grows. -/
namespace OcorRuntime.Kernel
set_option autoImplicit false
set_option maxHeartbeats 250000

/-! ## The authoritative state -/

inductive LeaseStateOutcome
  | consumed
  | expired
  | revoked
  | stopEpochMismatch
  | fencingTokenStale
  | alreadyConsumed
  | controlPlaneUnavailable
deriving DecidableEq

structure LeaseStateDecision where
  outcome : LeaseStateOutcome
  evaluatedAt : Option DateTime
deriving DecidableEq

/-- What one call of `clock.now()` does. -/
inductive ClockReading
  | now (value : DateTime)
  /-- An exception of one of the classes `consume_if_current` lists. -/
  | unavailable
  /-- Any other `Exception`. -/
  | failed
  /-- A `BaseException` that is no `Exception`: nothing on the way catches it. -/
  | interrupted
deriving DecidableEq

structure InMemoryLeaseState where
  stopEpoch : ℤ
  fencingTokens : Dict PyStr ℤ
  revoked : Finset PyStr
  consumed : Dict PyStr (PyStr × ℤ)

/-- Why `consume_if_current` raised. -/
inductive StateFailure
  | failed
  | interrupted
deriving DecidableEq

namespace InMemoryLeaseState

/-- `InMemoryLeaseState(...)`. -/
def create (stopEpoch : ℤ) (fencingTokens : Dict PyStr ℤ) (revokedLeaseIds : List PyStr) :
    Except PyError InMemoryLeaseState :=
  if stopEpoch < 0 then .error ⟨.valueError, "stop_epoch must be a non-negative integer", []⟩
  else if fencingTokens.entries.any fun entry => entry.1 = [] ∨ entry.2 < 1 then
    .error ⟨.valueError, "fencing tokens require action ids and positive integers", []⟩
  else if revokedLeaseIds.any fun leaseId => leaseId = [] then
    .error ⟨.valueError, "revoked lease ids must be a sequence of non-empty strings", []⟩
  else .ok ⟨stopEpoch, fencingTokens, revokedLeaseIds.toFinset, .empty⟩

def setStopEpoch (s : InMemoryLeaseState) (stopEpoch : ℤ) : Except PyError Unit × InMemoryLeaseState :=
  if stopEpoch < s.stopEpoch then (.error ⟨.valueError, "stop_epoch cannot move backwards", []⟩, s)
  else (.ok (), { s with stopEpoch := stopEpoch })

def setFencingToken (s : InMemoryLeaseState) (actionInstanceId : PyStr) (fencingToken : ℤ) :
    Except PyError Unit × InMemoryLeaseState :=
  if actionInstanceId = [] ∨ fencingToken < 1 then
    (.error ⟨.valueError, "a valid action id and positive fencing token are required", []⟩, s)
  else if ∃ current ∈ s.fencingTokens.get? actionInstanceId, fencingToken < current then
    (.error ⟨.valueError, "fencing token cannot move backwards", []⟩, s)
  else (.ok (), { s with fencingTokens := s.fencingTokens.set actionInstanceId fencingToken })

def revoke (s : InMemoryLeaseState) (leaseId : PyStr) : Except PyError Unit × InMemoryLeaseState :=
  if leaseId = [] then (.error ⟨.valueError, "lease_id must be non-empty", []⟩, s)
  else (.ok (), { s with revoked := insert leaseId s.revoked })

def consumeIfCurrent (s : InMemoryLeaseState) (clock : ClockReading) (leaseId actionInstanceId : PyStr)
    (stopEpoch fencingToken emissionAttempt : ℤ) (issuedAt expiresAt : Instant) :
    Except StateFailure LeaseStateDecision × InMemoryLeaseState :=
  match clock with
  | .interrupted => (.error .interrupted, s)
  | .failed => (.error .failed, s)
  | .unavailable => (.ok ⟨.controlPlaneUnavailable, none⟩, s)
  | .now value =>
    match aware "authoritative now" value with
    | .error _ => (.ok ⟨.controlPlaneUnavailable, none⟩, s)
    | .ok now =>
      if now < issuedAt ∨ expiresAt ≤ now then (.ok ⟨.expired, some value⟩, s)
      else if leaseId ∈ s.revoked then (.ok ⟨.revoked, some value⟩, s)
      else if stopEpoch ≠ s.stopEpoch then (.ok ⟨.stopEpochMismatch, some value⟩, s)
      else if s.fencingTokens.get? actionInstanceId ≠ some fencingToken then
        (.ok ⟨.fencingTokenStale, some value⟩, s)
      else if (s.consumed.get? leaseId).isSome then (.ok ⟨.alreadyConsumed, some value⟩, s)
      else
        (.ok ⟨.consumed, some value⟩, { s with consumed := s.consumed.set leaseId (actionInstanceId, emissionAttempt) })

end InMemoryLeaseState

/-! ## The ledger -/

structure LeaseConsumptionReceipt where
  consumptionKey : PyStr × PyStr × ℤ
  governedContextDigest : PyStr
  consumedAt : Instant
deriving DecidableEq

inductive ConsumeError
  | fault (f : GovernanceFault)
  | interrupted
deriving DecidableEq

namespace LeaseConsumptionLedger

def fault (expected : LeaseExpectation) (reason : FaultReason) (title : String) : ConsumeError :=
  .fault ⟨reason, expected.correlationId, expected.causationId, title⟩

/-- The checks on the arguments alone. -/
def checkBindings (lease : CapabilityLease) (expected : LeaseExpectation) (signatureVerified : Bool)
    (revoked : Option Bool) : Except ConsumeError Unit :=
  if ¬ signatureVerified then .error (fault expected .leaseInvalid "lease signature is not verified")
  else if revoked = some true then .error (fault expected .leaseRevoked "lease is revoked")
  else if lease.capabilityId ≠ expected.capabilityId ∨ lease.effectivePrincipalId ≠ expected.effectivePrincipalId ∨
      lease.delegationRef ≠ expected.delegationRef ∨ lease.actionInstanceId ≠ expected.actionInstanceId ∨
      lease.governedContextDigest ≠ expected.governedContextDigest ∨
      lease.gatePackageDigest ≠ expected.gatePackageDigest then
    .error (fault expected .leaseContextMismatch
      "lease principal, scope, action, GCS, delegation, or gate binding differs")
  else if lease.stopEpoch ≠ expected.stopEpoch then
    .error (fault expected .stopEpochMismatch "lease stop epoch differs")
  else if lease.fencingToken ≠ expected.fencingToken then
    .error (fault expected .fencingTokenStale "lease fencing token is stale")
  else .ok ()

/-- What the ledger makes of a decision, whichever port took it. -/
def settle (lease : CapabilityLease) (expected : LeaseExpectation) (decision : LeaseStateDecision) :
    Except ConsumeError LeaseConsumptionReceipt :=
  match decision.outcome with
  | .controlPlaneUnavailable => .error (fault expected .controlPlaneUnavailable "trusted clock is unavailable")
  | .expired => .error (fault expected .leaseExpired "lease is outside its time window")
  | .revoked => .error (fault expected .leaseRevoked "lease is revoked")
  | .stopEpochMismatch => .error (fault expected .stopEpochMismatch "lease stop epoch is not current")
  | .fencingTokenStale => .error (fault expected .fencingTokenStale "lease fencing token is stale")
  | .alreadyConsumed => .error (fault expected .leaseAlreadyConsumed "lease was already consumed")
  | .consumed =>
    match decision.evaluatedAt with
    | none =>
      .error (fault expected .controlPlaneUnavailable "authoritative lease state omitted its evaluation time")
    | some value =>
      match aware "authoritative lease evaluation time" value with
      | .error _ =>
        .error (fault expected .controlPlaneUnavailable
          "authoritative lease state returned an invalid evaluation time")
      | .ok evaluatedAt =>
        if evaluatedAt < lease.issuedAt ∨ lease.expiresAt ≤ evaluatedAt then
          .error (fault expected .controlPlaneUnavailable
            "authoritative lease state returned a contradictory evaluation time")
        else .ok ⟨(lease.leaseId, lease.actionInstanceId, expected.emissionAttempt), lease.governedContextDigest,
          evaluatedAt⟩

/-- `consume`, on the state the ledger is over. A ledger built without its clock or state has `none` for the reading. -/
def consume (s : InMemoryLeaseState) (clock : Option ClockReading) (lease : CapabilityLease)
    (expected : LeaseExpectation) (signatureVerified : Bool) (revoked : Option Bool) :
    Except ConsumeError LeaseConsumptionReceipt × InMemoryLeaseState :=
  match clock with
  | none =>
    (.error (fault expected .controlPlaneUnavailable "trusted clock and authoritative lease state are required"), s)
  | some clock =>
    match checkBindings lease expected signatureVerified revoked with
    | .error e => (.error e, s)
    | .ok () =>
      let (decided, after) := s.consumeIfCurrent clock lease.leaseId lease.actionInstanceId lease.stopEpoch
        lease.fencingToken expected.emissionAttempt lease.issuedAt lease.expiresAt
      match decided with
      | .error .interrupted => (.error .interrupted, after)
      | .error .failed =>
        (.error (fault expected .controlPlaneUnavailable "authoritative lease state is unavailable"), after)
      | .ok decision => (settle lease expected decision, after)

end LeaseConsumptionLedger

/-! ## What one consumption does -/

/-- A lease the state would consume now: in its window, unrevoked, at the live epoch and token, not yet consumed. -/
structure Current (s : InMemoryLeaseState) (lease : CapabilityLease) (now : Instant) : Prop where
  inWindow : lease.issuedAt ≤ now ∧ now < lease.expiresAt
  unrevoked : lease.leaseId ∉ s.revoked
  epoch : lease.stopEpoch = s.stopEpoch
  token : s.fencingTokens.get? lease.actionInstanceId = some lease.fencingToken
  unconsumed : s.consumed.get? lease.leaseId = none

open LeaseConsumptionLedger

theorem consumeIfCurrent_cases (s : InMemoryLeaseState) (clock : ClockReading) (lease : CapabilityLease)
    (attempt : ℤ) :
    ((s.consumeIfCurrent clock lease.leaseId lease.actionInstanceId lease.stopEpoch lease.fencingToken attempt
        lease.issuedAt lease.expiresAt).2 = s ∧
      ∀ decision, (s.consumeIfCurrent clock lease.leaseId lease.actionInstanceId lease.stopEpoch lease.fencingToken
        attempt lease.issuedAt lease.expiresAt).1 = .ok decision → decision.outcome ≠ .consumed) ∨
    ∃ value now, clock = .now value ∧ aware "authoritative now" value = .ok now ∧ Current s lease now ∧
      s.consumeIfCurrent clock lease.leaseId lease.actionInstanceId lease.stopEpoch lease.fencingToken attempt
          lease.issuedAt lease.expiresAt =
        (.ok ⟨.consumed, some value⟩,
          { s with consumed := s.consumed.set lease.leaseId (lease.actionInstanceId, attempt) }) := by
  unfold InMemoryLeaseState.consumeIfCurrent
  cases clock with
  | unavailable => exact Or.inl ⟨rfl, by simp⟩
  | failed => exact Or.inl ⟨rfl, by simp⟩
  | interrupted => exact Or.inl ⟨rfl, by simp⟩
  | now value =>
    cases hnow : aware "authoritative now" value with
    | error e => exact Or.inl ⟨by simp [hnow], by simp [hnow]⟩
    | ok now =>
      simp only [hnow]
      split_ifs with hwindow hrevoked hepoch htoken hconsumed
      · exact Or.inl ⟨rfl, by simp⟩
      · exact Or.inl ⟨rfl, by simp⟩
      · exact Or.inl ⟨rfl, by simp⟩
      · exact Or.inl ⟨rfl, by simp⟩
      · exact Or.inl ⟨rfl, by simp⟩
      · have hcurrent : Current s lease now := by
          rw [not_or, not_lt, not_le] at hwindow
          refine ⟨hwindow, hrevoked, not_not.mp hepoch, not_not.mp htoken, ?_⟩
          simpa using hconsumed
        exact Or.inr ⟨value, now, rfl, hnow, hcurrent, rfl⟩

theorem aware_field (field other : String) (value : DateTime) {now : Instant} (h : aware field value = .ok now) :
    aware other value = .ok now := by
  unfold aware at h ⊢
  cases hz : value.zone <;> simp_all

theorem settle_consumed (lease : CapabilityLease) (expected : LeaseExpectation) {value : DateTime} {now : Instant}
    (h : aware "authoritative now" value = .ok now) (hissued : lease.issuedAt ≤ now) (hexpires : now < lease.expiresAt) :
    settle lease expected ⟨.consumed, some value⟩ =
      .ok ⟨(lease.leaseId, lease.actionInstanceId, expected.emissionAttempt), lease.governedContextDigest, now⟩ := by
  simp only [settle, aware_field _ "authoritative lease evaluation time" value h]
  rw [if_neg (not_or.mpr ⟨not_lt.mpr hissued, not_le.mpr hexpires⟩)]

theorem settle_refused (lease : CapabilityLease) (expected : LeaseExpectation) {decision : LeaseStateDecision}
    (h : decision.outcome ≠ .consumed) : ∃ e, settle lease expected decision = .error e := by
  unfold settle
  cases ho : decision.outcome with
  | consumed => exact absurd ho h
  | _ => exact ⟨_, rfl⟩

/-- A call is refused and changes nothing, or consumes a current lease and returns its receipt. -/
theorem consume_cases (s : InMemoryLeaseState) (clock : Option ClockReading) (lease : CapabilityLease)
    (expected : LeaseExpectation) (signatureVerified : Bool) (revoked : Option Bool) :
    (∃ e, consume s clock lease expected signatureVerified revoked = (.error e, s)) ∨
      ∃ value now, clock = some (.now value) ∧ aware "authoritative now" value = .ok now ∧ Current s lease now ∧
        consume s clock lease expected signatureVerified revoked =
          (.ok ⟨(lease.leaseId, lease.actionInstanceId, expected.emissionAttempt), lease.governedContextDigest, now⟩,
            { s with consumed := s.consumed.set lease.leaseId (lease.actionInstanceId, expected.emissionAttempt) }) := by
  unfold consume
  cases clock with
  | none => exact Or.inl ⟨_, rfl⟩
  | some clock =>
    dsimp only
    cases checkBindings lease expected signatureVerified revoked with
    | error e => exact Or.inl ⟨e, rfl⟩
    | ok u =>
      dsimp only
      rcases consumeIfCurrent_cases s clock lease expected.emissionAttempt with ⟨hsame, hother⟩ |
        ⟨value, now, hclock, hnow, hcurrent, heq⟩
      · left
        rw [hsame]
        cases hd : (s.consumeIfCurrent clock lease.leaseId lease.actionInstanceId lease.stopEpoch lease.fencingToken
          expected.emissionAttempt lease.issuedAt lease.expiresAt).1 with
        | error failure => cases failure <;> exact ⟨_, rfl⟩
        | ok decision =>
          obtain ⟨e, he⟩ := settle_refused lease expected (hother decision hd)
          exact ⟨e, congrArg (·, s) he⟩
      · right
        refine ⟨value, now, by rw [hclock], hnow, hcurrent, ?_⟩
        rw [heq]
        exact congrArg (·, _) (settle_consumed lease expected hnow hcurrent.inWindow.1 hcurrent.inWindow.2)

/-! ## Runs -/

inductive LeaseCall
  | setStopEpoch (stopEpoch : ℤ)
  | setFencingToken (actionInstanceId : PyStr) (fencingToken : ℤ)
  | revoke (leaseId : PyStr)
  | consume (clock : Option ClockReading) (lease : CapabilityLease) (expected : LeaseExpectation)
      (signatureVerified : Bool) (revoked : Option Bool)

namespace InMemoryLeaseState

def step (s : InMemoryLeaseState) : LeaseCall → InMemoryLeaseState
  | .setStopEpoch stopEpoch => (s.setStopEpoch stopEpoch).2
  | .setFencingToken actionInstanceId fencingToken => (s.setFencingToken actionInstanceId fencingToken).2
  | .revoke leaseId => (s.revoke leaseId).2
  | .consume clock lease expected signatureVerified revoked =>
    (LeaseConsumptionLedger.consume s clock lease expected signatureVerified revoked).2

/-- The receipt a call returns, if any. -/
def returned (s : InMemoryLeaseState) : LeaseCall → List LeaseConsumptionReceipt
  | .consume clock lease expected signatureVerified revoked =>
    (LeaseConsumptionLedger.consume s clock lease expected signatureVerified revoked).1.toOption.toList
  | _ => []

def receipts (s : InMemoryLeaseState) (calls : List LeaseCall) : List LeaseConsumptionReceipt :=
  trace step returned s calls

end InMemoryLeaseState

open InMemoryLeaseState

/-- The lease can no longer become current: each disjunct is one of the three authorities. -/
def Superseded (lease : CapabilityLease) (s : InMemoryLeaseState) : Prop :=
  lease.leaseId ∈ s.revoked ∨ lease.stopEpoch < s.stopEpoch ∨
    ∃ token ∈ s.fencingTokens.get? lease.actionInstanceId, lease.fencingToken < token

/-- The consumed map is where the receipts stand: every receipt's lease, each once. -/
structure Accounted (s : InMemoryLeaseState) (log : List LeaseConsumptionReceipt) : Prop where
  once : (log.map (·.consumptionKey.1)).Nodup
  held : ∀ r ∈ log, (s.consumed.get? r.consumptionKey.1).isSome

theorem step_consumed_of_not_consume {s : InMemoryLeaseState} {call : LeaseCall} (h : s.returned call = []) :
    (s.step call).consumed = s.consumed := by
  cases call with
  | setStopEpoch stopEpoch =>
    simp only [step, setStopEpoch]
    split_ifs <;> rfl
  | setFencingToken actionInstanceId fencingToken =>
    simp only [step, setFencingToken]
    split_ifs <;> rfl
  | revoke leaseId =>
    simp only [step, InMemoryLeaseState.revoke]
    split_ifs <;> rfl
  | consume clock lease expected signatureVerified revoked =>
    rcases consume_cases s clock lease expected signatureVerified revoked with ⟨e, he⟩ | ⟨_, _, _, _, _, heq⟩
    · rw [step, he]
    · rw [returned, heq] at h
      cases h

theorem returned_cases (s : InMemoryLeaseState) (call : LeaseCall) :
    s.returned call = [] ∨ ∃ clock lease expected signatureVerified revoked receipt,
      call = .consume clock lease expected signatureVerified revoked ∧
      consume s clock lease expected signatureVerified revoked = (.ok receipt, s.step call) ∧
      s.returned call = [receipt] := by
  cases call with
  | consume clock lease expected signatureVerified revoked =>
    cases h : (consume s clock lease expected signatureVerified revoked).1 with
    | error e => exact Or.inl (by rw [returned, h]; rfl)
    | ok receipt =>
      refine Or.inr ⟨clock, lease, expected, signatureVerified, revoked, receipt, rfl, ?_, by rw [returned, h]; rfl⟩
      rw [step, ← h]
  | _ => exact Or.inl rfl

theorem Accounted.step {s : InMemoryLeaseState} {log : List LeaseConsumptionReceipt} (h : Accounted s log)
    (call : LeaseCall) : Accounted (s.step call) (log ++ s.returned call) := by
  rcases returned_cases s call with hnone | ⟨clock, lease, expected, verified, revoked, receipt, -, hconsume, hone⟩
  · rw [hnone, List.append_nil]
    exact ⟨h.once, by rw [step_consumed_of_not_consume hnone]; exact h.held⟩
  · rcases consume_cases s clock lease expected verified revoked with ⟨e, he⟩ | ⟨value, now, _, _, hcurrent, heq⟩
    · rw [he] at hconsume
      cases hconsume
    · rw [heq] at hconsume
      injection hconsume with hreceipt hstate
      injection hreceipt with hreceipt
      rw [hone, ← hstate, ← hreceipt]
      constructor
      · rw [List.map_append, List.map_singleton]
        refine List.nodup_append.mpr ⟨h.once, List.nodup_singleton _, ?_⟩
        rintro id hid _ hmem rfl
        obtain ⟨r, hr, rfl⟩ := List.mem_map.mp hid
        have hheld := h.held r hr
        rw [List.mem_singleton.mp hmem, hcurrent.unconsumed] at hheld
        cases hheld
      · intro r hr
        rw [Dict.get?_set]
        split_ifs with hid
        · rfl
        · rcases List.mem_append.mp hr with hold | hnew
          · exact h.held r hold
          · rw [List.mem_singleton.mp hnew] at hid
            exact absurd rfl hid

theorem Superseded.step {lease : CapabilityLease} {s : InMemoryLeaseState} (h : Superseded lease s)
    (call : LeaseCall) : Superseded lease (s.step call) := by
  cases call with
  | setStopEpoch stopEpoch =>
    simp only [InMemoryLeaseState.step, setStopEpoch]
    split_ifs with hback
    · exact h
    · exact h.imp id (Or.imp (fun hlt => lt_of_lt_of_le hlt (not_lt.mp hback)) id)
  | setFencingToken actionInstanceId fencingToken =>
    simp only [InMemoryLeaseState.step, setFencingToken]
    split_ifs with hinvalid hback
    · exact h
    · exact h
    · refine h.imp id (Or.imp id ?_)
      rintro ⟨token, htoken, hlt⟩
      rw [Dict.get?_set]
      split_ifs with haction
      · refine ⟨fencingToken, rfl, ?_⟩
        push Not at hback
        exact lt_of_lt_of_le hlt (hback token (haction ▸ htoken))
      · exact ⟨token, htoken, hlt⟩
  | revoke leaseId =>
    simp only [InMemoryLeaseState.step, InMemoryLeaseState.revoke]
    split_ifs
    · exact h
    · exact h.imp (Finset.mem_insert_of_mem) id
  | consume clock other expected signatureVerified revoked =>
    rcases consume_cases s clock other expected signatureVerified revoked with ⟨e, he⟩ | ⟨_, _, _, _, _, heq⟩
    · rw [InMemoryLeaseState.step, he]
      exact h
    · rw [InMemoryLeaseState.step, heq]
      exact h

theorem Superseded.not_current {lease : CapabilityLease} {s : InMemoryLeaseState} {now : Instant}
    (h : Superseded lease s) : ¬ Current s lease now := by
  intro hcurrent
  rcases h with hrevoked | hepoch | ⟨token, htoken, hlt⟩
  · exact hcurrent.unrevoked hrevoked
  · exact absurd hcurrent.epoch hepoch.ne
  · rw [hcurrent.token] at htoken
    cases htoken
    exact lt_irrefl _ hlt

/-- The calls that supersede a lease, from the state they are made in. -/
def Supersedes (s : InMemoryLeaseState) (lease : CapabilityLease) : LeaseCall → Prop
  | .revoke leaseId => leaseId = lease.leaseId
  | .setStopEpoch stopEpoch => (s.setStopEpoch stopEpoch).1 = .ok () ∧ lease.stopEpoch < stopEpoch
  | .setFencingToken actionInstanceId fencingToken =>
    (s.setFencingToken actionInstanceId fencingToken).1 = .ok () ∧ actionInstanceId = lease.actionInstanceId ∧
      lease.fencingToken < fencingToken
  | .consume .. => False

theorem Supersedes.superseded {s : InMemoryLeaseState} {lease : CapabilityLease} {call : LeaseCall}
    (h : Supersedes s lease call) : Superseded lease (s.step call) := by
  cases call with
  | revoke leaseId =>
    have hid : leaseId = lease.leaseId := h
    subst hid
    refine Or.inl ?_
    rw [InMemoryLeaseState.step, InMemoryLeaseState.revoke, if_neg lease.identified.1]
    exact Finset.mem_insert_self ..
  | setStopEpoch stopEpoch =>
    obtain ⟨hok, hlt⟩ := h
    refine Or.inr (Or.inl ?_)
    unfold setStopEpoch at hok
    split_ifs at hok with hback
    rwa [InMemoryLeaseState.step, setStopEpoch, if_neg hback]
  | setFencingToken actionInstanceId fencingToken =>
    obtain ⟨hok, rfl, hlt⟩ := h
    refine Or.inr (Or.inr ⟨fencingToken, ?_, hlt⟩)
    unfold setFencingToken at hok
    split_ifs at hok with hinvalid hback
    rw [InMemoryLeaseState.step, setFencingToken, if_neg hinvalid, if_neg hback]
    exact Dict.get?_set_self ..
  | consume clock other expected signatureVerified revoked => exact h.elim

/-- **One receipt per lease, and only for a current one.** Over every run of the state's
operations and of consumptions, with any readings of the clock: no lease id is on two
receipts; a receipt is for a lease that was unrevoked, at the live epoch and token and
in its window at the reading; a superseded lease gets none, however the run goes on;
and a refused consumption leaves the consumed map as it was. -/
theorem lease_consumption_one_shot (s : InMemoryLeaseState) (calls : List LeaseCall) :
    ((s.receipts calls).map (·.consumptionKey.1)).Nodup ∧
    (∀ before after clock lease expected verified revoked receipt,
      calls = before ++ .consume clock lease expected verified revoked :: after →
      (consume (run step s before) clock lease expected verified revoked).1 = .ok receipt →
        receipt.consumptionKey.1 = lease.leaseId ∧ lease.leaseId ∉ (run step s before).revoked ∧
        lease.stopEpoch = (run step s before).stopEpoch ∧
        (run step s before).fencingTokens.get? lease.actionInstanceId = some lease.fencingToken ∧
        ∃ value now, clock = some (.now value) ∧ aware "authoritative now" value = .ok now ∧
          lease.issuedAt ≤ now ∧ now < lease.expiresAt) ∧
    (∀ before call between after clock lease expected verified revoked,
      calls = before ++ call :: between ++ .consume clock lease expected verified revoked :: after →
      Supersedes (run step s before) lease call →
        ∃ e, (consume (run step s (before ++ call :: between)) clock lease expected verified revoked).1 = .error e) ∧
    ∀ before after clock lease expected verified revoked e,
      calls = before ++ .consume clock lease expected verified revoked :: after →
      (consume (run step s before) clock lease expected verified revoked).1 = .error e →
        (consume (run step s before) clock lease expected verified revoked).2.consumed =
          (run step s before).consumed := by
  refine ⟨?_, ?_, ?_, ?_⟩
  · have hstart : Accounted s [] := ⟨List.nodup_nil, by simp⟩
    have hall : AllSteps step (fun _ _ => True) s calls := allSteps_of_forall (fun _ _ _ => trivial) s
    have hrun : Accounted (run step s calls) ([] ++ s.receipts calls) :=
      @trace_induction _ _ _ step returned (fun _ _ => True) Accounted (fun _ _ call h _ => h.step call) s [] hstart
        calls hall
    simpa using hrun.once
  · intro before after clock lease expected verified revoked receipt _ hok
    rcases consume_cases (run step s before) clock lease expected verified revoked with ⟨e, he⟩ |
      ⟨value, now, hclock, hnow, hcurrent, heq⟩
    · rw [he] at hok
      cases hok
    · rw [heq] at hok
      cases hok
      exact ⟨rfl, hcurrent.unrevoked, hcurrent.epoch, hcurrent.token, value, now, hclock, hnow, hcurrent.inWindow⟩
  · intro before call between after clock lease expected verified revoked _ hsuper
    have hlater : Superseded lease (run step s (before ++ call :: between)) := by
      rw [run_append, run_cons]
      exact run_induction (fun _ call h => h.step call) hsuper.superseded between
    rcases consume_cases (run step s (before ++ call :: between)) clock lease expected verified revoked with ⟨e, he⟩ |
      ⟨value, now, _, _, hcurrent, _⟩
    · exact ⟨e, by rw [he]⟩
    · exact absurd hcurrent hlater.not_current
  · intro before after clock lease expected verified revoked e _ herror
    rcases consume_cases (run step s before) clock lease expected verified revoked with ⟨e', he⟩ |
      ⟨value, now, _, _, _, heq⟩
    · rw [he]
    · rw [heq] at herror
      cases herror

/-! A run in which one lease is consumed, a second call with it is refused, and another lease is revoked
before it is presented. -/

def sampleDigest (n : ℕ) : PyStr := py "urn:sha256:" ++ List.replicate 64 (codePoint n)

theorem sampleDigest_valid : IsDigest (sampleDigest 0x30) := by decide

def sampleLease (n : ℕ) : CapabilityLease where
  leaseId := [codePoint n]
  capabilityId := py "emit"
  effectivePrincipalId := py "operator"
  delegationRef := sampleDigest 0x30
  actionInstanceId := py "action"
  governedContextDigest := sampleDigest 0x30
  gatePackageDigest := sampleDigest 0x30
  stopEpoch := 0
  fencingToken := 1
  issuedAt := 0
  expiresAt := 5000000
  identified := ⟨by simp, by decide, by decide, by decide⟩
  bound := ⟨sampleDigest_valid, sampleDigest_valid, sampleDigest_valid⟩
  counted := by decide
  window := by decide

def sampleExpectation : LeaseExpectation where
  capabilityId := py "emit"
  effectivePrincipalId := py "operator"
  delegationRef := sampleDigest 0x30
  actionInstanceId := py "action"
  governedContextDigest := sampleDigest 0x30
  gatePackageDigest := sampleDigest 0x30
  stopEpoch := 0
  fencingToken := 1
  emissionAttempt := 1
  instant := 0
  correlationId := correlationZero
  causationId := none
  identified := by decide
  bound := ⟨sampleDigest_valid, sampleDigest_valid, sampleDigest_valid⟩
  counted := by decide
  traced := by decide

def sampleConsume (n : ℕ) (t : Instant) : LeaseCall :=
  .consume (some (.now (.utc t))) (sampleLease n) sampleExpectation true none

def sampleState : InMemoryLeaseState := ⟨0, Dict.empty.set (py "action") 1, ∅, .empty⟩

theorem lease_consumption_one_shot_sample :
    (sampleState.receipts [sampleConsume 0x41 1, sampleConsume 0x41 2, .revoke [codePoint 0x42],
      sampleConsume 0x42 3]).map (·.consumptionKey.1) = [[codePoint 0x41]] ∧
    ∃ e, (consume (run step sampleState [sampleConsume 0x41 1, sampleConsume 0x41 2, .revoke [codePoint 0x42]])
      (some (.now (.utc 3))) (sampleLease 0x42) sampleExpectation true none).1 = .error e :=
  ⟨by decide,
    (lease_consumption_one_shot sampleState [sampleConsume 0x41 1, sampleConsume 0x41 2, .revoke [codePoint 0x42],
      sampleConsume 0x42 3]).2.2.1 [sampleConsume 0x41 1, sampleConsume 0x41 2] (.revoke [codePoint 0x42]) [] []
      (some (.now (.utc 3))) (sampleLease 0x42) sampleExpectation true none rfl rfl⟩

end OcorRuntime.Kernel
