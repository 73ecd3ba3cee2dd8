import OcorRuntime.Temporal.LeaseState

/-! The durable lease state refines the in-process one. The two are related when they hold the same
epoch, tokens, revocations and consumptions; the relation survives every call of the port and every
rollover of the workflow, and under it both answer alike. -/
namespace OcorRuntime.Temporal
open Kernel
set_option autoImplicit false
set_option maxHeartbeats 250000

/-! ## Calls of the port -/

/-- A call of the lease-state port, with arguments of the types its callers pass: a consumption is for
a lease, as the ledger makes it. -/
inductive PortCall
  | setStopEpoch (stopEpoch : ℤ)
  | setFencingToken (actionInstanceId : PyStr) (fencingToken : ℤ)
  | revoke (leaseId : PyStr)
  | consumeIfCurrent (clock : ClockReading) (lease : CapabilityLease) (emissionAttempt : ℤ)

inductive Reply
  | done (result : Except PyError Unit)
  | decided (result : Except StateFailure LeaseStateDecision)

namespace Reference

/-- A call on the in-process state. -/
def serve (s : InMemoryLeaseState) : PortCall → Reply × InMemoryLeaseState
  | .setStopEpoch stopEpoch => (s.setStopEpoch stopEpoch).map .done id
  | .setFencingToken actionInstanceId fencingToken => (s.setFencingToken actionInstanceId fencingToken).map .done id
  | .revoke leaseId => (s.revoke leaseId).map .done id
  | .consumeIfCurrent clock lease emissionAttempt =>
    (s.consumeIfCurrent clock lease.leaseId lease.actionInstanceId lease.stopEpoch lease.fencingToken emissionAttempt
      lease.issuedAt lease.expiresAt).map .decided id

def step (s : InMemoryLeaseState) (call : PortCall) : InMemoryLeaseState := (serve s call).2

/-- The record of a consumption the state evaluated: its clock gave an aware instant. -/
def evaluated (s : InMemoryLeaseState) : PortCall → List Attempt
  | .consumeIfCurrent clock lease emissionAttempt =>
    match (s.consumeIfCurrent clock lease.leaseId lease.actionInstanceId lease.stopEpoch lease.fencingToken
        emissionAttempt lease.issuedAt lease.expiresAt).1 with
    | .ok ⟨outcome, some now⟩ =>
      [⟨lease.leaseId, lease.actionInstanceId, emissionAttempt, lease.stopEpoch, lease.fencingToken,
        stamp now.instant, outcome⟩]
    | _ => []
  | _ => []

end Reference

namespace Durable

/-- A call on the durable state. -/
def serve (w : LeaseStateWorkflow) : PortCall → Reply × LeaseStateWorkflow
  | .setStopEpoch stopEpoch => (TemporalLeaseState.setStopEpoch w stopEpoch).map .done id
  | .setFencingToken actionInstanceId fencingToken =>
    (TemporalLeaseState.setFencingToken w actionInstanceId fencingToken).map .done id
  | .revoke leaseId => (TemporalLeaseState.revoke w leaseId).map .done id
  | .consumeIfCurrent clock lease emissionAttempt =>
    (TemporalLeaseState.consumeIfCurrent w clock lease.leaseId lease.actionInstanceId lease.stopEpoch
      lease.fencingToken emissionAttempt lease.issuedAt lease.expiresAt).map .decided id

/-- What happens to a scope: a call, or the rollover of its workflow between two updates. -/
inductive Event
  | call (c : PortCall)
  | rollover

def Event.call? : Event → Option PortCall
  | .call c => some c
  | .rollover => none

def step (converter : PayloadConverter) (w : LeaseStateWorkflow) : Event → LeaseStateWorkflow
  | .call c => (serve w c).2
  | .rollover => w.continueAsNew converter

end Durable

/-! ## The relation -/

/-- Both states hold the same values; the durable one has kept the attempts of `log`. -/
structure Refines (w : LeaseStateWorkflow) (s : InMemoryLeaseState) (log : List Attempt) : Prop where
  stopEpoch : w.stopEpoch = s.stopEpoch
  tokens : w.tokens.get? = s.fencingTokens.get?
  revoked : ∀ leaseId, leaseId ∈ w.revoked ↔ leaseId ∈ s.revoked
  consumed : w.consumed.get? = s.consumed.get?
  attempts : w.attempts = log

theorem get?_set_congr {ν : Type} {d e : Dict PyStr ν} (h : d.get? = e.get?) (k : PyStr) (v : ν) :
    (d.set k v).get? = (e.set k v).get? := by
  funext j
  rw [Dict.get?_set, Dict.get?_set, h]

section Steps
variable {w : LeaseStateWorkflow} {s : InMemoryLeaseState} {log : List Attempt}

theorem Refines.rollover (h : Refines w s log) (converter : PayloadConverter) :
    Refines (w.continueAsNew converter) s log := by
  have hconsumed := converter.consumed w.snapshot
  have hattempts := converter.attempts w.snapshot
  constructor
  · exact (converter.stopEpoch w.snapshot).trans h.stopEpoch
  · exact (converter.fencingTokens w.snapshot).trans h.tokens
  · intro leaseId
    rw [← h.revoked leaseId]
    exact iff_of_eq (congrArg (leaseId ∈ ·) (converter.revokedLeaseIds w.snapshot))
  · rw [← h.consumed]
    cases hc : (converter.carry w.snapshot).consumed with
    | none =>
      rw [hc] at hconsumed
      cases hconsumed
    | some carried =>
      rw [hc] at hconsumed
      have hget : carried.get? = w.consumed.get? := Option.some.inj hconsumed
      rw [← hget]
      simp only [LeaseStateWorkflow.continueAsNew, LeaseStateWorkflow.init, hc, Option.getD_some]
  · rw [← h.attempts]
    simp only [LeaseStateWorkflow.continueAsNew, LeaseStateWorkflow.init, hattempts]
    rfl

theorem Refines.setStopEpoch (h : Refines w s log) (stopEpoch : ℤ) :
    (TemporalLeaseState.setStopEpoch w stopEpoch).1 = (s.setStopEpoch stopEpoch).1 ∧
      Refines (TemporalLeaseState.setStopEpoch w stopEpoch).2 (s.setStopEpoch stopEpoch).2 log := by
  unfold TemporalLeaseState.setStopEpoch LeaseStateWorkflow.update LeaseStateWorkflow.validateStopEpoch
    InMemoryLeaseState.setStopEpoch refuse
  rw [h.stopEpoch]
  by_cases hback : stopEpoch < s.stopEpoch
  · rw [if_pos hback, if_pos hback]
    exact ⟨rfl, h⟩
  · rw [if_neg hback, if_neg hback]
    exact ⟨rfl, rfl, h.tokens, h.revoked, h.consumed, h.attempts⟩

theorem Refines.setFencingToken (h : Refines w s log) (actionInstanceId : PyStr) (fencingToken : ℤ) :
    (TemporalLeaseState.setFencingToken w actionInstanceId fencingToken).1 =
        (s.setFencingToken actionInstanceId fencingToken).1 ∧
      Refines (TemporalLeaseState.setFencingToken w actionInstanceId fencingToken).2
        (s.setFencingToken actionInstanceId fencingToken).2 log := by
  unfold TemporalLeaseState.setFencingToken LeaseStateWorkflow.update LeaseStateWorkflow.validateFencingToken
    InMemoryLeaseState.setFencingToken refuse
  rw [h.tokens]
  by_cases hinvalid : actionInstanceId = [] ∨ fencingToken < 1
  · rw [if_pos hinvalid, if_pos hinvalid]
    exact ⟨rfl, h⟩
  · rw [if_neg hinvalid, if_neg hinvalid, if_neg hinvalid]
    by_cases hback : ∃ current ∈ s.fencingTokens.get? actionInstanceId, fencingToken < current
    · rw [if_pos hback, if_pos hback]
      exact ⟨rfl, h⟩
    · rw [if_neg hback, if_neg hback]
      exact ⟨rfl, h.stopEpoch, get?_set_congr h.tokens .., h.revoked, h.consumed, h.attempts⟩

theorem Refines.revoke (h : Refines w s log) (leaseId : PyStr) :
    (TemporalLeaseState.revoke w leaseId).1 = (s.revoke leaseId).1 ∧
      Refines (TemporalLeaseState.revoke w leaseId).2 (s.revoke leaseId).2 log := by
  unfold TemporalLeaseState.revoke LeaseStateWorkflow.update LeaseStateWorkflow.validateRevoke
    LeaseStateWorkflow.revoke InMemoryLeaseState.revoke
  by_cases hempty : leaseId = []
  · rw [if_pos hempty, if_pos hempty]
    exact ⟨rfl, h⟩
  · rw [if_neg hempty, if_neg hempty, if_neg hempty]
    by_cases hknown : leaseId ∈ w.revoked
    · -- the set takes the id again, the list does not
      have hinsert : insert leaseId s.revoked = s.revoked := Finset.insert_eq_of_mem ((h.revoked leaseId).mp hknown)
      rw [if_pos hknown, hinsert]
      exact ⟨rfl, h.stopEpoch, h.tokens, h.revoked, h.consumed, h.attempts⟩
    · rw [if_neg hknown]
      refine ⟨rfl, h.stopEpoch, h.tokens, fun other => ?_, h.consumed, h.attempts⟩
      rw [List.mem_append, List.mem_singleton, Finset.mem_insert, h.revoked other, or_comm]

/-- The request the port makes of a lease at an instant. -/
def requestOf (lease : CapabilityLease) (emissionAttempt : ℤ) (now : Instant) : ConsumeRequest :=
  ⟨lease.leaseId, lease.actionInstanceId, lease.stopEpoch, lease.fencingToken, emissionAttempt, lease.issuedAt,
    lease.expiresAt, now, stamp now⟩

theorem Refines.decides (h : Refines w s log) (value : DateTime) {now : Instant}
    (haware : aware "authoritative now" value = .ok now) (lease : CapabilityLease) (emissionAttempt : ℤ) :
    s.consumeIfCurrent (.now value) lease.leaseId lease.actionInstanceId lease.stopEpoch lease.fencingToken
        emissionAttempt lease.issuedAt lease.expiresAt =
      (.ok ⟨w.outcomeOf (requestOf lease emissionAttempt now), some value⟩,
        if w.outcomeOf (requestOf lease emissionAttempt now) = .consumed then
          { s with consumed := s.consumed.set lease.leaseId (lease.actionInstanceId, emissionAttempt) }
        else s) := by
  simp only [InMemoryLeaseState.consumeIfCurrent, haware, LeaseStateWorkflow.outcomeOf, requestOf, h.revoked, h.stopEpoch,
    h.tokens, h.consumed]
  split_ifs <;> first | rfl | contradiction

theorem instant_of_aware {field : String} {value : DateTime} {now : Instant} (h : aware field value = .ok now) :
    value.instant = now := by
  unfold aware at h
  unfold DateTime.instant
  cases hzone : value.zone with
  | naive => simp [hzone] at h
  | undefined => simp [hzone] at h
  | offset o => simpa [hzone] using h

theorem not_evaluated {call : PortCall} (h : Reference.evaluated s call = []) : log ++ Reference.evaluated s call = log := by
  rw [h, List.append_nil]

theorem Refines.evaluated (h : Refines w s log) (value : DateTime) {now : Instant}
    (haware : aware "authoritative now" value = .ok now) (lease : CapabilityLease) (emissionAttempt : ℤ) :
    Reference.evaluated s (.consumeIfCurrent (.now value) lease emissionAttempt) =
      [LeaseStateWorkflow.attemptOf (requestOf lease emissionAttempt now)
        (w.outcomeOf (requestOf lease emissionAttempt now))] := by
  simp only [Reference.evaluated, h.decides value haware, instant_of_aware haware]
  rfl

theorem durable_decides (value : DateTime) {now : Instant} (haware : aware "authoritative now" value = .ok now)
    (lease : CapabilityLease) (emissionAttempt : ℤ) :
    TemporalLeaseState.consumeIfCurrent w (.now value) lease.leaseId lease.actionInstanceId lease.stopEpoch
        lease.fencingToken emissionAttempt lease.issuedAt lease.expiresAt =
      (.ok ⟨w.outcomeOf (requestOf lease emissionAttempt now), some value⟩,
        (w.consumeIfCurrent (requestOf lease emissionAttempt now)).2) := by
  have hvalid : LeaseStateWorkflow.validateConsume (requestOf lease emissionAttempt now) = .ok () :=
    if_neg (not_or.mpr ⟨lease.identified.1, lease.identified.2.2.2⟩)
  simp only [requestOf] at hvalid
  simp only [TemporalLeaseState.consumeIfCurrent, haware, LeaseStateWorkflow.update, hvalid]
  rfl

theorem Refines.consumeIfCurrent (h : Refines w s log) (clock : ClockReading) (lease : CapabilityLease)
    (emissionAttempt : ℤ) :
    (TemporalLeaseState.consumeIfCurrent w clock lease.leaseId lease.actionInstanceId lease.stopEpoch
        lease.fencingToken emissionAttempt lease.issuedAt lease.expiresAt).1 =
      (s.consumeIfCurrent clock lease.leaseId lease.actionInstanceId lease.stopEpoch lease.fencingToken emissionAttempt
        lease.issuedAt lease.expiresAt).1 ∧
    Refines (TemporalLeaseState.consumeIfCurrent w clock lease.leaseId lease.actionInstanceId lease.stopEpoch
        lease.fencingToken emissionAttempt lease.issuedAt lease.expiresAt).2
      (s.consumeIfCurrent clock lease.leaseId lease.actionInstanceId lease.stopEpoch lease.fencingToken emissionAttempt
        lease.issuedAt lease.expiresAt).2
      (log ++ Reference.evaluated s (.consumeIfCurrent clock lease emissionAttempt)) := by
  cases clock with
  | interrupted =>
    rw [not_evaluated rfl]
    exact ⟨rfl, h⟩
  | failed =>
    rw [not_evaluated rfl]
    exact ⟨rfl, h⟩
  | unavailable =>
    rw [not_evaluated rfl]
    exact ⟨rfl, h⟩
  | now value =>
    cases haware : aware "authoritative now" value with
    | error fault =>
      simp only [TemporalLeaseState.consumeIfCurrent, InMemoryLeaseState.consumeIfCurrent, Reference.evaluated, haware,
        List.append_nil]
      exact ⟨trivial, h⟩
    | ok now =>
      rw [h.evaluated value haware, durable_decides value haware, h.decides value haware]
      refine ⟨rfl, ?_⟩
      simp only [LeaseStateWorkflow.consumeIfCurrent]
      generalize w.outcomeOf (requestOf lease emissionAttempt now) = outcome
      by_cases hconsumed : outcome = .consumed
      · rw [if_pos hconsumed, if_pos hconsumed, h.attempts]
        exact ⟨h.stopEpoch, h.tokens, h.revoked, get?_set_congr h.consumed .., rfl⟩
      · rw [if_neg hconsumed, if_neg hconsumed, h.attempts]
        exact ⟨h.stopEpoch, h.tokens, h.revoked, h.consumed, rfl⟩

end Steps

theorem Refines.serve {w : LeaseStateWorkflow} {s : InMemoryLeaseState} {log : List Attempt} (h : Refines w s log)
    (call : PortCall) :
    (Durable.serve w call).1 = (Reference.serve s call).1 ∧
      Refines (Durable.serve w call).2 (Reference.step s call) (log ++ Reference.evaluated s call) := by
  cases call with
  | setStopEpoch stopEpoch =>
    obtain ⟨hreply, hnext⟩ := h.setStopEpoch stopEpoch
    rw [not_evaluated rfl]
    exact ⟨congrArg Reply.done hreply, hnext⟩
  | setFencingToken actionInstanceId fencingToken =>
    obtain ⟨hreply, hnext⟩ := h.setFencingToken actionInstanceId fencingToken
    rw [not_evaluated rfl]
    exact ⟨congrArg Reply.done hreply, hnext⟩
  | revoke leaseId =>
    obtain ⟨hreply, hnext⟩ := h.revoke leaseId
    rw [not_evaluated rfl]
    exact ⟨congrArg Reply.done hreply, hnext⟩
  | consumeIfCurrent clock lease emissionAttempt =>
    obtain ⟨hreply, hnext⟩ := h.consumeIfCurrent clock lease emissionAttempt
    exact ⟨congrArg Reply.decided hreply, hnext⟩

/-! ## Runs -/

theorem simulates (converter : PayloadConverter) :
    Simulates (Durable.step converter) Reference.step Reference.evaluated Durable.Event.call? Refines where
  visible := by
    intro w s log event call h hlabel
    cases event with
    | call c =>
      obtain rfl : c = call := Option.some.inj hlabel
      exact (h.serve _).2
    | rollover => cases hlabel
  silent := by
    intro w s log event h hlabel
    cases event with
    | call c => cases hlabel
    | rollover => exact h.rollover converter

theorem create_cases (converter : PayloadConverter) (stopEpoch : ℤ) (fencingTokens : Dict PyStr ℤ)
    (revokedLeaseIds : List PyStr) :
    (∃ e, TemporalLeaseState.create converter stopEpoch fencingTokens revokedLeaseIds = .error e ∧
        InMemoryLeaseState.create stopEpoch fencingTokens revokedLeaseIds = .error e) ∨
      ∃ w s, TemporalLeaseState.create converter stopEpoch fencingTokens revokedLeaseIds = .ok w ∧
        InMemoryLeaseState.create stopEpoch fencingTokens revokedLeaseIds = .ok s ∧ Refines w s [] := by
  unfold TemporalLeaseState.create InMemoryLeaseState.create
  split_ifs with hepoch htokens hrevoked
  · exact Or.inl ⟨_, rfl, rfl⟩
  · exact Or.inl ⟨_, rfl, rfl⟩
  · exact Or.inl ⟨_, rfl, rfl⟩
  · refine Or.inr ⟨_, _, rfl, rfl, ?_⟩
    have hconsumed := converter.consumed ⟨stopEpoch, fencingTokens, revokedLeaseIds, none, none⟩
    constructor
    · exact converter.stopEpoch _
    · exact converter.fencingTokens _
    · intro leaseId
      simp only [LeaseStateWorkflow.init, converter.revokedLeaseIds, List.mem_toFinset]
    · simp only [Option.map_none, Option.map_eq_none_iff] at hconsumed
      simp only [LeaseStateWorkflow.init, hconsumed, Option.getD_none]
    · simp only [LeaseStateWorkflow.init, converter.attempts, Option.getD_none]

example :
    (run (Durable.step .ordered) (LeaseStateWorkflow.init ⟨0, Dict.empty.set (py "action") 1, [], none, none⟩)
      [.call (.consumeIfCurrent (.now (.utc 1)) (sampleLease 0x41) 1), .rollover,
        .call (.consumeIfCurrent (.now (.utc 2)) (sampleLease 0x41) 2)]).attempts.map (·.outcome) =
      [.consumed, .alreadyConsumed] := by decide

end OcorRuntime.Temporal
