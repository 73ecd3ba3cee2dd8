import Mathlib.Data.List.Chain
import OcorRuntime.Foundations.Run
import OcorRuntime.Store.Outbox

/-! The action state machine ACT-T01 to ACT-T31b (`c5_actions.py`). Every accepted
transition appends an audit entry whose hash covers the entry before it; the hash is
taken of the evidence as the caller gave it, and checked again on the frozen copy. -/
namespace OcorRuntime.Actions
open Canonical Store
set_option autoImplicit false
set_option maxHeartbeats 250000

/-! ## States, events and the transition table -/

inductive ActionState
  | draft
  | proposed
  | validated
  | authorized
  | scheduled
  | ready
  | running
  | paused
  | succeeded
  | failed
  | cancelled
  | expired
  | compensating
  | compensated
  | rejected
  | abstained
deriving DecidableEq

def ActionState.value : ActionState → String
  | draft => "DRAFT"
  | proposed => "PROPOSED"
  | validated => "VALIDATED"
  | authorized => "AUTHORIZED"
  | scheduled => "SCHEDULED"
  | ready => "READY"
  | running => "RUNNING"
  | paused => "PAUSED"
  | succeeded => "SUCCEEDED"
  | failed => "FAILED"
  | cancelled => "CANCELLED"
  | expired => "EXPIRED"
  | compensating => "COMPENSATING"
  | compensated => "COMPENSATED"
  | rejected => "REJECTED"
  | abstained => "ABSTAINED"

inductive ActionEvent
  | submit
  | cancel
  | validate
  | reject
  | authorize
  | schedule
  | dispatch
  | revoke
  | activate
  | reschedule
  | expire
  | start
  | defer
  | pause
  | succeed
  | fail
  | resume
  | retry
  | compensate
  | complete
  | abstain
deriving DecidableEq

namespace ActionEvent

def value : ActionEvent → String
  | submit => "SUBMIT"
  | cancel => "CANCEL"
  | validate => "VALIDATE"
  | reject => "REJECT"
  | authorize => "AUTHORIZE"
  | schedule => "SCHEDULE"
  | dispatch => "DISPATCH"
  | revoke => "REVOKE"
  | activate => "ACTIVATE"
  | reschedule => "RESCHEDULE"
  | expire => "EXPIRE"
  | start => "START"
  | defer => "DEFER"
  | pause => "PAUSE"
  | succeed => "SUCCEED"
  | fail => "FAIL"
  | resume => "RESUME"
  | retry => "RETRY"
  | compensate => "COMPENSATE"
  | complete => "COMPLETE"
  | abstain => "ABSTAIN"

def all : List ActionEvent :=
  [submit, cancel, validate, reject, authorize, schedule, dispatch, revoke, activate, reschedule, expire, start,
    defer, pause, succeed, fail, resume, retry, compensate, complete, abstain]

end ActionEvent

structure TransitionSpec where
  transitionId : String
  source : ActionState
  event : ActionEvent
  target : ActionState
  enforcesActionWindow : Bool := false
deriving DecidableEq

/-- `_SPECS`. -/
def specs : List TransitionSpec :=
  [⟨"ACT-T01", .draft, .submit, .proposed, false⟩,
    ⟨"ACT-T02", .draft, .cancel, .cancelled, false⟩,
    ⟨"ACT-T03", .proposed, .validate, .validated, false⟩,
    ⟨"ACT-T04", .proposed, .reject, .rejected, false⟩,
    ⟨"ACT-T05", .proposed, .cancel, .cancelled, false⟩,
    ⟨"ACT-T06", .validated, .authorize, .authorized, false⟩,
    ⟨"ACT-T07", .validated, .reject, .rejected, false⟩,
    ⟨"ACT-T08", .validated, .cancel, .cancelled, false⟩,
    ⟨"ACT-T09", .authorized, .schedule, .scheduled, false⟩,
    ⟨"ACT-T10", .authorized, .dispatch, .ready, true⟩,
    ⟨"ACT-T11", .authorized, .revoke, .cancelled, false⟩,
    ⟨"ACT-T12", .scheduled, .activate, .ready, true⟩,
    ⟨"ACT-T13", .scheduled, .reschedule, .scheduled, false⟩,
    ⟨"ACT-T14", .scheduled, .expire, .expired, false⟩,
    ⟨"ACT-T15", .scheduled, .cancel, .cancelled, false⟩,
    ⟨"ACT-T16", .ready, .start, .running, true⟩,
    ⟨"ACT-T17", .ready, .defer, .scheduled, false⟩,
    ⟨"ACT-T18", .ready, .expire, .expired, false⟩,
    ⟨"ACT-T19", .ready, .cancel, .cancelled, false⟩,
    ⟨"ACT-T20", .running, .pause, .paused, false⟩,
    ⟨"ACT-T21", .running, .succeed, .succeeded, false⟩,
    ⟨"ACT-T22", .running, .fail, .failed, false⟩,
    ⟨"ACT-T23", .running, .cancel, .cancelled, false⟩,
    ⟨"ACT-T24", .paused, .resume, .running, true⟩,
    ⟨"ACT-T25", .paused, .fail, .failed, false⟩,
    ⟨"ACT-T26", .paused, .cancel, .cancelled, false⟩,
    ⟨"ACT-T27", .failed, .retry, .ready, false⟩,
    ⟨"ACT-T28", .failed, .compensate, .compensating, false⟩,
    ⟨"ACT-T29", .succeeded, .compensate, .compensating, false⟩,
    ⟨"ACT-T30", .compensating, .complete, .compensated, false⟩,
    ⟨"ACT-T31a", .compensating, .fail, .failed, false⟩,
    ⟨"ACT-T31b", .ready, .abstain, .abstained, false⟩]

/-- `TRANSITIONS.get((state, event))`; no two specs share a source and an event. -/
def transitions? (state : ActionState) (event : ActionEvent) : Option TransitionSpec :=
  specs.find? fun spec => spec.source = state ∧ spec.event = event

/-- `TRANSITIONS_BY_ID.get(transition_id)`. -/
def transitionsById? (transitionId : PyStr) : Option TransitionSpec :=
  specs.find? fun spec => py spec.transitionId = transitionId

/-! ## Actions -/

structure ActionAuditEntry where
  transitionId : String
  source : ActionState
  event : ActionEvent
  target : ActionState
  occurredAt : DateTime
  actor : PyStr
  evidence : PyValue
  previousHash : PyStr
  entryHash : PyStr
deriving DecidableEq

def ActionAuditEntry.instant (entry : ActionAuditEntry) : Instant := entry.occurredAt.instant

structure Action where
  actionId : PyStr
  state : ActionState
  version : ℕ
  notBefore : Option Instant
  expiresAt : Option Instant
  history : List ActionAuditEntry
  identified : actionId ≠ []
  window : ∀ start ∈ notBefore, ∀ stop ∈ expiresAt, start < stop

/-- An optional aware date-time of `__post_init__`. -/
def optionalAware (instant : Option DateTime) (field : String) : Except PyError (Option Instant) :=
  match instant with
  | none => .ok none
  | some d => (requireAware d field).map some

/-- `Action(action_id, not_before=..., expires_at=...)`: a fresh draft. -/
def Action.create (actionId : PyStr) (notBefore expiresAt : Option DateTime) : Except PyError Action :=
  if h : actionId = [] then .error ⟨.valueError, "action_id must be non-empty", []⟩
  else do
    let notBefore ← optionalAware notBefore "not_before"
    let expiresAt ← optionalAware expiresAt "expires_at"
    if hw : ∀ start ∈ notBefore, ∀ stop ∈ expiresAt, start < stop then
      return ⟨actionId, .draft, 0, notBefore, expiresAt, [], h, hw⟩
    else .error ⟨.temporalGuardViolation, "not_before must precede expires_at", []⟩

/-- `"0" * 64`. -/
def genesisHash : PyStr := List.replicate 64 (digitChar 0)

namespace ActionFSM

/-! ## The audit payload, built twice -/

def field (key : String) (value : PyValue) : MappingKey × PyValue := (.str (py key), value)

/-- `audit_payload` of `transition`: from the spec, the caller's instant and the caller's evidence. -/
def auditPayload (action : Action) (spec : TransitionSpec) (instant : DateTime) (actor : PyStr)
    (stableEvidence : PyValue) (previousHash : PyStr) : PyValue :=
  .mapping [field "actionId" (.str action.actionId), field "transitionId" (.str (py spec.transitionId)),
    field "source" (.str (py spec.source.value)), field "event" (.str (py spec.event.value)),
    field "target" (.str (py spec.target.value)), field "occurredAt" (.str instant.isoformat),
    field "actor" (.str actor), field "evidence" stableEvidence, field "previousHash" (.str previousHash),
    field "version" (.int (action.version + 1))]

/-- `payload` of `verify_history`: from the recorded entry and its place in the history. -/
def entryPayload (actionId : PyStr) (entry : ActionAuditEntry) (version : ℕ) : PyValue :=
  .mapping [field "actionId" (.str actionId), field "transitionId" (.str (py entry.transitionId)),
    field "source" (.str (py entry.source.value)), field "event" (.str (py entry.event.value)),
    field "target" (.str (py entry.target.value)), field "occurredAt" (.str entry.occurredAt.isoformat),
    field "actor" (.str entry.actor), field "evidence" entry.evidence,
    field "previousHash" (.str entry.previousHash), field "version" (.int version)]

/-! ## Operations -/

/-- The loop of `verify_history`, from the entry at `version` on. -/
def verifyEntries (action : Action) : List ActionAuditEntry → ℕ → PyStr → ActionState → Except PyError Bool
  | [], _, _, previousState =>
    .ok (decide (action.version = action.history.length) && decide (action.state = previousState))
  | entry :: rest, version, previousHash, previousState =>
    if entry.previousHash ≠ previousHash ∨ entry.source ≠ previousState then .ok false
    else do
      let digest ← canonicalSha256 (entryPayload action.actionId entry version)
      if digest ≠ entry.entryHash then return false
      else verifyEntries action rest (version + 1) entry.entryHash entry.target

def verifyHistory (action : Action) : Except PyError Bool :=
  verifyEntries action action.history 1 genesisHash .draft

def coerceEvent (value : PyStr) : Except PyError ActionEvent :=
  match ActionEvent.all.find? fun event => py event.value = value with
  | some event => .ok event
  | none => .error ⟨.invalidTransition, "unknown action event: %r", [.text value]⟩

def checkWindow (action : Action) (spec : TransitionSpec) (instant : Instant) : Except PyError Unit :=
  if spec.event = .expire then
    if action.expiresAt.all (instant < ·) then
      .error ⟨.temporalGuardViolation, "EXPIRE is legal only at or after the action expiration", []⟩
    else .ok ()
  else if ¬ spec.enforcesActionWindow then .ok ()
  else if ∃ start ∈ action.notBefore, instant < start then
    .error ⟨.temporalGuardViolation, "action is not yet active", []⟩
  else if ∃ stop ∈ action.expiresAt, stop ≤ instant then
    .error ⟨.temporalGuardViolation, "action capability window has expired", []⟩
  else .ok ()

/-- Before anything else is looked at, a recorded history must verify. -/
def checkHistory (action : Action) : Except PyError Unit :=
  if action.history = [] then .ok ()
  else do
    if ← verifyHistory action then return ()
    else .error ⟨.invalidTransition, "action audit history failed integrity verification", []⟩

def transition (action : Action) (event : PyStr) (occurredAt : DateTime) (actor : PyStr)
    (evidence : Option (List (MappingKey × PyValue))) (expectedVersion : Option ℤ) : Except PyError Action := do
  refuseIf (actor = []) ⟨.valueError, "transition actor must be non-empty", []⟩
  let instant ← requireAware occurredAt "occurred_at"
  refuseIf (∃ expected ∈ expectedVersion, expected ≠ action.version)
    ⟨.concurrencyConflict, "expected action version %d, found %d",
      [.int (expectedVersion.getD 0), .int action.version]⟩
  checkHistory action
  let selectedEvent ← coerceEvent event
  let spec ← orRaise (transitions? action.state selectedEvent)
    ⟨.invalidTransition, "event %s is not legal from %s",
      [.text (py selectedEvent.value), .text (py action.state.value)]⟩
  refuseIf (∃ last ∈ action.history.getLast?, instant < last.instant)
    ⟨.temporalGuardViolation, "action history cannot move backwards in time", []⟩
  checkWindow action spec instant
  let stableEvidence : PyValue := .mapping (evidence.getD [])
  let previousHash := (action.history.getLast?.map (·.entryHash)).getD genesisHash
  let frozen ← freezeJson stableEvidence
  let entryHash ← canonicalSha256 (auditPayload action spec occurredAt actor stableEvidence previousHash)
  let entry : ActionAuditEntry :=
    ⟨spec.transitionId, spec.source, spec.event, spec.target, occurredAt, actor, frozen, previousHash, entryHash⟩
  return { action with
    state := spec.target, version := action.version + 1, history := action.history ++ [entry] }

def transitionById (action : Action) (transitionId : PyStr) (occurredAt : DateTime) (actor : PyStr)
    (evidence : Option (List (MappingKey × PyValue))) (expectedVersion : Option ℤ) : Except PyError Action :=
  match transitionsById? transitionId with
  | none => .error ⟨.invalidTransition, "unknown transition id: %r", [.text transitionId]⟩
  | some spec =>
    if action.state ≠ spec.source then
      .error ⟨.invalidTransition, "%s requires state %s, found %s",
        [.text transitionId, .text (py spec.source.value), .text (py action.state.value)]⟩
    else transition action (py spec.event.value) occurredAt actor evidence expectedVersion

/-! ## What an accepted transition does -/

def InWindow (action : Action) (instant : Instant) : Prop :=
  (∀ start ∈ action.notBefore, start ≤ instant) ∧ ∀ stop ∈ action.expiresAt, instant < stop

/-- The hash a new entry follows on. -/
def lastHash (history : List ActionAuditEntry) : PyStr := (history.getLast?.map (·.entryHash)).getD genesisHash

/-- An entry that continues an action: what it records, and that its hash is the one `verify_history` will take. -/
structure Continues (action : Action) (entry : ActionAuditEntry) : Prop where
  previous : entry.previousHash = lastHash action.history
  source : entry.source = action.state
  digest : canonicalSha256 (entryPayload action.actionId entry (action.version + 1)) = .ok entry.entryHash
  ordered : ∀ last ∈ action.history.getLast?, last.instant ≤ entry.instant
  running : entry.target = .running → InWindow action entry.instant

theorem transitions?_eq_some {state : ActionState} {event : ActionEvent} {spec : TransitionSpec}
    (h : transitions? state event = some spec) :
    spec.source = state ∧ (spec.target = .running → spec.event ≠ .expire ∧ spec.enforcesActionWindow = true) := by
  have hspec := List.find?_some h
  have hrunning : ∀ spec ∈ specs, spec.target = .running →
      spec.event ≠ .expire ∧ spec.enforcesActionWindow = true := by decide
  exact ⟨(of_decide_eq_true hspec).1, hrunning spec (List.mem_of_find?_eq_some h)⟩

theorem checkWindow_inWindow {action : Action} {spec : TransitionSpec} {instant : Instant}
    (h : checkWindow action spec instant = .ok ()) (hexpire : spec.event ≠ .expire)
    (henforced : spec.enforcesActionWindow = true) : InWindow action instant := by
  rw [checkWindow, if_neg hexpire, if_neg (by simp [henforced])] at h
  split_ifs at h with hstart hstop
  push Not at hstart hstop
  exact ⟨hstart, hstop⟩

/-- The two payloads have the same canonical bytes: only the evidence was frozen in between. -/
theorem canonicalSha256_entryPayload (action : Action) (spec : TransitionSpec) (instant : DateTime)
    (actor previousHash entryHash : PyStr) {evidence frozen : PyValue} (h : freezeJson evidence = .ok frozen) :
    canonicalSha256 (entryPayload action.actionId
        ⟨spec.transitionId, spec.source, spec.event, spec.target, instant, actor, frozen, previousHash, entryHash⟩
        (action.version + 1)) =
      canonicalSha256 (auditPayload action spec instant actor evidence previousHash) := by
  have htext := serialize_freezeJson h
  have hentries : serialize (entryPayload action.actionId
        ⟨spec.transitionId, spec.source, spec.event, spec.target, instant, actor, frozen, previousHash, entryHash⟩
        (action.version + 1)) =
      serialize (auditPayload action spec instant actor evidence previousHash) := by
    simp only [entryPayload, auditPayload, field, serialize, serializeEntries, htext, Nat.cast_add, Nat.cast_one]
    simp [MappingKey.str?]
  rw [canonicalSha256, canonicalSha256, canonicalize, canonicalize, hentries]

theorem transition_cases {action next : Action} {event : PyStr} {occurredAt : DateTime} {actor : PyStr}
    {evidence : Option (List (MappingKey × PyValue))} {expectedVersion : Option ℤ}
    (h : transition action event occurredAt actor evidence expectedVersion = .ok next) :
    ∃ entry, Continues action entry ∧ next = { action with
      state := entry.target, version := action.version + 1, history := action.history ++ [entry] } := by
  obtain ⟨-, -, h⟩ := bind_eq_ok.1 h
  obtain ⟨instant, hinstant, h⟩ := bind_eq_ok.1 h
  obtain ⟨-, -, h⟩ := bind_eq_ok.1 h
  obtain ⟨-, -, h⟩ := bind_eq_ok.1 h
  obtain ⟨selected, -, h⟩ := bind_eq_ok.1 h
  obtain ⟨spec, hspec, h⟩ := bind_eq_ok.1 h
  obtain ⟨_, hordered, h⟩ := bind_eq_ok.1 h
  obtain ⟨_, hwindow, h⟩ := bind_eq_ok.1 h
  obtain ⟨frozen, hfrozen, h⟩ := bind_eq_ok.1 h
  obtain ⟨entryHash, hhash, h⟩ := bind_eq_ok.1 h
  cases h
  obtain ⟨hsource, hrunning⟩ := transitions?_eq_some (orRaise_eq_ok.1 hspec)
  let entry : ActionAuditEntry :=
    ⟨spec.transitionId, spec.source, spec.event, spec.target, occurredAt, actor, frozen, lastHash action.history, entryHash⟩
  have hentry : entry.instant = instant := (requireAware_eq_ok.1 hinstant).2
  refine ⟨entry, ⟨rfl, hsource, ?_, ?_, ?_⟩, rfl⟩
  · rw [← hhash]
    exact canonicalSha256_entryPayload action spec occurredAt actor (lastHash action.history) entryHash hfrozen
  · have hlast := refuseIf_eq_ok.1 hordered
    push Not at hlast
    rw [hentry]
    exact hlast
  · intro htarget
    rw [hentry]
    exact checkWindow_inWindow hwindow (hrunning htarget).1 (hrunning htarget).2

theorem transitionById_cases {action next : Action} {transitionId : PyStr} {occurredAt : DateTime} {actor : PyStr}
    {evidence : Option (List (MappingKey × PyValue))} {expectedVersion : Option ℤ}
    (h : transitionById action transitionId occurredAt actor evidence expectedVersion = .ok next) :
    ∃ event, transition action event occurredAt actor evidence expectedVersion = .ok next := by
  unfold transitionById at h
  cases hspec : transitionsById? transitionId with
  | none => simp [hspec] at h
  | some spec =>
    simp only [hspec] at h
    split_ifs at h
    exact ⟨py spec.event.value, h⟩

/-! ## Runs -/

inductive Call
  | transition (event : PyStr) (occurredAt : DateTime) (actor : PyStr)
      (evidence : Option (List (MappingKey × PyValue))) (expectedVersion : Option ℤ)
  | transitionById (transitionId : PyStr) (occurredAt : DateTime) (actor : PyStr)
      (evidence : Option (List (MappingKey × PyValue))) (expectedVersion : Option ℤ)

def apply (action : Action) : Call → Except PyError Action
  | .transition event occurredAt actor evidence expectedVersion =>
    transition action event occurredAt actor evidence expectedVersion
  | .transitionById transitionId occurredAt actor evidence expectedVersion =>
    transitionById action transitionId occurredAt actor evidence expectedVersion

/-- The action the caller goes on with: a refused call leaves it the one it had. -/
def step (action : Action) (call : Call) : Action := (apply action call).toOption.getD action

/-- The entries link up from one hash and state to another, the first of them at `version`. -/
def Linked (actionId : PyStr) : List ActionAuditEntry → ℕ → PyStr → ActionState → PyStr → ActionState → Prop
  | [], _, hash, state, finalHash, finalState => hash = finalHash ∧ state = finalState
  | entry :: rest, version, hash, state, finalHash, finalState =>
    entry.previousHash = hash ∧ entry.source = state ∧
      canonicalSha256 (entryPayload actionId entry version) = .ok entry.entryHash ∧
      Linked actionId rest (version + 1) entry.entryHash entry.target finalHash finalState

theorem Linked.snoc {actionId : PyStr} {history : List ActionAuditEntry} {version : ℕ} {hash finalHash : PyStr}
    {state finalState : ActionState} (h : Linked actionId history version hash state finalHash finalState)
    {entry : ActionAuditEntry} (hprevious : entry.previousHash = finalHash) (hsource : entry.source = finalState)
    (hdigest : canonicalSha256 (entryPayload actionId entry (version + history.length)) = .ok entry.entryHash) :
    Linked actionId (history ++ [entry]) version hash state entry.entryHash entry.target := by
  induction history generalizing version hash state with
  | nil =>
    obtain ⟨rfl, rfl⟩ := h
    rw [List.length_nil, Nat.add_zero] at hdigest
    exact ⟨hprevious, hsource, hdigest, rfl, rfl⟩
  | cons first rest ih =>
    obtain ⟨h1, h2, h3, h4⟩ := h
    have hindex : version + (first :: rest).length = version + 1 + rest.length := by
      rw [List.length_cons]
      omega
    rw [hindex] at hdigest
    exact ⟨h1, h2, h3, ih h4 hdigest⟩

theorem Linked.verifyEntries {action : Action} {entries : List ActionAuditEntry} {version : ℕ} {hash finalHash : PyStr}
    {state finalState : ActionState} (h : Linked action.actionId entries version hash state finalHash finalState) :
    verifyEntries action entries version hash state =
      .ok (decide (action.version = action.history.length) && decide (action.state = finalState)) := by
  induction entries generalizing version hash state with
  | nil =>
    obtain ⟨-, rfl⟩ := h
    rfl
  | cons entry rest ih =>
    obtain ⟨hprevious, hsource, hdigest, hrest⟩ := h
    rw [ActionFSM.verifyEntries, if_neg (by simp [hprevious, hsource]), hdigest]
    simpa [bind, Except.bind] using ih hrest

/-- What every transition keeps. -/
structure Audited (action : Action) : Prop where
  counted : action.version = action.history.length
  linked : Linked action.actionId action.history 1 genesisHash .draft (lastHash action.history) action.state
  ordered : (action.history.map (·.instant)).IsChain (· ≤ ·)
  running : ∀ entry ∈ action.history, entry.target = .running → InWindow action entry.instant

theorem Audited.verifyHistory {action : Action} (h : Audited action) : verifyHistory action = .ok true := by
  rw [ActionFSM.verifyHistory, h.linked.verifyEntries]
  simp [h.counted]

theorem audited_create {actionId : PyStr} {notBefore expiresAt : Option DateTime} {action : Action}
    (h : Action.create actionId notBefore expiresAt = .ok action) : Audited action := by
  unfold Action.create at h
  split_ifs at h with hid
  obtain ⟨start, -, h⟩ := bind_eq_ok.1 h
  obtain ⟨stop, -, h⟩ := bind_eq_ok.1 h
  split_ifs at h
  cases h
  exact ⟨rfl, ⟨rfl, rfl⟩, List.isChain_nil, by simp⟩

theorem Audited.continue {action : Action} (h : Audited action) {entry : ActionAuditEntry}
    (hc : Continues action entry) : Audited { action with
      state := entry.target, version := action.version + 1, history := action.history ++ [entry] } := by
  refine ⟨?_, ?_, ?_, ?_⟩
  · simp [h.counted]
  · have hdigest := hc.digest
    rw [h.counted, Nat.add_comm] at hdigest
    have hlast : lastHash (action.history ++ [entry]) = entry.entryHash := by simp [lastHash]
    rw [hlast]
    exact h.linked.snoc hc.previous hc.source hdigest
  · rw [List.map_append, List.map_singleton]
    refine List.isChain_append.mpr ⟨h.ordered, List.isChain_singleton _, ?_⟩
    intro x hx y hy
    rw [List.head?_singleton, Option.mem_def, Option.some.injEq] at hy
    rw [List.getLast?_map, Option.mem_def, Option.map_eq_some_iff] at hx
    obtain ⟨last, hlast, rfl⟩ := hx
    rw [← hy]
    exact hc.ordered last hlast
  · intro e he htarget
    rcases List.mem_append.mp he with hold | hnew
    · exact h.running e hold htarget
    · rw [List.mem_singleton.mp hnew] at htarget ⊢
      exact hc.running htarget

theorem Audited.step {action : Action} (h : Audited action) (call : Call) : Audited (step action call) := by
  unfold ActionFSM.step
  cases hresult : apply action call with
  | error e => exact h
  | ok next =>
    have htransition : ∃ event occurredAt actor evidence expectedVersion,
        transition action event occurredAt actor evidence expectedVersion = .ok next := by
      cases call with
      | transition event occurredAt actor evidence expectedVersion => exact ⟨_, _, _, _, _, hresult⟩
      | transitionById transitionId occurredAt actor evidence expectedVersion =>
        obtain ⟨event, hevent⟩ := transitionById_cases hresult
        exact ⟨_, _, _, _, _, hevent⟩
    obtain ⟨_, _, _, _, _, hok⟩ := htransition
    obtain ⟨entry, hentry, rfl⟩ := transition_cases hok
    exact h.continue hentry

/-- **The audit history of an action always verifies.** From a fresh draft, after any
sequence of transition calls, accepted or refused, with any events, instants, actors and
evidence: the hash chain verifies, the version counts the history, the recorded instants
never go back, and every entry into RUNNING lies in the action's window. -/
theorem action_history_verified {actionId : PyStr} {notBefore expiresAt : Option DateTime} {action : Action}
    (h : Action.create actionId notBefore expiresAt = .ok action) (calls : List Call) :
    verifyHistory (run step action calls) = .ok true ∧
    (run step action calls).version = (run step action calls).history.length ∧
    ((run step action calls).history.map (·.instant)).Pairwise (· ≤ ·) ∧
    ∀ entry ∈ (run step action calls).history, entry.target = .running →
      InWindow (run step action calls) entry.instant := by
  have haudited : Audited (run step action calls) :=
    run_induction (fun _ call h => h.step call) (audited_create h) calls
  exact ⟨haudited.verifyHistory, haudited.counted, List.isChain_iff_pairwise.mp haudited.ordered, haudited.running⟩

def sampleDraft : Action := ⟨py "a", .draft, 0, some 0, some 10, [], by decide, by decide⟩

def sampleSubmit : Call :=
  .transition (py "SUBMIT") (.utc 1) (py "operator") (some [(.str (py "steps"), .list [.int 1, .none])]) none

theorem sampleDraft_created :
    Action.create (py "a") (some (.utc 0)) (some (.utc 10)) = .ok sampleDraft := rfl

theorem action_history_verified_submit :
    (run step sampleDraft [sampleSubmit]).history.length = 1 ∧
    verifyHistory (run step sampleDraft [sampleSubmit]) = .ok true :=
  ⟨by decide, (action_history_verified sampleDraft_created [sampleSubmit]).1⟩

end ActionFSM
end OcorRuntime.Actions
