import OcorRuntime.Foundations.Run
import OcorRuntime.Safety.EmergencyStop

/-! The reconciliation of ambiguous outcomes (`OutcomeReconciler` in `c6/safety.py`): two
operations record an ambiguous outcome whatever is recorded, the other two go on from it.
An ambiguous outcome stays blocked, and an opened adjudication final, exactly in the runs
that record no new ambiguity over them. -/
namespace OcorRuntime.Safety
set_option autoImplicit false
set_option maxHeartbeats 250000

inductive OutcomeStatus
  | confirmed
  | failed
  | unknown
  | indeterminate
  | compensated
  | compensationFailed
  | compensationUnknown
  | compensationIndeterminate
deriving DecidableEq

namespace OutcomeStatus

def value : OutcomeStatus → String
  | confirmed => "EXECUTION_CONFIRMED"
  | failed => "EXECUTION_FAILED"
  | unknown => "EXECUTION_UNKNOWN"
  | indeterminate => "EXECUTION_INDETERMINATE"
  | compensated => "COMPENSATED"
  | compensationFailed => "COMPENSATION_FAILED"
  | compensationUnknown => "COMPENSATION_UNKNOWN"
  | compensationIndeterminate => "COMPENSATION_INDETERMINATE"

/-- `_AMBIGUOUS_STATUSES`. -/
def ambiguousStatuses : List OutcomeStatus := [unknown, compensationUnknown, indeterminate, compensationIndeterminate]

/-- `_RESOLVABLE_STATUSES`. -/
def resolvableStatuses : List OutcomeStatus := [unknown, compensationUnknown]

/-- The statuses in which adjudication is open. -/
def adjudicatedStatuses : List OutcomeStatus := [indeterminate, compensationIndeterminate]

/-- What evidence resolves a status to. -/
def resolved (status : OutcomeStatus) (effectConfirmed : Bool) : OutcomeStatus :=
  if status = unknown then (if effectConfirmed then confirmed else failed)
  else if effectConfirmed then compensated else compensationFailed

/-- What a passed deadline escalates a status to. -/
def escalated (status : OutcomeStatus) : OutcomeStatus :=
  if status = unknown then indeterminate else compensationIndeterminate

end OutcomeStatus

structure ReconciliationRecord where
  commandId : PyStr
  status : OutcomeStatus
  idempotentEffectProven : Bool
  recordedAt : Instant
  note : PyStr
deriving DecidableEq

structure OutcomeReconciler where
  records : Dict PyStr ReconciliationRecord

namespace OutcomeReconciler

def create : OutcomeReconciler := ⟨.empty⟩

def requireRecord (r : OutcomeReconciler) (commandId : PyStr) : Except PyError ReconciliationRecord :=
  orRaise (r.records.get? commandId)
    (safetyError "UNKNOWN_COMMAND" "no reconciliation record for %r" [.text commandId])

def status (r : OutcomeReconciler) (commandId : PyStr) : Except PyError OutcomeStatus := do
  let record ← r.requireRecord commandId
  return record.status

def record (r : OutcomeReconciler) (record : ReconciliationRecord) : OutcomeReconciler :=
  ⟨r.records.set record.commandId record⟩

/-- `mark_ambiguous` and `mark_compensation_ambiguous`, which differ in the status. -/
def mark (status : OutcomeStatus) (r : OutcomeReconciler) (commandId : PyStr) (idempotentEffectProven : Bool)
    (instant : DateTime) (note : PyStr) : Except PyError ReconciliationRecord × OutcomeReconciler :=
  match requireAware instant "at" with
  | .error e => (.error e, r)
  | .ok t =>
    let marked : ReconciliationRecord := ⟨commandId, status, idempotentEffectProven, t, note⟩
    (.ok marked, r.record marked)

def markAmbiguous : OutcomeReconciler → PyStr → Bool → DateTime → PyStr →
    Except PyError ReconciliationRecord × OutcomeReconciler := mark .unknown

def markCompensationAmbiguous : OutcomeReconciler → PyStr → Bool → DateTime → PyStr →
    Except PyError ReconciliationRecord × OutcomeReconciler := mark .compensationUnknown

/-- The record of a command whose outcome is still open. -/
def requireResolvable (r : OutcomeReconciler) (commandId : PyStr) (refusal : String) :
    Except PyError ReconciliationRecord := do
  let previous ← r.requireRecord commandId
  refuseIf (previous.status ∉ OutcomeStatus.resolvableStatuses)
    (safetyError "INVALID_RECONCILIATION_TRANSITION" refusal [.text (py previous.status.value)])
  return previous

def resolveWithEvidence (r : OutcomeReconciler) (commandId : PyStr) (effectConfirmed : Bool) (instant : DateTime) :
    Except PyError ReconciliationRecord × OutcomeReconciler :=
  match requireAware instant "at" with
  | .error e => (.error e, r)
  | .ok t =>
    match r.requireResolvable commandId "cannot resolve from %s" with
    | .error e => (.error e, r)
    | .ok previous =>
      let resolved : ReconciliationRecord := ⟨commandId, previous.status.resolved effectConfirmed,
        previous.idempotentEffectProven, t, py "resolved by Evidence"⟩
      (.ok resolved, r.record resolved)

/-- The deadline is compared with the instant after both are known to be aware. -/
def escalateIfDeadlinePassed (r : OutcomeReconciler) (commandId : PyStr) (instant deadline : DateTime) :
    Except PyError ReconciliationRecord × OutcomeReconciler :=
  match requireAware instant "at", requireAware deadline "deadline" with
  | .error e, _ => (.error e, r)
  | _, .error e => (.error e, r)
  | .ok t, .ok limit =>
    match r.requireResolvable commandId "cannot escalate from %s" with
    | .error e => (.error e, r)
    | .ok previous =>
      if t < limit then (.ok previous, r)
      else
        let escalated : ReconciliationRecord := ⟨commandId, previous.status.escalated, previous.idempotentEffectProven, t,
          py "reconciliation deadline passed; adjudication opened"⟩
        (.ok escalated, r.record escalated)

/-- The record blocks an automatic retry. -/
def Blocking (record : ReconciliationRecord) : Prop :=
  record.status ∈ OutcomeStatus.ambiguousStatuses ∧ record.idempotentEffectProven = false

instance : DecidablePred Blocking := fun _ => inferInstanceAs (Decidable (_ ∧ _))

def requireMayAutoRetry (r : OutcomeReconciler) (commandId : PyStr) : Except PyError Unit :=
  match r.records.get? commandId with
  | none => .ok ()
  | some record => refuseIf (Blocking record) (safetyError "AUTO_RETRY_BLOCKED_AMBIGUOUS_NON_IDEMPOTENT"
      "%r has an ambiguous, non-idempotent-proven outcome and cannot be auto-retried" [.text commandId])

/-! ## Steps -/

inductive Call
  | markAmbiguous (commandId : PyStr) (idempotentEffectProven : Bool) (instant : DateTime) (note : PyStr)
  | markCompensationAmbiguous (commandId : PyStr) (idempotentEffectProven : Bool) (instant : DateTime) (note : PyStr)
  | resolveWithEvidence (commandId : PyStr) (effectConfirmed : Bool) (instant : DateTime)
  | escalateIfDeadlinePassed (commandId : PyStr) (instant deadline : DateTime)

def perform (r : OutcomeReconciler) : Call → Except PyError ReconciliationRecord × OutcomeReconciler
  | .markAmbiguous commandId proven instant note => r.markAmbiguous commandId proven instant note
  | .markCompensationAmbiguous commandId proven instant note => r.markCompensationAmbiguous commandId proven instant note
  | .resolveWithEvidence commandId confirmed instant => r.resolveWithEvidence commandId confirmed instant
  | .escalateIfDeadlinePassed commandId instant deadline => r.escalateIfDeadlinePassed commandId instant deadline

def step (r : OutcomeReconciler) (call : Call) : OutcomeReconciler := (r.perform call).2

/-- The call records a new ambiguity of the command. -/
def Call.Marks (call : Call) (commandId : PyStr) (proven : Bool) : Prop :=
  ∃ instant note, instant.Aware ∧ (call = .markAmbiguous commandId proven instant note ∨
    call = .markCompensationAmbiguous commandId proven instant note)

/-- The call resolves the command. -/
def Resolves (r : OutcomeReconciler) (commandId : PyStr) (call : Call) : Prop :=
  ∃ confirmed instant record, call = .resolveWithEvidence commandId confirmed instant ∧ (r.perform call).1 = .ok record

/-- What a call may do to the record of a command. -/
inductive Change (r : OutcomeReconciler) (call : Call) (commandId : PyStr) : Option ReconciliationRecord → Prop
  | same : Change r call commandId (r.records.get? commandId)
  | marked {record : ReconciliationRecord} (marks : call.Marks commandId record.idempotentEffectProven)
      (resolvable : record.status ∈ OutcomeStatus.resolvableStatuses) : Change r call commandId (some record)
  | resolved {previous record : ReconciliationRecord} (held : r.records.get? commandId = some previous)
      (resolvable : previous.status ∈ OutcomeStatus.resolvableStatuses) (resolves : Resolves r commandId call) :
      Change r call commandId (some record)
  | escalated {previous record : ReconciliationRecord} (held : r.records.get? commandId = some previous)
      (resolvable : previous.status ∈ OutcomeStatus.resolvableStatuses)
      (adjudicated : record.status ∈ OutcomeStatus.adjudicatedStatuses)
      (proven : record.idempotentEffectProven = previous.idempotentEffectProven) : Change r call commandId (some record)

theorem requireResolvable_eq_ok {r : OutcomeReconciler} {commandId : PyStr} {refusal : String}
    {previous : ReconciliationRecord} (h : r.requireResolvable commandId refusal = .ok previous) :
    r.records.get? commandId = some previous ∧ previous.status ∈ OutcomeStatus.resolvableStatuses := by
  obtain ⟨found, hfound, h⟩ := bind_eq_ok.1 h
  obtain ⟨hresolvable, h⟩ := check_bind_eq_ok.1 h
  cases h
  exact ⟨orRaise_eq_ok.1 hfound, not_not.mp (refuseIf_eq_ok.1 hresolvable)⟩

theorem get?_record (r : OutcomeReconciler) (record : ReconciliationRecord) (commandId : PyStr) :
    (r.record record).records.get? commandId =
      if record.commandId = commandId then some record else r.records.get? commandId :=
  Dict.get?_set r.records record.commandId commandId record

theorem escalated_adjudicated (status : OutcomeStatus) : status.escalated ∈ OutcomeStatus.adjudicatedStatuses := by
  cases status <;> decide

theorem mark_cases (status : OutcomeStatus) (r : OutcomeReconciler) (commandId : PyStr) (proven : Bool)
    (instant : DateTime) (note : PyStr) :
    (¬ instant.Aware ∧ (mark status r commandId proven instant note).2 = r) ∨
      instant.Aware ∧ ∃ t, (mark status r commandId proven instant note).2 = r.record ⟨commandId, status, proven, t, note⟩ := by
  unfold mark
  cases haware : requireAware instant "at" with
  | error e =>
    refine .inl ⟨fun h => ?_, rfl⟩
    rw [requireAware_eq_ok.2 ⟨h, rfl⟩] at haware
    cases haware
  | ok t => exact .inr ⟨(requireAware_eq_ok.1 haware).1, t, rfl⟩

theorem resolveWithEvidence_cases (r : OutcomeReconciler) (commandId : PyStr) (confirmed : Bool) (instant : DateTime) :
    (∃ e, r.resolveWithEvidence commandId confirmed instant = (.error e, r)) ∨ ∃ previous record,
      r.records.get? commandId = some previous ∧ previous.status ∈ OutcomeStatus.resolvableStatuses ∧
        record.commandId = commandId ∧ record.status = previous.status.resolved confirmed ∧
        r.resolveWithEvidence commandId confirmed instant = (.ok record, r.record record) := by
  unfold resolveWithEvidence
  cases requireAware instant "at" with
  | error e => exact .inl ⟨e, rfl⟩
  | ok t =>
    dsimp only
    cases hprevious : r.requireResolvable commandId "cannot resolve from %s" with
    | error e => exact .inl ⟨e, rfl⟩
    | ok previous =>
      obtain ⟨hheld, hresolvable⟩ := requireResolvable_eq_ok hprevious
      exact .inr ⟨previous, _, hheld, hresolvable, rfl, rfl, rfl⟩

theorem escalateIfDeadlinePassed_cases (r : OutcomeReconciler) (commandId : PyStr) (instant deadline : DateTime) :
    (r.escalateIfDeadlinePassed commandId instant deadline).2 = r ∨ ∃ previous record,
      r.records.get? commandId = some previous ∧ previous.status ∈ OutcomeStatus.resolvableStatuses ∧
        record.commandId = commandId ∧ record.status = previous.status.escalated ∧
        record.idempotentEffectProven = previous.idempotentEffectProven ∧
        (r.escalateIfDeadlinePassed commandId instant deadline).2 = r.record record := by
  unfold escalateIfDeadlinePassed
  cases requireAware instant "at" with
  | error e => exact .inl rfl
  | ok t =>
    cases requireAware deadline "deadline" with
    | error e => exact .inl rfl
    | ok limit =>
      dsimp only
      cases hprevious : r.requireResolvable commandId "cannot escalate from %s" with
      | error e => exact .inl rfl
      | ok previous =>
        dsimp only
        obtain ⟨hheld, hresolvable⟩ := requireResolvable_eq_ok hprevious
        split_ifs with hdeadline
        · exact .inl rfl
        · refine .inr ⟨previous, ⟨commandId, previous.status.escalated, previous.idempotentEffectProven, t, _⟩, hheld,
            hresolvable, rfl, rfl, rfl, rfl⟩

theorem change_mark {r : OutcomeReconciler} {call : Call} {commandId id : PyStr} {status : OutcomeStatus} {proven : Bool}
    {instant : DateTime} {note : PyStr} (hstatus : status ∈ OutcomeStatus.resolvableStatuses)
    (hcall : call = .markAmbiguous id proven instant note ∨ call = .markCompensationAmbiguous id proven instant note) :
    Change r call commandId ((mark status r id proven instant note).2.records.get? commandId) := by
  rcases mark_cases status r id proven instant note with ⟨-, h⟩ | ⟨haware, t, h⟩
  · rw [h]
    exact .same
  · rw [h, get?_record]
    split_ifs with hid
    · dsimp only at hid
      subst hid
      exact .marked ⟨instant, note, haware, hcall⟩ hstatus
    · exact .same

theorem step_change (r : OutcomeReconciler) (call : Call) (commandId : PyStr) :
    Change r call commandId ((r.step call).records.get? commandId) := by
  cases call with
  | markAmbiguous id proven instant note => exact change_mark (by decide) (.inl rfl)
  | markCompensationAmbiguous id proven instant note => exact change_mark (by decide) (.inr rfl)
  | resolveWithEvidence id confirmed instant =>
    rcases r.resolveWithEvidence_cases id confirmed instant with ⟨e, h⟩ | ⟨previous, record, hheld, hresolvable, hrecord, -, h⟩
    · rw [show r.step (.resolveWithEvidence id confirmed instant) = r from congrArg Prod.snd h]
      exact .same
    · rw [show r.step (.resolveWithEvidence id confirmed instant) = r.record record from congrArg Prod.snd h, get?_record]
      split_ifs with hid
      · rw [← hid, hrecord]
        exact .resolved hheld hresolvable ⟨confirmed, instant, record, rfl, congrArg Prod.fst h⟩
      · exact .same
  | escalateIfDeadlinePassed id instant deadline =>
    rcases r.escalateIfDeadlinePassed_cases id instant deadline with
      h | ⟨previous, record, hheld, hresolvable, hrecord, hstatus, hproven, h⟩
    · rw [show r.step (.escalateIfDeadlinePassed id instant deadline) = r from h]
      exact .same
    · rw [show r.step (.escalateIfDeadlinePassed id instant deadline) = r.record record from h, get?_record]
      split_ifs with hid
      · rw [← hid, hrecord]
        exact .escalated hheld hresolvable (hstatus ▸ escalated_adjudicated _) hproven
      · exact .same

/-! ## What a run keeps -/

/-- An automatic retry of the command is refused. -/
def Blocked (r : OutcomeReconciler) (commandId : PyStr) : Prop := ∃ record ∈ r.records.get? commandId, Blocking record

theorem requireMayAutoRetry_eq_ok {r : OutcomeReconciler} {commandId : PyStr} :
    r.requireMayAutoRetry commandId = .ok () ↔ ¬ r.Blocked commandId := by
  unfold requireMayAutoRetry Blocked
  cases r.records.get? commandId with
  | none => simp
  | some record => simp [refuseIf_eq_ok]

/-- Adjudication of the command is open. -/
def Adjudicated (r : OutcomeReconciler) (commandId : PyStr) : Prop :=
  ∃ record ∈ r.records.get? commandId, record.status ∈ OutcomeStatus.adjudicatedStatuses

/-- A new ambiguity is recorded neither over an opened adjudication nor, as proven idempotent,
over a blocked command. -/
def Orderly (r : OutcomeReconciler) (call : Call) : Prop :=
  ∀ commandId proven, call.Marks commandId proven → ¬ r.Adjudicated commandId ∧ (r.Blocked commandId → proven = false)

/-- No call of the run resolves the command. -/
def Unresolved (commandId : PyStr) : OutcomeReconciler → List Call → Prop :=
  AllSteps step fun r call => ¬ Resolves r commandId call

/-- In every run that starts with these calls' beginning: a command recorded as ambiguous and
not proven idempotent is blocked until it is resolved, and the record of a command in
adjudication does not change any more. -/
def StaysClosed (calls : List Call) : Prop :=
  (∀ before recording after rest commandId, calls = before ++ recording :: after ++ rest →
    recording.Marks commandId false → Unresolved commandId (run step create (before ++ [recording])) after →
      (run step create (before ++ recording :: after)).requireMayAutoRetry commandId ≠ .ok ()) ∧
  ∀ before after rest commandId, calls = before ++ after ++ rest → (run step create before).Adjudicated commandId →
    (run step create (before ++ after)).records.get? commandId = (run step create before).records.get? commandId

theorem ambiguous_of_resolvable {status : OutcomeStatus} (h : status ∈ OutcomeStatus.resolvableStatuses) :
    status ∈ OutcomeStatus.ambiguousStatuses := by
  revert h
  cases status <;> decide

theorem ambiguous_of_adjudicated {status : OutcomeStatus} (h : status ∈ OutcomeStatus.adjudicatedStatuses) :
    status ∈ OutcomeStatus.ambiguousStatuses := by
  revert h
  cases status <;> decide

theorem not_resolvable_of_adjudicated {status : OutcomeStatus} (h : status ∈ OutcomeStatus.adjudicatedStatuses) :
    status ∉ OutcomeStatus.resolvableStatuses := by
  revert h
  cases status <;> decide

section Steps
variable {r : OutcomeReconciler} {call : Call} {commandId : PyStr}

theorem blocked_step (horderly : r.Orderly call) (hblocked : r.Blocked commandId)
    (hresolve : ¬ Resolves r commandId call) : (r.step call).Blocked commandId := by
  obtain ⟨record, hrecord, hblocking⟩ := hblocked
  have hchange := r.step_change call commandId
  unfold Blocked
  generalize (r.step call).records.get? commandId = after at hchange ⊢
  cases hchange with
  | same => exact ⟨record, hrecord, hblocking⟩
  | @marked marked marks resolvable =>
    have hproven := (horderly commandId _ marks).2 ⟨record, hrecord, hblocking⟩
    exact ⟨marked, rfl, ambiguous_of_resolvable resolvable, hproven⟩
  | resolved held resolvable resolves => exact absurd resolves hresolve
  | @escalated previous escalated held resolvable adjudicated proven =>
    rw [held] at hrecord
    cases hrecord
    exact ⟨escalated, rfl, ambiguous_of_adjudicated adjudicated, proven.trans hblocking.2⟩

theorem adjudicated_step (horderly : r.Orderly call) (hadjudicated : r.Adjudicated commandId) :
    (r.step call).records.get? commandId = r.records.get? commandId := by
  have hchange := r.step_change call commandId
  obtain ⟨record, hrecord, hstatus⟩ := hadjudicated
  generalize (r.step call).records.get? commandId = after at hchange ⊢
  cases hchange with
  | same => rfl
  | marked marks resolvable => exact absurd ⟨record, hrecord, hstatus⟩ (horderly commandId _ marks).1
  | resolved held resolvable resolves =>
    rw [held] at hrecord
    cases hrecord
    exact absurd resolvable (not_resolvable_of_adjudicated hstatus)
  | escalated held resolvable adjudicated proven =>
    rw [held] at hrecord
    cases hrecord
    exact absurd resolvable (not_resolvable_of_adjudicated hstatus)

theorem get?_of_marks {proven : Bool} (hmarks : call.Marks commandId proven) :
    ∃ record ∈ (r.step call).records.get? commandId, record.status ∈ OutcomeStatus.resolvableStatuses ∧
      record.idempotentEffectProven = proven := by
  obtain ⟨instant, note, haware, hcall⟩ := hmarks
  have hmarked (status : OutcomeStatus) (hstatus : status ∈ OutcomeStatus.resolvableStatuses) :
      ∃ record ∈ (mark status r commandId proven instant note).2.records.get? commandId,
        record.status ∈ OutcomeStatus.resolvableStatuses ∧ record.idempotentEffectProven = proven := by
    rcases mark_cases status r commandId proven instant note with ⟨hnot, -⟩ | ⟨-, t, h⟩
    · exact absurd haware hnot
    · rw [h, get?_record, if_pos rfl]
      exact ⟨_, rfl, hstatus, rfl⟩
  rcases hcall with rfl | rfl
  · exact hmarked .unknown (by decide)
  · exact hmarked .compensationUnknown (by decide)

theorem resolved_not_ambiguous (status : OutcomeStatus) (confirmed : Bool) :
    status.resolved confirmed ∉ OutcomeStatus.ambiguousStatuses := by
  cases status <;> cases confirmed <;> decide

theorem not_blocked_of_resolves (hresolves : Resolves r commandId call) : ¬ (r.step call).Blocked commandId := by
  obtain ⟨confirmed, instant, record, rfl, hok⟩ := hresolves
  have hperform : r.perform (.resolveWithEvidence commandId confirmed instant) =
    r.resolveWithEvidence commandId confirmed instant := rfl
  rintro ⟨held, hheld, hblocking⟩
  rcases r.resolveWithEvidence_cases commandId confirmed instant with ⟨e, h⟩ | ⟨previous, record', -, -, hid, hstatus, h⟩
  · rw [hperform, h] at hok
    cases hok
  · rw [show r.step (.resolveWithEvidence commandId confirmed instant) = r.record record' from congrArg Prod.snd h,
      get?_record, if_pos hid] at hheld
    cases hheld
    rw [Blocking, hstatus] at hblocking
    exact resolved_not_ambiguous _ _ hblocking.1

/-- A command is blocked after a call that records it so, or was blocked before and is not resolved. -/
theorem blocked_of_step (hblocked : (r.step call).Blocked commandId) :
    call.Marks commandId false ∨ r.Blocked commandId ∧ ¬ Resolves r commandId call := by
  have hresolve : ¬ Resolves r commandId call := fun h => not_blocked_of_resolves h hblocked
  have hchange := r.step_change call commandId
  obtain ⟨record, hrecord, hblocking⟩ := hblocked
  generalize (r.step call).records.get? commandId = after at hchange hrecord
  cases hchange with
  | same => exact .inr ⟨⟨record, hrecord, hblocking⟩, hresolve⟩
  | marked marks resolvable =>
    cases hrecord
    rw [hblocking.2] at marks
    exact .inl marks
  | resolved held resolvable resolves => exact absurd resolves hresolve
  | escalated held resolvable adjudicated proven =>
    cases hrecord
    exact .inr ⟨⟨_, held, ambiguous_of_resolvable resolvable, proven.symm.trans hblocking.2⟩, hresolve⟩

end Steps

/-! ## Runs -/

/-- A blocked command has been recorded as ambiguous, and not been resolved since. -/
theorem recorded_of_blocked (calls : List Call) (commandId : PyStr) (h : (run step create calls).Blocked commandId) :
    ∃ before recording after, calls = before ++ recording :: after ∧ recording.Marks commandId false ∧
      Unresolved commandId (run step create (before ++ [recording])) after := by
  -- by induction on the calls from the last one back
  induction calls using List.reverseRecOn with
  | nil =>
    obtain ⟨record, hrecord, -⟩ := h
    cases hrecord
  | append_singleton calls call ih =>
    rw [run_append] at h
    rcases blocked_of_step h with hmarks | ⟨hblocked, hresolve⟩
    · exact ⟨calls, call, [], rfl, hmarks, trivial⟩
    · obtain ⟨before, recording, after, rfl, hmarks, hunresolved⟩ := ih hblocked
      refine ⟨before, recording, after ++ [call], by simp, hmarks, ?_⟩
      unfold Unresolved at hunresolved ⊢
      rw [allSteps_append]
      refine ⟨hunresolved, ?_, trivial⟩
      rwa [← run_append, List.append_assoc, List.singleton_append]

/-- From a state in which a command is blocked, orderly calls that do not resolve it keep it so. -/
theorem blocked_run {r : OutcomeReconciler} {commandId : PyStr} {calls : List Call} (h : r.Blocked commandId)
    (horderly : AllSteps step Orderly r calls) (hunresolved : Unresolved commandId r calls) :
    (run step r calls).Blocked commandId := by
  induction calls generalizing r with
  | nil => exact h
  | cons call calls ih => exact ih (blocked_step horderly.1 h hunresolved.1) horderly.2 hunresolved.2

theorem adjudicated_run {r : OutcomeReconciler} {commandId : PyStr} {calls : List Call} (h : r.Adjudicated commandId)
    (horderly : AllSteps step Orderly r calls) :
    (run step r calls).records.get? commandId = r.records.get? commandId := by
  induction calls generalizing r with
  | nil => rfl
  | cons call calls ih =>
    have hsame := adjudicated_step horderly.1 h
    rw [run_cons, ih ?_ horderly.2, hsame]
    obtain ⟨record, hrecord, hstatus⟩ := h
    exact ⟨record, hsame ▸ hrecord, hstatus⟩

theorem staysClosed_of_orderly {calls : List Call} (h : AllSteps step Orderly create calls) : StaysClosed calls := by
  refine ⟨fun before recording after rest commandId hcalls hmarks hunresolved => ?_,
    fun before after rest commandId hcalls hadjudicated => ?_⟩
  · have hsplit : calls = (before ++ [recording]) ++ after ++ rest := by simpa using hcalls
    rw [hsplit, allSteps_append, allSteps_append] at h
    have hblocked : (run step create (before ++ [recording])).Blocked commandId := by
      obtain ⟨record, hrecord, hstatus, hproven⟩ := get?_of_marks (r := run step create before) hmarks
      rw [run_append]
      exact ⟨record, hrecord, ambiguous_of_resolvable hstatus, hproven⟩
    have hafter := blocked_run hblocked h.1.2 hunresolved
    rw [← run_append, List.append_assoc, List.singleton_append] at hafter
    exact fun hok => requireMayAutoRetry_eq_ok.1 hok hafter
  · rw [hcalls, allSteps_append, allSteps_append] at h
    rw [run_append]
    exact adjudicated_run hadjudicated h.1.2

theorem orderly_of_staysClosed {calls : List Call} (h : StaysClosed calls) : AllSteps step Orderly create calls := by
  refine allSteps_of_split fun before call rest hcalls commandId proven hmarks => ⟨fun hadjudicated => ?_, fun hblocked => ?_⟩
  · have hsame := h.2 before [call] rest commandId (by simpa using hcalls) hadjudicated
    obtain ⟨record, hrecord, hstatus, -⟩ := get?_of_marks (r := run step create before) hmarks
    obtain ⟨held, hheld, hadjudicated⟩ := hadjudicated
    rw [run_append] at hsame
    rw [show step (run step create before) call = run step (run step create before) [call] from rfl, hsame, hheld] at hrecord
    cases hrecord
    exact not_resolvable_of_adjudicated hadjudicated hstatus
  · obtain ⟨first, recording, after, rfl, hfirst, hunresolved⟩ := recorded_of_blocked before commandId hblocked
    by_contra hproven
    rw [Bool.not_eq_false] at hproven
    subst hproven
    refine h.1 first recording (after ++ [call]) rest commandId (by simpa using hcalls) hfirst ?_ ?_
    · unfold Unresolved at hunresolved ⊢
      rw [allSteps_append]
      refine ⟨hunresolved, fun hresolves => ?_, trivial⟩
      obtain ⟨confirmed, instant, record, rfl, -⟩ := hresolves
      obtain ⟨instant, note, -, hcall | hcall⟩ := hmarks
      · cases hcall
      · cases hcall
    · rw [requireMayAutoRetry_eq_ok]
      obtain ⟨record, hrecord, hstatus, hproven⟩ :=
        get?_of_marks (r := run step create (first ++ recording :: after)) hmarks
      rintro ⟨held, hheld, hblocking⟩
      rw [← List.cons_append, ← List.append_assoc, run_append] at hheld
      rw [show step (run step create (first ++ recording :: after)) call =
        run step (run step create (first ++ recording :: after)) [call] from rfl, hheld] at hrecord
      cases hrecord
      rw [hblocking.2] at hproven
      cases hproven

/-- **An ambiguous outcome stays blocked, and an opened adjudication final, in exactly the runs**
of the four operations that record no ambiguity of a command in adjudication, and none as
proven idempotent of a command that is blocked. -/
theorem staysClosed_iff (calls : List Call) : StaysClosed calls ↔ AllSteps step Orderly create calls :=
  ⟨orderly_of_staysClosed, staysClosed_of_orderly⟩

/-- An ambiguous timeout, its escalation to adjudication, and a second ambiguous timeout. -/
def reopenedAdjudication : List Call :=
  [.markAmbiguous (py "cmd-1") false (.utc 0) (py "ambiguous timeout"),
    .escalateIfDeadlinePassed (py "cmd-1") (.utc 2) (.utc 1),
    .markAmbiguous (py "cmd-1") true (.utc 3) (py "ambiguous timeout")]

theorem reopenedAdjudication_not_staysClosed : ¬ StaysClosed reopenedAdjudication := by
  intro h
  have hretry := h.1 [] (reopenedAdjudication.head (by decide)) reopenedAdjudication.tail [] (py "cmd-1") rfl
    ⟨_, _, by decide, .inl rfl⟩ ⟨?_, ?_, trivial⟩
  · exact hretry (by decide)
  · rintro ⟨confirmed, instant, record, hcall, -⟩
    cases hcall
  · rintro ⟨confirmed, instant, record, hcall, -⟩
    cases hcall

end OutcomeReconciler
end OcorRuntime.Safety
