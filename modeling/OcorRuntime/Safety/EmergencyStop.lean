import Mathlib.Data.List.Dedup
import OcorRuntime.Canonical.Value
import OcorRuntime.Capabilities.Authority

/-! The emergency-stop controller (`c6/safety.py`): NORMAL, STOPPING, STOPPED,
RESET_PENDING and back, with an epoch that every accepted stop and every confirmed
reset moves on. Each operation returns its outcome and the controller it leaves. -/
namespace OcorRuntime.Safety
set_option autoImplicit false
set_option maxHeartbeats 250000

/-! ## Principals -/

/-- The part of an identity record the stop controller reads. -/
structure IdentityRecord where
  canonicalId : PyStr
  attributes : Dict PyStr PyValue

abbrev IdentityRegistry := Dict PyStr IdentityRecord

def isUpper (c : CodePoint) : Bool := 0x41 ≤ c.val && c.val ≤ 0x5A

def isRoleChar (c : CodePoint) : Bool := isUpper c || (0x30 ≤ c.val && c.val ≤ 0x39) || c.val == 0x5F

/-- A full match of `[A-Z][A-Z0-9_]*(?::\S+)?`. -/
def isRoleToken : PyStr → Bool
  | [] => false
  | c :: rest => isUpper c && match rest.dropWhile isRoleChar with
    | [] => true
    | d :: qualifier => d.val == 0x3A && !qualifier.isEmpty && qualifier.all fun x => !isSpace x

def activeHumanRoles (record : Option IdentityRecord) : Option (List PyStr) :=
  match record with
  | none => none
  | some record =>
    if record.attributes.get? (py "principal_kind") ≠ some (.str (py "HUMAN")) ∨
        record.attributes.get? (py "status") ≠ some (.str (py "ACTIVE")) then none
    else match record.attributes.get? (py "roles") with
      | some (.str raw) =>
        let tokens := if raw = [] then [] else raw.splitOn (codePoint 0x20)
        -- equal to the sorted set of its tokens: strictly increasing
        if tokens.Pairwise (· < ·) ∧ tokens.all isRoleToken then some tokens else none
      | _ => none

/-! ## The controller -/

inductive StopStatus
  | normal
  | stopping
  | stopped
  | resetPending
deriving DecidableEq

def StopStatus.value : StopStatus → String
  | normal => "NORMAL"
  | stopping => "STOPPING"
  | stopped => "STOPPED"
  | resetPending => "RESET_PENDING"

structure StopEvent where
  epoch : ℕ
  status : StopStatus
  reason : PyStr
  instant : Instant
deriving DecidableEq

structure EmergencyStopController where
  status : StopStatus
  epoch : ℕ
  history : List StopEvent
deriving DecidableEq

def safetyError (reasonCode message : String) (args : List ErrorArg) : PyError :=
  ⟨.safetyError reasonCode, reasonCode ++ ": " ++ message, args⟩

namespace EmergencyStopController

def create : EmergencyStopController := ⟨.normal, 0, []⟩

/-- One transition: refused outside `source`, else recorded in the history. -/
def transition (c : EmergencyStopController) (source target : StopStatus) (refusal : String) (advance : ℕ)
    (reason : PyStr) (instant : Instant) : Except PyError StopEvent × EmergencyStopController :=
  if c.status = source then
    let event : StopEvent := ⟨c.epoch + advance, target, reason, instant⟩
    (.ok event, ⟨target, c.epoch + advance, c.history ++ [event]⟩)
  else (.error (safetyError "INVALID_STOP_TRANSITION" refusal [.text (py c.status.value)]), c)

def activate (c : EmergencyStopController) (reason : PyStr) (instant : DateTime) :
    Except PyError StopEvent × EmergencyStopController :=
  match requireAware instant "at" with
  | .error e => (.error e, c)
  | .ok t =>
    if reason = [] then (.error ⟨.valueError, "an emergency stop requires a reason", []⟩, c)
    else c.transition .normal .stopping "cannot activate stop from %s" 1 reason t

def finishDraining (c : EmergencyStopController) (instant : DateTime) :
    Except PyError StopEvent × EmergencyStopController :=
  match requireAware instant "at" with
  | .error e => (.error e, c)
  | .ok t => c.transition .stopping .stopped "cannot finish draining from %s" 0 (py "drain complete") t

/-- `request_reset`; the event carries the local clock reading. -/
def requestReset (c : EmergencyStopController) (approvers : List PyStr) (identities : IdentityRegistry)
    (requester : PyStr) (now : Instant) : Except PyError StopEvent × EmergencyStopController :=
  if approvers.length ≠ 2 ∨ approvers.dedup.length ≠ 2 ∨ requester = [] ∨ requester ∈ approvers then
    (.error (safetyError "RESET_REQUIRES_DUAL_CONTROL"
      "reset requires two distinct human approvers, independent of the requester" []), c)
  else if c.status ≠ .stopped then
    (.error (safetyError "INVALID_STOP_TRANSITION" "cannot request reset from %s" [.text (py c.status.value)]), c)
  else if approvers.any fun principal => (activeHumanRoles (identities.get? principal)).isNone then
    (.error (safetyError "RESET_REQUIRES_DUAL_CONTROL"
      "reset approver is not a resolved active human with valid attributes" []), c)
  else c.transition .stopped .resetPending "cannot request reset from %s" 0 (py "reset requested") now

def confirmReset (c : EmergencyStopController) (instant : DateTime) :
    Except PyError StopEvent × EmergencyStopController :=
  match requireAware instant "at" with
  | .error e => (.error e, c)
  | .ok t =>
    c.transition .resetPending .normal "cannot confirm reset from %s" 1 (py "reset confirmed, new epoch issued") t

def guardDispatch (c : EmergencyStopController) (fencedEpoch : ℤ) : Except PyError Unit :=
  if c.status ≠ .normal then
    .error (safetyError "SYSTEM_NOT_NORMAL" "emergency stop is %s, dispatch is blocked" [.text (py c.status.value)])
  else if fencedEpoch ≠ c.epoch then
    .error (safetyError "STOP_EPOCH_STALE" "command fenced to epoch %d, current epoch is %d"
      [.int fencedEpoch, .int c.epoch])
  else .ok ()

/-- The controller as a capability authority reads it. -/
def view (c : EmergencyStopController) : Capabilities.StopEpochAuthority where
  epoch := c.epoch
  history := c.history.map fun e => ⟨e.epoch, .utc e.instant⟩
  guardDispatch := c.guardDispatch

/-! ## What an operation does -/

inductive Call
  | activate (reason : PyStr) (instant : DateTime)
  | finishDraining (instant : DateTime)
  | requestReset (approvers : List PyStr) (identities : IdentityRegistry) (requester : PyStr) (now : Instant)
  | confirmReset (instant : DateTime)

def apply (c : EmergencyStopController) : Call → Except PyError StopEvent × EmergencyStopController
  | .activate reason instant => c.activate reason instant
  | .finishDraining instant => c.finishDraining instant
  | .requestReset approvers identities requester now => c.requestReset approvers identities requester now
  | .confirmReset instant => c.confirmReset instant

/-- The three kinds of accepted transition: a stop, a step within the stop, a reset to a new epoch. -/
inductive Accepted (c : EmergencyStopController) : Call → StopEvent → EmergencyStopController → Prop
  | activated {reason : PyStr} {instant : DateTime} {t : Instant} (ht : requireAware instant "at" = .ok t)
      (hs : c.status = .normal) : Accepted c (.activate reason instant) ⟨c.epoch + 1, .stopping, reason, t⟩
        ⟨.stopping, c.epoch + 1, c.history ++ [⟨c.epoch + 1, .stopping, reason, t⟩]⟩
  | within {call : Call} {e : StopEvent} (hc : ∀ reason instant, call ≠ .activate reason instant)
      (hs : c.status ≠ .normal) (he : e.epoch = c.epoch) (ht : e.status ≠ .normal) :
      Accepted c call e ⟨e.status, c.epoch, c.history ++ [e]⟩
  | reset {instant : DateTime} {e : StopEvent} (hs : c.status ≠ .normal) (he : e.epoch = c.epoch + 1) :
      Accepted c (.confirmReset instant) e ⟨.normal, c.epoch + 1, c.history ++ [e]⟩

/-- From NORMAL only a stop is accepted; within a stop the epoch stays, or a reset moves it on. -/
theorem Accepted.epoch_cases {c after : EmergencyStopController} {call : Call} {e : StopEvent}
    (h : c.Accepted call e after) :
    (c.status = .normal ∧ (∃ reason instant, call = .activate reason instant) ∧ after.epoch = c.epoch + 1) ∨
      (c.status ≠ .normal ∧ (∀ reason instant, call ≠ .activate reason instant) ∧
        (after.epoch = c.epoch ∨ after.epoch = c.epoch + 1 ∧ after.status = .normal)) := by
  cases h with
  | activated ht hs => exact Or.inl ⟨hs, ⟨_, _, rfl⟩, rfl⟩
  | within hc hs he ht => exact Or.inr ⟨hs, hc, Or.inl rfl⟩
  | reset hs he => exact Or.inr ⟨hs, by simp, Or.inr ⟨rfl, rfl⟩⟩

theorem transition_cases (c : EmergencyStopController) (source target : StopStatus) (refusal : String) (advance : ℕ)
    (reason : PyStr) (t : Instant) :
    ((∃ err, (c.transition source target refusal advance reason t).1 = .error err) ∧
      (c.transition source target refusal advance reason t).2 = c) ∨
    (c.status = source ∧ c.transition source target refusal advance reason t =
      (.ok ⟨c.epoch + advance, target, reason, t⟩,
        ⟨target, c.epoch + advance, c.history ++ [⟨c.epoch + advance, target, reason, t⟩]⟩)) := by
  unfold transition
  split_ifs with h
  · exact Or.inr ⟨h, rfl⟩
  · exact Or.inl ⟨⟨_, rfl⟩, rfl⟩

/-- An operation is refused and changes nothing, or is one of the accepted transitions. -/
theorem apply_cases (c : EmergencyStopController) (call : Call) :
    ((∃ err, (c.apply call).1 = .error err) ∧ (c.apply call).2 = c) ∨
      ∃ e, (c.apply call).1 = .ok e ∧ c.Accepted call e (c.apply call).2 := by
  cases call with
  | activate reason instant =>
    rw [apply, activate]
    cases ht : requireAware instant "at" with
    | error err => exact Or.inl ⟨⟨err, rfl⟩, rfl⟩
    | ok t =>
      dsimp only
      split_ifs
      · exact Or.inl ⟨⟨_, rfl⟩, rfl⟩
      · rcases c.transition_cases .normal .stopping "cannot activate stop from %s" 1 reason t with h | ⟨hs, h⟩
        · exact Or.inl h
        · rw [h]
          exact Or.inr ⟨_, rfl, .activated ht hs⟩
  | finishDraining instant =>
    rw [apply, finishDraining]
    cases requireAware instant "at" with
    | error err => exact Or.inl ⟨⟨err, rfl⟩, rfl⟩
    | ok t =>
      dsimp only
      rcases c.transition_cases .stopping .stopped "cannot finish draining from %s" 0 (py "drain complete") t with
        h | ⟨hs, h⟩
      · exact Or.inl h
      · rw [h]
        exact Or.inr ⟨_, rfl, .within (by simp) (by rw [hs]; decide) rfl (by simp)⟩
  | requestReset approvers identities requester now =>
    rw [apply, requestReset]
    split_ifs
    · exact Or.inl ⟨⟨_, rfl⟩, rfl⟩
    · exact Or.inl ⟨⟨_, rfl⟩, rfl⟩
    · exact Or.inl ⟨⟨_, rfl⟩, rfl⟩
    · rcases c.transition_cases .stopped .resetPending "cannot request reset from %s" 0 (py "reset requested") now with
        h | ⟨hs, h⟩
      · exact Or.inl h
      · rw [h]
        exact Or.inr ⟨_, rfl, .within (by simp) (by rw [hs]; decide) rfl (by simp)⟩
  | confirmReset instant =>
    rw [apply, confirmReset]
    cases requireAware instant "at" with
    | error err => exact Or.inl ⟨⟨err, rfl⟩, rfl⟩
    | ok t =>
      dsimp only
      rcases c.transition_cases .resetPending .normal "cannot confirm reset from %s" 1
        (py "reset confirmed, new epoch issued") t with h | ⟨hs, h⟩
      · exact Or.inl h
      · rw [h]
        exact Or.inr ⟨_, rfl, .reset (by rw [hs]; decide) rfl⟩

end EmergencyStopController
end OcorRuntime.Safety
