import OcorRuntime.Foundations.Dict
import OcorRuntime.Foundations.Op
import OcorRuntime.Foundations.Text

/-! The exceptions of the runtime (`errors.py`, with the built-in ones its
functions raise). A message is kept as its format text and the values put into
it; `%r`, `%s` and `%d` mark the places. -/
namespace OcorRuntime
set_option autoImplicit false

/-- `MemoryAdmissionError` and its subclasses, each of one memory service. -/
inductive MemoryErrorKind
  | admission
  | lifecycle
  | store
  | consolidation
  | embedding
  | promotion
  | operations
  | retrieval
  | context
deriving DecidableEq

inductive ErrorClass
  | valueError
  | typeError
  | keyError
  | runtimeError
  | overflowError
  | canonicalizationError
  | singleWriterViolation
  | concurrencyConflict
  | crashInjected (window : String) (committed : Bool)
  | markingError
  | invalidTransition
  | temporalGuardViolation
  | authorizationError
  | stopEpochDenied
  | emissionBlocked
  | sandboxViolation
  | tokenBudgetExceeded
  | safetyError (reasonCode : String)
  | governedActionError (reasonCode : String)
  | memoryError (kind : MemoryErrorKind) (reasonCode detailCode : String)
  | recoveryError (reasonCode : String)
  | securityControlError (reasonCode : String)
  | c2Error (reasonCode : String)
  | jenaAdapterError (reasonCode : String)
  | driftError (reasonCode : String)
  | sealedResultError (code : String)
  | scenarioOverlayError (code : String)
  | orchestratorError (reasonCode : String)
  | toolRuntimeError (reasonCode : String)
  | identityProvisioningDenied (reasonCode : String)
  | identityRegistrationDenied
  | identityConflictError
  | temporalAdapterError
  | humanGateError (reasonCode : String)
  | timestampError
  /-- Any other exception: raised by a sink, a stop controller or another collaborator. -/
  | foreign (name : String)
deriving DecidableEq

/-- `isinstance(error, OCORError)`. -/
def ErrorClass.isOCORError : ErrorClass → Bool
  | .valueError | .typeError | .keyError | .runtimeError | .overflowError | .recoveryError _
  | .securityControlError _ | .c2Error _ | .jenaAdapterError _ | .driftError _ | .foreign _ => false
  | .canonicalizationError | .singleWriterViolation | .concurrencyConflict | .crashInjected _ _
  | .markingError | .invalidTransition | .temporalGuardViolation | .authorizationError | .stopEpochDenied
  | .emissionBlocked | .sandboxViolation | .tokenBudgetExceeded | .safetyError _
  | .governedActionError _ | .memoryError _ _ _ | .sealedResultError _ | .scenarioOverlayError _
  | .orchestratorError _ | .toolRuntimeError _ | .identityProvisioningDenied _ | .identityRegistrationDenied
  | .identityConflictError | .temporalAdapterError | .humanGateError _ | .timestampError => true

/-- `isinstance(error, AuthorizationError)`. -/
def ErrorClass.isAuthorizationError (cls : ErrorClass) : Bool := cls = .authorizationError || cls = .stopEpochDenied

/-- `isinstance(error, MemoryAdmissionError)`. -/
def ErrorClass.isMemoryError : ErrorClass → Bool
  | .memoryError _ _ _ => true
  | _ => false

/-- `error.reason_code` of a memory error. -/
def ErrorClass.reasonCode : ErrorClass → String
  | .memoryError _ reasonCode _ => reasonCode
  | _ => ""

/-- `error.detail_code` of a memory error. -/
def ErrorClass.detailCode : ErrorClass → String
  | .memoryError _ _ detailCode => detailCode
  | _ => ""

inductive ErrorArg
  | text (s : PyStr)
  | int (n : ℤ)
deriving DecidableEq

structure PyError where
  cls : ErrorClass
  message : String
  args : List ErrorArg := []
deriving DecidableEq

/-- What a call raises: an `Exception`, or a `BaseException` that is none. -/
inductive Raised
  | exception (e : PyError)
  | interrupt
deriving DecidableEq

def raised (cls : ErrorClass) (message : String) (args : List ErrorArg) : Raised := .exception ⟨cls, message, args⟩

def subscript {ν : Type} (d : Dict PyStr ν) (key : PyStr) : Except PyError ν :=
  match d.get? key with
  | some value => .ok value
  | none => .error ⟨.keyError, "%r", [.text key]⟩

theorem subscript_eq_ok {ν : Type} {d : Dict PyStr ν} {key : PyStr} {value : ν} :
    subscript d key = .ok value ↔ d.get? key = some value := by
  unfold subscript
  cases d.get? key <;> simp

theorem bind_eq_ok {α β : Type} {x : Except PyError α} {f : α → Except PyError β} {b : β} :
    x >>= f = .ok b ↔ ∃ a, x = .ok a ∧ f a = .ok b := by
  cases x <;> simp [bind, Except.bind]

theorem check_bind_eq_ok {β : Type} {x : Except PyError Unit} {f : Unit → Except PyError β} {b : β} :
    x >>= f = .ok b ↔ x = .ok () ∧ f () = .ok b := by
  cases x <;> simp [bind, Except.bind]

/-- `if bad: raise error`. -/
def refuseIf {ε : Type} (bad : Prop) [Decidable bad] (error : ε) : Except ε Unit :=
  if bad then .error error else .ok ()

theorem refuseIf_eq_ok {ε : Type} {bad : Prop} [Decidable bad] {error : ε} {u : Unit} :
    refuseIf bad error = .ok u ↔ ¬ bad := by
  unfold refuseIf
  split_ifs with h <;> simp [h]

@[simp] theorem lift_refuseIf_bind {σ ε β : Type} {bad : Prop} [Decidable bad] (error : ε) (f : Unit → Op σ ε β)
    (s : σ) : (Op.lift (refuseIf bad error) >>= f) s = if bad then (.error error, s) else f () s := by
  unfold refuseIf
  split_ifs
  · exact Op.bind_of_error rfl
  · exact Op.bind_of_ok rfl

/-- A check that passes hands on what it established. -/
def require {ε : Type} (p : Prop) [Decidable p] (error : ε) : Except ε (PLift p) :=
  if h : p then .ok ⟨h⟩ else .error error

/-- `if value is None: raise error`. -/
def orRaise {ε α : Type} (value : Option α) (error : ε) : Except ε α :=
  match value with
  | some a => .ok a
  | none => .error error

theorem orRaise_eq_ok {ε α : Type} {value : Option α} {error : ε} {a : α} :
    orRaise value error = .ok a ↔ value = some a := by
  unfold orRaise
  cases value <;> simp

end OcorRuntime
