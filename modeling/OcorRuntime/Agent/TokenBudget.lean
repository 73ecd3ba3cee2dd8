import OcorRuntime.Canonical.Serialize

/-! Token budgets and the agent invocations charged to them (`c8_agent.py`). A budget's
operations are atomic; an invocation is four of them in a row (the prompt charged, the
output reserved, then the reservation committed or cancelled), with the model and
anything else free to use the budget in between. -/
namespace OcorRuntime.Agent
open Canonical
set_option autoImplicit false
set_option maxHeartbeats 250000

/-! ## Budgets -/

structure TokenCharge where
  category : PyStr
  tokens : ℤ
deriving DecidableEq

structure BudgetReservation where
  reservationId : PyStr
  category : PyStr
  tokens : ℤ
deriving DecidableEq

/-- What one call of the tokenizer does. -/
inductive TokenizerOutcome
  | counts (tokens : ℤ)
  /-- A value that is no integer, or a boolean. -/
  | malformed
  | raises (why : Raised)
deriving DecidableEq

structure TokenBudget where
  limit : ℤ
  used : ℤ
  reservations : Dict PyStr BudgetReservation
  charges : List TokenCharge
deriving DecidableEq

abbrev Budgeted := Op TokenBudget Raised

namespace TokenBudget

/-- `TokenBudget(limit)`. -/
def create (limit : ℤ) : Except PyError TokenBudget :=
  if limit < 0 then .error ⟨.valueError, "token limit must be a non-negative integer", []⟩
  else .ok ⟨limit, 0, .empty, []⟩

def reserved (b : TokenBudget) : ℤ := (b.reservations.values.map (·.tokens)).sum

def remaining (b : TokenBudget) : ℤ := b.limit - b.used - b.reserved

def charge (b : TokenBudget) (charge : TokenCharge) : TokenBudget :=
  { b with used := b.used + charge.tokens, charges := b.charges ++ [charge] }

def count (outcome : TokenizerOutcome) : Except Raised ℤ :=
  let malformed := raised .valueError "tokenizer must return a non-negative integer" []
  match outcome with
  | .counts tokens => if tokens < 0 then .error malformed else .ok tokens
  | .malformed => .error malformed
  | .raises why => .error why

def consume (tokens : ℤ) (category : PyStr) : Budgeted TokenCharge := do
  Op.lift (refuseIf (tokens < 0) (raised .valueError "token charge must be a non-negative integer" []))
  Op.lift (refuseIf (category = []) (raised .valueError "token category must be non-empty" []))
  let b ← Op.read
  Op.lift (refuseIf (b.remaining < tokens) (raised .tokenBudgetExceeded "%s requires %d tokens; %d remain"
    [.text category, .int tokens, .int b.remaining]))
  Op.update fun b => b.charge ⟨category, tokens⟩
  return ⟨category, tokens⟩

def consumeText (text : TokenizerOutcome) (category : PyStr) : Budgeted TokenCharge := do
  let tokens ← Op.lift (count text)
  consume tokens category

/-- `reserve`; `uuid` is what `uuid4()` returns. -/
def reserve (tokens : ℤ) (category uuid : PyStr) : Budgeted BudgetReservation := do
  Op.lift (refuseIf (tokens < 0) (raised .valueError "reservation must be a non-negative integer" []))
  let b ← Op.read
  Op.lift (refuseIf (b.remaining < tokens)
    (raised .tokenBudgetExceeded "%s reservation requires %d tokens; %d remain"
      [.text category, .int tokens, .int b.remaining]))
  let reservation : BudgetReservation := ⟨uuid, category, tokens⟩
  Op.update fun b => { b with reservations := b.reservations.set uuid reservation }
  return reservation

def commit (reservation : BudgetReservation) (used : ℤ) : Budgeted TokenCharge := do
  Op.lift (refuseIf (used < 0) (raised .valueError "used token count must be a non-negative integer" []))
  let b ← Op.read
  Op.lift (refuseIf (b.reservations.get? reservation.reservationId ≠ some reservation)
    (raised .valueError "token reservation is unknown or already closed" []))
  Op.lift (refuseIf (reservation.tokens < used)
    (raised .tokenBudgetExceeded "model used %d tokens beyond its %d-token reservation"
      [.int used, .int reservation.tokens]))
  Op.update fun b =>
    { b with reservations := b.reservations.erase reservation.reservationId }.charge ⟨reservation.category, used⟩
  return ⟨reservation.category, used⟩

def cancel (reservation : BudgetReservation) : Budgeted Unit :=
  Op.update fun b => { b with reservations := b.reservations.erase reservation.reservationId }

end TokenBudget

/-! ## Responses -/

inductive AgentDecision
  | identify
  | abstain
deriving DecidableEq

def AgentDecision.value : AgentDecision → PyStr
  | identify => py "IDENTIFY"
  | abstain => py "ABSTAIN"

structure AgentResponse where
  decision : AgentDecision
  identityId : PyValue
  confidence : Binary64
  reason : PyStr
  content : PyValue

/-- `bool(value)`. -/
def truthy : PyValue → Bool
  | .none => false
  | .bool b => b
  | .int n => n ≠ 0
  | .float (.finite x) => ¬ x.IsZero
  | .str s => s ≠ []
  | .list items | .tuple items => ¬ items.isEmpty
  | .mapping entries => ¬ entries.isEmpty
  | .float _ | .other _ => true

/-- `0.0 <= confidence <= 1.0`. -/
def isConfidence : Binary64 → Bool
  | .finite x => (decide x.IsZero || !x.neg) && decide (x.AbsLe 1)
  | _ => false

/-- `AgentResponse(...)` with `__post_init__`. -/
def AgentResponse.create (decision : AgentDecision) (identityId : PyValue) (confidence : Binary64) (reason : PyStr)
    (content : PyValue) : Except PyError AgentResponse := do
  refuseIf (¬ isConfidence confidence) ⟨.valueError, "agent confidence must be between zero and one", []⟩
  refuseIf (reason = []) ⟨.valueError, "agent reason must be non-empty", []⟩
  refuseIf (decision = .identify ∧ ¬ truthy identityId) ⟨.valueError, "IDENTIFY requires identity_id", []⟩
  refuseIf (decision = .abstain ∧ identityId ≠ .none) ⟨.valueError, "ABSTAIN cannot assert an identity", []⟩
  return ⟨decision, identityId, confidence, reason, content⟩

/-- What a model hands over as its response. -/
inductive RawResponse
  | structured (response : AgentResponse)
  | mapping (value : Dict PyStr PyValue)
  | other

structure ModelResult where
  response : RawResponse
  outputTokens : Option ℤ

/-- The built-in conversions `str` and `float`, of values that may be of any type. -/
structure Conversions where
  str : PyValue → PyStr
  float : PyValue → Except PyError Binary64

/-- The body of `_coerce_response`, for a mapping. -/
def readResponse (convert : Conversions) (value : Dict PyStr PyValue) : Except PyError AgentResponse := do
  let rawDecision ← subscript value (py "decision")
  let decision ← orRaise ([AgentDecision.identify, .abstain].find? fun d => d.value = convert.str rawDecision)
    ⟨.valueError, "%r is not a valid AgentDecision", [.text (convert.str rawDecision)]⟩
  let identityId := (value.get? (py "identityId")).getD ((value.get? (py "identity_id")).getD .none)
  let rawConfidence ← subscript value (py "confidence")
  let confidence ← convert.float rawConfidence
  let reason ← subscript value (py "reason")
  AgentResponse.create decision identityId confidence (convert.str reason) ((value.get? (py "content")).getD .none)

def coerceResponse (convert : Conversions) (value : RawResponse) : Except PyError AgentResponse :=
  match value with
  | .structured response => .ok response
  | .other => .error ⟨.sandboxViolation, "agent model must return a structured response", []⟩
  | .mapping value =>
    match readResponse convert value with
    | .ok response => .ok response
    | .error e =>
      if e.cls = .keyError ∨ e.cls = .typeError ∨ e.cls = .valueError then
        .error ⟨.sandboxViolation, "invalid structured agent response: " ++ e.message, e.args⟩
      else .error e

def AgentResponse.payload (response : AgentResponse) : PyValue :=
  .mapping [(.str (py "decision"), .str response.decision.value), (.str (py "identityId"), response.identityId),
    (.str (py "confidence"), .float response.confidence), (.str (py "reason"), .str response.reason),
    (.str (py "content"), response.content)]

/-! ## Invocations -/

/-- What happens inside the `try` of `invoke`: whether the capability authority lets it pass (or there is
none), what the model returns, and how the tokenizer counts the rendered response. -/
structure Attempt where
  authorization : Except Raised Unit
  model : Except Raised ModelResult
  tokenizer : PyStr → TokenizerOutcome

namespace AgentKernel

def exceptions {α : Type} (x : Except PyError α) : Except Raised α := x.mapError .exception

/-- The response, and the tokens to charge for it. -/
def respond (convert : Conversions) (attempt : Attempt) : Except Raised (AgentResponse × ℤ) := do
  attempt.authorization
  let result ← attempt.model
  let response ← exceptions (coerceResponse convert result.response)
  let rendered ← exceptions (serialize response.payload)
  let measured ← TokenBudget.count (attempt.tokenizer rendered)
  refuseIf (∃ declared ∈ result.outputTokens, declared < measured)
    (raised .tokenBudgetExceeded "model-reported output usage is lower than deterministic measurement" [])
  return (response, max measured (result.outputTokens.getD 0))

/-- `invoke` up to the charge of its prompt. -/
def chargePrompt (maxOutputTokens : ℤ) (prompt : TokenizerOutcome) : Budgeted Unit := do
  Op.lift (refuseIf (maxOutputTokens ≤ 0) (raised .valueError "max_output_tokens must be positive" []))
  let _ ← TokenBudget.consumeText prompt (py "model-input")
  return ()

def reserveOutput (maxOutputTokens : ℤ) (uuid : PyStr) : Budgeted BudgetReservation :=
  TokenBudget.reserve maxOutputTokens (py "model-output") uuid

/-- The `try` of `invoke`, on the reservation it made. -/
def attempted (convert : Conversions) (reservation : BudgetReservation) (attempt : Attempt) :
    Budgeted AgentResponse := do
  let answer ← Op.lift (respond convert attempt)
  let _ ← TokenBudget.commit reservation answer.2
  return answer.1

/-- `except Exception: budget.cancel(reservation); raise`. An interrupt is not caught. -/
def giveUp (reservation : BudgetReservation) (why : Raised) : Budgeted AgentResponse :=
  match why with
  | .exception e => do
    TokenBudget.cancel reservation
    Op.raise (.exception e)
  | .interrupt => Op.raise .interrupt

def settle (convert : Conversions) (reservation : BudgetReservation) (attempt : Attempt) : Budgeted AgentResponse :=
  Op.guarded (attempted convert reservation attempt) (giveUp reservation)

/-- `invoke` with nothing else using the budget meanwhile. -/
def invoke (convert : Conversions) (maxOutputTokens : ℤ) (prompt : TokenizerOutcome) (uuid : PyStr)
    (attempt : Attempt) : Budgeted AgentResponse := do
  chargePrompt maxOutputTokens prompt
  let reservation ← reserveOutput maxOutputTokens uuid
  settle convert reservation attempt

end AgentKernel
end OcorRuntime.Agent
