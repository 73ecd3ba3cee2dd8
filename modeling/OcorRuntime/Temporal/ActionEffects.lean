import OcorRuntime.Temporal.ContextJson
import OcorRuntime.Temporal.LeaseState

/-! The durable effects of an action: the workflow that holds the records of one correlation id
(`c6/temporal_workflows.py`) and the sink in front of it (`c6/temporal_adapter.py`). What crosses the boundary,
the update, the snapshot of a rollover and the answer of a query, travels as JSON. -/
namespace OcorRuntime.Temporal
set_option autoImplicit false
set_option maxHeartbeats 250000
set_option maxRecDepth 120000

/-! ## Records -/

/-- `PersistedEffect`, with what `__post_init__` checks. -/
structure PersistedEffect where
  transitionId : PyStr
  source : PyStr
  destination : PyStr
  durableEffect : PyStr
  occurredAt : DateTime
  correlationId : PyStr
  context : List (ContextKey × ContextValue)
  aware : occurredAt.Aware
  correlated : correlationId ≠ []

/-- `==` of the dataclass. -/
def PersistedEffect.pyEq (a b : PersistedEffect) : Bool :=
  decide (a.transitionId = b.transitionId ∧ a.source = b.source ∧ a.destination = b.destination ∧
      a.durableEffect = b.durableEffect ∧ a.occurredAt.instant = b.occurredAt.instant ∧
      a.correlationId = b.correlationId) &&
    ContextValue.pyEq (.mapping a.context) (.mapping b.context)

/-- The `record` of an update. -/
structure EffectBody where
  transitionId : PyStr
  source : PyStr
  destination : PyStr
  durableEffect : PyStr
  occurredAt : PyStr
  occurredAtUs : ℤ
  correlationId : PyStr
  context : ContextValue

/-- The body as `json.dumps` takes it. -/
def EffectBody.document (body : EffectBody) : ContextValue :=
  .mapping [(.str (py "transition_id"), .str body.transitionId), (.str (py "source"), .str body.source),
    (.str (py "destination"), .str body.destination), (.str (py "durable_effect"), .str body.durableEffect),
    (.str (py "occurred_at"), .str body.occurredAt), (.str (py "occurred_at_us"), .int body.occurredAtUs),
    (.str (py "correlation_id"), .str body.correlationId), (.str (py "context"), body.context)]

structure Effect where
  idempotencyKey : PyStr
  digest : PyStr
  record : EffectBody

/-- The SDK's JSON payload converter: a value arrives as `json.loads` reads what `json.dumps` wrote. -/
structure EffectConverter where
  carry : ContextValue → ContextValue
  reads : ∀ v text read, dumps ⟨true, true⟩ v = .ok text → loadsContext text = .ok read → carry v = read

/-- The converter that does this and nothing else. -/
def EffectConverter.json : EffectConverter where
  carry v :=
    match dumps ⟨true, true⟩ v with
    | .ok text =>
      match loadsContext text with
      | .ok read => read
      | .error _ => v
    | .error _ => v
  reads := by
    intro v text read hwrite hread
    rw [hwrite]
    dsimp only
    rw [hread]

/-- An effect on the other side: its other members are integers and texts with UTF-8 bytes, which arrive as they are. -/
def EffectConverter.carryEffect (converter : EffectConverter) (effect : Effect) : Effect :=
  { effect with record := { effect.record with context := converter.carry effect.record.context } }

/-! ## The workflow -/

inductive PersistOutcome
  | persisted
  | duplicate
deriving DecidableEq

structure ActionEffectsWorkflow where
  correlationId : PyStr
  effects : List Effect
  digests : Dict PyStr PyStr

namespace ActionEffectsWorkflow

/-- `__init__`; a new action names no effects. -/
def init (correlationId : PyStr) (effects : Option (List Effect)) : ActionEffectsWorkflow where
  correlationId := correlationId
  effects := effects.getD []
  digests := (effects.getD []).foldl (fun digests item => digests.set item.idempotencyKey item.digest) .empty

/-- `_validate_effect`; the sink sends the three members and no others. -/
def validateEffect (w : ActionEffectsWorkflow) (effect : Effect) : Except ApplicationError Unit :=
  if effect.record.correlationId ≠ w.correlationId then
    refuse .effectInvalid "EFFECT_INVALID: effect belongs to another action"
  else if ∃ known ∈ w.digests.get? effect.idempotencyKey, known ≠ effect.digest then
    refuse .effectConflict "EFFECT_CONFLICT: a different effect was already persisted under this key"
  else .ok ()

def persistEffect (w : ActionEffectsWorkflow) (effect : Effect) : PersistOutcome × ActionEffectsWorkflow :=
  if (w.digests.get? effect.idempotencyKey).isSome then (.duplicate, w)
  else
    (.persisted,
      { w with
        effects := w.effects ++ [effect]
        digests := w.digests.set effect.idempotencyKey effect.digest })

/-- The rollover at the end of `run`. -/
def continueAsNew (converter : EffectConverter) (w : ActionEffectsWorkflow) : ActionEffectsWorkflow :=
  init w.correlationId (some (w.effects.map converter.carryEffect))

end ActionEffectsWorkflow

/-! ## The sink -/

namespace TemporalEffectSink

/-- The bytes the digest of a body is taken of. -/
def canonicalBytes (body : EffectBody) : Except PyError Bytes := do
  let canonical ← dumps ⟨false, true⟩ body.document
  UnicodeJson.encodeUtf8 canonical

/-- The body of a record; `astimezone` is for instants a `datetime` has. -/
def bodyOf (record : PersistedEffect) : Except PyError EffectBody := do
  let context : ContextValue := .mapping record.context
  let _ ← dumps ⟨true, false⟩ context
  let instant := record.occurredAt.instant
  refuseIf (¬ (minWall ≤ instant ∧ instant ≤ maxWall)) ⟨.overflowError, "date value out of range", []⟩
  return ⟨record.transitionId, record.source, record.destination, record.durableEffect, stamp instant, instant,
    record.correlationId, context⟩

/-- `_payload`. -/
def payload (record : PersistedEffect) : Except PyError Effect := do
  let body ← bodyOf record
  let raw ← canonicalBytes body
  return ⟨record.transitionId ++ py "@" ++ intText body.occurredAtUs, Sha256.hexdigest raw, body⟩

/-- What becomes of an update that was sent. -/
inductive Delivery
  /-- Served, and the answer came back. -/
  | answered
  /-- Served, and the answer was lost. -/
  | answerLost
  /-- Never served. -/
  | lost
deriving DecidableEq

def outcomeUnknown : PyError := ⟨.temporalAdapterError, "Temporal call exceeded %s s; outcome unknown", []⟩

/-- The workflows, by correlation id. -/
abbrev System := Dict PyStr ActionEffectsWorkflow

/-- The update, in the workflow of its action, which it starts where there is none. -/
def serve (converter : EffectConverter) (system : System) (record : PersistedEffect) (effect : Effect) :
    Except ApplicationError PersistOutcome × System :=
  let w := (system.get? record.correlationId).getD (.init record.correlationId none)
  match w.validateEffect (converter.carryEffect effect) with
  | .error refusal => (.error refusal, system.set record.correlationId w)
  | .ok () =>
    let (outcome, after) := w.persistEffect (converter.carryEffect effect)
    (.ok outcome, system.set record.correlationId after)

attribute [local grind =] serve

/-- `persist_effect`. -/
def persistEffect (converter : EffectConverter) (system : System) (record : PersistedEffect) (delivery : Delivery) :
    Except PyError Unit × System :=
  match payload record with
  | .error error => (.error error, system)
  | .ok effect =>
    match delivery, serve converter system record effect with
    | .lost, _ => (.error outcomeUnknown, system)
    | .answerLost, (_, after) => (.error outcomeUnknown, after)
    | .answered, (.error refusal, after) => (.error (adapterError refusal), after)
    | .answered, (.ok _, after) => (.ok (), after)

/-- `PersistedEffect(...)` of what a query answered. -/
def restore (item : EffectBody) : Except PyError PersistedEffect := do
  match item.context, (DateTime.utc 0).add item.occurredAtUs with
  | .mapping entries, .ok _ =>
    if h : item.correlationId ≠ [] then
      .ok ⟨item.transitionId, item.source, item.destination, item.durableEffect, .utc item.occurredAtUs,
        item.correlationId, entries, trivial, h⟩
    else .error ⟨.valueError, "a PersistedEffect requires a correlation_id", []⟩
  | _, .error overflow => .error overflow
  | _, .ok _ => .error ⟨.typeError, "object is not iterable", []⟩

/-- `effects`. -/
def effects (converter : EffectConverter) (system : System) (correlationId : PyStr) :
    Except PyError (List PersistedEffect) :=
  if correlationId = [] then .error ⟨.valueError, "correlation_id must be non-empty", []⟩
  else
    match system.get? correlationId with
    | none => .error ⟨.temporalAdapterError, "Temporal call failed: %s", []⟩
    | some w => w.effects.mapM fun item => restore (converter.carryEffect item).record

end TemporalEffectSink
end OcorRuntime.Temporal
