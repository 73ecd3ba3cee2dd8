import OcorRuntime.Canonical.StandardJson

/-! The closed envelope of the canonical event backbone (`c5/backbone.py`), its mapping and the
checks made when a mapping is read back. -/
namespace OcorRuntime.Events
set_option autoImplicit false
set_option maxHeartbeats 250000
set_option maxRecDepth 120000

/-- What a call of the backbone or of its coordinator raises. -/
inductive EventError
  /-- `BackboneError`, a governed rejection. -/
  | backbone (reasonCode message : String) (args : List ErrorArg)
  /-- `KafkaBackboneError`, a failure of the command line or of the journal. -/
  | kafka (message : String) (args : List ErrorArg)
  /-- `OperationsError` of the coordinator. -/
  | operations (reasonCode message : String) (args : List ErrorArg)
  /-- `subprocess.TimeoutExpired`. -/
  | timeoutExpired
  | builtin (error : PyError)
deriving DecidableEq

/-- `isinstance(error, (BackboneError, ValueError))`. -/
def EventError.unreadable : EventError → Bool
  | .backbone _ _ _ => true
  | .builtin error => error.cls = .valueError
  | _ => false

/-- An `int`; `bool` is a subclass of it. -/
inductive PyInt
  | int (n : ℤ)
  | bool (b : Bool)
deriving DecidableEq

namespace PyInt

def value : PyInt → ℤ
  | .int n => n
  | .bool b => if b then 1 else 0

def toValue : PyInt → PyValue
  | .int n => .int n
  | .bool b => .bool b

end PyInt

structure CanonicalIngestionEnvelope where
  eventId : PyStr
  eventType : PyStr
  eventVersion : PyStr
  schemaRef : PyStr
  producerPrincipal : PyStr
  sourceRef : PyStr
  aggregateRef : PyStr
  correlationId : PyStr
  causationId : PyStr
  classificationMarkingRef : PyStr
  governedContextDigest : PyStr
  idempotencyKey : PyStr
  sequence : PyInt
  payload : Dict MappingKey PyValue
deriving DecidableEq

namespace CanonicalIngestionEnvelope

/-- The fields that must be texts, in the order of `REQUIRED_FIELDS`. -/
def texts (e : CanonicalIngestionEnvelope) : List (PyStr × PyStr) := [
  (py "event_id", e.eventId), (py "event_type", e.eventType), (py "event_version", e.eventVersion),
  (py "schema_ref", e.schemaRef), (py "producer_principal", e.producerPrincipal), (py "source_ref", e.sourceRef),
  (py "aggregate_ref", e.aggregateRef), (py "correlation_id", e.correlationId), (py "causation_id", e.causationId),
  (py "classification_marking_ref", e.classificationMarkingRef),
  (py "governed_context_digest", e.governedContextDigest), (py "idempotency_key", e.idempotencyKey)]

def toMapping (e : CanonicalIngestionEnvelope) : PyValue :=
  .mapping ((e.texts.map fun field => (.str field.1, .str field.2)) ++
    [(.str (py "sequence"), e.sequence.toValue), (.str (py "payload"), .mapping e.payload.entries)])

end CanonicalIngestionEnvelope

/-- The text fields of `REQUIRED_FIELDS`, in their order. -/
def textFields : List PyStr := ["event_id", "event_type", "event_version", "schema_ref", "producer_principal",
  "source_ref", "aggregate_ref", "correlation_id", "causation_id", "classification_marking_ref",
  "governed_context_digest", "idempotency_key"].map py

def requiredFields : List PyStr := textFields ++ [py "sequence", py "payload"]

def missingContext (message : String) (args : List ErrorArg) : EventError := .backbone "MISSING_CONTEXT" message args

def typeError (message : String) : EventError := .builtin ⟨.typeError, message, []⟩

/-- `field in value`, for whatever `json.loads` returned. -/
def hasField (value : PyValue) (field : PyStr) : Except EventError Bool :=
  match value with
  | .mapping entries => .ok (entries.any fun e => e.1 = .str field)
  | .list items => .ok (items.any fun item => item = .str field)
  | .tuple items => .ok (items.any fun item => item = .str field)
  | .str s => .ok (decide (field <:+: s))
  | _ => .error (typeError "argument is not iterable")

/-- `value[field]`. -/
def fieldOf (value : PyValue) (field : PyStr) : Except EventError PyValue :=
  match value with
  | .mapping entries => orRaise (Dict.find entries (.str field)) (.builtin ⟨.keyError, "%r", [.text field]⟩)
  | _ => .error (typeError "indices must be integers or slices, not str")

/-- `field for field in fields if field not in value`. -/
def missingFields (value : PyValue) : List PyStr → Except EventError (List PyStr)
  | [] => .ok []
  | field :: fields => do
    let present ← hasField value field
    let missing ← missingFields value fields
    return if present then missing else field :: missing

/-- The loop over the fields that must be texts. -/
def checkTexts (value : PyValue) : List PyStr → Except EventError Unit
  | [] => .ok ()
  | field :: fields => do
    match ← fieldOf value field with
    | .str (_ :: _) => checkTexts value fields
    | _ => .error (missingContext "%s must be a non-empty string" [.text field])

/-- `value[name]`, of a field that is known to be a text. -/
def textAt (value : PyValue) (name : String) : PyStr :=
  match fieldOf value (py name) with
  | .ok (.str s) => s
  | _ => []

def sequenceOf (value : PyValue) : Except EventError PyInt := do
  match ← fieldOf value (py "sequence") with
  | .int n =>
    refuseIf (n < 0) (missingContext "sequence must be a non-negative integer" [])
    return .int n
  | _ => .error (missingContext "sequence must be a non-negative integer" [])

/-- `dict(value["payload"])`. -/
def payloadOf (value : PyValue) : Except EventError (Dict MappingKey PyValue) := do
  match ← fieldOf value (py "payload") with
  | .mapping entries => return entries.foldl (fun d e => d.set e.1 e.2) .empty
  | _ => .error (missingContext "payload must be an object" [])

/-- `CanonicalIngestionEnvelope.from_mapping`. -/
def CanonicalIngestionEnvelope.fromMapping (value : PyValue) : Except EventError CanonicalIngestionEnvelope := do
  let missing ← missingFields value requiredFields
  refuseIf (missing ≠ []) (missingContext "missing required field(s): %r" (missing.mergeSort.map .text))
  checkTexts value textFields
  let sequence ← sequenceOf value
  let payload ← payloadOf value
  return {
    eventId := textAt value "event_id"
    eventType := textAt value "event_type"
    eventVersion := textAt value "event_version"
    schemaRef := textAt value "schema_ref"
    producerPrincipal := textAt value "producer_principal"
    sourceRef := textAt value "source_ref"
    aggregateRef := textAt value "aggregate_ref"
    correlationId := textAt value "correlation_id"
    causationId := textAt value "causation_id"
    classificationMarkingRef := textAt value "classification_marking_ref"
    governedContextDigest := textAt value "governed_context_digest"
    idempotencyKey := textAt value "idempotency_key"
    sequence, payload }

end OcorRuntime.Events
