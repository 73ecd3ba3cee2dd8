import Mathlib.Data.Rat.Defs
import Mathlib.Order.WithBot
import OcorRuntime.Foundations.Strata
import OcorRuntime.Scenario.CausalOutcome

/-! The causal runtime (`c7/runtime.py`): one identification gate, and the intervention,
counterfactual and sensitivity queries behind it. Decimals are exact rationals, and an
estimate is what `_seal` is given, before its numbers are written out and its content is
digested. -/
namespace OcorRuntime.Scenario
open Canonical
set_option autoImplicit false
set_option maxHeartbeats 250000

/-! ## Queries and estimates -/

structure CausalQuery where
  scenarioBranch : PyStr
  modelDigest : PyStr
  dataDigest : PyStr
  interventionDigest : PyStr
  ontologyReleaseDigest : PyStr
  expectedReleaseDigest : PyStr
  treatment : PyStr
  outcome : PyStr
  adjustment : PyStr
  contaminatedMain : Bool := false
  unresolvedConfounding : Bool := false

/-- A value of `details`: a text, or a decimal that is yet to be written with `format(value, "f")`. -/
inductive Detail
  | text (s : PyStr)
  | decimal (q : ℚ)
deriving DecidableEq

structure Estimate where
  status : String
  reasonCode : Option String
  method : Option String
  effect : Option ℚ
  details : List (String × Detail)
  assumptions : List PyStr
deriving DecidableEq

/-- A mapping of texts to anything. -/
abbrev Record := List (MappingKey × PyValue)

/-- Python's `str` and `int` of a value and `Decimal` of a text, as far as it is a finite number. What
is shown about estimates holds whatever they return. -/
structure Builtins where
  str : PyValue → PyStr
  int : PyValue → Except PyError ℤ
  decimal : PyStr → Except PyError ℚ

/-- How an identification ends early: an exception, or `_Abstain`. -/
inductive Interruption
  | raised (e : PyError)
  | abstain (reasonCode : String)
deriving DecidableEq

def causalError (code : String) : PyError := ⟨.foreign "CausalRuntimeError", code, []⟩

def abstainOutcome (reasonCode : String) : Estimate := ⟨"ABSTAIN", some reasonCode, none, none, [], []⟩

/-- `_ASSUMPTIONS` and the adjustment set. -/
def assumptions (query : CausalQuery) : List PyStr :=
  [py "consistency", py "conditional_exchangeability", py "positivity", py "adjustment:" ++ query.adjustment]

def identified (query : CausalQuery) (method : String) (effect : ℚ) (details : List (String × Detail)) : Estimate :=
  ⟨"IDENTIFIED", none, some method, some effect, details, assumptions query⟩

/-! ## The envelope of an intervention -/

/-- The number an `int`, a `float` or a `bool` stands for; not-a-number stands for none. -/
def magnitude? : PyValue → Option (Option (WithBot (WithTop ℚ)))
  | .bool b => some (some (((if b then 1 else 0 : ℚ) : WithTop ℚ) : WithBot (WithTop ℚ)))
  | .int n => some (some (((n : ℚ) : WithTop ℚ) : WithBot (WithTop ℚ)))
  | .float (.finite x) =>
    let size : ℚ := x.mantissa * (2 : ℚ) ^ x.exponent
    some (some (((if x.neg then -size else size : ℚ) : WithTop ℚ) : WithBot (WithTop ℚ)))
  | .float (.infinite neg) => some (some (if neg then ⊥ else ((⊤ : WithTop ℚ) : WithBot (WithTop ℚ))))
  | .float .nan => some none
  | _ => none

/-- `a < b`, of a number and any value. -/
def lessThan (a b : PyValue) : Except PyError Bool :=
  match magnitude? a, magnitude? b with
  | some (some x), some (some y) => .ok (decide (x < y))
  | some _, some _ => .ok false
  | _, _ => .error ⟨.typeError, "'<' not supported between instances", []⟩

/-- Whether the intervention has a value inside its envelope. -/
def insideEnvelope (intervention : Record) : Except PyError Bool :=
  match Dict.find intervention (.str (py "value")), Dict.find intervention (.str (py "valid_envelope")) with
  | some value, some (.list [low, high]) =>
    if (magnitude? value).isNone then .ok false
    else do
      let below ← lessThan value low
      if below then return false
      else do
        let above ← lessThan high value
        return ¬ above
  | _, _ => .ok false

/-! ## Identification -/

section
variable (builtins : Builtins) (query : CausalQuery)

/-- The exceptions that mean a row is not of the schema. -/
def schemaInvalid (e : PyError) : Interruption :=
  match e.cls with
  | .keyError | .typeError | .valueError => .raised (causalError "FACTUAL_SCHEMA_INVALID")
  | _ => .raised e

/-- `row[name]`. -/
def column (row : Record) (name : PyStr) : Except PyError PyValue :=
  orRaise (Dict.find row (.str name)) ⟨.keyError, "%r", [.text name]⟩

/-- The stratum, the treatment and the outcome of a row. -/
def readRow (row : Record) : Except PyError (PyStr × ℤ × ℚ) := do
  let adjustment ← column row query.adjustment
  let treatment ← column row query.treatment
  let treated ← builtins.int treatment
  let outcome ← column row query.outcome
  let observed ← builtins.decimal (builtins.str outcome)
  return (builtins.str adjustment, treated, observed)

def readUnit (row : Record) : Except Interruption (Observation PyStr) :=
  match readRow builtins query row with
  | .error e => .error (schemaInvalid e)
  | .ok (stratum, treated, observed) =>
    if treated = 0 then .ok ⟨stratum, false, observed⟩
    else if treated = 1 then .ok ⟨stratum, true, observed⟩
    else .error (.abstain "POSITIVITY_FAILURE")

/-- The control and the treated observations of a stratum. -/
structure Cells where
  control : List ℚ := []
  treated : List ℚ := []

/-- `strata.setdefault(stratum, {0: [], 1: []})[treated].append(observed)`. -/
def addUnit (strata : Dict PyStr Cells) (u : Observation PyStr) : Dict PyStr Cells :=
  let cells := (strata.get? u.stratum).getD {}
  strata.set u.stratum
    (if u.treated then ⟨cells.control, cells.treated ++ [u.outcome]⟩ else ⟨cells.control ++ [u.outcome], cells.treated⟩)

/-- What is checked before any row is read. -/
def validate (model intervention : Record) (factualRows : List Record) : Except Interruption Unit := do
  let modelDigest ← (canonicalDigest (.mapping model)).mapError .raised
  refuseIf (modelDigest ≠ query.modelDigest) (Interruption.raised (causalError "MODEL_PIN_MISMATCH"))
  let dataDigest ← (canonicalDigest (.list (factualRows.map .mapping))).mapError .raised
  refuseIf (dataDigest ≠ query.dataDigest) (Interruption.raised (causalError "DATA_PIN_MISMATCH"))
  let interventionDigest ← (canonicalDigest (.mapping intervention)).mapError .raised
  refuseIf (interventionDigest ≠ query.interventionDigest) (Interruption.raised (causalError "INTERVENTION_PIN_MISMATCH"))
  refuseIf (query.scenarioBranch = py "main" ∨ ¬ py "scenario/" <+: query.scenarioBranch)
    (Interruption.abstain "MAIN_CONTAMINATED")
  refuseIf (query.contaminatedMain = true) (Interruption.abstain "MAIN_CONTAMINATED")
  refuseIf (query.ontologyReleaseDigest ≠ query.expectedReleaseDigest) (Interruption.abstain "RELEASE_MISMATCH")
  refuseIf (factualRows = []) (Interruption.abstain "MISSING_FACTUAL_SET")
  refuseIf (query.unresolvedConfounding = true) (Interruption.abstain "UNRESOLVED_CONFOUNDING")
  let inside ← (insideEnvelope intervention).mapError .raised
  refuseIf (inside = false) (Interruption.abstain "OUT_OF_DOMAIN")

/-- The difference of the arm means of a stratum. -/
def Cells.effect (cells : Cells) : ℚ := Strata.mean cells.treated - Strata.mean cells.control

/-- `sum(effects, Decimal()) / len(effects)`. -/
def averageEffect (strata : Dict PyStr Cells) : ℚ := Strata.mean (strata.values.map Cells.effect)

/-- `_validate_and_stratify`; reading a row and adding it are one loop there. -/
def validateAndStratify (model intervention : Record) (factualRows : List Record) :
    Except Interruption (ℚ × Dict PyStr Cells) := do
  validate query model intervention factualRows
  let units ← factualRows.mapM (readUnit builtins query)
  let strata := units.foldl addUnit .empty
  refuseIf (∃ cells ∈ strata.values, cells.control = [] ∨ cells.treated = []) (Interruption.abstain "POSITIVITY_FAILURE")
  return (averageEffect strata, strata)

/-! ## The estimators -/

/-- `except _Abstain`. -/
def orAbstain {α : Type} (x : Except Interruption α) (estimate : α → Except PyError Estimate) : Except PyError Estimate :=
  match x with
  | .error (.raised e) => .error e
  | .error (.abstain reasonCode) => .ok (abstainOutcome reasonCode)
  | .ok a => estimate a

variable (model intervention : Record) (factualRows : List Record)

def estimateIntervention : Except PyError Estimate :=
  orAbstain (validateAndStratify builtins query model intervention factualRows) fun (effect, _) =>
    .ok (identified query "STRATIFIED_BACKDOOR_ATE" effect [])

def estimateCounterfactual (unitIndex : ℤ) : Except PyError Estimate :=
  orAbstain (validateAndStratify builtins query model intervention factualRows) fun (_, strata) => do
    refuseIf (¬ (0 ≤ unitIndex ∧ unitIndex < factualRows.length)) (causalError "UNIT_INDEX_OUT_OF_RANGE")
    let row := factualRows.getD unitIndex.toNat []
    let (stratum, actualTreatment, observedOutcome) ← readRow builtins query row
    let cells ← subscript strata stratum
    let (opposite, actual) := if actualTreatment = 1 then (cells.control, cells.treated) else (cells.treated, cells.control)
    let counterfactual := observedOutcome + (Strata.mean opposite - Strata.mean actual)
    return identified query "STRATIFIED_BACKDOOR_COUNTERFACTUAL" counterfactual
      [("unit_index", .text (intText unitIndex)), ("observed_outcome", .decimal observedOutcome),
        ("actual_treatment", .text (intText actualTreatment))]

/-- The control observations of every stratum, shifted. -/
def shiftedEffect (strata : Dict PyStr Cells) (confoundingShift : ℚ) : ℚ :=
  Strata.mean (strata.values.map fun cells =>
    Strata.mean cells.treated - Strata.mean (cells.control.map fun value => value + confoundingShift))

/-- `str` of a boolean. -/
def boolText (b : Bool) : PyStr := if b then py "True" else py "False"

def estimateSensitivity (confoundingShift : ℚ) : Except PyError Estimate :=
  orAbstain (validateAndStratify builtins query model intervention factualRows) fun (effect, strata) =>
    let shifted := shiftedEffect strata confoundingShift
    .ok (identified query "ADDITIVE_CONFOUNDING_SHIFT_SENSITIVITY" effect
      [("confounding_shift", .decimal confoundingShift), ("shifted_effect", .decimal shifted),
        ("sign_flipped", .text (boolText (decide (0 < effect) != decide (0 < shifted))))])

end

end OcorRuntime.Scenario
