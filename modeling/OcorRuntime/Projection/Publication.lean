import OcorRuntime.Foundations.Run
import OcorRuntime.Marking.Engine

/-! The retained Jena projection (`c4/jena_adapter.py`). Fuseki is a set of triples,
kept in the order of their insertion: an update inserts every triple of a resource or,
when its text does not parse, none. Reads join the properties of a resource. -/
namespace OcorRuntime.Projection.Jena
open Marking
set_option autoImplicit false
set_option maxHeartbeats 250000

def adapterError (reason message : String) (args : List ErrorArg) : PyError := ⟨.jenaAdapterError reason, message, args⟩

/-! ## Literals -/

def quote : CodePoint := codePoint 0x22

def backslash : CodePoint := codePoint 0x5C

/-- What `_literal` writes for one character. -/
def escapeChar (c : CodePoint) : PyStr := if c = backslash ∨ c = quote then [backslash, c] else [c]

/-- `_literal`, after the opening quote. -/
def literal (value : PyStr) : PyStr := value.flatMap escapeChar ++ [quote]

/-- The escapes `\\t \\b \\n \\r \\f \\" \\' \\\\` of SPARQL. -/
def unescapeChar (c : CodePoint) : Option CodePoint :=
  match c.val with
  | 0x74 => some (codePoint 0x09)
  | 0x62 => some (codePoint 0x08)
  | 0x6E => some (codePoint 0x0A)
  | 0x72 => some (codePoint 0x0D)
  | 0x66 => some (codePoint 0x0C)
  | 0x22 | 0x27 | 0x5C => some c
  | _ => none

/-- A string literal as SPARQL reads it: no line breaks, closed by the first bare quote. -/
def readLiteral : PyStr → Option PyStr
  | [] => none
  | [c] => if c = quote then some [] else none
  | c :: d :: rest =>
    if c = quote then none
    else if c = backslash then do
      let e ← unescapeChar d
      let value ← readLiteral rest
      return e :: value
    else if c.val = 0x0A ∨ c.val = 0x0D then none
    else do
      let value ← readLiteral (d :: rest)
      return c :: value

def Unbroken (value : PyStr) : Prop := ∀ c ∈ value, ¬ (c.val = 0x0A ∨ c.val = 0x0D)

instance (value : PyStr) : Decidable (Unbroken value) :=
  List.decidableBAll (fun c : CodePoint => ¬ (c.val = 0x0A ∨ c.val = 0x0D)) value

/-! ## Publication -/

inductive Property
  | classification
  | label
  | provenanceRef
deriving DecidableEq

def Property.name : Property → PyStr
  | .classification => py "classification"
  | .label => py "label"
  | .provenanceRef => py "provenanceRef"

inductive Triple
  /-- The resource is an `ocor:Resource`. -/
  | typed (resource : PyStr)
  | stated (resource : PyStr) (property : Property) (value : PyStr)
deriving DecidableEq

def Triple.resource : Triple → PyStr
  | .typed resource => resource
  | .stated resource _ _ => resource

/-- The arguments of `publish`. -/
structure Publication where
  resourceId : PyStr
  properties : Dict PyStr PyStr

/-- What a publication that is accepted says of its resource. -/
structure Entry where
  resource : PyStr
  value : Property → PyStr

/-- The characters `_IRI_FORBIDDEN`, with the controls and the space. -/
def forbiddenInIri (c : CodePoint) : Bool :=
  c.val ≤ 0x20 || [0x3C, 0x3E, 0x22, 0x7B, 0x7D, 0x7C, 0x5E, 0x60, 0x5C].contains c.val

/-- `_require_iri`. -/
def requireIri (resourceId : PyStr) : Except PyError Unit :=
  refuseIf (resourceId = [] ∨ resourceId.any forbiddenInIri = true) (adapterError "RESOURCE_ID_INVALID"
    "resource_id must be a well-formed IRI with no SPARQL-breaking characters" [])

def allowedPredicates : List PyStr := [py "label", py "classification", py "provenanceRef"]

def requiredProperties : List PyStr := [py "label", py "classification", py "provenanceRef"]

def sortedNames (names : List PyStr) : List ErrorArg := (names.mergeSort fun a b => decide (a ≤ b)).map .text

/-- The literal the database reads for a value; a text that does not parse fails the whole update. -/
def stored (value : PyStr) : Except PyError PyStr :=
  orRaise (readLiteral (literal value)) (adapterError "BACKEND_ERROR" "SPARQL update failed" [])

/-- The checks of `publish` and the reading of its update. -/
def entryOf (p : Publication) : Except PyError Entry := do
  requireIri p.resourceId
  let unauthorized := p.properties.keys.filter fun name => decide (name ∉ allowedPredicates)
  refuseIf (unauthorized ≠ []) (adapterError "UNAUTHORIZED_PREDICATE" "predicate(s) outside the closed vocabulary: %r"
    (sortedNames unauthorized))
  let missing := requiredProperties.filter fun name => decide (name ∉ p.properties.keys)
  refuseIf (missing ≠ []) (adapterError "SHAPE_VIOLATION" "missing required propert(y/ies): %r" (sortedNames missing))
  let provenance ← subscript p.properties (py "provenanceRef")
  refuseIf (¬ (py "urn:ocor:provenance:").isPrefixOf provenance = true) (adapterError "PROVENANCE_INVALID"
    "provenanceRef must be a real, non-empty urn:ocor:provenance: reference" [])
  let classification ← subscript p.properties (py "classification")
  let label ← subscript p.properties (py "label")
  refuseIf (¬ (Scalar p.resourceId ∧ Scalar classification ∧ Scalar label ∧ Scalar provenance))
    ⟨.valueError, "surrogates not allowed", []⟩
  let classification ← stored classification
  let label ← stored label
  let provenanceRef ← stored provenance
  return {
    resource := p.resourceId
    value := fun
      | .classification => classification
      | .label => label
      | .provenanceRef => provenanceRef }

/-- The triples of `INSERT DATA`. -/
def Entry.triples (e : Entry) : List Triple :=
  [.typed e.resource, .stated e.resource .classification (e.value .classification),
    .stated e.resource .label (e.value .label), .stated e.resource .provenanceRef (e.value .provenanceRef)]

/-- Insertion into a set. -/
def insertTriple (store : List Triple) (t : Triple) : List Triple := if t ∈ store then store else store ++ [t]

def publish (store : List Triple) (p : Publication) : Except PyError (List Triple) := do
  let e ← entryOf p
  return e.triples.foldl insertTriple store

/-! ## Authorized reads -/

structure Row where
  resource : PyStr
  value : Property → PyStr

def resources (store : List Triple) : List PyStr :=
  store.filterMap fun
    | .typed resource => some resource
    | .stated _ _ _ => none

/-- The values of a property of a resource. -/
def valuesOf (store : List Triple) (resource : PyStr) (property : Property) : List PyStr :=
  store.filterMap fun
    | .typed _ => none
    | .stated r p value => if r = resource ∧ p = property then some value else none

/-- The join of the query: every label with every classification and every provenance reference. -/
def rows (store : List Triple) : List Row :=
  (resources store).flatMap fun resource =>
    (valuesOf store resource .label).flatMap fun label =>
      (valuesOf store resource .classification).flatMap fun classification =>
        (valuesOf store resource .provenanceRef).map fun provenanceRef =>
          { resource := resource
            value := fun
              | .classification => classification
              | .label => label
              | .provenanceRef => provenanceRef }

def classificationSet (classification : PyStr) : MarkingSet := ⟨Dict.empty.set (py "classification") classification⟩

section Reads
variable (engine : MarkingEngine) (clearance : MarkingSet)

def decides (classification : PyStr) : Except PyError Bool :=
  engine.isAuthorized (classificationSet classification) clearance

/-- `[row for row in rows if is_authorized(...)]`. -/
def keepAuthorized : List Row → Except PyError (List Row)
  | [] => .ok []
  | row :: rest => do
    let authorized ← decides engine clearance (row.value .classification)
    let kept ← keepAuthorized rest
    return if authorized then row :: kept else kept

/-- `_authorized_rows`. -/
def listAuthorized (store : List Triple) : Except PyError (List Row) := do
  let authorized ← keepAuthorized engine clearance (rows store)
  return authorized.mergeSort fun a b => decide (a.resource ≤ b.resource)

def existsAuthorized (store : List Triple) (resourceId : PyStr) : Except PyError Bool := do
  let authorized ← listAuthorized engine clearance store
  return authorized.any fun row => decide (row.resource = resourceId)

/-- `to_json_ld`, as the graph that is serialized. -/
def toJsonLd (store : List Triple) (resourceId : PyStr) : Except PyError (List Triple) := do
  requireIri resourceId
  let authorized ← existsAuthorized engine clearance store resourceId
  refuseIf (¬ authorized = true) (adapterError "MARKING_DENIED" "resource is not authorized for the requester's clearance" [])
  return store.filter fun t => decide (t.resource = resourceId)

end Reads
end OcorRuntime.Projection.Jena
