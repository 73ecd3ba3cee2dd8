import Mathlib.Data.Prod.Lex
import Mathlib.Logic.Function.Basic
import OcorRuntime.Canonical.StandardJson
import OcorRuntime.Compiler.Ports

/-! The two front ends of the compiler (`c1/compiler.py`, `c1/frontend.py`): parsing, the two
validators, and the builders of a canonical release. Every source is a pair of the unit and
the document parsed from it. A dictionary that is only read by key is its lookup function. -/
namespace OcorRuntime.Compiler
open Canonical Kernel
set_option autoImplicit false
set_option maxHeartbeats 250000

/-! ## Parsing -/

inductive YamlFailure
  /-- `yaml.YAMLError`. -/
  | yamlError
  | raised (error : PyError)

/-- PyYAML, and what Python makes of the values it loads. -/
structure Yaml where
  safeLoad : Bytes → Except YamlFailure PyValue
  /-- `iter` of a value of a type JSON does not have. -/
  iterate : String → Except PyError (List PyValue)
  /-- Keys that are no texts compare with the keys of their own kind only. -/
  keyKind : ℕ → ℕ := fun _ => 0
  repr : PyValue → PyStr := fun _ => []

def typeError (message : String) : PyError := ⟨.typeError, message, []⟩

/-- `json.loads` of a byte string. -/
def jsonLoads (content : Bytes) : Except (Option PyError) PyValue :=
  match decodeBytes content (detectEncoding content) with
  | none => .error (some ⟨.valueError, "UnicodeDecodeError", []⟩)
  | some text => (StandardJson.loads text).mapError fun _ => none

/-- `RetainedOacParser.parse` and `FrontendOacParser.parse`. -/
def parse (yaml : Yaml) (source : SourceUnit) : Except Fault Entries := do
  let unparsed : Fault := .c1Error
    [⟨.sourceInvalid, source.sourcePath, "cannot parse %s", [.str (py source.language.value)]⟩]
  let parsed ←
    match source.language with
    | .yaml => (yaml.safeLoad source.content).mapError fun
      | .yamlError => unparsed
      | .raised error => .raised error
    | .json => (jsonLoads source.content).mapError fun
      | none => unparsed
      | some error => .raised error
  match parsed with
  | .mapping entries => return entries
  | _ => .error (reject .typeError source.sourcePath "parsed source must be a mapping")

/-! ## The retained validator -/

/-- The required keys a document lacks, in order. -/
def missingKeys (required : List String) (document : Entries) : List String :=
  required.filter fun name => (document.get? name).isNone

def texts (names : List PyStr) : PyValue := .list (names.map .str)

def missingDiagnostic (source : SourceUnit) (missing : List String) : C1Diagnostic :=
  ⟨.typeError, source.sourcePath, "missing required keys: %s", [texts (missing.map py)]⟩

def idDiagnostic (source : SourceUnit) (declared : PyValue) : C1Diagnostic :=
  ⟨.constraintError, source.sourcePath, "declared id %r does not match resource_id %r", [declared, .str source.resourceId]⟩

def PyValue.isMapping : PyValue → Bool
  | .mapping _ => true
  | _ => false

def retainedDiagnose (source : SourceUnit) (document : Entries) : List C1Diagnostic :=
  match document.get? "fields", document.get? "id" with
  | some fields, some id =>
    if PyValue.isMapping fields = false then [⟨.typeError, source.sourcePath, "'fields' must be a mapping", []⟩]
    else if id ≠ .str source.resourceId then [idDiagnostic source id]
    else []
  | _, _ => [missingDiagnostic source (missingKeys ["fields", "id"] document)]

/-- `RetainedSemanticValidator.validate`. -/
def retainedValidate (parsed : List (SourceUnit × Entries)) : Except Fault Unit :=
  let diagnostics := parsed.flatMap fun p => retainedDiagnose p.1 p.2
  refuseIf (diagnostics ≠ []) (.c1Error diagnostics)

/-! ## Types and owners -/

def keyKindOf (yaml : Yaml) : MappingKey → Option ℕ
  | .str _ => none
  | .other index => some (yaml.keyKind index)

/-- `sorted`, of items whose keys are pairwise distinct: keys compare with those of their kind only. The
order of keys that are no texts is left open. -/
def sortByKey {α : Type} (yaml : Yaml) (items : List (MappingKey × α)) : Except PyError (List (MappingKey × α)) := do
  refuseIf (∃ a ∈ items, ∃ b ∈ items, keyKindOf yaml a.1 ≠ keyKindOf yaml b.1)
    (typeError "'<' not supported between instances")
  return items.insertionSort fun a b => keyOf a.1 ≤ keyOf b.1
where keyOf (key : MappingKey) : PyStr := (MappingKey.str? key).getD []

def keyValue : MappingKey → PyValue
  | .str s => .str s
  | .other _ => .other "key"

/-- The keys of `_SUPPORTED_TYPES`. -/
def supportedTypes : List PyStr := ["string", "integer", "number", "boolean", "list"].map py

/-- `_satisfies_type`. -/
def satisfiesType (value : PyValue) (typeName : PyStr) : Bool :=
  match value with
  | .str _ => typeName = py "string"
  | .int _ => typeName = py "integer" || typeName = py "number"
  | .float _ => typeName = py "number"
  | .bool _ => typeName = py "boolean"
  | .list _ => typeName = py "list"
  | _ => false

mutual
/-- Whether `hash` takes a value. -/
def PyValue.hashable : PyValue → Bool
  | .list _ | .mapping _ => false
  | .tuple items => hashableItems items
  | .other typeName => typeName ≠ "set"
  | _ => true
def hashableItems : List PyValue → Bool
  | [] => true
  | item :: items => PyValue.hashable item && hashableItems items
end

def unsupportedDiagnostic (source : SourceUnit) (item : MappingKey × PyValue) : C1Diagnostic :=
  ⟨.unsupportedCapability, source.sourcePath, "field %r declares unsupported type %r", [keyValue item.1, item.2]⟩

def unsatisfiedDiagnostic (source : SourceUnit) (item : MappingKey × PyValue) : C1Diagnostic :=
  ⟨.typeError, source.sourcePath, "field %r does not satisfy declared type %r", [keyValue item.1, item.2]⟩

/-- What is wrong with a declared type, if anything. -/
def fieldComplaint (source : SourceUnit) (fields : Entries) (item : MappingKey × PyValue) : Option C1Diagnostic :=
  match item.2 with
  | .str typeName =>
    if typeName ∉ supportedTypes then some (unsupportedDiagnostic source item)
    else match Dict.find fields item.1 with
      | none => none
      | some value => if satisfiesType value typeName then none else some (unsatisfiedDiagnostic source item)
  | _ => some (unsupportedDiagnostic source item)

/-- The diagnostic that is appended, if there is one. -/
def raised (yaml : Yaml) : Option C1Diagnostic → Except PyError (List C1Diagnostic)
  | none => .ok []
  | some d => do
    let created ← d.create yaml.repr
    return [created]

/-- One turn of the loop over `field_types`; asking for the type's name in the grammar takes its hash. -/
def checkField (yaml : Yaml) (source : SourceUnit) (fields : Entries) (item : MappingKey × PyValue) :
    Except PyError (List C1Diagnostic) := do
  refuseIf (PyValue.hashable item.2 = false) (typeError "unhashable type")
  raised yaml (fieldComplaint source fields item)

def PyValue.text? : PyValue → Option PyStr
  | .str s => some s
  | _ => none

/-- What is wrong with the owners, if anything. -/
def ownerComplaint (source : SourceUnit) (owners : Option PyValue) : Option C1Diagnostic :=
  let malformed : C1Diagnostic :=
    ⟨.typeError, source.sourcePath, "execution_owner must be a string or a list of strings", []⟩
  let several (items : List PyValue) : Option C1Diagnostic :=
    let names := (items.filterMap PyValue.text?).dedup
    if ∃ item ∈ items, (PyValue.text? item).isNone then some malformed
    else if 1 < names.length then some ⟨.multipleExecutionOwners, source.sourcePath,
      "resource declares ambiguous execution owners: %s", [texts (names.insertionSort (· ≤ ·))]⟩
    else none
  match owners with
  | none | some .none | some (.str _) => none
  | some (.list items) | some (.tuple items) => several items
  | some _ => some malformed

def undeclaredDiagnostic (source : SourceUnit) (names : List MappingKey) : C1Diagnostic :=
  ⟨.typeError, source.sourcePath, "fields without a declared type: %s", [.list (names.map keyValue)]⟩

def shapeDiagnostic (source : SourceUnit) : C1Diagnostic :=
  ⟨.typeError, source.sourcePath, "'fields' and 'field_types' must be mappings", []⟩

/-- One turn of the loop of `FrontendTypeAndSemanticValidator.validate`. -/
def frontendDiagnose (yaml : Yaml) (source : SourceUnit) (document : Entries) : Except PyError (List C1Diagnostic) :=
  match document.get? "field_types", document.get? "fields", document.get? "id" with
  | some (.mapping types), some (.mapping fields), some id =>
    if id ≠ .str source.resourceId then raised yaml (some (idDiagnostic source id))
    else do
      let undeclared := fields.filter fun e => (Dict.find types e.1).isNone
      if undeclared ≠ [] then
        let names ← sortByKey yaml undeclared
        raised yaml (some (undeclaredDiagnostic source (names.map Prod.fst)))
      else
        let sorted ← sortByKey yaml types
        let typed ← sorted.mapM (checkField yaml source fields)
        if typed.flatten ≠ [] then return typed.flatten
        else raised yaml (ownerComplaint source (document.get? "execution_owner"))
  | some _, some _, some _ => raised yaml (some (shapeDiagnostic source))
  | _, _, _ => raised yaml (some (missingDiagnostic source (missingKeys ["field_types", "fields", "id"] document)))

/-! ## References -/

/-- `by_id`, in the order of insertion. -/
def byId (parsed : List (SourceUnit × Entries)) : List (PyStr × Entries) :=
  parsed.foldl (fun acc p => Dict.put p.1.resourceId p.2 acc) []

/-- `iter(value)`. -/
def iterate (yaml : Yaml) : PyValue → Except PyError (List PyValue)
  | .list items | .tuple items => .ok items
  | .str s => .ok (s.map fun c => .str [c])
  | .mapping entries => .ok (entries.map (keyValue ·.1))
  | .other typeName => yaml.iterate typeName
  | _ => .error (typeError "object is not iterable")

/-- The items of `document.get("references", [])`. -/
def references (yaml : Yaml) (document : Entries) : Except PyError (List PyValue) :=
  match document.get? "references" with
  | none => .ok []
  | some value => iterate yaml value

def PyValue.isNumber : PyValue → Bool
  | .bool _ | .int _ | .float _ => true
  | _ => false

mutual
/-- Whether two values can be ordered: texts, numbers, values of one other type, and tuples that first differ
in such values. -/
def PyValue.comparable : PyValue → PyValue → Bool
  | .str _, .str _ => true
  | .tuple items, .tuple others => comparableItems items others
  | .other typeName, .other otherName => typeName == otherName
  | a, b => PyValue.isNumber a && PyValue.isNumber b
def comparableItems : List PyValue → List PyValue → Bool
  | item :: items, other :: others =>
    if item.pyEq other then comparableItems items others else PyValue.comparable item other
  | _, _ => true
end

/-- `sorted({...})` goes through. -/
def Sortable (items : List PyValue) : Prop :=
  ∀ a ∈ items, ∀ b ∈ items, a = b ∨ PyValue.comparable a b = true

instance (items : List PyValue) : Decidable (Sortable items) :=
  inferInstanceAs (Decidable (∀ a ∈ items, ∀ b ∈ items, _))

/-- `require_resolved_references`. -/
def requireResolvedReferences (defined : List PyStr) (referenced : List PyValue) : Except Fault Unit := do
  let _ ← uniqueStrings "defined" defined
  refuseIf (∃ item ∈ referenced, (PyValue.text? item).isNone)
    (reject .sourceInvalid (py "referenced") "referenced contains an invalid value")
  let sorted := (referenced.filterMap PyValue.text?).dedup.insertionSort (· ≤ ·)
  let _ ← uniqueStrings "referenced" sorted
  let unresolved := sorted.filter fun name => name ∉ defined
  refuseIf (unresolved ≠ []) (.c1Error (unresolved.map fun name =>
    ⟨.unresolvedReference, name, "reference does not resolve in the canonical symbol table", []⟩))

/-! ### Cycles -/

inductive Color
  | white
  | gray
  | black
deriving DecidableEq

structure Search where
  color : PyStr → Option Color
  path : List PyStr

/-- What visiting a node ends with: a cycle, or nothing. -/
abbrev Visit := Except PyError (Option (List PyStr) × Search)

/-- The loop over the neighbours of a node. -/
def visitNeighbors (visit : PyStr → Search → Visit) : List PyStr → Search → Visit
  | [], s => .ok (none, s)
  | neighbor :: rest, s =>
    match s.color neighbor with
    | none | some .black => visitNeighbors visit rest s
    | some .gray => .ok (some (s.path.drop (s.path.idxOf neighbor) ++ [neighbor]), s)
    | some .white => do
      let (found, s) ← visit neighbor s
      match found with
      | some cycle => return (some cycle, s)
      | none => visitNeighbors visit rest s

/-- `visit`, as deep as the interpreter allows. -/
def visit (graph : PyStr → List PyStr) : ℕ → PyStr → Search → Visit
  | 0, _, _ => .error ⟨.runtimeError, "maximum recursion depth exceeded", []⟩
  | depth + 1, node, s => do
    let (found, s) ← visitNeighbors (visit graph depth) (graph node)
      ⟨Function.update s.color node (some .gray), s.path ++ [node]⟩
    match found with
    | some cycle => return (some cycle, s)
    | none => return (none, ⟨Function.update s.color node (some .black), s.path.dropLast⟩)

def searchFrom (graph : PyStr → List PyStr) (depth : ℕ) : List PyStr → Search → Except PyError (Option (List PyStr))
  | [], _ => .ok none
  | node :: rest, s =>
    match s.color node with
    | some .white => do
      let (found, s) ← visit graph depth node s
      match found with
      | some cycle => return some cycle
      | none => searchFrom graph depth rest s
    | _ => searchFrom graph depth rest s

/-- `_find_cycle`, of the graph over these nodes. -/
def findCycle (depth : ℕ) (nodes : List PyStr) (graph : PyStr → List PyStr) : Except PyError (Option (List PyStr)) :=
  searchFrom graph depth (nodes.insertionSort (· ≤ ·))
    ⟨fun node => if node ∈ nodes then some .white else none, []⟩

/-- The texts among the references of a resource of `by_id`. -/
def graphOf (yaml : Yaml) (documents : List (PyStr × Entries)) (node : PyStr) : List PyStr :=
  match Dict.find documents node with
  | none => []
  | some document => ((references yaml document).toOption.getD []).filterMap PyValue.text?

def cycleDiagnostic (cycle : List PyStr) : C1Diagnostic :=
  ⟨.constraintError, cycle.headD [], "cyclic reference: %s", [.str ((py " -> ").intercalate cycle)]⟩

/-- `FrontendTypeAndSemanticValidator.validate`. -/
def frontendValidate (yaml : Yaml) (depth : ℕ) (parsed : List (SourceUnit × Entries)) : Except Fault Unit := do
  let diagnostics ← liftPy (parsed.mapM fun p => frontendDiagnose yaml p.1 p.2)
  refuseIf (diagnostics.flatten ≠ []) (.c1Error diagnostics.flatten)
  let documents := byId parsed
  let referenced ← liftPy (documents.mapM fun d => references yaml d.2)
  refuseIf (∃ item ∈ referenced.flatten, PyValue.hashable item = false) (.raised (typeError "unhashable type"))
  refuseIf (¬ Sortable referenced.flatten) (.raised (typeError "'<' not supported between instances"))
  requireResolvedReferences (documents.map Prod.fst) referenced.flatten
  match ← liftPy (findCycle depth (documents.map Prod.fst) (graphOf yaml documents)) with
  | none => return ()
  | some cycle => do
    let diagnostic ← liftPy ((cycleDiagnostic cycle).create yaml.repr)
    .error (.c1Error [diagnostic])

/-! ## Builders -/

/-- `document[name]`. -/
def item (document : Entries) (name : String) : Except PyError PyValue :=
  orRaise (document.get? name) ⟨.keyError, "%r", [.text (py name)]⟩

inductive IrBuilder
  /-- `RetainedCanonicalIrBuilder`. -/
  | retained
  /-- `FrontendCanonicalIrBuilder`. -/
  | frontend
deriving DecidableEq

namespace IrBuilder

def validate (yaml : Yaml) (depth : ℕ) (parsed : List (SourceUnit × Entries)) : IrBuilder → Except Fault Unit
  | .retained => retainedValidate parsed
  | .frontend => frontendValidate yaml depth parsed

/-- What a resource has in every release. -/
def identity (source : SourceUnit) (fields : PyValue) : Entries :=
  [(.str (py "version"), .str source.version), (.str (py "content_digest"), .str source.contentDigest),
    (.str (py "fields"), fields)]

/-- What the frontend keeps besides. -/
def declarations (types : PyValue) (referenced : List PyValue) (owner : PyValue) : Entries :=
  [(.str (py "field_types"), types), (.str (py "references"), .list referenced), (.str (py "execution_owner"), owner)]

/-- The entry of a source in `core.resources`. -/
def entry (yaml : Yaml) (source : SourceUnit) (document : Entries) : IrBuilder → Except PyError PyValue
  | .retained => do
    let fields ← item document "fields"
    return .mapping (identity source fields)
  | .frontend => do
    let fields ← item document "fields"
    let types ← item document "field_types"
    let referenced ← references yaml document
    return .mapping (identity source fields ++
      declarations types referenced ((document.get? "execution_owner").getD .none))

end IrBuilder

/-- `resources`: the last source under an identifier stays. -/
def collectResources (entries : List (PyStr × PyValue)) : Entries :=
  entries.foldl (fun acc e => Dict.put (.str e.1) e.2 acc) []

def coreOf (request : CompilerRequest) (resources : Entries) : Entries :=
  [(.str (py "package_id"), .str request.packageId), (.str (py "semantic_version"), .str request.semanticVersion),
    (.str (py "source_commit"), .str request.sourceCommit),
    (.str (py "compiler_version"), .str request.compilerVersion),
    (.str (py "mapping_version"), .str request.mappingVersion),
    (.str (py "release_profile"), .str request.releaseProfile), (.str (py "resources"), .mapping resources)]

/-- `migration_metadata`: the identities of all sources, sorted. -/
def metadataOf (request : CompilerRequest) : PyValue :=
  .mapping [(.str (py "package_id"), .str request.packageId),
    (.str (py "semantic_version"), .str request.semanticVersion),
    (.str (py "resource_identity"), .list (((request.sources.map fun source => toLex source.key).insertionSort (· ≤ ·)).map
      fun key => .mapping [(.str (py "resource_id"), .str (ofLex key).1), (.str (py "version"), .str (ofLex key).2)]))]

/-- The release over the entries of the sources. -/
def assemble (request : CompilerRequest) (entries : List (PyStr × PyValue)) : Except Fault CanonicalIrRelease := do
  let core := coreOf request (collectResources entries)
  let metadataDigest ← canonicalDigest (metadataOf request)
  let artifact ← ArtifactManifestEntry.create (request.packageId ++ py ":migration-metadata")
    (py "application/vnd.ocor.migration-metadata+json") metadataDigest
  let coreDigest ← canonicalDigest (.mapping core)
  CanonicalIrRelease.create core [artifact] (py "urn:ocor:unsigned:" ++ coreDigest)

/-- `build`. -/
def IrBuilder.build (b : IrBuilder) (yaml : Yaml) (depth : ℕ) (request : CompilerRequest) :
    Except Fault CanonicalIrRelease := do
  let parsed ← request.sources.mapM fun source => do return (source, ← parse yaml source)
  b.validate yaml depth parsed
  let entries ← liftPy (parsed.mapM fun p => do return (p.1.resourceId, ← b.entry yaml p.1 p.2))
  assemble request entries

end OcorRuntime.Compiler
