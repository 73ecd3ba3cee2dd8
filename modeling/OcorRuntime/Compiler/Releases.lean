import OcorRuntime.Compiler.Ports

/-! Retained releases (`c1/releases.py`): the structural diff of two releases, their compatibility, the migration
plan and the generation of artifacts. Resources are the dictionary under `resources` in the frozen core, and their
identifiers are texts. -/
namespace OcorRuntime.Compiler
open Canonical Kernel
set_option autoImplicit false
set_option maxHeartbeats 250000

inductive Classification
  | identical
  | compatible
  | breaking
deriving DecidableEq

def Classification.value : Classification → String
  | .identical => "IDENTICAL"
  | .compatible => "COMPATIBLE"
  | .breaking => "BREAKING"

/-- `_resources`. -/
def resourcesOf (release : CanonicalIrRelease) : Entries :=
  match Entries.get? release.core "resources" with
  | some (.mapping resources) => resources
  | _ => []

/-! ## The diff -/

@[ext] structure StructuralDiff where
  added : List PyStr
  removed : List PyStr
  changed : List PyStr
deriving DecidableEq

/-- The identifiers of these resources, sorted. -/
def sortedIds (resources : Entries) : List PyStr :=
  (resources.filterMap fun e => MappingKey.str? e.1).insertionSort (· ≤ ·)

/-- `_structural_diff`. -/
def structuralDiff (previous candidate : CanonicalIrRelease) : StructuralDiff where
  added := sortedIds ((resourcesOf candidate).filter fun e => (Dict.find (resourcesOf previous) e.1).isNone)
  removed := sortedIds ((resourcesOf previous).filter fun e => (Dict.find (resourcesOf candidate) e.1).isNone)
  changed := sortedIds ((resourcesOf previous).filter fun e =>
    match Dict.find (resourcesOf candidate) e.1 with
    | none => false
    | some after => ! PyValue.pyEq e.2 after)

def idTexts (ids : List PyStr) : PyValue := .list (ids.map .str)

def StructuralDiff.document (diff : StructuralDiff) : PyValue :=
  .mapping [(.str (py "added"), idTexts diff.added), (.str (py "removed"), idTexts diff.removed),
    (.str (py "changed"), idTexts diff.changed)]

/-- `RetainedSemanticDiffEngine.compare`. -/
def compare (previous candidate : CanonicalIrRelease) : Except Fault PyStr :=
  canonicalDigest (structuralDiff previous candidate).document

/-! ## Compatibility -/

def attributeError : PyError := ⟨.foreign "AttributeError", "object has no attribute 'get'", []⟩

/-- `dict(resource.get("field_types", {}))`. -/
def fieldTypes (resource : PyValue) : Except PyError Entries :=
  match resource with
  | .mapping members =>
    match Entries.get? members "field_types" with
    | none => .ok []
    | some (.mapping types) => .ok types
    | some _ => .error ⟨.typeError, "object is not a mapping", []⟩
  | _ => .error attributeError

/-- The types of a resource that a later one does not keep. -/
def lostTypes (before after : Entries) : Entries :=
  before.filter fun field =>
    match Dict.find after field.1 with
    | none => true
    | some afterType => ! PyValue.pyEq afterType field.2

/-- The loop of `check` over the resources that were there before. -/
def checkResources (after : Entries) : Entries → Except PyError Classification
  | [] => .ok .compatible
  | (resourceId, beforeResource) :: rest => do
    let afterResource ← orRaise (Dict.find after resourceId) ⟨.keyError, "%r", []⟩
    let beforeTypes ← fieldTypes beforeResource
    let afterTypes ← fieldTypes afterResource
    if lostTypes beforeTypes afterTypes ≠ [] then return .breaking
    else checkResources after rest

/-- `RetainedCompatibilityChecker.check`. -/
def check (previous candidate : CanonicalIrRelease) : Except PyError Classification :=
  let before := resourcesOf previous
  let after := resourcesOf candidate
  if PyValue.pyEq (.mapping before) (.mapping after) then .ok .identical
  else if ∃ e ∈ before, (Dict.find after e.1).isNone then .ok .breaking
  else checkResources after before

/-! ## Plans -/

inductive MigrationOp
  | retire
  | expandMigrateContract
  | introduce
deriving DecidableEq

def MigrationOp.value : MigrationOp → String
  | .retire => "retire"
  | .expandMigrateContract => "expand-migrate-contract"
  | .introduce => "introduce"

structure MigrationStep where
  op : MigrationOp
  resourceId : PyStr
deriving DecidableEq

def MigrationStep.document (step : MigrationStep) : PyValue :=
  .mapping [(.str (py "op"), .str (py step.op.value)), (.str (py "resource_id"), .str step.resourceId)]

structure MigrationPlan where
  previousIrDigest : PyStr
  candidateIrDigest : PyStr
  diffDigest : PyStr
  classification : Classification
  migrationSteps : List MigrationStep
  planDigest : PyStr

def migrationSteps (diff : StructuralDiff) : List MigrationStep :=
  diff.removed.map (⟨.retire, ·⟩) ++ diff.changed.map (⟨.expandMigrateContract, ·⟩) ++ diff.added.map (⟨.introduce, ·⟩)

/-- The body a plan's digest is taken of. -/
def planBody (previousIrDigest candidateIrDigest diffDigest : PyStr) (classification : Classification)
    (steps : List MigrationStep) : PyValue :=
  .mapping [(.str (py "previous_ir_digest"), .str previousIrDigest),
    (.str (py "candidate_ir_digest"), .str candidateIrDigest), (.str (py "diff_digest"), .str diffDigest),
    (.str (py "classification"), .str (py classification.value)),
    (.str (py "migration_steps"), .list (steps.map MigrationStep.document))]

/-- `RetainedMigrationPlanner.plan`. -/
def plan (previous candidate : CanonicalIrRelease) : Except Fault MigrationPlan := do
  let steps := migrationSteps (structuralDiff previous candidate)
  let diffDigest ← compare previous candidate
  let classification ← liftPy (check previous candidate)
  let planDigest ← canonicalDigest
    (planBody previous.irDigest candidate.irDigest diffDigest classification steps)
  return ⟨previous.irDigest, candidate.irDigest, diffDigest, classification, steps, planDigest⟩

/-! ## Artifacts -/

/-- `resource[name]`. -/
def member (resource : PyValue) (name : String) : Except PyError PyValue :=
  match resource with
  | .mapping members => orRaise (Entries.get? members name) ⟨.keyError, "%r", [.text (py name)]⟩
  | _ => .error ⟨.typeError, "object is not subscriptable", []⟩

/-- The line of a resource in the manifest. -/
def manifestLine (e : MappingKey × PyValue) : Except PyError (PyStr × PyValue) := do
  let version ← member e.2 "version"
  let contentDigest ← member e.2 "content_digest"
  let resourceId := (MappingKey.str? e.1).getD []
  return (resourceId, .mapping [(.str (py "resource_id"), .str resourceId), (.str (py "version"), version),
    (.str (py "content_digest"), contentDigest)])

/-- `manifest_body`, sorted: identifiers are distinct, so versions are never compared. -/
def manifestBody (resources : Entries) : Except PyError PyValue := do
  let lines ← resources.mapM manifestLine
  return .mapping [(.str (py "resources"), .list ((lines.insertionSort fun a b => a.1 ≤ b.1).map Prod.snd))]

/-- `release.core.get("package_id", ...)` as a text. -/
def packageIdOf (release : CanonicalIrRelease) (default : PyStr) : PyStr :=
  match Entries.get? release.core "package_id" with
  | some (.str packageId) => packageId
  | _ => default

/-- `RetainedArtifactGenerator.generate`. -/
def generate (release : CanonicalIrRelease) : Except Fault (List ArtifactManifestEntry) := do
  let body ← liftPy (manifestBody (resourcesOf release))
  let digest ← canonicalDigest body
  let artifact ← ArtifactManifestEntry.create (packageIdOf release (py "urn:ocor:package:unknown") ++ py ":release-manifest")
    (py "application/vnd.ocor.release-manifest+json") digest
  return [artifact]

/-- The refusal of `generate_governed`. -/
def ungoverned (candidate : CanonicalIrRelease) : Fault :=
  reject .releaseRejected (packageIdOf candidate (py "$"))
    "a BREAKING change cannot reach generation without a governed migration plan"

/-- `generate_governed`. -/
def generateGoverned (previous candidate : CanonicalIrRelease) (migrationPlan : Option MigrationPlan) :
    Except Fault (List ArtifactManifestEntry) := do
  let classification ← liftPy (check previous candidate)
  refuseIf (classification = .breaking ∧ ¬ ∃ p ∈ migrationPlan, p.migrationSteps ≠ []) (ungoverned candidate)
  generate candidate

end OcorRuntime.Compiler
