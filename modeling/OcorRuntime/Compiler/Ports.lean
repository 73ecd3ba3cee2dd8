import OcorRuntime.Canonical.Serialize
import OcorRuntime.Kernel.Governance

/-! The records of the compiler (`c1/ports.py`): diagnostics, source units, the request with
what its constructor checks, and the canonical release. A value a message shows is kept
as the value, not as its text. -/
namespace OcorRuntime.Compiler
open Canonical Kernel
set_option autoImplicit false
set_option maxHeartbeats 250000

/-! ## Diagnostics -/

inductive DiagnosticCode
  | sourceInvalid
  | unknownSyntax
  | lockInvalid
  | duplicateResource
  | unresolvedReference
  | typeError
  | constraintError
  | multipleExecutionOwners
  | unsupportedCapability
  | artifactDrift
  | releaseRejected
deriving DecidableEq

structure C1Diagnostic where
  code : DiagnosticCode
  path : PyStr
  /-- `%r` and `%s` mark the places of `args`. -/
  message : String
  args : List PyValue := []
deriving DecidableEq

namespace C1Diagnostic

/-- The text of a value in a message: `%s` shows a text as it is, everything else as `repr` does. -/
def shown (repr : PyValue → PyStr) : PyValue → PyStr
  | .str s => s
  | v => repr v

def interpolate (repr : PyValue → PyStr) : PyStr → List PyValue → PyStr
  | c :: d :: rest, arg :: args =>
    if [c, d] = py "%r" then repr arg ++ interpolate repr rest args
    else if [c, d] = py "%s" then shown repr arg ++ interpolate repr rest args
    else c :: interpolate repr (d :: rest) (arg :: args)
  | template, _ => template

def text (repr : PyValue → PyStr) (d : C1Diagnostic) : PyStr := interpolate repr (py d.message) d.args

/-- What `__post_init__` lets through. -/
def Bounded (repr : PyValue → PyStr) (d : C1Diagnostic) : Prop :=
  d.path ≠ [] ∧ d.text repr ≠ [] ∧ (d.text repr).length ≤ 512

instance (repr : PyValue → PyStr) (d : C1Diagnostic) : Decidable (d.Bounded repr) :=
  inferInstanceAs (Decidable (_ ∧ _ ∧ _))

/-- `C1Diagnostic(...)` with `__post_init__`. -/
def create (repr : PyValue → PyStr) (d : C1Diagnostic) : Except PyError C1Diagnostic :=
  if d.path = [] then .error ⟨.valueError, "diagnostic path is required", []⟩
  else if d.Bounded repr then .ok d
  else .error ⟨.valueError, "diagnostic message must be bounded and non-empty", []⟩

end C1Diagnostic

/-- What a compilation ends with without a result. -/
inductive Fault
  /-- `C1Error`. -/
  | c1Error (diagnostics : List C1Diagnostic)
  | raised (error : PyError)
deriving DecidableEq

/-- `_reject`. -/
def reject (code : DiagnosticCode) (path : PyStr) (message : String) : Fault := .c1Error [⟨code, path, message, []⟩]

/-- An exception of the libraries below. -/
def liftPy {α : Type} (x : Except PyError α) : Except Fault α := x.mapError .raised

/-- `_required`. -/
def required (field : String) (value : PyStr) : Except Fault (PLift (value ≠ [])) :=
  require (value ≠ []) (reject .sourceInvalid (py field) (field ++ " is required"))

/-- `_digest`. -/
def digest (field : String) (value : PyStr) (code : DiagnosticCode) : Except Fault (PLift (IsDigest value)) := do
  let _ ← required field value
  require (IsDigest value) (reject code (py field) (field ++ " must be a canonical SHA-256 URN"))

/-- `canonical_digest`. -/
def canonicalDigest (value : PyValue) : Except Fault PyStr := do
  let bytes ← liftPy (canonicalize value)
  return py "urn:sha256:" ++ Sha256.hexdigest bytes

/-- What `_unique_strings` returns for texts: non-empty and pairwise distinct. -/
def UniqueStrings (values : List PyStr) : Prop := (∀ value ∈ values, value ≠ []) ∧ values.Nodup

def uniqueStrings (field : String) (values : List PyStr) : Except Fault (PLift (UniqueStrings values)) := do
  let ⟨h1⟩ ← require (∀ value ∈ values, value ≠ [])
    (reject .sourceInvalid (py field) (field ++ " contains an invalid value"))
  let ⟨h2⟩ ← require values.Nodup (reject .duplicateResource (py field) (field ++ " contains duplicates"))
  return ⟨h1, h2⟩

/-! ## Source units -/

inductive SourceSyntax
  | yaml
  | json
deriving DecidableEq

def SourceSyntax.value : SourceSyntax → String
  | .yaml => "YAML"
  | .json => "JSON"

/-- The constructor of the source checks nothing. -/
structure SourceUnit where
  resourceId : PyStr
  version : PyStr
  language : SourceSyntax
  content : Bytes
  contentDigest : PyStr
  sourcePath : PyStr
  imports : List PyStr
deriving DecidableEq

/-- The identity of a source in a request. -/
def SourceUnit.key (s : SourceUnit) : PyStr × PyStr := (s.resourceId, s.version)

/-- `SourceUnit.create`. -/
def SourceUnit.create (resourceId version language : PyStr) (content : Bytes) (sourcePath : PyStr)
    (imports : List PyStr) : Except Fault SourceUnit := do
  let path := if sourcePath = [] then py "$" else sourcePath
  let parsed ←
    if language = py "YAML" then .ok SourceSyntax.yaml
    else if language = py "JSON" then .ok SourceSyntax.json
    else .error (.c1Error [⟨.unknownSyntax, path, "unknown source syntax: %s", [.str language]⟩])
  refuseIf (content = []) (reject .sourceInvalid path "source is empty")
  let _ ← required "resource_id" resourceId
  let _ ← required "version" version
  let contentDigest ← canonicalDigest (.mapping [(.str (py "bytes_hex"), .str (hex content))])
  let _ ← required "source_path" sourcePath
  let _ ← uniqueStrings "imports" imports
  return ⟨resourceId, version, parsed, content, contentDigest, sourcePath, imports⟩

/-! ## Requests -/

structure DependencyLockEntry where
  resourceId : PyStr
  version : PyStr
  digest : PyStr
  identified : resourceId ≠ [] ∧ version ≠ []
  locked : IsDigest digest

/-- `DependencyLockEntry(...)` with `__post_init__`. -/
def DependencyLockEntry.create (resourceId version digest : PyStr) : Except Fault DependencyLockEntry := do
  let ⟨h1⟩ ← required "resource_id" resourceId
  let ⟨h2⟩ ← required "version" version
  let ⟨locked⟩ ← Compiler.digest "digest" digest .lockInvalid
  return { resourceId, version, digest, identified := ⟨h1, h2⟩, locked }

/-- A lowercase Git SHA-1. -/
def IsCommit (value : PyStr) : Prop := value.length = 40 ∧ value.all isHex = true

instance (value : PyStr) : Decidable (IsCommit value) := inferInstanceAs (Decidable (_ ∧ _))

structure CompilerRequest where
  packageId : PyStr
  semanticVersion : PyStr
  sourceCommit : PyStr
  compilerVersion : PyStr
  mappingVersion : PyStr
  releaseProfile : PyStr
  sources : List SourceUnit
  dependencyLock : List DependencyLockEntry
  named : packageId ≠ [] ∧ semanticVersion ≠ [] ∧ compilerVersion ≠ [] ∧ mappingVersion ≠ [] ∧ releaseProfile ≠ []
  committed : IsCommit sourceCommit
  sourced : sources ≠ []
  unique : (sources.map SourceUnit.key).Nodup
  locked : (dependencyLock.map fun lock => (lock.resourceId, lock.version)).Nodup
  resolved : ∀ source ∈ sources, ∀ reference ∈ source.imports, reference ∈ dependencyLock.map (·.resourceId)

/-- The imports no lock entry covers, sorted. -/
def unresolvedImports (sources : List SourceUnit) (locks : List DependencyLockEntry) : List PyStr :=
  ((sources.flatMap SourceUnit.imports).filter fun reference => reference ∉ locks.map (·.resourceId)).dedup.insertionSort
    (· ≤ ·)

theorem resolved_of_unresolvedImports {sources : List SourceUnit} {locks : List DependencyLockEntry}
    (h : unresolvedImports sources locks = []) :
    ∀ source ∈ sources, ∀ reference ∈ source.imports, reference ∈ locks.map (·.resourceId) := by
  intro source hsource reference hreference
  by_contra hunlocked
  have hmem : reference ∈ unresolvedImports sources locks := by
    rw [unresolvedImports, List.mem_insertionSort, List.mem_dedup, List.mem_filter, List.mem_flatMap]
    exact ⟨⟨source, hsource, hreference⟩, by simpa using hunlocked⟩
  rw [h] at hmem
  cases hmem

/-- `CompilerRequest(...)` with `__post_init__`. -/
def CompilerRequest.create (packageId semanticVersion sourceCommit compilerVersion mappingVersion releaseProfile : PyStr)
    (sources : List SourceUnit) (dependencyLock : List DependencyLockEntry) : Except Fault CompilerRequest := do
  let ⟨h1⟩ ← required "package_id" packageId
  let ⟨h2⟩ ← required "semantic_version" semanticVersion
  let ⟨h3⟩ ← required "compiler_version" compilerVersion
  let ⟨h4⟩ ← required "mapping_version" mappingVersion
  let ⟨h5⟩ ← required "release_profile" releaseProfile
  let ⟨committed⟩ ← require (IsCommit sourceCommit)
    (reject .sourceInvalid (py "source_commit") "source_commit must be an exact lowercase Git SHA-1")
  let ⟨sourced⟩ ← require (sources ≠ []) (reject .sourceInvalid (py "sources") "at least one source is required")
  let ⟨unique⟩ ← require (sources.map SourceUnit.key).Nodup
    (reject .duplicateResource (py "sources") "source resource/version identity is duplicated")
  let ⟨locked⟩ ← require (dependencyLock.map fun lock => (lock.resourceId, lock.version)).Nodup
    (reject .duplicateResource (py "dependency_lock") "lock resource/version identity is duplicated")
  let ⟨h⟩ ← require (unresolvedImports sources dependencyLock = [])
    (.c1Error ((unresolvedImports sources dependencyLock).map fun reference =>
      ⟨.unresolvedReference, reference, "import is absent from dependency lock", []⟩))
  return { packageId, semanticVersion, sourceCommit, compilerVersion, mappingVersion, releaseProfile, sources,
           dependencyLock, named := ⟨h1, h2, h3, h4, h5⟩, committed, sourced, unique, locked,
           resolved := resolved_of_unresolvedImports h }

/-! ## Releases -/

structure ArtifactManifestEntry where
  artifactId : PyStr
  mediaType : PyStr
  digest : PyStr
  named : artifactId ≠ [] ∧ mediaType ≠ []
  addressed : IsDigest digest
deriving DecidableEq

/-- `ArtifactManifestEntry(...)` with `__post_init__`. -/
def ArtifactManifestEntry.create (artifactId mediaType digest : PyStr) : Except Fault ArtifactManifestEntry := do
  let ⟨h1⟩ ← required "artifact_id" artifactId
  let ⟨h2⟩ ← required "media_type" mediaType
  let ⟨addressed⟩ ← Compiler.digest "digest" digest .artifactDrift
  return { artifactId, mediaType, digest, named := ⟨h1, h2⟩, addressed }

mutual
/-- `_freeze`, of a value with text keys. -/
def freeze : PyValue → PyValue
  | .list items => .tuple (freezeItems items)
  | .tuple items => .tuple (freezeItems items)
  | .mapping entries => .mapping (freezeEntries entries)
  | v => v
def freezeItems : List PyValue → List PyValue
  | [] => []
  | item :: items => freeze item :: freezeItems items
def freezeEntries : List (MappingKey × PyValue) → List (MappingKey × PyValue)
  | [] => []
  | (key, value) :: entries => (key, freeze value) :: freezeEntries entries
end

attribute [local grind =] freeze freezeItems freezeEntries

abbrev Entries := List (MappingKey × PyValue)

/-- `document.get(name)`. -/
def Entries.get? (entries : Entries) (name : String) : Option PyValue := Dict.find entries (.str (py name))

structure CanonicalIrRelease where
  core : Entries
  canonicalBytes : Bytes
  irDigest : PyStr
  artifacts : List ArtifactManifestEntry
  signatureEnvelopeRef : PyStr

/-- `CanonicalIrRelease.create`. -/
def CanonicalIrRelease.create (core : Entries) (artifacts : List ArtifactManifestEntry) (signatureEnvelopeRef : PyStr) :
    Except Fault CanonicalIrRelease := do
  refuseIf (core = []) (reject .releaseRejected (py "core") "Canonical IR core is empty")
  let encoded ← liftPy (canonicalize (.mapping core))
  refuseIf (¬ (artifacts.map ArtifactManifestEntry.artifactId).Nodup)
    (reject .duplicateResource (py "artifacts") "artifact identifier is duplicated")
  let irDigest ← canonicalDigest (.mapping core)
  let _ ← required "signature_envelope_ref" signatureEnvelopeRef
  return ⟨freezeEntries core, encoded, irDigest, artifacts, signatureEnvelopeRef⟩

/-! ## Steps that succeed -/

theorem bind_eq_ok {α β : Type} {x : Except Fault α} {f : α → Except Fault β} {b : β} :
    x >>= f = .ok b ↔ ∃ a, x = .ok a ∧ f a = .ok b := by
  cases x <;> simp [bind, Except.bind]

theorem liftPy_eq_ok {α : Type} {x : Except PyError α} {a : α} : liftPy x = .ok a ↔ x = .ok a := by
  cases x <;> simp [liftPy, Except.mapError]

theorem canonicalDigest_eq_ok {v : PyValue} {d : PyStr} :
    canonicalDigest v = .ok d ↔ ∃ bytes, canonicalize v = .ok bytes ∧ py "urn:sha256:" ++ Sha256.hexdigest bytes = d := by
  rw [canonicalDigest, bind_eq_ok]
  refine exists_congr fun bytes => and_congr liftPy_eq_ok ⟨Except.ok.inj, fun h => congrArg Except.ok h⟩

theorem required_ok {field : String} {value : PyStr} (h : value ≠ []) : required field value = .ok ⟨h⟩ := by
  rw [required, require, dif_pos h]

theorem freezeEntries_eq (entries : Entries) : freezeEntries entries = entries.map fun e => (e.1, freeze e.2) := by
  induction entries with
  | nil => rfl
  | cons e entries ih => rw [freezeEntries, ih, List.map_cons]

theorem find_freezeEntries (entries : Entries) (key : MappingKey) :
    Dict.find (freezeEntries entries) key = (Dict.find entries key).map freeze := by
  induction entries with
  | nil => rfl
  | cons e entries ih =>
    rw [freezeEntries, Dict.find, Dict.find, ih]
    split_ifs <;> rfl

end OcorRuntime.Compiler
