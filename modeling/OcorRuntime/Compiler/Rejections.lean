import OcorRuntime.Canonical.Refusals
import OcorRuntime.Compiler.ReferenceCycles

/-! How the frontend builder rejects what was parsed: with diagnostics, with a canonicalization
error, or with an exception of Python that nothing turns into either. -/
namespace OcorRuntime.Compiler
open Canonical Kernel
set_option autoImplicit false
set_option maxHeartbeats 250000

/-- `build`, after parsing. -/
def buildParsed (yaml : Yaml) (depth : ℕ) (request : CompilerRequest) (parsed : List (SourceUnit × Entries)) :
    Except Fault CanonicalIrRelease := do
  IrBuilder.frontend.validate yaml depth parsed
  let entries ← liftPy (parsed.mapM (entryPair .frontend yaml))
  assemble request entries

theorem build_eq_parse_bind (yaml : Yaml) (depth : ℕ) (request : CompilerRequest) :
    IrBuilder.frontend.build yaml depth request =
      request.sources.mapM (parsePair yaml) >>= buildParsed yaml depth request := rfl

/-- What a build may end in: bounded diagnostics, or a value outside I-JSON. -/
def Diagnosed (yaml : Yaml) : Fault → Prop
  | .c1Error diagnostics => diagnostics ≠ [] ∧ ∀ d ∈ diagnostics, d.Bounded yaml.repr
  | .raised error => IsCanonicalizationError error

/-! ## What the documents say -/

/-- `sorted`, of keys of one kind. -/
def sortedItems {α : Type} (items : List (MappingKey × α)) : List (MappingKey × α) :=
  items.insertionSort fun a b => sortByKey.keyOf a.1 ≤ sortByKey.keyOf b.1

def OneKind {α : Type} (yaml : Yaml) (items : List (MappingKey × α)) : Prop :=
  ∀ a ∈ items, ∀ b ∈ items, keyKindOf yaml a.1 = keyKindOf yaml b.1

def undeclaredFields (fields types : Entries) : Entries := fields.filter fun e => (Dict.find types e.1).isNone

/-- The three shapes the loop tells apart: both mappings and an id, some other members there, a member missing. -/
def byShape {α : Type} (document : Entries) (typed : Entries → Entries → PyValue → α) (untyped missing : α) : α :=
  match document.get? "field_types", document.get? "fields", document.get? "id" with
  | some (.mapping types), some (.mapping fields), some id => typed types fields id
  | some _, some _, some _ => untyped
  | _, _, _ => missing

/-- What there is to say about declared types and fields. -/
def typedComplaints (source : SourceUnit) (owners : Option PyValue) (types fields : Entries) (id : PyValue) :
    List C1Diagnostic :=
  if id ≠ .str source.resourceId then [idDiagnostic source id]
  else if undeclaredFields fields types ≠ [] then
    [undeclaredDiagnostic source ((sortedItems (undeclaredFields fields types)).map Prod.fst)]
  else
    let wrong := (sortedItems types).flatMap fun t => (fieldComplaint source fields t).toList
    if wrong ≠ [] then wrong else (ownerComplaint source owners).toList

/-- Everything the loop of the validator has to say about a document. -/
def complaints (source : SourceUnit) (document : Entries) : List C1Diagnostic :=
  byShape document (typedComplaints source (document.get? "execution_owner")) [shapeDiagnostic source]
    [missingDiagnostic source (missingKeys ["field_types", "fields", "id"] document)]

/-- The keys that are sorted are of one kind, and the type names that are looked up can be hashed. -/
def TypesReadable (yaml : Yaml) (source : SourceUnit) (types fields : Entries) (id : PyValue) : Prop :=
  id = .str source.resourceId →
    if undeclaredFields fields types ≠ [] then OneKind yaml (undeclaredFields fields types)
    else OneKind yaml types ∧ ∀ t ∈ types, PyValue.hashable t.2 = true

def Readable (yaml : Yaml) (source : SourceUnit) (document : Entries) : Prop :=
  byShape document (TypesReadable yaml source) True True

section
variable {yaml : Yaml} {source : SourceUnit} {document fields : Entries}

theorem raised_eq_ok {complaint : Option C1Diagnostic} {ds : List C1Diagnostic} :
    raised yaml complaint = .ok ds ↔ (∀ d ∈ complaint, d.Bounded yaml.repr) ∧ ds = complaint.toList := by
  cases complaint with
  | none => simp [raised, eq_comm]
  | some d =>
    rw [raised, C1Diagnostic.create]
    split_ifs with hpath hbounded
    · refine iff_of_false (fun h => nomatch h) fun h => (h.1 d rfl).1 hpath
    · exact ⟨fun h => ⟨fun d' hd' => Option.some.inj hd' ▸ hbounded, (Except.ok.inj h).symm⟩, fun h => by rw [h.2]; rfl⟩
    · exact iff_of_false (fun h => nomatch h) fun h => hbounded (h.1 d rfl)

theorem sortByKey_eq_ok {α : Type} {items sorted : List (MappingKey × α)} :
    sortByKey yaml items = .ok sorted ↔ OneKind yaml items ∧ sorted = sortedItems items := by
  rw [sortByKey, check_bind_eq_ok, refuseIf_eq_ok]
  refine and_congr ?_ ⟨fun h => (Except.ok.inj h).symm, fun h => by rw [h]; rfl⟩
  simp only [OneKind, not_exists, not_and, not_not]

theorem checkField_eq_ok {t : MappingKey × PyValue} {ds : List C1Diagnostic} :
    checkField yaml source fields t = .ok ds ↔ PyValue.hashable t.2 = true ∧
      (∀ d ∈ fieldComplaint source fields t, d.Bounded yaml.repr) ∧ ds = (fieldComplaint source fields t).toList := by
  rw [checkField, check_bind_eq_ok, refuseIf_eq_ok, raised_eq_ok, Bool.not_eq_false]

theorem checkFields_eq_ok {types : Entries} {typed : List (List C1Diagnostic)} :
    types.mapM (checkField yaml source fields) = .ok typed ↔
      (∀ t ∈ types, PyValue.hashable t.2 = true ∧ ∀ d ∈ fieldComplaint source fields t, d.Bounded yaml.repr) ∧
        typed = types.map fun t => (fieldComplaint source fields t).toList := by
  induction types generalizing typed with
  | nil => 
    exact ⟨fun h => ⟨fun t ht => absurd ht List.not_mem_nil, (Except.ok.inj h).symm⟩, fun h => by rw [h.2]; rfl⟩
  | cons t types ih =>
    rw [List.mapM_cons, OcorRuntime.bind_eq_ok]
    constructor
    · rintro ⟨ds, hds, h⟩
      obtain ⟨rest, hrest, h⟩ := OcorRuntime.bind_eq_ok.1 h
      obtain ⟨hhash, hbounded, rfl⟩ := checkField_eq_ok.1 hds
      obtain ⟨hall, rfl⟩ := ih.mp hrest
      exact ⟨List.forall_mem_cons.mpr ⟨⟨hhash, hbounded⟩, hall⟩, (Except.ok.inj h).symm⟩
    · rintro ⟨hall, rfl⟩
      obtain ⟨⟨hhash, hbounded⟩, hall⟩ := List.forall_mem_cons.mp hall
      exact ⟨_, checkField_eq_ok.2 ⟨hhash, hbounded, rfl⟩, OcorRuntime.bind_eq_ok.2 ⟨_, ih.mpr ⟨hall, rfl⟩, rfl⟩⟩

theorem byShape_cases (document : Entries) :
    (∃ types fields id, ∀ (α : Type) (typed : Entries → Entries → PyValue → α) (untyped missing : α),
        byShape document typed untyped missing = typed types fields id) ∨
      (∀ (α : Type) (typed : Entries → Entries → PyValue → α) (untyped missing : α),
        byShape document typed untyped missing = untyped) ∨
      ∀ (α : Type) (typed : Entries → Entries → PyValue → α) (untyped missing : α),
        byShape document typed untyped missing = missing := by
  unfold byShape
  split
  · exact Or.inl ⟨_, _, _, fun _ _ _ _ => rfl⟩
  · exact Or.inr (Or.inl fun _ _ _ _ => rfl)
  · exact Or.inr (Or.inr fun _ _ _ _ => rfl)


theorem raised_toList {complaint : Option C1Diagnostic} {ds : List C1Diagnostic} :
    raised yaml complaint = .ok ds ↔ (∀ c ∈ complaint.toList, c.Bounded yaml.repr) ∧ ds = complaint.toList := by
  simp only [raised_eq_ok, Option.mem_toList, Option.mem_def]

/-- The checks of a document that declares types. -/
def diagnoseTyped (yaml : Yaml) (source : SourceUnit) (owners : Option PyValue) (types fields : Entries) (id : PyValue) :
    Except PyError (List C1Diagnostic) :=
  if id ≠ .str source.resourceId then raised yaml (some (idDiagnostic source id))
  else do
    let undeclared := undeclaredFields fields types
    if undeclared ≠ [] then
      let names ← sortByKey yaml undeclared
      raised yaml (some (undeclaredDiagnostic source (names.map Prod.fst)))
    else
      let sorted ← sortByKey yaml types
      let typed ← sorted.mapM (checkField yaml source fields)
      if typed.flatten ≠ [] then return typed.flatten
      else raised yaml (ownerComplaint source owners)

theorem frontendDiagnose_eq (yaml : Yaml) (source : SourceUnit) (document : Entries) :
    frontendDiagnose yaml source document =
      byShape document (diagnoseTyped yaml source (document.get? "execution_owner"))
        (raised yaml (some (shapeDiagnostic source)))
        (raised yaml (some (missingDiagnostic source (missingKeys ["field_types", "fields", "id"] document)))) := rfl

theorem diagnoseTyped_eq_ok {owners : Option PyValue} {types : Entries} {id : PyValue} {ds : List C1Diagnostic} :
    diagnoseTyped yaml source owners types fields id = .ok ds ↔ TypesReadable yaml source types fields id ∧
      (∀ d ∈ typedComplaints source owners types fields id, d.Bounded yaml.repr) ∧
        ds = typedComplaints source owners types fields id := by
  unfold diagnoseTyped TypesReadable typedComplaints
  by_cases hnamed : id = .str source.resourceId
  · rw [if_neg (not_not.mpr hnamed), if_neg (not_not.mpr hnamed), forall_prop_of_true hnamed]
    by_cases hundeclared : undeclaredFields fields types = []
    · simp only [hundeclared, ne_eq, not_true_eq_false, if_false]
      set wrong := (sortedItems types).flatMap fun t => (fieldComplaint source fields t).toList with hwrong
      have hflat : ((sortedItems types).map fun t => (fieldComplaint source fields t).toList).flatten = wrong :=
        (List.flatMap_def ..).symm
      have hmem : ∀ t, t ∈ sortedItems types ↔ t ∈ types := fun t => List.mem_insertionSort _
      have hfits : (∀ d ∈ wrong, d.Bounded yaml.repr) ↔
          ∀ t ∈ types, ∀ d ∈ fieldComplaint source fields t, d.Bounded yaml.repr := by
        simp only [hwrong, List.mem_flatMap, hmem, Option.mem_toList, Option.mem_def, forall_exists_index, and_imp]
        exact ⟨fun h t ht d hd => h d t ht hd, fun h d t ht hd => h t ht d hd⟩
      rw [OcorRuntime.bind_eq_ok]
      constructor
      · rintro ⟨sorted, hsorted, h⟩
        obtain ⟨hkind, rfl⟩ := sortByKey_eq_ok.1 hsorted
        obtain ⟨typed, htyped, h⟩ := OcorRuntime.bind_eq_ok.1 h
        obtain ⟨hall, rfl⟩ := checkFields_eq_ok.1 htyped
        have hhash : ∀ t ∈ types, PyValue.hashable t.2 = true := fun t ht => (hall t ((hmem t).mpr ht)).1
        have hbounded := hfits.mpr fun t ht => (hall t ((hmem t).mpr ht)).2
        rw [hflat] at h
        split_ifs at h ⊢ with hnone
        · exact ⟨⟨hkind, hhash⟩, raised_toList.1 h⟩
        · exact ⟨⟨hkind, hhash⟩, hbounded, (Except.ok.inj h).symm⟩
      · rintro ⟨⟨hkind, hhash⟩, hbounded, hds⟩
        refine ⟨_, sortByKey_eq_ok.2 ⟨hkind, rfl⟩, OcorRuntime.bind_eq_ok.2 ⟨_, checkFields_eq_ok.2 ⟨?_, rfl⟩, ?_⟩⟩
        · intro t ht
          refine ⟨hhash t ((hmem t).mp ht), ?_⟩
          by_cases hnone : wrong = []
          · exact hfits.mp (fun d hd => by rw [hnone] at hd; cases hd) t ((hmem t).mp ht)
          · rw [if_pos hnone] at hbounded
            exact hfits.mp hbounded t ((hmem t).mp ht)
        · rw [hflat]
          split_ifs at hbounded hds ⊢ with hnone
          · exact raised_toList.2 ⟨hbounded, hds⟩
          · rw [hds]
            rfl
    · simp only [hundeclared, ne_eq, not_false_eq_true, if_true]
      rw [OcorRuntime.bind_eq_ok]
      constructor
      · rintro ⟨sorted, hsorted, h⟩
        obtain ⟨hkind, rfl⟩ := sortByKey_eq_ok.1 hsorted
        exact ⟨hkind, raised_toList.1 h⟩
      · rintro ⟨hkind, h⟩
        exact ⟨_, sortByKey_eq_ok.2 ⟨hkind, rfl⟩, raised_toList.2 h⟩
  · rw [if_pos hnamed, if_pos hnamed, raised_toList]
    exact ⟨fun h => ⟨fun hid => absurd hid hnamed, h⟩, fun h => h.2⟩

/-- A turn of the loop goes through exactly if the document can be read and what there is to say about it fits. -/
theorem frontendDiagnose_eq_ok {ds : List C1Diagnostic} :
    frontendDiagnose yaml source document = .ok ds ↔
      Readable yaml source document ∧ (∀ d ∈ complaints source document, d.Bounded yaml.repr) ∧
        ds = complaints source document := by
  rw [frontendDiagnose_eq, Readable, complaints]
  rcases byShape_cases document with ⟨types, fields, id, h⟩ | h | h
  · rw [h, h, h]
    exact diagnoseTyped_eq_ok
  · rw [h, h, h, true_and]
    exact raised_toList
  · rw [h, h, h, true_and]
    exact raised_toList

theorem frontendDiagnose_raises : OnlyRaises (fun e => ¬ IsCanonicalizationError e) (frontendDiagnose yaml source document) := by
  have hraised : ∀ complaint, OnlyRaises (fun e => ¬ IsCanonicalizationError e) (raised yaml complaint) := by
    intro complaint
    cases complaint with
    | none => exact onlyRaises_ok []
    | some d =>
      refine onlyRaises_bind.2 ⟨?_, fun _ _ => onlyRaises_ok _⟩
      unfold C1Diagnostic.create
      split_ifs
      · exact onlyRaises_error.2 (by decide)
      · exact onlyRaises_ok d
      · exact onlyRaises_error.2 (by decide)
  have hsort : ∀ items : Entries, OnlyRaises (fun e => ¬ IsCanonicalizationError e) (sortByKey yaml items) := fun items =>
    onlyRaises_check.2 ⟨onlyRaises_refuseIf.2 fun _ => (by decide), fun _ => onlyRaises_ok _⟩
  rw [frontendDiagnose_eq]
  rcases byShape_cases document with ⟨types, fields, id, h⟩ | h | h
  · rw [h, diagnoseTyped]
    split_ifs
    · exact hraised _
    · dsimp only
      split_ifs
      · exact onlyRaises_bind.2 ⟨hsort _, fun _ _ => hraised _⟩
      · refine onlyRaises_bind.2 ⟨hsort _, fun sorted _ => onlyRaises_bind.2 ⟨onlyRaises_mapM fun t _ => ?_, fun typed _ => ?_⟩⟩
        · exact onlyRaises_check.2 ⟨onlyRaises_refuseIf.2 fun _ => (by decide), fun _ => hraised _⟩
        · split_ifs
          · exact onlyRaises_ok _
          · exact hraised _
  · rw [h]
    exact hraised _
  · rw [h]
    exact hraised _

end

/-! ## What the references are -/

def ListsReferences (yaml : Yaml) (document : Entries) : Prop := ∃ items, references yaml document = .ok items

/-- What the validator gathers in a set and sorts. -/
def referencedItems (yaml : Yaml) (documents : List (PyStr × Entries)) : List PyValue :=
  documents.flatMap fun d => (references yaml d.2).toOption.getD []

/-- Every reference is a text and names one of the documents. -/
def Resolves (yaml : Yaml) (documents : List (PyStr × Entries)) : Prop :=
  UniqueStrings (documents.map Prod.fst) ∧
    ∀ item ∈ referencedItems yaml documents, ∃ name ∈ documents.map Prod.fst, item = .str name

/-- The references can be iterated, hashed and sorted; where they resolve, the search stays within the recursion
limit and the cycle it may find fits into a message. -/
structure ReferencesReadable (yaml : Yaml) (depth : ℕ) (documents : List (PyStr × Entries)) : Prop where
  listed : ∀ d ∈ documents, ListsReferences yaml d.2
  hashed : ∀ item ∈ referencedItems yaml documents, PyValue.hashable item = true
  sorted : Sortable (referencedItems yaml documents)
  searched : Resolves yaml documents → ∃ found, findCycle depth (documents.map Prod.fst) (graphOf yaml documents) = .ok found ∧
    ∀ cycle ∈ found, (cycleDiagnostic cycle).Bounded yaml.repr

/-- The inputs on which nothing but diagnostics and canonicalization errors is raised. The references of a
superseded version are read only when the release is assembled. -/
def Reportable (yaml : Yaml) (depth : ℕ) (parsed : List (SourceUnit × Entries)) : Prop :=
  (∀ p ∈ parsed, Readable yaml p.1 p.2 ∧ ∀ d ∈ complaints p.1 p.2, d.Bounded yaml.repr) ∧
    ((∀ p ∈ parsed, complaints p.1 p.2 = []) → ReferencesReadable yaml depth (byId parsed) ∧
      (Resolves yaml (byId parsed) →
        findCycle depth ((byId parsed).map Prod.fst) (graphOf yaml (byId parsed)) = .ok none →
          ∀ p ∈ parsed, ListsReferences yaml p.2))

section
variable {yaml : Yaml} {depth : ℕ} {documents : List (PyStr × Entries)} {parsed : List (SourceUnit × Entries)}

/-- The part of the validator that follows the loop. -/
def referencePhase (yaml : Yaml) (depth : ℕ) (documents : List (PyStr × Entries)) : Except Fault Unit := do
  let referenced ← liftPy (documents.mapM fun d => references yaml d.2)
  refuseIf (∃ item ∈ referenced.flatten, PyValue.hashable item = false) (.raised (typeError "unhashable type"))
  refuseIf (¬ Sortable referenced.flatten) (.raised (typeError "'<' not supported between instances"))
  requireResolvedReferences (documents.map Prod.fst) referenced.flatten
  match ← liftPy (findCycle depth (documents.map Prod.fst) (graphOf yaml documents)) with
  | none => return ()
  | some cycle => do
    let diagnostic ← liftPy ((cycleDiagnostic cycle).create yaml.repr)
    .error (.c1Error [diagnostic])

theorem frontendValidate_eq (yaml : Yaml) (depth : ℕ) (parsed : List (SourceUnit × Entries)) :
    frontendValidate yaml depth parsed = (do
      let diagnostics ← liftPy (parsed.mapM fun p => frontendDiagnose yaml p.1 p.2)
      refuseIf (diagnostics.flatten ≠ []) (.c1Error diagnostics.flatten)
      referencePhase yaml depth (byId parsed)) := rfl

/-! ### Messages without arguments -/

theorem diagnosed_reject {code : DiagnosticCode} {path : PyStr} {message : String} (hpath : path ≠ [])
    (hmessage : py message ≠ [] ∧ (py message).length ≤ 512) : Diagnosed yaml (reject code path message) := by
  refine ⟨List.cons_ne_nil _ _, fun d hd => ?_⟩
  have htext : (⟨code, path, message, []⟩ : C1Diagnostic).text yaml.repr = py message := by
    rw [C1Diagnostic.text]
    unfold C1Diagnostic.interpolate
    split <;> simp_all
  rw [List.mem_singleton.mp hd, C1Diagnostic.Bounded, htext]
  exact ⟨hpath, hmessage⟩

theorem diagnosed_required {field : String} {value : PyStr} (hfield : py field ≠ [])
    (hmessage : py (field ++ " is required") ≠ [] ∧ (py (field ++ " is required")).length ≤ 512) :
    OnlyRaises (Diagnosed yaml) (required field value) :=
  onlyRaises_require.2 fun _ => diagnosed_reject hfield hmessage

theorem diagnosed_uniqueStrings {field : String} {values : List PyStr} (hfield : py field ≠ [])
    (hinvalid : py (field ++ " contains an invalid value") ≠ [] ∧ (py (field ++ " contains an invalid value")).length ≤ 512)
    (hduplicates : py (field ++ " contains duplicates") ≠ [] ∧ (py (field ++ " contains duplicates")).length ≤ 512) :
    OnlyRaises (Diagnosed yaml) (uniqueStrings field values) :=
  onlyRaises_bind.2 ⟨onlyRaises_require.2 fun _ => diagnosed_reject hfield hinvalid, fun ⟨_⟩ _ =>
    onlyRaises_bind.2 ⟨onlyRaises_require.2 fun _ => diagnosed_reject hfield hduplicates, fun _ _ => onlyRaises_ok _⟩⟩

theorem diagnosed_liftPy {α : Type} {x : Except PyError α} :
    OnlyRaises (Diagnosed yaml) (liftPy x) ↔ OnlyRaises IsCanonicalizationError x := onlyRaises_mapError

theorem diagnosed_canonicalDigest (v : PyValue) : OnlyRaises (Diagnosed yaml) (canonicalDigest v) :=
  onlyRaises_bind.2 ⟨diagnosed_liftPy.2 (raises_canonicalize v), fun _ _ => onlyRaises_ok _⟩

/-! ### Resolution -/

theorem diagnosed_resolved (defined : List PyStr) (items : List PyValue) :
    OnlyRaises (Diagnosed yaml) (requireResolvedReferences defined items) := by
  refine onlyRaises_bind.2 ⟨diagnosed_uniqueStrings (by decide) (by decide) (by decide), fun _ _ => onlyRaises_check.2 ⟨?_,
    fun _ => onlyRaises_bind.2 ⟨diagnosed_uniqueStrings (by decide) (by decide) (by decide), fun unique _ => ?_⟩⟩⟩
  · exact onlyRaises_refuseIf.2 fun _ => diagnosed_reject (by decide) (by decide)
  · refine onlyRaises_refuseIf.2 fun hne => ⟨fun hnil => hne (List.map_eq_nil_iff.mp hnil), fun d hd => ?_⟩
    obtain ⟨name, hname, rfl⟩ := List.mem_map.mp hd
    have hnonempty : name ≠ [] := unique.down.1 name (List.mem_of_mem_filter hname)
    exact (@diagnosed_reject yaml .unresolvedReference _ _ hnonempty (by decide)).2 _ (List.mem_singleton_self _)

theorem requireResolvedReferences_iff {defined : List PyStr} {items : List PyValue} :
    requireResolvedReferences defined items = .ok () ↔
      UniqueStrings defined ∧ ∀ item ∈ items, ∃ name ∈ defined, item = .str name := by
  by_cases htexts : ∀ item ∈ items, ∃ s, item = .str s
  · obtain ⟨names, rfl⟩ : ∃ names : List PyStr, names.map .str = items := by
      have hfactor : List.Forall₂ (fun x y => ∃ s, x = PyValue.str s ∧ y = PyValue.str s) items items :=
        List.forall₂_same.mpr fun item hitem => (htexts item hitem).imp fun s hs => ⟨hs, hs⟩
      obtain ⟨names, -, heq⟩ := factor_of_forall₂ hfactor
      exact ⟨names, heq.symm⟩
    rw [requireResolvedReferences_eq_ok]
    refine and_congr_right fun _ => ⟨fun h item hitem => ?_, fun h name hname => ?_⟩
    · obtain ⟨name, hname, rfl⟩ := List.mem_map.mp hitem
      exact ⟨name, h name hname, rfl⟩
    · obtain ⟨other, hother, heq⟩ := h (.str name) (List.mem_map_of_mem hname)
      rwa [PyValue.str.inj heq]
  · refine iff_of_false (fun h => htexts fun item hitem => ?_) fun h => htexts fun item hitem =>
      (h.2 item hitem).imp fun name hname => hname.2
    obtain ⟨-, -, h⟩ := bind_eq_ok.1 h
    obtain ⟨h, -⟩ := check_bind.1 h
    rw [refuseIf_eq_ok] at h
    by_contra hother
    refine h ⟨item, hitem, ?_⟩
    cases item with
    | str s => exact absurd ⟨s, rfl⟩ hother
    | _ => rfl

/-! ### The search -/

theorem visitNeighbors_raises {visit : PyStr → Search → Visit} {P : PyError → Prop}
    (h : ∀ node s, OnlyRaises P (visit node s)) (neighbors : List PyStr) (s : Search) :
    OnlyRaises P (visitNeighbors visit neighbors s) := by
  induction neighbors generalizing s with
  | nil => exact onlyRaises_ok _
  | cons neighbor rest ih =>
    rw [visitNeighbors]
    split
    · exact ih s
    · exact ih s
    · exact onlyRaises_ok _
    · refine onlyRaises_bind.2 ⟨h _ _, ?_⟩
      rintro ⟨found, s'⟩ -
      cases found with
      | some cycle => exact onlyRaises_ok _
      | none => exact ih s'

theorem visit_raises (graph : PyStr → List PyStr) (depth : ℕ) (node : PyStr) (s : Search) :
    OnlyRaises (fun e => ¬ IsCanonicalizationError e) (visit graph depth node s) := by
  induction depth generalizing node s with
  | zero => exact onlyRaises_error.2 (by decide)
  | succ depth ih =>
    rw [visit]
    refine onlyRaises_bind.2 ⟨visitNeighbors_raises ih _ _, ?_⟩
    rintro ⟨found, s'⟩ -
    cases found <;> exact onlyRaises_ok _

theorem findCycle_raises (depth : ℕ) (nodes : List PyStr) (graph : PyStr → List PyStr) :
    OnlyRaises (fun e => ¬ IsCanonicalizationError e) (findCycle depth nodes graph) := by
  have hsearch : ∀ (starts : List PyStr) (s : Search),
      OnlyRaises (fun e => ¬ IsCanonicalizationError e) (searchFrom graph depth starts s) := by
    intro starts
    induction starts with
    | nil => exact fun s => onlyRaises_ok _
    | cons node rest ih =>
      intro s
      rw [searchFrom]
      split
      · refine onlyRaises_bind.2 ⟨visit_raises graph depth node s, ?_⟩
        rintro ⟨found, s'⟩ -
        cases found with
        | some cycle => exact onlyRaises_ok _
        | none => exact ih s'
      · exact ih s
  exact hsearch _ _

/-! ### The phases -/

/-- What iterating a value raises. -/
def Yaml.Iterates (yaml : Yaml) : Prop := ∀ typeName, OnlyRaises (fun e => ¬ IsCanonicalizationError e) (yaml.iterate typeName)

theorem references_raises (hyaml : yaml.Iterates) (document : Entries) :
    OnlyRaises (fun e => ¬ IsCanonicalizationError e) (references yaml document) := by
  unfold references
  split
  · exact onlyRaises_ok _
  · unfold iterate
    split
    · exact onlyRaises_ok _
    · exact onlyRaises_ok _
    · exact onlyRaises_ok _
    · exact onlyRaises_ok _
    · exact hyaml _
    · exact onlyRaises_error.2 (by decide)

/-- A computation of Python that raises no canonicalization error has to succeed. -/
theorem diagnosed_liftPy_iff {α : Type} {x : Except PyError α} (h : OnlyRaises (fun e => ¬ IsCanonicalizationError e) x) :
    OnlyRaises (Diagnosed yaml) (liftPy x) ↔ ∃ a, x = .ok a := Iff.trans diagnosed_liftPy (onlyRaises_iff_ok h)

theorem referencedItems_eq {lists : List (List PyValue)} (h : documents.mapM (fun d => references yaml d.2) = .ok lists) :
    lists.flatten = referencedItems yaml documents := by
  rw [referencedItems, List.flatMap_def]
  refine congrArg List.flatten ?_
  have hmap := map_of_forall₂ (f := fun d : PyStr × Entries => (references yaml d.2).toOption.getD []) (g := id)
    ((forall₂_of_mapM.1 h).imp fun d items hitems => by rw [hitems]; rfl)
  rwa [List.map_id] at hmap

theorem not_diagnosed_typeError (message : String) : ¬ Diagnosed yaml (.raised (typeError message)) := fun h => nomatch h

theorem diagnosed_cycle {cycle : List PyStr} :
    OnlyRaises (Diagnosed yaml) (do
      let diagnostic ← liftPy ((cycleDiagnostic cycle).create yaml.repr)
      (.error (.c1Error [diagnostic]) : Except Fault Unit)) ↔ (cycleDiagnostic cycle).Bounded yaml.repr := by
  rw [C1Diagnostic.create]
  split_ifs with hpath hbounded
  · refine iff_of_false (fun h => ?_) fun h => h.1 hpath
    exact nomatch (onlyRaises_bind.1 h).1 _ rfl
  · refine iff_of_true (onlyRaises_error.2 ⟨List.cons_ne_nil _ _, fun d hd => ?_⟩) hbounded
    rwa [List.mem_singleton.mp hd]
  · refine iff_of_false (fun h => ?_) hbounded
    exact nomatch (onlyRaises_bind.1 h).1 _ rfl

theorem referencePhase_diagnosed (hyaml : yaml.Iterates) :
    OnlyRaises (Diagnosed yaml) (referencePhase yaml depth documents) ↔ ReferencesReadable yaml depth documents := by
  rw [referencePhase, onlyRaises_bind, diagnosed_liftPy_iff (onlyRaises_mapM fun d _ => references_raises hyaml d.2), mapM_ok_iff]
  constructor
  · rintro ⟨hlisted, hrest⟩
    obtain ⟨lists, hlists⟩ := mapM_ok_iff.2 hlisted
    have hrest := hrest lists (liftPy_eq_ok.2 hlists)
    rw [referencedItems_eq hlists] at hrest
    obtain ⟨hhash, hrest⟩ := onlyRaises_check.1 hrest
    have hhashed : ¬ ∃ item ∈ referencedItems yaml documents, PyValue.hashable item = false := fun hbad =>
      not_diagnosed_typeError _ (onlyRaises_refuseIf.1 hhash hbad)
    obtain ⟨hsort, hrest⟩ := onlyRaises_check.1 (hrest (refuseIf_eq_ok.2 hhashed))
    have hsorted : Sortable (referencedItems yaml documents) := by
      by_contra hbad
      exact not_diagnosed_typeError _ (onlyRaises_refuseIf.1 hsort hbad)
    obtain ⟨-, hrest⟩ := onlyRaises_check.1 (hrest (refuseIf_eq_ok.2 (not_not.mpr hsorted)))
    refine ⟨hlisted, fun item hitem => ?_, hsorted, fun hresolves => ?_⟩
    · by_contra hbad
      exact hhashed ⟨item, hitem, Bool.not_eq_true _ ▸ hbad⟩
    · obtain ⟨hfind, hrest⟩ := onlyRaises_bind.1 (hrest (requireResolvedReferences_iff.2 hresolves))
      obtain ⟨found, hfound⟩ := (diagnosed_liftPy_iff (findCycle_raises _ _ _)).mp hfind
      refine ⟨found, hfound, fun cycle hcycle => ?_⟩
      cases hcycle
      exact diagnosed_cycle.1 (hrest (some cycle) (liftPy_eq_ok.2 hfound))
  · intro h
    refine ⟨h.listed, fun lists hlists => ?_⟩
    rw [referencedItems_eq (liftPy_eq_ok.1 hlists)]
    refine onlyRaises_check.2 ⟨onlyRaises_refuseIf.2 ?_, fun _ => onlyRaises_check.2
      ⟨onlyRaises_refuseIf.2 fun hbad => absurd h.sorted hbad, fun _ => onlyRaises_check.2
        ⟨diagnosed_resolved _ _, fun hresolved => ?_⟩⟩⟩
    · rintro ⟨item, hitem, hbad⟩
      rw [h.hashed item hitem] at hbad
      cases hbad
    · obtain ⟨found, hfound, hcycle⟩ := h.searched (requireResolvedReferences_iff.1 hresolved)
      refine onlyRaises_bind.2 ⟨(diagnosed_liftPy_iff (findCycle_raises _ _ _)).mpr ⟨found, hfound⟩, fun other hother => ?_⟩
      rw [liftPy_eq_ok, hfound, Except.ok.injEq] at hother
      subst hother
      cases found with
      | none => exact onlyRaises_ok ()
      | some cycle => exact diagnosed_cycle.2 (hcycle cycle rfl)

theorem referencePhase_eq_ok (hreadable : ReferencesReadable yaml depth documents) :
    referencePhase yaml depth documents = .ok () ↔ Resolves yaml documents ∧
      findCycle depth (documents.map Prod.fst) (graphOf yaml documents) = .ok none := by
  obtain ⟨lists, hlists⟩ := mapM_ok_iff.2 hreadable.listed
  have hitems := referencedItems_eq hlists
  rw [referencePhase]
  constructor
  · intro h
    obtain ⟨other, hother, h⟩ := bind_eq_ok.1 h
    rw [liftPy_eq_ok, hlists, Except.ok.injEq] at hother
    subst hother
    obtain ⟨-, h⟩ := check_bind.1 h
    obtain ⟨-, h⟩ := check_bind.1 h
    obtain ⟨hresolved, h⟩ := check_bind.1 h
    obtain ⟨found, hfound, h⟩ := bind_eq_ok.1 h
    rw [hitems] at hresolved
    refine ⟨requireResolvedReferences_iff.1 hresolved, ?_⟩
    cases found with
    | none => exact liftPy_eq_ok.1 hfound
    | some cycle =>
      obtain ⟨diagnostic, -, h⟩ := bind_eq_ok.1 h
      cases h
  · rintro ⟨hresolves, hfound⟩
    refine bind_eq_ok.2 ⟨lists, liftPy_eq_ok.2 hlists, ?_⟩
    rw [hitems]
    refine check_bind.2 ⟨refuseIf_eq_ok.2 ?_, check_bind.2 ⟨refuseIf_eq_ok.2 (not_not.mpr hreadable.sorted),
      check_bind.2 ⟨requireResolvedReferences_iff.2 hresolves, bind_eq_ok.2 ⟨none, liftPy_eq_ok.2 hfound, rfl⟩⟩⟩⟩
    rintro ⟨item, hitem, hbad⟩
    rw [hreadable.hashed item hitem] at hbad
    cases hbad

theorem diagnosed_assemble (request : CompilerRequest) (entries : List (PyStr × PyValue)) :
    OnlyRaises (Diagnosed yaml) (assemble request entries) := by
  have hdigest : ∀ (field : String) (value : PyStr) (code : DiagnosticCode), py field ≠ [] →
      (py (field ++ " is required") ≠ [] ∧ (py (field ++ " is required")).length ≤ 512) →
      (py (field ++ " must be a canonical SHA-256 URN") ≠ [] ∧ (py (field ++ " must be a canonical SHA-256 URN")).length ≤ 512) →
      OnlyRaises (Diagnosed yaml) (digest field value code) := fun field value code hfield hrequired hurn =>
    onlyRaises_bind.2 ⟨diagnosed_required hfield hrequired, fun _ _ =>
      onlyRaises_require.2 fun _ => diagnosed_reject hfield hurn⟩
  refine onlyRaises_bind.2 ⟨diagnosed_canonicalDigest _, fun metadataDigest _ => onlyRaises_bind.2 ⟨?_, fun artifact _ =>
    onlyRaises_bind.2 ⟨diagnosed_canonicalDigest _, fun coreDigest _ => ?_⟩⟩⟩
  · exact onlyRaises_bind.2 ⟨diagnosed_required (by decide) (by decide), fun ⟨_⟩ _ => onlyRaises_bind.2
      ⟨diagnosed_required (by decide) (by decide), fun ⟨_⟩ _ => onlyRaises_bind.2
        ⟨hdigest _ _ _ (by decide) (by decide) (by decide), fun ⟨_⟩ _ => onlyRaises_ok _⟩⟩⟩
  · refine onlyRaises_check.2 ⟨onlyRaises_refuseIf.2 fun _ => diagnosed_reject (by decide) (by decide), fun _ =>
      onlyRaises_bind.2 ⟨diagnosed_liftPy.2 (raises_canonicalize _), fun _ _ => onlyRaises_check.2
        ⟨onlyRaises_refuseIf.2 fun _ => diagnosed_reject (by decide) (by decide), fun _ => onlyRaises_bind.2
          ⟨diagnosed_canonicalDigest _, fun _ _ => onlyRaises_bind.2
            ⟨diagnosed_required (by decide) (by decide), fun _ _ => onlyRaises_ok _⟩⟩⟩⟩⟩

theorem diagnoses_iff :
    (∃ all, parsed.mapM (fun p => frontendDiagnose yaml p.1 p.2) = .ok all) ↔
      ∀ p ∈ parsed, Readable yaml p.1 p.2 ∧ ∀ d ∈ complaints p.1 p.2, d.Bounded yaml.repr := by
  rw [mapM_ok_iff]
  refine forall₂_congr fun p _ => ?_
  simp only [frontendDiagnose_eq_ok]
  exact ⟨fun ⟨_, hreadable, hbounded, _⟩ => ⟨hreadable, hbounded⟩, fun ⟨hreadable, hbounded⟩ => ⟨_, hreadable, hbounded, rfl⟩⟩

theorem diagnoses_eq {all : List (List C1Diagnostic)} (h : parsed.mapM (fun p => frontendDiagnose yaml p.1 p.2) = .ok all) :
    all = parsed.map fun p => complaints p.1 p.2 := by
  have hmap := map_of_forall₂ (f := fun p : SourceUnit × Entries => complaints p.1 p.2) (g := id)
    ((forall₂_of_mapM.1 h).imp fun p ds hds => (frontendDiagnose_eq_ok.1 hds).2.2)
  rwa [List.map_id] at hmap

theorem members_of_clean {source : SourceUnit} {document : Entries} (h : complaints source document = []) :
    ∃ types fields, document.get? "field_types" = some types ∧ document.get? "fields" = some fields := by
  unfold complaints byShape at h
  split at h
  · next htypes hfields _ => exact ⟨_, _, htypes, hfields⟩
  · cases h
  · cases h

theorem entries_raises (hyaml : yaml.Iterates) :
    OnlyRaises (fun e => ¬ IsCanonicalizationError e) (parsed.mapM (entryPair .frontend yaml)) := by
  have hitem : ∀ (document : Entries) (name : String), OnlyRaises (fun e => ¬ IsCanonicalizationError e) (item document name) := by
    intro document name
    unfold item orRaise
    split
    · exact onlyRaises_ok _
    · exact onlyRaises_error.2 (fun h => nomatch h)
  refine onlyRaises_mapM fun p _ => onlyRaises_bind.2 ⟨?_, fun _ _ => onlyRaises_ok _⟩
  exact onlyRaises_bind.2 ⟨hitem _ _, fun _ _ => onlyRaises_bind.2 ⟨hitem _ _, fun _ _ => onlyRaises_bind.2
    ⟨references_raises hyaml _, fun _ _ => onlyRaises_ok _⟩⟩⟩

theorem entries_iff (hclean : ∀ p ∈ parsed, complaints p.1 p.2 = []) :
    (∃ entries, parsed.mapM (entryPair .frontend yaml) = .ok entries) ↔ ∀ p ∈ parsed, ListsReferences yaml p.2 := by
  rw [mapM_ok_iff]
  refine forall₂_congr fun p hp => ?_
  obtain ⟨types, fields, htypes, hfields⟩ := members_of_clean (hclean p hp)
  constructor
  · rintro ⟨e, he⟩
    obtain ⟨_, he⟩ := entryPair_eq_ok.1 he
    obtain ⟨_, _, he⟩ := OcorRuntime.bind_eq_ok.1 he
    obtain ⟨_, _, he⟩ := OcorRuntime.bind_eq_ok.1 he
    obtain ⟨items, hitems, _⟩ := OcorRuntime.bind_eq_ok.1 he
    exact ⟨items, hitems⟩
  · rintro ⟨items, hitems⟩
    obtain ⟨value, hvalue⟩ : ∃ value, IrBuilder.frontend.entry yaml p.1 p.2 = .ok value :=
      ⟨_, OcorRuntime.bind_eq_ok.2 ⟨fields, orRaise_eq_ok.2 hfields, OcorRuntime.bind_eq_ok.2 ⟨types,
        orRaise_eq_ok.2 htypes, OcorRuntime.bind_eq_ok.2 ⟨items, hitems, rfl⟩⟩⟩⟩
    exact ⟨(p.1.resourceId, value), entryPair_eq_ok.2 ⟨rfl, hvalue⟩⟩

theorem flatten_complaints : (parsed.map fun p => complaints p.1 p.2).flatten = [] ↔ ∀ p ∈ parsed, complaints p.1 p.2 = [] := by
  rw [List.flatten_eq_nil_iff]
  exact ⟨fun h p hp => h _ (List.mem_map_of_mem hp), fun h ds hds => by
    obtain ⟨p, hp, rfl⟩ := List.mem_map.mp hds
    exact h p hp⟩

theorem frontendValidate_diagnosed (hyaml : yaml.Iterates) :
    OnlyRaises (Diagnosed yaml) (frontendValidate yaml depth parsed) ↔
      (∀ p ∈ parsed, Readable yaml p.1 p.2 ∧ ∀ d ∈ complaints p.1 p.2, d.Bounded yaml.repr) ∧
        ((∀ p ∈ parsed, complaints p.1 p.2 = []) → ReferencesReadable yaml depth (byId parsed)) := by
  rw [frontendValidate_eq, onlyRaises_bind, diagnosed_liftPy_iff (onlyRaises_mapM fun p _ => frontendDiagnose_raises),
    diagnoses_iff]
  refine and_congr_right fun hfits => ?_
  obtain ⟨all, hall⟩ := diagnoses_iff.2 hfits
  have hbounded : ∀ d ∈ (parsed.map fun p => complaints p.1 p.2).flatten, d.Bounded yaml.repr := by
    intro d hd
    obtain ⟨ds, hds, hd⟩ := List.mem_flatten.mp hd
    obtain ⟨p, hp, rfl⟩ := List.mem_map.mp hds
    exact (hfits p hp).2 d hd
  constructor
  · intro h hclean
    have h := (onlyRaises_check.1 (h all (liftPy_eq_ok.2 hall))).2
    rw [diagnoses_eq hall, refuseIf_eq_ok, not_not] at h
    exact (referencePhase_diagnosed hyaml).mp (h (flatten_complaints.2 hclean))
  · intro h other hother
    rw [diagnoses_eq (liftPy_eq_ok.1 hother)]
    refine onlyRaises_check.2 ⟨onlyRaises_refuseIf.2 fun hne => ⟨hne, hbounded⟩, fun hclean => ?_⟩
    rw [refuseIf_eq_ok, not_not] at hclean
    exact (referencePhase_diagnosed hyaml).mpr (h (flatten_complaints.1 hclean))

theorem frontendValidate_passes
    (hfits : ∀ p ∈ parsed, Readable yaml p.1 p.2 ∧ ∀ d ∈ complaints p.1 p.2, d.Bounded yaml.repr) :
    frontendValidate yaml depth parsed = .ok () ↔
      (∀ p ∈ parsed, complaints p.1 p.2 = []) ∧ referencePhase yaml depth (byId parsed) = .ok () := by
  obtain ⟨all, hall⟩ := diagnoses_iff.2 hfits
  rw [frontendValidate_eq, bind_eq_ok]
  constructor
  · rintro ⟨other, hother, h⟩
    rw [diagnoses_eq (liftPy_eq_ok.1 hother)] at h
    obtain ⟨hclean, h⟩ := check_bind.1 h
    rw [refuseIf_eq_ok, not_not] at hclean
    exact ⟨flatten_complaints.1 hclean, h⟩
  · rintro ⟨hclean, h⟩
    refine ⟨all, liftPy_eq_ok.2 hall, ?_⟩
    rw [diagnoses_eq hall]
    exact check_bind.2 ⟨refuseIf_eq_ok.2 (not_not.mpr (flatten_complaints.2 hclean)), h⟩

end

/-- **What the frontend builder makes of parsed documents is a release, bounded diagnostics or a canonicalization
error exactly on the reportable ones.** -/
theorem rejections_are_diagnostics_iff (yaml : Yaml) (hyaml : yaml.Iterates) (depth : ℕ) (request : CompilerRequest)
    (parsed : List (SourceUnit × Entries)) :
    OnlyRaises (Diagnosed yaml) (buildParsed yaml depth request parsed) ↔ Reportable yaml depth parsed := by
  rw [buildParsed, onlyRaises_check]
  change OnlyRaises _ (frontendValidate yaml depth parsed) ∧ (frontendValidate yaml depth parsed = .ok () → _) ↔ _
  rw [frontendValidate_diagnosed hyaml, Reportable, and_assoc]
  refine and_congr_right fun hfits => ?_
  rw [frontendValidate_passes hfits, onlyRaises_bind, diagnosed_liftPy_iff (entries_raises hyaml)]
  constructor
  · rintro ⟨hreadable, hentries⟩ hclean
    refine ⟨hreadable hclean, fun hresolves hfound => (entries_iff hclean).mp (hentries ⟨hclean, ?_⟩).1⟩
    exact (referencePhase_eq_ok (hreadable hclean)).mpr ⟨hresolves, hfound⟩
  · intro h
    refine ⟨fun hclean => (h hclean).1, fun ⟨hclean, hphase⟩ => ⟨?_, fun entries _ => diagnosed_assemble request entries⟩⟩
    obtain ⟨hresolves, hfound⟩ := (referencePhase_eq_ok (h hclean).1).mp hphase
    exact (entries_iff hclean).mpr ((h hclean).2 hresolves hfound)

/-! ### A type name that is a list -/

theorem sampleYaml_iterates : sampleYaml.Iterates := fun _ => onlyRaises_error.2 (by decide)

theorem rejections_are_diagnostics_iff_one :
    OnlyRaises (Diagnosed sampleYaml)
      (buildParsed sampleYaml 1 (sampleRequest [py "1"] (by decide) (by decide)) [(sampleUnit (py "1"), sampleDocument)]) := by
  refine (rejections_are_diagnostics_iff sampleYaml sampleYaml_iterates 1 _ _).mpr ⟨fun p hp => ?_, fun _ => ⟨?_, fun _ _ p hp => ?_⟩⟩
  · rw [List.mem_singleton.mp hp]
    refine ⟨fun _ => ⟨fun a ha => absurd ha List.not_mem_nil, fun t ht => absurd ht List.not_mem_nil⟩, fun d hd => ?_⟩
    exact absurd hd List.not_mem_nil
  · refine ⟨fun d hd => ?_, fun item hitem => absurd hitem List.not_mem_nil, fun a ha => absurd ha List.not_mem_nil,
      fun _ => ⟨none, by decide, fun cycle hcycle => nomatch hcycle⟩⟩
    rw [List.mem_singleton.mp hd]
    exact ⟨[], rfl⟩
  · rw [List.mem_singleton.mp hp]
    exact ⟨[], rfl⟩

def unhashableContent : Bytes :=
  utf8Encode (py "\x7b\"id\":\"r\",\"fields\":\x7b\x7d,\"field_types\":\x7b\"a\":[\"string\"]\x7d\x7d")

def unhashableDocument : Entries :=
  [(.str (py "id"), .str (py "r")), (.str (py "fields"), .mapping []),
    (.str (py "field_types"), .mapping [(.str (py "a"), .list [.str (py "string")])])]

def unhashableUnit : SourceUnit :=
  { sampleUnit (py "1") with
    content := unhashableContent
    contentDigest := (canonicalDigest (.mapping [(.str (py "bytes_hex"), .str (hex unhashableContent))])).toOption.getD [] }

theorem one_version : [py "1"] ≠ [] := by decide

theorem one_version_nodup : [py "1"].Nodup := by decide

def unhashableRequest : CompilerRequest :=
  { sampleRequest [py "1"] one_version one_version_nodup with
    sources := [unhashableUnit]
    sourced := List.cons_ne_nil _ _
    unique := by decide
    resolved := by
      intro source hsource reference hreference
      rw [List.mem_singleton.mp hsource] at hreference
      cases hreference }

theorem unhashableRequest_parsed : unhashableRequest.sources.mapM (parsePair sampleYaml) =
    .ok [(unhashableUnit, unhashableDocument)] := by
  have hloads : jsonLoads unhashableContent = .ok (.mapping unhashableDocument) := by decide +kernel
  have hparse : parse sampleYaml unhashableUnit = .ok unhashableDocument := by
    unfold parse
    simp only [unhashableUnit, sampleUnit, hloads]
    rfl
  rw [forall₂_of_mapM]
  exact .cons (parsePair_eq_ok.2 ⟨rfl, hparse⟩) .nil

/-- A field type written as a list: looking it up in the grammar raises `TypeError`. -/
theorem unhashable_type_escapes : ¬ ∀ (yaml : Yaml), yaml.Iterates → ∀ (depth : ℕ) (request : CompilerRequest)
    (parsed : List (SourceUnit × Entries)), request.sources.mapM (parsePair yaml) = .ok parsed →
      OnlyRaises (Diagnosed yaml) (buildParsed yaml depth request parsed) := by
  intro h
  have hvalid : frontendValidate sampleYaml 1 [(unhashableUnit, unhashableDocument)] =
      .error (.raised (typeError "unhashable type")) := by decide
  have hbuild := (onlyRaises_check.1 (h sampleYaml sampleYaml_iterates 1 unhashableRequest _ unhashableRequest_parsed)).1
  exact not_diagnosed_typeError _ (hbuild _ hvalid)

end OcorRuntime.Compiler
