import Mathlib.Order.Defs.PartialOrder
import OcorRuntime.Canonical.LoadedValues
import OcorRuntime.Compiler.Completeness
import OcorRuntime.Compiler.Releases

/-! Compatibility of releases is a preorder. A release declares for each resource the types of its fields; a later
one is not breaking exactly if it declares everything the earlier one does, with the same types. -/
namespace OcorRuntime.Compiler
open Canonical Kernel
set_option autoImplicit false
set_option maxHeartbeats 250000
set_option maxRecDepth 120000

/-! ## Declarations -/

/-- What is declared: the types of the fields of each resource. -/
structure Schema (ι φ τ : Type) where
  types : ι → Option (φ → Option τ)

/-- A schema extends another one if it declares what the other does. -/
instance {ι φ τ : Type} : Preorder (Schema ι φ τ) where
  le s t := ∀ id fields, s.types id = some fields → ∃ fields', t.types id = some fields' ∧
    ∀ field type, fields field = some type → fields' field = some type
  le_refl _ _ fields h := ⟨fields, h, fun _ _ => id⟩
  le_trans _ _ _ hst htu id fields h := by
    obtain ⟨fields', h', hkept⟩ := hst id fields h
    obtain ⟨fields'', h'', hkept'⟩ := htu id fields' h'
    exact ⟨fields'', h'', fun field type htype => hkept' field type (hkept field type htype)⟩

/-- The texts of a dictionary of texts. -/
def textsOf (types : Entries) (field : PyStr) : Option PyStr := (Dict.find types (.str field)).bind PyValue.text?

/-- The types a resource declares. -/
def declared (resource : PyValue) : Entries := (fieldTypes resource).toOption.getD []

/-- What a release declares. -/
def schemaOf (release : CanonicalIrRelease) : Schema PyStr PyStr PyStr where
  types id := (Dict.find (resourcesOf release) (.str id)).map fun resource => textsOf (declared resource)

theorem schemaOf_types {release : CanonicalIrRelease} {id : PyStr} {resource : PyValue}
    (h : Dict.find (resourcesOf release) (.str id) = some resource) :
    (schemaOf release).types id = some (textsOf (declared resource)) := by
  change Option.map _ (Dict.find (resourcesOf release) (.str id)) = _
  rw [h]
  rfl

/-! ## Releases of the front end -/

/-- Dictionaries have distinct keys. -/
def Yaml.Keyed (yaml : Yaml) : Prop := ∀ content v, yaml.safeLoad content = .ok v → Canonical.Keyed v

/-- A release the front end built. -/
def Built (release : CanonicalIrRelease) : Prop :=
  ∃ yaml depth request, Yaml.Keyed yaml ∧ IrBuilder.frontend.build yaml depth request = .ok release

/-- A resource as the front end keeps it, with the types of its fields. -/
structure FormedResource (members types : Entries) : Prop where
  version : ∃ s, Entries.get? members "version" = some (.str s) ∧ Scalar s
  contentDigest : ∃ s, Entries.get? members "content_digest" = some (.str s) ∧ Scalar s
  fieldTypes : Entries.get? members "field_types" = some (.mapping types)
  keys : (types.map Prod.fst).Nodup
  texts : ∀ t ∈ types, ∃ field type, t = (.str field, .str type)

structure Formed (release : CanonicalIrRelease) : Prop where
  keys : ((resourcesOf release).map Prod.fst).Nodup
  resource : ∀ e ∈ resourcesOf release, ∃ id members types, e = (.str id, .mapping members) ∧ Scalar id ∧
    FormedResource members types
  irDigest : Scalar release.irDigest

theorem keyed_jsonLoads {content : Bytes} {v : PyValue} (h : jsonLoads content = .ok v) : Canonical.Keyed v := by
  unfold jsonLoads at h
  split at h
  · cases h
  · next text _ =>
    cases htext : StandardJson.loads text with
    | error failure =>
      rw [htext] at h
      cases h
    | ok v =>
      rw [htext] at h
      cases h
      exact StandardJson.keyed_loads htext

theorem keyed_parse {yaml : Yaml} (hyaml : Yaml.Keyed yaml) {source : SourceUnit} {document : Entries}
    (h : parse yaml source = .ok document) : Canonical.Keyed (.mapping document) := by
  unfold parse at h
  cases hlanguage : source.language with
  | yaml =>
    rw [hlanguage] at h
    obtain ⟨parsed, hparsed, h⟩ := bind_eq_ok.1 h
    dsimp only at h
    split at h
    · cases h
      exact hyaml _ _ (mapError_eq_ok.1 hparsed)
    · cases h
  | json =>
    rw [hlanguage] at h
    obtain ⟨parsed, hparsed, h⟩ := bind_eq_ok.1 h
    dsimp only at h
    split at h
    · cases h
      exact keyed_jsonLoads (mapError_eq_ok.1 hparsed)
    · cases h

theorem raised_nil {yaml : Yaml} {complaint : Option C1Diagnostic} : raised yaml complaint = .ok [] ↔ complaint = none := by
  cases complaint with
  | none => exact iff_of_true rfl rfl
  | some d =>
    refine iff_of_false (fun h => ?_) nofun
    obtain ⟨created, -, h⟩ := OcorRuntime.bind_eq_ok.1 h
    cases h

theorem checkField_nil {yaml : Yaml} {source : SourceUnit} {fields : Entries} {item : MappingKey × PyValue}
    (h : checkField yaml source fields item = .ok []) : ∃ type, item.2 = .str type := by
  obtain ⟨-, h⟩ := check_bind_eq_ok.1 h
  have hnone := raised_nil.1 h
  unfold fieldComplaint at hnone
  split at hnone
  · next type htype => exact ⟨type, htype⟩
  · cases hnone

theorem frontendDiagnose_nil {yaml : Yaml} {source : SourceUnit} {document : Entries}
    (h : frontendDiagnose yaml source document = .ok []) :
    ∃ types, Entries.get? document "field_types" = some (.mapping types) ∧ ∀ t ∈ types, ∃ type, t.2 = .str type := by
  unfold frontendDiagnose at h
  split at h
  · next types fields id htypes _ _ =>
    refine ⟨types, htypes, ?_⟩
    split at h
    · cases raised_nil.1 h
    extract_lets undeclared at h
    split_ifs at h with hundeclared
    · obtain ⟨names, -, h⟩ := OcorRuntime.bind_eq_ok.1 h
      cases raised_nil.1 h
    · obtain ⟨sorted, hsorted, h⟩ := OcorRuntime.bind_eq_ok.1 h
      obtain ⟨typed, htyped, h⟩ := OcorRuntime.bind_eq_ok.1 h
      split_ifs at h with hclean
      · exact absurd (Except.ok.inj h) hclean
      · rw [not_not] at hclean
        unfold sortByKey at hsorted
        obtain ⟨-, hsorted⟩ := check_bind_eq_ok.1 hsorted
        cases hsorted
        intro t ht
        obtain ⟨diagnostics, hmem, hfield⟩ := mapM_mem htyped ((List.mem_insertionSort _).mpr ht)
        have hnil : diagnostics = [] := List.flatten_eq_nil_iff.mp hclean diagnostics hmem
        exact checkField_nil (hnil ▸ hfield)
  · cases raised_nil.1 h
  · cases raised_nil.1 h

theorem formed_entry {yaml : Yaml} {source : SourceUnit} {document : Entries} {value : PyValue}
    (hkeyed : Canonical.Keyed (.mapping document)) (hclean : frontendDiagnose yaml source document = .ok [])
    (hentry : IrBuilder.frontend.entry yaml source document = .ok value) {text : PyStr} (htext : serialize value = .ok text) :
    ∃ members types, freeze value = .mapping members ∧ FormedResource members types := by
  obtain ⟨types, htypes, htexts⟩ := frontendDiagnose_nil hclean
  obtain ⟨fields, -, hentry⟩ := OcorRuntime.bind_eq_ok.1 hentry
  obtain ⟨declared, hdeclared, hentry⟩ := OcorRuntime.bind_eq_ok.1 hentry
  obtain ⟨referenced, -, hentry⟩ := OcorRuntime.bind_eq_ok.1 hentry
  cases hentry
  rw [item, orRaise_eq_ok, htypes, Option.some.injEq] at hdeclared
  subst hdeclared
  generalize (Entries.get? document "execution_owner").getD .none = owner at htext ⊢
  have hwritten := writable_of_serialize htext
  have hversion : serialize (.str source.version) = .ok _ :=
    hwritten.values (.str (py "version"), .str source.version) (by simp [IrBuilder.identity])
  have hdigest : serialize (.str source.contentDigest) = .ok _ :=
    hwritten.values (.str (py "content_digest"), .str source.contentDigest) (by simp [IrBuilder.identity])
  have hdeclared : serialize (.mapping types) = .ok _ :=
    hwritten.values (.str (py "field_types"), .mapping types) (by simp [IrBuilder.declarations])
  have htyped : ∀ t ∈ types, ∃ field type, t = (.str field, .str type) := by
    intro t ht
    obtain ⟨field, hfield, -⟩ := (writable_of_serialize hdeclared).keys t ht
    obtain ⟨type, htype⟩ := htexts t ht
    exact ⟨field, type, Prod.ext hfield htype⟩
  have hfrozen : freezeEntries types = types := by
    rw [freezeEntries_eq]
    conv_rhs => rw [← List.map_id types]
    apply List.map_congr_left
    intro t ht
    obtain ⟨field, type, rfl⟩ := htyped t ht
    rfl
  have hnodup : (types.map Prod.fst).Nodup := by
    rw [Canonical.Keyed] at hkeyed
    have hmember := hkeyed.2 _ (Dict.mem_of_find htypes)
    rw [Canonical.Keyed] at hmember
    exact hmember.1
  refine ⟨_, types, by rw [freeze], ⟨source.version, rfl, scalar_of_serialize hversion⟩,
    ⟨source.contentDigest, rfl, scalar_of_serialize hdigest⟩, ?_, hnodup, htyped⟩
  rw [Entries.get?, find_freezeEntries]
  have hfind : Dict.find (IrBuilder.identity source fields ++
      IrBuilder.declarations (.mapping types) referenced owner) (.str (py "field_types")) = some (.mapping types) := rfl
  rw [hfind, Option.map_some, freeze, hfrozen]

theorem formed_of_built {release : CanonicalIrRelease} (h : Built release) : Formed release := by
  obtain ⟨yaml, depth, request, hyaml, hbuild⟩ := h
  obtain ⟨parsed, entries, hparsed, hvalid, hentries, hrelease⟩ := build_eq_ok.1 hbuild
  have hresources : resourcesOf release = freezeEntries (collectResources entries) := by
    rw [resourcesOf, core_resources hrelease]
  obtain ⟨artifact, bytes, -, hbytes, rfl⟩ := assemble_eq_ok.1 hrelease
  obtain ⟨text, htext, -⟩ := canonicalize_eq_ok.1 hbytes
  have hwritten := writable_of_serialize ((writable_of_serialize htext).values _ (mem_coreOf request _))
  have hdiagnosed : ∀ p ∈ parsed, frontendDiagnose yaml p.1 p.2 = .ok [] := by
    obtain ⟨diagnostics, hdiagnostics, hvalid⟩ := bind_eq_ok.1 hvalid
    obtain ⟨hclean, -⟩ := check_bind.1 hvalid
    rw [refuseIf_eq_ok, not_not] at hclean
    intro p hp
    obtain ⟨found, hmem, hfound⟩ := mapM_mem (liftPy_eq_ok.1 hdiagnostics) hp
    have hnil : found = [] := List.flatten_eq_nil_iff.mp hclean found hmem
    exact hnil ▸ hfound
  constructor
  · have hkeys : ((collectResources entries).map Prod.fst).Nodup := Dict.nodup_foldl_put _ _ _ List.nodup_nil
    rw [hresources, freezeEntries_eq, List.map_map]
    exact hkeys
  · intro e he
    rw [hresources, freezeEntries_eq] at he
    obtain ⟨f, hf, rfl⟩ := List.mem_map.mp he
    obtain ⟨k, hk, hscalar⟩ := hwritten.keys f hf
    have hf' := hf
    rcases Dict.mem_foldl_put (fun p : PyStr × PyValue => MappingKey.str p.1) Prod.snd _ hf' with hf' | ⟨g, hg, rfl⟩
    · cases hf'
    obtain ⟨p, hp, hpair⟩ := exists_of_forall₂_right (forall₂_of_mapM.1 hentries) hg
    obtain ⟨hid, hentry⟩ := entryPair_eq_ok.1 hpair
    obtain ⟨source, -, hsource⟩ := exists_of_forall₂_right (forall₂_of_mapM.1 hparsed) hp
    obtain ⟨rfl, hdocument⟩ := parsePair_eq_ok.1 hsource
    obtain ⟨members, types, hmembers, hformed⟩ :=
      formed_entry (keyed_parse hyaml hdocument) (hdiagnosed p hp) hentry (hwritten.values _ hf)
    have hscalarId : Scalar g.1 := by
      have hsame : g.1 = k := MappingKey.str.inj hk
      rwa [hsame]
    exact ⟨g.1, members, types, by rw [hmembers], hscalarId, hformed⟩
  · exact (isDigest_text (isDigest_hexdigest bytes)).2

/-! ## Classification -/

section Types
variable {members members' types types' : Entries}

theorem FormedResource.declared (h : FormedResource members types) : Compiler.declared (.mapping members) = types := by
  rw [Compiler.declared, Compiler.fieldTypes, h.fieldTypes]
  rfl

theorem FormedResource.typed (h : FormedResource members types) : Compiler.fieldTypes (.mapping members) = .ok types := by
  rw [Compiler.fieldTypes, h.fieldTypes]

theorem textsOf_eq_some (h : FormedResource members types) {field type : PyStr} :
    textsOf types field = some type ↔ (.str field, .str type) ∈ types := by
  rw [textsOf, Option.bind_eq_some_iff, ← Dict.find_eq_some_iff h.keys]
  constructor
  · rintro ⟨v, hfind, hv⟩
    cases v with
    | str s =>
      cases hv
      exact hfind
    | _ => cases hv
  · exact fun hfind => ⟨_, hfind, rfl⟩

theorem lostTypes_eq_nil (h : FormedResource members types) (h' : FormedResource members' types') :
    lostTypes types types' = [] ↔ ∀ field type, textsOf types field = some type → textsOf types' field = some type := by
  rw [lostTypes, List.filter_eq_nil_iff]
  constructor
  · intro hkept field type htype
    have hnot := hkept _ ((textsOf_eq_some h).mp htype)
    cases hfind : Dict.find types' (.str field) with
    | none => exact absurd (by rw [hfind]) hnot
    | some v =>
      obtain ⟨field', type', hv⟩ := h'.texts _ (Dict.mem_of_find hfind)
      cases hv
      rw [hfind] at hnot
      simp only [PyValue.pyEq, Bool.not_eq_true', Bool.not_eq_false, beq_iff_eq] at hnot
      rw [textsOf_eq_some h', ← hnot]
      exact Dict.mem_of_find hfind
  · intro hkept t ht
    obtain ⟨field, type, rfl⟩ := h.texts t ht
    have hfind := (Dict.find_eq_some_iff h'.keys _ _).mpr
      ((textsOf_eq_some h').mp (hkept field type ((textsOf_eq_some h).mpr ht)))
    rw [hfind]
    simp [PyValue.pyEq]

theorem textsOf_of_pyEq (h : FormedResource members types) (h' : FormedResource members' types')
    (heq : PyValue.pyEq (.mapping members) (.mapping members') = true) {field type : PyStr}
    (htype : textsOf types field = some type) : textsOf types' field = some type := by
  rw [PyValue.pyEq, Bool.and_eq_true, PyValue.pyEqEntries_iff] at heq
  obtain ⟨v, hv, hequal⟩ := heq.2 _ (Dict.mem_of_find h.fieldTypes)
  have hsame : v = .mapping types' := Option.some.inj (hv.symm.trans h'.fieldTypes)
  subst hsame
  rw [PyValue.pyEq, Bool.and_eq_true, PyValue.pyEqEntries_iff] at hequal
  obtain ⟨w, hw, htext⟩ := hequal.2 _ ((textsOf_eq_some h).mp htype)
  obtain ⟨field', type', hmem⟩ := h'.texts _ (Dict.mem_of_find hw)
  cases hmem
  simp only [PyValue.pyEq, beq_iff_eq] at htext
  subst htext
  exact (textsOf_eq_some h').mpr (Dict.mem_of_find hw)

end Types

/-- Every resource stays, with its types. -/
def Keeps (before after : Entries) : Prop :=
  ∀ e ∈ before, ∃ resource, Dict.find after e.1 = some resource ∧ lostTypes (declared e.2) (declared resource) = []

theorem checkResources_eq {after : Entries} : ∀ {before : Entries},
    (∀ e ∈ before, ∃ resource types types', Dict.find after e.1 = some resource ∧ fieldTypes e.2 = .ok types ∧
      fieldTypes resource = .ok types') →
    (Keeps before after → checkResources after before = .ok .compatible) ∧
      (¬ Keeps before after → checkResources after before = .ok .breaking)
  | [], _ => ⟨fun _ => rfl, fun h => absurd (fun _ he => absurd he List.not_mem_nil) h⟩
  | (id, value) :: before, hall => by
      obtain ⟨resource, types, types', hfind, htypes, htypes'⟩ := hall _ List.mem_cons_self
      obtain ⟨hkept, hlost⟩ := checkResources_eq fun e he => hall e (List.mem_cons_of_mem _ he)
      have hstep : checkResources after ((id, value) :: before) =
          if lostTypes types types' ≠ [] then .ok .breaking else checkResources after before := by
        rw [checkResources, hfind, htypes]
        simp only [orRaise, htypes', bind, Except.bind, pure, Except.pure]
      have hfirst : lostTypes (declared value) (declared resource) = lostTypes types types' := by
        rw [declared, declared, htypes, htypes']
        rfl
      constructor
      · intro h
        obtain ⟨resource', hfind', hnone⟩ := h _ List.mem_cons_self
        cases hfind.symm.trans hfind'
        rw [hstep, if_neg (not_not.mpr (hfirst ▸ hnone))]
        exact hkept fun e he => h e (List.mem_cons_of_mem _ he)
      · intro h
        rw [hstep]
        split_ifs with hsome
        · rfl
        · refine hlost fun hrest => h (List.forall_mem_cons.mpr ⟨⟨resource, hfind, ?_⟩, hrest⟩)
          rw [hfirst]
          exact not_not.mp hsome

section Releases
variable {a b : CanonicalIrRelease}

theorem Formed.find (h : Formed a) {id : PyStr} {resource : PyValue}
    (hfind : Dict.find (resourcesOf a) (.str id) = some resource) :
    ∃ members types, resource = .mapping members ∧ FormedResource members types := by
  obtain ⟨id', members, types, heq, -, hformed⟩ := h.resource _ (Dict.mem_of_find hfind)
  cases heq
  exact ⟨members, types, rfl, hformed⟩

theorem keeps_iff (ha : Formed a) (hb : Formed b) : Keeps (resourcesOf a) (resourcesOf b) ↔ schemaOf a ≤ schemaOf b := by
  constructor
  · intro h id fields hfields
    obtain ⟨resource, hfind, rfl⟩ := Option.map_eq_some_iff.mp hfields
    obtain ⟨members, types, rfl, hformed⟩ := ha.find hfind
    obtain ⟨resource', hfind', hnone⟩ := h _ (Dict.mem_of_find hfind)
    obtain ⟨members', types', rfl, hformed'⟩ := hb.find hfind'
    refine ⟨_, schemaOf_types hfind', ?_⟩
    dsimp only at hnone
    rw [hformed.declared, hformed'.declared, lostTypes_eq_nil hformed hformed'] at hnone
    rw [hformed.declared, hformed'.declared]
    exact hnone
  · intro h e he
    obtain ⟨id, members, types, rfl, -, hformed⟩ := ha.resource e he
    have hfind := (Dict.find_eq_some_iff ha.keys _ _).mpr he
    obtain ⟨fields', hfields', hkept⟩ := h id _ (schemaOf_types hfind)
    obtain ⟨resource', hfind', rfl⟩ := Option.map_eq_some_iff.mp hfields'
    obtain ⟨members', types', rfl, hformed'⟩ := hb.find hfind'
    refine ⟨_, hfind', ?_⟩
    dsimp only
    rw [hformed.declared, hformed'.declared] at hkept ⊢
    exact (lostTypes_eq_nil hformed hformed').mpr hkept

theorem schemaOf_le_of_pyEq (ha : Formed a) (hb : Formed b)
    (h : PyValue.pyEq (.mapping (resourcesOf a)) (.mapping (resourcesOf b)) = true) : schemaOf a ≤ schemaOf b := by
  rw [PyValue.pyEq, Bool.and_eq_true, PyValue.pyEqEntries_iff] at h
  intro id fields hfields
  obtain ⟨resource, hfind, rfl⟩ := Option.map_eq_some_iff.mp hfields
  obtain ⟨members, types, rfl, hformed⟩ := ha.find hfind
  obtain ⟨resource', hfind', hequal⟩ := h.2 _ (Dict.mem_of_find hfind)
  obtain ⟨members', types', rfl, hformed'⟩ := hb.find hfind'
  refine ⟨_, schemaOf_types hfind', fun field type htype => ?_⟩
  rw [hformed.declared] at htype
  rw [hformed'.declared]
  exact textsOf_of_pyEq hformed hformed' hequal htype

theorem check_cases (ha : Formed a) (hb : Formed b) :
    (check a b = .ok .identical ∧ PyValue.pyEq (.mapping (resourcesOf a)) (.mapping (resourcesOf b)) = true ∧
        schemaOf a ≤ schemaOf b) ∨
      (check a b = .ok .compatible ∧ PyValue.pyEq (.mapping (resourcesOf a)) (.mapping (resourcesOf b)) = false ∧
        schemaOf a ≤ schemaOf b) ∨
      check a b = .ok .breaking ∧ PyValue.pyEq (.mapping (resourcesOf a)) (.mapping (resourcesOf b)) = false ∧
        ¬ schemaOf a ≤ schemaOf b := by
  cases hequal : PyValue.pyEq (.mapping (resourcesOf a)) (.mapping (resourcesOf b)) with
  | true => exact .inl ⟨by rw [check, if_pos hequal], rfl, schemaOf_le_of_pyEq ha hb hequal⟩
  | false =>
    right
    have hcheck : check a b = if ∃ e ∈ resourcesOf a, (Dict.find (resourcesOf b) e.1).isNone then .ok .breaking
        else checkResources (resourcesOf b) (resourcesOf a) := by
      rw [check, if_neg (by rw [hequal]; exact Bool.false_ne_true)]
    rw [hcheck, ← keeps_iff ha hb]
    split_ifs with hremoved
    · refine .inr ⟨rfl, rfl, fun hkeeps => ?_⟩
      obtain ⟨e, he, hnone⟩ := hremoved
      obtain ⟨resource, hfind, -⟩ := hkeeps e he
      rw [hfind] at hnone
      cases hnone
    · have hpresent : ∀ e ∈ resourcesOf a, ∃ resource types types', Dict.find (resourcesOf b) e.1 = some resource ∧
          fieldTypes e.2 = .ok types ∧ fieldTypes resource = .ok types' := by
        intro e he
        obtain ⟨id, members, types, rfl, -, hformed⟩ := ha.resource e he
        cases hfind : Dict.find (resourcesOf b) (.str id) with
        | none => exact absurd ⟨_, he, by rw [hfind]; rfl⟩ hremoved
        | some resource =>
          obtain ⟨members', types', rfl, hformed'⟩ := hb.find hfind
          exact ⟨_, types, types', rfl, hformed.typed, hformed'.typed⟩
      obtain ⟨hkept, hlost⟩ := checkResources_eq hpresent
      by_cases hkeeps : Keeps (resourcesOf a) (resourcesOf b)
      · exact .inl ⟨hkept hkeeps, rfl, hkeeps⟩
      · exact .inr ⟨hlost hkeeps, rfl, hkeeps⟩

/-- **A check breaks exactly if the schema is not extended.** -/
theorem check_breaking_iff (ha : Formed a) (hb : Formed b) : check a b = .ok .breaking ↔ ¬ schemaOf a ≤ schemaOf b := by
  rcases check_cases ha hb with ⟨h, -, hle⟩ | ⟨h, -, hle⟩ | ⟨h, -, hle⟩
  · rw [h]
    exact iff_of_false (by simp) (not_not.mpr hle)
  · rw [h]
    exact iff_of_false (by simp) (not_not.mpr hle)
  · rw [h]
    exact iff_of_true rfl hle

theorem check_identical_iff (ha : Formed a) (hb : Formed b) : check a b = .ok .identical ↔
    PyValue.pyEq (.mapping (resourcesOf a)) (.mapping (resourcesOf b)) = true := by
  rcases check_cases ha hb with ⟨h, heq, -⟩ | ⟨h, heq, -⟩ | ⟨h, heq, -⟩ <;> rw [h, heq] <;> simp

end Releases

end OcorRuntime.Compiler
