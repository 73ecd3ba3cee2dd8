import OcorRuntime.Canonical.FixedPoint
import OcorRuntime.Compiler.Frontend
import OcorRuntime.Foundations.Collect
import OcorRuntime.Kernel.Records

/-! What a release keeps of its sources, and what their order counts. Every check and every
canonical text reads the sources as a set as long as no two of them share an identifier;
two that do leave one entry in the core, and the order decides which. -/
namespace OcorRuntime

/-! ## Objects whose members are in another order -/

namespace Canonical
set_option autoImplicit false
set_option maxHeartbeats 250000

theorem writtenMembers_perm {es fs : List (MappingKey × PyValue)} (hw : Writable es) (hnd : (es.map Prod.fst).Nodup)
    (h : es.Perm fs) : writtenMembers es = writtenMembers fs := by
  have hpairs := h.map fun e => (keyText e.1, e.2)
  have hperm : (writtenMembers es).Perm (writtenMembers fs) :=
    (List.perm_insertionSort _ _).trans (hpairs.trans (List.perm_insertionSort _ _).symm)
  refine hperm.eq_of_pairwise ?_ (List.pairwise_insertionSort KeyLe _) (List.pairwise_insertionSort KeyLe _)
  intro a b ha hb hab hba
  obtain ⟨e, he, rfl⟩ := mem_writtenMembers ha
  obtain ⟨f, hf, rfl⟩ := mem_writtenMembers hb
  have hf' : f ∈ es := h.mem_iff.2 hf
  have hkey : keyText e.1 = keyText f.1 :=
    utf16BeEncode_injective (hw.scalar he) (hw.scalar hf') (le_antisymm hab hba)
  obtain ⟨k, hk, -⟩ := hw.keys e he
  obtain ⟨j, hj, -⟩ := hw.keys f hf'
  rw [hk, hj] at hkey
  have heq : e = f := List.inj_on_of_nodup_map hnd he hf' (by rw [hk, hj]; exact congrArg MappingKey.str hkey)
  rw [heq]

theorem serialize_perm {es fs : List (MappingKey × PyValue)} (hnd : (es.map Prod.fst).Nodup) (h : es.Perm fs)
    {text : PyStr} (hs : serialize (.mapping es) = .ok text) : serialize (.mapping fs) = .ok text := by
  have hw := writable_of_serialize hs
  have hw' : Writable fs := ⟨fun e he => hw.keys e (h.mem_iff.2 he), fun e he => hw.values e (h.mem_iff.2 he)⟩
  rw [serialize_writable hw'] at *
  rw [← writtenMembers_perm hw hnd h, ← serialize_writable hw, hs]

end Canonical

namespace Compiler
open Canonical Kernel
set_option autoImplicit false
set_option maxHeartbeats 250000

/-! ## Loops over the sources -/

theorem refuseIf_of {ε : Type} {bad bad' : Prop} [Decidable bad] [Decidable bad'] {error error' : ε}
    (h : refuseIf bad error = .ok ()) (himp : bad' → bad) : refuseIf bad' error' = .ok () := by
  rw [refuseIf_eq_ok] at *
  exact fun hbad => h (himp hbad)

theorem check_bind {β : Type} {x : Except Fault Unit} {f : Unit → Except Fault β} {b : β} :
    x >>= f = .ok b ↔ x = .ok () ∧ f () = .ok b := by
  cases x <;> simp [bind, Except.bind]

/-! ## The validators -/

theorem retainedValidate_perm {parsed parsed' : List (SourceUnit × Entries)} (hp : parsed.Perm parsed')
    (h : retainedValidate parsed = .ok ()) : retainedValidate parsed' = .ok () := by
  refine refuseIf_of h fun hsome hnone => hsome ?_
  exact ((hp.flatMap_right _).symm.trans (List.Perm.of_eq hnone)).eq_nil

theorem uniqueStrings_eq_ok {field : String} {values : List PyStr} :
    (∃ u, uniqueStrings field values = .ok u) ↔ UniqueStrings values := by
  constructor
  · rintro ⟨⟨h⟩, -⟩
    exact h
  · intro h
    rw [uniqueStrings, require, dif_pos h.1]
    exact ⟨⟨h⟩, by simp [bind, Except.bind, require, h.2, pure, Except.pure]⟩

theorem uniqueStrings_perm {values values' : List PyStr} (hp : values.Perm values') (h : UniqueStrings values) :
    UniqueStrings values' :=
  ⟨fun value hvalue => h.1 value (hp.mem_iff.2 hvalue), hp.nodup_iff.mp h.2⟩

theorem requireResolvedReferences_perm {defined defined' : List PyStr} {referenced referenced' : List PyValue}
    (hd : defined.Perm defined') (hr : referenced.Perm referenced')
    (h : requireResolvedReferences defined referenced = .ok ()) :
    requireResolvedReferences defined' referenced' = .ok () := by
  have hsorted : (referenced'.filterMap PyValue.text?).dedup.insertionSort (· ≤ ·) =
      (referenced.filterMap PyValue.text?).dedup.insertionSort (· ≤ ·) := by
    refine List.Perm.eq_of_pairwise' (List.pairwise_insertionSort _ _) (List.pairwise_insertionSort _ _) ?_
    exact (List.perm_insertionSort _ _).trans (((hr.filterMap _).symm.dedup).trans (List.perm_insertionSort _ _).symm)
  obtain ⟨u, hu, h⟩ := bind_eq_ok.1 h
  obtain ⟨htexts, h⟩ := check_bind.1 h
  obtain ⟨v, hv, h⟩ := bind_eq_ok.1 h
  obtain ⟨u', hu'⟩ := uniqueStrings_eq_ok.2 (uniqueStrings_perm hd (uniqueStrings_eq_ok.1 ⟨u, hu⟩))
  obtain ⟨v', hv'⟩ := uniqueStrings_eq_ok.2 (hsorted ▸ uniqueStrings_eq_ok.1 ⟨v, hv⟩)
  rw [requireResolvedReferences, bind_eq_ok]
  refine ⟨u', hu', check_bind.2 ⟨refuseIf_of htexts ?_, bind_eq_ok.2 ⟨v', hv', refuseIf_of h ?_⟩⟩⟩
  · rintro ⟨item, hitem, hnone⟩
    exact ⟨item, hr.mem_iff.2 hitem, hnone⟩
  · rw [hsorted]
    intro hsome hnone
    refine hsome (List.filter_eq_nil_iff.mpr fun name hname => ?_)
    simpa [hd.mem_iff] using List.filter_eq_nil_iff.mp hnone name hname

theorem findCycle_perm {depth : ℕ} {nodes nodes' : List PyStr} (hp : nodes.Perm nodes') (graph : PyStr → List PyStr) :
    findCycle depth nodes' graph = findCycle depth nodes graph := by
  have hsorted : nodes'.insertionSort (· ≤ ·) = nodes.insertionSort (· ≤ ·) :=
    List.Perm.eq_of_pairwise' (List.pairwise_insertionSort _ _) (List.pairwise_insertionSort _ _)
      ((List.perm_insertionSort _ _).trans (hp.symm.trans (List.perm_insertionSort _ _).symm))
  have hcolor : (fun node => if node ∈ nodes' then some Color.white else none) =
      fun node => if node ∈ nodes then some Color.white else none := by
    funext node
    simp only [hp.mem_iff]
  rw [findCycle, findCycle, hsorted, hcolor]

theorem byId_of_nodup {parsed : List (SourceUnit × Entries)} (hnd : (parsed.map fun p => p.1.resourceId).Nodup) :
    byId parsed = parsed.map fun p => (p.1.resourceId, p.2) := by
  rw [byId, Dict.foldl_put_of_nodup (fun p : SourceUnit × Entries => p.1.resourceId) (fun p => p.2) parsed
    (by simpa using hnd), List.nil_append]

theorem graphOf_perm (yaml : Yaml) {documents documents' : List (PyStr × Entries)}
    (hnd : (documents.map Prod.fst).Nodup) (hp : documents.Perm documents') :
    graphOf yaml documents' = graphOf yaml documents := by
  funext node
  rw [graphOf, graphOf, Dict.find_perm hnd hp]

theorem frontendValidate_perm {yaml : Yaml} {depth : ℕ} {parsed parsed' : List (SourceUnit × Entries)}
    (hnd : (parsed.map fun p => p.1.resourceId).Nodup) (hp : parsed.Perm parsed')
    (h : frontendValidate yaml depth parsed = .ok ()) : frontendValidate yaml depth parsed' = .ok () := by
  obtain ⟨diagnostics, hdiagnostics, h⟩ := bind_eq_ok.1 h
  obtain ⟨hclean, h⟩ := check_bind.1 h
  obtain ⟨referenced, hreferenced, h⟩ := bind_eq_ok.1 h
  obtain ⟨hhashable, h⟩ := check_bind.1 h
  obtain ⟨hsortable, h⟩ := check_bind.1 h
  obtain ⟨hresolved, h⟩ := check_bind.1 h
  obtain ⟨found, hfound, h⟩ := bind_eq_ok.1 h
  rw [liftPy_eq_ok] at hdiagnostics hreferenced hfound
  have hdocuments : (byId parsed).Perm (byId parsed') := by
    rw [byId_of_nodup hnd, byId_of_nodup ((hp.map _).nodup_iff.mp hnd)]
    exact hp.map _
  have hkeys : ((byId parsed).map Prod.fst).Nodup := by
    rw [byId_of_nodup hnd, List.map_map]
    exact hnd
  obtain ⟨diagnostics', hdiagnostics', hd⟩ := mapM_perm hdiagnostics hp
  obtain ⟨referenced', hreferenced', hr⟩ := mapM_perm hreferenced hdocuments
  have hflat := hr.flatten
  rw [frontendValidate, bind_eq_ok]
  refine ⟨diagnostics', liftPy_eq_ok.2 hdiagnostics', check_bind.2 ⟨refuseIf_of hclean ?_, bind_eq_ok.2
    ⟨referenced', liftPy_eq_ok.2 hreferenced', check_bind.2 ⟨refuseIf_of hhashable ?_, check_bind.2
      ⟨refuseIf_of hsortable ?_, check_bind.2 ⟨requireResolvedReferences_perm (hdocuments.map _) hflat hresolved,
        bind_eq_ok.2 ⟨found, liftPy_eq_ok.2 ?_, h⟩⟩⟩⟩⟩⟩⟩
  · exact fun hsome hnone => hsome ((hd.flatten.symm.trans (List.Perm.of_eq hnone)).eq_nil)
  · rintro ⟨item, hitem, hunhashable⟩
    exact ⟨item, hflat.mem_iff.2 hitem, hunhashable⟩
  · refine mt fun hsorts => ?_
    exact fun a ha b hb => hsorts a (hflat.mem_iff.2 ha) b (hflat.mem_iff.2 hb)
  · rw [findCycle_perm (hdocuments.map _), graphOf_perm yaml hkeys hdocuments]
    exact hfound

theorem IrBuilder.validate_perm {b : IrBuilder} {yaml : Yaml} {depth : ℕ} {parsed parsed' : List (SourceUnit × Entries)}
    (hnd : (parsed.map fun p => p.1.resourceId).Nodup) (hp : parsed.Perm parsed')
    (h : b.validate yaml depth parsed = .ok ()) : b.validate yaml depth parsed' = .ok () := by
  cases b with
  | retained => exact retainedValidate_perm hp h
  | frontend => exact frontendValidate_perm hnd hp h

/-! ## Releases -/

/-- The same request with its sources in another order. -/
structure Reordered (r s : CompilerRequest) : Prop where
  packageId : s.packageId = r.packageId
  semanticVersion : s.semanticVersion = r.semanticVersion
  sourceCommit : s.sourceCommit = r.sourceCommit
  compilerVersion : s.compilerVersion = r.compilerVersion
  mappingVersion : s.mappingVersion = r.mappingVersion
  releaseProfile : s.releaseProfile = r.releaseProfile
  dependencyLock : s.dependencyLock = r.dependencyLock
  sources : r.sources.Perm s.sources

/-- The two releases are published as the same. -/
structure SameRelease (a b : CanonicalIrRelease) : Prop where
  irDigest : b.irDigest = a.irDigest
  canonicalBytes : b.canonicalBytes = a.canonicalBytes
  artifacts : b.artifacts = a.artifacts

theorem metadataOf_reordered {r s : CompilerRequest} (h : Reordered r s) : metadataOf s = metadataOf r := by
  have hsorted : (s.sources.map fun source => toLex source.key).insertionSort (· ≤ ·) =
      (r.sources.map fun source => toLex source.key).insertionSort (· ≤ ·) :=
    List.Perm.eq_of_pairwise' (List.pairwise_insertionSort _ _) (List.pairwise_insertionSort _ _)
      ((List.perm_insertionSort _ _).trans ((h.sources.map _).symm.trans (List.perm_insertionSort _ _).symm))
  rw [metadataOf, metadataOf, hsorted, h.packageId, h.semanticVersion]

theorem mem_coreOf (r : CompilerRequest) (resources : Entries) :
    (MappingKey.str (py "resources"), PyValue.mapping resources) ∈ coreOf r resources := by
  simp [coreOf]

theorem canonicalize_core {r s : CompilerRequest} (h : Reordered r s) {resources resources' : Entries}
    (hnd : (resources.map Prod.fst).Nodup) (hp : resources.Perm resources') {bytes : Bytes}
    (hbytes : canonicalize (.mapping (coreOf r resources)) = .ok bytes) :
    canonicalize (.mapping (coreOf s resources')) = .ok bytes := by
  obtain ⟨text, htext, rfl⟩ := canonicalize_eq_ok.1 hbytes
  have hresources := (writable_of_serialize htext).values _ (mem_coreOf r resources)
  have hresources' := serialize_perm hnd hp hresources
  refine canonicalize_eq_ok.2 ⟨text, ?_, rfl⟩
  have hkeys : ∀ (t : CompilerRequest) (es : Entries), ∀ e ∈ coreOf t es, (MappingKey.str? e.1).isSome = true := by
    intro t es e he
    simp only [coreOf, List.mem_cons, List.not_mem_nil, or_false] at he
    rcases he with rfl | rfl | rfl | rfl | rfl | rfl | rfl <;> rfl
  have hentries : serializeEntries (coreOf s resources') = serializeEntries (coreOf r resources) := by
    simp only [coreOf, serializeEntries, hresources, hresources', h.packageId, h.semanticVersion, h.sourceCommit,
      h.compilerVersion, h.mappingVersion, h.releaseProfile]
  rw [serialize, if_pos (hkeys r resources)] at htext
  rw [serialize, if_pos (hkeys s resources'), hentries, htext]

theorem create_eq_ok {core : Entries} {artifacts : List ArtifactManifestEntry} {ref : PyStr}
    {release : CanonicalIrRelease} :
    CanonicalIrRelease.create core artifacts ref = .ok release ↔
      core ≠ [] ∧ (artifacts.map ArtifactManifestEntry.artifactId).Nodup ∧ ref ≠ [] ∧
        ∃ bytes, canonicalize (.mapping core) = .ok bytes ∧
          release = ⟨freezeEntries core, bytes, py "urn:sha256:" ++ Sha256.hexdigest bytes, artifacts, ref⟩ := by
  rw [CanonicalIrRelease.create, check_bind, refuseIf_eq_ok]
  refine and_congr Iff.rfl ?_
  constructor
  · intro h
    obtain ⟨bytes, hbytes, h⟩ := bind_eq_ok.1 h
    obtain ⟨hdistinct, h⟩ := check_bind.1 h
    obtain ⟨irDigest, hdigest, h⟩ := bind_eq_ok.1 h
    obtain ⟨⟨href⟩, -, h⟩ := bind_eq_ok.1 h
    obtain ⟨bytes', hbytes', rfl⟩ := canonicalDigest_eq_ok.1 hdigest
    rw [liftPy_eq_ok] at hbytes
    cases hbytes.symm.trans hbytes'
    rw [refuseIf_eq_ok, not_not] at hdistinct
    exact ⟨hdistinct, href, bytes, hbytes, (Except.ok.inj h).symm⟩
  · rintro ⟨hdistinct, href, bytes, hbytes, rfl⟩
    rw [bind_eq_ok]
    refine ⟨bytes, liftPy_eq_ok.2 hbytes, check_bind.2 ⟨refuseIf_eq_ok.2 (not_not.mpr hdistinct), ?_⟩⟩
    rw [canonicalDigest_eq_ok.2 ⟨bytes, hbytes, rfl⟩, required_ok href]
    rfl

theorem assemble_eq_ok {r : CompilerRequest} {entries : List (PyStr × PyValue)} {release : CanonicalIrRelease} :
    assemble r entries = .ok release ↔
      ∃ artifact bytes, (do
          let metadataDigest ← canonicalDigest (metadataOf r)
          ArtifactManifestEntry.create (r.packageId ++ py ":migration-metadata")
            (py "application/vnd.ocor.migration-metadata+json") metadataDigest) = .ok artifact ∧
        canonicalize (.mapping (coreOf r (collectResources entries))) = .ok bytes ∧
        release = ⟨freezeEntries (coreOf r (collectResources entries)), bytes,
          py "urn:sha256:" ++ Sha256.hexdigest bytes, [artifact],
          py "urn:ocor:unsigned:" ++ (py "urn:sha256:" ++ Sha256.hexdigest bytes)⟩ := by
  have hcore : coreOf r (collectResources entries) ≠ [] := List.cons_ne_nil _ _
  have href : ∀ d : PyStr, py "urn:ocor:unsigned:" ++ d ≠ [] := fun d => List.append_ne_nil_of_left_ne_nil (by decide) d
  constructor
  · intro h
    obtain ⟨metadataDigest, hmetadata, h⟩ := bind_eq_ok.1 h
    obtain ⟨artifact, hartifact, h⟩ := bind_eq_ok.1 h
    obtain ⟨coreDigest, hdigest, h⟩ := bind_eq_ok.1 h
    obtain ⟨bytes, hbytes, rfl⟩ := canonicalDigest_eq_ok.1 hdigest
    obtain ⟨-, -, -, bytes', hbytes', rfl⟩ := create_eq_ok.1 h
    cases hbytes.symm.trans hbytes'
    exact ⟨artifact, bytes, bind_eq_ok.2 ⟨_, hmetadata, hartifact⟩, hbytes, rfl⟩
  · rintro ⟨artifact, bytes, hartifact, hbytes, rfl⟩
    obtain ⟨metadataDigest, hmetadata, hartifact⟩ := bind_eq_ok.1 hartifact
    rw [assemble, bind_eq_ok]
    refine ⟨metadataDigest, hmetadata, bind_eq_ok.2 ⟨artifact, hartifact, bind_eq_ok.2
      ⟨_, canonicalDigest_eq_ok.2 ⟨bytes, hbytes, rfl⟩, create_eq_ok.2 ⟨hcore, ?_, href _, bytes, hbytes, rfl⟩⟩⟩⟩
    exact List.nodup_singleton _

theorem collectResources_of_nodup {entries : List (PyStr × PyValue)} (hnd : (entries.map Prod.fst).Nodup) :
    collectResources entries = entries.map fun e => (.str e.1, e.2) := by
  have hkeys : (entries.map fun e => MappingKey.str e.1).Nodup := by
    have hmapped := hnd.map fun _ _ h => MappingKey.str.inj h
    rwa [List.map_map] at hmapped
  rw [collectResources, Dict.foldl_put_of_nodup (fun e : PyStr × PyValue => MappingKey.str e.1) (fun e => e.2) entries
    (by simpa using hkeys), List.nil_append]

theorem assemble_perm {r s : CompilerRequest} (h : Reordered r s) {entries entries' : List (PyStr × PyValue)}
    (hnd : (entries.map Prod.fst).Nodup) (hp : entries.Perm entries') {release : CanonicalIrRelease}
    (hrelease : assemble r entries = .ok release) : ∃ release', assemble s entries' = .ok release' ∧ SameRelease release release' := by
  obtain ⟨artifact, bytes, hartifact, hbytes, rfl⟩ := assemble_eq_ok.1 hrelease
  have hkeys : ((collectResources entries).map Prod.fst).Nodup := Dict.nodup_foldl_put _ _ _ List.nodup_nil
  have hresources : (collectResources entries).Perm (collectResources entries') := by
    rw [collectResources_of_nodup hnd, collectResources_of_nodup ((hp.map _).nodup_iff.mp hnd)]
    exact hp.map _
  have hbytes' := canonicalize_core h hkeys hresources hbytes
  refine ⟨_, assemble_eq_ok.2 ⟨artifact, bytes, ?_, hbytes', rfl⟩, rfl, rfl, rfl⟩
  rw [metadataOf_reordered h, h.packageId]
  exact hartifact

/-! ## Builds -/

section Build
variable {b : IrBuilder} {yaml : Yaml} {depth : ℕ} {request : CompilerRequest} {release : CanonicalIrRelease}

/-- A source with the document parsed from it. -/
def parsePair (yaml : Yaml) (source : SourceUnit) : Except Fault (SourceUnit × Entries) := do
  return (source, ← parse yaml source)

/-- A source's identifier with its entry. -/
def entryPair (b : IrBuilder) (yaml : Yaml) (p : SourceUnit × Entries) : Except PyError (PyStr × PyValue) := do
  return (p.1.resourceId, ← b.entry yaml p.1 p.2)

theorem build_eq_ok :
    b.build yaml depth request = .ok release ↔
      ∃ parsed entries, request.sources.mapM (parsePair yaml) = .ok parsed ∧ b.validate yaml depth parsed = .ok () ∧
        parsed.mapM (entryPair b yaml) = .ok entries ∧ assemble request entries = .ok release := by
  constructor
  · intro h
    obtain ⟨parsed, hparsed, h⟩ := bind_eq_ok.1 h
    obtain ⟨hvalid, h⟩ := check_bind.1 h
    obtain ⟨entries, hentries, h⟩ := bind_eq_ok.1 h
    exact ⟨parsed, entries, hparsed, hvalid, liftPy_eq_ok.1 hentries, h⟩
  · rintro ⟨parsed, entries, hparsed, hvalid, hentries, h⟩
    exact bind_eq_ok.2 ⟨parsed, hparsed, check_bind.2 ⟨hvalid, bind_eq_ok.2
      ⟨entries, liftPy_eq_ok.2 hentries, h⟩⟩⟩

theorem parsePair_eq_ok {source : SourceUnit} {p : SourceUnit × Entries} :
    parsePair yaml source = .ok p ↔ p.1 = source ∧ parse yaml source = .ok p.2 := by
  rw [parsePair, bind_eq_ok]
  constructor
  · rintro ⟨document, hdocument, h⟩
    cases h
    exact ⟨rfl, hdocument⟩
  · rintro ⟨rfl, hdocument⟩
    exact ⟨p.2, hdocument, rfl⟩

theorem entryPair_eq_ok {p : SourceUnit × Entries} {e : PyStr × PyValue} :
    entryPair b yaml p = .ok e ↔ e.1 = p.1.resourceId ∧ b.entry yaml p.1 p.2 = .ok e.2 := by
  rw [entryPair, OcorRuntime.bind_eq_ok]
  constructor
  · rintro ⟨value, hvalue, h⟩
    cases h
    exact ⟨rfl, hvalue⟩
  · rintro ⟨hid, hvalue⟩
    refine ⟨e.2, hvalue, ?_⟩
    rw [← hid]
    rfl

theorem parsed_ids {parsed : List (SourceUnit × Entries)} (h : request.sources.mapM (parsePair yaml) = .ok parsed) :
    (parsed.map fun p => p.1.resourceId) = request.sources.map SourceUnit.resourceId :=
  map_of_forall₂ ((forall₂_of_mapM.1 h).imp fun source p hp => by rw [(parsePair_eq_ok.1 hp).1])

theorem entries_ids {parsed : List (SourceUnit × Entries)} {entries : List (PyStr × PyValue)}
    (h : parsed.mapM (entryPair b yaml) = .ok entries) : entries.map Prod.fst = parsed.map fun p => p.1.resourceId :=
  map_of_forall₂ ((forall₂_of_mapM.1 h).imp fun _ _ he => (entryPair_eq_ok.1 he).1)

/-- The entry of a source carries its version, its digest and the fields of its document. -/
theorem entry_identity {source : SourceUnit} {document : Entries} {value : PyValue}
    (h : b.entry yaml source document = .ok value) :
    ∃ fields rest, Entries.get? document "fields" = some fields ∧ value = .mapping (IrBuilder.identity source fields ++ rest) := by
  cases b with
  | retained =>
    obtain ⟨fields, hfields, h⟩ := OcorRuntime.bind_eq_ok.1 h
    cases h
    exact ⟨fields, [], orRaise_eq_ok.1 hfields, by rw [List.append_nil]⟩
  | frontend =>
    obtain ⟨fields, hfields, h⟩ := OcorRuntime.bind_eq_ok.1 h
    obtain ⟨types, -, h⟩ := OcorRuntime.bind_eq_ok.1 h
    obtain ⟨referenced, -, h⟩ := OcorRuntime.bind_eq_ok.1 h
    cases h
    exact ⟨fields, _, orRaise_eq_ok.1 hfields, rfl⟩

/-! ### What the core has of a source -/

/-- `core.resources` has an entry for the source. -/
def Carries (release : CanonicalIrRelease) (source : SourceUnit) (fields : PyValue) : Prop :=
  ∃ resources entry : Entries, Entries.get? release.core "resources" = some (.mapping resources) ∧
    Dict.find resources (.str source.resourceId) = some (.mapping entry) ∧
    Entries.get? entry "version" = some (.str source.version) ∧
    Entries.get? entry "content_digest" = some (.str source.contentDigest) ∧
    Entries.get? entry "fields" = some (freeze fields)

/-- Every source has its entry, with the fields of its document. -/
def Complete (yaml : Yaml) (request : CompilerRequest) (release : CanonicalIrRelease) : Prop :=
  ∀ source ∈ request.sources, ∃ document fields, parse yaml source = .ok document ∧
    Entries.get? document "fields" = some fields ∧ Carries release source fields

/-- A request with the same sources in another order builds the same release. -/
def OrderFree (b : IrBuilder) (yaml : Yaml) (depth : ℕ) (request : CompilerRequest) (release : CanonicalIrRelease) : Prop :=
  ∀ request', Reordered request request' →
    ∃ release', b.build yaml depth request' = .ok release' ∧ SameRelease release release'

theorem find_resources (request : CompilerRequest) (resources : Entries) :
    Dict.find (freezeEntries (coreOf request resources)) (.str (py "resources")) =
      some (.mapping (freezeEntries resources)) := by
  have hfind : Dict.find (coreOf request resources) (.str (py "resources")) = some (.mapping resources) := by
    have hkeys : (["package_id", "semantic_version", "source_commit", "compiler_version", "mapping_version",
        "release_profile", "resources"].map fun name => MappingKey.str (py name)).Nodup := by decide
    exact (Dict.find_eq_some_iff (l := coreOf request resources) hkeys _ _).mpr (mem_coreOf request resources)
  rw [find_freezeEntries, hfind]
  rfl

theorem core_resources {entries : List (PyStr × PyValue)} (h : assemble request entries = .ok release) :
    Entries.get? release.core "resources" = some (.mapping (freezeEntries (collectResources entries))) := by
  obtain ⟨artifact, bytes, -, -, rfl⟩ := assemble_eq_ok.1 h
  exact find_resources request _

theorem complete_of_nodup (h : b.build yaml depth request = .ok release)
    (hnd : (request.sources.map SourceUnit.resourceId).Nodup) : Complete yaml request release := by
  obtain ⟨parsed, entries, hparsed, -, hentries, hrelease⟩ := build_eq_ok.1 h
  intro source hsource
  obtain ⟨p, hp, hpair⟩ := mapM_mem hparsed hsource
  obtain ⟨e, he, hentry⟩ := mapM_mem hentries hp
  obtain ⟨rfl, hdocument⟩ := parsePair_eq_ok.1 hpair
  obtain ⟨hid, hvalue⟩ := entryPair_eq_ok.1 hentry
  obtain ⟨fields, rest, hfields, hmapping⟩ := entry_identity hvalue
  refine ⟨p.2, fields, hdocument, hfields, _, freezeEntries (IrBuilder.identity p.1 fields ++ rest),
    core_resources hrelease, ?_, ?_⟩
  · have hkeys : (entries.map Prod.fst).Nodup := by rwa [entries_ids hentries, parsed_ids hparsed]
    have hresources : ((collectResources entries).map Prod.fst).Nodup := Dict.nodup_foldl_put _ _ _ List.nodup_nil
    have hfind : Dict.find (collectResources entries) (.str p.1.resourceId) = some e.2 := by
      rw [Dict.find_eq_some_iff hresources, collectResources_of_nodup hkeys]
      exact List.mem_map.mpr ⟨e, he, by rw [hid]⟩
    rw [find_freezeEntries, hfind, hmapping]
    rfl
  · exact ⟨rfl, rfl, rfl⟩

theorem nodup_of_complete (h : Complete yaml request release) : (request.sources.map SourceUnit.resourceId).Nodup := by
  refine List.Nodup.map_on (fun source hsource other hother hid => ?_) (List.Nodup.of_map _ request.unique)
  obtain ⟨-, -, -, -, resources, entry, hresources, hentry, hversion, -⟩ := h source hsource
  obtain ⟨-, -, -, -, resources', entry', hresources', hentry', hversion', -⟩ := h other hother
  cases hresources.symm.trans hresources'
  rw [hid] at hentry
  cases hentry.symm.trans hentry'
  have hsame : source.version = other.version := PyValue.str.inj (Option.some.inj (hversion.symm.trans hversion'))
  exact List.inj_on_of_nodup_map request.unique hsource hother (Prod.ext hid hsame)

theorem orderFree_of_nodup (h : b.build yaml depth request = .ok release)
    (hnd : (request.sources.map SourceUnit.resourceId).Nodup) : OrderFree b yaml depth request release := by
  obtain ⟨parsed, entries, hparsed, hvalid, hentries, hrelease⟩ := build_eq_ok.1 h
  intro request' hreordered
  obtain ⟨parsed', hparsed', hp⟩ := mapM_perm hparsed hreordered.sources
  obtain ⟨entries', hentries', he⟩ := mapM_perm hentries hp
  have hids : (parsed.map fun p => p.1.resourceId).Nodup := by rwa [parsed_ids hparsed]
  obtain ⟨release', hrelease', hsame⟩ := assemble_perm hreordered (by rwa [entries_ids hentries]) he hrelease
  exact ⟨release', build_eq_ok.2 ⟨parsed', entries', hparsed', IrBuilder.validate_perm hids hp hvalid, hentries',
    hrelease'⟩, hsame⟩

/-- **A release has an entry for every source and does not depend on their order, exactly if no two sources of the
request share an identifier.** -/
theorem build_keeps_sources_iff (h : b.build yaml depth request = .ok release) :
    Complete yaml request release ∧ OrderFree b yaml depth request release ↔
      (request.sources.map SourceUnit.resourceId).Nodup := by
  constructor
  · rintro ⟨hcomplete, -⟩
    exact nodup_of_complete hcomplete
  · intro hnd
    exact ⟨complete_of_nodup h hnd, orderFree_of_nodup h hnd⟩

end Build

theorem artifact_created (artifactId mediaType : PyStr) (hid : artifactId ≠ []) (hmedia : mediaType ≠ []) (bytes : Bytes) :
    ∃ artifact, ArtifactManifestEntry.create artifactId mediaType (py "urn:sha256:" ++ Sha256.hexdigest bytes) = .ok artifact := by
  have hdigest := isDigest_hexdigest bytes
  have hne : py "urn:sha256:" ++ Sha256.hexdigest bytes ≠ [] := List.append_ne_nil_of_left_ne_nil (by decide) _
  rw [ArtifactManifestEntry.create, required_ok hid, required_ok hmedia, digest, required_ok hne, require, dif_pos hdigest]
  exact ⟨_, rfl⟩

/-! ### Two versions of one resource -/

section Sample

def sampleContent : Bytes := utf8Encode (py "\x7b\"id\":\"r\",\"fields\":\x7b\x7d,\"field_types\":\x7b\x7d\x7d")

def sampleDocument : Entries :=
  [(.str (py "id"), .str (py "r")), (.str (py "fields"), .mapping []), (.str (py "field_types"), .mapping [])]

/-- `SourceUnit.create("r", version, "JSON", ...)`. -/
def sampleUnit (version : PyStr) : SourceUnit where
  resourceId := py "r"
  version := version
  language := .json
  content := sampleContent
  contentDigest := (canonicalDigest (.mapping [(.str (py "bytes_hex"), .str (hex sampleContent))])).toOption.getD []
  sourcePath := py "r.json"
  imports := []

def sampleCommit : PyStr := List.replicate 40 (codePoint 0x61)

def sampleRequest (versions : List PyStr) (hne : versions ≠ []) (hnd : versions.Nodup) : CompilerRequest where
  packageId := py "p"
  semanticVersion := py "1.0.0"
  sourceCommit := sampleCommit
  compilerVersion := py "1"
  mappingVersion := py "1"
  releaseProfile := py "default"
  sources := versions.map sampleUnit
  dependencyLock := []
  named := by decide
  committed := by decide
  sourced := by simpa using hne
  unique := by
    rw [List.map_map]
    exact hnd.map fun v w h => congrArg Prod.snd h
  locked := List.nodup_nil
  resolved := by
    intro source hsource reference hreference
    obtain ⟨version, -, rfl⟩ := List.mem_map.mp hsource
    cases hreference

def sampleYaml : Yaml where
  safeLoad := fun _ => .error .yamlError
  iterate := fun _ => .error (typeError "object is not iterable")

theorem sampleContent_loads : jsonLoads sampleContent = .ok (.mapping sampleDocument) := by decide +kernel

theorem sampleUnit_parsed (version : PyStr) : parse sampleYaml (sampleUnit version) = .ok sampleDocument := by
  unfold parse
  simp only [sampleUnit, sampleContent_loads]
  rfl

/-- The entry of a version, as each builder makes it. -/
def sampleEntry (b : IrBuilder) (version : PyStr) : PyValue :=
  .mapping (IrBuilder.identity (sampleUnit version) (.mapping []) ++
    match b with
    | .retained => []
    | .frontend => IrBuilder.declarations (.mapping []) [] .none)

theorem scalar_sampleDigest (version : PyStr) : Scalar (sampleUnit version).contentDigest := by
  have hdigest : ∀ (v : PyValue), Scalar ((canonicalDigest v).toOption.getD []) := by
    intro v
    cases h : canonicalDigest v with
    | error e => exact fun c hc => absurd hc List.not_mem_nil
    | ok d =>
      obtain ⟨bytes, -, rfl⟩ := canonicalDigest_eq_ok.1 h
      exact (isDigest_text (isDigest_hexdigest bytes)).2
  unfold sampleUnit
  dsimp only
  exact hdigest _

theorem iJson_empty : IJson (.mapping []) := by
  rw [IJson]
  exact ⟨List.nodup_nil, fun e he => absurd he List.not_mem_nil⟩

theorem iJson_sampleEntry (b : IrBuilder) {version : PyStr} (h : Scalar version) : IJson (sampleEntry b version) := by
  have hlist : IJson (.list []) := by
    rw [IJson]
    exact fun x hx => absurd hx List.not_mem_nil
  have hdigest := scalar_sampleDigest version
  have hidentity : ∀ entry ∈ [("version", some (.str version)), ("content_digest", some (.str (sampleUnit version).contentDigest)),
      ("fields", some (PyValue.mapping []))], ∀ v ∈ entry.2, IJson v := by
    simp [h, hdigest, iJson_empty]
  cases b with
  | retained => exact iJson_fields (by simp only [List.map_cons, List.map_nil]; decide) hidentity
  | frontend =>
    have hdeclarations : ∀ entry ∈ [("field_types", some (PyValue.mapping [])), ("references", some (.list [])),
        ("execution_owner", some .none)], ∀ v ∈ entry.2, IJson v := by
      simp [hlist, iJson_empty]
    exact iJson_fields (by simp only [List.cons_append, List.nil_append, List.map_cons, List.map_nil]; decide)
      (List.forall_mem_append.mpr ⟨hidentity, hdeclarations⟩)

/-- The builders go through where the documents validate and one version of the resource stays. -/
theorem sample_built (b : IrBuilder) (versions : List PyStr) (last : PyStr) (hne : versions ≠ []) (hnd : versions.Nodup)
    (hlast : Scalar last)
    (hvalid : b.validate sampleYaml 100 (versions.map fun version => (sampleUnit version, sampleDocument)) = .ok ())
    (hresources : collectResources (versions.map fun version => (py "r", sampleEntry b version)) =
      [(.str (py "r"), sampleEntry b last)])
    (hmetadata : (canonicalize (metadataOf (sampleRequest versions hne hnd))).toOption.isSome = true) :
    ∃ release, b.build sampleYaml 100 (sampleRequest versions hne hnd) = .ok release := by
  have hparsed : (versions.map sampleUnit).mapM (parsePair sampleYaml) =
      .ok (versions.map fun version => (sampleUnit version, sampleDocument)) := by
    rw [forall₂_of_mapM, List.forall₂_map_left_iff, List.forall₂_map_right_iff, List.forall₂_same]
    exact fun version _ => parsePair_eq_ok.2 ⟨rfl, sampleUnit_parsed version⟩
  have hentries : (versions.map fun version => (sampleUnit version, sampleDocument)).mapM (entryPair b sampleYaml) =
      .ok (versions.map fun version => (py "r", sampleEntry b version)) := by
    rw [forall₂_of_mapM, List.forall₂_map_left_iff, List.forall₂_map_right_iff, List.forall₂_same]
    intro version _
    refine entryPair_eq_ok.2 ⟨rfl, ?_⟩
    cases b <;> rfl
  obtain ⟨metadataBytes, hmetadataBytes⟩ := Option.isSome_iff_exists.mp hmetadata
  obtain ⟨artifact, hartifact⟩ := artifact_created (py "p:migration-metadata")
    (py "application/vnd.ocor.migration-metadata+json") (by decide) (by decide) metadataBytes
  have hresource : IJson (fields [("r", some (sampleEntry b last))]) :=
    iJson_fields (by simp) (by simpa using iJson_sampleEntry b hlast)
  have hcommit : Scalar sampleCommit := by decide
  have hcore : IJson (fields [("package_id", some (.str (py "p"))), ("semantic_version", some (.str (py "1.0.0"))),
      ("source_commit", some (.str sampleCommit)), ("compiler_version", some (.str (py "1"))),
      ("mapping_version", some (.str (py "1"))), ("release_profile", some (.str (py "default"))),
      ("resources", some (fields [("r", some (sampleEntry b last))]))]) :=
    iJson_fields (by simp only [List.map_cons, List.map_nil]; decide) (by simp [hresource, hcommit])
  have hbytes : canonicalize (.mapping (coreOf (sampleRequest versions hne hnd) [(.str (py "r"), sampleEntry b last)])) = _ :=
    canonicalize_eq hcore
  rw [← hresources] at hbytes
  have hmetadataOk : canonicalize (metadataOf (sampleRequest versions hne hnd)) = .ok metadataBytes := by
    cases h : canonicalize (metadataOf (sampleRequest versions hne hnd)) with
    | error e =>
      rw [h] at hmetadataBytes
      cases hmetadataBytes
    | ok bytes =>
      rw [h] at hmetadataBytes
      cases hmetadataBytes
      rfl
  have hrelease := assemble_eq_ok.2 ⟨artifact, _,
    bind_eq_ok.2 ⟨_, canonicalDigest_eq_ok.2 ⟨metadataBytes, hmetadataOk, rfl⟩, hartifact⟩, hbytes, rfl⟩
  exact ⟨_, build_eq_ok.2 ⟨_, _, hparsed, hvalid, hentries, hrelease⟩⟩

theorem sampleMetadata_canonical :
    (canonicalize (metadataOf (sampleRequest [py "1"] (by decide) (by decide)))).toOption.isSome = true ∧
      (canonicalize (metadataOf (sampleRequest [py "1", py "2"] (by decide) (by decide)))).toOption.isSome = true := by
  decide

/-- A request with one source builds a release that keeps it. -/
theorem build_keeps_sources_iff_one :
    ∃ release, IrBuilder.frontend.build sampleYaml 100 (sampleRequest [py "1"] (by decide) (by decide)) = .ok release ∧
      Complete sampleYaml (sampleRequest [py "1"] (by decide) (by decide)) release ∧
      OrderFree .frontend sampleYaml 100 (sampleRequest [py "1"] (by decide) (by decide)) release := by
  obtain ⟨release, h⟩ := sample_built .frontend [py "1"] (py "1") (by decide) (by decide) (by decide)
    (by rfl) (by rfl) sampleMetadata_canonical.1
  exact ⟨release, h, (build_keeps_sources_iff h).mpr (by decide)⟩

theorem two_versions_lose_one (b : IrBuilder) :
    ∃ release, b.build sampleYaml 100 (sampleRequest [py "1", py "2"] (by decide) (by decide)) = .ok release ∧
      ¬ Complete sampleYaml (sampleRequest [py "1", py "2"] (by decide) (by decide)) release := by
  obtain ⟨release, h⟩ := sample_built b [py "1", py "2"] (py "2") (by decide) (by decide) (by decide)
    (by cases b <;> rfl) (by cases b <;> rfl) sampleMetadata_canonical.2
  refine ⟨release, h, fun hcomplete => ?_⟩
  have hnodup := nodup_of_complete hcomplete
  revert hnodup
  decide

theorem builds_do_not_keep_sources :
    ¬ ∀ (b : IrBuilder) (release : CanonicalIrRelease),
      b.build sampleYaml 100 (sampleRequest [py "1", py "2"] (by decide) (by decide)) = .ok release →
      Complete sampleYaml (sampleRequest [py "1", py "2"] (by decide) (by decide)) release ∧
        OrderFree b sampleYaml 100 (sampleRequest [py "1", py "2"] (by decide) (by decide)) release := by
  intro h
  obtain ⟨release, hbuild, hlost⟩ := two_versions_lose_one .retained
  exact hlost (h .retained release hbuild).1

end Sample

end Compiler
end OcorRuntime
