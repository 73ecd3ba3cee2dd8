import Mathlib.Data.List.Perm.Subperm
import OcorRuntime.Compiler.Compatibility

/-! The diff, the plan and the generation of artifacts, beside the compatibility of two releases of the front end:
an empty diff is identity, a breaking pair has something to retire or to migrate, and generation is refused only to a
breaking pair without a plan. -/
namespace OcorRuntime.Compiler
open Canonical Kernel
set_option autoImplicit false
set_option maxHeartbeats 250000
set_option maxRecDepth 120000

section Releases
variable {a b : CanonicalIrRelease}

/-! ## The diff -/

theorem sortedIds_eq_nil {resources : Entries} (h : ∀ e ∈ resources, ∃ id, e.1 = .str id) :
    sortedIds resources = [] ↔ resources = [] := by
  have hlength : (sortedIds resources).length = resources.length := by
    rw [sortedIds, List.length_insertionSort, List.length_filterMap_eq_countP, List.countP_eq_length]
    intro e he
    obtain ⟨id, hid⟩ := h e he
    rw [hid]
    rfl
  rw [← List.length_eq_zero_iff, hlength, List.length_eq_zero_iff]

theorem Formed.ids (h : Formed a) {resources : Entries} (hsub : resources ⊆ resourcesOf a) :
    ∀ e ∈ resources, ∃ id, e.1 = .str id := by
  intro e he
  obtain ⟨id, members, types, rfl, -, -⟩ := h.resource e (hsub he)
  exact ⟨id, rfl⟩

theorem Formed.scalar_sortedIds (h : Formed a) {resources : Entries} (hsub : resources ⊆ resourcesOf a) :
    ∀ id ∈ sortedIds resources, Scalar id := by
  intro id hid
  rw [sortedIds, List.mem_insertionSort, List.mem_filterMap] at hid
  obtain ⟨e, he, hkey⟩ := hid
  obtain ⟨id', members, types, rfl, hscalar, -⟩ := h.resource e (hsub he)
  cases hkey
  exact hscalar

/-- Nothing was removed and nothing changed: every resource is there again, equal. -/
theorem kept_iff (ha : Formed a) : (structuralDiff a b).removed = [] ∧ (structuralDiff a b).changed = [] ↔
    ∀ e ∈ resourcesOf a, ∃ resource, Dict.find (resourcesOf b) e.1 = some resource ∧ PyValue.pyEq e.2 resource = true := by
  rw [structuralDiff, sortedIds_eq_nil (ha.ids (List.filter_subset_self _)), sortedIds_eq_nil (ha.ids (List.filter_subset_self _)),
    List.filter_eq_nil_iff, List.filter_eq_nil_iff]
  constructor
  · rintro ⟨hremoved, hchanged⟩ e he
    have hfound := hremoved e he
    have hsame := hchanged e he
    cases hfind : Dict.find (resourcesOf b) e.1 with
    | none => exact absurd (by rw [hfind]; rfl) hfound
    | some resource =>
      rw [hfind] at hsame
      exact ⟨resource, rfl, by simpa using hsame⟩
  · intro h
    refine ⟨fun e he => ?_, fun e he => ?_⟩
    · obtain ⟨resource, hfind, -⟩ := h e he
      rw [hfind]
      simp
    · obtain ⟨resource, hfind, hequal⟩ := h e he
      rw [hfind]
      simpa using hequal

theorem added_eq_nil (hb : Formed b) : (structuralDiff a b).added = [] ↔
    (resourcesOf b).map Prod.fst ⊆ (resourcesOf a).map Prod.fst := by
  have hfound : ∀ k, (Dict.find (resourcesOf a) k).isNone = true → k ∉ (resourcesOf a).map Prod.fst := by
    intro k
    induction resourcesOf a with
    | nil => simp
    | cons e es ih =>
      rw [Dict.find]
      split_ifs with hk
      · simp
      · intro hnone
        rw [List.map_cons, List.mem_cons, not_or]
        exact ⟨fun h => hk h.symm, ih hnone⟩
  rw [structuralDiff, sortedIds_eq_nil (hb.ids (List.filter_subset_self _)), List.filter_eq_nil_iff]
  constructor
  · intro h k hk
    obtain ⟨e, he, rfl⟩ := List.mem_map.mp hk
    cases hfind : Dict.find (resourcesOf a) e.1 with
    | none => exact absurd (by rw [hfind]; rfl) (h e he)
    | some resource => exact List.mem_map.mpr ⟨_, Dict.mem_of_find hfind, rfl⟩
  · intro h e he hnone
    exact hfound e.1 hnone (h (List.mem_map.mpr ⟨e, he, rfl⟩))

theorem structuralDiff_eq_nil (ha : Formed a) (hb : Formed b) : structuralDiff a b = ⟨[], [], []⟩ ↔
    PyValue.pyEq (.mapping (resourcesOf a)) (.mapping (resourcesOf b)) = true := by
  have hparts : structuralDiff a b = ⟨[], [], []⟩ ↔ (structuralDiff a b).added = [] ∧
      (structuralDiff a b).removed = [] ∧ (structuralDiff a b).changed = [] := by
    constructor
    · intro h
      rw [h]
      exact ⟨rfl, rfl, rfl⟩
    · intro h
      exact StructuralDiff.ext h.1 h.2.1 h.2.2
  rw [hparts, kept_iff ha, added_eq_nil hb, PyValue.pyEq, Bool.and_eq_true, beq_iff_eq, PyValue.pyEqEntries_iff]
  refine and_congr_left fun hkept => ?_
  have hsub : (resourcesOf a).map Prod.fst ⊆ (resourcesOf b).map Prod.fst := by
    intro k hk
    obtain ⟨e, he, rfl⟩ := List.mem_map.mp hk
    obtain ⟨resource, hfind, -⟩ := hkept e he
    exact List.mem_map.mpr ⟨_, Dict.mem_of_find hfind, rfl⟩
  constructor
  · intro hback
    have hperm := (List.perm_ext_iff_of_nodup ha.keys hb.keys).mpr fun k => ⟨fun h => hsub h, fun h => hback h⟩
    simpa using hperm.length_eq
  · intro hlength
    exact ((ha.keys.subperm hsub).perm_of_length_le (by simp [hlength])).symm.subset

theorem removed_or_changed (ha : Formed a) (hb : Formed b) (h : check a b = .ok .breaking) :
    (structuralDiff a b).removed ≠ [] ∨ (structuralDiff a b).changed ≠ [] := by
  rw [check_breaking_iff ha hb] at h
  by_contra hnone
  rw [not_or, not_not, not_not, kept_iff ha] at hnone
  apply h
  intro id fields hfields
  obtain ⟨resource, hfind, rfl⟩ := Option.map_eq_some_iff.mp hfields
  obtain ⟨members, types, rfl, hformed⟩ := ha.find hfind
  obtain ⟨resource', hfind', hequal⟩ := hnone _ (Dict.mem_of_find hfind)
  obtain ⟨members', types', rfl, hformed'⟩ := hb.find hfind'
  refine ⟨_, schemaOf_types hfind', fun field type htype => ?_⟩
  rw [hformed.declared] at htype
  rw [hformed'.declared]
  exact textsOf_of_pyEq hformed hformed' hequal htype

/-! ## What is digested -/

theorem iJson_list {xs : List PyValue} (h : ∀ x ∈ xs, IJson x) : IJson (.list xs) := by
  rw [IJson]
  exact h

theorem iJson_str {s : PyStr} (h : Scalar s) : IJson (.str s) := by
  rw [IJson]
  exact h

theorem iJson_idTexts {ids : List PyStr} (h : ∀ id ∈ ids, Scalar id) : IJson (idTexts ids) := by
  refine iJson_list fun x hx => ?_
  obtain ⟨id, hid, rfl⟩ := List.mem_map.mp hx
  exact iJson_str (h id hid)

theorem iJson_object (entries : List (String × PyValue)) (hkeys : (entries.map Prod.fst).Nodup)
    (h : ∀ e ∈ entries, IJson e.2) : IJson (.mapping (entries.map fun e => (.str (py e.1), e.2))) := by
  have hfields : IJson (fields (entries.map fun e => (e.1, some e.2))) := by
    refine iJson_fields ?_ fun f hf => ?_
    · rw [List.map_map]
      exact hkeys
    · obtain ⟨e, he, rfl⟩ := List.mem_map.mp hf
      rintro v ⟨⟩
      exact h e he
  rw [fields, List.filterMap_map] at hfields
  have hmap : entries.filterMap ((fun entry : String × Option PyValue => entry.2.map fun value =>
      (MappingKey.str (py entry.1), value)) ∘ fun e => (e.1, some e.2)) =
      entries.map fun e => (MappingKey.str (py e.1), e.2) := congrFun List.filterMap_eq_map entries
  rwa [hmap] at hfields

theorem canonicalDigest_iJson {v : PyValue} (h : IJson v) :
    ∃ bytes, canonicalDigest v = .ok (py "urn:sha256:" ++ Sha256.hexdigest bytes) :=
  ⟨_, canonicalDigest_eq_ok.2 ⟨_, canonicalize_eq h, rfl⟩⟩

theorem Formed.scalar_diff (ha : Formed a) (hb : Formed b) : (∀ id ∈ (structuralDiff a b).added, Scalar id) ∧
    (∀ id ∈ (structuralDiff a b).removed, Scalar id) ∧ ∀ id ∈ (structuralDiff a b).changed, Scalar id :=
  ⟨hb.scalar_sortedIds (List.filter_subset_self _), ha.scalar_sortedIds (List.filter_subset_self _),
    ha.scalar_sortedIds (List.filter_subset_self _)⟩

theorem iJson_diff (ha : Formed a) (hb : Formed b) : IJson (structuralDiff a b).document := by
  obtain ⟨hadded, hremoved, hchanged⟩ := ha.scalar_diff hb
  refine iJson_object [("added", idTexts (structuralDiff a b).added),
    ("removed", idTexts (structuralDiff a b).removed), ("changed", idTexts (structuralDiff a b).changed)]
    (by simp only [List.map_cons, List.map_nil]; decide) fun e he => ?_
  simp only [List.mem_cons, List.not_mem_nil, or_false] at he
  rcases he with rfl | rfl | rfl
  · exact iJson_idTexts hadded
  · exact iJson_idTexts hremoved
  · exact iJson_idTexts hchanged

theorem scalar_digest (bytes : Bytes) : Scalar (py "urn:sha256:" ++ Sha256.hexdigest bytes) :=
  (isDigest_text (isDigest_hexdigest bytes)).2

/-! ## Plans and artifacts exist -/

theorem iJson_step {step : MigrationStep} (h : Scalar step.resourceId) : IJson step.document := by
  refine iJson_object [("op", .str (py step.op.value)), ("resource_id", .str step.resourceId)]
    (by simp only [List.map_cons, List.map_nil]; decide) fun e he => ?_
  simp only [List.mem_cons, List.not_mem_nil, or_false] at he
  rcases he with rfl | rfl
  · refine iJson_str ?_
    cases step.op <;> decide
  · exact iJson_str h

theorem plan_returns (ha : Formed a) (hb : Formed b) : ∃ p, plan a b = .ok p ∧
    p.migrationSteps = migrationSteps (structuralDiff a b) := by
  obtain ⟨diffBytes, hdiff⟩ := canonicalDigest_iJson (iJson_diff ha hb)
  obtain ⟨classification, hcheck⟩ : ∃ classification, check a b = .ok classification := by
    rcases check_cases ha hb with ⟨h, -⟩ | ⟨h, -⟩ | ⟨h, -⟩ <;> exact ⟨_, h⟩
  have hsteps : ∀ step ∈ migrationSteps (structuralDiff a b), Scalar step.resourceId := by
    obtain ⟨hadded, hremoved, hchanged⟩ := ha.scalar_diff hb
    intro step hstep
    simp only [migrationSteps, List.mem_append, List.mem_map] at hstep
    rcases hstep with (⟨id, hid, rfl⟩ | ⟨id, hid, rfl⟩) | ⟨id, hid, rfl⟩
    · exact hremoved id hid
    · exact hchanged id hid
    · exact hadded id hid
  have hbody : IJson (planBody a.irDigest b.irDigest (py "urn:sha256:" ++ Sha256.hexdigest diffBytes) classification
      (migrationSteps (structuralDiff a b))) := by
    refine iJson_object [("previous_ir_digest", .str a.irDigest), ("candidate_ir_digest", .str b.irDigest),
      ("diff_digest", .str (py "urn:sha256:" ++ Sha256.hexdigest diffBytes)),
      ("classification", .str (py classification.value)),
      ("migration_steps", .list ((migrationSteps (structuralDiff a b)).map MigrationStep.document))]
      (by simp only [List.map_cons, List.map_nil]; decide) fun e he => ?_
    simp only [List.mem_cons, List.not_mem_nil, or_false] at he
    rcases he with rfl | rfl | rfl | rfl | rfl
    · exact iJson_str ha.irDigest
    · exact iJson_str hb.irDigest
    · exact iJson_str (scalar_digest diffBytes)
    · refine iJson_str ?_
      cases classification <;> decide
    · refine iJson_list fun x hx => ?_
      obtain ⟨step, hstep, rfl⟩ := List.mem_map.mp hx
      exact iJson_step (hsteps step hstep)
  obtain ⟨planBytes, hplan⟩ := canonicalDigest_iJson hbody
  refine ⟨⟨a.irDigest, b.irDigest, py "urn:sha256:" ++ Sha256.hexdigest diffBytes, classification,
    migrationSteps (structuralDiff a b), py "urn:sha256:" ++ Sha256.hexdigest planBytes⟩, ?_, rfl⟩
  refine bind_eq_ok.2 ⟨_, hdiff, bind_eq_ok.2 ⟨classification, liftPy_eq_ok.2 hcheck, bind_eq_ok.2 ⟨_, hplan, rfl⟩⟩⟩

theorem manifestLine_returns {members types : Entries} {id : PyStr} (hid : Scalar id) (h : FormedResource members types) :
    ∃ line, manifestLine (.str id, .mapping members) = .ok line ∧ IJson line.2 := by
  obtain ⟨version, hversion, hscalar⟩ := h.version
  obtain ⟨contentDigest, hdigest, hscalar'⟩ := h.contentDigest
  refine ⟨(id, .mapping [(.str (py "resource_id"), .str id), (.str (py "version"), .str version),
    (.str (py "content_digest"), .str contentDigest)]), ?_, ?_⟩
  · simp only [manifestLine, member, hversion, hdigest, orRaise]
    rfl
  · refine iJson_object [("resource_id", .str id), ("version", .str version), ("content_digest", .str contentDigest)]
      (by simp only [List.map_cons, List.map_nil]; decide) fun e he => ?_
    simp only [List.mem_cons, List.not_mem_nil, or_false] at he
    rcases he with rfl | rfl | rfl
    · exact iJson_str hid
    · exact iJson_str hscalar
    · exact iJson_str hscalar'

theorem generate_returns (ha : Formed a) : ∃ artifacts, generate a = .ok artifacts := by
  have hlines : ∀ resources : Entries, resources ⊆ resourcesOf a →
      ∃ lines, resources.mapM manifestLine = .ok lines ∧ ∀ line ∈ lines, IJson line.2 := by
    intro resources
    induction resources with
    | nil => exact fun _ => ⟨[], rfl, fun _ h => absurd h List.not_mem_nil⟩
    | cons e resources ih =>
      intro hsub
      obtain ⟨id, members, types, rfl, hid, hformed⟩ := ha.resource e (hsub List.mem_cons_self)
      obtain ⟨line, hline, hjson⟩ := manifestLine_returns hid hformed
      obtain ⟨lines, hlines, hall⟩ := ih fun f hf => hsub (List.mem_cons_of_mem _ hf)
      exact ⟨line :: lines, by rw [List.mapM_cons, hline, hlines]; rfl, List.forall_mem_cons.mpr ⟨hjson, hall⟩⟩
  obtain ⟨lines, hmapM, hjson⟩ := hlines _ (List.Subset.refl _)
  have hbody : IJson (.mapping [(.str (py "resources"),
      .list ((lines.insertionSort fun x y => x.1 ≤ y.1).map Prod.snd))]) := by
    refine iJson_object [("resources", .list ((lines.insertionSort fun x y => x.1 ≤ y.1).map Prod.snd))]
      (List.nodup_singleton _) fun e he => ?_
    rw [List.mem_singleton.mp he]
    refine iJson_list fun x hx => ?_
    obtain ⟨line, hline, rfl⟩ := List.mem_map.mp hx
    exact hjson line ((List.mem_insertionSort _).mp hline)
  obtain ⟨bytes, hbytes⟩ := canonicalDigest_iJson hbody
  obtain ⟨artifact, hartifact⟩ := artifact_created (packageIdOf a (py "urn:ocor:package:unknown") ++ py ":release-manifest")
    (py "application/vnd.ocor.release-manifest+json") (List.append_ne_nil_of_right_ne_nil _ (by decide)) (by decide) bytes
  have hmanifest : manifestBody (resourcesOf a) = .ok (.mapping [(.str (py "resources"),
      .list ((lines.insertionSort fun x y => x.1 ≤ y.1).map Prod.snd))]) := by
    rw [manifestBody, hmapM]
    rfl
  exact ⟨[artifact], bind_eq_ok.2 ⟨_, liftPy_eq_ok.2 hmanifest, bind_eq_ok.2 ⟨_, hbytes, bind_eq_ok.2
    ⟨artifact, hartifact, rfl⟩⟩⟩⟩

/-- Generation under governance: it is refused to a breaking pair without steps, and goes through otherwise. -/
theorem generateGoverned_cases (ha : Formed a) (hb : Formed b) (p : Option MigrationPlan) :
    (check a b = .ok .breaking ∧ (¬ ∃ q ∈ p, q.migrationSteps ≠ []) ∧ generateGoverned a b p = .error (ungoverned b)) ∨
      (¬ (check a b = .ok .breaking ∧ ¬ ∃ q ∈ p, q.migrationSteps ≠ []) ∧
        ∃ artifacts, generateGoverned a b p = .ok artifacts) := by
  obtain ⟨classification, hcheck⟩ : ∃ classification, check a b = .ok classification := by
    rcases check_cases ha hb with ⟨h, -⟩ | ⟨h, -⟩ | ⟨h, -⟩ <;> exact ⟨_, h⟩
  obtain ⟨artifacts, hartifacts⟩ := generate_returns hb
  have hgoverned : generateGoverned a b p = (do
      refuseIf (classification = .breaking ∧ ¬ ∃ q ∈ p, q.migrationSteps ≠ []) (ungoverned b)
      generate b) := by
    rw [generateGoverned, hcheck]
    rfl
  rw [hgoverned, hcheck, refuseIf]
  by_cases hrefused : classification = .breaking ∧ ¬ ∃ q ∈ p, q.migrationSteps ≠ []
  · rw [if_pos hrefused]
    exact .inl ⟨congrArg Except.ok hrefused.1, hrefused.2, rfl⟩
  · rw [if_neg hrefused]
    exact .inr ⟨fun h => hrefused ⟨Except.ok.inj h.1, h.2⟩, artifacts, hartifacts⟩

end Releases

/-! ## Governance of chained releases -/

/-- **Release compatibility.** Of releases the front end built: every check answers; not breaking is a preorder;
identical is the empty diff; a breaking pair has a plan with something to retire or to migrate; with its plan every
pair is generated, and without one exactly the breaking pairs are refused. -/
theorem release_compatibility {a b c : CanonicalIrRelease} (ha : Built a) (hb : Built b) (hc : Built c) :
    (∃ classification, check a b = .ok classification) ∧ check a a ≠ .ok .breaking ∧
      (check a b ≠ .ok .breaking → check b c ≠ .ok .breaking → check a c ≠ .ok .breaking) ∧
      (check a b = .ok .identical ↔ structuralDiff a b = ⟨[], [], []⟩) ∧
      (∃ p artifacts, plan a b = .ok p ∧ generateGoverned a b (some p) = .ok artifacts ∧
        (check a b = .ok .breaking → ∃ step ∈ p.migrationSteps, step.op = .retire ∨ step.op = .expandMigrateContract)) ∧
      (check a b = .ok .breaking → generateGoverned a b none = .error (ungoverned b)) ∧
      (check a b ≠ .ok .breaking → ∃ artifacts, generateGoverned a b none = .ok artifacts) := by
  have fa := formed_of_built ha
  have fb := formed_of_built hb
  have fc := formed_of_built hc
  obtain ⟨p, hp, hsteps⟩ := plan_returns fa fb
  have hstep : check a b = .ok .breaking →
      ∃ step ∈ p.migrationSteps, step.op = .retire ∨ step.op = .expandMigrateContract := by
    intro hbreaking
    rw [hsteps, migrationSteps]
    rcases removed_or_changed fa fb hbreaking with hremoved | hchanged
    · obtain ⟨id, hid⟩ := List.exists_mem_of_ne_nil _ hremoved
      exact ⟨⟨.retire, id⟩, by simp [hid], .inl rfl⟩
    · obtain ⟨id, hid⟩ := List.exists_mem_of_ne_nil _ hchanged
      exact ⟨⟨.expandMigrateContract, id⟩, by simp [hid], .inr rfl⟩
  refine ⟨?_, ?_, ?_, ?_, ?_, ?_, ?_⟩
  · rcases check_cases fa fb with ⟨h, -⟩ | ⟨h, -⟩ | ⟨h, -⟩ <;> exact ⟨_, h⟩
  · rw [ne_eq, check_breaking_iff fa fa, not_not]
  · rw [ne_eq, ne_eq, ne_eq, check_breaking_iff fa fb, check_breaking_iff fb fc, check_breaking_iff fa fc, not_not, not_not,
      not_not]
    exact le_trans
  · rw [check_identical_iff fa fb, structuralDiff_eq_nil fa fb]
  · rcases generateGoverned_cases fa fb (some p) with ⟨hbreaking, hnone, -⟩ | ⟨-, artifacts, hartifacts⟩
    · obtain ⟨step, hmem, -⟩ := hstep hbreaking
      exact absurd ⟨p, rfl, List.ne_nil_of_mem hmem⟩ hnone
    · exact ⟨p, artifacts, hp, hartifacts, hstep⟩
  · intro hbreaking
    rcases generateGoverned_cases fa fb none with ⟨-, -, hrefused⟩ | ⟨hnot, -⟩
    · exact hrefused
    · exact absurd ⟨hbreaking, by simp⟩ hnot
  · intro hkept
    rcases generateGoverned_cases fa fb none with ⟨hbreaking, -⟩ | ⟨-, hartifacts⟩
    · exact absurd hbreaking hkept
    · exact hartifacts

/-- A release with one source, against itself. -/
theorem release_compatibility_sample : ∃ release, Built release ∧
    (check release release = .ok .identical ↔ structuralDiff release release = ⟨[], [], []⟩) ∧
    ∃ p artifacts, plan release release = .ok p ∧ generateGoverned release release (some p) = .ok artifacts := by
  obtain ⟨release, h⟩ := sample_built .frontend [py "1"] (py "1") (by decide) (by decide) (by decide)
    (by rfl) (by rfl) (by decide)
  have hbuilt : Built release := ⟨sampleYaml, 100, _, fun _ _ h => (nomatch h), h⟩
  obtain ⟨-, -, -, hidentical, ⟨p, artifacts, hp, hartifacts, -⟩, -⟩ := release_compatibility hbuilt hbuilt hbuilt
  exact ⟨release, hbuilt, hidentical, p, artifacts, hp, hartifacts⟩

end OcorRuntime.Compiler
