import OcorRuntime.Foundations.Collect
import OcorRuntime.Kernel.GovernedContextCodec

/-! The three boundaries of the governed context agree: what one side writes the other reads back, and
what a decoder returns is the context of the binding, carried member by member. -/
namespace OcorRuntime.Kernel
open Canonical GovernedContext
set_option autoImplicit false
set_option maxHeartbeats 250000

/-! ## Field checks -/

theorem requiredString_eq_ok {field : String} {value : PyValue} {s : PyStr} :
    requiredString field value = .ok s ↔ value = .str s ∧ s ≠ [] := by
  unfold requiredString contextInvalid
  split
  · constructor
    · intro h
      cases h
      exact ⟨rfl, List.cons_ne_nil _ _⟩
    · rintro ⟨h, -⟩
      cases h
      rfl
  · next hother =>
    constructor
    · intro h
      cases h
    · rintro ⟨rfl, hne⟩
      obtain ⟨c, rest, rfl⟩ := List.exists_cons_of_ne_nil hne
      exact absurd rfl (hother c rest)

theorem requiredDigest_eq_ok {field : String} {value : PyValue} {s : PyStr} :
    requiredDigest field value = .ok s ↔ value = .str s ∧ IsDigest s := by
  unfold requiredDigest contextInvalid
  rw [except_bind_eq_ok]
  constructor
  · rintro ⟨result, hresult, h⟩
    split_ifs at h with hdigest
    cases h
    exact ⟨(requiredString_eq_ok.1 hresult).1, hdigest⟩
  · rintro ⟨hvalue, hdigest⟩
    exact ⟨s, requiredString_eq_ok.2 ⟨hvalue, (isDigest_text hdigest).1⟩, by rw [if_pos hdigest]; rfl⟩

theorem strings_checked {field : String} {values : List PyValue} {items : List PyStr} :
    values.mapM (requiredString field) = .ok items ↔ values = items.map .str ∧ ∀ item ∈ items, item ≠ [] := by
  rw [forall₂_of_mapM]
  constructor
  · intro h
    induction h with
    | nil => simp
    | cons hitem _ ih =>
      obtain ⟨rfl, hne⟩ := requiredString_eq_ok.1 hitem
      exact ⟨by rw [ih.1, List.map_cons], List.forall_mem_cons.mpr ⟨hne, ih.2⟩⟩
  · rintro ⟨rfl, hne⟩
    rw [List.forall₂_map_left_iff, List.forall₂_same]
    exact fun item hitem => requiredString_eq_ok.2 ⟨rfl, hne item hitem⟩

/-! ## Sets in canonical order -/

theorem pairs_of_keyed {values : List PyStr} {keyed : List (Bytes × PyStr)}
    (h : values.mapM (fun value => (canonicalize (.str value)).map fun bytes => (bytes, value)) = .ok keyed) :
    keyed.map Prod.snd = values ∧ ∀ entry ∈ keyed, canonicalize (.str entry.2) = .ok entry.1 := by
  rw [forall₂_of_mapM] at h
  induction h with
  | nil => simp
  | cons hentry _ ih =>
    obtain ⟨bytes, hbytes, rfl⟩ := map_eq_ok hentry
    exact ⟨by rw [List.map_cons, ih.1], List.forall_mem_cons.mpr ⟨hbytes, ih.2⟩⟩

theorem canonicalSet_eq_ok {values sorted : List PyStr} (h : canonicalSet values = .ok sorted) :
    ∃ keyed : List (Bytes × PyStr), keyed.map Prod.snd = sorted ∧ sorted.Perm values ∧ keyed.Pairwise BytesLe ∧
      (∀ entry ∈ keyed, canonicalize (.str entry.2) = .ok entry.1) ∧
      keyed.IsChain fun previous current => previous.1 ≠ current.1 := by
  unfold canonicalSet at h
  obtain ⟨keyed, hkeyed, h⟩ := bind_eq_ok.1 h
  obtain ⟨hchain, h⟩ := check_bind_eq_ok.1 h
  rw [refuseIf_eq_ok, not_not] at hchain
  cases h
  obtain ⟨hvalues, hbytes⟩ := pairs_of_keyed hkeyed
  have hperm := List.perm_insertionSort (BytesLe (α := PyStr)) keyed
  refine ⟨keyed.insertionSort BytesLe, rfl, ?_, ?_, fun entry hentry => ?_, hchain⟩
  · rw [← hvalues]
    exact hperm.map Prod.snd
  · have htotal : Std.Total (BytesLe (α := PyStr)) := ⟨fun a b => le_total a.1 b.1⟩
    have htrans : IsTrans _ (BytesLe (α := PyStr)) := ⟨fun a b c hab hbc => le_trans (α := Bytes) hab hbc⟩
    exact List.pairwise_insertionSort BytesLe keyed
  · exact hbytes entry (hperm.mem_iff.1 hentry)

theorem canonicalSet_again {values sorted : List PyStr} (h : canonicalSet values = .ok sorted) :
    canonicalSet sorted = .ok sorted := by
  obtain ⟨keyed, rfl, -, hsorted, hbytes, hchain⟩ := canonicalSet_eq_ok h
  have hkeyed : (keyed.map Prod.snd).mapM (fun value => (canonicalize (.str value)).map fun bytes => (bytes, value)) =
      .ok keyed := by
    rw [forall₂_of_mapM, List.forall₂_map_left_iff, List.forall₂_same]
    intro entry hentry
    rw [hbytes entry hentry]
    rfl
  unfold canonicalSet
  rw [hkeyed]
  refine bind_eq_ok.2 ⟨keyed, rfl, ?_⟩
  rw [hsorted.insertionSort_eq]
  exact check_bind_eq_ok.2 ⟨refuseIf_eq_ok.2 (not_not.mpr hchain), rfl⟩

/-- A non-empty array of different non-empty strings. -/
structure IsArray (items : List PyStr) : Prop where
  nonempty : items ≠ []
  nodup : items.Nodup
  named : ∀ item ∈ items, item ≠ []

theorem requiredItems_chain {field : String} {values : List PyValue} {items : List PyStr} :
    requiredItems field values false = .ok items ↔ values = items.map .str ∧ IsArray items := by
  unfold requiredItems contextInvalid
  rw [except_bind_eq_ok]
  constructor
  · rintro ⟨read, hread, h⟩
    obtain ⟨hvalues, hnamed⟩ := strings_checked.1 hread
    simp only [Bool.false_eq_true, if_false] at h
    split_ifs at h with hempty hnodup
    cases h
    exact ⟨hvalues, hempty, hnodup, hnamed⟩
  · rintro ⟨hvalues, hitems⟩
    refine ⟨items, strings_checked.2 ⟨hvalues, hitems.named⟩, ?_⟩
    rw [if_neg hitems.nonempty, if_neg (not_not.mpr hitems.nodup)]
    rfl

theorem requiredItems_set {field : String} {values : List PyValue} {sorted : List PyStr} :
    requiredItems field values true = .ok sorted ↔
      ∃ items, values = items.map .str ∧ IsArray items ∧ canonicalSet items = .ok sorted := by
  unfold requiredItems contextInvalid
  rw [except_bind_eq_ok]
  constructor
  · rintro ⟨items, hread, h⟩
    obtain ⟨hvalues, hnamed⟩ := strings_checked.1 hread
    simp only [if_true] at h
    split_ifs at h with hempty hnodup
    split at h
    · next hset =>
      cases h
      exact ⟨items, hvalues, ⟨hempty, hnodup, hnamed⟩, hset⟩
    · cases h
  · rintro ⟨items, hvalues, hitems, hset⟩
    refine ⟨items, strings_checked.2 ⟨hvalues, hitems.named⟩, ?_⟩
    rw [if_neg hitems.nonempty, if_neg (not_not.mpr hitems.nodup), if_pos rfl, hset]
    rfl

/-! ## Contexts -/

/-- What `__post_init__` leaves of a context. -/
structure Admissible (c : GovernedContext) : Prop where
  named : c.tenantId ≠ [] ∧ c.organizationId ≠ [] ∧ c.domainId ≠ [] ∧ c.purpose ≠ [] ∧ c.effectivePrincipalId ≠ [] ∧
    c.correlationId ≠ []
  compartments : IsArray c.compartments ∧ canonicalSet c.compartments = .ok c.compartments
  actorChain : IsArray c.actorChain
  digests : IsDigest c.classificationMarkingRef ∧ IsDigest c.ontologyReleaseDigest ∧ IsDigest c.policyBundleDigest

theorem IsArray.perm {items sorted : List PyStr} (h : IsArray items) (hp : sorted.Perm items) : IsArray sorted where
  nonempty := fun hnil => h.nonempty (hp.symm.trans (List.Perm.of_eq hnil)).eq_nil
  nodup := hp.nodup_iff.mpr h.nodup
  named := fun item hitem => h.named item (hp.mem_iff.1 hitem)

theorem requiredArray_set {field : String} {value : PyValue} {sorted : List PyStr}
    (h : requiredArray field value true = .ok sorted) :
    IsArray sorted ∧ canonicalSet sorted = .ok sorted ∧
      ∃ items, (value = strings items ∨ value = .tuple (items.map .str)) ∧ sorted.Perm items := by
  have hitems : ∃ values, (value = .list values ∨ value = .tuple values) ∧
      requiredItems field values true = .ok sorted := by
    unfold requiredArray contextInvalid at h
    split at h
    · exact ⟨_, Or.inl rfl, h⟩
    · exact ⟨_, Or.inr rfl, h⟩
    · cases h
  obtain ⟨values, hvalue, hread⟩ := hitems
  obtain ⟨items, rfl, harray, hset⟩ := requiredItems_set.1 hread
  obtain ⟨keyed, -, hperm, -⟩ := canonicalSet_eq_ok hset
  exact ⟨harray.perm hperm, canonicalSet_again hset, items, hvalue, hperm⟩

theorem requiredArray_chain {field : String} {value : PyValue} {items : List PyStr}
    (h : requiredArray field value false = .ok items) :
    IsArray items ∧ (value = strings items ∨ value = .tuple (items.map .str)) := by
  unfold requiredArray contextInvalid at h
  split at h
  · obtain ⟨rfl, harray⟩ := requiredItems_chain.1 h
    exact ⟨harray, Or.inl rfl⟩
  · obtain ⟨rfl, harray⟩ := requiredItems_chain.1 h
    exact ⟨harray, Or.inr rfl⟩
  · cases h

/-- The values given for the fields of a context, each array as a list or a tuple of its items, the
compartments in any order. -/
structure Given (value : String → PyValue) (c : GovernedContext) : Prop where
  tenantId : value "tenant_id" = .str c.tenantId
  organizationId : value "organization_id" = .str c.organizationId
  domainId : value "domain_id" = .str c.domainId
  purpose : value "purpose" = .str c.purpose
  effectivePrincipalId : value "effective_principal_id" = .str c.effectivePrincipalId
  compartments : ∃ items, (value "compartments" = strings items ∨ value "compartments" = .tuple (items.map .str)) ∧
    c.compartments.Perm items
  actorChain : value "actor_chain" = strings c.actorChain ∨ value "actor_chain" = .tuple (c.actorChain.map .str)
  classificationMarkingRef : value "classification_marking_ref" = .str c.classificationMarkingRef
  ontologyReleaseDigest : value "ontology_release_digest" = .str c.ontologyReleaseDigest
  policyBundleDigest : value "policy_bundle_digest" = .str c.policyBundleDigest
  correlationId : value "correlation_id" = .str c.correlationId

theorem create_eq_ok {value : String → PyValue} {c : GovernedContext} (h : create value = .ok c) :
    Admissible c ∧ Given value c := by
  unfold create at h
  obtain ⟨tenantId, htenant, h⟩ := except_bind_eq_ok.1 h
  obtain ⟨organizationId, horganization, h⟩ := except_bind_eq_ok.1 h
  obtain ⟨domainId, hdomain, h⟩ := except_bind_eq_ok.1 h
  obtain ⟨purpose, hpurpose, h⟩ := except_bind_eq_ok.1 h
  obtain ⟨principal, hprincipal, h⟩ := except_bind_eq_ok.1 h
  obtain ⟨compartments, hcompartments, h⟩ := except_bind_eq_ok.1 h
  obtain ⟨actorChain, hchain, h⟩ := except_bind_eq_ok.1 h
  obtain ⟨marking, hmarking, h⟩ := except_bind_eq_ok.1 h
  obtain ⟨release, hrelease, h⟩ := except_bind_eq_ok.1 h
  obtain ⟨bundle, hbundle, h⟩ := except_bind_eq_ok.1 h
  obtain ⟨correlationId, hcorrelation, h⟩ := except_bind_eq_ok.1 h
  cases h
  rw [requiredString_eq_ok] at htenant horganization hdomain hpurpose hprincipal hcorrelation
  rw [requiredDigest_eq_ok] at hmarking hrelease hbundle
  obtain ⟨harray, hagain, hitems⟩ := requiredArray_set hcompartments
  obtain ⟨hactors, hactor⟩ := requiredArray_chain hchain
  constructor
  · exact ⟨⟨htenant.2, horganization.2, hdomain.2, hpurpose.2, hprincipal.2, hcorrelation.2⟩, ⟨harray, hagain⟩, hactors,
      hmarking.2, hrelease.2, hbundle.2⟩
  · exact ⟨htenant.1, horganization.1, hdomain.1, hpurpose.1, hprincipal.1, hitems, hactor, hmarking.1, hrelease.1,
      hbundle.1, hcorrelation.1⟩

theorem create_of_admissible {value : String → PyValue} {c : GovernedContext} (h : Admissible c) (hv : Given value c)
    (hset : value "compartments" = .tuple (c.compartments.map .str))
    (hchain : value "actor_chain" = .tuple (c.actorChain.map .str)) : create value = .ok c := by
  obtain ⟨htenant, horganization, hdomain, hpurpose, hprincipal, hcorrelation⟩ := h.named
  obtain ⟨hmarking, hrelease, hbundle⟩ := h.digests
  have hcompartments : requiredArray "compartments" (value "compartments") true = .ok c.compartments := by
    rw [hset]
    exact requiredItems_set.2 ⟨_, rfl, h.compartments⟩
  have hactors : requiredArray "actor_chain" (value "actor_chain") false = .ok c.actorChain := by
    rw [hchain]
    exact requiredItems_chain.2 ⟨rfl, h.actorChain⟩
  unfold create
  rw [requiredString_eq_ok.2 ⟨hv.tenantId, htenant⟩, requiredString_eq_ok.2 ⟨hv.organizationId, horganization⟩,
    requiredString_eq_ok.2 ⟨hv.domainId, hdomain⟩, requiredString_eq_ok.2 ⟨hv.purpose, hpurpose⟩,
    requiredString_eq_ok.2 ⟨hv.effectivePrincipalId, hprincipal⟩, hcompartments, hactors,
    requiredDigest_eq_ok.2 ⟨hv.classificationMarkingRef, hmarking⟩,
    requiredDigest_eq_ok.2 ⟨hv.ontologyReleaseDigest, hrelease⟩,
    requiredDigest_eq_ok.2 ⟨hv.policyBundleDigest, hbundle⟩,
    requiredString_eq_ok.2 ⟨hv.correlationId, hcorrelation⟩]
  rfl

/-! ## Mappings -/

/-- The members are the eleven fields of the context, each once, the compartments in any order. -/
structure Carries (given : List (PyStr × PyValue)) (c : GovernedContext) : Prop where
  fields : (given.map Prod.fst).Perm gcsFields
  compartments : ∃ items, (py "compartments", strings items) ∈ given ∧ items.Perm c.compartments
  others : ∀ entry ∈ given, entry.1 ≠ py "compartments" → entry ∈ c.members

theorem gcsFields_nodup : gcsFields.Nodup := by decide

theorem item_of_mem {given : List (PyStr × PyValue)} (hnd : (given.map Prod.fst).Nodup) {field : String} {value : PyValue}
    (h : (py field, value) ∈ given) : item given field = value := by
  rw [item, (Dict.find_eq_some_iff hnd _ _).mpr h]
  rfl

theorem mem_item {given : List (PyStr × PyValue)} (hfields : (given.map Prod.fst).Perm gcsFields) {field : String}
    (h : py field ∈ gcsFields) : (py field, item given field) ∈ given := by
  obtain ⟨entry, hentry, hkey⟩ := List.mem_map.mp (hfields.mem_iff.2 h)
  have hpair : (py field, entry.2) ∈ given := by
    rw [← hkey]
    exact hentry
  rwa [item_of_mem (hfields.nodup_iff.mpr gcsFields_nodup) hpair]

theorem fields_checked {present : List PyStr} (hnd : present.Nodup)
    (hmissing : (gcsFields.filter fun field => field ∉ present).insertionSort (· ≤ ·) = [])
    (hadditional : (present.filter fun key => key ∉ gcsFields).insertionSort (· ≤ ·) = []) : present.Perm gcsFields := by
  have hsorted : ∀ {l : List PyStr}, l.insertionSort (· ≤ ·) = [] → l = [] := by
    intro l hl
    exact ((List.perm_insertionSort _ l).symm.trans (List.Perm.of_eq hl)).eq_nil
  rw [List.perm_ext_iff_of_nodup hnd gcsFields_nodup]
  intro key
  have hin := List.filter_eq_nil_iff.mp (hsorted hmissing) key
  have hout := List.filter_eq_nil_iff.mp (hsorted hadditional) key
  simp only [decide_eq_true_eq, not_not] at hin hout
  exact ⟨hout, hin⟩

theorem requiredMappingArray_eq {field : String} {value : PyValue} {semanticSet : Bool} {items : List PyStr}
    (h : requiredMappingArray field value semanticSet = .ok items) :
    requiredArray field value semanticSet = .ok items ∧ ∀ values, value ≠ .tuple values := by
  unfold requiredMappingArray contextInvalid at h
  split at h
  · exact ⟨h, fun values hvalues => by cases hvalues⟩
  · cases h

theorem tuple_strings_injective {items items' : List PyStr}
    (h : PyValue.tuple (items.map .str) = .tuple (items'.map .str)) : items = items' :=
  List.map_injective_iff.mpr (fun _ _ => PyValue.str.inj) (PyValue.tuple.inj h)

theorem fromMapping_eq_ok {given : List (PyStr × PyValue)} {c : GovernedContext} (hnd : (given.map Prod.fst).Nodup)
    (h : fromMapping given = .ok c) : Admissible c ∧ Carries given c := by
  unfold fromMapping at h
  dsimp only at h
  split_ifs at h with hmissing hadditional
  have hfields := fields_checked hnd (not_not.mp hmissing) (not_not.mp hadditional)
  obtain ⟨compartments, hcompartments, h⟩ := except_bind_eq_ok.1 h
  obtain ⟨actorChain, hchain, h⟩ := except_bind_eq_ok.1 h
  obtain ⟨hset, hsetTuple⟩ := requiredMappingArray_eq hcompartments
  obtain ⟨hactors, hactorsTuple⟩ := requiredMappingArray_eq hchain
  obtain ⟨-, -, items, hitems, hperm⟩ := requiredArray_set hset
  obtain ⟨-, hactor⟩ := requiredArray_chain hactors
  obtain ⟨hadmissible, hgiven⟩ := create_eq_ok h
  have hlist : item given "compartments" = strings items := hitems.resolve_right (hsetTuple _)
  have hactorList : item given "actor_chain" = strings actorChain := hactor.resolve_right (hactorsTuple _)
  refine ⟨hadmissible, hfields, ⟨items, ?_, ?_⟩, ?_⟩
  · rw [← hlist]
    exact mem_item hfields (by decide)
  · obtain ⟨items', hitems', hperm'⟩ := hgiven.compartments
    have heq : compartments = items' := tuple_strings_injective (hitems'.resolve_left (fun hl => by cases hl))
    exact hperm.symm.trans ((List.Perm.of_eq heq).trans hperm'.symm)
  · have heq : actorChain = c.actorChain :=
      tuple_strings_injective (hgiven.actorChain.resolve_left (fun hl => by cases hl))
    have hcarried : ∀ {field : String} {value v : PyValue}, (py field, value) ∈ given → item given field = v →
        (py field, v) ∈ c.members → (py field, value) ∈ c.members := by
      intro field value v hmem hitem hv
      rwa [← item_of_mem hnd hmem, hitem]
    obtain ⟨htenant, horganization, hdomain, hpurpose, hprincipal, -, -, hmarking, hrelease, hbundle, hcorrelation⟩ := hgiven
    simp only [String.reduceEq, if_false] at htenant horganization hdomain hpurpose hprincipal hcorrelation
    simp only [String.reduceEq, if_false] at hmarking hrelease hbundle
    rintro ⟨key, value⟩ hentry hkey
    have hmem : key ∈ gcsFields := hfields.mem_iff.1 (List.mem_map_of_mem hentry)
    simp only [gcsFields, List.mem_cons, List.not_mem_nil, or_false] at hmem
    rcases hmem with rfl | rfl | rfl | rfl | rfl | rfl | rfl | rfl | rfl | rfl | rfl
    · exact hcarried hentry htenant (by simp [members])
    · exact hcarried hentry horganization (by simp [members])
    · exact hcarried hentry hdomain (by simp [members])
    · exact absurd rfl hkey
    · exact hcarried hentry hmarking (by simp [members])
    · exact hcarried hentry hpurpose (by simp [members])
    · exact hcarried hentry hprincipal (by simp [members])
    · exact hcarried hentry (hactorList.trans (congrArg strings heq)) (by simp [members])
    · exact hcarried hentry hrelease (by simp [members])
    · exact hcarried hentry hbundle (by simp [members])
    · exact hcarried hentry hcorrelation (by simp [members])

theorem fromMapping_members {given : List (PyStr × PyValue)} {c : GovernedContext} (hc : Admissible c)
    (h : given.Perm c.members) : fromMapping given = .ok c := by
  have hnames : (given.map Prod.fst).Perm gcsFields := h.map Prod.fst
  have hnd : (given.map Prod.fst).Nodup := hnames.nodup_iff.mpr gcsFields_nodup
  have hitem : ∀ field, item given field = item c.members field := fun field => by
    rw [item, item, Dict.find_perm hnd h]
  have hsorted : ∀ {l : List PyStr}, l = [] → l.insertionSort (· ≤ ·) = [] := by
    rintro l rfl
    rfl
  have hmissing : (gcsFields.filter fun field => field ∉ given.map Prod.fst) = [] := by
    simp only [List.filter_eq_nil_iff, decide_eq_true_eq, not_not]
    exact fun field hfield => hnames.mem_iff.2 hfield
  have hadditional : ((given.map Prod.fst).filter fun key => key ∉ gcsFields) = [] := by
    simp only [List.filter_eq_nil_iff, decide_eq_true_eq, not_not]
    exact fun key hkey => hnames.mem_iff.1 hkey
  have hset : requiredMappingArray "compartments" (item given "compartments") true = .ok c.compartments := by
    rw [hitem]
    exact requiredItems_set.2 ⟨_, rfl, hc.compartments⟩
  have hchain : requiredMappingArray "actor_chain" (item given "actor_chain") false = .ok c.actorChain := by
    rw [hitem]
    exact requiredItems_chain.2 ⟨rfl, hc.actorChain⟩
  unfold fromMapping
  dsimp only
  rw [if_neg (not_not.mpr (hsorted hmissing)), if_neg (not_not.mpr (hsorted hadditional)), hset, hchain]
  simp only [bind, Except.bind]
  refine create_of_admissible hc ?_ rfl rfl
  constructor
  case compartments => exact ⟨c.compartments, Or.inr rfl, List.Perm.refl _⟩
  case actorChain => exact Or.inr rfl
  all_goals
    simp only [String.reduceEq, if_false]
    rw [hitem]
    rfl

end OcorRuntime.Kernel
