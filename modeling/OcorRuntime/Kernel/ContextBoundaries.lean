import OcorRuntime.Kernel.CodecLaws

/-! What each boundary of the governed context accepts: exactly the context of its binding, with
exactly its members and the digest of that context. -/
namespace OcorRuntime.Kernel
open Canonical GovernedContext GovernedContextCodec
set_option autoImplicit false
set_option maxHeartbeats 250000

/-! ## Objects as their text has them -/

/-- The text `json.loads` reads a document as. -/
def decoded : Document → Option PyStr
  | .text s => some s
  | .bytes b => decodeBytes b (detectEncoding b)

/-- The document is one JSON object with these members, in the order of its text and with every repetition. -/
def IsObject (document : Document) (members : List (PyStr × PyValue)) : Prop :=
  ∃ s brace rest after, decoded document = some s ∧ skipSpace s = brace :: rest ∧ brace.val = 0x7B ∧ skipSpace after = [] ∧
    ((members = [] ∧ ∃ close, skipSpace rest = close :: after ∧ close.val = 0x7D) ∨
      ∃ fuel, scanMembers fuel (skipSpace rest) = .ok (members, after))

theorem scanOnce_object {fuel : ℕ} {s after : PyStr} {es : List (MappingKey × PyValue)}
    (h : scanOnce fuel s = .ok (.mapping es, after)) :
    ∃ brace rest members, s = brace :: rest ∧ brace.val = 0x7B ∧
      rejectDuplicateKeys members = .ok (.mapping es) ∧
      ((members = [] ∧ ∃ close, skipSpace rest = close :: after ∧ close.val = 0x7D) ∨
        ∃ fuel, scanMembers fuel (skipSpace rest) = .ok (members, after)) := by
  cases fuel with
  | zero => simp [scanOnce] at h
  | succ fuel =>
    cases s with
    | nil => simp [scanOnce] at h
    | cons c s =>
      rw [scanOnce] at h
      split_ifs at h with hquote hbrace
      · obtain ⟨a, -, heq⟩ := map_eq_ok h
        cases heq
      · cases hskip : skipSpace s with
        | nil =>
          rw [hskip] at h
          cases h
        | cons d rest =>
          rw [hskip] at h
          dsimp only at h
          split_ifs at h with hclose
          · obtain ⟨v, hv, heq⟩ := map_eq_ok h
            cases heq
            exact ⟨c, s, [], rfl, hbrace, hv, Or.inl ⟨rfl, d, hskip, hclose⟩⟩
          · obtain ⟨⟨members, tail⟩, hmembers, h⟩ := except_bind_eq_ok.1 h
            obtain ⟨value, hvalue, h⟩ := except_bind_eq_ok.1 h
            cases h
            exact ⟨c, s, members, rfl, hbrace, hvalue, Or.inr ⟨fuel, by rw [hskip]; exact hmembers⟩⟩
      · split at h
        · cases h
        · split_ifs at h
          · cases h
          · obtain ⟨a, -, heq⟩ := map_eq_ok h
            cases heq
      · cases h
      · cases h
      · cases h
      · cases h
      · cases h
      · cases h
      · exact absurd h scanNumber_ne_mapping

/-- A document loaded as a mapping is an object with its members, none of them twice. -/
theorem object_of_loadIJson {document : Document} {es : List (MappingKey × PyValue)}
    (h : loadIJson document = .ok (.mapping es)) :
    ∃ members, IsObject document members ∧ (members.map Prod.fst).Nodup ∧
      es.map (fun entry => (keyText entry.1, entry.2)) = members := by
  have hloads : jsonLoads document = .ok (.mapping es) := by
    unfold loadIJson at h
    split at h
    · cases h
    · cases h
    · next parsed hparsed =>
      obtain ⟨_, -, heq⟩ := bind_eq_ok.1 h
      cases heq
      exact hparsed
  have htext : ∃ s, decoded document = some s ∧ decodeText s = .ok (.mapping es) := by
    cases document with
    | text s =>
      simp only [jsonLoads] at hloads
      split_ifs at hloads
      exact ⟨s, rfl, hloads⟩
    | bytes b =>
      simp only [jsonLoads] at hloads
      split at hloads
      · next s hs => exact ⟨s, hs, hloads⟩
      · cases hloads
  obtain ⟨s, hs, hdecode⟩ := htext
  obtain ⟨⟨value, after⟩, hscan, hend⟩ := except_bind_eq_ok.1 hdecode
  dsimp only at hend
  split_ifs at hend with hafter
  cases hend
  obtain ⟨brace, rest, members, hskip, hbrace, hkeys, hmembers⟩ := scanOnce_object hscan
  unfold rejectDuplicateKeys at hkeys
  split_ifs at hkeys with hnodup
  cases hkeys
  refine ⟨members, ⟨s, brace, rest, after, hs, hskip, hbrace, hafter, hmembers⟩, hnodup, ?_⟩
  rw [List.map_map]
  exact List.map_id members

/-! ## Admission -/

theorem verifyCanonicalDigest_eq_ok {value claimedDigest : PyValue} {d : PyStr} :
    verifyCanonicalDigest value claimedDigest = .ok d ↔
      ∃ bytes, canonicalize value = .ok bytes ∧ d = canonicalDigest value ∧ claimedDigest = .str d := by
  have hdigest : ∀ {bytes}, canonicalize value = .ok bytes →
      canonicalDigest value = py "urn:sha256:" ++ Sha256.hexdigest bytes := by
    intro bytes hbytes
    rw [canonicalDigest, hbytes]
    rfl
  unfold verifyCanonicalDigest
  constructor
  · intro h
    split at h
    · next claimed =>
      split_ifs at h
      obtain ⟨bytes, hbytes, h⟩ := bind_eq_ok.1 h
      obtain ⟨hsame, h⟩ := check_bind_eq_ok.1 h
      rw [refuseIf_eq_ok, not_not] at hsame
      cases h
      exact ⟨bytes, hbytes, (hdigest hbytes).symm, by rw [hsame]⟩
    · cases h
  · rintro ⟨bytes, hbytes, rfl, rfl⟩
    have hform : IsDigest (canonicalDigest value) := by
      rw [hdigest hbytes]
      exact isDigest_hexdigest bytes
    dsimp only
    rw [if_neg (not_not.mpr hform), hbytes]
    refine check_bind_eq_ok.2 ⟨refuseIf_eq_ok.2 (not_not.mpr (hdigest hbytes).symm), ?_⟩
    rw [hdigest hbytes]
    rfl

theorem admitContext_eq_ok {candidate c : GovernedContext} {binding : Option VerifiedGovernedContextBinding}
    {claimedDigest : PyValue} :
    admitContext candidate binding claimedDigest = .ok c ↔
      ∃ b, binding = some b ∧ candidate = b.expected ∧ c = b.expected ∧
        (∃ bytes, canonicalize b.expected.toMapping = .ok bytes) ∧ claimedDigest = .str b.expected.digest := by
  unfold admitContext requireBinding
  rw [except_bind_eq_ok]
  constructor
  · rintro ⟨b, hb, h⟩
    rw [orRaise_eq_ok] at hb
    split_ifs at h with hsame
    split at h
    · cases h
    · next d hd =>
      cases h
      rw [not_not] at hsame
      subst hsame
      obtain ⟨bytes, hbytes, rfl, hclaim⟩ := verifyCanonicalDigest_eq_ok.1 hd
      exact ⟨b, hb, rfl, rfl, ⟨bytes, hbytes⟩, hclaim⟩
  · rintro ⟨b, rfl, rfl, rfl, ⟨bytes, hbytes⟩, rfl⟩
    have hverify : verifyCanonicalDigest b.expected.toMapping (.str b.expected.digest) = .ok b.expected.digest :=
      verifyCanonicalDigest_eq_ok.2 ⟨bytes, hbytes, rfl, rfl⟩
    refine ⟨b, rfl, ?_⟩
    rw [if_neg (not_not.mpr rfl), hverify]
    rfl

/-! ## What is written is read back -/

/-- The strings of a context. -/
def texts (c : GovernedContext) : List PyStr :=
  [c.tenantId, c.organizationId, c.domainId, c.classificationMarkingRef, c.purpose, c.effectivePrincipalId,
    c.ontologyReleaseDigest, c.policyBundleDigest, c.correlationId] ++ c.compartments ++ c.actorChain

theorem toMapping_members (c : GovernedContext) :
    c.toMapping = .mapping (c.members.map fun entry => (.str entry.1, entry.2)) := by
  simp only [toMapping, fields, members, List.filterMap_cons, List.filterMap_nil, Option.map_some, List.map_cons,
    List.map_nil]

theorem member_cases {c : GovernedContext} {entry : PyStr × PyValue} (h : entry ∈ c.members) :
    (∃ s ∈ texts c, entry.2 = .str s) ∨ ∃ items, (∀ s ∈ items, s ∈ texts c) ∧ entry.2 = strings items := by
  simp only [members, List.mem_cons, List.not_mem_nil, or_false] at h
  rcases h with rfl | rfl | rfl | rfl | rfl | rfl | rfl | rfl | rfl | rfl | rfl
  case inr.inr.inr.inl => exact Or.inr ⟨c.compartments, fun s hs => by simp [texts, hs], rfl⟩
  case inr.inr.inr.inr.inr.inr.inr.inl => exact Or.inr ⟨c.actorChain, fun s hs => by simp [texts, hs], rfl⟩
  all_goals exact Or.inl ⟨_, by simp [texts], rfl⟩

theorem keyed_toMapping (c : GovernedContext) : Keyed c.toMapping := by
  rw [toMapping_members, Keyed]
  constructor
  · have hkeys : (c.members.map fun entry => (MappingKey.str entry.1, entry.2)).map Prod.fst =
        (c.members.map Prod.fst).map MappingKey.str := by
      rw [List.map_map, List.map_map]
      rfl
    rw [hkeys]
    exact (members_nodup c).map fun _ _ => MappingKey.str.inj
  · intro e he
    obtain ⟨entry, hentry, rfl⟩ := List.mem_map.mp he
    rcases member_cases hentry with ⟨s, -, hs⟩ | ⟨items, -, hs⟩
    · simp [hs, Keyed]
    · simp [hs, strings, Keyed]

theorem iJson_toMapping {c : GovernedContext} (h : ∀ s ∈ texts c, Scalar s) : IJson c.toMapping := by
  refine iJson_fields (by simp) ?_
  intro entry hentry v hv
  simp only [List.mem_cons, List.not_mem_nil, or_false] at hentry
  rcases hentry with rfl | rfl | rfl | rfl | rfl | rfl | rfl | rfl | rfl | rfl | rfl <;> cases hv
  case inr.inr.inr.inl.refl => exact iJson_strings.2 fun s hs => h s (by simp [texts, hs])
  case inr.inr.inr.inr.inr.inr.inr.inl.refl => exact iJson_strings.2 fun s hs => h s (by simp [texts, hs])
  all_goals exact iJson_str.2 (h _ (by simp [texts]))

theorem settledMembers_perm (c : GovernedContext) :
    (settledMembers (c.members.map fun entry => (MappingKey.str entry.1, entry.2))).Perm c.members := by
  have hsame : (c.members.map fun entry => (MappingKey.str entry.1, entry.2)).map (fun e => (keyText e.1, settle e.2)) =
      c.members := by
    rw [List.map_map]
    refine (List.map_congr_left fun entry hentry => ?_).trans (List.map_id c.members)
    rcases member_cases hentry with ⟨s, -, hs⟩ | ⟨items, -, hs⟩
    · simp [Prod.ext_iff, hs, keyText, settle]
    · simp [Prod.ext_iff, hs, keyText, settle, strings]
  rw [settledMembers, hsame]
  exact List.perm_insertionSort _ _

section Written
variable {c : GovernedContext}

theorem admitContext_own (h : ∀ s ∈ texts c, Scalar s) (bindingRef : PyStr) :
    admitContext c (some ⟨bindingRef, c⟩) (.str c.digest) = .ok c :=
  admitContext_eq_ok.2 ⟨_, rfl, rfl, rfl, ⟨_, canonicalize_eq (iJson_toMapping h)⟩, rfl⟩

theorem fromJson_toJson (hc : Admissible c) (h : ∀ s ∈ texts c, Scalar s) (bindingRef : PyStr) :
    ∃ bytes, toJson c = .ok bytes ∧ fromJson (.bytes bytes) (some ⟨bindingRef, c⟩) (.str c.digest) = .ok c := by
  have hbytes := canonicalize_eq (iJson_toMapping h)
  refine ⟨_, hbytes, ?_⟩
  have hsettled : settle c.toMapping = .mapping ((settledMembers (c.members.map fun entry =>
      (MappingKey.str entry.1, entry.2))).map fun e => (.str e.1, e.2)) := by
    rw [toMapping_members, settle_mapping]
  unfold fromJson
  rw [loadIJson_bytes (keyed_toMapping c) hbytes, hsettled]
  dsimp only
  have hread : fromMapping (((settledMembers (c.members.map fun entry => (MappingKey.str entry.1, entry.2))).map fun e =>
      (MappingKey.str e.1, e.2)).map fun entry => (keyText entry.1, entry.2)) = .ok c := by
    rw [List.map_map]
    exact fromMapping_members hc ((List.Perm.of_eq (List.map_id _)).trans (settledMembers_perm c))
  exact except_bind_eq_ok.2 ⟨c, hread, admitContext_own h bindingRef⟩

theorem fromOpenapi_toOpenapi (hc : Admissible c) (h : ∀ s ∈ texts c, Scalar s) (bindingRef : PyStr) :
    fromOpenapi (toOpenapi c) (some ⟨bindingRef, c⟩) (.str c.digest) = .ok c :=
  except_bind_eq_ok.2 ⟨c, fromMapping_members hc (List.Perm.refl _), admitContext_own h bindingRef⟩

/-- The context a message and a binding make together. -/
def overlaid (m : InvocationContext) (expected : GovernedContext) : GovernedContext :=
  { expected with
    tenantId := m.tenantId
    organizationId := m.organizationId
    domainId := m.domainId
    compartments := m.compartments
    classificationMarkingRef := m.classificationMarkingRef
    purpose := m.purpose
    ontologyReleaseDigest := m.ontologyReleaseDigest
    policyBundleDigest := m.policyBundleDigest
    correlationId := m.correlationId }

theorem overlay_members (m : InvocationContext) (expected : GovernedContext) :
    m.declared.foldl (fun acc entry => Dict.put entry.1 entry.2 acc) expected.members = (overlaid m expected).members :=
  rfl

theorem fromProto_toProto (hc : Admissible c) (h : ∀ s ∈ texts c, Scalar s) (bindingRef : PyStr)
    (message : InvocationContext) : fromProto (toProto c message) (some ⟨bindingRef, c⟩) = .ok c := by
  unfold fromProto requireBinding
  refine except_bind_eq_ok.2 ⟨_, orRaise_eq_ok.2 rfl, ?_⟩
  dsimp only
  rw [overlay_members]
  exact except_bind_eq_ok.2 ⟨c, fromMapping_members hc (List.Perm.refl _), admitContext_own h bindingRef⟩

end Written

/-! ## What a decoder returns -/

/-- The message has the nine declared fields of the context, the compartments in any order, and its digest. -/
def CarriesDeclared (m : InvocationContext) (c : GovernedContext) : Prop :=
  m.compartments.Perm c.compartments ∧ m = { toProto c m with compartments := m.compartments }

theorem declared_of_carries {m : InvocationContext} {c expected : GovernedContext}
    (h : Carries (overlaid m expected).members c) (hdigest : m.governedContextDigest = c.digest) : CarriesDeclared m c := by
  have hnd := members_nodup c
  have hmember : ∀ {field : PyStr} {value : PyValue}, (field, value) ∈ (overlaid m expected).members →
      field ≠ py "compartments" → Dict.find c.members field = some value := by
    intro field value hmem hne
    exact (Dict.find_eq_some_iff hnd _ _).mpr (h.others _ hmem hne)
  have htext : ∀ (field : PyStr) {s t : PyStr}, (field, PyValue.str s) ∈ (overlaid m expected).members →
      field ≠ py "compartments" → Dict.find c.members field = some (.str t) → s = t := by
    intro field s t hmem hne hfind
    exact PyValue.str.inj (Option.some.inj ((hmember hmem hne).symm.trans hfind))
  obtain ⟨items, hitems, hperm⟩ := h.compartments
  have hsame : items = m.compartments := by
    have hown : (py "compartments", strings m.compartments) ∈ (overlaid m expected).members := by simp [members, overlaid]
    have heq := List.inj_on_of_nodup_map (members_nodup (overlaid m expected)) hitems hown rfl
    exact List.map_injective_iff.mpr (fun _ _ => PyValue.str.inj) (PyValue.list.inj (Prod.ext_iff.mp heq).2)
  refine ⟨hsame ▸ hperm, ?_⟩
  obtain ⟨tenant, organization, domain, compartments, marking, purpose, release, bundle, correlation, digest⟩ := m
  simp only [toProto, InvocationContext.mk.injEq, true_and]
  refine ⟨?_, ?_, ?_, ?_, ?_, ?_, ?_, ?_, hdigest⟩
  · exact htext (py "tenant_id") (by simp [members, overlaid]) (by decide) rfl
  · exact htext (py "organization_id") (by simp [members, overlaid]) (by decide) rfl
  · exact htext (py "domain_id") (by simp [members, overlaid]) (by decide) rfl
  · exact htext (py "classification_marking_ref") (by simp [members, overlaid]) (by decide) rfl
  · exact htext (py "purpose") (by simp [members, overlaid]) (by decide) rfl
  · exact htext (py "ontology_release_digest") (by simp [members, overlaid]) (by decide) rfl
  · exact htext (py "policy_bundle_digest") (by simp [members, overlaid]) (by decide) rfl
  · exact htext (py "correlation_id") (by simp [members, overlaid]) (by decide) rfl

theorem fromJson_eq_ok {payload : Document} {binding : Option VerifiedGovernedContextBinding} {claimedDigest : PyValue}
    {c : GovernedContext} (h : fromJson payload binding claimedDigest = .ok c) :
    ∃ b given, binding = some b ∧ c = b.expected ∧ claimedDigest = .str b.expected.digest ∧ IsObject payload given ∧
      Carries given b.expected := by
  unfold fromJson at h
  split at h
  · cases h
  · next entries hload =>
    obtain ⟨given, hobject, hnd, hgiven⟩ := object_of_loadIJson hload
    rw [hgiven] at h
    obtain ⟨candidate, hread, h⟩ := except_bind_eq_ok.1 h
    obtain ⟨b, hb, rfl, rfl, -, hclaim⟩ := admitContext_eq_ok.1 h
    exact ⟨b, given, hb, rfl, hclaim, hobject, (fromMapping_eq_ok hnd hread).2⟩
  · cases h

theorem fromOpenapi_eq_ok {value : Dict PyStr PyValue} {binding : Option VerifiedGovernedContextBinding}
    {claimedDigest : PyValue} {c : GovernedContext} (h : fromOpenapi value binding claimedDigest = .ok c) :
    ∃ b, binding = some b ∧ c = b.expected ∧ claimedDigest = .str b.expected.digest ∧
      Carries value.entries b.expected := by
  obtain ⟨candidate, hread, h⟩ := except_bind_eq_ok.1 h
  obtain ⟨b, hb, rfl, rfl, -, hclaim⟩ := admitContext_eq_ok.1 h
  exact ⟨b, hb, rfl, hclaim, (fromMapping_eq_ok value.nodup hread).2⟩

theorem fromProto_eq_ok {message : InvocationContext} {binding : Option VerifiedGovernedContextBinding}
    {c : GovernedContext} (h : fromProto message binding = .ok c) :
    ∃ b, binding = some b ∧ c = b.expected ∧ message.governedContextDigest = b.expected.digest ∧
      CarriesDeclared message b.expected := by
  unfold fromProto requireBinding at h
  obtain ⟨verified, hverified, h⟩ := except_bind_eq_ok.1 h
  rw [orRaise_eq_ok] at hverified
  dsimp only at h
  rw [overlay_members] at h
  obtain ⟨candidate, hread, h⟩ := except_bind_eq_ok.1 h
  obtain ⟨b, hb, rfl, rfl, -, hclaim⟩ := admitContext_eq_ok.1 h
  have hdigest := PyValue.str.inj hclaim
  exact ⟨b, hb, rfl, hdigest, declared_of_carries (fromMapping_eq_ok (members_nodup _) hread).2 hdigest⟩

/-- **The three boundaries agree.** A context without lone surrogates, written at any of them, is read back under
the binding that expects it and its own digest. And whatever a decoder is given, it raises or returns the context
its binding expects; then the digest claimed is that context's, and what was read is that context, member by
member, with no member missing, added or repeated, the compartments in any order. -/
theorem governed_context_boundaries_agree :
    (∀ (value : String → PyValue) (c : GovernedContext), create value = .ok c → (∀ s ∈ texts c, Scalar s) →
      ∀ (bindingRef : PyStr) (message : InvocationContext),
        (∃ bytes, toJson c = .ok bytes ∧ fromJson (.bytes bytes) (some ⟨bindingRef, c⟩) (.str c.digest) = .ok c) ∧
        fromOpenapi (toOpenapi c) (some ⟨bindingRef, c⟩) (.str c.digest) = .ok c ∧
        fromProto (toProto c message) (some ⟨bindingRef, c⟩) = .ok c) ∧
    (∀ payload binding claimedDigest c, fromJson payload binding claimedDigest = .ok c →
      ∃ b given, binding = some b ∧ c = b.expected ∧ claimedDigest = .str b.expected.digest ∧ IsObject payload given ∧
        Carries given b.expected) ∧
    (∀ value binding claimedDigest c, fromOpenapi value binding claimedDigest = .ok c →
      ∃ b, binding = some b ∧ c = b.expected ∧ claimedDigest = .str b.expected.digest ∧
        Carries value.entries b.expected) ∧
    ∀ message binding c, fromProto message binding = .ok c →
      ∃ b, binding = some b ∧ c = b.expected ∧ message.governedContextDigest = b.expected.digest ∧
        CarriesDeclared message b.expected := by
  refine ⟨?_, fun _ _ _ _ => fromJson_eq_ok, fun _ _ _ _ => fromOpenapi_eq_ok, fun _ _ _ => fromProto_eq_ok⟩
  intro value c hcreate htexts bindingRef message
  have hc := (create_eq_ok hcreate).1
  exact ⟨fromJson_toJson hc htexts bindingRef, fromOpenapi_toOpenapi hc htexts bindingRef,
    fromProto_toProto hc htexts bindingRef message⟩

/-! A context given with its compartments out of order. -/

def sampleRef : PyStr := py "urn:sha256:" ++ List.replicate 64 (codePoint 0x30)

def sampleValue (field : String) : PyValue :=
  if field ∈ ["classification_marking_ref", "ontology_release_digest", "policy_bundle_digest"] then .str sampleRef
  else if field = "compartments" then strings [py "bravo", py "alpha"]
  else if field = "actor_chain" then strings [py "service", py "analyst"]
  else .str (py field)

def sampleContext : GovernedContext :=
  ⟨py "tenant_id", py "organization_id", py "domain_id", [py "alpha", py "bravo"], sampleRef, py "purpose",
    py "effective_principal_id", [py "service", py "analyst"], sampleRef, sampleRef, py "correlation_id"⟩

theorem sample_created : create sampleValue = .ok sampleContext := by decide

theorem governed_context_boundaries_agree_sample :
    (∃ bytes, toJson sampleContext = .ok bytes ∧
      fromJson (.bytes bytes) (some ⟨py "binding", sampleContext⟩) (.str sampleContext.digest) = .ok sampleContext) ∧
    ∃ b, some (VerifiedGovernedContextBinding.mk (py "binding") sampleContext) = some b ∧ sampleContext = b.expected ∧
      PyValue.str sampleContext.digest = .str b.expected.digest ∧
        Carries (toOpenapi sampleContext).entries b.expected :=
  have htexts : ∀ s ∈ texts sampleContext, Scalar s := by decide
  have hwritten := governed_context_boundaries_agree.1 sampleValue sampleContext sample_created htexts (py "binding")
    (toProto sampleContext ⟨[], [], [], [], [], [], [], [], [], []⟩)
  ⟨hwritten.1, governed_context_boundaries_agree.2.2.1 _ _ _ _ hwritten.2.1⟩

end OcorRuntime.Kernel
