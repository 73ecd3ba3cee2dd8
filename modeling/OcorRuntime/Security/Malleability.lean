import OcorRuntime.Security.ChainGuarantee

/-! A grant is enforced through its signed form only: two grants with the same signing
payload and the same signature are interchangeable at any place of any chain. The
canonical bytes determine the signed record, and the record determines everything the
verification reads of a grant. -/
namespace OcorRuntime.Security
open Canonical Kernel
set_option autoImplicit false
set_option maxHeartbeats 250000

/-! ## The record behind the bytes -/

/-- An instant as `canonicalUtc` returns it. -/
def WholeSecond (t : ℤ) : Prop := minWall ≤ t ∧ t % 1000000 = 0

theorem wholeSecond_of_canonicalUtc {dt : DateTime} {t : Instant} (h : canonicalUtc dt = .ok t) : WholeSecond t := by
  unfold canonicalUtc at h
  split at h
  · cases h
  · cases h
  · dsimp only at h
    split_ifs at h with hrange
    cases h
    have hlow : minWall ≤ dt.wall - _ := hrange.1
    unfold minWall at hlow
    unfold WholeSecond minWall
    omega

theorem rfc3339_injective {t u : ℤ} (ht : WholeSecond t) (hu : WholeSecond u) (h : rfc3339 t = rfc3339 u) :
    t = u := by
  have hsecond := timestamp_injective ht.1 hu.1 h
  have htt := ht.2
  have huu := hu.2
  omega

theorem strings_injective : Function.Injective strings := by
  intro s t h
  exact List.map_injective_iff.mpr (fun _ _ => PyValue.str.inj) (PyValue.list.inj h)

theorem optionalText_injective : Function.Injective optionalText := by
  intro s t h
  cases s <;> cases t <;> simp_all [optionalText]

theorem operationClass_name_injective : Function.Injective operationClass.name := by
  intro a b h
  cases a <;> cases b <;> first | rfl | (revert h; decide)

theorem riskClass_name_injective : Function.Injective riskClass.name := by
  intro a b h
  cases a <;> cases b <;> first | rfl | (revert h; decide)

/-- What every record a grant signs has of its numbers. -/
structure SignedRecord.Numeric (r : SignedRecord) : Prop where
  depth : 0 < r.maxChainDepth
  start : WholeSecond r.notBefore
  finish : WholeSecond r.expiresAt

theorem toMapping_injective {r r' : SignedRecord} (hr : r.Numeric) (hr' : r'.Numeric)
    (h : r.toMapping = r'.toMapping) : r = r' := by
  unfold SignedRecord.toMapping fields at h
  simp only [List.filterMap_cons, Option.map_some, List.filterMap_nil, PyValue.mapping.injEq, List.cons.injEq,
    Prod.mk.injEq, true_and, and_true, PyValue.str.injEq, PyValue.int.injEq, PyValue.bool.injEq,
    Function.Injective.eq_iff strings_injective, Function.Injective.eq_iff optionalText_injective,
    Function.Injective.eq_iff py_injective, Function.Injective.eq_iff operationClass_name_injective,
    Function.Injective.eq_iff riskClass_name_injective] at h
  obtain ⟨h1, h2, h3, h4, h5, h6, h7, h8, h9, h10, h11, h12, h13, hstart, hfinish, h14, h15, h16, h17, h18, h19⟩ := h
  have hs := rfc3339_injective hr.start hr'.start hstart
  have hf := rfc3339_injective hr.finish hr'.finish hfinish
  cases r
  cases r'
  simp_all

/-- **The signing payload determines the signed record.** -/
theorem record_of_payload {r r' : SignedRecord} (hr : r.Numeric) (hr' : r'.Numeric) {payload : Bytes}
    (h : canonicalize r.toMapping = .ok payload) (h' : canonicalize r'.toMapping = .ok payload) : r = r' := by
  refine toMapping_injective hr hr' (congrArg PyValue.mapping (canonicalize_mapping_injective ?_ ?_ h h'))
  · have hdepth : Comparable (.int r.maxChainDepth) (.int r'.maxChainDepth) := .inr ⟨_, _, rfl, rfl, hr.depth, hr'.depth⟩
    have htext : ∀ s t : PyStr, Comparable (.str s) (.str t) := fun s t => .inl ⟨trivial, trivial⟩
    have hbool : ∀ b c : Bool, Comparable (.bool b) (.bool c) := fun b c => .inl ⟨trivial, trivial⟩
    have hset : ∀ s t : List PyStr, Comparable (strings s) (strings t) :=
      fun s t => .inl ⟨textual_strings s, textual_strings t⟩
    have hoptional : ∀ s t : Option PyStr, Comparable (optionalText s) (optionalText t) := by
      intro s t
      refine .inl ⟨?_, ?_⟩
      · cases s <;> trivial
      · cases t <;> trivial
    simp only [List.filterMap_cons, Option.map_some, List.filterMap_nil, List.forall₂_cons, List.forall₂_nil_left_iff,
      and_true, hdepth, htext, hbool, hset, hoptional]
  · intro e he
    obtain ⟨entry, -, hentry⟩ := List.mem_filterMap.mp he
    obtain ⟨v, -, rfl⟩ := Option.map_eq_some_iff.mp hentry
    exact ⟨_, rfl, scalar_py _⟩

/-! ## What the record fixes of a grant -/

theorem grantString_eq_ok {field : String} {value text : PyStr} (h : grantString field value = .ok text) :
    text = value := by
  unfold grantString at h
  split_ifs at h
  exact (Except.ok.inj h).symm

theorem grantDigestField_eq_ok {field : String} {value text : PyStr} (h : grantDigestField field value = .ok text) :
    text = value := by
  unfold grantDigestField at h
  split_ifs at h
  exact (Except.ok.inj h).symm

theorem grantSet_eq_ok {field : String} {values items : List PyStr} (h : grantSet field values = .ok items) :
    ∀ item, item ∈ items ↔ item ∈ values := by
  unfold grantSet at h
  obtain ⟨checked, hchecked, h⟩ := bind_eq_ok.1 h
  simp only [check_bind_eq_ok] at h
  obtain ⟨-, -, h⟩ := h
  have hsame : checked = values := by
    have hall := mapM_eq_ok hchecked
    rw [← List.forall₂_eq_eq_eq]
    exact (hall.imp fun _ _ h => (grantString_eq_ok h).symm).flip.imp fun _ _ h => h.symm
  cases h
  intro item
  rw [List.mem_insertionSort, hsame]

theorem orderedEnum_eq_ok {ε : Type} {field reason : String} {value : Ordinal} {kind : IntEnum ε} {m : ε}
    (h : orderedEnum field value kind reason = .ok m) : kind.value m = value.value := by
  unfold orderedEnum at h
  obtain ⟨-, h⟩ := check_bind_eq_ok.1 h
  have hfound := List.find?_some (orRaise_eq_ok.1 h)
  simpa using hfound

theorem grantInstant_eq_ok {field : String} {value : DateTime} {t : Instant} (h : grantInstant field value = .ok t) :
    canonicalUtc value = .ok t := by
  unfold grantInstant at h
  split at h
  · cases h
  · cases h
  · exact h

theorem grantParent_eq_ok {field : String} {value digest : Option PyStr}
    (h : value.mapM (grantDigestField field) = .ok digest) : digest = value := by
  cases value with
  | none =>
    cases h
    rfl
  | some text =>
    obtain ⟨checked, hchecked, h⟩ := bind_eq_ok.1 h
    cases h
    rw [grantDigestField_eq_ok hchecked]

/-- The record is the signed form of the grant. -/
structure Signs (g : SignedDelegation) (r : SignedRecord) : Prop where
  grantId : r.grantId = g.grantId
  grantor : r.grantorPrincipal = g.grantorPrincipal
  grantee : r.granteePrincipal = g.granteePrincipal
  capabilityId : r.capabilityId = g.capabilityId
  capabilityVersion : r.capabilityVersion = g.capabilityVersion
  resource : r.resourceScope = g.resourceScope
  tenant : r.tenantId = g.tenantId
  organization : r.organizationId = g.organizationId
  domains : ∀ d, d ∈ r.domains ↔ d ∈ g.domains
  compartments : ∀ c, c ∈ r.compartments ↔ c ∈ g.compartments
  purposes : ∀ p, p ∈ r.permittedPurposes ↔ p ∈ g.permittedPurposes
  effect : r.effectCeiling.value = g.effectCeiling.value
  risk : r.riskCeiling.value = g.riskCeiling.value
  start : canonicalUtc g.notBefore = .ok r.notBefore
  finish : canonicalUtc g.expiresAt = .ok r.expiresAt
  depth : r.maxChainDepth = g.maxChainDepth.value
  deep : 0 < r.maxChainDepth
  redelegation : r.redelegationAllowed = g.redelegationAllowed
  parent : r.parentGrantDigest = g.parentGrantDigest
  bundle : r.policyBundleDigest = g.policyBundleDigest
  nonce : r.nonce = g.nonce
  key : r.confirmationKeyThumbprint = g.confirmationKeyThumbprint

theorem signs_of_signedRecord {g : SignedDelegation} {r : SignedRecord} (h : g.signedRecord = .ok r) : Signs g r := by
  unfold SignedDelegation.signedRecord at h
  simp only [bind_eq_ok, refuseIf_eq_ok, exists_const] at h
  obtain ⟨_, h1, _, h2, _, h3, _, h4, _, h5, _, h6, _, h7, _, h8, -, _, hd, _, hc, _, hp, _, he, _, hr, _, hs, _, hf, -,
    hdepth, _, hpar, _, hb, _, hn, -, _, hk, heq⟩ := h
  cases heq
  have hdeep : 0 < g.maxChainDepth.value := by
    have hnot := hdepth
    omega
  exact {
    grantId := grantString_eq_ok h1, grantor := grantString_eq_ok h2, grantee := grantString_eq_ok h3
    capabilityId := grantString_eq_ok h4, capabilityVersion := grantString_eq_ok h5, resource := grantString_eq_ok h6
    tenant := grantString_eq_ok h7, organization := grantString_eq_ok h8
    domains := grantSet_eq_ok hd, compartments := grantSet_eq_ok hc, purposes := grantSet_eq_ok hp
    effect := orderedEnum_eq_ok he, risk := orderedEnum_eq_ok hr
    start := grantInstant_eq_ok hs, finish := grantInstant_eq_ok hf
    depth := rfl, deep := hdeep, redelegation := rfl, parent := grantParent_eq_ok hpar
    bundle := grantDigestField_eq_ok hb, nonce := grantString_eq_ok hn, key := grantDigestField_eq_ok hk }

theorem Signs.numeric {g : SignedDelegation} {r : SignedRecord} (h : Signs g r) : r.Numeric where
  depth := h.deep
  start := wholeSecond_of_canonicalUtc h.start
  finish := wholeSecond_of_canonicalUtc h.finish

/-- Equal in everything the verification of a chain reads. -/
structure Agrees (g g' : SignedDelegation) : Prop where
  payload : g.signingPayload = g'.signingPayload
  signature : g.signature = g'.signature
  grantId : g.grantId = g'.grantId
  grantor : g.grantorPrincipal = g'.grantorPrincipal
  grantee : g.granteePrincipal = g'.granteePrincipal
  capabilityId : g.capabilityId = g'.capabilityId
  capabilityVersion : g.capabilityVersion = g'.capabilityVersion
  resource : g.resourceScope = g'.resourceScope
  tenant : g.tenantId = g'.tenantId
  organization : g.organizationId = g'.organizationId
  domains : ∀ d, d ∈ g.domains ↔ d ∈ g'.domains
  compartments : ∀ c, c ∈ g.compartments ↔ c ∈ g'.compartments
  purposes : ∀ p, p ∈ g.permittedPurposes ↔ p ∈ g'.permittedPurposes
  effect : g.effectCeiling.value = g'.effectCeiling.value
  risk : g.riskCeiling.value = g'.riskCeiling.value
  start : canonicalUtc g.notBefore = canonicalUtc g'.notBefore
  finish : canonicalUtc g.expiresAt = canonicalUtc g'.expiresAt
  depth : g.maxChainDepth.value = g'.maxChainDepth.value
  redelegation : g.redelegationAllowed = g'.redelegationAllowed
  parent : g.parentGrantDigest = g'.parentGrantDigest
  bundle : g.policyBundleDigest = g'.policyBundleDigest
  nonce : g.nonce = g'.nonce
  key : g.confirmationKeyThumbprint = g'.confirmationKeyThumbprint

theorem Agrees.refl (g : SignedDelegation) : Agrees g g := by
  constructor <;> first | rfl | exact fun _ => Iff.rfl

theorem agrees_of_payload {g g' : SignedDelegation} {payload : Bytes} (hg : g.signingPayload = .ok payload)
    (hg' : g'.signingPayload = .ok payload) (hsignature : g.signature = g'.signature) : Agrees g g' := by
  have hpayload : g.signingPayload = g'.signingPayload := hg.trans hg'.symm
  unfold SignedDelegation.signingPayload at hg hg'
  obtain ⟨r, hr, hbytes⟩ := bind_eq_ok.1 hg
  obtain ⟨r', hr', hbytes'⟩ := bind_eq_ok.1 hg'
  have hs := signs_of_signedRecord hr
  have hs' := signs_of_signedRecord hr'
  obtain rfl := record_of_payload hs.numeric hs'.numeric hbytes hbytes'
  exact {
    payload := hpayload, signature := hsignature
    grantId := hs.grantId.symm.trans hs'.grantId, grantor := hs.grantor.symm.trans hs'.grantor
    grantee := hs.grantee.symm.trans hs'.grantee, capabilityId := hs.capabilityId.symm.trans hs'.capabilityId
    capabilityVersion := hs.capabilityVersion.symm.trans hs'.capabilityVersion
    resource := hs.resource.symm.trans hs'.resource, tenant := hs.tenant.symm.trans hs'.tenant
    organization := hs.organization.symm.trans hs'.organization
    domains := fun d => (hs.domains d).symm.trans (hs'.domains d)
    compartments := fun c => (hs.compartments c).symm.trans (hs'.compartments c)
    purposes := fun p => (hs.purposes p).symm.trans (hs'.purposes p)
    effect := hs.effect.symm.trans hs'.effect, risk := hs.risk.symm.trans hs'.risk
    start := hs.start.trans hs'.start.symm, finish := hs.finish.trans hs'.finish.symm
    depth := hs.depth.symm.trans hs'.depth, redelegation := hs.redelegation.symm.trans hs'.redelegation
    parent := hs.parent.symm.trans hs'.parent, bundle := hs.bundle.symm.trans hs'.bundle
    nonce := hs.nonce.symm.trans hs'.nonce, key := hs.key.symm.trans hs'.key }

/-! ## One grant for another -/

section Congruence
variable {g g' parent parent' : SignedDelegation} (h : Agrees g g') (hp : Agrees parent parent')
include h

theorem verifyDelegationSignature_congr (signer : PublicKey) :
    verifyDelegationSignature g signer = verifyDelegationSignature g' signer := by
  unfold verifyDelegationSignature
  rw [h.payload, h.signature]

theorem requireWindow_congr (c : ChainCheck) : c.requireWindow g = c.requireWindow g' := by
  unfold ChainCheck.requireWindow
  rw [h.start, h.finish]

theorem requireGrantCovers_congr (request : PolicyRequest) (capability : CapabilityInvocation)
    (snapshot : VerifiedBundleSnapshot) :
    requireGrantCovers request g capability snapshot = requireGrantCovers request g' capability snapshot := by
  unfold requireGrantCovers
  have hscope : (request.governedContext.compartments ⊆ g.compartments) ↔
      request.governedContext.compartments ⊆ g'.compartments := by
    simp only [List.subset_def, h.compartments]
  simp only [h.resource, h.tenant, h.organization, h.domains, hscope, h.purposes, h.capabilityId, h.capabilityVersion,
    h.effect, h.risk, h.bundle]

include hp

theorem narrowed_congr : narrowed parent g = narrowed parent' g' := by
  unfold narrowed
  have hdomains : (g.domains ⊆ parent.domains) ↔ g'.domains ⊆ parent'.domains := by
    simp only [List.subset_def, h.domains, hp.domains]
  have hcompartments : (g.compartments ⊆ parent.compartments) ↔ g'.compartments ⊆ parent'.compartments := by
    simp only [List.subset_def, h.compartments, hp.compartments]
  have hpurposes : (g.permittedPurposes ⊆ parent.permittedPurposes) ↔
      g'.permittedPurposes ⊆ parent'.permittedPurposes := by
    simp only [List.subset_def, h.purposes, hp.purposes]
  simp only [h.capabilityId, h.capabilityVersion, h.resource, h.tenant, h.organization, h.bundle, h.effect, h.risk,
    h.depth, h.start, h.finish, hp.capabilityId, hp.capabilityVersion, hp.resource, hp.tenant, hp.organization, hp.bundle,
    hp.effect, hp.risk, hp.depth, hp.start, hp.finish, hdomains, hcompartments, hpurposes]

theorem requireNarrowing_congr (parentDigest : PyStr) (request : PolicyRequest) :
    requireNarrowing parent g parentDigest request = requireNarrowing parent' g' parentDigest request := by
  unfold requireNarrowing
  rw [narrowed_congr h hp]
  simp only [h.parent, hp.redelegation]

end Congruence

/-- The grants before it agree, under one digest. -/
def AgreePrevious : Option (SignedDelegation × PyStr) → Option (SignedDelegation × PyStr) → Prop
  | none, none => True
  | some p, some p' => Agrees p.1 p'.1 ∧ p.2 = p'.2
  | _, _ => False

theorem requireParent_congr (c : ChainCheck) {previous previous' : Option (SignedDelegation × PyStr)}
    (hp : AgreePrevious previous previous') {g g' : SignedDelegation} (h : Agrees g g') :
    c.requireParent previous g = c.requireParent previous' g' := by
  cases previous with
  | none =>
    cases previous' with
    | none => simp only [ChainCheck.requireParent, h.parent]
    | some p' => exact hp.elim
  | some p =>
    cases previous' with
    | none => exact hp.elim
    | some p' =>
      obtain ⟨hparent, hdigest⟩ := hp
      simp only [ChainCheck.requireParent, hdigest, requireNarrowing_congr h hparent]

theorem checkGrant_congr (c : ChainCheck) (index remaining : ℕ) {previous previous' : Option (SignedDelegation × PyStr)}
    (hp : AgreePrevious previous previous') {g g' : SignedDelegation} (h : Agrees g g') :
    c.checkGrant index remaining previous g = c.checkGrant index remaining previous' g' := by
  unfold ChainCheck.checkGrant
  rw [verifyDelegationSignature_congr h, requireParent_congr c hp h, requireWindow_congr h, requireGrantCovers_congr h]
  simp only [h.grantId, h.grantor, h.grantee, h.depth]

theorem checkGrants_congr (c : ChainCheck) {grants grants' : List SignedDelegation}
    (h : List.Forall₂ Agrees grants grants') :
    ∀ (index : ℕ) {previous previous' : Option (SignedDelegation × PyStr)}, AgreePrevious previous previous' →
      c.checkGrants index previous grants = c.checkGrants index previous' grants' := by
  induction h with
  | nil => intro index previous previous' _; rfl
  | @cons g g' rest rest' hg hrest ih =>
    intro index previous previous' hp
    simp only [ChainCheck.checkGrants]
    rw [checkGrant_congr c index _ hp hg, hrest.length_eq]
    congr 1
    funext digest
    have hagree : AgreePrevious (some (g, digest)) (some (g', digest)) := ⟨hg, rfl⟩
    rw [ih (index + 1) hagree]

/-! ## One chain for another -/

section Chains
variable {grants grants' : List SignedDelegation} (h : List.Forall₂ Agrees grants grants')
include h

theorem map_nonce_congr : grants.map (·.nonce) = grants'.map (·.nonce) := by
  rw [← List.forall₂_eq_eq_eq, List.forall₂_map_left_iff, List.forall₂_map_right_iff]
  exact h.imp fun _ _ hg => hg.nonce

theorem zip_nonce_congr (digests : List PyStr) :
    (grants.zip digests).map (fun claim => (claim.1.nonce, claim.2)) =
      (grants'.zip digests).map fun claim => (claim.1.nonce, claim.2) := by
  have hzip : ∀ gs : List SignedDelegation, (gs.zip digests).map (fun claim => (claim.1.nonce, claim.2)) =
      (gs.map (·.nonce)).zip digests := by
    intro gs
    rw [List.zip_map_left]
    rfl
  rw [hzip, hzip, map_nonce_congr h]

theorem openChain_congr (signer : Option PublicKey) (b : Boundary) (request : PolicyRequest)
    (capability : Option CapabilityInvocation) (snapshot : VerifiedBundleSnapshot) :
    openChain signer b request grants capability snapshot = openChain signer b request grants' capability snapshot := by
  have hempty : grants.isEmpty = grants'.isEmpty := by
    rw [Bool.eq_iff_iff, List.isEmpty_iff_length_eq_zero, List.isEmpty_iff_length_eq_zero, h.length_eq]
  unfold openChain
  simp only [hempty, h.length_eq]

theorem getLast_key_congr : grants.getLast?.map (·.confirmationKeyThumbprint) =
    grants'.getLast?.map (·.confirmationKeyThumbprint) := by
  have hkeys : grants.map (·.confirmationKeyThumbprint) = grants'.map (·.confirmationKeyThumbprint) := by
    rw [← List.forall₂_eq_eq_eq, List.forall₂_map_left_iff, List.forall₂_map_right_iff]
    exact h.imp fun _ _ hg => hg.key
  rw [← List.getLast?_map, hkeys, List.getLast?_map]

theorem checkChain_congr (c : ChainCheck) (keyThumbprint : PyStr) :
    checkChain c keyThumbprint grants = checkChain c keyThumbprint grants' := by
  unfold checkChain
  have hroot : AgreePrevious none none := trivial
  rw [checkGrants_congr c h 0 hroot]
  simp only [getLast_key_congr h]

theorem claimNonces_congr (request : PolicyRequest) (digests : List PyStr) :
    claimNonces request grants digests = claimNonces request grants' digests := by
  have hzip := zip_nonce_congr h digests
  have hconflict : ∀ nonces : Dict PyStr PyStr,
      (∃ claim ∈ grants.zip digests, (nonces.get? claim.1.nonce).getD claim.2 ≠ claim.2) ↔
        ∃ claim ∈ grants'.zip digests, (nonces.get? claim.1.nonce).getD claim.2 ≠ claim.2 := by
    intro nonces
    have hmapped : ∀ gs : List SignedDelegation,
        (∃ claim ∈ gs.zip digests, (nonces.get? claim.1.nonce).getD claim.2 ≠ claim.2) ↔
          ∃ claim ∈ (gs.zip digests).map (fun claim => (claim.1.nonce, claim.2)),
            (nonces.get? claim.1).getD claim.2 ≠ claim.2 := by
      intro gs
      simp only [List.mem_map, exists_exists_and_eq_and]
    rw [hmapped, hmapped, hzip]
  have hclaimed : ∀ nonces : Dict PyStr PyStr,
      (grants.zip digests).foldl (fun nonces claim => nonces.set claim.1.nonce claim.2) nonces =
        (grants'.zip digests).foldl (fun nonces claim => nonces.set claim.1.nonce claim.2) nonces := by
    intro nonces
    have hmapped : ∀ gs : List SignedDelegation,
        (gs.zip digests).foldl (fun nonces claim => nonces.set claim.1.nonce claim.2) nonces =
          ((gs.zip digests).map fun claim => (claim.1.nonce, claim.2)).foldl
            (fun nonces claim => nonces.set claim.1 claim.2) nonces := by
      intro gs
      rw [List.foldl_map]
    rw [hmapped, hmapped, hzip]
  unfold claimNonces
  simp only [map_nonce_congr h, hconflict, hclaimed]

theorem closeChain_congr (digests : List PyStr) : closeChain grants digests = closeChain grants' digests := by
  have hexpiries : (grants.mapM fun grant => canonicalUtc grant.expiresAt) =
      grants'.mapM fun grant => canonicalUtc grant.expiresAt := by
    induction h with
    | nil => rfl
    | cons hg _ ih => rw [List.mapM_cons, List.mapM_cons, hg.finish, ih]
  unfold closeChain
  rw [hexpiries]

theorem verifyGrantChain_congr (signer : Option PublicKey) (b : Boundary) (request : PolicyRequest)
    (capability : Option CapabilityInvocation) (snapshot : VerifiedBundleSnapshot) :
    verifyGrantChain signer b request grants capability snapshot =
      verifyGrantChain signer b request grants' capability snapshot := by
  unfold verifyGrantChain
  simp only [openChain_congr h, checkChain_congr h, claimNonces_congr h, closeChain_congr h]

end Chains

theorem agrees_at {g g' : SignedDelegation} (h : Agrees g g') (before after : List SignedDelegation) :
    List.Forall₂ Agrees (before ++ g :: after) (before ++ g' :: after) := by
  have hsame : ∀ gs : List SignedDelegation, List.Forall₂ Agrees gs gs := 
    fun gs => List.forall₂_same.mpr fun g _ => Agrees.refl g
  exact List.rel_append (hsame before) (.cons h (hsame after))

/-- **Grants are not malleable.** Two grants with the same signing payload and the same signature give the same outcome
and leave the same state, whichever of them stands at a place of a chain, and whatever else differs between them. -/
theorem signed_grants_interchangeable (g g' : SignedDelegation) (payload : Bytes)
    (hg : g.signingPayload = .ok payload) (hg' : g'.signingPayload = .ok payload) (hsignature : g.signature = g'.signature)
    (signer : Option PublicKey) (b : Boundary) (request : PolicyRequest) (before after : List SignedDelegation)
    (capability : Option CapabilityInvocation) (snapshot : VerifiedBundleSnapshot) (state : ProviderState) :
    verifyGrantChain signer b request (before ++ g :: after) capability snapshot state =
      verifyGrantChain signer b request (before ++ g' :: after) capability snapshot state := by
  have hagrees := agrees_of_payload hg hg' hsignature
  rw [verifyGrantChain_congr (agrees_at hagrees before after)]

/-- The sample grant with its sets written in one order. -/
def listedGrant : SignedDelegation :=
  { sampleGrant with domains := [py "d", py "e"], permittedPurposes := [py "audit", py "report"] }

/-- The same grant with its sets in the other order, its times at another offset and off the second, and its ceilings
and depth as the other kind of integer. -/
def relistedGrant : SignedDelegation :=
  { sampleGrant with
    domains := [py "e", py "d"]
    permittedPurposes := [py "report", py "audit"]
    effectCeiling := .member 1
    riskCeiling := .int 1
    notBefore := ⟨3600000250, .offset 3600000000⟩
    expiresAt := ⟨9000001, .offset 0⟩
    maxChainDepth := .member 1 }

theorem signed_grants_interchangeable_relisted :
    listedGrant.domains ≠ relistedGrant.domains ∧ listedGrant.expiresAt ≠ relistedGrant.expiresAt ∧
      listedGrant.effectCeiling ≠ relistedGrant.effectCeiling ∧
      ∀ signer : Option PublicKey,
        verifyGrantChain signer ⟨.ok sampleDigest, 1000000⟩ sampleRequest ([] ++ listedGrant :: []) (some sampleInvocation)
            sampleSnapshot emptyState =
          verifyGrantChain signer ⟨.ok sampleDigest, 1000000⟩ sampleRequest ([] ++ relistedGrant :: [])
            (some sampleInvocation) sampleSnapshot emptyState := by
  have hrecord : ∃ r, listedGrant.signedRecord = .ok r ∧ relistedGrant.signedRecord = .ok r ∧
      (∀ s ∈ r.texts, Scalar s) ∧ r.maxChainDepth.natAbs ≤ maxSafeInteger := by
    refine ⟨_, rfl, ?_, ?_, ?_⟩ <;> decide
  obtain ⟨r, hlisted, hrelisted, htexts, hdepth⟩ := hrecord
  refine ⟨by decide, by decide, by decide, fun signer => ?_⟩
  exact signed_grants_interchangeable _ _ _ (signingPayload_eq hlisted htexts hdepth)
    (signingPayload_eq hrelisted htexts hdepth) rfl _ _ _ _ _ _ _ _

end OcorRuntime.Security
