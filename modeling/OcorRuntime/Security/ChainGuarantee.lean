import OcorRuntime.Security.GrantChain
import OcorRuntime.Security.GrantForms

/-! What an accepted delegation chain guarantees. -/
namespace OcorRuntime.Security
open Canonical Kernel
set_option autoImplicit false
set_option maxHeartbeats 250000

/-! ## Between two grants -/

/-- The later grant of a chain stays within the earlier one, which allowed it. -/
structure Narrows (outer inner : SignedDelegation) : Prop where
  redelegates : outer.redelegationAllowed = true
  capabilityId : inner.capabilityId = outer.capabilityId
  capabilityVersion : inner.capabilityVersion = outer.capabilityVersion
  resource : inner.resourceScope = outer.resourceScope
  tenant : inner.tenantId = outer.tenantId
  organization : inner.organizationId = outer.organizationId
  bundle : inner.policyBundleDigest = outer.policyBundleDigest
  domains : inner.domains ⊆ outer.domains
  compartments : inner.compartments ⊆ outer.compartments
  purposes : inner.permittedPurposes ⊆ outer.permittedPurposes
  effect : inner.effectCeiling.value ≤ outer.effectCeiling.value
  risk : inner.riskCeiling.value ≤ outer.riskCeiling.value
  depth : inner.maxChainDepth.value < outer.maxChainDepth.value
  start : ∃ i o, canonicalUtc inner.notBefore = .ok i ∧ canonicalUtc outer.notBefore = .ok o ∧ o ≤ i
  finish : ∃ i o, canonicalUtc inner.expiresAt = .ok i ∧ canonicalUtc outer.expiresAt = .ok o ∧ i ≤ o

theorem Narrows.trans {a b c : SignedDelegation} (hab : Narrows a b) (hbc : Narrows b c) : Narrows a c where
  redelegates := hab.redelegates
  capabilityId := hbc.capabilityId.trans hab.capabilityId
  capabilityVersion := hbc.capabilityVersion.trans hab.capabilityVersion
  resource := hbc.resource.trans hab.resource
  tenant := hbc.tenant.trans hab.tenant
  organization := hbc.organization.trans hab.organization
  bundle := hbc.bundle.trans hab.bundle
  domains := fun _ h => hab.domains (hbc.domains h)
  compartments := fun _ h => hab.compartments (hbc.compartments h)
  purposes := fun _ h => hab.purposes (hbc.purposes h)
  effect := hbc.effect.trans hab.effect
  risk := hbc.risk.trans hab.risk
  depth := hbc.depth.trans hab.depth
  start := by
    obtain ⟨i, o, hi, ho, hle⟩ := hbc.start
    obtain ⟨i', o', hi', ho', hle'⟩ := hab.start
    rw [hi'] at ho
    cases ho
    exact ⟨i, o', hi, ho', hle'.trans hle⟩
  finish := by
    obtain ⟨i, o, hi, ho, hle⟩ := hbc.finish
    obtain ⟨i', o', hi', ho', hle'⟩ := hab.finish
    rw [hi'] at ho
    cases ho
    exact ⟨i, o', hi, ho', hle.trans hle'⟩

theorem narrows_of_requireNarrowing {parent child : SignedDelegation} {parentDigest : PyStr} {request : PolicyRequest}
    (h : requireNarrowing parent child parentDigest request = .ok ()) :
    child.parentGrantDigest = some parentDigest ∧ Narrows parent child := by
  simp only [requireNarrowing, check_bind_eq_ok, refuseIf_eq_ok, not_not] at h
  obtain ⟨hlink, hredelegates, h⟩ := h
  obtain ⟨narrower, hnarrowed, htrue⟩ := bind_eq_ok.1 h
  rw [refuseIf_eq_ok] at htrue
  unfold narrowed at hnarrowed
  split_ifs at hnarrowed with hfields
  · obtain ⟨hid, hversion, hresource, htenant, horg, hbundle, hdomains, hcomp, hpurposes, heffect, hrisk, hdepth⟩ := hfields
    simp only [bind_eq_ok] at hnarrowed
    obtain ⟨cs, hcs, ps, hps, hnarrowed⟩ := hnarrowed
    split_ifs at hnarrowed with hstart
    · simp only [bind_eq_ok] at hnarrowed
      obtain ⟨ce, hce, pe, hpe, hend⟩ := hnarrowed
      have hle : ce ≤ pe := by
        by_contra hgt
        cases hend
        simp [hgt] at htrue
      exact ⟨hlink, {
        redelegates := by simpa using hredelegates
        capabilityId := hid, capabilityVersion := hversion, resource := hresource, tenant := htenant
        organization := horg, bundle := hbundle, domains := hdomains, compartments := hcomp, purposes := hpurposes
        effect := heffect, risk := hrisk, depth := hdepth
        start := ⟨cs, ps, hcs, hps, hstart⟩, finish := ⟨ce, pe, hce, hpe, hle⟩ }⟩
    · cases hnarrowed
      simp at htrue
  · cases hnarrowed
    simp at htrue

/-! ## Between the request and a grant -/

/-- The requested scope, purpose, capability and classes lie in the grant. -/
structure Covers (request : PolicyRequest) (capability : CapabilityInvocation) (snapshot : VerifiedBundleSnapshot)
    (grant : SignedDelegation) : Prop where
  resource : request.resource = grant.resourceScope
  tenant : request.governedContext.tenantId = grant.tenantId
  organization : request.governedContext.organizationId = grant.organizationId
  domain : request.governedContext.domainId ∈ grant.domains
  compartments : request.governedContext.compartments ⊆ grant.compartments
  purpose : request.governedContext.purpose ∈ grant.permittedPurposes
  capabilityId : capability.capabilityId = grant.capabilityId
  capabilityVersion : capability.capabilityVersion = grant.capabilityVersion
  effect : capability.effectClass.value ≤ grant.effectCeiling.value
  risk : capability.riskClass.value ≤ grant.riskCeiling.value
  bundle : grant.policyBundleDigest = snapshot.digest

theorem covers_of_requireGrantCovers {request : PolicyRequest} {grant : SignedDelegation}
    {capability : CapabilityInvocation} {snapshot : VerifiedBundleSnapshot}
    (h : requireGrantCovers request grant capability snapshot = .ok ()) : Covers request capability snapshot grant := by
  simp only [requireGrantCovers, check_bind_eq_ok, refuseIf_eq_ok, not_not, not_or, ne_eq, not_lt, Prod.mk.injEq] at h
  obtain ⟨⟨hresource, htenant, horg, hdomain, hcomp⟩, hpurpose, ⟨hid, hversion⟩, ⟨heffect, hrisk⟩, hbundle⟩ := h
  exact ⟨hresource, htenant, horg, hdomain, hcomp, hpurpose, hid, hversion, heffect, hrisk, hbundle⟩

/-! ## One grant of the loop -/

/-- The grant is unrevoked, in its window, bound to its two actors, and covers the request. -/
structure Stands (c : ChainCheck) (index remaining : ℕ) (grant : SignedDelegation) : Prop where
  live : grant.grantId ∉ c.revoked
  grantor : c.request.governedContext.actorChain[index]? = some grant.grantorPrincipal
  grantee : c.request.governedContext.actorChain[index + 1]? = some grant.granteePrincipal
  deep : (remaining : ℤ) ≤ grant.maxChainDepth.value
  window : ∃ notBefore expiresAt, canonicalUtc grant.notBefore = .ok notBefore ∧
    canonicalUtc grant.expiresAt = .ok expiresAt ∧ notBefore ≤ c.instant ∧ c.instant < expiresAt
  covers : Covers c.request c.capability c.snapshot grant

theorem stands_of_checkGrant {c : ChainCheck} {index remaining : ℕ} {previous : Option (SignedDelegation × PyStr)}
    {grant : SignedDelegation} {digest : PyStr} (h : c.checkGrant index remaining previous grant = .ok digest) :
    Stands c index remaining grant ∧ ∀ parent ∈ previous, Narrows parent.1 grant := by
  unfold ChainCheck.checkGrant at h
  obtain ⟨digest', -, h⟩ := bind_eq_ok.1 h
  simp only [check_bind_eq_ok, refuseIf_eq_ok, not_lt, not_not, ne_eq, Prod.mk.injEq] at h
  obtain ⟨hlive, ⟨hgrantor, hgrantee⟩, hparent, hdeep, hwindow, hcovers, -⟩ := h
  obtain ⟨nb, hnb, hwindow⟩ := bind_eq_ok.1 hwindow
  obtain ⟨hstart, hwindow⟩ := check_bind_eq_ok.1 hwindow
  obtain ⟨ex, hex, hend⟩ := bind_eq_ok.1 hwindow
  rw [refuseIf_eq_ok, not_lt] at hstart
  rw [refuseIf_eq_ok, not_le] at hend
  refine ⟨⟨hlive, hgrantor.symm, hgrantee.symm, hdeep, ⟨nb, ex, hnb, hex, hstart, hend⟩,
    covers_of_requireGrantCovers hcovers⟩, ?_⟩
  intro parent hprevious
  obtain rfl := Option.mem_def.mp hprevious
  exact (narrows_of_requireNarrowing hparent).2

/-! ## The loop -/

/-- The loop went through: every grant stands at its place, and narrows all those before it. -/
structure Chained (c : ChainCheck) (index : ℕ) (previous : Option (SignedDelegation × PyStr))
    (grants : List SignedDelegation) : Prop where
  stands : ∀ i (hi : i < grants.length), Stands c (index + i) (grants.length - i) grants[i]
  narrows : grants.Pairwise Narrows
  inherited : ∀ parent ∈ previous, ∀ grant ∈ grants, Narrows parent.1 grant

theorem chained_of_checkGrants {c : ChainCheck} : ∀ {grants : List SignedDelegation} {index : ℕ}
    {previous : Option (SignedDelegation × PyStr)} {digests : List PyStr},
    c.checkGrants index previous grants = .ok digests → Chained c index previous grants
  | [], _, _, _, _ => by
      refine ⟨fun i hi => absurd hi (Nat.not_lt_zero i), List.Pairwise.nil, ?_⟩
      intro _ _ grant hgrant
      cases hgrant
  | grant :: rest, index, previous, _, h => by
      simp only [ChainCheck.checkGrants, bind_eq_ok] at h
      obtain ⟨digest, hgrant, digests, hrest, -⟩ := h
      obtain ⟨hstands, hparent⟩ := stands_of_checkGrant hgrant
      have ih := chained_of_checkGrants hrest
      have hchild : ∀ child ∈ rest, Narrows grant child := ih.inherited _ rfl
      refine ⟨fun i hi => ?_, List.pairwise_cons.mpr ⟨hchild, ih.narrows⟩, fun parent hp child hc => ?_⟩
      · cases i with
        | zero => exact hstands
        | succ i =>
          have hi' : i < rest.length := by simpa using hi
          have hplace := ih.stands i hi'
          rw [show index + 1 + i = index + (i + 1) by omega] at hplace
          simpa [Nat.add_sub_add_right] using hplace
      · -- a later grant narrows an earlier ancestor through the grant between them
        cases hc with
        | head => exact hparent parent hp
        | tail _ hc => exact (hparent parent hp).trans (hchild child hc)

theorem actorChain_of_chained {c : ChainCheck} {first : SignedDelegation} {rest : List SignedDelegation}
    (h : Chained c 0 none (first :: rest))
    (hlength : c.request.governedContext.actorChain.length = (first :: rest).length + 1) :
    c.request.governedContext.actorChain =
      first.grantorPrincipal :: (first :: rest).map (·.granteePrincipal) := by
  apply List.ext_getElem?
  intro i
  cases i with
  | zero => exact (h.stands 0 (by simp)).grantor
  | succ i =>
    by_cases hi : i < (first :: rest).length
    · have hgrantee := (h.stands i hi).grantee
      rw [Nat.zero_add] at hgrantee
      rw [hgrantee, List.getElem?_cons_succ, List.getElem?_map, List.getElem?_eq_getElem hi]
      rfl
    · rw [List.getElem?_eq_none (by omega), List.getElem?_eq_none (by simpa using hi)]

/-! ## The result -/

theorem foldl_min_spec (rest : List Instant) (t : Instant) :
    rest.foldl min t ∈ t :: rest ∧ ∀ u ∈ t :: rest, rest.foldl min t ≤ u := by
  induction rest generalizing t with
  | nil => simp
  | cons u rest ih =>
    obtain ⟨hmem, hle⟩ := ih (min t u)
    simp only [List.foldl_cons]
    refine ⟨?_, ?_⟩
    · rcases List.mem_cons.mp hmem with h | h
      · rw [h]
        rcases min_choice t u with h' | h' <;> simp [h']
      · simp [h]
    · intro v hv
      have hmin := hle (min t u) List.mem_cons_self
      rcases List.mem_cons.mp hv with rfl | hv
      · exact hmin.trans (min_le_left _ _)
      · rcases List.mem_cons.mp hv with rfl | hv
        · exact hmin.trans (min_le_right _ _)
        · exact hle v (List.mem_cons_of_mem _ hv)

theorem minimum_eq_ok {values : List Instant} {t : Instant} (h : minimum values = .ok t) :
    t ∈ values ∧ ∀ u ∈ values, t ≤ u := by
  cases values with
  | nil => cases h
  | cons u rest =>
    cases h
    exact foldl_min_spec rest u

/-- The expiry is the earliest of all. -/
def EarliestExpiry (grants : List SignedDelegation) (expiry : Instant) : Prop :=
  (∃ grant ∈ grants, canonicalUtc grant.expiresAt = .ok expiry) ∧
    ∀ grant ∈ grants, ∃ t, canonicalUtc grant.expiresAt = .ok t ∧ expiry ≤ t

theorem earliestExpiry_of_closeChain {grants : List SignedDelegation} {digests : List PyStr} {digest : PyStr}
    {expiry : Instant} (h : closeChain grants digests = .ok (digest, expiry)) : EarliestExpiry grants expiry := by
  simp only [closeChain, bind_eq_ok] at h
  obtain ⟨expiries, hexpiries, t, ht, heq⟩ := h
  cases heq
  obtain ⟨hmem, hle⟩ := minimum_eq_ok ht
  have hall := mapM_eq_ok hexpiries
  refine ⟨?_, fun grant hgrant => ?_⟩
  · obtain ⟨i, hi, rfl⟩ := List.getElem_of_mem hmem
    have hlen := hall.length_eq
    exact ⟨grants[i], List.getElem_mem (by omega), hall.get (by omega) hi⟩
  · obtain ⟨i, hi, rfl⟩ := List.getElem_of_mem hgrant
    have hlen := hall.length_eq
    exact ⟨expiries[i], hall.get hi (by omega), hle _ (List.getElem_mem (by omega))⟩

/-- What the caller of an accepted chain may rely on. -/
structure ChainGuarantee (b : Boundary) (request : PolicyRequest) (capability : CapabilityInvocation)
    (snapshot : VerifiedBundleSnapshot) (state : ProviderState) (grants : List SignedDelegation) (expiry : Instant) :
    Prop where
  /-- The actor chain is the grantor of the first grant, then the grantee of each. -/
  actors : ∃ first ∈ grants.head?,
    request.governedContext.actorChain = first.grantorPrincipal :: grants.map (·.granteePrincipal) ∧
      (grants.length : ℤ) ≤ first.maxChainDepth.value
  principal : grants.getLast?.map (·.granteePrincipal) = some request.principal.principalId
  live : ∀ grant ∈ grants, state.delegationRevocations.get? grant.grantId = none
  window : ∀ grant ∈ grants, ∃ notBefore expiresAt, canonicalUtc grant.notBefore = .ok notBefore ∧
    canonicalUtc grant.expiresAt = .ok expiresAt ∧ notBefore ≤ b.instant ∧ b.instant < expiresAt
  narrows : grants.Pairwise Narrows
  covers : ∀ grant ∈ grants, Covers request capability snapshot grant
  earliest : EarliestExpiry grants expiry

theorem openChain_eq_ok {signer : Option PublicKey} {b : Boundary} {request : PolicyRequest}
    {grants : List SignedDelegation} {capability : Option CapabilityInvocation} {snapshot : VerifiedBundleSnapshot}
    {key : PublicKey} {invoked : CapabilityInvocation} {thumbprint : PyStr}
    (h : openChain signer b request grants capability snapshot = .ok (key, invoked, thumbprint)) :
    grants ≠ [] ∧ capability = some invoked ∧
      request.governedContext.actorChain.length = grants.length + 1 ∧
      request.governedContext.actorChain.getLast? = some request.principal.principalId := by
  unfold openChain at h
  obtain ⟨key', -, h⟩ := bind_eq_ok.1 h
  obtain ⟨hne, h⟩ := check_bind_eq_ok.1 h
  obtain ⟨invoked', hinvoked, h⟩ := bind_eq_ok.1 h
  simp only [check_bind_eq_ok, refuseIf_eq_ok, not_or, not_not, ne_eq] at h
  obtain ⟨⟨hlength, hlast⟩, -, h⟩ := h
  obtain ⟨thumbprint', -, heq⟩ := bind_eq_ok.1 h
  cases heq
  rw [refuseIf_eq_ok] at hne
  exact ⟨by simpa using hne, orRaise_eq_ok.1 hinvoked, hlength, hlast⟩

/-- A verification that returned opened the chain, checked it against the revocations it read, and claimed its
nonces. -/
theorem verifyGrantChain_eq_ok {signer : Option PublicKey} {b : Boundary} {request : PolicyRequest}
    {grants : List SignedDelegation} {capability : Option CapabilityInvocation} {snapshot : VerifiedBundleSnapshot}
    {state state' : ProviderState} {result : PyStr × Instant}
    (h : verifyGrantChain signer b request grants capability snapshot state = (.ok result, state')) :
    ∃ key invoked thumbprint digests,
      openChain signer b request grants capability snapshot = .ok (key, invoked, thumbprint) ∧
      checkChain ⟨key, request, invoked, snapshot, state.delegationRevocations.keys, b.instant⟩ thumbprint grants =
        .ok digests ∧
      claimNonces request grants digests state = (.ok (), state') ∧ closeChain grants digests = .ok result := by
  unfold verifyGrantChain at h
  obtain ⟨⟨key, invoked, thumbprint⟩, s₁, h₁, h⟩ := Op.bind_eq_ok.1 h
  obtain ⟨hopen, rfl⟩ := Op.lift_eq_ok.1 h₁
  obtain ⟨revoked, s₂, hread, h⟩ := Op.bind_eq_ok.1 h
  cases hread
  obtain ⟨digests, s₃, h₃, h⟩ := Op.bind_eq_ok.1 h
  obtain ⟨hcheck, rfl⟩ := Op.lift_eq_ok.1 h₃
  obtain ⟨_, s₄, hclaim, h⟩ := Op.bind_eq_ok.1 h
  obtain ⟨hclose, rfl⟩ := Op.lift_eq_ok.1 h
  exact ⟨key, invoked, thumbprint, digests, hopen, hcheck, hclaim, hclose⟩

/-- **An accepted chain is the delegation of the request.** Whenever the verification returns, for whatever request,
grants, boundary and provider state, the actor chain is the one the grants delegate along, each of them is live and
covers the request, every later grant narrows every earlier one, and the expiry is the earliest of all. -/
theorem accepted_chain_guarantees (signer : Option PublicKey) (b : Boundary) (request : PolicyRequest)
    (grants : List SignedDelegation) (capability : Option CapabilityInvocation) (snapshot : VerifiedBundleSnapshot)
    (state state' : ProviderState) (digest : PyStr) (expiry : Instant)
    (h : verifyGrantChain signer b request grants capability snapshot state = (.ok (digest, expiry), state')) :
    ∃ invoked ∈ capability, ChainGuarantee b request invoked snapshot state grants expiry := by
  obtain ⟨key, invoked, thumbprint, digests, hopen, hcheck, -, hclose⟩ := verifyGrantChain_eq_ok h
  obtain ⟨hne, hinvoked, hlength, hlast⟩ := openChain_eq_ok hopen
  unfold checkChain at hcheck
  obtain ⟨digests', hgrants, -⟩ := bind_eq_ok.1 hcheck
  have hchained := chained_of_checkGrants hgrants
  obtain ⟨first, rest, rfl⟩ := List.exists_cons_of_ne_nil hne
  have hactors := actorChain_of_chained hchained hlength
  have hstands : ∀ grant ∈ first :: rest, ∃ index remaining,
      Stands ⟨key, request, invoked, snapshot, state.delegationRevocations.keys, b.instant⟩ index remaining grant := by
    intro grant hgrant
    obtain ⟨i, hi, rfl⟩ := List.getElem_of_mem hgrant
    exact ⟨_, _, hchained.stands i hi⟩
  refine ⟨invoked, hinvoked, ?_⟩
  constructor
  case actors => exact ⟨first, rfl, hactors, (hchained.stands 0 (by simp)).deep⟩
  case principal =>
    rw [hactors, List.map_cons, List.getLast?_cons_cons, ← List.map_cons, List.getLast?_map] at hlast
    exact hlast
  case live =>
    intro grant hgrant
    obtain ⟨_, _, hs⟩ := hstands grant hgrant
    by_contra hget
    obtain ⟨r, hr⟩ := Option.ne_none_iff_exists'.mp hget
    exact hs.live ((Dict.mem_keys_iff _ _).mpr ⟨r, hr⟩)
  case window =>
    intro grant hgrant
    obtain ⟨_, _, hs⟩ := hstands grant hgrant
    exact hs.window
  case narrows => exact hchained.narrows
  case covers =>
    intro grant hgrant
    obtain ⟨_, _, hs⟩ := hstands grant hgrant
    exact hs.covers
  case earliest => exact earliestExpiry_of_closeChain hclose

/-! ## A chain of one grant -/

def sampleDigest : PyStr := py "urn:sha256:" ++ List.replicate 64 (codePoint 0x61)

def sampleGrant : SignedDelegation where
  grantId := py "grant-1"
  grantorPrincipal := py "alice"
  granteePrincipal := py "agent"
  capabilityId := py "report"
  capabilityVersion := py "1"
  resourceScope := py "urn:r"
  tenantId := py "t"
  organizationId := py "o"
  domains := [py "d"]
  compartments := [py "c"]
  permittedPurposes := [py "audit"]
  effectCeiling := .int 1
  riskCeiling := .member 1
  notBefore := .utc 0
  expiresAt := .utc 9000000
  maxChainDepth := .int 1
  policyBundleDigest := sampleDigest
  nonce := List.replicate 16 (codePoint 0x6E)
  confirmationKeyThumbprint := sampleDigest
  signature := cubeSignature

def sampleContext : GovernedContext where
  tenantId := py "t"
  organizationId := py "o"
  domainId := py "d"
  compartments := [py "c"]
  classificationMarkingRef := sampleDigest
  purpose := py "audit"
  effectivePrincipalId := py "agent"
  actorChain := [py "alice", py "agent"]
  ontologyReleaseDigest := sampleDigest
  policyBundleDigest := sampleDigest
  correlationId := py "00000000-0000-4000-8000-000000000001"

def sampleRequest : PolicyRequest where
  principal := ⟨py "agent", [py "agent"], 0, 9000000⟩
  action := py "read"
  resource := py "urn:r"
  governedContext := sampleContext
  governedContextDigest := sampleContext.digest

def sampleSnapshot : VerifiedBundleSnapshot := ⟨py "policy", sampleDigest, [], 0, 9000000⟩

def sampleInvocation : CapabilityInvocation := ⟨py "report", py "1", .r0Read, .r1Low⟩

def emptyState : ProviderState := ⟨.empty, .empty, none⟩

theorem sampleGrant_payload : ∃ payload, sampleGrant.signingPayload = .ok payload := by
  have hrecord : ∃ r, sampleGrant.signedRecord = .ok r ∧ (∀ s ∈ r.texts, Scalar s) ∧
      r.maxChainDepth.natAbs ≤ maxSafeInteger := by
    refine ⟨_, rfl, ?_, ?_⟩ <;> decide
  obtain ⟨r, hr, htexts, hdepth⟩ := hrecord
  exact ⟨_, signingPayload_eq hr htexts hdepth⟩

/-- The sample chain is accepted whenever nothing was revoked and no nonce was used. -/
theorem sample_verified {key : PublicKey} {digest : PyStr} (hsigned : verifyDelegationSignature sampleGrant key = .ok digest)
    (state : ProviderState) (hrevoked : state.delegationRevocations = .empty) (hnonces : state.grantNonces = .empty) :
    verifyGrantChain (some key) ⟨.ok sampleDigest, 1000000⟩ sampleRequest [sampleGrant] (some sampleInvocation)
        sampleSnapshot state =
      (.ok (sha256Urn (utf8Encode digest), 9000000),
        { state with grantNonces := Dict.empty.set sampleGrant.nonce digest }) := by
  have hopen : openChain (some key) ⟨.ok sampleDigest, 1000000⟩ sampleRequest [sampleGrant] (some sampleInvocation)
      sampleSnapshot = .ok (key, sampleInvocation, sampleDigest) := rfl
  have hread : readRevoked state = (.ok [], state) := by
    simp [readRevoked, hrevoked, Dict.keys, Dict.empty]
  have hcheck : checkChain ⟨key, sampleRequest, sampleInvocation, sampleSnapshot, [], 1000000⟩ sampleDigest
      [sampleGrant] = .ok [digest] := by
    unfold checkChain ChainCheck.checkGrants ChainCheck.checkGrant
    rw [hsigned]
    rfl
  have hclaim : claimNonces sampleRequest [sampleGrant] [digest] state =
      (.ok (), { state with grantNonces := Dict.empty.set sampleGrant.nonce digest }) := by
    simp [claimNonces, hnonces]
  have hclose : closeChain [sampleGrant] [digest] = .ok (sha256Urn (utf8Encode digest), 9000000) := by
    have hjoin : (py ":").intercalate [digest] = digest := by simp [List.intercalate]
    unfold closeChain
    rw [hjoin]
    rfl
  unfold verifyGrantChain
  rw [hopen, Op.lift_ok_bind]
  dsimp only
  rw [Op.bind_of_ok hread, hcheck, Op.lift_ok_bind, Op.bind_of_ok hclaim, hclose]
  rfl

theorem accepted_chain_guarantees_sample : ∃ key state' digest expiry,
    verifyGrantChain (some key) ⟨.ok sampleDigest, 1000000⟩ sampleRequest [sampleGrant] (some sampleInvocation)
      sampleSnapshot emptyState = (.ok (digest, expiry), state') ∧
    ∃ invoked ∈ some sampleInvocation,
      ChainGuarantee ⟨.ok sampleDigest, 1000000⟩ sampleRequest invoked sampleSnapshot emptyState [sampleGrant] expiry := by
  obtain ⟨payload, hpayload⟩ := sampleGrant_payload
  have hsigned := verifyDelegationSignature_cube hpayload rfl
  have hrun := sample_verified hsigned emptyState rfl rfl
  exact ⟨_, _, _, _, hrun, accepted_chain_guarantees _ _ _ _ _ _ _ _ _ _ hrun⟩

end OcorRuntime.Security
