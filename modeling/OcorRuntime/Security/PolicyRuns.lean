import OcorRuntime.Foundations.Run
import OcorRuntime.Security.ChainGuarantee
import OcorRuntime.Security.PolicyProvider

/-! Nonces and revocations under any interleaving of evaluations and revocations. Only an
accepted chain writes the nonce table, and an entry once written stays; the revocation set
only grows, so a verification that reads it after a revocation refuses the revoked grant. -/
namespace OcorRuntime.Security
open Kernel
set_option autoImplicit false
set_option maxHeartbeats 250000

/-! ## Claiming nonces -/

/-- The nonces a chain claims, with the content address of the grant that carries each. -/
def nonceClaims (grants : List SignedDelegation) (digests : List PyStr) : List (PyStr × PyStr) :=
  (grants.zip digests).map fun claim => (claim.1.nonce, claim.2)

theorem get?_setAll_of_notMem {claims : List (PyStr × PyStr)} {table : Dict PyStr PyStr} {nonce : PyStr}
    (h : nonce ∉ claims.map Prod.fst) :
    (claims.foldl (fun table claim => table.set claim.1 claim.2) table).get? nonce = table.get? nonce := by
  induction claims generalizing table with
  | nil => rfl
  | cons claim claims ih =>
    simp only [List.map_cons, List.mem_cons, not_or] at h
    rw [List.foldl_cons, ih h.2, Dict.get?_set_of_ne _ _ (Ne.symm h.1)]

theorem get?_setAll_of_mem {claims : List (PyStr × PyStr)} {table : Dict PyStr PyStr} (hnd : (claims.map Prod.fst).Nodup)
    {claim : PyStr × PyStr} (h : claim ∈ claims) :
    (claims.foldl (fun table claim => table.set claim.1 claim.2) table).get? claim.1 = some claim.2 := by
  induction claims generalizing table with
  | nil => cases h
  | cons head claims ih =>
    simp only [List.map_cons, List.nodup_cons] at hnd
    rw [List.foldl_cons]
    cases h with
    | head => rw [get?_setAll_of_notMem hnd.1, Dict.get?_set_self]
    | tail _ h => exact ih hnd.2 h

theorem nonceClaims_nodup {grants : List SignedDelegation} {digests : List PyStr}
    (h : (grants.map (·.nonce)).Nodup) : ((nonceClaims grants digests).map Prod.fst).Nodup := by
  induction grants generalizing digests with
  | nil => simp [nonceClaims]
  | cons grant grants ih =>
    cases digests with
    | nil => simp [nonceClaims]
    | cons digest digests =>
      simp only [List.map_cons, List.nodup_cons] at h
      have hrest := @ih digests h.2
      simp only [nonceClaims, List.zip_cons_cons, List.map_cons, List.nodup_cons]
      refine ⟨?_, hrest⟩
      intro hmem
      apply h.1
      simp only [List.map_map, List.mem_map, Function.comp_apply] at hmem ⊢
      obtain ⟨claim, hclaim, hnonce⟩ := hmem
      exact ⟨claim.1, (List.of_mem_zip hclaim).1, hnonce⟩

/-- The second locked section: refused, it changes nothing; else every entry it finds stays and every nonce of the
chain names its grant. -/
theorem claimNonces_cases (request : PolicyRequest) (grants : List SignedDelegation) (digests : List PyStr)
    (state : ProviderState) :
    (∃ error, claimNonces request grants digests state = (.error error, state)) ∨
    ∃ table, claimNonces request grants digests state = (.ok (), { state with grantNonces := table }) ∧
      (∀ nonce digest, state.grantNonces.get? nonce = some digest → table.get? nonce = some digest) ∧
      ∀ claim ∈ nonceClaims grants digests, table.get? claim.1 = some claim.2 := by
  unfold claimNonces
  by_cases hused : ∃ claim ∈ grants.zip digests, (state.grantNonces.get? claim.1.nonce).getD claim.2 ≠ claim.2
  · left
    simp only [Op.read_bind, lift_refuseIf_bind, if_pos hused]
    exact ⟨_, rfl⟩
  by_cases hnd : (grants.map (·.nonce)).Nodup
  · right
    simp only [Op.read_bind, lift_refuseIf_bind, if_neg hused, not_not.mpr hnd, if_false, Op.update_apply]
    refine ⟨_, rfl, ?_, ?_⟩
    all_goals
      have hfold : (grants.zip digests).foldl (fun nonces claim => nonces.set claim.1.nonce claim.2) state.grantNonces =
          (nonceClaims grants digests).foldl (fun table claim => table.set claim.1 claim.2) state.grantNonces := by
        rw [nonceClaims, List.foldl_map]
      rw [hfold]
    · intro nonce digest hentry
      by_cases hmem : nonce ∈ (nonceClaims grants digests).map Prod.fst
      · obtain ⟨claim, hclaim, rfl⟩ := List.mem_map.mp hmem
        rw [get?_setAll_of_mem (nonceClaims_nodup hnd) hclaim]
        obtain ⟨pair, hpair, rfl⟩ := List.mem_map.mp hclaim
        -- the entry was there before, so the conflict check compared it with this grant
        push Not at hused
        have hsame := hused pair hpair
        rw [hentry] at hsame
        exact congrArg some hsame.symm
      · rw [get?_setAll_of_notMem hmem, hentry]
    · intro claim hclaim
      exact get?_setAll_of_mem (nonceClaims_nodup hnd) hclaim
  · left
    simp only [Op.read_bind, lift_refuseIf_bind, if_neg hused, hnd, not_false_eq_true, if_true]
    exact ⟨_, rfl⟩

/-! ## A chain that was checked can be closed -/

theorem mapM_ok_of_forall {α β : Type} {f : α → Except PyError β} : ∀ {l : List α},
    (∀ a ∈ l, ∃ b, f a = .ok b) → ∃ bs, l.mapM f = .ok bs ∧ bs.length = l.length
  | [], _ => ⟨[], rfl, rfl⟩
  | a :: l, h => by
      obtain ⟨b, hb⟩ := h a List.mem_cons_self
      obtain ⟨bs, hbs, hlen⟩ := mapM_ok_of_forall fun x hx => h x (List.mem_cons_of_mem a hx)
      refine ⟨b :: bs, ?_, by simp [hlen]⟩
      rw [List.mapM_cons, hb, hbs]
      rfl

theorem closeChain_of_checkChain {c : ChainCheck} {thumbprint : PyStr} {grants : List SignedDelegation}
    {digests : List PyStr} (h : checkChain c thumbprint grants = .ok digests) (hne : grants ≠ []) :
    ∃ digest expiry, closeChain grants digests = .ok (digest, expiry) := by
  unfold checkChain at h
  obtain ⟨_, hgrants, -⟩ := bind_eq_ok.1 h
  have hchained := chained_of_checkGrants hgrants
  have hexpiries : ∀ grant ∈ grants, ∃ t, canonicalUtc grant.expiresAt = .ok t := by
    intro grant hgrant
    obtain ⟨i, hi, rfl⟩ := List.getElem_of_mem hgrant
    obtain ⟨_, t, -, ht, -⟩ := (hchained.stands i hi).window
    exact ⟨t, ht⟩
  obtain ⟨expiries, hmap, hlen⟩ := mapM_ok_of_forall hexpiries
  unfold closeChain
  rw [hmap]
  cases expiries with
  | nil => exact absurd (List.length_eq_zero_iff.mp hlen.symm) hne
  | cons t rest => exact ⟨_, _, rfl⟩

theorem checkChain_revoked {c : ChainCheck} {thumbprint : PyStr} {grants : List SignedDelegation}
    {grant : SignedDelegation} (hgrant : grant ∈ grants) (hrevoked : grant.grantId ∈ c.revoked) :
    ∃ error, checkChain c thumbprint grants = .error error := by
  cases h : checkChain c thumbprint grants with
  | error error => exact ⟨error, rfl⟩
  | ok digests =>
    exfalso
    unfold checkChain at h
    obtain ⟨_, hgrants, -⟩ := bind_eq_ok.1 h
    obtain ⟨i, hi, rfl⟩ := List.getElem_of_mem hgrant
    exact ((chained_of_checkGrants hgrants).stands i hi).live hrevoked

/-! ## One step -/

/-- What a thread knows of its chain between the sections. -/
def Phase.Sound : Phase → Prop
  | .reading e _ _ | .checking e _ _ _ => e.call.grants ≠ []
  | .claiming e _ digests => e.call.grants ≠ [] ∧ ∃ c thumbprint, checkChain c thumbprint e.call.grants = .ok digests
  | _ => True

/-- What the sections of a call do to the provider: nothing, or the chain they accept claims its nonces. -/
inductive Effect (signer : Option PublicKey) (seen : Seen) (provider : ProviderState) (phase : Phase) : Prop
  | quiet (h : (advance signer seen provider phase).2 = provider)
      (hrefused : ∀ e round digests, phase = .claiming e round digests →
        ∃ error, (advance signer seen provider phase).1 = .raised error)
  | accepts (e : Evaluation) (round : Round) (digests : List PyStr) (digest : PyStr) (expiry : Instant)
      (table : Dict PyStr PyStr) (hphase : phase = .claiming e round digests)
      (h : advance signer seen provider phase =
        (.verified e round digest expiry, { provider with grantNonces := table }))
      (hkept : ∀ nonce digest, provider.grantNonces.get? nonce = some digest → table.get? nonce = some digest)
      (hclaimed : ∀ claim ∈ nonceClaims e.call.grants digests, table.get? claim.1 = some claim.2)

theorem advance_effect (signer : Option PublicKey) (seen : Seen) (provider : ProviderState) {phase : Phase}
    (hsound : phase.Sound) : Effect signer seen provider phase := by
  cases phase with
  | claiming e round digests =>
    obtain ⟨hne, c, thumbprint, hcheck⟩ := hsound
    obtain ⟨digest, expiry, hclose⟩ := closeChain_of_checkChain hcheck hne
    rcases claimNonces_cases e.call.request e.call.grants digests provider with ⟨error, herror⟩ | ⟨table, hok, hkept, hclaimed⟩
    · refine .quiet ?_ fun _ _ _ _ => ⟨error, ?_⟩
      · simp only [advance, Op.bind_of_error herror]
      · simp only [advance, Op.bind_of_error herror, orRaised]
    · refine .accepts e round digests digest expiry table rfl ?_ hkept hclaimed
      simp only [advance, Op.bind_of_ok hok, hclose, Op.lift_apply, orRaised]
  | verified e round digest expiry =>
    refine .quiet ?_ fun _ _ _ h => by cases h
    cases round <;> rfl
  | _ => exact .quiet rfl fun _ _ _ h => by cases h

theorem applyRevocation_keeps (signer : Option PublicKey) (revocation : SignedDelegationRevocation)
    (state : ProviderState) :
    (applyRevocation signer revocation state).2.grantNonces = state.grantNonces ∧
    (∀ id, state.delegationRevocations.get? id ≠ none →
      (applyRevocation signer revocation state).2.delegationRevocations.get? id ≠ none) ∧
    ((applyRevocation signer revocation state).1 = .ok () →
      (applyRevocation signer revocation state).2.delegationRevocations.get? revocation.delegationId ≠ none) := by
  unfold applyRevocation
  cases signer with
  | none => simp [orRaise]
  | some key =>
    cases hverify : verifySignedDelegationRevocation revocation key with
    | error error => simp [orRaise, hverify]
    | ok _ =>
      simp only [orRaise, Op.lift_ok_bind, hverify, Op.update_apply, true_and, forall_const]
      refine ⟨fun id hid => ?_, by simp⟩
      rw [Dict.get?_set]
      split_ifs
      · simp
      · exact hid

theorem orRaised_sound {α : Type} {outcome : Except PyError α} {next : α → Phase}
    (h : ∀ a, outcome = .ok a → (next a).Sound) : (orRaised outcome next).Sound := by
  cases outcome with
  | ok a => exact h a rfl
  | error error => trivial

theorem advance_sound (signer : Option PublicKey) (seen : Seen) (provider : ProviderState) {phase : Phase}
    (hsound : phase.Sound) : (advance signer seen provider phase).1.Sound := by
  cases phase with
  | idle => trivial
  | entering call =>
    refine orRaised_sound fun snapshot _ => ?_
    cases call.delegation <;> trivial
  | opening e round =>
    refine orRaised_sound fun opened hopen => ?_
    exact (openChain_eq_ok hopen).1
  | reading e round opened => exact hsound
  | checking e round opened revoked =>
    refine orRaised_sound fun digests hcheck => ?_
    exact ⟨hsound, _, _, hcheck⟩
  | claiming e round digests => exact orRaised_sound fun _ _ => trivial
  | verified e round digest expiry =>
    cases round with
    | first => trivial
    | second pending => exact orRaised_sound fun _ _ => trivial
  | asking e chainDigest =>
    refine orRaised_sound fun pending _ => ?_
    split_ifs
    · exact orRaised_sound fun _ _ => trivial
    · trivial
  | returned decision => trivial
  | raised error => trivial

namespace System
variable (signer : Option PublicKey)

/-- The provider before any call. -/
def start (provider : ProviderState) : System := ⟨provider, fun _ => .idle⟩

def Sound (s : System) : Prop := ∀ thread, (s.threads thread).Sound

theorem sound_start (provider : ProviderState) : (start provider).Sound := fun _ => trivial

theorem sound_step {s : System} (hs : s.Sound) (action : Action) : (s.step signer action).Sound := by
  cases action with
  | begin thread call =>
    intro other
    by_cases h : other = thread
    · subst h
      have hbegin : ((s.threads other).begin call).Sound := by
        have hother := hs other
        cases hphase : s.threads other <;> simp_all [Phase.begin, Phase.Sound]
      simpa [step] using hbegin
    · simpa [step, h] using hs other
  | advance thread seen =>
    intro other
    by_cases h : other = thread
    · subst h
      simpa [step] using advance_sound signer seen s.provider (hs other)
    · simpa [step, h] using hs other
  | applyRevocation revocation => exact hs
  | install snapshot => exact hs

theorem sound_run {s : System} (hs : s.Sound) (actions : List Action) : (run (step signer) s actions).Sound := by
  induction actions generalizing s with
  | nil => exact hs
  | cons action actions ih => exact ih (sound_step signer hs action)

/-! ## Nonces -/

/-- The nonces claimed by a chain that is accepted between the two phases. -/
def acceptedClaims : Phase → Phase → List (PyStr × PyStr)
  | .claiming e _ digests, .verified _ _ _ _ => nonceClaims e.call.grants digests
  | _, _ => []

/-- The nonces the step claims for a chain it accepts. -/
def claims (s : System) : Action → List (PyStr × PyStr)
  | .advance thread seen =>
    acceptedClaims (s.threads thread) (advance signer seen s.provider (s.threads thread)).1
  | _ => []

/-- The step accepts the chain of the thread that takes it. -/
def Accepts (s : System) (action : Action) : Prop :=
  ∃ thread seen e round digests digest expiry, action = .advance thread seen ∧
    s.threads thread = .claiming e round digests ∧ (s.step signer action).threads thread = .verified e round digest expiry

theorem nonces_step {s : System} (hs : s.Sound) (action : Action) :
    ((s.step signer action).provider.grantNonces ≠ s.provider.grantNonces → Accepts signer s action) ∧
    (∀ nonce digest, s.provider.grantNonces.get? nonce = some digest →
      (s.step signer action).provider.grantNonces.get? nonce = some digest) ∧
    ∀ claim ∈ claims signer s action, (s.step signer action).provider.grantNonces.get? claim.1 = some claim.2 := by
  cases action with
  | begin thread call =>
    exact ⟨fun h => absurd rfl h, fun _ _ h => h, fun claim h => by cases h⟩
  | advance thread seen =>
    have hprovider : (s.step signer (.advance thread seen)).provider =
        (advance signer seen s.provider (s.threads thread)).2 := rfl
    rw [hprovider]
    cases advance_effect signer seen s.provider (hs thread) with
    | quiet hquiet hrefused =>
      rw [hquiet]
      have hnone : claims signer s (.advance thread seen) = [] := by
        unfold claims
        cases hphase : s.threads thread with
        | claiming e round digests =>
          obtain ⟨error, herror⟩ := hrefused e round digests hphase
          rw [hphase] at herror
          simp only [hphase, herror, acceptedClaims]
        | _ => simp only [hphase, acceptedClaims]
      rw [hnone]
      exact ⟨fun h => absurd rfl h, fun _ _ h => h, fun claim hclaim => by cases hclaim⟩
    | accepts e round digests digest expiry table hphase hadvance hkept hclaimed =>
      rw [hadvance]
      refine ⟨fun _ => ⟨thread, seen, e, round, digests, digest, expiry, rfl, hphase, ?_⟩, hkept, ?_⟩
      · simp only [step, hadvance, Function.update_self]
      · rw [hphase] at hadvance
        simpa only [claims, acceptedClaims, hphase, hadvance] using hclaimed
  | applyRevocation revocation =>
    have hsame : (s.step signer (.applyRevocation revocation)).provider.grantNonces = s.provider.grantNonces :=
      (applyRevocation_keeps signer revocation s.provider).1
    rw [hsame]
    exact ⟨fun h => absurd rfl h, fun _ _ h => h, fun claim h => by cases h⟩
  | install snapshot => exact ⟨fun h => absurd rfl h, fun _ _ h => h, fun claim h => by cases h⟩

theorem claimed_run {s : System} (hs : s.Sound) (actions : List Action) :
    (∀ nonce digest, s.provider.grantNonces.get? nonce = some digest →
      (run (step signer) s actions).provider.grantNonces.get? nonce = some digest) ∧
    ∀ claim ∈ trace (step signer) (claims signer) s actions,
      (run (step signer) s actions).provider.grantNonces.get? claim.1 = some claim.2 := by
  induction actions generalizing s with
  | nil => exact ⟨fun _ _ h => h, fun _ h => by cases h⟩
  | cons action actions ih =>
    obtain ⟨-, hkept, hclaimed⟩ := nonces_step signer hs action
    obtain ⟨ihkept, ihclaimed⟩ := ih (sound_step signer hs action)
    refine ⟨fun nonce digest h => ihkept nonce digest (hkept nonce digest h), fun claim hclaim => ?_⟩
    rcases List.mem_append.mp hclaim with h | h
    · exact ihkept _ _ (hclaimed claim h)
    · exact ihclaimed claim h

/-! ## Revocations -/

theorem revoked_step (s : System) (action : Action) {id : PyStr}
    (h : s.provider.delegationRevocations.get? id ≠ none) (hs : s.Sound) :
    (s.step signer action).provider.delegationRevocations.get? id ≠ none := by
  cases action with
  | begin thread call => exact h
  | advance thread seen =>
    have hprovider : (s.step signer (.advance thread seen)).provider =
        (advance signer seen s.provider (s.threads thread)).2 := rfl
    rw [hprovider]
    cases advance_effect signer seen s.provider (hs thread) with
    | quiet hquiet _ =>
      rw [hquiet]
      exact h
    | accepts e round digests digest expiry table hphase hadvance _ _ =>
      rw [hadvance]
      exact h
  | applyRevocation revocation => exact (applyRevocation_keeps signer revocation s.provider).2.1 id h
  | install snapshot => exact h

theorem revoked_run {s : System} (hs : s.Sound) {id : PyStr} (h : s.provider.delegationRevocations.get? id ≠ none)
    (actions : List Action) : (run (step signer) s actions).provider.delegationRevocations.get? id ≠ none := by
  induction actions generalizing s with
  | nil => exact h
  | cons action actions ih => exact ih (sound_step signer hs action) (revoked_step signer s action h hs)

/-- A call that read a revocation of one of its grants can only raise. -/
def Doomed (phase : Phase) : Prop :=
  (∃ error, phase = .raised error) ∨ ∃ e round opened revoked, phase = .checking e round opened revoked ∧
    ∃ grant ∈ e.call.grants, grant.grantId ∈ revoked

theorem doomed_advance (seen : Seen) (provider : ProviderState) {phase : Phase} (h : Doomed phase) :
    ∃ error, (advance signer seen provider phase).1 = .raised error := by
  rcases h with ⟨error, rfl⟩ | ⟨e, round, opened, revoked, rfl, grant, hgrant, hrevoked⟩
  · exact ⟨error, rfl⟩
  · have hrefused : ∃ error, checkChain (e.check opened revoked seen.now) opened.keyThumbprint e.call.grants =
        .error error := checkChain_revoked hgrant hrevoked
    obtain ⟨error, herror⟩ := hrefused
    exact ⟨error, by simp only [advance, herror, orRaised]⟩

theorem begin_of_doomed {phase : Phase} (h : Doomed phase) (call : EvaluateCall) : phase.begin call = phase := by
  rcases h with ⟨error, rfl⟩ | ⟨e, round, opened, revoked, rfl, -⟩ <;> rfl

theorem doomed_step {s : System} {thread : ℕ} (h : Doomed (s.threads thread)) (action : Action) :
    (s.step signer action).threads thread = s.threads thread ∧ (∀ seen, action ≠ .advance thread seen) ∨
      ∃ error, (s.step signer action).threads thread = .raised error := by
  cases action with
  | begin other call =>
    left
    refine ⟨?_, fun seen hne => by cases hne⟩
    by_cases hother : thread = other
    · subst hother
      simp [step, begin_of_doomed h call]
    · simp [step, hother]
  | advance other seen =>
    by_cases hother : thread = other
    · subst hother
      obtain ⟨error, herror⟩ := doomed_advance signer seen s.provider h
      right
      exact ⟨error, by simpa [step] using herror⟩
    · left
      refine ⟨by simp [step, hother], ?_⟩
      intro seen' hne
      cases hne
      exact hother rfl
  | applyRevocation revocation => exact .inl ⟨rfl, fun seen hne => by cases hne⟩
  | install snapshot => exact .inl ⟨rfl, fun seen hne => by cases hne⟩

theorem raised_run {s : System} {thread : ℕ} {error : PyError} (h : s.threads thread = .raised error)
    (actions : List Action) : ∃ error, (run (step signer) s actions).threads thread = .raised error := by
  induction actions generalizing s error with
  | nil => exact ⟨error, h⟩
  | cons action actions ih =>
    rcases doomed_step signer (.inl ⟨error, h⟩) action with ⟨hsame, -⟩ | ⟨error', herror⟩
    · exact ih (hsame.trans h)
    · exact ih herror

theorem doomed_run {s : System} {thread : ℕ} (h : Doomed (s.threads thread)) (actions : List Action) :
    (run (step signer) s actions).threads thread = s.threads thread ∧ (∀ seen, Action.advance thread seen ∉ actions) ∨
      ∃ error, (run (step signer) s actions).threads thread = .raised error := by
  induction actions generalizing s with
  | nil => exact .inl ⟨rfl, fun _ hmem => by cases hmem⟩
  | cons action actions ih =>
    rcases doomed_step signer h action with ⟨hsame, hother⟩ | ⟨error, herror⟩
    · rcases ih (hsame ▸ h) with ⟨hrest, hnone⟩ | hraised
      · refine .inl ⟨hrest.trans hsame, fun seen hmem => ?_⟩
        rcases List.mem_cons.mp hmem with heq | hmem
        · exact hother seen heq.symm
        · exact hnone seen hmem
      · exact .inr hraised
    · exact .inr (raised_run signer herror actions)

/-! ## The guarantee -/

/-- Nonce and revocation safety of a run. -/
structure Safe (provider : ProviderState) (actions : List Action) : Prop where
  /-- Among all accepted chains a nonce names one grant. -/
  nonces : ∀ first ∈ trace (step signer) (claims signer) (start provider) actions,
    ∀ second ∈ trace (step signer) (claims signer) (start provider) actions, first.1 = second.1 → first.2 = second.2
  /-- A step that changes the nonce table accepts a chain: a refused one leaves it as it was. -/
  refused : ∀ before action after, actions = before ++ action :: after →
    (run (step signer) (start provider) (before ++ [action])).provider.grantNonces ≠
      (run (step signer) (start provider) before).provider.grantNonces →
    Accepts signer (run (step signer) (start provider) before) action
  /-- A revocation that returned before the second verification of a call read the revoked ids: the call, if its
  chain holds the revoked grant, raises as soon as it takes another step, and never returns a decision. -/
  revoked : ∀ before revocation between thread seen after e pending opened grant,
    actions = before ++ .applyRevocation revocation :: (between ++ .advance thread seen :: after) →
    (applyRevocation signer revocation (run (step signer) (start provider) before).provider).1 = .ok () →
    (run (step signer) (start provider) (before ++ .applyRevocation revocation :: between)).threads thread =
      .reading e (.second pending) opened →
    grant ∈ e.call.grants → grant.grantId = revocation.delegationId →
    (∃ error, (run (step signer) (start provider) actions).threads thread = .raised error) ∨
      (∃ revoked, (run (step signer) (start provider) actions).threads thread =
        .checking e (.second pending) opened revoked) ∧ ∀ seen, Action.advance thread seen ∉ after

/-- **Nonces and revocations are safe under every interleaving.** For any provider and any sequence of calls, sections
of calls, revocations and installed bundles, no nonce is accepted for two grants, only an accepted chain writes the
nonce table, and a call whose second verification starts after a revocation raises when its chain holds the grant. -/
theorem nonce_and_revocation_safety (provider : ProviderState) (actions : List Action) :
    Safe signer provider actions := by
  have hstart := sound_start provider
  constructor
  case nonces =>
    intro first hfirst second hsecond heq
    have hclaimed := (claimed_run signer hstart actions).2
    have h1 := hclaimed first hfirst
    rw [heq, hclaimed second hsecond] at h1
    exact (Option.some.inj h1).symm
  case refused =>
    intro before action after _ hchanged
    rw [run_append] at hchanged
    exact (nonces_step signer (sound_run signer hstart before) action).1 hchanged
  case revoked =>
    intro before revocation between thread seen after e pending opened grant hactions hreturned hreading hgrant hid
    have hbefore := sound_run signer hstart before
    have hadded := (applyRevocation_keeps signer revocation
      (run (step signer) (start provider) before).provider).2.2 hreturned
    have hrevoked := revoked_run signer (sound_step signer hbefore (.applyRevocation revocation)) hadded between
    rw [run_append, run_cons] at hreading
    obtain ⟨s, hs⟩ : ∃ s, s = run (step signer)
      (step signer (run (step signer) (start provider) before) (.applyRevocation revocation)) between := ⟨_, rfl⟩
    rw [← hs] at hreading hrevoked
    -- the section reads the ids under the lock, the revoked one among them
    have hafter : (s.step signer (.advance thread seen)).threads thread =
        .checking e (.second pending) opened s.provider.delegationRevocations.keys := by
      simp only [step, hreading, advance, readRevoked, Op.read_bind, Op.pure_apply, orRaised, Function.update_self]
    have hmem : grant.grantId ∈ s.provider.delegationRevocations.keys := by
      rw [hid, Dict.mem_keys_iff]
      exact Option.ne_none_iff_exists'.mp hrevoked
    have hdoomed : Doomed ((s.step signer (.advance thread seen)).threads thread) :=
      .inr ⟨e, _, opened, _, hafter, grant, hgrant, hmem⟩
    have hrun : run (step signer) (start provider) actions =
        run (step signer) (s.step signer (.advance thread seen)) after := by
      rw [hactions, run_append, run_cons, run_append, run_cons, ← hs]
    rw [hrun]
    rcases doomed_run signer hdoomed after with ⟨hsame, hnone⟩ | hraised
    · exact .inr ⟨⟨_, hsame.trans hafter⟩, hnone⟩
    · exact .inl hraised

end System
end OcorRuntime.Security
