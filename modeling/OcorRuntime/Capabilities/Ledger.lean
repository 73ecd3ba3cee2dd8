import OcorRuntime.Capabilities.Authority
import OcorRuntime.Foundations.Run

/-! The lease ledger over whole runs of the authority, whatever its stop controller
answers. Every call revises leases (a revocation recorded once and for good) and then
at most registers one attenuated lease or counts one use: `step_cases`. -/
namespace OcorRuntime.Capabilities
set_option autoImplicit false
set_option maxHeartbeats 250000

/-! ## Attenuation -/

/-- What `_validate_delegation` leaves a delegated lease with. -/
structure Attenuates (parent child : LeaseTerms) : Prop where
  starts : parent.notBefore ≤ child.notBefore
  ends : child.expiresAt ≤ parent.expiresAt
  capabilities : ∀ requested ∈ child.capabilities, ∃ grant ∈ parent.capabilities, CapabilityMatches grant requested
  resources : ∀ childScope ∈ child.resources, ∃ scope ∈ parent.resources, ResourceScopeContains scope childScope

theorem Attenuates.covers {parent child : LeaseTerms} (h : Attenuates parent child) {capability resource : PyStr}
    (hc : child.Covers capability resource) : parent.Covers capability resource := by
  obtain ⟨⟨grant, hgrant, hmatch⟩, scope, hscope, hres⟩ := hc
  obtain ⟨grant', hgrant', hmatch'⟩ := h.capabilities grant hgrant
  obtain ⟨scope', hscope', hres'⟩ := h.resources scope hscope
  exact ⟨⟨grant', hgrant', hmatch'.trans hmatch⟩, scope', hscope', hres'.resourceMatches hres⟩

theorem validateDelegation_attenuates {parent child : CapabilityLease}
    (h : CapabilityAuthority.validateDelegation parent child = .ok ()) :
    Attenuates parent.toLeaseTerms child.toLeaseTerms := by
  unfold CapabilityAuthority.validateDelegation at h
  split_ifs at h with h1 h2 h3 h4 h5 h6
  push Not at h4 h5 h6
  exact ⟨h4.1, h4.2, h5, h6⟩

/-! ## Revision -/

/-- The same lease, with a recorded revocation kept. -/
def Kept (before after : CapabilityLease) : Prop :=
  after.toLeaseTerms = before.toLeaseTerms ∧ ∀ t, before.revokedAt = some t → after.revokedAt = some t

/-- The same leases, some of them revoked meanwhile. -/
def Revised (before after : Dict PyStr CapabilityLease) : Prop :=
  ∀ id, Option.Rel Kept (before.get? id) (after.get? id)

namespace Revised
variable {before mid after : Dict PyStr CapabilityLease}

theorem refl (leases : Dict PyStr CapabilityLease) : Revised leases leases := by
  intro id
  cases leases.get? id with
  | none => exact .none
  | some l => exact .some ⟨rfl, fun _ h => h⟩

theorem trans (h : Revised before mid) (h' : Revised mid after) : Revised before after := by
  intro id
  have h1 := h id
  have h2 := h' id
  revert h1 h2
  generalize before.get? id = x
  generalize mid.get? id = y
  generalize after.get? id = z
  rintro (⟨hterms, hrev⟩ | _) (⟨hterms', hrev'⟩ | _)
  · exact .some ⟨hterms'.trans hterms, fun t ht => hrev' t (hrev t ht)⟩
  · exact .none

theorem forward (h : Revised before after) {id : PyStr} {l : CapabilityLease} (hl : before.get? id = some l) :
    ∃ l', after.get? id = some l' ∧ Kept l l' := by
  have := h id
  rw [hl] at this
  cases hl' : after.get? id with
  | none => rw [hl'] at this; cases this
  | some l' =>
    rw [hl'] at this
    cases this with
    | some hk => exact ⟨l', rfl, hk⟩

theorem backward (h : Revised before after) {id : PyStr} {l' : CapabilityLease} (hl' : after.get? id = some l') :
    ∃ l, before.get? id = some l ∧ Kept l l' := by
  have := h id
  rw [hl'] at this
  cases hl : before.get? id with
  | none => rw [hl] at this; cases this
  | some l =>
    rw [hl] at this
    cases this with
    | some hk => exact ⟨l, rfl, hk⟩

theorem set {id : PyStr} {lease revoked : CapabilityLease} (hl : before.get? id = some lease)
    (hnone : lease.revokedAt = none) (hterms : revoked.toLeaseTerms = lease.toLeaseTerms) :
    Revised before (before.set id revoked) := by
  intro j
  rw [Dict.get?_set]
  split_ifs with h
  · subst h
    rw [hl]
    refine .some ⟨hterms, fun t ht => ?_⟩
    rw [hnone] at ht
    cases ht
  · exact refl before j

end Revised

namespace CapabilityAuthority

/-! ## The sweep revises the ledger -/

theorem supersededAt_some {boundEpoch : ℤ} {stop : StopEpochAuthority} {lease : CapabilityLease} {t : Instant}
    (h : supersededAt boundEpoch stop lease = .ok (some t)) : lease.revokedAt = none := by
  by_contra hne
  rw [supersededAt, if_pos (Option.isSome_iff_ne_none.mpr hne)] at h
  cases h

theorem get?_set_of_not_mem {leases : Dict PyStr CapabilityLease} {rest : List (PyStr × CapabilityLease)} {id : PyStr}
    (revoked : CapabilityLease) (hid : id ∉ rest.map Prod.fst) (h : ∀ e ∈ rest, leases.get? e.1 = some e.2) :
    ∀ e ∈ rest, (leases.set id revoked).get? e.1 = some e.2 := by
  intro e he
  have hne : id ≠ e.1 := by
    intro heq
    exact hid (List.mem_map.mpr ⟨e, he, heq.symm⟩)
  rw [Dict.get?_set_of_ne _ _ hne]
  exact h e he

theorem sweepEntries_revised (boundEpoch : ℤ) (stop : StopEpochAuthority) :
    ∀ (entries : List (PyStr × CapabilityLease)) (leases : Dict PyStr CapabilityLease),
      (entries.map Prod.fst).Nodup → (∀ e ∈ entries, leases.get? e.1 = some e.2) →
      Revised leases (sweepEntries boundEpoch stop entries leases).2
  | [], leases, _, _ => Revised.refl leases
  | (id, lease) :: rest, leases, hnd, hmem => by
      rw [List.map_cons, List.nodup_cons] at hnd
      have hlease := hmem (id, lease) (List.mem_cons_self ..)
      have hrest : ∀ e ∈ rest, leases.get? e.1 = some e.2 := fun e he => hmem e (List.mem_cons_of_mem _ he)
      unfold sweepEntries
      match hs : supersededAt boundEpoch stop lease with
      | .error e => exact Revised.refl leases
      | .ok none => exact sweepEntries_revised boundEpoch stop rest leases hnd.2 hrest
      | .ok (some t) =>
        dsimp only
        cases hr : lease.replaceRevokedAt t with
        | error e => exact Revised.refl leases
        | ok revoked =>
          have hset := Revised.set hlease (supersededAt_some hs) (CapabilityLease.replaceRevokedAt_eq_ok hr).1
          exact hset.trans (sweepEntries_revised boundEpoch stop rest _ hnd.2 (get?_set_of_not_mem revoked hnd.1 hrest))

theorem sweepEntries_frame (boundEpoch : ℤ) (stop : StopEpochAuthority) :
    ∀ (entries : List (PyStr × CapabilityLease)) (leases : Dict PyStr CapabilityLease) (id : PyStr),
      id ∉ entries.map Prod.fst → (sweepEntries boundEpoch stop entries leases).2.get? id = leases.get? id
  | [], _, _, _ => rfl
  | (key, lease) :: rest, leases, id, hid => by
      rw [List.map_cons, List.mem_cons, not_or] at hid
      unfold sweepEntries
      rcases supersededAt boundEpoch stop lease with err | _ | t
      · rfl
      · exact sweepEntries_frame boundEpoch stop rest leases id hid.2
      · dsimp only
        cases lease.replaceRevokedAt t with
        | error err => rfl
        | ok revoked =>
          dsimp only
          rw [sweepEntries_frame boundEpoch stop rest _ id hid.2, Dict.get?_set_of_ne _ _ (Ne.symm hid.1)]

/-- What a completed sweep makes of a lease. -/
def SweptFrom (boundEpoch : ℤ) (stop : StopEpochAuthority) (lease swept : CapabilityLease) : Prop :=
  supersededAt boundEpoch stop lease = .ok none ∧ swept = lease ∨
    ∃ t, supersededAt boundEpoch stop lease = .ok (some t) ∧ lease.replaceRevokedAt t = .ok swept

theorem sweepEntries_swept (boundEpoch : ℤ) (stop : StopEpochAuthority) :
    ∀ (entries : List (PyStr × CapabilityLease)) (leases : Dict PyStr CapabilityLease),
      (entries.map Prod.fst).Nodup → (∀ e ∈ entries, leases.get? e.1 = some e.2) →
      (sweepEntries boundEpoch stop entries leases).1 = .ok () → ∀ e ∈ entries,
        ∃ swept, (sweepEntries boundEpoch stop entries leases).2.get? e.1 = some swept ∧
          SweptFrom boundEpoch stop e.2 swept
  | [], _, _, _, _, e, he => absurd he List.not_mem_nil
  | (id, lease) :: rest, leases, hnd, hmem, hok, e, he => by
      rw [List.map_cons, List.nodup_cons] at hnd
      have hlease := hmem (id, lease) (List.mem_cons_self ..)
      have hrest : ∀ e ∈ rest, leases.get? e.1 = some e.2 := fun e he => hmem e (List.mem_cons_of_mem _ he)
      have hframe := fun leases' => sweepEntries_frame boundEpoch stop rest leases' id hnd.1
      unfold sweepEntries at hok ⊢
      rcases hs : supersededAt boundEpoch stop lease with err | _ | t
      · rw [hs] at hok
        cases hok
      · rw [hs] at hok
        dsimp only at hok ⊢
        rcases List.mem_cons.mp he with rfl | he
        · exact ⟨lease, by rw [hframe, hlease], Or.inl ⟨hs, rfl⟩⟩
        · exact sweepEntries_swept boundEpoch stop rest leases hnd.2 hrest hok e he
      · rw [hs] at hok
        dsimp only at hok ⊢
        cases hr : lease.replaceRevokedAt t with
        | error err => rw [hr] at hok; cases hok
        | ok revoked =>
          rw [hr] at hok
          dsimp only at hok ⊢
          have hrest' := get?_set_of_not_mem revoked hnd.1 hrest
          rcases List.mem_cons.mp he with rfl | he
          · exact ⟨revoked, by rw [hframe, Dict.get?_set_self], Or.inr ⟨t, hs, hr⟩⟩
          · exact sweepEntries_swept boundEpoch stop rest _ hnd.2 hrest' hok e he

theorem sweepEntries_ok (boundEpoch : ℤ) (stop : StopEpochAuthority) :
    ∀ (entries : List (PyStr × CapabilityLease)) (leases : Dict PyStr CapabilityLease),
      (∀ e ∈ entries, ∃ o, supersededAt boundEpoch stop e.2 = .ok o ∧ ∀ t ∈ o, e.2.issuedAt ≤ t) →
      (sweepEntries boundEpoch stop entries leases).1 = .ok ()
  | [], _, _ => rfl
  | (id, lease) :: rest, leases, h => by
      have hrest := fun e he => h e (List.mem_cons_of_mem (id, lease) he)
      unfold sweepEntries
      obtain ⟨o, ho, hle⟩ := h (id, lease) (List.mem_cons_self ..)
      rw [ho]
      cases o with
      | none => exact sweepEntries_ok boundEpoch stop rest leases hrest
      | some t =>
        dsimp only
        rw [CapabilityLease.replaceRevokedAt, dif_pos (hle t rfl)]
        exact sweepEntries_ok boundEpoch stop rest _ hrest

theorem sweep_revised (a : CapabilityAuthority) (stop : StopEpochAuthority) :
    Revised a.leases (a.sweepSupersededLeases stop).2.leases ∧ (a.sweepSupersededLeases stop).2.uses = a.uses ∧
      (a.sweepSupersededLeases stop).2.stop = a.stop := by
  have hsweep := sweepEntries_revised a.boundEpoch stop a.leases.entries a.leases a.leases.nodup
    fun e he => (a.leases.mem_entries_iff e.1 e.2).mp he
  unfold sweepSupersededLeases
  split_ifs
  · exact ⟨Revised.refl _, rfl, rfl⟩
  · revert hsweep
    rcases sweepEntries a.boundEpoch stop a.leases.entries a.leases with ⟨_ | _, leases⟩
    · exact fun h => ⟨h, rfl, rfl⟩
    · exact fun h => ⟨h, rfl, rfl⟩

/-! ## What a call does -/

inductive Call
  | bindStopController (controller : ℕ)
  | issue (r : IssueRequest)
  | get (leaseId : PyStr)
  | revoke (leaseId : PyStr) (instant : DateTime)
  | authorize (r : AuthorizeRequest)

/-- A call, with what the stop controller it consults answers during it. -/
def step (a : CapabilityAuthority) : StopEpochAuthority × Call → CapabilityAuthority
  | (stop, .bindStopController controller) => (a.bindStopController controller stop).2
  | (stop, .issue r) => (a.issue stop r).2
  | (stop, .get leaseId) => (a.get stop leaseId).2
  | (stop, .revoke leaseId instant) => (a.revoke stop leaseId instant).2
  | (stop, .authorize r) => (a.authorize stop r).2

/-- The lease identifier a successful authorization counts a use for. -/
def consumedUse (a : CapabilityAuthority) : StopEpochAuthority × Call → List PyStr
  | (stop, .authorize r) => if r.consume ∧ (a.authorize stop r).1.isOk then [r.leaseId] else []
  | _ => []

/-- A lease the authority may register: new, and attenuated from its parent. -/
structure Issuable (a : CapabilityAuthority) (stop : StopEpochAuthority) (lease : CapabilityLease) : Prop where
  epoch : a.currentStopEpoch stop = .ok lease.stopEpoch
  new : a.leases.get? lease.leaseId = none
  unrevoked : lease.revokedAt = none
  delegated : lease.parentLeaseId = none ∨ ∃ key parent, a.leases.get? key = some parent ∧
    lease.parentLeaseId = some parent.leaseId ∧ Attenuates parent.toLeaseTerms lease.toLeaseTerms

def Registers (a : CapabilityAuthority) (stop : StopEpochAuthority) (lease : CapabilityLease)
    (after : CapabilityAuthority) : Prop :=
  a.Issuable stop lease ∧
    after = { a with leases := a.leases.set lease.leaseId lease, uses := a.uses.set lease.leaseId 0 }

def Same (a after : CapabilityAuthority) : Prop := after.leases = a.leases ∧ after.uses = a.uses

theorem delegatedLease_eq_ok {a : CapabilityAuthority} {stop : StopEpochAuthority} {r : IssueRequest}
    {window : Instant × Instant × Instant} {parent : Option CapabilityLease} {lease : CapabilityLease}
    (h : a.delegatedLease stop r window parent = .ok lease) :
    lease.revokedAt = none ∧ a.currentStopEpoch stop = .ok lease.stopEpoch ∧
      lease.parentLeaseId = parent.map (fun p => p.leaseId) ∧
      ∀ p ∈ parent, Attenuates p.toLeaseTerms lease.toLeaseTerms := by
  obtain ⟨stopEpoch, hstop, h⟩ := bind_eq_ok.1 h
  obtain ⟨created, hcreate, h⟩ := bind_eq_ok.1 h
  obtain ⟨-, hparent, hepoch, -, hrevoked⟩ := CapabilityLease.create_eq_ok hcreate
  cases parent with
  | none =>
    cases h
    exact ⟨hrevoked, by rw [hstop, hepoch], hparent, by simp⟩
  | some p =>
    obtain ⟨⟨⟩, hvalid, h⟩ := bind_eq_ok.1 h
    cases h
    refine ⟨hrevoked, by rw [hstop, hepoch], hparent, ?_⟩
    rintro q ⟨⟩
    exact validateDelegation_attenuates hvalid

theorem issueFrom_cases (a : CapabilityAuthority) (stop : StopEpochAuthority) (r : IssueRequest)
    (window : Instant × Instant × Instant) (parent : Option CapabilityLease)
    (hparent : ∀ p ∈ parent, ∃ key, a.leases.get? key = some p) :
    (a.issueFrom stop r window parent).2 = a ∧ (∃ e, (a.issueFrom stop r window parent).1 = .error e) ∨
      ∃ lease, (a.issueFrom stop r window parent).1 = .ok lease ∧
        a.Registers stop lease (a.issueFrom stop r window parent).2 := by
  unfold issueFrom
  cases hd : a.delegatedLease stop r window parent with
  | error e => exact Or.inl ⟨rfl, e, rfl⟩
  | ok lease =>
    dsimp only
    unfold register
    cases hnew : a.leases.get? lease.leaseId with
    | some l => exact Or.inl ⟨rfl, _, rfl⟩
    | none =>
      obtain ⟨hrevoked, hepoch, hid, hatt⟩ := delegatedLease_eq_ok hd
      refine Or.inr ⟨lease, rfl, ⟨hepoch, hnew, hrevoked, ?_⟩, rfl⟩
      cases parent with
      | none => exact Or.inl hid
      | some p =>
        obtain ⟨key, hkey⟩ := hparent p rfl
        exact Or.inr ⟨key, p, hkey, hid, hatt p rfl⟩

/-- An issue leaves the ledger alone but for the sweep of a delegation, or registers the lease it returns. -/
theorem issue_cases (a : CapabilityAuthority) (stop : StopEpochAuthority) (r : IssueRequest) :
    ∃ mid, (mid = a ∨ mid = (a.sweepSupersededLeases stop).2) ∧
      ((a.issue stop r).2 = mid ∧ (∃ e, (a.issue stop r).1 = .error e) ∨
        ∃ lease, (a.issue stop r).1 = .ok lease ∧ mid.Registers stop lease (a.issue stop r).2) := by
  unfold issue
  cases leaseWindow r with
  | error e => exact ⟨a, Or.inl rfl, Or.inl ⟨rfl, e, rfl⟩⟩
  | ok window =>
    dsimp only
    cases r.parentLeaseId with
    | none => exact ⟨a, Or.inl rfl, issueFrom_cases a stop r window none (by simp)⟩
    | some parentLeaseId =>
      dsimp only
      rcases a.sweepSupersededLeases stop with ⟨e | ⟨⟨⟩⟩, a'⟩
      · exact ⟨a', Or.inr rfl, Or.inl ⟨rfl, e, rfl⟩⟩
      · dsimp only
        cases hp : a'.authoritativeParent parentLeaseId window.2.1 with
        | error e => exact ⟨a', Or.inr rfl, Or.inl ⟨rfl, e, rfl⟩⟩
        | ok parent =>
          refine ⟨a', Or.inr rfl, issueFrom_cases a' stop r window (some parent) ?_⟩
          rintro q ⟨⟩
          refine ⟨parentLeaseId, ?_⟩
          unfold authoritativeParent at hp
          cases hl : a'.leases.get? parentLeaseId with
          | none => rw [hl] at hp; cases hp
          | some l =>
            rw [hl] at hp
            dsimp only at hp
            split_ifs at hp
            cases hp
            rfl

/-- The lease a successful authorization returns, and what was checked about it. -/
structure Authorized (a : CapabilityAuthority) (stop : StopEpochAuthority) (r : AuthorizeRequest) (t : Instant)
    (lease : CapabilityLease) (uses : ℕ) : Prop where
  instant : requireAware r.instant "at" = .ok t
  ledger : a.leases.get? r.leaseId = some lease
  current : a.requireCurrentStopEpoch stop lease = .ok ()
  allows : lease.Allows r.capability r.resource t r.subject
  ancestry : requireActiveAncestry a.leases t (a.leases.entries.length + 1) lease [] = .ok ()
  counted : a.uses.get? r.leaseId = some uses
  limit : ∀ m ∈ lease.maxUses, (uses : ℤ) < m

theorem authorizeSwept_eq_ok {a : CapabilityAuthority} {stop : StopEpochAuthority} {r : AuthorizeRequest} {t : Instant}
    {lease : CapabilityLease} {uses : ℕ} (ht : requireAware r.instant "at" = .ok t)
    (h : a.authorizeSwept stop r t = .ok (lease, uses)) : a.Authorized stop r t lease uses := by
  unfold authorizeSwept at h
  cases hl : a.leases.get? r.leaseId with
  | none => rw [hl] at h; cases h
  | some l =>
    rw [hl] at h
    obtain ⟨⟨⟩, hcurrent, h⟩ := bind_eq_ok.1 h
    split_ifs at h with hallows
    obtain ⟨⟨⟩, hancestry, h⟩ := bind_eq_ok.1 h
    obtain ⟨n, hn, h⟩ := bind_eq_ok.1 h
    split_ifs at h with hlimit
    cases h
    refine ⟨ht, hl, hcurrent, hallows, hancestry, subscript_eq_ok.1 hn, fun m hm => ?_⟩
    rw [Option.mem_def.mp hm] at hlimit
    simpa using hlimit

/-- An authorization sweeps the ledger and then checks; only a consumed use is written. -/
theorem authorize_cases (a : CapabilityAuthority) (stop : StopEpochAuthority) (r : AuthorizeRequest) :
    (∃ e, (a.authorize stop r).1 = .error e ∧
      ((a.authorize stop r).2 = a ∨ (a.authorize stop r).2 = (a.sweepSupersededLeases stop).2)) ∨
    ∃ t lease uses, (a.authorize stop r).1 = .ok lease ∧
      (a.sweepSupersededLeases stop).2.Authorized stop r t lease uses ∧
      (a.authorize stop r).2 = if r.consume then
        { (a.sweepSupersededLeases stop).2 with
          uses := (a.sweepSupersededLeases stop).2.uses.set r.leaseId (uses + 1) }
        else (a.sweepSupersededLeases stop).2 := by
  unfold authorize
  cases ht : requireAware r.instant "at" with
  | error e => exact Or.inl ⟨e, rfl, Or.inl rfl⟩
  | ok t =>
    dsimp only
    rcases hs : a.sweepSupersededLeases stop with ⟨_ | ⟨⟨⟩⟩, a'⟩
    · exact Or.inl ⟨_, rfl, Or.inr rfl⟩
    · dsimp only
      match hauth : a'.authorizeSwept stop r t with
      | .error e => exact Or.inl ⟨e, rfl, Or.inr rfl⟩
      | .ok (lease, uses) => exact Or.inr ⟨t, lease, uses, rfl, authorizeSwept_eq_ok ht hauth, rfl⟩

theorem revokeSwept_revised (a : CapabilityAuthority) (leaseId : PyStr) (instant : Instant) :
    Revised a.leases (a.revokeSwept leaseId instant).2.leases ∧ (a.revokeSwept leaseId instant).2.uses = a.uses := by
  unfold revokeSwept
  cases hl : subscript a.leases leaseId with
  | error e => exact ⟨Revised.refl _, rfl⟩
  | ok lease =>
    dsimp only
    split_ifs with hrevoked
    · exact ⟨Revised.refl _, rfl⟩
    · cases hr : lease.replaceRevokedAt instant with
      | error e => exact ⟨Revised.refl _, rfl⟩
      | ok revoked =>
        exact ⟨Revised.set (subscript_eq_ok.1 hl) (by simpa using hrevoked)
          (CapabilityLease.replaceRevokedAt_eq_ok hr).1, rfl⟩

theorem revoke_cases (a : CapabilityAuthority) (stop : StopEpochAuthority) (leaseId : PyStr) (instant : DateTime) :
    (∃ e, (a.revoke stop leaseId instant).1 = .error e ∧ ((a.revoke stop leaseId instant).2 = a ∨
      (a.revoke stop leaseId instant).2 = (a.sweepSupersededLeases stop).2)) ∨
    ∃ t, requireAware instant "at" = .ok t ∧
      a.revoke stop leaseId instant = (a.sweepSupersededLeases stop).2.revokeSwept leaseId t := by
  unfold revoke
  cases ht : requireAware instant "at" with
  | error e => exact Or.inl ⟨e, rfl, Or.inl rfl⟩
  | ok t =>
    dsimp only
    rcases a.sweepSupersededLeases stop with ⟨e | ⟨⟨⟩⟩, a'⟩
    · exact Or.inl ⟨e, rfl, Or.inr rfl⟩
    · exact Or.inr ⟨t, rfl, rfl⟩

/-- Every call revises the ledger, then registers one lease, counts one use or does no more. -/
theorem step_cases (a : CapabilityAuthority) (input : StopEpochAuthority × Call) :
    ∃ mid : CapabilityAuthority, Revised a.leases mid.leases ∧ mid.uses = a.uses ∧
      (mid.Same (a.step input) ∧ a.consumedUse input = [] ∨
        (∃ lease, mid.Registers input.1 lease (a.step input)) ∧ a.consumedUse input = [] ∨
        ∃ r t lease uses, mid.Authorized input.1 r t lease uses ∧ (a.step input).leases = mid.leases ∧
          (a.step input).uses = mid.uses.set r.leaseId (uses + 1) ∧ a.consumedUse input = [r.leaseId]) := by
  obtain ⟨stop, call⟩ := input
  obtain ⟨hrev, huses, -⟩ := a.sweep_revised stop
  cases call with
  | bindStopController controller =>
    refine ⟨a, Revised.refl _, rfl, Or.inl ⟨?_, rfl⟩⟩
    rw [step, bindStopController]
    split
    · exact ⟨rfl, rfl⟩
    · split_ifs <;> exact ⟨rfl, rfl⟩
  | issue r =>
    obtain ⟨mid, hmid, h⟩ := a.issue_cases stop r
    have hm : Revised a.leases mid.leases ∧ mid.uses = a.uses := by
      rcases hmid with rfl | rfl
      · exact ⟨Revised.refl _, rfl⟩
      · exact ⟨hrev, huses⟩
    refine ⟨mid, hm.1, hm.2, ?_⟩
    rw [step]
    rcases h with ⟨h, -⟩ | ⟨lease, -, h⟩
    · exact Or.inl ⟨⟨by rw [h], by rw [h]⟩, rfl⟩
    · exact Or.inr (Or.inl ⟨⟨lease, h⟩, rfl⟩)
  | get leaseId =>
    refine ⟨(a.sweepSupersededLeases stop).2, hrev, huses, Or.inl ⟨?_, rfl⟩⟩
    rw [step, get]
    rcases a.sweepSupersededLeases stop with ⟨_ | _, a'⟩ <;> exact ⟨rfl, rfl⟩
  | revoke leaseId instant =>
    rcases a.revoke_cases stop leaseId instant with ⟨e, -, h | h⟩ | ⟨t, -, h⟩
    · exact ⟨a, Revised.refl _, rfl, Or.inl ⟨⟨by rw [step, h], by rw [step, h]⟩, rfl⟩⟩
    · exact ⟨(a.sweepSupersededLeases stop).2, hrev, huses, Or.inl ⟨⟨by rw [step, h], by rw [step, h]⟩, rfl⟩⟩
    · obtain ⟨hrev', huses'⟩ := (a.sweepSupersededLeases stop).2.revokeSwept_revised leaseId t
      exact ⟨_, hrev.trans hrev', huses'.trans huses, Or.inl ⟨⟨by rw [step, h], by rw [step, h]⟩, rfl⟩⟩
  | authorize r =>
    rcases a.authorize_cases stop r with ⟨e, he, h⟩ | ⟨t, lease, uses, hok, hauth, h⟩
    · have hnone : a.consumedUse (stop, .authorize r) = [] := by
        rw [consumedUse, he]
        exact if_neg fun hc => Bool.false_ne_true hc.2
      rcases h with h | h
      · exact ⟨a, Revised.refl _, rfl, Or.inl ⟨⟨by rw [step, h], by rw [step, h]⟩, hnone⟩⟩
      · exact ⟨(a.sweepSupersededLeases stop).2, hrev, huses, Or.inl ⟨⟨by rw [step, h], by rw [step, h]⟩, hnone⟩⟩
    · refine ⟨(a.sweepSupersededLeases stop).2, hrev, huses, ?_⟩
      cases hconsume : r.consume with
      | false =>
        rw [hconsume] at h
        refine Or.inl ⟨⟨by rw [step, h]; rfl, by rw [step, h]; rfl⟩, ?_⟩
        rw [consumedUse, hconsume]
        exact if_neg fun hc => Bool.false_ne_true hc.1
      | true =>
        rw [hconsume] at h
        refine Or.inr (Or.inr ⟨r, t, lease, uses, hauth, by rw [step, h]; rfl, by rw [step, h]; rfl, ?_⟩)
        rw [consumedUse, hok]
        exact if_pos ⟨hconsume, rfl⟩

def SameLedger (a after : CapabilityAuthority) : Prop :=
  after.leases = a.leases ∧ after.stop = a.stop ∧ after.boundEpoch = a.boundEpoch ∧ after.sweptEpoch = a.sweptEpoch

/-- On a bound authority every call works on the ledger as it is or as the sweep leaves it. -/
theorem bound_step_cases (a : CapabilityAuthority) (stop : StopEpochAuthority) (call : Call)
    (hb : a.stop.isNone = false) :
    ∃ mid, (mid = a ∨ mid = (a.sweepSupersededLeases stop).2) ∧
      (mid.SameLedger (a.step (stop, call)) ∨ (∃ lease, mid.Registers stop lease (a.step (stop, call))) ∨
        ∃ id t, mid = (a.sweepSupersededLeases stop).2 ∧ a.step (stop, call) = (mid.revokeSwept id t).2) := by
  cases call with
  | bindStopController controller =>
    refine ⟨a, Or.inl rfl, Or.inl ?_⟩
    rw [step, bindStopController]
    cases hstop : a.stop with
    | none => rw [hstop] at hb; cases hb
    | some bound =>
      dsimp only
      split_ifs <;> exact ⟨rfl, by rw [hstop], rfl, rfl⟩
  | issue r =>
    obtain ⟨mid, hmid, h⟩ := a.issue_cases stop r
    refine ⟨mid, hmid, ?_⟩
    rw [step]
    rcases h with ⟨h, -⟩ | ⟨lease, -, h⟩
    · rw [h]
      exact Or.inl ⟨rfl, rfl, rfl, rfl⟩
    · exact Or.inr (Or.inl ⟨lease, h⟩)
  | get leaseId =>
    refine ⟨_, Or.inr rfl, Or.inl ?_⟩
    rw [step, get]
    rcases a.sweepSupersededLeases stop with ⟨_ | _, a'⟩ <;> exact ⟨rfl, rfl, rfl, rfl⟩
  | revoke leaseId instant =>
    rw [step]
    rcases a.revoke_cases stop leaseId instant with ⟨e, -, h | h⟩ | ⟨t, -, h⟩
    · rw [h]
      exact ⟨a, Or.inl rfl, Or.inl ⟨rfl, rfl, rfl, rfl⟩⟩
    · rw [h]
      exact ⟨_, Or.inr rfl, Or.inl ⟨rfl, rfl, rfl, rfl⟩⟩
    · rw [h]
      exact ⟨_, Or.inr rfl, Or.inr (Or.inr ⟨leaseId, t, rfl, rfl⟩)⟩
  | authorize r =>
    rw [step]
    rcases a.authorize_cases stop r with ⟨e, -, h | h⟩ | ⟨t, lease, uses, -, -, h⟩
    · rw [h]
      exact ⟨a, Or.inl rfl, Or.inl ⟨rfl, rfl, rfl, rfl⟩⟩
    · rw [h]
      exact ⟨_, Or.inr rfl, Or.inl ⟨rfl, rfl, rfl, rfl⟩⟩
    · rw [h]
      refine ⟨_, Or.inr rfl, Or.inl ?_⟩
      split_ifs <;> exact ⟨rfl, rfl, rfl, rfl⟩

/-! ## The ledger invariant -/

/-- Leases are kept under their own identifier, and every parent is in the ledger and covers its children. -/
structure WellDelegated (leases : Dict PyStr CapabilityLease) : Prop where
  keyed : ∀ {id l}, leases.get? id = some l → l.leaseId = id
  parent : ∀ {id l parentId}, leases.get? id = some l → l.parentLeaseId = some parentId →
    ∃ p, leases.get? parentId = some p ∧ Attenuates p.toLeaseTerms l.toLeaseTerms

theorem WellDelegated.revised {before after : Dict PyStr CapabilityLease} (h : WellDelegated before)
    (hr : Revised before after) : WellDelegated after := by
  constructor
  · intro id l hl
    obtain ⟨l', hl', hterms, -⟩ := hr.backward hl
    rw [hterms]
    exact h.keyed hl'
  · intro id l parentId hl hp
    obtain ⟨l', hl', hterms, -⟩ := hr.backward hl
    rw [hterms] at hp ⊢
    obtain ⟨p, hpl, hatt⟩ := h.parent hl' hp
    obtain ⟨p', hpl', hterms', -⟩ := hr.forward hpl
    exact ⟨p', hpl', by rw [hterms']; exact hatt⟩

theorem WellDelegated.registers {a after : CapabilityAuthority} {stop : StopEpochAuthority} {lease : CapabilityLease}
    (h : WellDelegated a.leases) (hr : a.Registers stop lease after) : WellDelegated after.leases := by
  obtain ⟨hi, rfl⟩ := hr
  -- an old lease keeps its place, since the new identifier was free
  have hold : ∀ {id l}, a.leases.get? id = some l → (a.leases.set lease.leaseId lease).get? id = some l := by
    intro id l hl
    have hne : lease.leaseId ≠ id := by
      rintro rfl
      rw [hi.new] at hl
      cases hl
    rw [Dict.get?_set_of_ne _ _ hne]
    exact hl
  have hcases : ∀ {id l}, (a.leases.set lease.leaseId lease).get? id = some l →
      (id = lease.leaseId ∧ l = lease) ∨ a.leases.get? id = some l := by
    intro id l hl
    rw [Dict.get?_set] at hl
    split_ifs at hl with he
    · exact Or.inl ⟨he.symm, (Option.some.inj hl).symm⟩
    · exact Or.inr hl
  constructor
  · intro id l hl
    rcases hcases hl with ⟨rfl, rfl⟩ | hl
    · rfl
    · exact h.keyed hl
  · intro id l parentId hl hp
    rcases hcases hl with ⟨rfl, rfl⟩ | hl
    · rcases hi.delegated with hnone | ⟨key, p, hkey, hid, hatt⟩
      · rw [hnone] at hp
        cases hp
      · rw [hid, h.keyed hkey] at hp
        cases hp
        exact ⟨p, hold hkey, hatt⟩
    · obtain ⟨p, hpl, hatt⟩ := h.parent hl hp
      exact ⟨p, hold hpl, hatt⟩

theorem wellDelegated_step (a : CapabilityAuthority) (input : StopEpochAuthority × Call)
    (h : WellDelegated a.leases) : WellDelegated (a.step input).leases := by
  obtain ⟨mid, hrev, -, ⟨hs, -⟩ | ⟨⟨lease, hr⟩, -⟩ | ⟨-, -, -, -, -, hl, -⟩⟩ := a.step_cases input
  · rw [hs.1]
    exact h.revised hrev
  · exact (h.revised hrev).registers hr
  · rw [hl]
    exact h.revised hrev

theorem wellDelegated_run {issuer : PyStr} {start : CapabilityAuthority} (hstart : create issuer = .ok start)
    (inputs : List (StopEpochAuthority × Call)) : WellDelegated (run step start inputs).leases := by
  refine @run_induction _ _ step (fun a => WellDelegated a.leases) wellDelegated_step _ ?_ inputs
  unfold create at hstart
  split_ifs at hstart
  cases hstart
  constructor <;> simp

end CapabilityAuthority
end OcorRuntime.Capabilities
