import Mathlib.Data.Finset.Sort
import OcorRuntime.Actions.GovernedEngine
import OcorRuntime.Foundations.Matching
import OcorRuntime.Safety.EmergencyStop

/-! The human gate (`c6/human_gate.py`): an action is approved when enough distinct humans
have signed it and every required role can be credited to a signatory of its own. What the
gate finds depends only on which signatures it is given. -/
namespace OcorRuntime.Actions
open Matching Safety
set_option autoImplicit false
set_option maxHeartbeats 250000

structure ApprovalPolicy where
  requiredRoles : Finset PyStr
  minimumSignatories : ℤ
  ttl : Duration
  excludedPrincipalId : Option PyStr
  quorum : 1 ≤ minimumSignatories
  lasting : 0 < ttl

structure GateSignature where
  actionId : PyStr
  principalId : PyStr
  role : PyStr
  scope : PyStr
  signedAt : DateTime
  aware : signedAt.Aware
  complete : actionId ≠ [] ∧ principalId ≠ [] ∧ role ≠ [] ∧ scope ≠ []

/-- What `validate` is asked besides the signatures. -/
structure GateRequest where
  actionId : PyStr
  proposerId : PyStr
  policy : ApprovalPolicy
  scope : PyStr

/-- `HumanGateError(reason_code, message)`. -/
def humanGateError (reasonCode message : String) (args : List ErrorArg) : PyError :=
  ⟨.humanGateError reasonCode, reasonCode ++ ": " ++ message, args⟩

/-- `Approval(...)` with `__post_init__`, of an approved action. -/
def approve (actionId approver : PyStr) (approvedAt : DateTime) : Except PyError Approval := do
  let ⟨aware⟩ ← require approvedAt.Aware ⟨.temporalGuardViolation, "approved_at must be timezone-aware", []⟩
  let ⟨named⟩ ← require (approver ≠ []) ⟨.valueError, "an Approval requires an approver", []⟩
  return ⟨actionId, approver, true, approvedAt, aware, named⟩

/-! ## The signatures that count -/

/-- `{proposer_id}`, with the excluded principal if there is one. -/
def GateRequest.excluded (q : GateRequest) : Finset PyStr :=
  match q.policy.excludedPrincipalId with
  | some principal => if principal = [] then {q.proposerId} else {q.proposerId, principal}
  | none => {q.proposerId}

/-- What the loop passes over a signature for, the time of signing apart. -/
def GateRequest.Standing (q : GateRequest) (identities : IdentityRegistry) (s : GateSignature) : Prop :=
  s.actionId = q.actionId ∧ s.principalId ∉ q.excluded ∧
    (∃ roles ∈ activeHumanRoles (identities.get? s.principalId), s.role ∈ roles) ∧ s.scope = q.scope

instance (q : GateRequest) (identities : IdentityRegistry) (s : GateSignature) : Decidable (q.Standing identities s) :=
  inferInstanceAs (Decidable (_ ∧ _ ∧ _ ∧ _))

/-- The signature is no later than now, and younger than the policy allows. -/
def GateRequest.Fresh (q : GateRequest) (instant : Instant) (s : GateSignature) : Prop :=
  0 ≤ instant - s.signedAt.instant ∧ instant - s.signedAt.instant < q.policy.ttl

instance (q : GateRequest) (instant : Instant) (s : GateSignature) : Decidable (q.Fresh instant s) :=
  inferInstanceAs (Decidable (_ ∧ _))

/-- `valid_principals` and `role_candidates`. -/
structure Tally where
  valid : Finset PyStr
  candidates : Dict PyStr (Finset PyStr)

theorem texts_trans : IsTrans PyStr (· ≤ ·) := inferInstance

theorem texts_antisymm : @Std.Antisymm PyStr (· ≤ ·) := inferInstance

theorem texts_total : @Std.Total PyStr (· ≤ ·) := inferInstance

attribute [local instance] texts_trans texts_antisymm texts_total

section Gate
variable (identities : IdentityRegistry) (q : GateRequest)

/-- One turn of the loop over the signatures. -/
def tally (instant : Instant) (t : Tally) (s : GateSignature) : Tally :=
  if q.Standing identities s ∧ q.Fresh instant s then
    { valid := insert s.principalId t.valid
      candidates :=
        if s.role ∈ q.policy.requiredRoles then
          t.candidates.set s.role (insert s.principalId ((t.candidates.get? s.role).getD ∅))
        else t.candidates }
  else t

def tallied (instant : Instant) (signatures : List GateSignature) : Tally :=
  signatures.foldl (tally identities q instant)
    ⟨∅, (q.policy.requiredRoles.sort (· ≤ ·)).foldl (fun table role => table.set role ∅) .empty⟩

/-- `sorted(role_candidates[role])`. -/
def Tally.sorted (t : Tally) (role : PyStr) : List PyStr := ((t.candidates.get? role).getD ∅).sort (· ≤ ·)

/-- `validate`, without a control check. -/
def validate (now : DateTime) (signatures : List GateSignature) : Except PyError Approval := do
  let instant ← requireAware now "trusted clock"
  let t := tallied identities q instant signatures
  refuseIf ((t.valid.card : ℤ) < q.policy.minimumSignatories)
    (humanGateError "QUORUM_NOT_MET" "%d distinct valid signatory(ies), %d required"
      [.int t.valid.card, .int q.policy.minimumSignatories])
  let roleByPrincipal := assignAll t.sorted (t.valid.card + 1) (q.policy.requiredRoles.sort (· ≤ ·))
  let missing := q.policy.requiredRoles.filter fun role => role ∉ roleByPrincipal.values
  refuseIf (missing ≠ ∅)
    (humanGateError "MISSING_REQUIRED_ROLE" "no distinct valid signatory for: %s" ((missing.sort (· ≤ ·)).map .text))
  approve q.actionId ((py ",").intercalate (t.valid.sort (· ≤ ·))) now

/-! ## What is tallied -/

/-- Somebody signed in the role, and the signature counts. -/
def Signed (fresh : GateSignature → Prop) (signatures : List GateSignature) (role principal : PyStr) : Prop :=
  ∃ s ∈ signatures, q.Standing identities s ∧ fresh s ∧ s.role = role ∧ s.principalId = principal

variable (instant : Instant)

/-- What holds of the tally after some of the signatures. -/
structure Tallies (signatures : List GateSignature) (t : Tally) : Prop where
  valid : ∀ p, p ∈ t.valid ↔ ∃ role, Signed identities q (q.Fresh instant) signatures role p
  candidates : ∀ role p, p ∈ (t.candidates.get? role).getD ∅ ↔
    role ∈ q.policy.requiredRoles ∧ Signed identities q (q.Fresh instant) signatures role p

variable {identities q instant}

theorem signed_append {fresh : GateSignature → Prop} {signatures : List GateSignature} {s : GateSignature}
    {role p : PyStr} : Signed identities q fresh (signatures ++ [s]) role p ↔
      Signed identities q fresh signatures role p ∨
        q.Standing identities s ∧ fresh s ∧ s.role = role ∧ s.principalId = p := by
  unfold Signed
  constructor
  · rintro ⟨x, hx, hrest⟩
    rcases List.mem_append.mp hx with hx | hx
    · exact .inl ⟨x, hx, hrest⟩
    · rw [List.mem_singleton.mp hx] at hrest
      exact .inr hrest
  · rintro (⟨x, hx, hrest⟩ | hrest)
    · exact ⟨x, List.mem_append_left _ hx, hrest⟩
    · exact ⟨s, List.mem_append_right _ (List.mem_singleton_self s), hrest⟩

theorem Tallies.step {signatures : List GateSignature} {t : Tally}
    (h : Tallies identities q instant signatures t) (s : GateSignature) :
    Tallies identities q instant (signatures ++ [s]) (tally identities q instant t s) := by
  unfold tally
  by_cases hs : q.Standing identities s ∧ q.Fresh instant s
  · rw [if_pos hs]
    constructor
    · intro p
      rw [Finset.mem_insert, h.valid]
      simp only [signed_append, exists_or, hs.1, hs.2, true_and, exists_eq_left']
      rw [or_comm, eq_comm]
    · intro role p
      dsimp only
      by_cases hrole : s.role ∈ q.policy.requiredRoles
      · rw [if_pos hrole, Dict.get?_set, signed_append]
        by_cases hsame : s.role = role
        · subst hsame
          rw [if_pos rfl, Option.getD_some, Finset.mem_insert, h.candidates]
          simp only [hrole, hs.1, hs.2, true_and, true_and]
          rw [or_comm, eq_comm]
        · rw [if_neg hsame, h.candidates]
          simp only [hsame, false_and, and_false, or_false]
      · rw [if_neg hrole, h.candidates, signed_append]
        refine and_congr_right fun hrequired => ?_
        have hne : s.role ≠ role := fun heq => hrole (heq ▸ hrequired)
        simp only [hne, false_and, and_false, or_false]
  · rw [if_neg hs]
    have hnone : ∀ role p, Signed identities q (q.Fresh instant) (signatures ++ [s]) role p ↔
        Signed identities q (q.Fresh instant) signatures role p := by
      intro role p
      rw [signed_append]
      refine or_iff_left ?_
      rintro ⟨hstanding, hfresh, -⟩
      exact hs ⟨hstanding, hfresh⟩
    constructor
    · intro p
      simp only [hnone]
      exact h.valid p
    · intro role p
      rw [hnone]
      exact h.candidates role p

theorem get?_emptySets (roles : List PyStr) {table : Dict PyStr (Finset PyStr)}
    (h : ∀ role, (table.get? role).getD ∅ = ∅) (role : PyStr) :
    ((roles.foldl (fun table role => table.set role ∅) table).get? role).getD ∅ = ∅ := by
  induction roles generalizing table with
  | nil => exact h role
  | cons first roles ih =>
    refine ih fun other => ?_
    rw [Dict.get?_set]
    split_ifs
    · rfl
    · exact h other

theorem tallies (signatures : List GateSignature) : Tallies identities q instant
    signatures (tallied identities q instant signatures) := by
  induction signatures using List.reverseRecOn with
  | nil =>
    have hnone : ∀ role p, ¬ Signed identities q (q.Fresh instant) [] role p := by
      rintro role p ⟨s, hs, -⟩
      exact absurd hs List.not_mem_nil
    refine ⟨fun p => ?_, fun role p => ?_⟩
    · simp only [hnone, exists_const, iff_false]
      exact Finset.notMem_empty p
    · simp only [hnone, and_false, iff_false]
      have hempty := get?_emptySets (q.policy.requiredRoles.sort (· ≤ ·)) (fun _ => rfl : ∀ role : PyStr,
        ((Dict.empty : Dict PyStr (Finset PyStr)).get? role).getD ∅ = ∅) role
      exact fun hmem => Finset.notMem_empty p (hempty ▸ hmem)
  | append_singleton signatures s ih =>
    rw [tallied, List.foldl_append]
    exact ih.step s

/-! ## What decides -/

variable (identities q)

/-- Enough distinct humans have signed, and every required role has a signatory of its own. -/
def Approvable (fresh : GateSignature → Prop) (signatures : List GateSignature) : Prop :=
  ∃ V : Finset PyStr, (∀ p, p ∈ V ↔ ∃ role, Signed identities q fresh signatures role p) ∧
    q.policy.minimumSignatories ≤ V.card ∧
    ∃ signatory : PyStr → PyStr,
      (∀ role ∈ q.policy.requiredRoles, Signed identities q fresh signatures role (signatory role)) ∧
      ∀ a ∈ q.policy.requiredRoles, ∀ b ∈ q.policy.requiredRoles, signatory a = signatory b → a = b

variable {identities q}

theorem Tallies.approvable {signatures : List GateSignature} {t : Tally}
    (h : Tallies identities q instant signatures t) :
    Approvable identities q (q.Fresh instant) signatures ↔
      q.policy.minimumSignatories ≤ t.valid.card ∧ Assignable t.sorted (q.policy.requiredRoles.sort (· ≤ ·)) := by
  have hsorted : ∀ role ∈ q.policy.requiredRoles, ∀ p, p ∈ t.sorted role ↔
      Signed identities q (q.Fresh instant) signatures role p := by
    intro role hrole p
    rw [Tally.sorted, Finset.mem_sort, h.candidates]
    exact and_iff_right hrole
  constructor
  · rintro ⟨V, hV, hquorum, signatory, hsigned, hsingle⟩
    have hvalid : t.valid = V := Finset.ext fun p => (h.valid p).trans (hV p).symm
    refine ⟨hvalid ▸ hquorum, signatory, fun role hrole => ?_, fun a ha b hb => ?_⟩
    · rw [Finset.mem_sort] at hrole
      exact (hsorted role hrole _).mpr (hsigned role hrole)
    · rw [Finset.mem_sort] at ha hb
      exact hsingle a ha b hb
  · rintro ⟨hquorum, signatory, hcandidate, hsingle⟩
    refine ⟨t.valid, h.valid, hquorum, signatory, fun role hrole => ?_, fun a ha b hb => ?_⟩
    · exact (hsorted role hrole _).mp (hcandidate role ((Finset.mem_sort _).mpr hrole))
    · exact hsingle a ((Finset.mem_sort _).mpr ha) b ((Finset.mem_sort _).mpr hb)

theorem missing_eq_empty {held : Dict PyStr PyStr} {required : Finset PyStr} :
    required.filter (fun role => role ∉ held.values) = ∅ ↔ ∀ role ∈ required.sort (· ≤ ·), Covers held role := by
  rw [Finset.filter_eq_empty_iff]
  refine forall_congr' fun role => ?_
  rw [Finset.mem_sort, not_not]
  refine imp_congr_right fun _ => ?_
  unfold Covers Dict.values
  rw [List.mem_map]
  constructor
  · rintro ⟨entry, hentry, rfl⟩
    exact ⟨entry.1, (held.mem_entries_iff _ _).mp hentry⟩
  · rintro ⟨p, hp⟩
    exact ⟨(p, role), (held.mem_entries_iff _ _).mpr hp, rfl⟩

theorem intercalate_ne_nil {separator first : PyStr} {rest : List PyStr} (h : first ≠ []) :
    separator.intercalate (first :: rest) ≠ [] := by
  cases rest with
  | nil => simpa [List.intercalate] using h
  | cons second rest => simp [List.intercalate, h]

theorem approve_returns {signatures : List GateSignature} {t : Tally} {now : DateTime} (hnow : now.Aware)
    (h : Tallies identities q instant signatures t) (hne : t.valid ≠ ∅) :
    ∃ approval, approve q.actionId ((py ",").intercalate (t.valid.sort (· ≤ ·))) now = .ok approval := by
  have happrover : (py ",").intercalate (t.valid.sort (· ≤ ·)) ≠ [] := by
    cases hsort : t.valid.sort (· ≤ ·) with
    | nil =>
      refine absurd (Finset.eq_empty_of_forall_notMem fun p hp => ?_) hne
      rw [← Finset.mem_sort (· ≤ ·), hsort] at hp
      exact List.not_mem_nil hp
    | cons first rest =>
      have hfirst : first ∈ t.valid := by
        rw [← Finset.mem_sort (· ≤ ·), hsort]
        exact List.mem_cons_self
      obtain ⟨role, s, -, -, -, -, rfl⟩ := (h.valid first).mp hfirst
      exact intercalate_ne_nil s.complete.2.1
  unfold approve require
  rw [dif_pos hnow, dif_pos happrover]
  exact ⟨_, rfl⟩

theorem exists_validate_eq_ok {now : DateTime} {signatures : List GateSignature} :
    (∃ approval, validate identities q now signatures = .ok approval) ↔
      now.Aware ∧ Approvable identities q (q.Fresh now.instant) signatures := by
  by_cases hnow : now.Aware
  · have h : Tallies identities q now.instant signatures (tallied identities q now.instant signatures) := tallies signatures
    have hwithin : ∀ role, ∀ p ∈ (tallied identities q now.instant signatures).sorted role,
        p ∈ (tallied identities q now.instant signatures).valid := by
      intro role p hp
      rw [Tally.sorted, Finset.mem_sort, h.candidates] at hp
      exact (h.valid p).mpr ⟨role, hp.2⟩
    have hassign := assignAll_covers hwithin (Nat.lt_succ_self _) (Finset.sort_nodup q.policy.requiredRoles (· ≤ ·))
    rw [h.approvable, ← hassign, ← missing_eq_empty]
    constructor
    · rintro ⟨approval, hrun⟩
      obtain ⟨_, hinstant, hrun⟩ := bind_eq_ok.1 hrun
      rw [← (requireAware_eq_ok.1 hinstant).2] at hrun
      obtain ⟨_, hquorum, hrun⟩ := bind_eq_ok.1 hrun
      obtain ⟨_, hmissing, -⟩ := bind_eq_ok.1 hrun
      rw [refuseIf_eq_ok] at hquorum hmissing
      exact ⟨hnow, not_lt.mp hquorum, not_not.mp hmissing⟩
    · rintro ⟨-, hquorum, hmissing⟩
      have hne : (tallied identities q now.instant signatures).valid ≠ ∅ := by
        intro hempty
        rw [hempty, Finset.card_empty, Nat.cast_zero] at hquorum
        have := q.policy.quorum
        omega
      obtain ⟨approval, happrove⟩ := approve_returns hnow h hne
      refine ⟨approval, ?_⟩
      refine bind_eq_ok.2 ⟨now.instant, requireAware_eq_ok.2 ⟨hnow, rfl⟩, ?_⟩
      refine bind_eq_ok.2 ⟨(), refuseIf_eq_ok.2 (not_lt.mpr hquorum), ?_⟩
      exact bind_eq_ok.2 ⟨(), refuseIf_eq_ok.2 (not_not.mpr hmissing), happrove⟩
  · constructor
    · rintro ⟨approval, hrun⟩
      obtain ⟨_, hinstant, -⟩ := bind_eq_ok.1 hrun
      exact absurd (requireAware_eq_ok.1 hinstant).1 hnow
    · exact fun h => absurd h.1 hnow

theorem validate_congr {signatures signatures' : List GateSignature} (hsame : ∀ s, s ∈ signatures' ↔ s ∈ signatures)
    (now : DateTime) : validate identities q now signatures' = validate identities q now signatures := by
  have hsigned : ∀ fresh role p, Signed identities q fresh signatures' role p ↔
      Signed identities q fresh signatures role p := by
    intro fresh role p
    unfold Signed
    simp only [hsame]
  unfold validate
  refine bind_congr fun instant => ?_
  have h : Tallies identities q instant signatures (tallied identities q instant signatures) := tallies signatures
  have h' : Tallies identities q instant signatures' (tallied identities q instant signatures') := tallies signatures'
  have hvalid : (tallied identities q instant signatures').valid = (tallied identities q instant signatures).valid := by
    ext p
    rw [h'.valid, h.valid]
    simp only [hsigned]
  have hsorted : (tallied identities q instant signatures').sorted = (tallied identities q instant signatures).sorted := by
    funext role
    refine congrArg (Finset.sort · (· ≤ ·)) (Finset.ext fun p => ?_)
    rw [h'.candidates, h.candidates, hsigned]
  dsimp only
  rw [hvalid, hsorted]

theorem Approvable.mono {fresh : GateSignature → Prop} {signatures more : List GateSignature}
    (h : Approvable identities q fresh signatures) (hmore : ∀ s ∈ signatures, s ∈ more) (W : Finset PyStr)
    (hW : ∀ p, p ∈ W ↔ ∃ role, Signed identities q fresh more role p) : Approvable identities q fresh more := by
  obtain ⟨V, hV, hquorum, signatory, hsigned, hsingle⟩ := h
  have hwiden : ∀ {role p}, Signed identities q fresh signatures role p → Signed identities q fresh more role p := by
    rintro role p ⟨s, hs, hrest⟩
    exact ⟨s, hmore s hs, hrest⟩
  have hsub : V ⊆ W := by
    intro p hp
    obtain ⟨role, hrole⟩ := (hV p).mp hp
    exact (hW p).mpr ⟨role, hwiden hrole⟩
  have hcard := Finset.card_le_card hsub
  exact ⟨W, hW, by omega, signatory, fun role hrole => hwiden (hsigned role hrole), hsingle⟩

end Gate

/-- **A human gate approves exactly when** enough distinct active humans, neither the proposer nor excluded, have
signed the action for the scope in a role they hold, each signature younger than the policy's time to live and none in
the future, and every required role can be credited to one of them who signed in it, to no one twice. The order and
the repetition of signatures are of no consequence, and further signatures never undo an approval. -/
theorem validate_decides (identities : IdentityRegistry) (q : GateRequest) (now : DateTime)
    (signatures : List GateSignature) :
    ((∃ approval, validate identities q now signatures = .ok approval) ↔
        now.Aware ∧ Approvable identities q (fun s =>
          now.instant - q.policy.ttl < s.signedAt.instant ∧ s.signedAt.instant ≤ now.instant) signatures) ∧
      (∀ signatures', (∀ s, s ∈ signatures' ↔ s ∈ signatures) →
        validate identities q now signatures' = validate identities q now signatures) ∧
      ∀ more, (∀ s ∈ signatures, s ∈ more) → (∃ approval, validate identities q now signatures = .ok approval) →
        ∃ approval, validate identities q now more = .ok approval := by
  have hwindow : (fun s : GateSignature => now.instant - q.policy.ttl < s.signedAt.instant ∧
      s.signedAt.instant ≤ now.instant) = q.Fresh now.instant := by
    funext s
    have hwindow : now.instant - q.policy.ttl < s.signedAt.instant ∧ s.signedAt.instant ≤ now.instant ↔
        0 ≤ now.instant - s.signedAt.instant ∧ now.instant - s.signedAt.instant < q.policy.ttl := by
      constructor <;> rintro ⟨h, h'⟩ <;> constructor <;> linarith
    exact propext hwindow
  rw [hwindow]
  refine ⟨exists_validate_eq_ok, fun signatures' hsame => validate_congr hsame now, fun more hmore happroved => ?_⟩
  obtain ⟨hnow, happrovable⟩ := exists_validate_eq_ok.1 happroved
  have htally : Tallies identities q now.instant more (tallied identities q now.instant more) := tallies more
  exact exists_validate_eq_ok.2 ⟨hnow, happrovable.mono hmore _ htally.valid⟩

/-! A signature exactly as old as the time to live does not count. -/

namespace LastMoment

def identities : IdentityRegistry :=
  Dict.empty.set (py "human:a") ⟨py "human:a", ((Dict.empty.set (py "principal_kind") (.str (py "HUMAN"))).set
    (py "status") (.str (py "ACTIVE"))).set (py "roles") (.str (py "RISK_OWNER"))⟩

def request : GateRequest where
  actionId := py "action-1"
  proposerId := py "human:p"
  policy := ⟨{py "RISK_OWNER"}, 1, 3600000000, none, by decide, by decide⟩
  scope := py "scope:x"

def signature : GateSignature where
  actionId := py "action-1"
  principalId := py "human:a"
  role := py "RISK_OWNER"
  scope := py "scope:x"
  signedAt := .utc 0
  aware := trivial
  complete := by decide

end LastMoment

open LastMoment in
/-- Signed an hour ago under a policy of one hour: within the closed window, and refused. -/
theorem validate_refuses_at_ttl : ¬ ∀ (identities : IdentityRegistry) (q : GateRequest) (now : DateTime)
    (signatures : List GateSignature), (∃ approval, validate identities q now signatures = .ok approval) ↔
      now.Aware ∧ Approvable identities q (fun s =>
        now.instant - q.policy.ttl ≤ s.signedAt.instant ∧ s.signedAt.instant ≤ now.instant) signatures := by
  intro h
  have hstanding : request.Standing identities signature := by decide
  have hsigned : Signed identities request (fun s => (DateTime.utc 3600000000).instant - request.policy.ttl ≤
      s.signedAt.instant ∧ s.signedAt.instant ≤ (DateTime.utc 3600000000).instant) [signature] (py "RISK_OWNER")
      (py "human:a") := ⟨signature, List.mem_singleton_self _, hstanding, by decide, rfl, rfl⟩
  have happroved := (h identities request (.utc 3600000000) [signature]).mpr ⟨trivial, {py "human:a"}, fun p => ?_, ?_,
    fun _ => py "human:a", fun role hrole => ?_, fun a ha b hb _ => ?_⟩
  · obtain ⟨-, V, hV, hquorum, -⟩ := exists_validate_eq_ok.1 happroved
    have hempty : V = ∅ := by
      refine Finset.eq_empty_of_forall_notMem fun p hp => ?_
      obtain ⟨role, s, hs, -, hfresh, -⟩ := (hV p).mp hp
      rw [List.mem_singleton.mp hs] at hfresh
      exact absurd hfresh (by decide)
    rw [hempty] at hquorum
    exact absurd hquorum (by decide)
  · rw [Finset.mem_singleton]
    constructor
    · rintro rfl
      exact ⟨_, hsigned⟩
    · rintro ⟨role, s, hs, -, -, -, rfl⟩
      rw [List.mem_singleton.mp hs]
      rfl
  · exact le_refl 1
  · rw [Finset.mem_singleton.mp hrole]
    exact hsigned
  · rw [Finset.mem_singleton.mp ha, Finset.mem_singleton.mp hb]

end OcorRuntime.Actions
