import OcorRuntime.Capabilities.Ledger
import OcorRuntime.Safety.EmergencyStop

/-! An emergency-stop controller and a capability authority bound to it from the
start, taking any interleaving of their calls. A lease carries the epoch it was
issued in, so no accepted stop lies between the issue and a successful authorization;
and the sweep dates the revocation of superseded leases by the stop that superseded
them, as long as none of them already carried a later one. -/
namespace OcorRuntime.Safety
open Capabilities
set_option autoImplicit false
set_option maxHeartbeats 250000

structure System where
  controller : EmergencyStopController
  authority : CapabilityAuthority

namespace System

def create (issuer : PyStr) : Except PyError System := do
  let authority ← CapabilityAuthority.createBound issuer 0 EmergencyStopController.create.view
  return ⟨.create, authority⟩

inductive Call
  | stop (call : EmergencyStopController.Call)
  | authority (call : CapabilityAuthority.Call)

def step (s : System) : Call → System
  | .stop call => { s with controller := (s.controller.apply call).2 }
  | .authority call => { s with authority := s.authority.step (s.controller.view, call) }

def acceptedStop (s : System) : Call → List StopEvent
  | .stop (.activate reason instant) =>
    match (s.controller.activate reason instant).1 with
    | .ok event => [event]
    | .error _ => []
  | _ => []

/-- The stop event that superseded an epoch. -/
def superseding (s : System) (epoch : ℤ) : Option StopEvent :=
  s.controller.history.find? fun event => epoch < (event.epoch : ℤ)

/-! ## The controller -/

/-- The epoch only moves on, and the history reaches it. -/
structure Recorded (c : EmergencyStopController) : Prop where
  within : ∀ event ∈ c.history, event.epoch ≤ c.epoch
  reached : c.epoch = 0 ∨ ∃ event ∈ c.history, event.epoch = c.epoch

theorem Recorded.accepted {c after : EmergencyStopController} {call : EmergencyStopController.Call} {event : StopEvent}
    (h : Recorded c) (ha : c.Accepted call event after) :
    Recorded after ∧ c.epoch ≤ after.epoch ∧ after.history = c.history ++ [event] ∧ event.epoch = after.epoch := by
  cases ha with
  | activated ht hs =>
    refine ⟨⟨?_, Or.inr ⟨_, List.mem_append_right _ (List.mem_singleton_self _), rfl⟩⟩, Nat.le_succ _, rfl, rfl⟩
    intro e he
    rcases List.mem_append.mp he with he | he
    · exact Nat.le_succ_of_le (h.within e he)
    · rw [List.mem_singleton.mp he]
  | within hc hs he ht =>
    refine ⟨⟨?_, Or.inr ⟨event, List.mem_append_right _ (List.mem_singleton_self _), he⟩⟩, le_refl _, rfl, he⟩
    intro e hm
    rcases List.mem_append.mp hm with hm | hm
    · exact h.within e hm
    · rw [List.mem_singleton.mp hm, he]
  | reset hs he =>
    refine ⟨⟨?_, Or.inr ⟨event, List.mem_append_right _ (List.mem_singleton_self _), he⟩⟩, Nat.le_succ _, rfl, he⟩
    intro e hm
    rcases List.mem_append.mp hm with hm | hm
    · exact Nat.le_succ_of_le (h.within e hm)
    · rw [List.mem_singleton.mp hm, he]

theorem superseding_isSome {s : System} (h : Recorded s.controller) {epoch : ℤ} (h0 : 0 ≤ epoch)
    (hlt : epoch < s.controller.epoch) : ∃ event, s.superseding epoch = some event := by
  rcases h.reached with hz | ⟨event, hm, he⟩
  · rw [hz] at hlt
    simp only [Nat.cast_zero] at hlt
    omega
  · have : (s.superseding epoch).isSome := by
      rw [superseding, List.find?_isSome]
      exact ⟨event, hm, by rw [he]; simpa using hlt⟩
    exact Option.isSome_iff_exists.mp this

theorem superseding_eq_none {s : System} (h : Recorded s.controller) {epoch : ℤ} (hle : s.controller.epoch ≤ epoch) :
    s.superseding epoch = none := by
  rw [superseding, List.find?_eq_none]
  intro event hm
  have := h.within event hm
  simp only [decide_eq_true_eq, not_lt]
  omega

/-! ## Fencing -/

/-- Every lease of the ledger is bound to an epoch the controller has reached, and to an earlier one while a stop
is in force. -/
structure Fenced (s : System) : Prop where
  recorded : Recorded s.controller
  bound : s.authority.stop.isNone = false
  epochs : ∀ {id l}, s.authority.leases.get? id = some l →
    ∃ e, l.stopEpoch = some e ∧ e ≤ s.controller.epoch ∧ (s.controller.status ≠ .normal → e < s.controller.epoch)

theorem guardDispatch_eq_ok {c : EmergencyStopController} {epoch : ℤ} (h : c.guardDispatch epoch = .ok ()) :
    c.status = .normal ∧ epoch = c.epoch := by
  unfold EmergencyStopController.guardDispatch at h
  split_ifs at h with h1 h2
  exact ⟨not_not.mp h1, not_not.mp h2⟩

theorem wrapStopError_eq_ok {cls : ErrorClass} {text : String} {outcome : Except PyError Unit}
    (h : CapabilityAuthority.wrapStopError cls text outcome = .ok ()) : outcome = .ok () := by
  unfold CapabilityAuthority.wrapStopError at h
  match outcome with
  | .ok () => rfl
  | .error e =>
    dsimp only at h
    split_ifs at h

theorem currentStopEpoch_eq_ok {a : CapabilityAuthority} {c : EmergencyStopController} {epoch : Option ℤ}
    (hb : a.stop.isNone = false) (h : a.currentStopEpoch c.view = .ok epoch) :
    c.status = .normal ∧ epoch = some (c.epoch : ℤ) := by
  unfold CapabilityAuthority.currentStopEpoch at h
  rw [if_neg (by rw [hb]; simp)] at h
  obtain ⟨⟨⟩, hguard, h⟩ := bind_eq_ok.1 h
  cases h
  exact ⟨(guardDispatch_eq_ok (wrapStopError_eq_ok hguard)).1, rfl⟩

/-! ## Leases keep their epoch -/

theorem Fenced.sweep {s : System} (h : s.Fenced) :
    Fenced { s with authority := (s.authority.sweepSupersededLeases s.controller.view).2 } := by
  obtain ⟨hrev, -, hstop⟩ := s.authority.sweep_revised s.controller.view
  refine ⟨h.recorded, by dsimp only; rw [hstop]; exact h.bound, fun hl => ?_⟩
  obtain ⟨l, hl', hterms, -⟩ := hrev.backward hl
  rw [hterms]
  exact h.epochs hl'

theorem Fenced.sameLedger {s : System} {after : CapabilityAuthority} (h : s.Fenced) (hs : s.authority.SameLedger after) :
    Fenced { s with authority := after } := by
  refine ⟨h.recorded, by dsimp only; rw [hs.2.1]; exact h.bound, fun hl => ?_⟩
  dsimp only at hl
  rw [hs.1] at hl
  exact h.epochs hl

theorem Fenced.registers {s : System} {after : CapabilityAuthority} {lease : CapabilityLease} (h : s.Fenced)
    (hr : s.authority.Registers s.controller.view lease after) : Fenced { s with authority := after } := by
  obtain ⟨hi, rfl⟩ := hr
  refine ⟨h.recorded, h.bound, fun {id l} hl => ?_⟩
  dsimp only at hl ⊢
  rw [Dict.get?_set] at hl
  split_ifs at hl with he
  · cases hl
    obtain ⟨hnormal, hepoch⟩ := currentStopEpoch_eq_ok h.bound hi.epoch
    exact ⟨_, hepoch, le_refl _, fun hne => absurd hnormal hne⟩
  · exact h.epochs hl

theorem revokeSwept_stop (a : CapabilityAuthority) (id : PyStr) (t : Instant) :
    (a.revokeSwept id t).2.stop = a.stop ∧ (a.revokeSwept id t).2.sweptEpoch = a.sweptEpoch := by
  unfold CapabilityAuthority.revokeSwept
  cases subscript a.leases id with
  | error e => exact ⟨rfl, rfl⟩
  | ok lease =>
    dsimp only
    split_ifs
    · exact ⟨rfl, rfl⟩
    · cases lease.replaceRevokedAt t <;> exact ⟨rfl, rfl⟩

theorem Fenced.revokeSwept {s : System} (h : s.Fenced) (id : PyStr) (t : Instant) :
    Fenced { s with authority := (s.authority.revokeSwept id t).2 } := by
  obtain ⟨hrev, -⟩ := s.authority.revokeSwept_revised id t
  refine ⟨h.recorded, by dsimp only; rw [(revokeSwept_stop _ _ _).1]; exact h.bound, fun hl => ?_⟩
  obtain ⟨l, hl', hterms, -⟩ := hrev.backward hl
  rw [hterms]
  exact h.epochs hl'

theorem Fenced.stop {s : System} {call : EmergencyStopController.Call} (h : s.Fenced) : (s.step (.stop call)).Fenced := by
  rcases s.controller.apply_cases call with ⟨-, hc⟩ | ⟨event, -, ha⟩
  · rw [step, hc]
    exact h
  · obtain ⟨hr, hle, -, -⟩ := h.recorded.accepted ha
    refine ⟨hr, h.bound, fun hl => ?_⟩
    obtain ⟨e, he, hebound, hlt⟩ := h.epochs hl
    refine ⟨e, he, by simp only [step]; omega, ?_⟩
    intro hne
    rcases ha.epoch_cases with ⟨-, -, hnew⟩ | ⟨hs, -, hsame | ⟨-, hnormal⟩⟩
    · simp only [step, hnew]
      omega
    · simp only [step, hsame]
      exact hlt hs
    · exact absurd hnormal hne

theorem fenced_step (s : System) (call : Call) (h : s.Fenced) : (s.step call).Fenced := by
  cases call with
  | stop call => exact h.stop
  | authority call =>
    obtain ⟨mid, hmid, hcases⟩ := s.authority.bound_step_cases s.controller.view call h.bound
    have hm : Fenced { s with authority := mid } := by
      rcases hmid with rfl | rfl
      · exact h
      · exact h.sweep
    rw [step]
    rcases hcases with hs | ⟨lease, hr⟩ | ⟨id, t, -, hr⟩
    · exact hm.sameLedger hs
    · exact hm.registers hr
    · rw [hr]
      exact hm.revokeSwept id t

theorem fenced_create {issuer : PyStr} {start : System} (h : create issuer = .ok start) :
    start.Fenced ∧ start.authority.leases = .empty ∧ start.authority.sweptEpoch = 0 ∧
      start.controller = EmergencyStopController.create := by
  obtain ⟨authority, ha, h⟩ := bind_eq_ok.1 h
  cases h
  obtain ⟨a, hc, ha⟩ := bind_eq_ok.1 ha
  unfold CapabilityAuthority.create at hc
  split_ifs at hc
  cases hc
  cases ha
  refine ⟨⟨⟨by simp [EmergencyStopController.create], Or.inl rfl⟩, rfl, by simp⟩, rfl, rfl, rfl⟩

/-! ## The sweep dates revocations -/

/-- Superseded leases are revoked no later than their stop, all of them once the ledger is swept. -/
structure Dated (s : System) : Prop where
  dated : ∀ {id l e event r}, s.authority.leases.get? id = some l → l.stopEpoch = some e →
    s.superseding e = some event → l.revokedAt = some r → r ≤ max event.instant l.issuedAt
  swept : s.authority.sweptEpoch = s.controller.epoch → ∀ {id l e}, s.authority.leases.get? id = some l →
    l.stopEpoch = some e → e < s.controller.epoch → l.revokedAt.isSome
  swept_le : s.authority.sweptEpoch ≤ s.controller.epoch

theorem supersededAt_view {s : System} {boundEpoch e : ℤ} {l : CapabilityLease} (he : l.stopEpoch = some e)
    (hr : l.revokedAt = none) (hne : e ≠ s.controller.epoch) :
    CapabilityAuthority.supersededAt boundEpoch s.controller.view l =
      .ok ((s.superseding e).map fun event => max event.instant l.issuedAt) := by
  have hfind : s.controller.view.history.find? (fun event => e < event.epoch) =
      (s.superseding e).map fun event => ⟨event.epoch, .utc event.instant⟩ := by
    rw [superseding, EmergencyStopController.view, List.find?_map]
    rfl
  unfold CapabilityAuthority.supersededAt
  rw [if_neg (by rw [hr]; simp)]
  simp only [he, Option.getD_some]
  rw [if_neg (by exact hne), hfind]
  cases s.superseding e with
  | none => rfl
  | some event => simp [bind, Except.bind, pure, Except.pure]

theorem Fenced.supersededAt_ok {s : System} (h : s.Fenced) {id : PyStr} {l : CapabilityLease}
    (hl : s.authority.leases.get? id = some l) : ∃ o,
      CapabilityAuthority.supersededAt s.authority.boundEpoch s.controller.view l = .ok o ∧ ∀ t ∈ o, l.issuedAt ≤ t := by
  obtain ⟨e, he, -, -⟩ := h.epochs hl
  by_cases hr : l.revokedAt = none
  · by_cases hne : e = s.controller.epoch
    · refine ⟨none, ?_, by simp⟩
      unfold CapabilityAuthority.supersededAt
      rw [if_neg (by rw [hr]; simp)]
      simp only [he, Option.getD_some]
      exact if_pos hne
    · refine ⟨_, supersededAt_view he hr hne, fun t ht => ?_⟩
      obtain ⟨event, -, rfl⟩ := Option.mem_map.mp ht
      exact le_max_right _ _
  · refine ⟨none, ?_, by simp⟩
    unfold CapabilityAuthority.supersededAt
    exact if_pos (Option.isSome_iff_ne_none.mpr hr)

theorem Fenced.sweep_ok {s : System} (h : s.Fenced) :
    (s.authority.sweepSupersededLeases s.controller.view).1 = .ok () ∧
      (s.authority.sweepSupersededLeases s.controller.view).2.sweptEpoch = s.controller.epoch := by
  have hok := CapabilityAuthority.sweepEntries_ok s.authority.boundEpoch s.controller.view s.authority.leases.entries
    s.authority.leases fun e he => h.supersededAt_ok ((s.authority.leases.mem_entries_iff e.1 e.2).mp he)
  unfold CapabilityAuthority.sweepSupersededLeases
  split_ifs with hskip
  · rw [h.bound] at hskip
    exact ⟨rfl, (hskip.resolve_left Bool.false_ne_true).symm⟩
  · revert hok
    rcases CapabilityAuthority.sweepEntries s.authority.boundEpoch s.controller.view s.authority.leases.entries
      s.authority.leases with ⟨_ | ⟨⟨⟩⟩, leases⟩
    · exact fun hok => nomatch hok
    · exact fun _ => ⟨rfl, rfl⟩

theorem Fenced.sweep_lease {s : System} (h : s.Fenced) (hd : s.Dated) {id : PyStr} {l' : CapabilityLease}
    (hl' : (s.authority.sweepSupersededLeases s.controller.view).2.leases.get? id = some l') :
    ∃ l e, s.authority.leases.get? id = some l ∧ l.stopEpoch = some e ∧ l'.toLeaseTerms = l.toLeaseTerms ∧
      (l'.revokedAt = l.revokedAt ∧ (e < s.controller.epoch → l.revokedAt.isSome) ∨
        ∃ event, s.superseding e = some event ∧ l'.revokedAt = some (max event.instant l.issuedAt)) := by
  obtain ⟨l, hl, hterms, -⟩ := (s.authority.sweep_revised s.controller.view).1.backward hl'
  obtain ⟨e, he, hele, -⟩ := h.epochs hl
  refine ⟨l, e, hl, he, hterms, ?_⟩
  unfold CapabilityAuthority.sweepSupersededLeases at hl'
  split_ifs at hl' with hskip
  · -- already swept at this epoch
    rw [h.bound] at hskip
    have hskip := hskip.resolve_left Bool.false_ne_true
    rw [hl] at hl'
    cases hl'
    exact Or.inl ⟨rfl, hd.swept hskip.symm hl he⟩
  · have hok := CapabilityAuthority.sweepEntries_ok s.authority.boundEpoch s.controller.view
      s.authority.leases.entries s.authority.leases
      fun e he => h.supersededAt_ok ((s.authority.leases.mem_entries_iff e.1 e.2).mp he)
    obtain ⟨swept, hs, hfrom⟩ := CapabilityAuthority.sweepEntries_swept s.authority.boundEpoch s.controller.view
      s.authority.leases.entries s.authority.leases s.authority.leases.nodup
      (fun e he => (s.authority.leases.mem_entries_iff e.1 e.2).mp he) hok (id, l)
      ((s.authority.leases.mem_entries_iff id l).mpr hl)
    have hget : (CapabilityAuthority.sweepEntries s.authority.boundEpoch s.controller.view s.authority.leases.entries
        s.authority.leases).2.get? id = some l' := by
      revert hl'
      rcases CapabilityAuthority.sweepEntries s.authority.boundEpoch s.controller.view s.authority.leases.entries
        s.authority.leases with ⟨_ | _, leases⟩ <;> exact fun hl' => hl'
    rw [hget] at hs
    cases hs
    by_cases hr : l.revokedAt = none
    · by_cases hne : e = s.controller.epoch
      · rcases hfrom with ⟨-, rfl⟩ | ⟨t, ht, -⟩
        · exact Or.inl ⟨rfl, fun hlt => absurd hlt (by omega)⟩
        · unfold CapabilityAuthority.supersededAt at ht
          rw [if_neg (by rw [hr]; simp)] at ht
          simp only [he, Option.getD_some] at ht
          rw [if_pos (by exact hne)] at ht
          cases ht
      · obtain ⟨event, hevent⟩ := superseding_isSome h.recorded (l.epoch_nonneg e he) (lt_of_le_of_ne hele hne)
        rcases hfrom with ⟨hn, -⟩ | ⟨t, ht, hrep⟩
        · rw [supersededAt_view he hr hne, hevent] at hn
          cases hn
        · rw [supersededAt_view he hr hne, hevent] at ht
          cases ht
          exact Or.inr ⟨event, hevent, (CapabilityLease.replaceRevokedAt_eq_ok hrep).2⟩
    · rcases hfrom with ⟨-, rfl⟩ | ⟨t, ht, -⟩
      · exact Or.inl ⟨rfl, fun _ => Option.isSome_iff_ne_none.mpr hr⟩
      · exact absurd (CapabilityAuthority.supersededAt_some ht) hr

theorem Dated.sweep {s : System} (h : s.Fenced) (hd : s.Dated) :
    Dated { s with authority := (s.authority.sweepSupersededLeases s.controller.view).2 } := by
  refine ⟨?_, ?_, le_of_eq h.sweep_ok.2⟩
  · intro id l' e event r hl' he hevent hr
    obtain ⟨l, e', hl, he', hterms, hcases⟩ := h.sweep_lease hd hl'
    rw [hterms] at he ⊢
    obtain rfl : e' = e := Option.some.inj (he'.symm.trans he)
    rcases hcases with ⟨hsame, -⟩ | ⟨event', hevent', hr'⟩
    · rw [hsame] at hr
      exact hd.dated hl he' hevent hr
    · have hee : event' = event := Option.some.inj (hevent'.symm.trans hevent)
      rw [hr'] at hr
      cases hr
      rw [hee]
  · intro _ id l' e hl' he hlt
    obtain ⟨l, e', hl, he', hterms, hcases⟩ := h.sweep_lease hd hl'
    rw [hterms] at he
    obtain rfl : e' = e := Option.some.inj (he'.symm.trans he)
    rcases hcases with ⟨hsame, hsome⟩ | ⟨event', -, hr'⟩
    · rw [hsame]
      exact hsome hlt
    · rw [hr']
      rfl

theorem Dated.sameLedger {s : System} {after : CapabilityAuthority} (hd : s.Dated) (hs : s.authority.SameLedger after) :
    Dated { s with authority := after } := by
  refine ⟨?_, ?_, by dsimp only; rw [hs.2.2.2]; exact hd.swept_le⟩
  · dsimp only [superseding]
    rw [hs.1]
    exact hd.dated
  · dsimp only
    rw [hs.1, hs.2.2.2]
    exact hd.swept

theorem Dated.registers {s : System} {after : CapabilityAuthority} {lease : CapabilityLease} (h : s.Fenced)
    (hd : s.Dated) (hr : s.authority.Registers s.controller.view lease after) : Dated { s with authority := after } := by
  obtain ⟨hi, rfl⟩ := hr
  have hepoch := (currentStopEpoch_eq_ok h.bound hi.epoch).2
  refine ⟨?_, ?_, hd.swept_le⟩
  · intro id l e event r hl he hevent hr
    dsimp only at hl
    rw [Dict.get?_set] at hl
    split_ifs at hl
    · cases hl
      rw [hi.unrevoked] at hr
      cases hr
    · exact hd.dated hl he hevent hr
  · intro hswept id l e hl he hlt
    dsimp only at hl
    rw [Dict.get?_set] at hl
    split_ifs at hl
    · cases hl
      rw [hepoch] at he
      cases he
      exact absurd hlt (lt_irrefl _)
    · exact hd.swept hswept hl he hlt

theorem Dated.revokeSwept {s : System} (h : s.Fenced) (hd : s.Dated)
    (hswept : s.authority.sweptEpoch = s.controller.epoch) (id : PyStr) (t : Instant) :
    Dated { s with authority := (s.authority.revokeSwept id t).2 } := by
  have hrev := (s.authority.revokeSwept_revised id t).1
  have hsome : ∀ {j l l'}, s.authority.leases.get? j = some l →
      (s.authority.revokeSwept id t).2.leases.get? j = some l' → l.revokedAt.isSome → l'.revokedAt = l.revokedAt := by
    intro j l l' hl hl' hs
    obtain ⟨l'', hl'', -, hkept⟩ := hrev.forward hl
    rw [hl'] at hl''
    cases hl''
    obtain ⟨r, hr⟩ := Option.isSome_iff_exists.mp hs
    rw [hr, hkept r hr]
  refine ⟨?_, ?_, by dsimp only; rw [(revokeSwept_stop _ _ _).2]; exact hd.swept_le⟩
  · intro j l' e event r hl' he hevent hr
    obtain ⟨l, hl, hterms, -⟩ := hrev.backward hl'
    rw [hterms] at he ⊢
    have hlt : e < s.controller.epoch := by
      by_contra hge
      have hnone : s.superseding e = none := superseding_eq_none h.recorded (not_lt.mp hge)
      cases hnone.symm.trans hevent
    rw [hsome hl hl' (hd.swept hswept hl he hlt)] at hr
    exact hd.dated hl he hevent hr
  · intro _ j l' e hl' he hlt
    obtain ⟨l, hl, hterms, -⟩ := hrev.backward hl'
    rw [hterms] at he
    have hs := hd.swept hswept hl he hlt
    rw [hsome hl hl' hs]
    exact hs

/-- A stop is prompt when no lease of the epoch it ends carries a revocation dated after it. -/
def Prompt (s : System) : Call → Prop
  | .stop (.activate reason instant) => ∀ event, (s.controller.activate reason instant).1 = .ok event →
      ∀ id l r, s.authority.leases.get? id = some l → l.stopEpoch = some (s.controller.epoch : ℤ) →
        l.revokedAt = some r → r ≤ max event.instant l.issuedAt
  | _ => True

theorem Dated.stop {s : System} {call : EmergencyStopController.Call} (h : s.Fenced) (hd : s.Dated)
    (hp : s.Prompt (.stop call)) : (s.step (.stop call)).Dated := by
  rcases s.controller.apply_cases call with ⟨-, hc⟩ | ⟨event, hev, ha⟩
  · rw [step, hc]
    exact hd
  · obtain ⟨hr, hle, hhist, hepoch⟩ := h.recorded.accepted ha
    -- the history grows at its end, so an epoch already superseded stays superseded by the same event
    have hfind : ∀ {e event'}, (s.step (.stop call)).superseding e = some event' →
        s.superseding e = some event' ∨ s.superseding e = none ∧ event' = event := by
      intro e event' he
      rw [superseding, step] at he
      dsimp only at he
      rw [hhist, List.find?_append] at he
      cases hs : s.controller.history.find? fun x => e < (x.epoch : ℤ) with
      | some x =>
        rw [hs] at he
        exact Or.inl (hs.trans he)
      | none =>
        rw [hs] at he
        refine Or.inr ⟨hs, ?_⟩
        have := List.mem_of_find?_eq_some he
        exact List.mem_singleton.mp this
    refine ⟨?_, ?_, ?_⟩
    · intro id l e event' r hl he hevent hrv
      rcases hfind hevent with hold | ⟨hnone, rfl⟩
      · exact hd.dated hl he hold hrv
      · obtain ⟨e', he', hele, hlt⟩ := h.epochs hl
        obtain rfl : e' = e := Option.some.inj (he'.symm.trans he)
        have hge : ¬ e' < s.controller.epoch := by
          intro hlt'
          obtain ⟨x, hx⟩ := superseding_isSome h.recorded (l.epoch_nonneg e' he) hlt'
          rw [hnone] at hx
          cases hx
        rcases ha.epoch_cases with ⟨-, ⟨reason, instant, rfl⟩, -⟩ | ⟨hs, -⟩
        · exact hp _ hev id l r hl (by rw [he]; congr 1; omega) hrv
        · exact absurd (hlt hs) hge
    · intro hswept id l e hl he hlt
      have hsl := hd.swept_le
      simp only [step] at hswept hlt hl
      obtain ⟨e', he', hele, hlt'⟩ := h.epochs hl
      obtain rfl : e' = e := Option.some.inj (he'.symm.trans he)
      rcases ha.epoch_cases with ⟨-, -, hnew⟩ | ⟨-, -, hsame | ⟨hnew, -⟩⟩
      · omega
      · rw [hsame] at hswept hlt
        exact hd.swept hswept hl he hlt
      · omega
    · have := hd.swept_le
      simp only [step]
      omega

theorem dated_step (s : System) (call : Call) (h : s.Fenced ∧ s.Dated) (hp : s.Prompt call) :
    (s.step call).Fenced ∧ (s.step call).Dated := by
  refine ⟨fenced_step s call h.1, ?_⟩
  cases call with
  | stop call => exact h.2.stop h.1 hp
  | authority call =>
    obtain ⟨mid, hmid, hcases⟩ := s.authority.bound_step_cases s.controller.view call h.1.bound
    have hm : Fenced { s with authority := mid } ∧ Dated { s with authority := mid } := by
      rcases hmid with rfl | rfl
      · exact h
      · exact ⟨h.1.sweep, h.2.sweep h.1⟩
    rw [step]
    rcases hcases with hs | ⟨lease, hr⟩ | ⟨id, t, hsw, hr⟩
    · exact hm.2.sameLedger hs
    · exact Dated.registers (s := { s with authority := mid }) hm.1 hm.2 hr
    · rw [hr]
      refine Dated.revokeSwept (s := { s with authority := mid }) hm.1 hm.2 ?_ id t
      dsimp only
      rw [hsw]
      exact h.1.sweep_ok.2

/-! ## No stop between issue and use -/

theorem terms_step (id : PyStr) (terms : LeaseTerms) (s : System) (call : Call)
    (h : ∃ l, s.authority.leases.get? id = some l ∧ l.toLeaseTerms = terms) :
    ∃ l, (s.step call).authority.leases.get? id = some l ∧ l.toLeaseTerms = terms := by
  cases call with
  | stop call => exact h
  | authority call =>
    obtain ⟨l, hl, ht⟩ := h
    obtain ⟨mid, hrev, -, hcases⟩ := s.authority.step_cases (s.controller.view, call)
    obtain ⟨l', hl', hterms, -⟩ := hrev.forward hl
    rw [step]
    rcases hcases with ⟨hs, -⟩ | ⟨⟨lease, hi, hr⟩, -⟩ | ⟨-, -, -, -, -, hs, -⟩
    · exact ⟨l', by rw [hs.1]; exact hl', hterms.trans ht⟩
    · refine ⟨l', ?_, hterms.trans ht⟩
      have hne : lease.leaseId ≠ id := by
        rintro rfl
        rw [hi.new] at hl'
        cases hl'
      rw [hr]
      exact (Dict.get?_set_of_ne _ _ hne).trans hl'
    · exact ⟨l', by rw [hs]; exact hl', hterms.trans ht⟩

theorem epoch_step (s : System) (call : Call) :
    s.controller.epoch + (s.acceptedStop call).length ≤ (s.step call).controller.epoch := by
  cases call with
  | authority call => exact le_refl _
  | stop call =>
    have hmono : s.controller.epoch ≤ (s.controller.apply call).2.epoch := by
      rcases s.controller.apply_cases call with ⟨-, hc⟩ | ⟨event, -, ha⟩
      · rw [hc]
      · rcases ha.epoch_cases with ⟨-, -, h⟩ | ⟨-, -, h | ⟨h, -⟩⟩ <;> omega
    cases call with
    | activate reason instant =>
      rcases s.controller.apply_cases (.activate reason instant) with ⟨⟨err, he⟩, -⟩ | ⟨event, he, ha⟩
      · rw [EmergencyStopController.apply] at he
        simp only [acceptedStop, he, List.length_nil, Nat.add_zero]
        exact hmono
      · rw [EmergencyStopController.apply] at he
        have hnew : (s.step (.stop (.activate reason instant))).controller.epoch = s.controller.epoch + 1 := by
          rcases ha.epoch_cases with ⟨-, -, h⟩ | ⟨-, hne, -⟩
          · exact h
          · exact absurd rfl (hne reason instant)
        simp only [acceptedStop, he, List.length_singleton, hnew, le_refl]
    | finishDraining | requestReset | confirmReset => exact hmono

theorem authorized_epoch {s : System} (h : s.Fenced) {q : AuthorizeRequest} {granted : CapabilityLease}
    {after : CapabilityAuthority} (hok : s.authority.authorize s.controller.view q = (.ok granted, after)) {l : CapabilityLease}
    (hl : s.authority.leases.get? q.leaseId = some l) : l.stopEpoch = some (s.controller.epoch : ℤ) := by
  rcases s.authority.authorize_cases s.controller.view q with ⟨e, he, -⟩ | ⟨t, lease, uses, -, hauth, -⟩
  · rw [hok] at he
    cases he
  · obtain ⟨hrev, -, hstop⟩ := s.authority.sweep_revised s.controller.view
    obtain ⟨l', hl', hterms, -⟩ := hrev.forward hl
    rw [hauth.ledger] at hl'
    cases hl'
    have hcurrent := hauth.current
    unfold CapabilityAuthority.requireCurrentStopEpoch at hcurrent
    rw [if_neg (by rw [hstop, h.bound]; simp), hterms] at hcurrent
    cases hepoch : l.stopEpoch with
    | none =>
      rw [hepoch] at hcurrent
      cases hcurrent
    | some e =>
      rw [hepoch] at hcurrent
      rw [(guardDispatch_eq_ok (wrapStopError_eq_ok hcurrent)).2]

theorem issued_lease {s : System} (h : s.Fenced) {r : IssueRequest} {lease : CapabilityLease}
    {issued : CapabilityAuthority} (hissue : s.authority.issue s.controller.view r = (.ok lease, issued)) :
    issued.leases.get? lease.leaseId = some lease ∧ lease.stopEpoch = some (s.controller.epoch : ℤ) := by
  obtain ⟨mid, hmid, ⟨-, e, he⟩ | ⟨lease', hok, hi, hr⟩⟩ := s.authority.issue_cases s.controller.view r
  · rw [hissue] at he
    cases he
  · rw [hissue] at hok hr
    cases hok
    have hb : mid.stop.isNone = false := by
      rcases hmid with rfl | rfl
      · exact h.bound
      · exact h.sweep.bound
    refine ⟨?_, (currentStopEpoch_eq_ok hb hi.epoch).2⟩
    simp only at hr
    rw [hr]
    exact Dict.get?_set_self ..

theorem no_stop_until_authorized {s : System} (h : s.Fenced) {r : IssueRequest} {lease : CapabilityLease}
    {issued : CapabilityAuthority} (hissue : s.authority.issue s.controller.view r = (.ok lease, issued))
    {middle : List Call} {q : AuthorizeRequest} {granted : CapabilityLease} {final : CapabilityAuthority}
    (hq : q.leaseId = lease.leaseId)
    (hok : (run step (s.step (.authority (.issue r))) middle).authority.authorize
      (run step (s.step (.authority (.issue r))) middle).controller.view q = (.ok granted, final)) :
    trace step acceptedStop (s.step (.authority (.issue r))) middle = [] := by
  obtain ⟨hget, hepoch⟩ := issued_lease h hissue
  have hauthority : (s.step (.authority (.issue r))).authority = issued := by
    simp only [step, CapabilityAuthority.step, hissue]
  -- the epoch counts the accepted stops, and the lease keeps the terms it was issued with
  have hrun : s.controller.epoch + (trace step acceptedStop (s.step (.authority (.issue r))) middle).length ≤
      (run step (s.step (.authority (.issue r))) middle).controller.epoch := by
    have := @trace_induction _ _ _ step acceptedStop (fun _ _ => True)
      (fun s' log => s.controller.epoch + log.length ≤ s'.controller.epoch)
      (fun s' log call hs _ => by
        have := epoch_step s' call
        rw [List.length_append]
        omega) (s.step (.authority (.issue r))) [] (le_refl _) middle
      (allSteps_of_forall (fun _ _ _ => trivial) _)
    simpa using this
  obtain ⟨l, hl, hterms⟩ := run_induction (terms_step lease.leaseId lease.toLeaseTerms)
    ⟨lease, by rw [hauthority]; exact hget, rfl⟩ middle
  have hf := run_induction fenced_step (fenced_step s (.authority (.issue r)) h) middle
  rw [← hq] at hl
  have hfinal := authorized_epoch hf hok hl
  rw [hterms, hepoch] at hfinal
  have heq := Option.some.inj hfinal
  exact List.eq_nil_of_length_eq_zero (by omega)

/-- The calls that sweep: `get`, and `revoke` and `authorize` with a timezone-aware instant. -/
def Sweeps : CapabilityAuthority.Call → Prop
  | .get _ => True
  | .revoke _ instant => ∃ t, requireAware instant "at" = .ok t
  | .authorize r => ∃ t, requireAware r.instant "at" = .ok t
  | _ => False

theorem sweptEpoch_of_sweeps {s : System} (h : s.Fenced) {call : CapabilityAuthority.Call} (hc : Sweeps call) :
    (s.step (.authority call)).authority.sweptEpoch = s.controller.epoch := by
  obtain ⟨hok, hswept⟩ := h.sweep_ok
  rw [step]
  dsimp only
  revert hok hswept
  cases call with
  | bindStopController controller => exact absurd hc not_false
  | issue r => exact absurd hc not_false
  | get leaseId =>
    rw [CapabilityAuthority.step, CapabilityAuthority.get]
    rcases s.authority.sweepSupersededLeases s.controller.view with ⟨_ | _, a'⟩ <;> exact fun _ hs => hs
  | revoke leaseId instant =>
    obtain ⟨t, ht⟩ := hc
    rw [CapabilityAuthority.step, CapabilityAuthority.revoke, ht]
    dsimp only
    rcases s.authority.sweepSupersededLeases s.controller.view with ⟨_ | ⟨⟨⟩⟩, a'⟩
    · intro hok _
      cases hok
    · exact fun _ hs => ((revokeSwept_stop a' leaseId t).2).trans hs
  | authorize r =>
    obtain ⟨t, ht⟩ := hc
    rw [CapabilityAuthority.step, CapabilityAuthority.authorize, ht]
    dsimp only
    rcases s.authority.sweepSupersededLeases s.controller.view with ⟨_ | ⟨⟨⟩⟩, a'⟩
    · intro hok _
      cases hok
    · dsimp only
      rcases a'.authorizeSwept s.controller.view r t with _ | ⟨lease, uses⟩
      · exact fun _ hs => hs
      · dsimp only
        split_ifs <;> exact fun _ hs => hs

/-- **Stops fence leases.** For a controller and an authority bound to it from the start, over any interleaving
of their calls: an authorization that succeeds for a lease has no accepted stop between the issue of the lease
and itself; and, as long as no accepted stop finds a lease of its epoch revoked later than it, after every `get`,
and every `revoke` or `authorize` with an aware instant, each lease of an older epoch is revoked no later than
the stop that superseded it (or its own issue). -/
theorem stops_fence_leases (issuer : PyStr) (start : System) (hstart : create issuer = .ok start) :
    (∀ (before middle : List Call) (r : IssueRequest) (lease : CapabilityLease) (issued : CapabilityAuthority)
        (q : AuthorizeRequest) (granted : CapabilityLease) (final : CapabilityAuthority),
      (run step start before).authority.issue (run step start before).controller.view r = (.ok lease, issued) →
      q.leaseId = lease.leaseId →
      (run step start (before ++ .authority (.issue r) :: middle)).authority.authorize
        (run step start (before ++ .authority (.issue r) :: middle)).controller.view q = (.ok granted, final) →
      trace step acceptedStop (run step start (before ++ [.authority (.issue r)])) middle = []) ∧
    ∀ (calls : List Call) (call : CapabilityAuthority.Call), AllSteps step Prompt start calls → Sweeps call →
      ∀ id l e, (run step start (calls ++ [.authority call])).authority.leases.get? id = some l →
        l.stopEpoch = some e → e < (run step start (calls ++ [.authority call])).controller.epoch →
        ∃ event revoked, (run step start (calls ++ [.authority call])).superseding e = some event ∧
          l.revokedAt = some revoked ∧ revoked ≤ max event.instant l.issuedAt := by
  obtain ⟨hfenced, hempty, hswept0, hfresh⟩ := fenced_create hstart
  constructor
  · intro before middle r lease issued q granted final hissue hq hok
    have hf : (run step start before).Fenced := run_induction fenced_step hfenced before
    rw [run_append, run_cons] at hok
    rw [run_append, run_cons, run_nil]
    exact no_stop_until_authorized hf hissue hq hok
  · intro calls call hprompt hsweeps id l e hl he hlt
    have hd0 : start.Dated := by
      refine ⟨by simp [hempty], by simp [hempty], ?_⟩
      rw [hswept0, hfresh]
      exact le_refl _
    have hrun : (run step start calls).Fenced ∧ (run step start calls).Dated :=
      @run_induction_of _ _ step Prompt (fun s => s.Fenced ∧ s.Dated) dated_step start ⟨hfenced, hd0⟩ calls hprompt
    rw [run_append] at hl hlt ⊢
    have hstep := dated_step (run step start calls) (.authority call) hrun trivial
    obtain ⟨event, hevent⟩ := superseding_isSome hstep.1.recorded (l.epoch_nonneg e he) hlt
    have hsome := hstep.2.swept (sweptEpoch_of_sweeps hrun.1 hsweeps) hl he hlt
    obtain ⟨revoked, hr⟩ := Option.isSome_iff_exists.mp hsome
    exact ⟨event, revoked, hevent, hr, hstep.2.dated hl he hevent hr⟩

def issueAtZero : Call :=
  .authority (.issue {
    subject := py "s", capabilities := [py "*"], resources := [py "*"], issuedAt := .utc 0,
    expiresAt := some (.utc 2000), leaseId := some (py "L"), uuid := py "u" })

def fresh : System := ⟨.create, ⟨py "i", .empty, .empty, some 0, 0, 0⟩⟩

def useL : AuthorizeRequest where
  leaseId := py "L"
  capability := py "c"
  resource := py "r"
  instant := .utc 5

theorem stops_fence_leases_fresh :
    trace step acceptedStop (run step fresh [issueAtZero]) [.authority (.get (py "L"))] = [] ∧
      ∃ l event revoked,
        (run step fresh [issueAtZero, .stop (.activate (py "fire") (.utc 10)), .authority (.get (py "L"))]).authority.leases.get?
          (py "L") = some l ∧
        (run step fresh [issueAtZero, .stop (.activate (py "fire") (.utc 10)), .authority (.get (py "L"))]).superseding 0 =
          some event ∧ l.revokedAt = some revoked ∧ revoked ≤ max event.instant l.issuedAt := by
  obtain ⟨hfirst, hsecond⟩ := stops_fence_leases (py "i") fresh rfl
  constructor
  · have hissued : (fresh.authority.issue fresh.controller.view {
        subject := py "s", capabilities := [py "*"], resources := [py "*"], issuedAt := .utc 0,
        expiresAt := some (.utc 2000), leaseId := some (py "L"), uuid := py "u" }).1.toOption.map
          (fun l => l.leaseId) = some (py "L") := by decide
    have hused : ((run step fresh ([] ++ [issueAtZero, .authority (.get (py "L"))])).authority.authorize
        (run step fresh ([] ++ [issueAtZero, .authority (.get (py "L"))])).controller.view useL).1.isOk = true := by decide
    rcases hx : fresh.authority.issue fresh.controller.view _ with ⟨e | lease, issued⟩
    · rw [hx] at hissued
      cases hissued
    · rw [hx] at hissued
      rcases hy : (run step fresh ([] ++ [issueAtZero, .authority (.get (py "L"))])).authority.authorize
        (run step fresh ([] ++ [issueAtZero, .authority (.get (py "L"))])).controller.view useL with ⟨e | granted, final⟩
      · rw [hy] at hused
        cases hused
      · exact hfirst [] _ _ lease issued useL granted final hx (Option.some.inj hissued).symm hy
  · have hunrevoked : ((run step fresh [issueAtZero]).authority.leases.values.all fun l => l.revokedAt.isNone) = true := by
      decide
    have hprompt : AllSteps step Prompt fresh [issueAtZero, .stop (.activate (py "fire") (.utc 10))] := by
      refine ⟨trivial, fun event _ id l r hl _ hr => ?_, trivial⟩
      have := List.all_eq_true.mp hunrevoked l ((Dict.mem_values_iff _ l).mpr ⟨id, hl⟩)
      rw [hr] at this
      cases this
    have hbound : ((run step fresh ([issueAtZero, .stop (.activate (py "fire") (.utc 10))] ++
        [.authority (.get (py "L"))])).authority.leases.get? (py "L")).map (fun l => l.stopEpoch) = some (some 0) := by decide
    obtain ⟨l, hl, he⟩ := Option.map_eq_some_iff.mp hbound
    obtain ⟨event, revoked, h1, h2, h3⟩ := hsecond _ (.get (py "L")) hprompt trivial (py "L") l 0 hl he (by decide)
    exact ⟨l, event, revoked, hl, h1, h2, h3⟩

/-- A revocation dated 1000 is in the ledger when the stop of instant 10 is accepted: the sweep leaves it, and the
superseded lease stays revoked only from 1000 on. -/
theorem later_revocation_survives_sweep :
    ¬ ∀ id l e, (run step fresh [issueAtZero, .authority (.revoke (py "L") (.utc 1000)),
          .stop (.activate (py "fire") (.utc 10)), .authority (.get (py "L"))]).authority.leases.get? id = some l →
        l.stopEpoch = some e →
        e < (run step fresh [issueAtZero, .authority (.revoke (py "L") (.utc 1000)),
          .stop (.activate (py "fire") (.utc 10)), .authority (.get (py "L"))]).controller.epoch →
        ∃ event revoked, (run step fresh [issueAtZero, .authority (.revoke (py "L") (.utc 1000)),
          .stop (.activate (py "fire") (.utc 10)), .authority (.get (py "L"))]).superseding e = some event ∧
          l.revokedAt = some revoked ∧ revoked ≤ max event.instant l.issuedAt := by
  intro h
  have hlease : ((run step fresh [issueAtZero, .authority (.revoke (py "L") (.utc 1000)),
      .stop (.activate (py "fire") (.utc 10)), .authority (.get (py "L"))]).authority.leases.get? (py "L")).map
        (fun l => (l.stopEpoch, l.revokedAt, l.issuedAt)) = some (some 0, some 1000, 0) := by decide
  have hevent : ((run step fresh [issueAtZero, .authority (.revoke (py "L") (.utc 1000)),
      .stop (.activate (py "fire") (.utc 10)), .authority (.get (py "L"))]).superseding 0).map StopEvent.instant =
        some 10 := by decide
  obtain ⟨l, hl, hfields⟩ := Option.map_eq_some_iff.mp hlease
  simp only [Prod.mk.injEq] at hfields
  obtain ⟨event, revoked, h1, h2, h3⟩ := h (py "L") l 0 hl hfields.1 (by decide)
  rw [h1] at hevent
  rw [hfields.2.1] at h2
  cases h2
  rw [hfields.2.2, Option.some.inj hevent] at h3
  exact absurd h3 (by decide)

end System
end OcorRuntime.Safety
