import OcorRuntime.Foundations.Run
import OcorRuntime.Identity.Provisioning

/-! Interleaved provisioning. A call writes at most once, as its last stage, a record none of
whose identifiers was bound and none of which names the writer. That no actor of the writer is
bound is checked with the normalized actors normalized once more, and an actor whose
normalized identifier normalizes to something else may pass. -/
namespace OcorRuntime.Identity
set_option autoImplicit false
set_option maxHeartbeats 250000

section Runs
variable {u : UnicodeData} {b : Boundary}

/-! ## The checks under the lock -/

section Checks
variable {r : IdentityRegistry} {call : ProvisionCall} {actors : List PyStr}

theorem requireUnbound_eq_ok {error : PyError} {items : List PyStr} :
    requireUnbound u r error items = .ok () ↔ ∀ x ∈ items, r.candidates u x = .ok [] := by
  induction items with
  | nil => simp [requireUnbound]
  | cons x items ih =>
    rw [requireUnbound, bind_eq_ok, List.forall_mem_cons]
    constructor
    · rintro ⟨found, hfound, h⟩
      obtain ⟨hempty, hrest⟩ := check_bind_eq_ok.1 h
      rw [refuseIf_eq_ok, not_not] at hempty
      subst hempty
      exact ⟨hfound, ih.mp hrest⟩
    · rintro ⟨hfound, hrest⟩
      exact ⟨[], hfound, check_bind_eq_ok.2 ⟨refuseIf_eq_ok.2 (by simp), ih.mpr hrest⟩⟩

/-- The checks made under the lock pass. -/
structure Clear (u : UnicodeData) (r : IdentityRegistry) (call : ProvisionCall) (actors : List PyStr) : Prop where
  actors : ∀ a ∈ actors, r.candidates u a = .ok []
  fresh : r.get call.record.canonicalId = none
  unbound : ∀ x ∈ call.record.identifiers, r.candidates u x = .ok []

theorem requireNewIdentifiers_eq_ok {record : IdentityRecord} {correlationId : PyStr} :
    requireNewIdentifiers u r record correlationId = .ok () ↔
      r.get record.canonicalId = none ∧ ∀ x ∈ record.identifiers, r.candidates u x = .ok [] := by
  rw [requireNewIdentifiers, check_bind_eq_ok, refuseIf_eq_ok, requireUnbound_eq_ok, Option.not_isSome_iff_eq_none]

/-- The locked section raises and leaves the registry alone, or passes its checks and stores the record. -/
theorem admitLocked_cases (u : UnicodeData) (call : ProvisionCall) (actors : List PyStr) (r : IdentityRegistry) :
    (¬ Clear u r call actors ∧ ∃ error, admitLocked u call actors r = (.error error, r)) ∨
      (Clear u r call actors ∧ ∃ r', admitLocked u call actors r = (.ok call.record, r') ∧ r.Admits u r' call.record) := by
  unfold admitLocked
  rw [Op.read_bind]
  cases hactors : requireUnregisteredWriter u r actors call.correlationId with
  | error error =>
    refine Or.inl ⟨fun h => ?_, error, Op.lift_error_bind ..⟩
    cases hactors.symm.trans (requireUnbound_eq_ok.2 h.actors)
  | ok _ =>
    rw [Op.lift_ok_bind]
    cases hnew : requireNewIdentifiers u r call.record call.correlationId with
    | error error =>
      refine Or.inl ⟨fun h => ?_, error, Op.lift_error_bind ..⟩
      cases hnew.symm.trans (requireNewIdentifiers_eq_ok.2 ⟨h.fresh, h.unbound⟩)
    | ok _ =>
      obtain ⟨hfresh, hunbound⟩ := requireNewIdentifiers_eq_ok.1 hnew
      rw [Op.lift_ok_bind]
      exact Or.inr ⟨⟨requireUnbound_eq_ok.1 hactors, hfresh, hunbound⟩, IdentityRegistry.store_new hfresh hunbound⟩

end Checks

/-! ## What a call knows at each stage -/

/-- The actors of the writer, none of which the record names. -/
structure Apart (u : UnicodeData) (call : ProvisionCall) (writer : Security.AuthenticatedPrincipal)
    (actors : List PyStr) : Prop where
  normalized : normalizeAll u (actorsOf writer) = .ok actors
  apart : ∀ x ∈ call.record.identifiers, ∀ a ∈ actors, normalizeIdentifier u x ≠ .ok a

def Phase.Sound (u : UnicodeData) : Phase → Prop
  | .idle => True
  | .entered call identifiers => normalizeAll u call.record.identifiers = .ok identifiers
  | .authenticated call identifiers _ => normalizeAll u call.record.identifiers = .ok identifiers
  | .checked call writer actors => Apart u call writer actors
  | .decided call writer actors _ => Apart u call writer actors
  | .returned _ => True
  | .raised _ => True

theorem orRaised_sound {α : Type} {outcome : Except Raised α} {next : α → Phase}
    (h : ∀ a, outcome = .ok a → (next a).Sound u) : (orRaised outcome next).Sound u := by
  cases outcome with
  | error error => trivial
  | ok a => exact h a rfl

theorem exceptions_eq_ok {α : Type} {outcome : Except PyError α} {a : α} : exceptions outcome = .ok a ↔ outcome = .ok a := by
  cases outcome <;> simp [exceptions, Except.mapError]

theorem receive_identifiers {call : ProvisionCall} {identifiers : List PyStr}
    (h : receive u b call = .ok identifiers) : normalizeAll u call.record.identifiers = .ok identifiers := by
  obtain ⟨normalized, hnormalized, h⟩ := bind_eq_ok.1 h
  obtain ⟨-, -, h⟩ := bind_eq_ok.1 h
  cases h
  cases hall : normalizeAll u call.record.identifiers with
  | error error =>
    rw [hall] at hnormalized
    cases hnormalized
  | ok _ =>
    rw [hall] at hnormalized
    cases hnormalized
    rfl

theorem check_apart {r : IdentityRegistry} {call : ProvisionCall} {identifiers actors : List PyStr}
    {writer : Security.AuthenticatedPrincipal} (hall : normalizeAll u call.record.identifiers = .ok identifiers)
    (h : check u r call identifiers writer = .ok actors) : Apart u call writer actors := by
  obtain ⟨normalized, hnormalized, h⟩ := bind_eq_ok.1 h
  obtain ⟨hself, h⟩ := check_bind_eq_ok.1 h
  obtain ⟨-, h⟩ := check_bind_eq_ok.1 h
  obtain ⟨-, h⟩ := check_bind_eq_ok.1 h
  cases h
  rw [refuseIf_eq_ok] at hself
  refine ⟨hnormalized, fun x hx a ha hname => hself ⟨a, ha, ?_⟩⟩
  exact (mem_normalizeAll hall).mpr ⟨x, hx, hname⟩

theorem Phase.Sound.begin {phase : Phase} (h : phase.Sound u) (call : ProvisionCall) : (phase.begin u b call).Sound u := by
  cases phase with
  | idle => exact orRaised_sound fun identifiers hreceive => receive_identifiers (exceptions_eq_ok.1 hreceive)
  | entered | authenticated | checked | decided | returned | raised => exact h

theorem Phase.Sound.advance {phase : Phase} (h : phase.Sound u) (seen : Seen) (r : IdentityRegistry) :
    (Identity.advance u seen r phase).1.Sound u := by
  cases phase with
  | idle | returned | raised => trivial
  | entered call identifiers => exact orRaised_sound fun writer _ => h
  | authenticated call identifiers writer =>
    exact orRaised_sound fun actors hcheck => check_apart h (exceptions_eq_ok.1 hcheck)
  | checked call writer actors => exact orRaised_sound fun decision _ => h
  | decided call writer actors decision => exact orRaised_sound fun stored _ => trivial

def System.Sound (u : UnicodeData) (s : System) : Prop := ∀ thread, (s.threads thread).Sound u

def Move.thread : Move → ℕ
  | .begin thread _ => thread
  | .advance thread _ => thread

theorem System.step_others (s : System) (move : Move) {thread : ℕ} (h : thread ≠ move.thread) :
    (s.step u b move).threads thread = s.threads thread := by
  cases move <;> exact Function.update_of_ne h _ _

theorem System.step_advance (s : System) (thread : ℕ) (seen : Seen) :
    (s.step u b (.advance thread seen)).threads thread = (advance u seen s.registry (s.threads thread)).1 :=
  Function.update_self ..

theorem System.step_begin (s : System) (thread : ℕ) (call : ProvisionCall) :
    (s.step u b (.begin thread call)).threads thread = (s.threads thread).begin u b call :=
  Function.update_self ..

theorem System.Sound.step {s : System} (h : s.Sound u) (move : Move) : (s.step u b move).Sound u := by
  intro thread
  by_cases hthread : thread = move.thread
  · subst hthread
    cases move with
    | begin thread call =>
      rw [Move.thread, System.step_begin]
      exact (h thread).begin call
    | advance thread seen =>
      rw [Move.thread, System.step_advance]
      exact (h thread).advance seen s.registry
  · rw [System.step_others s move hthread]
    exact h thread

/-! ## What a step does to the registry -/

def Phase.Returned (phase : Phase) : Prop := ∃ receipt, phase = .returned receipt

theorem not_returned_orRaised {α : Type} {outcome : Except Raised α} {next : α → Phase}
    (h : ∀ a, ¬ (next a).Returned) : ¬ (orRaised outcome next).Returned := by
  cases outcome with
  | error error =>
    rintro ⟨receipt, hreceipt⟩
    cases hreceipt
  | ok a => exact h a

/-- A stage leaves the registry alone and the call unreturned, or is the locked one and stores the record. -/
theorem advance_cases (u : UnicodeData) (seen : Seen) (r : IdentityRegistry) (phase : Phase) :
    ((advance u seen r phase).2 = r ∧ ((advance u seen r phase).1.Returned → phase.Returned) ∧
        ∀ call writer actors decision, phase = .decided call writer actors decision → ¬ Clear u r call actors) ∨
      ∃ call writer actors decision, phase = .decided call writer actors decision ∧ Clear u r call actors ∧
        (advance u seen r phase).1.Returned ∧ r.Admits u (advance u seen r phase).2 call.record := by
  cases phase with
  | idle | returned | raised =>
    refine Or.inl ⟨rfl, fun h => h, ?_⟩
    intro call writer actors decision h
    cases h
  | entered | authenticated | checked =>
    refine Or.inl ⟨rfl, fun h => absurd h (not_returned_orRaised ?_), ?_⟩
    · rintro a ⟨receipt, hreceipt⟩
      cases hreceipt
    · intro call writer actors decision h
      cases h
  | decided call writer actors decision =>
    rw [advance]
    rcases admitLocked_cases u call actors r with ⟨hblocked, error, hrun⟩ | ⟨hclear, r', hrun, hadmits⟩
    · rw [hrun]
      refine Or.inl ⟨rfl, ?_, ?_⟩
      · rintro ⟨receipt, hreceipt⟩
        cases hreceipt
      · intro call' writer' actors' decision' h
        cases h
        exact hblocked
    · rw [hrun]
      exact Or.inr ⟨call, writer, actors, decision, rfl, hclear, ⟨_, rfl⟩, hadmits⟩

theorem Phase.begin_returned {phase : Phase} {call : ProvisionCall} (h : (phase.begin u b call).Returned) :
    phase.Returned := by
  cases phase with
  | idle =>
    refine absurd h (not_returned_orRaised ?_)
    rintro a ⟨receipt, hreceipt⟩
    cases hreceipt
  | entered | authenticated | checked | decided | returned | raised => exact h

theorem Phase.Returned.step {s : System} {thread : ℕ} (h : (s.threads thread).Returned) (move : Move) :
    ((s.step u b move).threads thread).Returned := by
  obtain ⟨receipt, hreceipt⟩ := h
  refine ⟨receipt, ?_⟩
  by_cases hthread : thread = move.thread
  · subst hthread
    cases move with
    | begin thread call =>
      rw [Move.thread] at hreceipt ⊢
      rw [System.step_begin, hreceipt]
      rfl
    | advance thread seen =>
      rw [Move.thread] at hreceipt ⊢
      rw [System.step_advance, hreceipt]
      rfl
  · rw [System.step_others s move hthread, hreceipt]

theorem System.registry_kept {s : System} {move : Move} (h : ¬ ((s.step u b move).threads move.thread).Returned) :
    (s.step u b move).registry = s.registry := by
  cases move with
  | begin thread call => rfl
  | advance thread seen =>
    rw [Move.thread, System.step_advance] at h
    rcases advance_cases u seen s.registry (s.threads thread) with ⟨hkept, -, -⟩ | ⟨_, _, _, _, -, -, hreturned, -⟩
    · exact hkept
    · exact absurd hreturned h

/-! ## Conforming runs -/

/-- The registry got a new record, of which no identifier was bound or names the writer, from a writer who is no
registered principal. -/
structure Provisions (u : UnicodeData) (before after : IdentityRegistry) (record : IdentityRecord)
    (writer : Security.AuthenticatedPrincipal) : Prop where
  admits : before.Admits u after record
  apart : ∀ x ∈ record.identifiers, ∀ actor ∈ actorsOf writer, normalizeIdentifier u x ≠ normalizeIdentifier u actor
  unregistered : ∀ actor ∈ actorsOf writer, before.candidates u actor = .ok []
  unambiguous : before.Unambiguous → after.Unambiguous

/-- A step of the system does nothing to the registry and makes no call return, or a call provisions its record. -/
def Conforms (u : UnicodeData) (b : Boundary) (s : System) (move : Move) : Prop :=
  ((s.step u b move).registry = s.registry ∧
      ∀ thread, ((s.step u b move).threads thread).Returned → (s.threads thread).Returned) ∨
    ∃ thread call writer actors decision, s.threads thread = .decided call writer actors decision ∧
      ((s.step u b move).threads thread).Returned ∧
      Provisions u s.registry (s.step u b move).registry call.record writer

/-- Every step conforms, and no step of a call that raises touches the registry. -/
structure SafeRun (u : UnicodeData) (b : Boundary) (s : System) (moves : List Move) : Prop where
  raised : ∀ before move after error, moves = before ++ move :: after →
    (run (System.step u b) s moves).threads move.thread = .raised error →
    ((run (System.step u b) s before).step u b move).registry = (run (System.step u b) s before).registry
  writes : AllSteps (System.step u b) (Conforms u b) s moves

/-- If an actor of a writer about to write is bound, the checks under the lock do not pass. -/
def Orderly (u : UnicodeData) (s : System) : Move → Prop
  | .begin _ _ => True
  | .advance thread _ =>
    match s.threads thread with
    | .decided call _ actors _ => (∃ a ∈ actors, s.registry.bound a ≠ []) → ¬ Clear u s.registry call actors
    | _ => True

theorem Apart.unregistered_iff {call : ProvisionCall} {writer : Security.AuthenticatedPrincipal} {actors : List PyStr}
    (h : Apart u call writer actors) (r : IdentityRegistry) :
    (∀ actor ∈ actorsOf writer, r.candidates u actor = .ok []) ↔ ∀ a ∈ actors, r.bound a = [] := by
  constructor
  · intro hnone a ha
    obtain ⟨actor, hactor, hname⟩ := (mem_normalizeAll h.normalized).mp ha
    obtain ⟨n, hn, hempty⟩ := IdentityRegistry.candidates_eq_nil.1 (hnone actor hactor)
    cases hname.symm.trans hn
    exact hempty
  · intro hnone actor hactor
    obtain ⟨a, ha, hname⟩ := normalized_of_mem h.normalized hactor
    exact IdentityRegistry.candidates_eq_nil.2 ⟨a, hname, hnone a ha⟩

theorem Apart.names_ne {call : ProvisionCall} {writer : Security.AuthenticatedPrincipal} {actors : List PyStr}
    (h : Apart u call writer actors) :
    ∀ x ∈ call.record.identifiers, ∀ actor ∈ actorsOf writer, normalizeIdentifier u x ≠ normalizeIdentifier u actor := by
  intro x hx actor hactor heq
  obtain ⟨a, ha, hname⟩ := normalized_of_mem h.normalized hactor
  exact h.apart x hx a ha (heq.trans hname)

theorem conforms_iff {s : System} (hs : s.Sound u) (move : Move) : Conforms u b s move ↔ Orderly u s move := by
  cases move with
  | begin thread call =>
    refine iff_of_true (Or.inl ⟨rfl, fun t ht => ?_⟩) trivial
    by_cases hthread : t = thread
    · subst hthread
      rw [System.step_begin] at ht
      exact Phase.begin_returned ht
    · rwa [System.step_others s (.begin thread call) hthread] at ht
  | advance thread seen =>
    have hothers : ∀ t, t ≠ thread → (s.step u b (.advance thread seen)).threads t = s.threads t :=
      fun t ht => System.step_others s _ ht
    have hself : (s.step u b (.advance thread seen)).threads thread = _ := System.step_advance s thread seen
    have hregistry : (s.step u b (.advance thread seen)).registry = (advance u seen s.registry (s.threads thread)).2 := rfl
    rcases advance_cases u seen s.registry (s.threads thread) with
      ⟨hkept, hunreturned, hblocked⟩ | ⟨call, writer, actors, decision, hphase, hclear, hreturned, hadmits⟩
    · -- nothing is written, and what is about to be written is noticed
      refine iff_of_true (Or.inl ⟨hregistry.trans hkept, fun t ht => ?_⟩) ?_
      · by_cases hthread : t = thread
        · subst hthread
          rw [hself] at ht
          exact hunreturned ht
        · rwa [hothers t hthread] at ht
      · rw [Orderly]
        split
        · next hphase => exact fun _ => hblocked _ _ _ _ hphase
        · trivial
    · have hapart : Apart u call writer actors := by
        have hsound := hs thread
        rw [hphase] at hsound
        exact hsound
      have horderly : Orderly u s (.advance thread seen) ↔ ∀ a ∈ actors, s.registry.bound a = [] := by
        rw [Orderly, hphase]
        dsimp only
        constructor
        · intro h a ha
          by_contra hbound
          exact h ⟨a, ha, hbound⟩ hclear
        · rintro h ⟨a, ha, hbound⟩
          exact absurd (h a ha) hbound
      rw [horderly, ← hapart.unregistered_iff]
      constructor
      · rintro (⟨-, hsame⟩ | ⟨t, call', writer', actors', decision', hphase', hreturned', hprovisions⟩)
        · obtain ⟨receipt, hreceipt⟩ := hsame thread (hself ▸ hreturned)
          cases hphase.symm.trans hreceipt
        · have hthread : t = thread := by
            by_contra hne
            rw [hothers t hne, hphase'] at hreturned'
            obtain ⟨receipt, hreceipt⟩ := hreturned'
            cases hreceipt
          subst hthread
          cases hphase.symm.trans hphase'
          exact hprovisions.unregistered
      · intro hunregistered
        refine Or.inr ⟨thread, call, writer, actors, decision, hphase, hself ▸ hreturned, ?_⟩
        exact ⟨hadmits, hapart.names_ne, hunregistered, hadmits.unambiguous⟩

theorem System.sound_start (r : IdentityRegistry) : (System.start r).Sound u := fun _ => trivial

theorem kept_of_raised {s : System} {before after : List Move} {move : Move} {error : Raised}
    (h : (run (System.step u b) s (before ++ move :: after)).threads move.thread = .raised error) :
    ((run (System.step u b) s before).step u b move).registry = (run (System.step u b) s before).registry := by
  refine System.registry_kept fun hreturned => ?_
  have hstep : ∀ (s : System) (other : Move), (s.threads move.thread).Returned →
      ((s.step u b other).threads move.thread).Returned := fun s other h => h.step other
  obtain ⟨receipt, hreceipt⟩ := run_induction hstep hreturned after
  rw [run_append, run_cons, hreceipt] at h
  cases h

theorem conforms_throughout_iff (r : IdentityRegistry) (moves : List Move) :
    AllSteps (System.step u b) (Conforms u b) (System.start r) moves ↔
      AllSteps (System.step u b) (Orderly u) (System.start r) moves := by
  have hstep : ∀ (s : System) (move : Move), s.Sound u → (s.step u b move).Sound u := fun s move h => h.step move
  exact allSteps_congr hstep (fun s move hs => conforms_iff hs move) (System.sound_start r) moves

/-- **Provisioning on one registry conforms throughout, under any interleaving and with whatever answers, exactly
if no call passes the checks under the lock while an actor of its writer is bound.** -/
theorem safeRun_iff (r : IdentityRegistry) (moves : List Move) :
    SafeRun u b (System.start r) moves ↔ AllSteps (System.step u b) (Orderly u) (System.start r) moves := by
  rw [← conforms_throughout_iff]
  constructor
  · intro h
    exact h.writes
  · intro h
    refine ⟨fun before move after error hsplit hraised => ?_, h⟩
    rw [hsplit] at hraised
    exact kept_of_raised hraised

/-! ### Actors that normalization leaves alone -/

/-- The normalized actors of the writer normalize to themselves. -/
def Stable (u : UnicodeData) (writer : Security.AuthenticatedPrincipal) : Prop :=
  ∀ actor ∈ actorsOf writer, ∀ a, normalizeIdentifier u actor = .ok a → normalizeIdentifier u a = .ok a

def Phase.Stable (u : UnicodeData) : Phase → Prop
  | .authenticated _ _ writer => Identity.Stable u writer
  | .checked _ writer _ => Identity.Stable u writer
  | .decided _ writer _ _ => Identity.Stable u writer
  | _ => True

/-! ### An actor that is bound and passes -/

theorem unnoticed {r : IdentityRegistry} {call : ProvisionCall} {identifiers actors : List PyStr} {seen : Seen}
    {writer : Security.AuthenticatedPrincipal} {decision : PolicyDecision} (hreceive : receive u b call = .ok identifiers)
    (hwriter : authenticate call seen = .ok writer) (hcheck : check u r call identifiers writer = .ok actors)
    (hdecide : decide writer call seen = .ok decision) (hclear : Clear u r call actors) {a : PyStr} (ha : a ∈ actors)
    (hbound : r.bound a ≠ []) :
    ¬ AllSteps (System.step u b) (Orderly u) (System.start r)
      (.begin 0 call :: List.replicate 4 (.advance 0 seen)) := by
  have hentered : (System.start r).step u b (.begin 0 call) =
      ⟨r, Function.update (fun _ => .idle) 0 (.entered call identifiers)⟩ := by
    simp only [System.step, System.start, Phase.begin, hreceive, exceptions, Except.mapError, orRaised]
  have hstage : ∀ phase phase' (threads : ℕ → Phase), advance u seen r phase = (phase', r) →
      (System.mk r (Function.update threads 0 phase)).step u b (.advance 0 seen) =
        ⟨r, Function.update threads 0 phase'⟩ := by
    intro phase phase' threads h
    simp only [System.step, Function.update_self, h, Function.update_idem]
  have hauthenticated : advance u seen r (.entered call identifiers) = (.authenticated call identifiers writer, r) := by
    rw [advance, hwriter]
    rfl
  have hchecked : advance u seen r (.authenticated call identifiers writer) = (.checked call writer actors, r) := by
    rw [advance, hcheck]
    rfl
  have hdecided : advance u seen r (.checked call writer actors) = (.decided call writer actors decision, r) := by
    rw [advance, hdecide]
    rfl
  simp only [List.replicate, AllSteps, hentered, hstage _ _ _ hauthenticated, hstage _ _ _ hchecked,
    hstage _ _ _ hdecided]
  rintro ⟨-, -, -, -, horderly, -⟩
  simp only [Orderly, Function.update_self] at horderly
  exact horderly ⟨a, ha, hbound⟩ hclear

theorem verify_bound {d : PolicyDecision} {request : PolicyRequest} {instant : Instant}
    (hwindow : ¬ (instant < d.evaluatedAt ∨ d.validUntil ≤ instant))
    (hbinding : (d.principalId, d.action, d.resource, d.purpose, d.governedContextDigest, d.policyBundleDigest) =
      (request.principal.principalId, request.action, request.resource, request.governedContext.purpose,
        request.governedContextDigest, request.governedContext.policyBundleDigest)) :
    d.verify request instant = .ok () := by
  rw [PolicyDecision.verify, refuseIf, if_neg hwindow]
  exact refuseIf_eq_ok.2 (not_not.mpr hbinding)

theorem decide_permits {writer : Security.AuthenticatedPrincipal} {call : ProvisionCall} {seen : Seen} {hexdigest : PyStr}
    {decision : PolicyDecision} (hdigest : Canonical.canonicalSha256 call.governedContext.toMapping = .ok hexdigest)
    (hvalid : requireValid writer seen.requestedAt = .ok ())
    (hbinding : call.governedContext.effectivePrincipalId = writer.principalId)
    (hanswer : seen.policy = .returned decision)
    (hverify : decision.verify ⟨writer, provisioningAction, provisioningResource call.record.canonicalId,
      call.governedContext, py "urn:sha256:" ++ hexdigest, seen.requestedAt⟩ seen.now = .ok ())
    (hpermit : decision.effect = .permit) : decide writer call seen = .ok decision := by
  simp [decide, hdigest, PolicyRequest.create, hvalid, hbinding, hanswer, PortAnswer.expect, hverify, hpermit, refuseIf,
    Except.mapError, bind, Except.bind, pure, Except.pure]

end Runs

/-- The characters of the example; every other one is left as it is. -/
def sampleUnicode : UnicodeData where
  decomposition c := if c.val = 0x15B then [codePoint 0x73, codePoint 0x301] else [c]
  combiningClass c := if c.val = 0x301 then 230 else 0
  composition c d := if c.val = 0x73 ∧ d.val = 0x301 then some (codePoint 0x15B) else none
  caseFolding c := if c.val = 0xDF then py "ss" else if 0x41 ≤ c.val ∧ c.val ≤ 0x5A then [codePoint (c.val + 32)] else [c]

/-- A sharp s under an acute accent: folded it is "ss" under the accent, which composes. -/
def sampleName : PyStr := [codePoint 0xDF, codePoint 0x301]

def sampleRegistry : IdentityRegistry :=
  ⟨Dict.empty.set sampleName ⟨sampleName, [], .mapping [], by decide⟩,
    Dict.empty.set [codePoint 0x73, codePoint 0x73, codePoint 0x301] [sampleName]⟩

def sampleWriter : Security.AuthenticatedPrincipal := ⟨sampleName, [sampleName], 0, 10⟩

def sampleContext : Kernel.GovernedContext where
  tenantId := py "t"
  organizationId := py "o"
  domainId := py "d"
  compartments := [py "c"]
  classificationMarkingRef := py "urn:sha256:" ++ List.replicate 64 (codePoint 0x61)
  purpose := py "p"
  effectivePrincipalId := sampleName
  actorChain := [sampleName]
  ontologyReleaseDigest := py "urn:sha256:" ++ List.replicate 64 (codePoint 0x61)
  policyBundleDigest := py "urn:sha256:" ++ List.replicate 64 (codePoint 0x62)
  correlationId := py "00000000-0000-4000-8000-000000000001"

def sampleCall : ProvisionCall :=
  ⟨⟨py "new", [], .mapping [], by decide⟩, py "urn:ocor:credential-ref:w", sampleContext⟩

def samplePermit (governedContextDigest : PyStr) : PolicyDecision where
  decisionId := py "p1"
  effect := .permit
  principalId := sampleName
  action := provisioningAction
  resource := provisioningResource (py "new")
  purpose := py "p"
  governedContextDigest := governedContextDigest
  policyBundleDigest := sampleContext.policyBundleDigest
  evaluatedAt := 0
  validUntil := 10

def sampleSeen (governedContextDigest : PyStr) : Seen :=
  ⟨.returned sampleWriter, .returned (samplePermit governedContextDigest), 1, 1⟩

/-- The registry of the example is the one built from its record. -/
example : (IdentityRegistry.create sampleUnicode [⟨sampleName, [], .mapping [], by decide⟩]).toOption.map
    (fun r => (r.records.keys, r.aliases.entries)) = some (sampleRegistry.records.keys, sampleRegistry.aliases.entries) := by
  decide

theorem sample_received : receive sampleUnicode ⟨py "a"⟩ sampleCall = .ok [py "new"] := by decide

theorem sample_checked :
    check sampleUnicode sampleRegistry sampleCall [py "new"] sampleWriter =
      .ok (List.replicate 2 [codePoint 0x73, codePoint 0x73, codePoint 0x301]) := by
  decide

theorem sample_clear :
    Clear sampleUnicode sampleRegistry sampleCall (List.replicate 2 [codePoint 0x73, codePoint 0x73, codePoint 0x301]) :=
  ⟨by decide, rfl, by decide⟩

theorem sampleContext_canonical : (Canonical.canonicalize sampleContext.toMapping).toOption.isSome = true := by
  decide

theorem sampleContext_digest :
    ∃ hexdigest, Canonical.canonicalSha256 sampleContext.toMapping = .ok hexdigest ∧
      sampleContext.digest = py "urn:sha256:" ++ hexdigest := by
  unfold Canonical.canonicalSha256 Kernel.GovernedContext.digest Kernel.canonicalDigest
  have hcanonical := sampleContext_canonical
  cases hbytes : Canonical.canonicalize sampleContext.toMapping with
  | error error =>
    rw [hbytes] at hcanonical
    cases hcanonical
  | ok bytes => exact ⟨_, rfl, rfl⟩

theorem samplePermit_verified (hexdigest : PyStr) :
    (samplePermit (py "urn:sha256:" ++ hexdigest)).verify ⟨sampleWriter, provisioningAction,
      provisioningResource sampleCall.record.canonicalId, sampleCall.governedContext, py "urn:sha256:" ++ hexdigest, 1⟩ 1 =
      .ok () := by
  have hwindow : ¬ ((1 : Instant) < 0 ∨ (10 : Instant) ≤ 1) := by decide
  exact verify_bound hwindow rfl

/-- A registered principal provisions a record. -/
theorem sample_not_safeRun :
    ¬ SafeRun sampleUnicode ⟨py "a"⟩ (System.start sampleRegistry)
      (.begin 0 sampleCall :: List.replicate 4 (.advance 0 (sampleSeen sampleContext.digest))) := by
  intro h
  obtain ⟨hexdigest, hdigest, heq⟩ := sampleContext_digest
  rw [heq] at h
  have hdecide : decide sampleWriter sampleCall (sampleSeen (py "urn:sha256:" ++ hexdigest)) = .ok _ :=
    decide_permits hdigest (by rfl) rfl rfl (samplePermit_verified hexdigest) rfl
  exact unnoticed sample_received rfl sample_checked hdecide sample_clear List.mem_cons_self (by decide)
    ((conforms_throughout_iff _ _).mp h.writes)

end OcorRuntime.Identity
