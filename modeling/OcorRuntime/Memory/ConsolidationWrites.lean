import OcorRuntime.Memory.AdmissionWrites
import OcorRuntime.Memory.ConsolidationRequests

/-! The consolidation service as writes: every change it makes to the stores, the job ledger
and its own registry, wherever a call is cut off, and what each derived item rests on. -/
namespace OcorRuntime.Memory
open Canonical Kernel
set_option autoImplicit false
set_option maxHeartbeats 250000

variable {ω α β : Type}

/-! ## What the guard permits -/

/-- `_guarded` gives a reason: the item is derived memory, its predecessor is, or it rewrites a dissent. -/
def Guards (ledger : VersionLedger) (item : GovernedMemoryItem) : Prop :=
  item.sourceKind = .memoryConsolidation ∨ 1 < item.memoryVersion ∧
    ∃ head, ledger.get item.memoryItemId (item.memoryVersion - 1) = some head ∧
      (head.item.sourceKind = .memoryConsolidation ∨
        head.item.memoryKind = .dissent ∧ head.item.contentDigest ≠ item.contentDigest)

/-- What the guard permits is not guarded, or expected. -/
def Granted (expected : Expected) (ledger : VersionLedger) (item : GovernedMemoryItem) : Prop :=
  Guards ledger item → 0 < expected.count item.digest

theorem still_guardedReason (env : Env) (s : Stores ω) (item : GovernedMemoryItem) :
    Still s (guardedReason env item : Act ω (Option String)) fun reason => Guards s.ledger item → reason ≠ none := by
  unfold guardedReason
  split_ifs with hsource hlater
  · exact Runs.pure fun _ h => by cases h
  · refine Runs.after (still_read env s) fun predecessor hpredecessor => ?_
    cases predecessor with
    | none =>
      refine Runs.pure fun hguards _ => ?_
      rcases hguards with h | ⟨_, head, hget, _⟩
      · exact hsource h
      · rw [hget] at hpredecessor
        cases hpredecessor
    | some predecessor =>
      dsimp only
      split_ifs with hderived hrewrite
      · exact Runs.pure fun _ h => by cases h
      · exact Runs.pure fun _ h => by cases h
      · refine Runs.pure fun hguards _ => ?_
        rcases hguards with h | ⟨_, head, hget, h⟩
        · exact hsource h
        · rw [hget] at hpredecessor
          cases hpredecessor
          exact h.elim hderived hrewrite
  · refine Runs.pure fun hguards _ => ?_
    rcases hguards with h | ⟨h, -⟩
    · exact hsource h
    · exact hlater h

theorem still_consolidationGuard (env : AdmissionEnv) (expected : Expected) (s : Stores ω) (item : GovernedMemoryItem)
    (context : GovernedContext) :
    Still s (consolidationGuard env expected item context : Act ω (Option MemoryPolicyDecision)) fun answer =>
      ∀ decision ∈ answer, decision.permitted = true → Granted expected s.ledger item := by
  refine Runs.after (still_guardedReason env.toEnv s item) fun reason hreason => ?_
  cases reason with
  | none =>
    refine (still_query env.toEnv s).weaken fun _ _ decision _ _ hguards => ?_
    exact absurd rfl (hreason hguards)
  | some reason =>
    dsimp only
    split_ifs with hexpected
    · exact (still_query env.toEnv s).weaken fun _ _ decision _ _ _ => hexpected
    · refine Runs.pure fun decision hdecision hpermitted => ?_
      cases Option.some.inj hdecision
      cases hpermitted

/-! ## What derived items rest on -/

/-- The payload is the summary of a merge. -/
def IsSummary (payload : Bytes) : Prop :=
  ∃ schema jobRef algorithm sources merged dissentRefs uncertainty, mergeClaims sources = .ok merged ∧
    canonicalize (summaryPayload schema jobRef algorithm sources merged dissentRefs uncertainty) = .ok payload

/-- The payload corrects the one that was read. -/
structure IsCorrection (str : PyValue → PyStr) (read payload : Bytes) (document : Members) (submitted : PyValue)
    (statements : List Statement) (entries : List Members) : Prop where
  found : consolidatedDocument read = .ok document
  keyed : Keyed submitted
  asked : correctedStatements submitted = .ok statements
  checked : checkCorrection str document statements = .ok ()
  listed : newStatements str document statements = .ok entries
  written : ∃ uncertainty correctionRef targetRef reasonRef, canonicalize (correctedPayload document entries uncertainty
    (correctionMember correctionRef targetRef reasonRef statements)) = .ok payload

/-- What the item was derived from. -/
inductive Origin (str : PyValue → PyStr) (s : ConsolidationState ω) (derived : Derived) : Prop
  | dissent (kind : derived.item.memoryKind = .dissent) (first : derived.item.memoryVersion = 1)
  | summary (kind : derived.item.memoryKind ≠ .dissent) (first : derived.item.memoryVersion = 1)
      (summary : IsSummary derived.payload)
  | correction {target : AdmittedMemoryVersion} {read : Bytes} {document : Members} {submitted : PyValue}
      {statements : List Statement} {entries : List Members} (mem : target ∈ s.stores.ledger)
      (consolidated : target.item.sourceKind = .memoryConsolidation) (kind : target.item.memoryKind ≠ .dissent)
      (carries : derived.item.memoryItemId = target.item.memoryItemId ∧ derived.item.memoryKind = target.item.memoryKind ∧
        derived.item.memoryVersion = target.item.memoryVersion + 1)
      (corrected : read ∈ s.registry.corrected) (binds : sha256Urn read = target.item.contentDigest)
      (correction : IsCorrection str read derived.payload document submitted statements entries)

/-- An item the service derived. -/
structure IsDerived (str : PyValue → PyStr) (s : ConsolidationState ω) (derived : Derived) : Prop where
  consolidated : derived.item.sourceKind = .memoryConsolidation
  content : derived.item.contentDigest = sha256Urn derived.payload
  origin : Origin str s derived

/-! ## Writes -/

/-- The changes the service makes. -/
inductive Consolidates (c : ConsolidationService ω) : ConsolidationState ω → ConsolidationState ω → Prop
  | quiet {memoryItemId : PyStr} {s s' : Stores ω} (r : Registry) (h : Quiet memoryItemId s s') :
      Consolidates c ⟨s, r⟩ ⟨s', r⟩
  | references (s : Stores ω) (r : Registry) (references : References) : Consolidates c ⟨s, r⟩ ⟨s, { r with references }⟩
  | reading (s : Stores ω) (r : Registry) (payload : Bytes) :
      Consolidates c ⟨s, r⟩ ⟨s, { r with corrected := r.corrected ++ [payload] }⟩
  | record {s : Stores ω} {r : Registry} {record : ConsolidationJobRecord} {jobs : JobLedger}
      (appends : r.jobs.append record = .ok jobs) : Consolidates c ⟨s, r⟩ ⟨s, { r with jobs }⟩
  | admission {s s' : Stores ω} {r : Registry} {candidate : MemoryFields}
      (enrolls : Enrolls c.admission candidate (Granted r.expected) s s') : Consolidates c ⟨s, r⟩ ⟨s', r⟩
  | derivation {s s' : Stores ω} {r : Registry} {derived : Derived} (made : IsDerived c.str ⟨s, r⟩ derived)
      (enrolls : Relation.ReflTransGen (Enrolls c.admission derived.item.toMemoryFields
        (Granted (r.expected.expect derived.item.digest))) s s') :
      Consolidates c ⟨s, r⟩ ⟨s', { r with
        expected := (r.expected.expect derived.item.digest).release derived.item.digest
        derivations := r.derivations ++ [⟨derived.item.digest, derived.payload, s'.ledger.drop s.ledger.length⟩] }⟩

theorem Enrolls.ledger_prefix {a : AdmissionService ω} {candidate : MemoryFields}
    {G : VersionLedger → GovernedMemoryItem → Prop} {s s' : Stores ω}
    (h : Relation.ReflTransGen (Enrolls a candidate G) s s') : s.ledger <+: s'.ledger := by
  induction h with
  | refl => exact List.prefix_refl _
  | tail _ hstep ih =>
    refine ih.trans ?_
    cases hstep with
    | outside => exact List.prefix_refl _
    | entry => exact List.prefix_append _ _

theorem Consolidates.ledger_prefix {c : ConsolidationService ω} {s s' : ConsolidationState ω}
    (h : Relation.ReflTransGen (Consolidates c) s s') : s.stores.ledger <+: s'.stores.ledger := by
  induction h with
  | refl => exact List.prefix_refl _
  | tail _ hstep ih =>
    refine ih.trans ?_
    cases hstep with
    | quiet r h =>
      dsimp only
      rw [Quiet.ledger_eq (.single h)]
    | references => exact List.prefix_refl _
    | reading => exact List.prefix_refl _
    | record => exact List.prefix_refl _
    | admission enrolls => exact Enrolls.ledger_prefix (.single enrolls)
    | derivation made enrolls => exact Enrolls.ledger_prefix enrolls

theorem Consolidates.corrected_prefix {c : ConsolidationService ω} {s s' : ConsolidationState ω}
    (h : Relation.ReflTransGen (Consolidates c) s s') : s.registry.corrected <+: s'.registry.corrected := by
  induction h with
  | refl => exact List.prefix_refl _
  | tail _ hstep ih =>
    refine ih.trans ?_
    cases hstep with
    | reading => exact List.prefix_append _ _
    | quiet | references | record | admission | derivation => exact List.prefix_refl _

theorem Origin.mono {str : PyValue → PyStr} {s s' : ConsolidationState ω} {derived : Derived} (h : Origin str s derived)
    (hledger : s.stores.ledger <+: s'.stores.ledger) (hcorrected : s.registry.corrected <+: s'.registry.corrected) :
    Origin str s' derived := by
  cases h with
  | dissent kind first => exact .dissent kind first
  | summary kind first summary => exact .summary kind first summary
  | correction mem consolidated kind carries corrected binds correction =>
    exact .correction (hledger.subset mem) consolidated kind carries (hcorrected.subset corrected) binds correction

theorem IsDerived.mono {c : ConsolidationService ω} {s s' : ConsolidationState ω} {derived : Derived}
    (h : IsDerived c.str s derived) (hmoved : Relation.ReflTransGen (Consolidates c) s s') : IsDerived c.str s' derived :=
  ⟨h.consolidated, h.content,
    h.origin.mono (Consolidates.ledger_prefix hmoved) (Consolidates.corrected_prefix hmoved)⟩

/-! ## Rules -/

section Rules
variable {s : ConsolidationState ω} {M N : ConsolidationState ω → ConsolidationState ω → Prop}

/-- What a world keeps past a call. -/
def ConsolidationWorld.state (w : ConsolidationWorld ω) : ConsolidationState ω := ⟨w.world.stores, w.registry⟩

/-- The worlds are connected by changes of `M`. -/
def Across (M : ConsolidationState ω → ConsolidationState ω → Prop) (w w' : ConsolidationWorld ω) : Prop :=
  Relation.ReflTransGen M w.state w'.state

instance : Std.Refl (Across M) := ⟨fun _ => .refl⟩

instance : IsTrans (ConsolidationWorld ω) (Across M) := ⟨fun _ _ _ h h' => h.trans h'⟩

/-- From this state the operation makes changes of `M` only, however it ends, and what it
returns meets `Q`. -/
def Goes (M : ConsolidationState ω → ConsolidationState ω → Prop) (s : ConsolidationState ω) (x : ConsolidationAct ω α)
    (Q : α → ConsolidationState ω → Prop) : Prop :=
  ∀ n, Op.Moves (Across M) ⟨⟨s.stores, n⟩, s.registry⟩ x fun a w => Q a w.state

/-- From this state the operation changes nothing, and what it returns meets `Q`. -/
def Steady (s : ConsolidationState ω) (x : ConsolidationAct ω α) (Q : α → Prop) : Prop :=
  Goes (fun _ _ => False) s x fun a _ => Q a

theorem Goes.mono {x : ConsolidationAct ω α} {Q R : α → ConsolidationState ω → Prop} (hx : Goes M s x Q)
    (hM : ∀ s s', M s s' → N s s') (hQ : ∀ a s', Relation.ReflTransGen M s s' → Q a s' → R a s') : Goes N s x R := fun n =>
  ⟨Relation.ReflTransGen.mono hM _ _ (hx n).1, fun a ha => hQ a _ (hx n).1 ((hx n).2 a ha)⟩

theorem Goes.weaken {x : ConsolidationAct ω α} {Q R : α → ConsolidationState ω → Prop} (hx : Goes M s x Q)
    (hQ : ∀ a s', Relation.ReflTransGen M s s' → Q a s' → R a s') : Goes M s x R :=
  hx.mono (fun _ _ h => h) hQ

theorem Goes.pure {a : α} {Q : α → ConsolidationState ω → Prop} (h : Q a s) :
    Goes M s (Pure.pure a : ConsolidationAct ω α) Q :=
  fun _ => Op.Moves.pure h

theorem Goes.raise (e : Raised) {Q : α → ConsolidationState ω → Prop} :
    Goes M s (Op.raise e : ConsolidationAct ω α) Q :=
  fun _ => Op.Moves.raise e

theorem Goes.pureStep {y : Except PyError α} {Q : α → ConsolidationState ω → Prop} (h : ∀ a, y = .ok a → Q a s) :
    Goes M s (pureStep y) Q :=
  fun _ => Op.Moves.lift fun a ha => h a (mapError_eq_ok.1 ha)

theorem Goes.bind {x : ConsolidationAct ω α} {f : α → ConsolidationAct ω β} {Q : α → ConsolidationState ω → Prop}
    {T : β → ConsolidationState ω → Prop} (hx : Goes M s x Q)
    (hf : ∀ a s', Relation.ReflTransGen M s s' → Q a s' → Goes M s' (f a) T) : Goes M s (x >>= f) T :=
  fun n => (hx n).bind fun a w hR hQ => hf a w.state hR hQ w.world.calls

theorem Goes.guarded {x : ConsolidationAct ω α} {handler : Raised → ConsolidationAct ω α}
    {Q : α → ConsolidationState ω → Prop} (hx : Goes M s x Q)
    (hh : ∀ e s', Relation.ReflTransGen M s s' → Goes M s' (handler e) Q) : Goes M s (Op.guarded x handler) Q :=
  fun n => (hx n).guarded fun e w hR => hh e w.state hR w.world.calls

theorem Goes.collect {f : α → ConsolidationAct ω β} {items : List α}
    (hf : ∀ a ∈ items, ∀ s', Relation.ReflTransGen M s s' → Goes M s' (f a) fun _ _ => True) :
    Goes M s (Op.collect f items) fun _ _ => True :=
  fun _ => Op.Moves.collect fun a ha w hR => hf a ha w.state hR w.world.calls

theorem Steady.eq_of {s s' : ConsolidationState ω} (h : Relation.ReflTransGen (fun _ _ => False) s s') : s = s' := by
  induction h with
  | refl => rfl
  | tail _ hstep _ => exact hstep.elim

theorem Goes.after {x : ConsolidationAct ω α} {f : α → ConsolidationAct ω β} {Q : α → Prop}
    {T : β → ConsolidationState ω → Prop} (hx : Steady s x Q) (hf : ∀ a, Q a → Goes M s (f a) T) :
    Goes M s (x >>= f) T := by
  refine Goes.bind (Q := fun a s' => s' = s ∧ Q a)
    (hx.mono (fun _ _ h => h.elim) fun a s' hR hQ => ⟨(Steady.eq_of hR).symm, hQ⟩) ?_
  rintro a s' - ⟨rfl, hQ⟩
  exact hf a hQ

theorem Steady.weaken {x : ConsolidationAct ω α} {Q Q' : α → Prop} (hx : Steady s x Q) (hQ : ∀ a, Q a → Q' a) :
    Steady s x Q' :=
  Goes.weaken hx fun a _ _ h => hQ a h

theorem Steady.goes {x : ConsolidationAct ω α} {Q : α → Prop} (hx : Steady s x Q) : Goes M s x fun a _ => Q a :=
  hx.mono (fun _ _ h => h.elim) fun _ _ _ h => h

theorem Steady.collect {f : α → ConsolidationAct ω β} {items : List α} {Q : β → Prop}
    (hf : ∀ a ∈ items, Steady s (f a) Q) : Steady s (Op.collect f items) fun results => ∀ b ∈ results, Q b := by
  induction items with
  | nil => exact Goes.pure (List.forall_mem_nil _)
  | cons a items ih =>
    refine Goes.after (hf a List.mem_cons_self) fun b hb => ?_
    refine Goes.after (ih fun c hc => hf c (List.mem_cons_of_mem a hc)) fun rest hrest => ?_
    exact Goes.pure (List.forall_mem_cons.mpr ⟨hb, hrest⟩)

theorem Steady.forM {f : α → ConsolidationAct ω Unit} {items : List α} (hf : ∀ a ∈ items, Steady s (f a) fun _ => True) :
    Steady s (items.forM f) fun _ => True := by
  induction items with
  | nil => exact Goes.pure trivial
  | cons a items ih =>
    refine Goes.after (hf a List.mem_cons_self) fun _ _ => ?_
    exact ih fun c hc => hf c (List.mem_cons_of_mem a hc)

theorem steady_pureStep {y : Except PyError α} : Steady s (pureStep y) fun a => y = .ok a := Goes.pureStep fun _ h => h

theorem steady_refuse {bad : Prop} [Decidable bad] {error : PyError} : Steady s (refuse bad error) fun _ => ¬ bad :=
  Goes.pureStep fun _ h => refuseIf_eq_ok.1 h

theorem Goes.passingMemoryErrors {x : ConsolidationAct ω α} {error : PyError} {Q : α → ConsolidationState ω → Prop}
    (hx : Goes M s x Q) : Goes M s (passingMemoryErrors error x) Q := by
  refine hx.guarded fun why s' _ => ?_
  cases why with
  | interrupt => exact Goes.raise _
  | exception e => exact Goes.raise _

theorem Goes.inMemory {K : Stores ω → Stores ω → Prop} {x : Act ω α} {Q : α → Stores ω → Prop} (hx : Runs K s.stores x Q)
    (hK : ∀ t t', K t t' → M ⟨t, s.registry⟩ ⟨t', s.registry⟩) :
    Goes M s (inMemory x) fun a s' => Q a s'.stores ∧ s'.registry = s.registry := by
  intro n
  refine ⟨?_, fun a ha => ⟨(hx n).2 a ha, rfl⟩⟩
  exact Relation.ReflTransGen.lift (fun t => (⟨t, s.registry⟩ : ConsolidationState ω)) hK _ _ (hx n).1

theorem steady_inMemory {x : Act ω α} {Q : α → Prop} (hx : Still s.stores x Q) : Steady s (inMemory x) Q :=
  (Goes.inMemory hx fun _ _ h => h.elim).weaken fun _ _ _ h => h.1

theorem steady_registryOf : Steady s registryOf fun registry => registry = s.registry :=
  fun _ => ⟨.refl, fun _ h => (Except.ok.inj h).symm⟩

theorem Goes.updateRegistry {f : Registry → Registry} (h : M s ⟨s.stores, f s.registry⟩) :
    Goes M s (updateRegistry f) fun _ s' => s' = ⟨s.stores, f s.registry⟩ :=
  fun _ => ⟨.single h, fun _ _ => rfl⟩

theorem Goes.jobsPort {env : Env} {x : JobLedger → Except Raised α × JobLedger} {Q : α → ConsolidationState ω → Prop}
    (hM : (x s.registry.jobs).2 = s.registry.jobs ∨
      M s ⟨s.stores, { s.registry with jobs := (x s.registry.jobs).2 }⟩)
    (hQ : ∀ a, (x s.registry.jobs).1 = .ok a → Q a ⟨s.stores, { s.registry with jobs := (x s.registry.jobs).2 }⟩) :
    Goes M s (jobsPort env x) Q := by
  intro n
  have hmoved : Relation.ReflTransGen M s ⟨s.stores, { s.registry with jobs := (x s.registry.jobs).2 }⟩ := by
    rcases hM with h | h
    · rw [h]
    · exact .single h
  unfold Memory.jobsPort Op.Moves Across
  dsimp only
  cases env.fault n with
  | works => exact ⟨hmoved, hQ⟩
  | raises why progress =>
    cases progress with
    | untouched => exact ⟨.refl, fun a ha => by cases ha⟩
    | caughtUp => exact ⟨.refl, fun a ha => by cases ha⟩
    | written => exact ⟨hmoved, fun a ha => by cases ha⟩
    | done => exact ⟨hmoved, fun a ha => by cases ha⟩

theorem steady_jobsGet (env : Env) (tenantId operationId : PyStr) :
    Steady s (jobsGet env tenantId operationId) fun found => found = s.registry.jobs.get? (tenantId, operationId) :=
  Goes.jobsPort (.inl rfl) fun _ h => (Except.ok.inj h).symm

theorem goes_jobsAppend (c : ConsolidationService ω) (env : Env) (record : ConsolidationJobRecord) :
    Goes (Consolidates c) s (jobsAppend env record) fun _ _ => True := by
  refine Goes.jobsPort ?_ fun _ _ => trivial
  cases happend : s.registry.jobs.append record with
  | ok jobs => exact .inr (.record happend)
  | error e => exact .inl rfl

end Rules

/-! ## Reading -/

namespace ConsolidationService
variable (c : ConsolidationService ω) (env : ConsolidationEnv) {s : ConsolidationState ω}

theorem steady_nowOf : Steady s (nowOf env : ConsolidationAct ω Instant) fun _ => True :=
  steady_inMemory (still_now env.toEnv s.stores)

theorem steady_visible (item : GovernedMemoryItem) (context : GovernedContext) :
    Steady s (c.visible env item context) fun _ => True := by
  refine Goes.after (Q := fun _ => True) (steady_inMemory (Runs.guarded ?_ fun why t _ => ?_)) fun _ _ => Goes.pure trivial
  · exact (still_query env.toEnv s.stores).weaken fun _ _ => trivial
  · cases why with
    | interrupt => exact Runs.raise _
    | exception e =>
      dsimp only
      split_ifs
      · exact Runs.pure trivial
      · exact Runs.raise _

theorem steady_visibleVersion (unavailable : PyError) (ref : PyStr) (context : GovernedContext) :
    Steady s (c.visibleVersion env unavailable ref context) fun record =>
      ∃ slot, versionRef? ref = some slot ∧ s.stores.ledger.get slot.1 slot.2 = some record := by
  refine Goes.after steady_pureStep fun slot hslot => ?_
  refine Goes.after (steady_inMemory (still_read env.toEnv s.stores)) fun found hfound => ?_
  refine Goes.after steady_pureStep fun record hrecord => ?_
  refine Goes.after (c.steady_visible env record.item context) fun _ _ => ?_
  refine Goes.after steady_refuse fun _ _ => Goes.pure ⟨slot, orRaise_eq_ok.1 hslot, ?_⟩
  rw [orRaise_eq_ok, hfound] at hrecord
  exact hrecord

theorem steady_version (ref : PyStr) :
    Steady s (version env ref : ConsolidationAct ω (Option AdmittedMemoryVersion)) fun found =>
      ∃ slot, versionRef? ref = some slot ∧ found = s.stores.ledger.get slot.1 slot.2 := by
  refine Goes.after steady_pureStep fun slot hslot => ?_
  refine (steady_inMemory (still_read env.toEnv s.stores)).weaken fun found hfound => ⟨slot, ?_, hfound⟩
  exact versionRef?_of_parse hslot

theorem steady_checkInputCurrent (record : AdmittedMemoryVersion) :
    Steady s (checkInputCurrent env record : ConsolidationAct ω Unit) fun _ => True := by
  refine Goes.after (steady_inMemory (still_read env.toEnv s.stores)) fun latest _ => ?_
  refine Goes.after steady_refuse fun _ _ => ?_
  refine Goes.after steady_refuse fun _ _ => ?_
  refine Goes.after steady_refuse fun _ _ => ?_
  refine Goes.after (steady_nowOf env) fun now _ => ?_
  exact Steady.weaken steady_refuse fun _ _ => trivial

theorem steady_decideUnder (evaluate : ℕ → Option MemoryPolicyDecision) (context : GovernedContext) :
    Steady s (decideUnder env evaluate context : ConsolidationAct ω MemoryPolicyDecision) fun _ => True := by
  refine Goes.after (Q := fun _ => True) (Goes.passingMemoryErrors (steady_inMemory ?_)) fun answer _ => ?_
  · exact (still_query env.toEnv s.stores).weaken fun _ _ => trivial
  · refine Goes.after steady_pureStep fun decision _ => ?_
    refine Goes.after steady_refuse fun _ _ => ?_
    refine Goes.after steady_refuse fun _ _ => Goes.pure trivial

theorem steady_citedVersion (citation : Members) : Steady s (c.citedVersion env citation) fun _ => True := by
  refine Goes.after steady_pureStep fun ref _ => ?_
  refine Goes.after (steady_version env ref) fun found _ => ?_
  refine Goes.after steady_pureStep fun record _ => ?_
  refine Goes.after steady_pureStep fun itemDigest _ => ?_
  refine Goes.after steady_pureStep fun sameItem _ => ?_
  refine Goes.after steady_refuse fun _ _ => ?_
  refine Goes.after steady_pureStep fun contentDigest _ => ?_
  refine Goes.after steady_pureStep fun sameContent _ => ?_
  exact Goes.after steady_refuse fun _ _ => Goes.pure trivial

theorem steady_replay (request : AcceptedRequest) (jobDigest : PyStr) :
    Steady s (replay env request jobDigest : ConsolidationAct ω (Option ConsolidationOutcome)) fun _ => True := by
  refine Goes.after (steady_jobsGet env.toEnv _ _) fun previous _ => ?_
  cases previous with
  | none => exact Goes.pure trivial
  | some previous => exact Goes.after steady_refuse fun _ _ => Goes.pure trivial

theorem steady_checkCorrectionTarget (item : GovernedMemoryItem) :
    Steady s (checkCorrectionTarget env item : ConsolidationAct ω Unit) fun _ =>
      item.sourceKind = .memoryConsolidation ∧ item.memoryKind ≠ .dissent := by
  refine Goes.after steady_refuse fun _ hsource => ?_
  refine Goes.after steady_refuse fun _ hkind => ?_
  refine Goes.after (steady_inMemory (still_read env.toEnv s.stores)) fun latest _ => ?_
  refine Goes.after steady_refuse fun _ _ => ?_
  exact Steady.weaken steady_refuse fun _ _ => ⟨not_not.mp hsource, hkind⟩

/-! ## Deriving -/

theorem steady_derivedItem (base : DerivedBase) (finish : MemoryFields → MemoryFields) :
    Steady s (c.derivedItem env base finish) fun item =>
      ∃ now marking validFrom validUntil, item.toMemoryFields = finish (base.fields now marking validFrom validUntil) := by
  refine Goes.after (steady_nowOf env) fun now _ => ?_
  refine Goes.after (steady_inMemory (still_query env.toEnv s.stores)) fun marking _ => ?_
  refine Goes.after steady_pureStep fun validFrom _ => ?_
  exact Steady.weaken steady_pureStep fun item hitem =>
    ⟨now, marking, validFrom, _, MemoryFields.validated_eq_ok hitem⟩

theorem steady_dissentItem (plan : ConsolidationPlan) (sources : List ClaimSource) (items : List GovernedMemoryItem)
    (conflict : Conflict) : Steady s (c.dissentItem env plan sources items conflict) (IsDerived c.str s) := by
  refine Goes.after steady_pureStep fun conflicting _ => ?_
  refine Goes.after steady_pureStep fun conflictingItems _ => ?_
  refine Goes.after steady_pureStep fun payload _ => ?_
  refine Goes.after steady_pureStep fun identity _ => ?_
  refine Goes.after steady_pureStep fun confidence _ => ?_
  refine Goes.after steady_pureStep fun resolution _ => ?_
  refine Goes.after (c.steady_derivedItem env _ _) fun item hitem => Goes.pure ?_
  obtain ⟨now, marking, validFrom, validUntil, hfields⟩ := hitem
  refine ⟨(congrArg MemoryFields.sourceKind hfields).trans rfl, (congrArg MemoryFields.contentDigest hfields).trans rfl, ?_⟩
  exact .dissent ((congrArg MemoryFields.memoryKind hfields).trans rfl)
    ((congrArg MemoryFields.memoryVersion hfields).trans rfl)

theorem steady_summaryItem (plan : ConsolidationPlan) {merged : MergeResult} {sources : List ClaimSource}
    (dissentRefs : List PyStr) (items : List GovernedMemoryItem) (hmerged : mergeClaims sources = .ok merged)
    (hkind : plan.job.targetKind ≠ .dissent) :
    Steady s (c.summaryItem env plan merged sources dissentRefs items) (IsDerived c.str s) := by
  refine Goes.after steady_pureStep fun uncertainty _ => ?_
  refine Goes.after steady_pureStep fun payload hpayload => ?_
  refine Goes.after steady_pureStep fun minimum _ => ?_
  refine Goes.after steady_pureStep fun confidence _ => ?_
  refine Goes.after steady_pureStep fun uncertaintyDigest _ => ?_
  refine Goes.after (c.steady_derivedItem env _ _) fun item hitem => Goes.pure ?_
  obtain ⟨now, marking, validFrom, validUntil, hfields⟩ := hitem
  refine ⟨(congrArg MemoryFields.sourceKind hfields).trans rfl, (congrArg MemoryFields.contentDigest hfields).trans rfl, ?_⟩
  refine .summary (fun h => hkind ?_) ((congrArg MemoryFields.memoryVersion hfields).trans rfl)
    ⟨_, _, _, _, _, _, _, hmerged, hpayload⟩
  exact ((congrArg MemoryFields.memoryKind hfields).trans rfl).symm.trans h

/-! ## Admitting -/

theorem goes_outside (x : Op ω Raised α) :
    Goes (Consolidates c) s (inMemory (outside env.toEnv x)) fun _ _ => True :=
  (Goes.inMemory (runs_outside (M := Quiet []) env.toEnv s.stores fun _ _ h => h)
    fun _ _ h => .quiet s.registry h).weaken fun _ _ _ _ => trivial

theorem runs_admitGuarded (env : AdmissionEnv) (t : Stores ω) (registry : Registry) (request : AdmissionRequest)
    (binding : Option VerifiedGovernedContextBinding) (payload : Bytes) :
    Runs (Enrolls c.admission request.candidate (Granted registry.expected)) t
      (c.admission.admitUnder (registry.references.resolver env)
        (consolidationGuard (registry.references.resolver env) registry.expected) request binding payload) fun _ _ => True :=
  c.admission.runs_admitUnder _ (fun item context => still_consolidationGuard _ registry.expected t item context)
    request binding payload

theorem goes_admitGuarded (env : AdmissionEnv) (request : AdmissionRequest)
    (binding : Option VerifiedGovernedContextBinding) (payload : Bytes) :
    Goes (Consolidates c) s (c.admitGuarded env request binding payload) fun _ _ => True := by
  refine Goes.after steady_registryOf fun registry hregistry => ?_
  subst hregistry
  have hruns := c.runs_admitGuarded env s.stores s.registry request binding payload
  exact (Goes.inMemory hruns fun _ _ h => .admission h).weaken fun _ _ _ _ => trivial

/-- Between `expect` and `release` the ledger takes nothing but the derived item, and the
digest is expected by nothing else. -/
theorem goes_admitExpected {derived : Derived} (made : IsDerived c.str s derived) (request : AcceptedRequest)
    (binding : VerifiedGovernedContextBinding) :
    Goes (Consolidates c) s (c.admitExpected env derived request binding) fun _ _ => True := by
  intro n
  have henrolls := (c.runs_admitGuarded env.toAdmissionEnv s.stores
    { s.registry with expected := s.registry.expected.expect derived.item.digest } (derived.admissionRequest request)
    (some binding) derived.payload n).1
  have hstep := Consolidates.derivation made henrolls
  exact ⟨.single hstep, fun _ _ => trivial⟩

theorem goes_recordOf {derived : Derived} (made : IsDerived c.str s derived) (request : AcceptedRequest)
    (binding : VerifiedGovernedContextBinding) :
    Goes (Consolidates c) s (c.recordOf env request binding derived) fun record s' =>
      s'.stores.ledger.get derived.item.memoryItemId derived.item.memoryVersion = some record := by
  refine Goes.after (steady_inMemory (still_read env.toEnv s.stores)) fun existing hexisting => ?_
  cases existing with
  | some existing => exact Goes.after steady_refuse fun _ _ => Goes.pure hexisting.symm
  | none =>
    refine Goes.bind (c.goes_admitExpected env made request binding) fun _ s' _ _ => ?_
    refine Goes.after (steady_inMemory (still_read env.toEnv s'.stores)) fun admitted hadmitted => ?_
    refine Goes.pureStep fun record hrecord => ?_
    rw [orRaise_eq_ok, hadmitted] at hrecord
    exact hrecord

theorem goes_admitAndCommit {derived : Derived} (made : IsDerived c.str s derived) (request : AcceptedRequest)
    (binding : VerifiedGovernedContextBinding) :
    Goes (Consolidates c) s (c.admitAndCommit env request binding derived) fun _ _ => True := by
  refine Goes.bind (c.goes_recordOf env made request binding) fun record s' _ hget => ?_
  refine Goes.bind (Goes.inMemory (Coordinator.quiet_storeCommit env.toEnv c.backend derived.payload none
    (VersionLedger.get_eq_some hget).1 rfl) fun _ _ h => .quiet s'.registry h) fun _ _ _ _ => Goes.pure trivial

theorem goes_registerSource (sourceRef sourceDigest : PyStr) (kind : String) (activityRefs : List PyStr)
    (request : AcceptedRequest) (items : List GovernedMemoryItem) :
    Goes (Consolidates c) s (registerSource env sourceRef sourceDigest kind activityRefs request items) fun _ _ => True := by
  refine Goes.after (steady_nowOf env) fun _ _ => ?_
  refine Goes.after steady_refuse fun _ _ => ?_
  refine Goes.bind (Goes.updateRegistry (.references s.stores s.registry _)) fun _ _ _ _ => Goes.pure trivial

theorem goes_complete (request : AcceptedRequest) (binding : VerifiedGovernedContextBinding) (f : Completion) :
    Goes (Consolidates c) s (c.complete env request binding f) fun _ _ => True := by
  refine Goes.after (steady_nowOf env) fun now _ => ?_
  refine Goes.bind (Q := fun _ _ => True) ?_ fun _ s' _ _ => ?_
  · refine (c.goes_outside env _).guarded fun why s' _ => ?_
    cases why with
    | interrupt => exact Goes.raise _
    | exception e => exact Goes.raise _
  · refine Goes.after steady_pureStep fun auditRef _ => ?_
    exact Goes.bind (goes_jobsAppend c env.toEnv _).passingMemoryErrors fun _ _ _ _ => Goes.pure trivial

/-! ## Refusing -/

theorem goes_recordDenial (kind : PyStr) (error : PyError) (failure : Failure) :
    Goes (Consolidates c) s (c.recordDenial env kind error failure) fun _ _ => True := by
  refine Goes.after (steady_nowOf env) fun now _ => ?_
  refine (c.goes_outside env _).guarded fun why s' _ => ?_
  cases why with
  | interrupt => exact Goes.raise _
  | exception e => exact Goes.raise _

theorem goes_denying {x : ConsolidationAct ω α} {Q : α → ConsolidationState ω → Prop} (kind : PyStr) (failure : Failure)
    (hx : Goes (Consolidates c) s x Q) : Goes (Consolidates c) s (c.denying env kind failure x) Q := by
  refine hx.guarded fun why s' _ => ?_
  cases why with
  | interrupt => exact Goes.raise _
  | exception e =>
    dsimp only
    split_ifs
    · exact Goes.bind (c.goes_recordDenial env kind e failure) fun _ _ _ _ => Goes.raise _
    · exact Goes.raise _

theorem goes_guardedRun {body : VerifiedGovernedContextBinding → ConsolidationAct ω ConsolidationOutcome} (kind : PyStr)
    (envelope : Envelope) (binding : Option VerifiedGovernedContextBinding)
    (hbody : ∀ binding s', Relation.ReflTransGen (Consolidates c) s s' →
      Goes (Consolidates c) s' (body binding) fun _ _ => True) :
    Goes (Consolidates c) s (c.guardedRun env kind envelope binding body) fun _ _ => True := by
  cases binding with
  | none => exact c.goes_denying env _ _ (Goes.raise _)
  | some binding =>
    refine Goes.bind (c.goes_denying (Q := fun _ _ => True) env _ _ ?_) fun now s' hmoved _ => ?_
    · refine Goes.after (steady_nowOf env) fun now _ => ?_
      exact Goes.after steady_pureStep fun _ _ => Goes.pure trivial
    · refine Goes.bind (c.goes_denying env _ _ (Steady.goes steady_pureStep)) fun _ s'' hmoved' _ => ?_
      exact c.goes_denying env _ _ (hbody binding s'' (hmoved.trans hmoved'))

/-! ## Consolidating -/

theorem targetOf_eq_ok {r : ConsolidationRequest} {target : MemoryKind × MemoryScope} (h : targetOf r = .ok target) :
    target.1 ∈ consolidationTargetKinds := by
  unfold targetOf at h
  simp only [bind_eq_ok, refuseIf_eq_ok, not_not] at h
  obtain ⟨_, -, kind, -, _, -, scope, -, _, hkind, heq⟩ := h
  cases heq
  exact hkind

theorem steady_resolveJob (r : ConsolidationRequest) (request : AcceptedRequest) :
    Steady s (c.resolveJob env r request) fun resolved => resolved.2.job.targetKind ≠ .dissent := by
  refine Goes.after steady_pureStep fun _ _ => ?_
  refine Goes.after steady_pureStep fun refs _ => ?_
  refine Goes.after steady_pureStep fun _ _ => ?_
  refine Goes.after steady_pureStep fun _ _ => ?_
  refine Goes.after steady_pureStep fun _ _ => ?_
  refine Goes.after steady_pureStep fun target htarget => ?_
  refine Goes.after steady_pureStep fun resolved _ => ?_
  refine Goes.after steady_refuse fun _ _ => ?_
  refine Goes.after (Q := fun _ => True) ?_ fun records _ => ?_
  · refine (Steady.collect (Q := fun _ => True) fun ref _ => ?_).weaken fun _ _ => trivial
    exact (c.steady_visibleVersion env _ ref request.context).weaken fun _ _ => trivial
  · refine Goes.after steady_pureStep fun bindings _ => ?_
    refine Goes.after steady_pureStep fun jobDigest _ => Goes.pure fun hkind => ?_
    have hmem := targetOf_eq_ok htarget
    have hdissent : target.1 = .dissent := hkind
    rw [hdissent] at hmem
    exact absurd hmem (by decide)

theorem goes_readInputs (maxInputBytes total : ℕ) (records : List AdmittedMemoryVersion) :
    Goes (Consolidates c) s (c.readInputs env maxInputBytes total records) fun _ _ => True := by
  induction records generalizing s total with
  | nil => exact Goes.pure trivial
  | cons record records ih =>
    refine Goes.bind (Goes.inMemory (K := Quiet record.item.memoryItemId)
      (Coordinator.quiet_readVersion env.toEnv c.backend _ _ _) fun _ _ h => .quiet s.registry h) fun payload _ _ _ => ?_
    refine Goes.after steady_refuse fun _ _ => ?_
    refine Goes.after steady_refuse fun _ _ => ?_
    exact Goes.bind (ih _) fun _ _ _ _ => Goes.pure trivial

/-- Derived items are admitted one after another; each is still what it was derived as. -/
theorem goes_admitAll {items : List Derived} (made : ∀ derived ∈ items, IsDerived c.str s derived)
    (request : AcceptedRequest) (binding : VerifiedGovernedContextBinding) :
    Goes (Consolidates c) s (Op.collect (c.admitAndCommit env request binding) items) fun _ _ => True :=
  Goes.collect fun derived hmem s' hmoved => c.goes_admitAndCommit env ((made derived hmem).mono hmoved) request binding

theorem goes_runJob (records : List AdmittedMemoryVersion) {plan : ConsolidationPlan} (request : AcceptedRequest)
    (binding : VerifiedGovernedContextBinding) (hkind : plan.job.targetKind ≠ .dissent) :
    Goes (Consolidates c) s (c.runJob env records plan request binding) fun _ _ => True := by
  refine Goes.after (Steady.forM fun record _ => steady_checkInputCurrent env record) fun _ _ => ?_
  refine Goes.after (steady_decideUnder env _ _) fun decision _ => ?_
  refine Goes.bind (c.goes_readInputs env _ _ records) fun inputs s' _ _ => ?_
  refine Goes.after steady_pureStep fun sources _ => ?_
  refine Goes.after steady_pureStep fun merged hmerged => ?_
  refine Goes.bind (c.goes_registerSource env _ _ _ _ _ _) fun provenanceId s'' _ _ => ?_
  refine Goes.after (Steady.collect fun conflict _ => c.steady_dissentItem env _ _ _ conflict) fun dissents hdissents => ?_
  refine Goes.after (c.steady_summaryItem env _ _ _ hmerged hkind) fun summary hsummary => ?_
  refine Goes.bind (c.goes_admitAll env ?_ request binding) fun stored _ _ _ => c.goes_complete env request binding _
  intro derived hmem
  rcases List.mem_append.mp hmem with hdissent | hlast
  · exact hdissents derived hdissent
  · rw [List.mem_singleton.mp hlast]
    exact hsummary

theorem goes_consolidate (r : ConsolidationRequest) (binding : Option VerifiedGovernedContextBinding) :
    Goes (Consolidates c) s (c.consolidate env r binding) fun _ _ => True := by
  refine c.goes_guardedRun env _ _ _ fun binding s' _ => ?_
  refine Goes.after (c.steady_resolveJob env r _) fun resolved hkind => ?_
  refine Goes.after (steady_replay env _ _) fun replayed _ => ?_
  cases replayed with
  | some outcome => exact Goes.pure trivial
  | none => exact c.goes_runJob env resolved.1 _ binding hkind

/-! ## Correcting -/

theorem goes_consolidatedPayload (item : GovernedMemoryItem) :
    Goes (Consolidates c) s (c.consolidatedPayload env item) fun document s' =>
      ∃ read ∈ s'.registry.corrected, sha256Urn read = item.contentDigest ∧ consolidatedDocument read = .ok document := by
  refine Goes.bind (Goes.inMemory (K := Quiet item.memoryItemId) (Coordinator.quiet_readVersion env.toEnv c.backend _ _ _)
    fun _ _ h => .quiet s.registry h) fun read s' _ _ => ?_
  refine Goes.after steady_refuse fun _ hbinds => ?_
  refine Goes.bind (Goes.updateRegistry (.reading s'.stores s'.registry read)) fun _ s'' _ hread => ?_
  subst hread
  refine Goes.pureStep fun document hdocument => ⟨read, ?_, not_not.mp hbinds, hdocument⟩
  exact List.mem_append_right _ (List.mem_singleton.mpr rfl)

theorem goes_runCorrection {target : AdmittedMemoryVersion} {read : Bytes} {payload : Members} {submitted : PyValue}
    {statements : List Statement} (reasonRef correctionDigest : PyStr) (request : AcceptedRequest)
    (binding : VerifiedGovernedContextBinding) (mem : target ∈ s.stores.ledger)
    (consolidated : target.item.sourceKind = .memoryConsolidation) (kind : target.item.memoryKind ≠ .dissent)
    (corrected : read ∈ s.registry.corrected) (binds : sha256Urn read = target.item.contentDigest)
    (found : consolidatedDocument read = .ok payload) (keyed : Keyed submitted)
    (asked : Memory.correctedStatements submitted = .ok statements) :
    Goes (Consolidates c) s (c.runCorrection env target.item payload statements reasonRef correctionDigest request binding)
      fun _ _ => True := by
  refine Goes.after steady_pureStep fun _ hchecked => ?_
  refine Goes.after steady_pureStep fun citations _ => ?_
  refine Goes.after (Steady.collect (Q := fun _ => True) fun citation _ => c.steady_citedVersion env citation)
    fun sources _ => ?_
  refine Goes.after (steady_decideUnder env _ _) fun decision _ => ?_
  refine Goes.bind (c.goes_registerSource env _ _ _ _ _ _) fun provenanceId s' hmoved _ => ?_
  refine Goes.after steady_pureStep fun entries hentries => ?_
  refine Goes.after steady_pureStep fun conflicts _ => ?_
  refine Goes.after steady_pureStep fun claimSources _ => ?_
  refine Goes.after steady_pureStep fun uncertainty _ => ?_
  refine Goes.after steady_pureStep fun newPayload hnew => ?_
  refine Goes.after (Steady.collect (Q := fun _ => True) fun ref _ => (steady_version env ref).weaken fun _ _ => trivial)
    fun derivedFrom _ => ?_
  refine Goes.after steady_pureStep fun minimum _ => ?_
  refine Goes.after steady_pureStep fun confidence _ => ?_
  refine Goes.after steady_pureStep fun uncertaintyDigest _ => ?_
  refine Goes.after (c.steady_derivedItem env _ _) fun item hitem => ?_
  obtain ⟨now, marking, validFrom, validUntil, hfields⟩ := hitem
  refine Goes.bind (c.goes_admitAndCommit env ⟨?_, ?_, ?_⟩ request binding) fun record _ _ _ => ?_
  · exact (congrArg MemoryFields.sourceKind hfields).trans rfl
  · exact (congrArg MemoryFields.contentDigest hfields).trans rfl
  · refine .correction ((Consolidates.ledger_prefix hmoved).subset mem) consolidated kind ⟨?_, ?_, ?_⟩
      ((Consolidates.corrected_prefix hmoved).subset corrected) binds
      ⟨found, keyed, asked, hchecked, hentries, _, _, _, _, hnew⟩
    · exact (congrArg MemoryFields.memoryItemId hfields).trans rfl
    · exact (congrArg MemoryFields.memoryKind hfields).trans rfl
    · exact (congrArg MemoryFields.memoryVersion hfields).trans rfl
  · exact Goes.after steady_pureStep fun dissentRefs _ => c.goes_complete env request binding _

theorem goes_correct (r : CorrectionRequest) (binding : Option VerifiedGovernedContextBinding) :
    Goes (Consolidates c) s (c.correct env r binding) fun _ _ => True := by
  refine c.goes_guardedRun env _ _ _ fun binding _ _ => ?_
  refine Goes.after steady_pureStep fun _ _ => ?_
  refine Goes.after steady_pureStep fun _ _ => ?_
  refine Goes.after steady_pureStep fun statements hstatements => ?_
  refine Goes.after (c.steady_visibleVersion env _ _ _) fun record hrecord => ?_
  refine Goes.after steady_pureStep fun correctionDigest _ => ?_
  refine Goes.after (steady_replay env _ _) fun replayed _ => ?_
  cases replayed with
  | some outcome => exact Goes.pure trivial
  | none =>
    obtain ⟨slot, -, hget⟩ := hrecord
    refine Goes.after (steady_checkCorrectionTarget env record.item) fun _ htarget => ?_
    refine Goes.bind (c.goes_consolidatedPayload env record.item) fun document s'' hmoved hread => ?_
    obtain ⟨read, hcorrected, hbinds, hdocument⟩ := hread
    exact c.goes_runCorrection env _ _ _ binding
      ((Consolidates.ledger_prefix hmoved).subset (VersionLedger.get_eq_some hget).1) htarget.1 htarget.2 hcorrected hbinds
      hdocument r.keyed hstatements

end ConsolidationService

end OcorRuntime.Memory
