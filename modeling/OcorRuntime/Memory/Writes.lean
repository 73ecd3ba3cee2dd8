import Mathlib.Logic.Relation
import OcorRuntime.Foundations.Collect
import OcorRuntime.Memory.StoreLaws
import OcorRuntime.Memory.Sweep

/-! What the memory operations may do to the version stores, as the writes they are made
of: each kind of write with what holds when it happens, and the rules by which an
operation, wherever it is cut off, is shown to be a sequence of such writes. -/
namespace OcorRuntime.Memory
open Kernel
set_option autoImplicit false
set_option maxHeartbeats 250000

/-! ## Writes -/

section Writes
variable {ω : Type}

/-- Writes about an item that touch neither the ledger nor the recorded tombstones. -/
inductive Quiet (memoryItemId : PyStr) : Stores ω → Stores ω → Prop
  | outside (s : Stores ω) (o : ω) : Quiet memoryItemId s { s with outside := o }
  | catchUp (s : Stores ω) : Quiet memoryItemId s { s with tombstones := s.tombstones.catchUp }
  | stage {s : Stores ω} {record : AdmittedMemoryVersion} {pointers : List RepresentationPointer} {stagedAt : Instant}
      (mem : record ∈ s.ledger) (item : record.item.memoryItemId = memoryItemId)
      (free : s.metadata.get memoryItemId record.item.memoryVersion = none)
      (structured : record.item.representationKinds = [.structured] →
        pointers = [structuredPointer record.item record.itemDigest]) :
      Quiet memoryItemId s { s with metadata := { s.metadata with
        rows := s.metadata.rows.set (memoryItemId, record.item.memoryVersion)
          ⟨stagedVersion record pointers stagedAt, .pending, none⟩ } }
  | commit {s : Stores ω} {found : StoredVersion} {committedAt : Instant}
      (held : s.metadata.get memoryItemId (s.metadata.head memoryItemId + 1) = some found)
      (pending : found.state = .pending) :
      Quiet memoryItemId s { s with metadata :=
        ⟨s.metadata.rows.set (memoryItemId, s.metadata.head memoryItemId + 1)
            ⟨found.staged, .committed, some committedAt⟩,
          s.metadata.heads.set memoryItemId (s.metadata.head memoryItemId + 1)⟩ }

theorem Quiet.ledger_eq {memoryItemId : PyStr} {s s' : Stores ω} (h : Relation.ReflTransGen (Quiet memoryItemId) s s') :
    s'.ledger = s.ledger := by
  induction h with
  | refl => rfl
  | tail _ hstep ih =>
    rw [← ih]
    cases hstep <;> rfl

theorem TombstoneStore.all_catchUp (t : TombstoneStore) : t.catchUp.all = t.all := by
  simp [catchUp, all]

theorem Quiet.tombstones_eq {memoryItemId : PyStr} {s s' : Stores ω}
    (h : Relation.ReflTransGen (Quiet memoryItemId) s s') : s'.tombstones.all = s.tombstones.all := by
  induction h with
  | refl => rfl
  | tail _ hstep ih =>
    rw [← ih]
    cases hstep with
    | catchUp => exact TombstoneStore.all_catchUp _
    | outside | stage | commit => rfl

/-- The version is committed. -/
def MetadataStore.Committed (m : MetadataStore) (memoryItemId : PyStr) (version : ℕ) : Prop :=
  ∃ stored, m.get memoryItemId version = some stored ∧ stored.state = .committed

theorem Quiet.get_mono {memoryItemId item : PyStr} {version : ℕ} {stored : StoredVersion} {s s' : Stores ω}
    (h : Relation.ReflTransGen (Quiet memoryItemId) s s') (hget : s.metadata.get item version = some stored) :
    ∃ later, s'.metadata.get item version = some later ∧ later.staged = stored.staged ∧
      (stored.state = .committed → later = stored) := by
  induction h with
  | refl => exact ⟨stored, hget, rfl, fun _ => rfl⟩
  | @tail middle last _ hstep ih =>
    obtain ⟨later, hlater, hstaged, hsame⟩ := ih
    cases hstep with
    | outside => exact ⟨later, hlater, hstaged, hsame⟩
    | catchUp => exact ⟨later, hlater, hstaged, hsame⟩
    | @stage record pointers stagedAt mem hitem free structured =>
      refine ⟨later, ?_, hstaged, hsame⟩
      have hne : (memoryItemId, record.item.memoryVersion) ≠ (item, version) := by
        intro heq
        cases heq
        rw [free] at hlater
        cases hlater
      exact (Dict.get?_set_of_ne _ _ hne).trans hlater
    | @commit found committedAt held pending =>
      by_cases hslot : (memoryItemId, middle.metadata.head memoryItemId + 1) = (item, version)
      · cases hslot
        rw [held] at hlater
        cases hlater
        refine ⟨_, Dict.get?_set_self _ _ _, hstaged, fun hcommitted => ?_⟩
        rw [hsame hcommitted, hcommitted] at pending
        cases pending
      · exact ⟨later, (Dict.get?_set_of_ne _ _ hslot).trans hlater, hstaged, hsame⟩

theorem Quiet.committed_mono {memoryItemId item : PyStr} {version : ℕ} {s s' : Stores ω}
    (h : Relation.ReflTransGen (Quiet memoryItemId) s s') (hcommitted : s.metadata.Committed item version) :
    s'.metadata.Committed item version := by
  obtain ⟨stored, hget, hstate⟩ := hcommitted
  obtain ⟨later, hlater, -, hsame⟩ := Quiet.get_mono h hget
  exact ⟨later, hlater, by rw [hsame hstate, hstate]⟩

theorem Quiet.head_mono {memoryItemId item : PyStr} {s s' : Stores ω}
    (h : Relation.ReflTransGen (Quiet memoryItemId) s s') : s.metadata.head item ≤ s'.metadata.head item := by
  induction h with
  | refl => exact le_refl _
  | @tail middle last _ hstep ih =>
    refine ih.trans ?_
    cases hstep with
    | outside => exact le_refl _
    | catchUp => exact le_refl _
    | stage => exact le_refl _
    | commit held pending =>
      unfold MetadataStore.head
      dsimp only
      rw [Dict.get?_set]
      split_ifs with hitem
      · subst hitem
        simp
      · exact le_refl _

/-- The committed versions of an item are those up to its head. -/
def MetadataStore.Ordered (m : MetadataStore) : Prop :=
  ∀ memoryItemId version, m.Committed memoryItemId version ↔ 1 ≤ version ∧ version ≤ m.head memoryItemId

theorem Quiet.ordered {memoryItemId : PyStr} {s s' : Stores ω} (h : Relation.ReflTransGen (Quiet memoryItemId) s s')
    (hordered : s.metadata.Ordered) : s'.metadata.Ordered := by
  induction h with
  | refl => exact hordered
  | @tail middle last _ hstep ih =>
    cases hstep with
    | outside => exact ih
    | catchUp => exact ih
    | @stage record pointers stagedAt mem hitem free structured =>
      intro item version
      refine Iff.trans ?_ (ih item version)
      unfold MetadataStore.Committed MetadataStore.get at *
      dsimp only
      rw [Dict.get?_set]
      split_ifs with hslot
      · cases hslot
        simp [free]
      · rfl
    | @commit found committedAt held pending =>
      intro item version
      have hbefore := ih item version
      unfold MetadataStore.Committed MetadataStore.get MetadataStore.head at *
      dsimp only
      rw [Dict.get?_set, Dict.get?_set]
      by_cases hitem : memoryItemId = item
      · subst hitem
        by_cases hversion : (middle.metadata.heads.get? memoryItemId).getD 0 + 1 = version
        · subst hversion
          simp
        · have hslot : (memoryItemId, (middle.metadata.heads.get? memoryItemId).getD 0 + 1) ≠ (memoryItemId, version) :=
            fun h => hversion (congrArg Prod.snd h)
          rw [if_neg hslot, hbefore, if_pos rfl, Option.getD_some]
          omega
      · have hslot : (memoryItemId, (middle.metadata.heads.get? memoryItemId).getD 0 + 1) ≠ (item, version) :=
          fun h => hitem (congrArg Prod.fst h)
        rw [if_neg hslot, if_neg hitem]
        exact hbefore

/-- The ledger takes the record. -/
structure Fits (ledger : VersionLedger) (record : AdmittedMemoryVersion) : Prop where
  verified : record.verify = .ok ()
  next : record.item.memoryVersion = ledger.latestVersion record.item.memoryItemId + 1
  fresh : ledger.byIdempotencyKey record.idempotencyKey = none

/-- The record enters the lifecycle, on an admittable version if it is not the first. The key
is the one of its own item. -/
structure Enters (ledger : VersionLedger) (record : AdmittedMemoryVersion) : Prop where
  event : ∃ instant, record.lifecycleEvent = .admitted record.item.versionRef record.item.lifecycleStatus instant
  status : record.item.lifecycleStatus.isAdmission = true
  keyed : ∃ operationId, record.idempotencyKey = idempotencyKey record.item operationId
  after : ∀ head ∈ ledger, head.item.memoryItemId = record.item.memoryItemId →
    head.item.memoryVersion + 1 = record.item.memoryVersion → head.item.lifecycleStatus.isAdmission = true

/-- The registry reports the hold as released at some call. -/
def Env.Released (env : Env) (legalHoldRef : PyStr) : Prop :=
  ∃ n context status, env.legalHold n legalHoldRef context = some status ∧ status.active = false

/-- The record is a lifecycle version made from `head`, along a declared transition; a held
`head` has its hold among the released ones. -/
structure Changes (released : PyStr → Prop) (head record : AdmittedMemoryVersion) : Prop where
  built : ∃ plan decision deletionEpoch phase now,
    Plan.version plan decision deletionEpoch record.item.lifecycleStatus phase head now = .ok record
  declared : record.item.lifecycleStatus ∈ head.item.lifecycleStatus.transitions
  restores : head.item.lifecycleStatus = .legalHold →
    record.item.lifecycleStatus = .deletionPending ∨ some record.item.lifecycleStatus = head.item.priorLifecycleStatus
  unheld : head.item.lifecycleStatus = .legalHold → ∃ ref, head.item.legalHoldRef = some ref ∧ released ref

/-- What a saga found left at its participants. -/
structure Residue (c : Coordinator ω) (phase : TombstonePhase) (residue : List (PyStr × ℕ)) : Prop where
  named : ∀ count ∈ residue, count.1 ∈ c.participants.map Participant.name
  distinct : (residue.map Prod.fst).Nodup
  positive : ∀ count ∈ residue, 1 ≤ count.2
  complete : phase ≠ .incomplete → residue = []

/-- The version a tombstone is written on, as a saga finds it: committed, and the head of
its item when the saga starts. -/
structure Entombable (s : Stores ω) (head : AdmittedMemoryVersion) (phase : TombstonePhase) (epoch : ℕ) : Prop where
  mem : head ∈ s.ledger
  committed : head.item.memoryVersion ≤ s.metadata.head head.item.memoryItemId
  current : phase = .started → head.item.memoryVersion = s.metadata.head head.item.memoryItemId
  resumed : phase = .started → head.item.lifecycleStatus ≠ .deletionPending ∧
    (head.item.lifecycleStatus = .deletionIncomplete → head.item.deletionEpoch = some epoch)
  pending : phase ≠ .started → head.item.lifecycleStatus = .deletionPending ∧ head.item.deletionEpoch = some epoch

/-- The entry is the one of a version made from `head`. -/
structure Entombs (c : Coordinator ω) (s : Stores ω) (entry : TombstoneEntry) (head : AdmittedMemoryVersion) : Prop where
  found : Entombable s head entry.phase entry.deletionEpoch
  made : ∃ record plan decision status phase residue retained built stamped,
    Plan.version plan decision (some entry.deletionEpoch) status phase head built = .ok record ∧
      Residue c entry.phase residue ∧
      entry = c.tombstoneEntry record plan entry.phase entry.deletionEpoch residue retained
        (s.metadata.committedVersions head.item.memoryItemId head.item.memoryVersion) stamped

/-- The writes about an item; `P` restricts the versions a tombstone is written on, and
`released` are the holds that the registry reports as released. -/
inductive Write (c : Coordinator ω) (P : VersionLedger → List TombstoneEntry → AdmittedMemoryVersion → Prop)
    (released : PyStr → Prop) (memoryItemId : PyStr) : Stores ω → Stores ω → Prop
  | quiet {s s' : Stores ω} (h : Quiet memoryItemId s s') : Write c P released memoryItemId s s'
  | admission {s : Stores ω} {record : AdmittedMemoryVersion} (item : record.item.memoryItemId = memoryItemId)
      (fits : Fits s.ledger record) (enters : Enters s.ledger record) :
      Write c P released memoryItemId s { s with ledger := s.ledger ++ [record] }
  | change {s : Stores ω} {head record : AdmittedMemoryVersion} (item : record.item.memoryItemId = memoryItemId)
      (fits : Fits s.ledger record) (mem : head ∈ s.ledger) (changes : Changes released head record)
      (entombed : record.item.lifecycleStatus.isDeletion = true → ∃ entry ∈ s.tombstones.all,
        entry.memoryItemId = memoryItemId ∧ record.item.deletionEpoch = some entry.deletionEpoch) :
      Write c P released memoryItemId s { s with ledger := s.ledger ++ [record] }
  | entomb {s : Stores ω} {entry : TombstoneEntry} {head : AdmittedMemoryVersion}
      (item : head.item.memoryItemId = memoryItemId) (fits : epochConflict entry s.tombstones.all = none)
      (entombs : Entombs c s entry head) (allowed : P s.ledger s.tombstones.all head)
      (progress : Progress) (wrote : progress = .written ∨ progress = .done) :
      Write c P released memoryItemId s { s with tombstones := s.tombstones.appended entry progress }

theorem Write.ledger_prefix {c : Coordinator ω} {P : VersionLedger → List TombstoneEntry → AdmittedMemoryVersion → Prop}
    {released : PyStr → Prop} {memoryItemId : PyStr} {s s' : Stores ω} (h : Relation.ReflTransGen (Write c P released memoryItemId) s s') :
    s.ledger <+: s'.ledger := by
  induction h with
  | refl => exact List.prefix_refl _
  | tail _ hstep ih =>
    refine ih.trans ?_
    cases hstep with
    | quiet h => rw [Quiet.ledger_eq (.single h)]
    | admission => exact List.prefix_append _ _
    | change => exact List.prefix_append _ _
    | entomb => exact List.prefix_refl _

theorem Write.ordered {c : Coordinator ω} {P : VersionLedger → List TombstoneEntry → AdmittedMemoryVersion → Prop}
    {released : PyStr → Prop} {memoryItemId : PyStr} {s s' : Stores ω}
    (h : Relation.ReflTransGen (Write c P released memoryItemId) s s') (hordered : s.metadata.Ordered) :
    s'.metadata.Ordered := by
  induction h with
  | refl => exact hordered
  | tail _ hstep ih =>
    cases hstep with
    | quiet h => exact Quiet.ordered (.single h) ih
    | admission => exact ih
    | change => exact ih
    | entomb => exact ih

theorem Write.head_of_ne {c : Coordinator ω} {P : VersionLedger → List TombstoneEntry → AdmittedMemoryVersion → Prop}
    {released : PyStr → Prop} {memoryItemId item : PyStr} {s s' : Stores ω} (h : Write c P released memoryItemId s s')
    (hne : memoryItemId ≠ item) : s'.metadata.head item = s.metadata.head item := by
  cases h with
  | quiet h =>
    cases h with
    | outside => rfl
    | catchUp => rfl
    | stage => rfl
    | commit =>
      unfold MetadataStore.head
      dsimp only
      rw [Dict.get?_set_of_ne _ _ hne]
  | admission => rfl
  | change => rfl
  | entomb => rfl

end Writes

/-! ## Rules -/

section Rules
variable {ω α β : Type} {env : Env} {s : Stores ω} {M N : Stores ω → Stores ω → Prop}

/-- The worlds are connected by writes of `M`. -/
def Along (M : Stores ω → Stores ω → Prop) (w w' : World ω) : Prop := Relation.ReflTransGen M w.stores w'.stores

instance : Std.Refl (Along M) := ⟨fun _ => .refl⟩

instance : IsTrans (World ω) (Along M) := ⟨fun _ _ _ h h' => h.trans h'⟩

/-- From these stores the operation makes writes of `M` only, however it ends, and what it
returns meets `Q`. -/
def Runs (M : Stores ω → Stores ω → Prop) (s : Stores ω) (x : Act ω α) (Q : α → Stores ω → Prop) : Prop :=
  ∀ n, Op.Moves (Along M) ⟨s, n⟩ x fun a w => Q a w.stores

/-- From these stores the operation writes nothing, and what it returns meets `Q`. -/
def Still (s : Stores ω) (x : Act ω α) (Q : α → Prop) : Prop :=
  Runs (fun _ _ => False) s x fun a _ => Q a

theorem Runs.mono {x : Act ω α} {Q R : α → Stores ω → Prop} (hx : Runs M s x Q) (hM : ∀ s s', M s s' → N s s')
    (hQ : ∀ a s', Relation.ReflTransGen M s s' → Q a s' → R a s') : Runs N s x R := fun n =>
  ⟨Relation.ReflTransGen.mono hM _ _ (hx n).1, fun a ha => hQ a _ (hx n).1 ((hx n).2 a ha)⟩

theorem Runs.weaken {x : Act ω α} {Q R : α → Stores ω → Prop} (hx : Runs M s x Q)
    (hQ : ∀ a s', Relation.ReflTransGen M s s' → Q a s' → R a s') : Runs M s x R :=
  hx.mono (fun _ _ h => h) hQ

theorem Runs.pure {a : α} {Q : α → Stores ω → Prop} (h : Q a s) : Runs M s (Pure.pure a : Act ω α) Q :=
  fun _ => Op.Moves.pure h

theorem Runs.raise (e : Raised) {Q : α → Stores ω → Prop} : Runs M s (Op.raise e : Act ω α) Q :=
  fun _ => Op.Moves.raise e

theorem Runs.lift {y : Except Raised α} {Q : α → Stores ω → Prop} (h : ∀ a, y = .ok a → Q a s) :
    Runs M s (Op.lift y : Act ω α) Q :=
  fun _ => Op.Moves.lift h

theorem Runs.bind {x : Act ω α} {f : α → Act ω β} {Q : α → Stores ω → Prop} {T : β → Stores ω → Prop}
    (hx : Runs M s x Q) (hf : ∀ a s', Relation.ReflTransGen M s s' → Q a s' → Runs M s' (f a) T) :
    Runs M s (x >>= f) T :=
  fun n => (hx n).bind fun a w hR hQ => hf a w.stores hR hQ w.calls

theorem Runs.map {x : Act ω α} {f : α → β} {Q : α → Stores ω → Prop} {T : β → Stores ω → Prop} (hx : Runs M s x Q)
    (hf : ∀ a s', Relation.ReflTransGen M s s' → Q a s' → T (f a) s') : Runs M s (f <$> x) T :=
  fun n => (hx n).map fun a w hR hQ => hf a w.stores hR hQ

theorem Runs.guarded {x : Act ω α} {handler : Raised → Act ω α} {Q : α → Stores ω → Prop} (hx : Runs M s x Q)
    (hh : ∀ e s', Relation.ReflTransGen M s s' → Runs M s' (handler e) Q) : Runs M s (Op.guarded x handler) Q :=
  fun n => (hx n).guarded fun e w hR => hh e w.stores hR w.calls

theorem Runs.failClosed {x : Act ω α} {passes : ErrorClass → Bool} {error : PyError} {Q : α → Stores ω → Prop}
    (hx : Runs M s x Q) : Runs M s (failClosed passes error x) Q := by
  refine hx.guarded fun why s' _ => ?_
  cases why with
  | interrupt => exact Runs.raise _
  | exception e => exact Runs.raise _

theorem Runs.forM {f : α → Act ω Unit} {items : List α}
    (hf : ∀ a ∈ items, ∀ s', Relation.ReflTransGen M s s' → Runs M s' (f a) fun _ _ => True) :
    Runs M s (items.forM f) fun _ _ => True :=
  fun _ => Op.Moves.forM fun a ha w hR => hf a ha w.stores hR w.calls

theorem Still.eq_of {s s' : Stores ω} (h : Relation.ReflTransGen (fun _ _ => False) s s') : s = s' := by
  induction h with
  | refl => rfl
  | tail _ hstep _ => exact hstep.elim

theorem Runs.after {x : Act ω α} {f : α → Act ω β} {Q : α → Prop} {T : β → Stores ω → Prop} (hx : Still s x Q)
    (hf : ∀ a, Q a → Runs M s (f a) T) : Runs M s (x >>= f) T := by
  refine Runs.bind (Q := fun a s' => s' = s ∧ Q a) (hx.mono (fun _ _ h => h.elim) fun a s' hR hQ => ⟨(Still.eq_of hR).symm, hQ⟩) ?_
  rintro a s' - ⟨rfl, hQ⟩
  exact hf a hQ

theorem Still.weaken {x : Act ω α} {Q Q' : α → Prop} (hx : Still s x Q) (hQ : ∀ a, Q a → Q' a) : Still s x Q' :=
  Runs.weaken hx fun a _ _ h => hQ a h

theorem Still.collect {f : α → Act ω β} {items : List α} {Q : α → β → Prop} (hf : ∀ a, Still s (f a) (Q a)) :
    Still s (Op.collect f items) fun results => List.Forall₂ Q items results := by
  induction items with
  | nil => exact Runs.pure .nil
  | cons a items ih => exact Runs.after (hf a) fun _ hb => Runs.after ih fun _ hrest => Runs.pure (.cons hb hrest)

theorem Still.forM {f : α → Act ω Unit} {items : List α} {Q : α → Prop} (hf : ∀ a, Still s (f a) fun _ => Q a) :
    Still s (items.forM f) fun _ => ∀ a ∈ items, Q a := by
  induction items with
  | nil => exact Runs.pure (by simp)
  | cons a items ih =>
    refine Runs.after (hf a) fun _ ha => ih.weaken fun _ hrest => ?_
    exact List.forall_mem_cons.mpr ⟨ha, hrest⟩

theorem still_check {bad : Prop} [Decidable bad] {error : PyError} : Still s (check bad error) fun _ => ¬ bad := by
  refine Runs.lift fun u hu => ?_
  unfold refuseIf at hu
  split_ifs at hu with hbad
  · cases hu
  · exact hbad

theorem still_lift {x : Except PyError α} : Still s (Op.lift (x.mapError .exception) : Act ω α) fun a => x = .ok a :=
  Runs.lift fun _ h => mapError_eq_ok.1 h

end Rules

/-! ## Port calls -/

section Ports
variable {ω α : Type} (env : Env) (s : Stores ω) {M : Stores ω → Stores ω → Prop}

theorem runs_port {x : ℕ → Op (Stores ω) Raised α} {Q : α → Stores ω → Prop}
    (hM : ∀ n, (x n s).2 = s ∨ M s (x n s).2) (hQ : ∀ n a, (x n s).1 = .ok a → Q a (x n s).2) :
    Runs M s (port env x) Q := by
  intro n
  have hmoved : Relation.ReflTransGen M s (x n s).2 := by
    rcases hM n with h | h
    · rw [h]
    · exact .single h
  unfold port Op.Moves Along
  cases hfault : env.fault n with
  | works => exact ⟨by simpa [hfault] using hmoved, fun a ha => by simp only [hfault] at ha ⊢; exact hQ n a ha⟩
  | raises why progress =>
    cases progress with
    | untouched => exact ⟨by simp [hfault, Relation.ReflTransGen.refl], fun a ha => by simp [hfault] at ha⟩
    | caughtUp => exact ⟨by simp [hfault, Relation.ReflTransGen.refl], fun a ha => by simp [hfault] at ha⟩
    | written => exact ⟨by simpa [hfault] using hmoved, fun a ha => by simp [hfault] at ha⟩
    | done => exact ⟨by simpa [hfault] using hmoved, fun a ha => by simp [hfault] at ha⟩

theorem still_query {answer : ℕ → Stores ω → Except PyError α} :
    Still s (query env answer) fun a => ∃ n, answer n s = .ok a :=
  runs_port env s (fun _ => .inl rfl) fun n _ ha => ⟨n, mapError_eq_ok.1 ha⟩

theorem still_now : Still s (now env) fun _ => True := (still_query env s).weaken fun _ _ => trivial

theorem still_read {f : Stores ω → α} : Still s (query env fun _ s => .ok (f s)) fun a => a = f s :=
  (still_query env s).weaken fun _ ⟨_, h⟩ => (Except.ok.inj h).symm

theorem runs_outside {memoryItemId : PyStr} {x : Op ω Raised α} (hM : ∀ s s', Quiet memoryItemId s s' → M s s') :
    Runs M s (outside env x) fun _ _ => True :=
  runs_port env s (fun _ => .inr (hM _ _ (.outside s _))) fun _ _ _ => trivial

end Ports
end OcorRuntime.Memory
