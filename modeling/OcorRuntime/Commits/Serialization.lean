import OcorRuntime.Commits.TerminusDB

/-! The commits of all adapters, one after the other. `SerialStep` is the store with one client at a time; every
interleaving of the adapters' calls, whatever becomes of their requests, leaves the documents such a serial run
leaves. -/
namespace OcorRuntime.Commits
open Canonical Kernel
set_option autoImplicit false
set_option maxHeartbeats 250000

/-! ## One client at a time -/

inductive Serial
  | acquire (writerId : PyStr)
  | commit (command : CommitCommand) (now : Instant)
  | acknowledge (eventId recordedAt : PyStr)

/-- What a commit leaves behind. -/
def Database.commitRevised (db : Database) (keys : CommandKeys) (revised : Revised) : Database :=
  { db with aggregates := db.aggregates.set keys.aggregate revised.aggregate
            commits := db.commits.set revised.commitKey revised.commit
            idempotency := db.idempotency.set keys.idempotency revised.binding
            outbox := db.outbox.set revised.entryKey revised.entry }

/-- What the commit of a command requires and writes, under the epoch of the fence. -/
structure Committable (db : Database) (command : CommitCommand) (now : Instant) (keys : CommandKeys) (revised : Revised)
    (fence : C3WriterFence) : Prop where
  keys_eq : command.keys = .ok keys
  branch : command.branch = mainBranch
  fenced : db.fence = some fence
  unbound : db.idempotency.get? keys.idempotency = none
  expected : command.expectedRevision = revisionOf (db.aggregates.get? keys.aggregate)
  revised_eq : revise command (db.aggregates.get? keys.aggregate) fence.writerEpoch now = .ok revised
  commitFresh : db.commits.get? revised.commitKey = none
  entryFresh : db.outbox.get? revised.entryKey = none

inductive SerialStep : Database → Serial → Database → Prop
  | acquire (db : Database) (writerId : PyStr) :
      SerialStep db (.acquire writerId) { db with fence := some ⟨fenceBoundary, db.epoch + 1, writerId⟩ }
  | commit {db : Database} {command : CommitCommand} {now : Instant} {keys : CommandKeys} {revised : Revised}
      {fence : C3WriterFence} (h : Committable db command now keys revised fence) :
      SerialStep db (.commit command now) (db.commitRevised keys revised)
  | acknowledge {db : Database} {eventId recordedAt key : PyStr} {entry : C3OutboxEntry} {fence : C3WriterFence}
      (hkey : documentKey [eventId] = .ok key) (hentry : db.outbox.get? key = some entry)
      (hbranch : entry.branch = mainBranch) (hfence : db.fence = some fence) (hfresh : db.attempts.get? key = none) :
      SerialStep db (.acknowledge eventId recordedAt)
        { db with attempts := db.attempts.set key ⟨eventId, acknowledged, recordedAt, fence.writerEpoch⟩ }

inductive SerialRun : Database → List Serial → Database → Prop
  | nil (db : Database) : SerialRun db [] db
  | snoc {db db' db'' : Database} {steps : List Serial} {step : Serial} (hrun : SerialRun db steps db')
      (hstep : SerialStep db' step db'') : SerialRun db (steps ++ [step]) db''

theorem SerialRun.append {db db' db'' : Database} {steps steps' : List Serial} (h : SerialRun db steps db')
    (h' : SerialRun db' steps' db'') : SerialRun db (steps ++ steps') db'' := by
  induction h' with
  | nil => rwa [List.append_nil]
  | snoc _ hstep ih =>
    rw [← List.append_assoc]
    exact ih.snoc hstep

theorem SerialRun.single {db db' : Database} {step : Serial} (h : SerialStep db step db') : SerialRun db [step] db' :=
  (SerialRun.nil db).snoc h

theorem SerialRun.induct_on {R : Database → Database → Prop} (hrefl : ∀ db, R db db)
    (htrans : ∀ db db' db'', R db db' → R db' db'' → R db db'')
    (hstep : ∀ db step db', SerialStep db step db' → R db db') {db db' : Database} {steps : List Serial}
    (h : SerialRun db steps db') : R db db' := by
  induction h with
  | nil => exact hrefl _
  | snoc _ hlast ih => exact htrans _ _ _ ih (hstep _ _ _ hlast)

/-! ## What only grows -/

/-- Commits, bindings, entries and attempts stay, epochs do not fall, and an aggregate that has kept its revision has
kept everything. -/
structure Grown (db db' : Database) : Prop where
  epoch : db.epoch ≤ db'.epoch
  commits : ∀ key commit, db.commits.get? key = some commit → db'.commits.get? key = some commit
  idempotency : ∀ key binding, db.idempotency.get? key = some binding → db'.idempotency.get? key = some binding
  outbox : ∀ key entry, db.outbox.get? key = some entry → db'.outbox.get? key = some entry
  attempts : ∀ key attempt, db.attempts.get? key = some attempt → db'.attempts.get? key = some attempt
  revision : ∀ key, revisionOf (db.aggregates.get? key) ≤ revisionOf (db'.aggregates.get? key)
  unchanged : ∀ key, revisionOf (db'.aggregates.get? key) = revisionOf (db.aggregates.get? key) →
    db'.aggregates.get? key = db.aggregates.get? key

theorem Grown.refl (db : Database) : Grown db db :=
  ⟨Nat.le_refl _, fun _ _ h => h, fun _ _ h => h, fun _ _ h => h, fun _ _ h => h, fun _ => Nat.le_refl _, fun _ _ => rfl⟩

theorem Grown.trans {db db' db'' : Database} (h : Grown db db') (h' : Grown db' db'') : Grown db db'' where
  epoch := h.epoch.trans h'.epoch
  commits key commit hc := h'.commits key commit (h.commits key commit hc)
  idempotency key binding hb := h'.idempotency key binding (h.idempotency key binding hb)
  outbox key entry he := h'.outbox key entry (h.outbox key entry he)
  attempts key attempt ha := h'.attempts key attempt (h.attempts key attempt ha)
  revision key := (h.revision key).trans (h'.revision key)
  unchanged key heq := by
    have h1 := h.revision key
    have h2 := h'.revision key
    rw [h'.unchanged key (by omega), h.unchanged key (by omega)]

theorem get?_set_of_fresh {δ : Type} {documents : Dict PyStr δ} {key : PyStr} (document : δ)
    (hfresh : documents.get? key = none) {k : PyStr} {d : δ} (h : documents.get? k = some d) :
    (documents.set key document).get? k = some d := by
  rw [Dict.get?_set_of_ne _ _ fun hk => ?_, h]
  rw [← hk, hfresh] at h
  cases h

/-- What the four documents of a commit say of each other. -/
structure Revised.Of (revised : Revised) (command : CommitCommand) (aggregate : Option C3Aggregate) (epoch : ℕ) :
    Prop where
  revision : revised.aggregate.revision = revisionOf aggregate + 1
  target : revised.commit.toRevision = revisionOf aggregate + 1
  source : revised.commit.fromRevision = revisionOf aggregate
  epoch_eq : revised.commit.writerEpoch = epoch
  branch : revised.commit.branch = command.branch
  digest : revised.commit.commandDigest = command.commandDigest
  scope : idempotencyParts revised.commit =
    [command.tenantId, command.aggregateType, command.aggregateRef, command.idempotencyKey]
  commitId : revised.aggregate.commitId = revised.commit.commitId
  stateDigest : revised.aggregate.stateDigest = revised.commit.stateDigest
  commitKey : documentKey [revised.commit.commitId] = .ok revised.commitKey
  binding : ∃ key, idempotencyDocument revised.commit = .ok (key, revised.binding)
  entry : outboxDocument revised.commit = .ok (revised.entryKey, revised.entry)
  state : ∃ state, mergedState (aggregate.map C3Aggregate.stateJson) command.canonicalDelta = .ok state ∧
    serialize state = .ok revised.aggregate.stateJson ∧ canonicalDigest state = .ok revised.aggregate.stateDigest

theorem Revised.of_eq_ok {command : CommitCommand} {aggregate : Option C3Aggregate} {epoch : ℕ} {now : Instant}
    {revised : Revised} (h : revise command aggregate epoch now = .ok revised) :
    revised.Of command aggregate epoch := by
  obtain ⟨state, hstate, h⟩ := bind_eq_ok.1 h
  obtain ⟨stateDigest, hdigest, h⟩ := bind_eq_ok.1 h
  obtain ⟨commitHash, -, h⟩ := bind_eq_ok.1 h
  obtain ⟨eventHash, -, h⟩ := bind_eq_ok.1 h
  obtain ⟨payloadDigest, -, h⟩ := bind_eq_ok.1 h
  obtain ⟨commitKey, hkey, h⟩ := bind_eq_ok.1 h
  obtain ⟨evidence, -, h⟩ := bind_eq_ok.1 h
  obtain ⟨stateJson, hjson, h⟩ := bind_eq_ok.1 h
  obtain ⟨binding, hbinding, h⟩ := bind_eq_ok.1 h
  obtain ⟨entry, hentry, h⟩ := bind_eq_ok.1 h
  cases h
  exact ⟨rfl, rfl, rfl, rfl, rfl, rfl, rfl, rfl, rfl, hkey, ⟨_, hbinding⟩, hentry, state, hstate, hjson, hdigest⟩

theorem SerialStep.grown {db db' : Database} {step : Serial} (h : SerialStep db step db') : Grown db db' := by
  cases h with
  | acquire writerId => exact { Grown.refl db with epoch := Nat.le_succ _ }
  | @commit command now keys revised fence h =>
    have hrevision := (Revised.of_eq_ok h.revised_eq).revision
    refine { Grown.refl db with
      commits := fun _ _ => get?_set_of_fresh _ h.commitFresh
      idempotency := fun _ _ => get?_set_of_fresh _ h.unbound
      outbox := fun _ _ => get?_set_of_fresh _ h.entryFresh, revision := fun key => ?_, unchanged := fun key heq => ?_ }
    · by_cases hkey : keys.aggregate = key
      · subst hkey
        simp only [Database.commitRevised, Dict.get?_set_self, revisionOf, Option.map_some, Option.getD_some, hrevision]
        exact Nat.le_succ _
      · simp only [Database.commitRevised, Dict.get?_set_of_ne _ _ hkey]
        exact Nat.le_refl _
    · by_cases hkey : keys.aggregate = key
      · subst hkey
        simp only [Database.commitRevised, Dict.get?_set_self, revisionOf, Option.map_some, Option.getD_some, hrevision]
          at heq
        omega
      · simp only [Database.commitRevised, Dict.get?_set_of_ne _ _ hkey]
  | acknowledge hkey hentry hbranch hfence hfresh =>
    exact { Grown.refl db with attempts := fun _ _ => get?_set_of_fresh _ hfresh }

theorem SerialRun.grown {db db' : Database} {steps : List Serial} (h : SerialRun db steps db') : Grown db db' :=
  h.induct_on Grown.refl (fun _ _ _ => Grown.trans) fun _ _ _ => SerialStep.grown

/-! ## Transactions -/

theorem inserted_eq_some {δ : Type} {documents documents' : Dict PyStr δ} {key : PyStr} {document : δ} :
    inserted documents key document = some documents' ↔
      documents.get? key = none ∧ documents' = documents.set key document := by
  unfold inserted
  cases documents.get? key <;> simp [eq_comm]

theorem updated_eq_some {δ : Type} {documents documents' : Dict PyStr δ} {key : PyStr} {document : δ} :
    updated documents key document = some documents' ↔
      documents.get? key ≠ none ∧ documents' = documents.set key document := by
  unfold updated
  cases documents.get? key <;> simp [eq_comm]

theorem transact_eq_some {db db' : Database} {conditions : List Condition} {writes : List Write} :
    db.transact conditions writes = some db' ↔
      (∀ c ∈ conditions, c.Holds db) ∧ writes.foldlM Write.apply db = some db' := by
  unfold Database.transact
  split_ifs with h
  · exact (and_iff_right h).symm
  · exact iff_of_false nofun fun h' => h h'.1

theorem commitWrites_eq_some {db db' : Database} {keys : CommandKeys} {revised : Revised}
    (h : (commitWrites keys (db.aggregates.get? keys.aggregate) revised).foldlM Write.apply db = some db') :
    db.commits.get? revised.commitKey = none ∧ db.outbox.get? revised.entryKey = none ∧
      db' = db.commitRevised keys revised := by
  simp only [commitWrites, List.foldlM_cons, List.foldlM_nil, Option.bind_eq_bind, Option.bind_eq_some_iff] at h
  obtain ⟨db₁, h₁, db₂, h₂, db₃, h₃, db₄, h₄, h⟩ := h
  cases h
  have haggregate : db₁ = { db with aggregates := db.aggregates.set keys.aggregate revised.aggregate } := by
    cases hget : db.aggregates.get? keys.aggregate with
    | none =>
      rw [hget] at h₁
      obtain ⟨d, hd, rfl⟩ := Option.map_eq_some_iff.mp h₁
      rw [(inserted_eq_some.1 hd).2]
    | some a =>
      rw [hget] at h₁
      obtain ⟨d, hd, rfl⟩ := Option.map_eq_some_iff.mp h₁
      rw [(updated_eq_some.1 hd).2]
  subst haggregate
  obtain ⟨commits, hcommits, rfl⟩ := Option.map_eq_some_iff.mp h₂
  obtain ⟨bindings, hbindings, rfl⟩ := Option.map_eq_some_iff.mp h₃
  obtain ⟨entries, hentries, rfl⟩ := Option.map_eq_some_iff.mp h₄
  obtain ⟨hcommit, rfl⟩ := inserted_eq_some.1 hcommits
  obtain ⟨-, rfl⟩ := inserted_eq_some.1 hbindings
  obtain ⟨hentry, rfl⟩ := inserted_eq_some.1 hentries
  exact ⟨hcommit, hentry, rfl⟩

/-- A commit whose conditions hold is the serial commit of its command, whatever was written since its snapshot was
taken. -/
theorem serialStep_of_commit {seen db db' : Database} {command : CommitCommand} {now : Instant} {keys : CommandKeys}
    {revised : Revised} (hgrown : Grown seen db) (hkeys : command.keys = .ok keys) (hbranch : command.branch = mainBranch)
    (hexpected : command.expectedRevision = revisionOf (seen.aggregates.get? keys.aggregate)) {epoch : ℕ}
    (hrevised : revise command (seen.aggregates.get? keys.aggregate) epoch now = .ok revised)
    (happlied : db.transact (commitConditions keys (seen.aggregates.get? keys.aggregate) epoch)
      (commitWrites keys (seen.aggregates.get? keys.aggregate) revised) = some db') :
    SerialStep db (.commit command now) db' ∧ db' = db.commitRevised keys revised := by
  obtain ⟨hconditions, hwrites⟩ := transact_eq_some.1 happlied
  simp only [commitConditions, List.forall_mem_cons, List.not_mem_nil, false_implies, implies_true, and_true]
    at hconditions
  obtain ⟨hepoch, hunbound, haggregate⟩ := hconditions
  obtain ⟨fence, hfence, rfl⟩ := Option.map_eq_some_iff.mp hepoch
  -- the aggregate of the snapshot has kept its revision, and so everything
  have hsame : db.aggregates.get? keys.aggregate = seen.aggregates.get? keys.aggregate := by
    refine hgrown.unchanged _ ?_
    cases hseen : seen.aggregates.get? keys.aggregate with
    | none =>
      rw [hseen] at haggregate
      rw [show db.aggregates.get? keys.aggregate = none from haggregate]
    | some aggregate =>
      rw [hseen] at haggregate
      obtain ⟨current, hcurrent, hrevision⟩ := Option.map_eq_some_iff.mp haggregate
      rw [hcurrent]
      exact hrevision
  rw [← hsame] at hexpected hrevised hwrites
  obtain ⟨hcommit, hentry, rfl⟩ := commitWrites_eq_some hwrites
  exact ⟨.commit ⟨hkeys, hbranch, hfence, hunbound, hexpected, hrevised, hcommit, hentry⟩, rfl⟩

end OcorRuntime.Commits
