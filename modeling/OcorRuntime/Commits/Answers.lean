import OcorRuntime.Commits.Interleavings

/-! What a call that returned has established, whatever else was going on, and what holds of every interleaving. -/
namespace OcorRuntime.Commits
open Canonical Kernel
set_option autoImplicit false
set_option maxHeartbeats 250000

section Answers
variable (admitted : AdapterCall → Prop)

/-- The command is bound to the commit that the outcome tells of. -/
def Committed (command : CommitCommand) (outcome : CommitOutcome) (db : Database) : Prop :=
  ∃ keys binding key commit, command.keys = .ok keys ∧ db.idempotency.get? keys.idempotency = some binding ∧
    binding.commandDigest = command.commandDigest ∧ documentKey [binding.commitId] = .ok key ∧
    db.commits.get? key = some commit ∧ outcomeOf commit outcome.replayed = .ok outcome

def rowOf (aggregate : C3Aggregate) : Except PyError SnapshotRow := do
  let state ← stateEntries (some aggregate.stateJson)
  return ⟨aggregate.revision, state, aggregate.stateDigest, aggregate.commitId⟩

/-- A version that the store went through. -/
def Passed (seen db : Database) : Prop := Reaches admitted .empty seen ∧ Reaches admitted seen db

/-- What an answer says of the store. -/
def Settled : AdapterCall → AdapterResult → Database → Prop
  | .acquireWriter _ writerId, .epoch epoch, db => ∃ before : Database, Reaches admitted .empty before ∧
      before.epoch + 1 = epoch ∧ Reaches admitted { before with fence := some ⟨fenceBoundary, epoch, writerId⟩ } db
  | .commitTransaction _ command _, .outcome outcome, db => Committed command outcome db
  | .readSnapshot tenantId aggregateType aggregateRef, .snapshot row, db => ∃ seen key, Passed admitted seen db ∧
      documentKey [tenantId, aggregateType, aggregateRef] = .ok key ∧ (seen.aggregates.get? key).mapM rowOf = .ok row
  | .claimOutboxBatch limit, .batch rows, db => ∃ seen : Database, Passed admitted seen db ∧
      (seen.pending.take limit.toNat).mapM outboxRow = .ok rows
  | .acknowledgeOutbox _ eventId _, .acknowledged, db => ∃ key entry attempt, documentKey [eventId] = .ok key ∧
      db.outbox.get? key = some entry ∧ entry.branch = mainBranch ∧ db.attempts.get? key = some attempt
  | .reconcile _ _, .repaired count, _ => count = 0
  | _, _, _ => False

variable {admitted}

theorem Committed.grown {command : CommitCommand} {outcome : CommitOutcome} {db db' : Database} (hg : Grown db db')
    (h : Committed command outcome db) : Committed command outcome db' := by
  obtain ⟨keys, binding, key, commit, hkeys, hbinding, hdigest, hkey, hcommit, houtcome⟩ := h
  exact ⟨keys, binding, key, commit, hkeys, hg.idempotency _ _ hbinding, hdigest, hkey, hg.commits _ _ hcommit, houtcome⟩

theorem Settled.reaches {call : AdapterCall} {result : AdapterResult} {db db' : Database} (h : Settled admitted call result db)
    (hr : Reaches admitted db db') : Settled admitted call result db' := by
  cases call <;> cases result <;> try exact h.elim
  case acquireWriter.epoch =>
    obtain ⟨before, hbefore, hepoch, hafter⟩ := h
    exact ⟨before, hbefore, hepoch, hafter.trans hr⟩
  case commitTransaction.outcome => exact Committed.grown hr.fenced.toGrown h
  case readSnapshot.snapshot =>
    obtain ⟨seen, key, ⟨hseen, hsince⟩, hrest⟩ := h
    exact ⟨seen, key, ⟨hseen, hsince.trans hr⟩, hrest⟩
  case claimOutboxBatch.batch =>
    obtain ⟨seen, ⟨hseen, hsince⟩, hrest⟩ := h
    exact ⟨seen, ⟨hseen, hsince.trans hr⟩, hrest⟩
  case acknowledgeOutbox.acknowledged =>
    obtain ⟨key, entry, attempt, hkey, hentry, hbranch, hattempt⟩ := h
    have hg := hr.fenced.toGrown
    exact ⟨key, entry, attempt, hkey, hg.outbox _ _ hentry, hbranch, hg.attempts _ _ hattempt⟩
  case reconcile.repaired => exact h

/-! ## Epochs -/

theorem serialStep_of_acquire {seen db db' : Database} {writerId : PyStr} {condition : Condition} {write : Write}
    (hwrite : (seen.fence = none ∧ condition = .fenceAbsent ∧
        write = .insertFence ⟨fenceBoundary, seen.epoch + 1, writerId⟩) ∨
      (condition = .writerEpoch seen.epoch ∧ write = .updateFence ⟨fenceBoundary, seen.epoch + 1, writerId⟩))
    (happlied : db.transact [condition] [write] = some db') :
    db.epoch = seen.epoch ∧ db' = { db with fence := some ⟨fenceBoundary, seen.epoch + 1, writerId⟩ } := by
  obtain ⟨hconditions, hwrites⟩ := transact_eq_some.1 happlied
  have hholds := hconditions condition (List.mem_singleton_self _)
  have happly : Write.apply db write = some db' := by
    rw [List.foldlM_cons] at hwrites
    obtain ⟨db₁, h₁, h⟩ := Option.bind_eq_some_iff.mp hwrites
    cases h
    exact h₁
  obtain ⟨hnone, rfl, rfl⟩ | ⟨rfl, rfl⟩ := hwrite
  · have hfence : db.fence = none := hholds
    rw [Write.apply, if_pos hfence] at happly
    cases happly
    exact ⟨by rw [Database.epoch, Database.epoch, hfence, hnone], rfl⟩
  · obtain ⟨fence, hfence, hepoch⟩ := Option.map_eq_some_iff.mp (show db.fence.map C3WriterFence.writerEpoch = some seen.epoch from hholds)
    rw [Write.apply, if_neg (by rw [hfence]; exact Option.some_ne_none fence)] at happly
    cases happly
    exact ⟨(Database.epoch_of_fence hfence).trans hepoch, rfl⟩

theorem meets_acquireAttempt {adapter : ℕ} {writerId : PyStr} (hadmitted : admitted (.acquireWriter adapter writerId))
    (s : Backend) :
    (protocol admitted).Meets (fun found s => ∀ epoch ∈ found,
      Settled admitted (.acquireWriter adapter writerId) (.epoch epoch) s.database) (acquireAttempt adapter writerId) s := by
  unfold acquireAttempt
  refine meets_snapshot fun s₁ _ _ => ?_
  -- both branches ask for one transaction
  have hwrites : ∀ condition write,
      ((s₁.database.fence = none ∧ condition = .fenceAbsent ∧
          write = .insertFence ⟨fenceBoundary, s₁.database.epoch + 1, writerId⟩) ∨
        (condition = .writerEpoch s₁.database.epoch ∧
          write = .updateFence ⟨fenceBoundary, s₁.database.epoch + 1, writerId⟩)) →
      (protocol admitted).Meets (fun found s => ∀ epoch ∈ found,
          Settled admitted (.acquireWriter adapter writerId) (.epoch epoch) s.database)
        (transact [condition] [write] >>= fun applied =>
          if applied then do
            let _ ← Session.request (.writeEpoch adapter (s₁.database.epoch + 1))
            return some (s₁.database.epoch + 1)
          else return none) s₁ := by
    intro condition write hwrite
    refine meets_transact ?_ ?_ ?_
    · intro s₂ db' _ _ happlied
      obtain ⟨hepoch, rfl⟩ := serialStep_of_acquire hwrite happlied
      rw [← hepoch]
      exact ⟨.acquire writerId, .acquire s₂.database writerId, adapter, hadmitted⟩
    · intro s₂ db' _ hinv happlied
      obtain ⟨hepoch, rfl⟩ := serialStep_of_acquire hwrite happlied
      refine meets_writeEpoch fun s₃ hrely => ?_
      rintro epoch ⟨⟩
      exact ⟨s₂.database, hinv, by rw [hepoch], hrely⟩
    · exact fun _ _ h => nomatch h
  cases hfence : s₁.database.fence with
  | none => exact hwrites _ _ (.inl ⟨hfence, rfl, rfl⟩)
  | some fence => exact hwrites _ _ (.inr ⟨rfl, rfl⟩)

/-! ## Commits -/

theorem outcomeOf_eq_ok {commit : C3Commit} {replayed : Bool} {outcome : CommitOutcome}
    (h : outcomeOf commit replayed = .ok outcome) :
    outcome.replayed = replayed ∧ ∀ replayed', outcomeOf commit replayed' = .ok { outcome with replayed := replayed' } := by
  obtain ⟨committedAt, htime, h⟩ := bind_eq_ok.1 h
  cases h
  exact ⟨rfl, fun replayed' => by rw [outcomeOf, htime]; rfl⟩

theorem meets_commitAttempt {adapter : ℕ} {command : CommitCommand} {clock : ℕ → Instant} {keys : CommandKeys}
    (hadmitted : admitted (.commitTransaction adapter command clock)) (hbranch : command.branch = mainBranch)
    (hkeys : command.keys = .ok keys) (n : ℕ) (s : Backend) :
    (protocol admitted).Meets (fun found s => ∀ outcome ∈ found, Committed command outcome s.database)
      (commitAttempt adapter command keys (clock n)) s := by
  unfold commitAttempt
  refine meets_snapshot fun s₁ _ _ => meets_checkFence fun s₂ hsince => ?_
  cases hbinding : s₁.database.idempotency.get? keys.idempotency with
  | some binding =>
    refine meets_refuse fun hdigest => meets_computed fun key hkey => ?_
    cases hcommit : s₁.database.commits.get? key with
    | none => trivial
    | some commit =>
      refine meets_computed fun outcome houtcome => ?_
      rintro _ ⟨⟩
      refine Committed.grown hsince.fenced.toGrown
        ⟨keys, binding, key, commit, hkeys, hbinding, not_not.mp hdigest, hkey, hcommit, ?_⟩
      rw [(outcomeOf_eq_ok houtcome).1]
      exact houtcome
  | none =>
    refine meets_refuse fun hexpected => meets_computed fun revised hrevised => ?_
    have hserial : ∀ (s₃ : Backend) (db' : Database), Reaches admitted s₂.database s₃.database →
        s₃.database.transact (commitConditions keys (s₁.database.aggregates.get? keys.aggregate) s₁.database.epoch)
          (commitWrites keys (s₁.database.aggregates.get? keys.aggregate) revised) = some db' →
        SerialStep s₃.database (.commit command (clock n)) db' ∧ db' = s₃.database.commitRevised keys revised :=
      fun s₃ db' hrely happlied => serialStep_of_commit (hsince.trans hrely).fenced.toGrown hkeys hbranch
        (not_not.mp hexpected) hrevised happlied
    refine meets_transact ?_ ?_ ?_
    · intro s₃ db' hrely _ happlied
      exact ⟨.commit command (clock n), (hserial s₃ db' hrely happlied).1, adapter, clock, n, hadmitted, rfl⟩
    · intro s₃ db' hrely _ happlied
      obtain ⟨-, rfl⟩ := hserial s₃ db' hrely happlied
      refine meets_computed fun outcome houtcome => ?_
      rintro _ ⟨⟩
      have hof := Revised.of_eq_ok hrevised
      obtain ⟨bindingKey, hbound⟩ := hof.binding
      obtain ⟨-, hid, hdigest⟩ := idempotencyDocument_eq_ok hbound
      refine ⟨keys, revised.binding, revised.commitKey, revised.commit, hkeys, Dict.get?_set_self _ _ _,
        hdigest.trans hof.digest, ?_, Dict.get?_set_self _ _ _, ?_⟩
      · rw [hid]
        exact hof.commitKey
      · rw [(outcomeOf_eq_ok houtcome).1]
        exact houtcome
    · exact fun _ _ h => nomatch h

theorem meets_commitTransaction {adapter : ℕ} {command : CommitCommand} {clock : ℕ → Instant}
    (hadmitted : admitted (.commitTransaction adapter command clock)) (s : Backend) :
    (protocol admitted).Meets (fun outcome s => Committed command outcome s.database)
      (commitTransaction adapter command clock) s := by
  unfold commitTransaction
  refine meets_refuse fun hbranch => meets_rememberedEpoch fun s₁ _ _ => meets_computed fun keys hkeys => ?_
  exact meets_attempts (meets_commitAttempt hadmitted (not_not.mp hbranch) hkeys) _ s₁

/-! ## Reads and the relay -/

theorem meets_readSnapshot (tenantId aggregateType aggregateRef : PyStr) (s : Backend) :
    (protocol admitted).Meets (fun row s =>
        Settled admitted (.readSnapshot tenantId aggregateType aggregateRef) (.snapshot row) s.database)
      (readSnapshot tenantId aggregateType aggregateRef) s := by
  unfold readSnapshot
  refine meets_computed fun key hkey => meets_snapshot fun s₁ _ hseen => ?_
  cases haggregate : s₁.database.aggregates.get? key with
  | none => exact ⟨s₁.database, key, ⟨hseen, .refl _⟩, hkey, by rw [haggregate]; rfl⟩
  | some aggregate =>
    refine meets_computed fun state hstate => ⟨s₁.database, key, ⟨hseen, .refl _⟩, hkey, ?_⟩
    rw [haggregate, Option.mapM_some, rowOf, hstate]
    rfl

theorem meets_claimOutboxBatch (limit : ℤ) (s : Backend) :
    (protocol admitted).Meets (fun rows s => Settled admitted (.claimOutboxBatch limit) (.batch rows) s.database)
      (claimOutboxBatch limit) s := by
  unfold claimOutboxBatch
  refine Service.Meets.bind (meets_refuse fun _ => ?_)
  refine meets_snapshot (f := fun db => computed ((db.pending.take limit.toNat).mapM outboxRow)) fun s₁ _ hseen => ?_
  cases hrows : (s₁.database.pending.take limit.toNat).mapM outboxRow with
  | error e => trivial
  | ok rows => exact ⟨s₁.database, ⟨hseen, .refl _⟩, hrows⟩

theorem meets_acknowledgeAttempt {adapter : ℕ} {eventId recordedAt key : PyStr} {acknowledgedAt : DateTime}
    (hadmitted : admitted (.acknowledgeOutbox adapter eventId acknowledgedAt))
    (htime : formatUtc acknowledgedAt = .ok recordedAt) (hkey : documentKey [eventId] = .ok key) (s : Backend) :
    (protocol admitted).Meets (fun found s => ∀ a ∈ found,
        Settled admitted (.acknowledgeOutbox adapter eventId acknowledgedAt) .acknowledged s.database)
      (acknowledgeAttempt adapter eventId recordedAt key) s := by
  unfold acknowledgeAttempt
  refine meets_snapshot fun s₁ _ _ => meets_checkFence fun s₂ hsince => meets_refuse fun hmain => ?_
  obtain ⟨entry, hentry, hbranch⟩ := Option.map_eq_some_iff.mp (not_not.mp hmain)
  cases hattempt : s₁.database.attempts.get? key with
  | some attempt =>
    rintro _ ⟨⟩
    have hsettled : Settled admitted (.acknowledgeOutbox adapter eventId acknowledgedAt) .acknowledged s₁.database :=
      ⟨key, entry, attempt, hkey, hentry, hbranch, hattempt⟩
    exact hsettled.reaches hsince
  | none =>
    have hserial : ∀ (s₃ : Backend) (db' : Database),
        s₃.database.transact [.writerEpoch s₁.database.epoch, .branch key mainBranch, .attemptAbsent key]
          [.insertAttempt key ⟨eventId, acknowledged, recordedAt, s₁.database.epoch⟩] = some db' →
        SerialStep s₃.database (.acknowledge eventId recordedAt) db' ∧
          Settled admitted (.acknowledgeOutbox adapter eventId acknowledgedAt) .acknowledged db' := by
      intro s₃ db' happlied
      obtain ⟨hconditions, hwrites⟩ := transact_eq_some.1 happlied
      simp only [List.forall_mem_cons, List.not_mem_nil, false_implies, implies_true, and_true] at hconditions
      obtain ⟨hepoch, hmain, hfresh⟩ := hconditions
      obtain ⟨fence, hfence, hfenced⟩ := Option.map_eq_some_iff.mp hepoch
      obtain ⟨entry, hentry, hbranch⟩ := Option.map_eq_some_iff.mp hmain
      rw [List.foldlM_cons] at hwrites
      obtain ⟨db₁, h₁, h⟩ := Option.bind_eq_some_iff.mp hwrites
      cases h
      obtain ⟨documents, hinserted, rfl⟩ := Option.map_eq_some_iff.mp h₁
      obtain ⟨-, rfl⟩ := inserted_eq_some.1 hinserted
      rw [← hfenced]
      exact ⟨.acknowledge hkey hentry hbranch hfence hfresh, key, entry, _, hkey, hentry, hbranch, Dict.get?_set_self _ _ _⟩
    refine meets_transact ?_ ?_ ?_
    · intro s₃ db' _ _ happlied
      exact ⟨.acknowledge eventId recordedAt, (hserial s₃ db' happlied).1, adapter, acknowledgedAt, hadmitted, htime⟩
    · intro s₃ db' _ _ happlied
      rintro _ ⟨⟩
      exact (hserial s₃ db' happlied).2
    · exact fun _ _ h => nomatch h

theorem meets_reconcileAttempt (adapter limit : ℕ) (s : Backend) :
    (protocol admitted).Meets (fun found _ => ∀ count ∈ found, count = 0) (reconcileAttempt adapter limit) s := by
  unfold reconcileAttempt
  refine meets_snapshot fun s₁ _ hseen => meets_checkFence fun s₂ hsince => meets_computed fun repairs hrepairs => ?_
  cases (hseen.consistent.repairs limit).symm.trans hrepairs
  rintro _ ⟨⟩
  rfl

theorem meets_program {call : AdapterCall} (hadmitted : admitted call) (s : Backend) :
    (protocol admitted).Meets (fun result s => Settled admitted call result s.database) (program call) s := by
  cases call with
  | acquireWriter adapter writerId =>
    exact Service.Meets.bind (meets_attempts (fun _ => meets_acquireAttempt hadmitted) _ s)
  | commitTransaction adapter command clock =>
    exact Service.Meets.bind (meets_commitTransaction hadmitted s)
  | readSnapshot tenantId aggregateType aggregateRef =>
    exact Service.Meets.bind (meets_readSnapshot tenantId aggregateType aggregateRef s)
  | claimOutboxBatch limit => exact Service.Meets.bind (meets_claimOutboxBatch limit s)
  | acknowledgeOutbox adapter eventId acknowledgedAt =>
    refine Service.Meets.bind ?_
    unfold acknowledgeOutbox
    refine meets_computed fun recordedAt htime => meets_computed fun key hkey => ?_
    exact meets_attempts (fun _ => meets_acknowledgeAttempt hadmitted htime hkey) _ s
  | reconcile adapter limit =>
    refine Service.Meets.bind ?_
    unfold reconcile
    refine Service.Meets.bind (meets_refuse fun _ => ?_)
    exact meets_attempts (fun _ => meets_reconcileAttempt adapter limit.toNat) _ s

end Answers

/-! ## Every interleaving -/

section Runs
variable (turns : List (Turn AdapterCall Fate))

def Started (call : AdapterCall) : Prop := .start call ∈ turns

/-- The store after the turns. -/
def reached : Backend := (run System.step System.initial turns).service

theorem allSteps_started (s : System) (more : List (Turn AdapterCall Fate)) (h : ∀ turn ∈ more, turn ∈ turns) :
    AllSteps System.step (Interleaving.AllowedTurn (Started turns) (protocol (Started turns)).Allowed) s more := by
  refine allSteps_of_forall (fun turn hturn s => ?_) s
  cases turn with
  | start call => exact h _ hturn
  | answer i fate =>
    unfold Interleaving.AllowedTurn
    dsimp only
    split <;> trivial

theorem sound_initial : Interleaving.Sound (protocol (Started turns))
    (fun call result s => Settled (Started turns) call result s.database) System.initial :=
  ⟨.refl _, nofun⟩

theorem settled_stable (call : AdapterCall) (result : AdapterResult) (s s' : Backend)
    (hrely : (protocol (Started turns)).Rely s s') (h : Settled (Started turns) call result s.database) :
    Settled (Started turns) call result s'.database :=
  Settled.reaches h hrely

theorem run_sound (more : List (Turn AdapterCall Fate)) (h : ∀ turn ∈ more, turn ∈ turns) :
    Interleaving.Sound (protocol (Started turns)) (fun call result s => Settled (Started turns) call result s.database)
      (run System.step System.initial more) :=
  Interleaving.run_meets (settled_stable turns) (fun _ hstarted s _ => meets_program hstarted s) (sound_initial turns)
    (allSteps_started turns System.initial more h)

/-- **Serializability.** However the requests of the calls interleave, and whatever becomes of them, the documents are
what a serial run of steps that started calls ask for leaves, and every call that returned has settled. -/
theorem interleavings_serialize : ∃ steps, SerialRun .empty steps (reached turns).database ∧
    (∀ step ∈ steps, Requested (Started turns) step) ∧
    ∀ call result, (run System.step System.initial turns).Returned call result →
      Settled (Started turns) call result (reached turns).database := by
  have hsound := run_sound turns turns fun _ h => h
  obtain ⟨steps, hrun, hrequested⟩ := hsound.inv
  exact ⟨steps, hrun, hrequested, fun _ _ hreturned => hsound.of_returned hreturned⟩

/-- **No update is lost or made twice.** The commits of an aggregate are numbered from one without a gap, each of them
is a started command that expected the revision before, and the aggregate is what their deltas make of nothing. Every
commit has its binding and its outbox entry, so that there is nothing to reconcile. -/
theorem commits_form_histories : Consistent (reached turns).database ∧
    (∀ limit, (reached turns).database.repairs limit = .ok []) ∧
    ∀ key, ∃ commands,
      (∀ command ∈ commands, ∃ adapter clock, Started turns (.commitTransaction adapter command clock) ∧
        command.keys.toOption.map CommandKeys.aggregate = some key) ∧
      Traced commands ((reached turns).database.history key) ((reached turns).database.aggregates.get? key) := by
  obtain ⟨steps, hrun, hrequested⟩ := (run_sound turns turns fun _ h => h).inv
  refine ⟨hrun.consistent, hrun.consistent.repairs, fun key => ⟨commandsOn key steps, fun command hcommand => ?_,
    hrun.traced key⟩⟩
  obtain ⟨step, hstep, hfound⟩ := List.mem_filterMap.mp hcommand
  cases step with
  | commit command' now =>
    simp only [Option.ite_none_right_eq_some, Option.some.injEq] at hfound
    obtain ⟨hkey, rfl⟩ := hfound
    obtain ⟨adapter, clock, attempt, hstarted, -⟩ := hrequested _ hstep
    exact ⟨adapter, clock, hstarted, hkey⟩
  | acquire writerId => cases hfound
  | acknowledge eventId recordedAt => cases hfound

/-- **Exactly once.** All calls with the same idempotency scope that return, return the same commit of the same command
content; only whether it is a replay may differ. -/
theorem commits_exactly_once : ∃ committed : PyStr → Option (PyStr × CommitOutcome),
    ∀ adapter command clock outcome,
      (run System.step System.initial turns).Returned (.commitTransaction adapter command clock) (.outcome outcome) →
      ∃ keys first, command.keys = .ok keys ∧ committed keys.idempotency = some (command.commandDigest, first) ∧
        outcome = { first with replayed := outcome.replayed } := by
  have hsound := run_sound turns turns fun _ h => h
  refine ⟨fun key => do
    let binding ← (reached turns).database.idempotency.get? key
    let commitKey ← (documentKey [binding.commitId]).toOption
    let commit ← (reached turns).database.commits.get? commitKey
    let first ← (outcomeOf commit false).toOption
    return (binding.commandDigest, first), fun adapter command clock outcome hreturned => ?_⟩
  obtain ⟨keys, binding, key, commit, hkeys, hbinding, hdigest, hkey, hcommit, houtcome⟩ := hsound.of_returned hreturned
  have hbound : (reached turns).database.idempotency.get? keys.idempotency = some binding := hbinding
  have hstored : (reached turns).database.commits.get? key = some commit := hcommit
  refine ⟨keys, { outcome with replayed := false }, hkeys, ?_, rfl⟩
  simp only [hbound, hkey, hstored, (outcomeOf_eq_ok houtcome).2 false, Option.bind_eq_bind, Option.bind_some,
    Except.toOption, Option.pure_def, hdigest]

/-- **Fencing.** What is committed or acknowledged from some moment on carries at least the epoch the fence had at that
moment, and what was there at that moment stays. -/
theorem stale_writers_fenced (more : List (Turn AdapterCall Fate)) :
    Fenced (reached turns).database (reached (turns ++ more)).database := by
  have hsound := run_sound (turns ++ more) turns fun _ h => List.mem_append_left _ h
  have hrelies := Interleaving.run_relies (settled_stable (turns ++ more)) (fun _ hstarted s _ => meets_program hstarted s)
    hsound (allSteps_started (turns ++ more) _ more fun _ h => List.mem_append_right _ h)
  rw [reached, reached, run_append]
  exact Reaches.fenced hrelies

end Runs
end OcorRuntime.Commits
