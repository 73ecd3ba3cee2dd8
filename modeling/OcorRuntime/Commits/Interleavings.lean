import OcorRuntime.Commits.CommitLaws

/-! Any number of adapters at once. Between two requests of a call the others may commit, acknowledge and acquire; what
they may have done since is a serial run, so a call keeps the store serial if each transaction of its own, applied to
whatever is there by then, is one serial step. -/
namespace OcorRuntime.Commits
open Canonical Kernel
set_option autoImplicit false
set_option maxHeartbeats 250000

section Protocol
variable (admitted : AdapterCall → Prop)

/-- Some admitted call asks for the step. -/
def Requested : Serial → Prop
  | .acquire writerId => ∃ adapter, admitted (.acquireWriter adapter writerId)
  | .commit command now => ∃ adapter clock attempt, admitted (.commitTransaction adapter command clock) ∧ now = clock attempt
  | .acknowledge eventId recordedAt => ∃ adapter acknowledgedAt,
      admitted (.acknowledgeOutbox adapter eventId acknowledgedAt) ∧ formatUtc acknowledgedAt = .ok recordedAt

def Reaches (db db' : Database) : Prop := ∃ steps, SerialRun db steps db' ∧ ∀ step ∈ steps, Requested admitted step

variable {admitted}

theorem Reaches.refl (db : Database) : Reaches admitted db db := ⟨[], .nil db, nofun⟩

theorem Reaches.trans {db db' db'' : Database} (h : Reaches admitted db db') (h' : Reaches admitted db' db'') :
    Reaches admitted db db'' := by
  obtain ⟨steps, hrun, hrequested⟩ := h
  obtain ⟨steps', hrun', hrequested'⟩ := h'
  refine ⟨steps ++ steps', hrun.append hrun', fun step hstep => ?_⟩
  rcases List.mem_append.mp hstep with hstep | hstep
  · exact hrequested step hstep
  · exact hrequested' step hstep

theorem Reaches.of_step {db db' : Database} {step : Serial} (h : SerialStep db step db') (hrequested : Requested admitted step) :
    Reaches admitted db db' :=
  ⟨[step], .single h, fun _ hs => List.mem_singleton.mp hs ▸ hrequested⟩

theorem Reaches.fenced {db db' : Database} (h : Reaches admitted db db') : Fenced db db' := by
  obtain ⟨steps, hrun, -⟩ := h
  exact hrun.fenced

theorem Reaches.consistent {db : Database} (h : Reaches admitted .empty db) : Consistent db := by
  obtain ⟨steps, hrun, -⟩ := h
  exact hrun.consistent

variable (admitted)

/-- The store is what a serial run leaves, and others may only run it on. -/
def protocol : Service Backend Request Answer Fate where
  serve := serve
  Inv s := Reaches admitted .empty s.database
  Allowed _ _ _ := True
  Rely s s' := Reaches admitted s.database s'.database
  rely_refl _ := .refl _
  rely_trans := Reaches.trans

variable {admitted}

/-! ## One request -/

section Requests
variable {α β : Type} {post : β → Backend → Prop} {s : Backend}

theorem snapshot_bind (f : Database → Call β) : (snapshot >>= f) = .ask (.server .version) fun
    | .version db => f db
    | answer => .raised answer.failure :=
  congrArg (Session.ask _) (funext fun answer => by cases answer <;> rfl)

theorem transact_bind (conditions : List Condition) (writes : List Write) (f : Bool → Call β) :
    (transact conditions writes >>= f) = .ask (.server (.transact conditions writes)) fun
      | .applied ok => f ok
      | answer => .raised answer.failure :=
  congrArg (Session.ask _) (funext fun answer => by cases answer <;> rfl)

theorem rememberedEpoch_bind (adapter : ℕ) (f : ℕ → Call β) : (rememberedEpoch adapter >>= f) = .ask (.readEpoch adapter) fun
    | .epoch (some epoch) => f epoch
    | _ => .raised (.adapter .singleWriterViolation "the writer has not acquired an epoch") := by
  refine congrArg (Session.ask _) (funext fun answer => ?_)
  cases answer with
  | epoch epoch => cases epoch <;> rfl
  | _ => rfl

theorem meets_snapshot {f : Database → Call β} (h : ∀ s' : Backend, Reaches admitted s.database s'.database →
    Reaches admitted .empty s'.database → (protocol admitted).Meets post (f s'.database) s') :
    (protocol admitted).Meets post (snapshot >>= f) s := by
  rw [snapshot_bind]
  intro s' hrely hinv fate _
  cases fate with
  | answered => exact ⟨hinv, .refl _, h s' hrely hinv⟩
  | lost handled => cases handled <;> exact ⟨hinv, .refl _, trivial⟩
  | refused batch => exact ⟨hinv, .refl _, trivial⟩

theorem meets_transact {conditions : List Condition} {writes : List Write} {f : Bool → Call β}
    (hstep : ∀ (s' : Backend) (db' : Database), Reaches admitted s.database s'.database → Reaches admitted .empty s'.database →
      s'.database.transact conditions writes = some db' → ∃ step, SerialStep s'.database step db' ∧ Requested admitted step)
    (happlied : ∀ (s' : Backend) (db' : Database), Reaches admitted s.database s'.database →
      Reaches admitted .empty s'.database → s'.database.transact conditions writes = some db' →
      (protocol admitted).Meets post (f true) { s' with database := db' })
    (hfailed : ∀ s' : Backend, (protocol admitted).Meets post (f false) s') :
    (protocol admitted).Meets post (transact conditions writes >>= f) s := by
  rw [transact_bind]
  intro s' hrely hinv fate _
  cases hdone : s'.database.transact conditions writes with
  | none =>
    have hhandle : handle s'.database (.transact conditions writes) = (s'.database, .applied false) := by
      rw [handle, hdone]
    cases fate with
    | answered =>
      have hserve : serve s' (.server (.transact conditions writes)) .answered = (s', .applied false) := by
        rw [serve, hhandle]
      show Reaches _ _ (serve _ _ _).1.database ∧ Reaches _ _ (serve _ _ _).1.database ∧ _
      rw [show (protocol admitted).serve = serve from rfl, hserve]
      exact ⟨hinv, .refl _, hfailed s'⟩
    | lost handled =>
      have hserve : serve s' (.server (.transact conditions writes)) (.lost handled) = (s', .unreachable) := by
        rw [serve, hhandle, ite_self]
      show Reaches _ _ (serve _ _ _).1.database ∧ Reaches _ _ (serve _ _ _).1.database ∧ _
      rw [show (protocol admitted).serve = serve from rfl, hserve]
      exact ⟨hinv, .refl _, trivial⟩
    | refused batch => exact ⟨hinv, .refl _, trivial⟩
  | some db' =>
    have hhandle : handle s'.database (.transact conditions writes) = (db', .applied true) := by
      rw [handle, hdone]
    obtain ⟨step, hserial, hrequested⟩ := hstep s' db' hrely hinv hdone
    have hreaches := Reaches.of_step hserial hrequested
    cases fate with
    | answered =>
      have hserve : serve s' (.server (.transact conditions writes)) .answered =
          ({ s' with database := db' }, .applied true) := by
        rw [serve, hhandle]
      show Reaches _ _ (serve _ _ _).1.database ∧ Reaches _ _ (serve _ _ _).1.database ∧ _
      rw [show (protocol admitted).serve = serve from rfl, hserve]
      exact ⟨hinv.trans hreaches, hreaches, happlied s' db' hrely hinv hdone⟩
    | lost handled =>
      have hserve : serve s' (.server (.transact conditions writes)) (.lost handled) =
          ({ s' with database := if handled then db' else s'.database }, .unreachable) := by
        rw [serve, hhandle]
      show Reaches _ _ (serve _ _ _).1.database ∧ Reaches _ _ (serve _ _ _).1.database ∧ _
      rw [show (protocol admitted).serve = serve from rfl, hserve]
      cases handled
      · exact ⟨hinv, .refl _, trivial⟩
      · exact ⟨hinv.trans hreaches, hreaches, trivial⟩
    | refused batch => exact ⟨hinv, .refl _, trivial⟩

theorem meets_computed {x : Except PyError α} {f : α → Call β}
    (h : ∀ a, x = .ok a → (protocol admitted).Meets post (f a) s) : (protocol admitted).Meets post (computed x >>= f) s := by
  cases x with
  | error e => trivial
  | ok a => exact h a rfl

theorem meets_refuse {bad : Prop} [Decidable bad] {reason : Reason} {message : String} {f : Unit → Call β}
    (h : ¬ bad → (protocol admitted).Meets post (f ()) s) :
    (protocol admitted).Meets post (refuse bad reason message >>= f) s := by
  unfold refuse
  split_ifs with hbad
  · trivial
  · exact h hbad

theorem meets_rememberedEpoch {adapter : ℕ} {f : ℕ → Call β}
    (h : ∀ (s' : Backend) (epoch : ℕ), Reaches admitted s.database s'.database → (protocol admitted).Meets post (f epoch) s') :
    (protocol admitted).Meets post (rememberedEpoch adapter >>= f) s := by
  rw [rememberedEpoch_bind]
  intro s' hrely hinv fate _
  refine ⟨hinv, .refl _, ?_⟩
  show (protocol admitted).Meets post (match Answer.epoch (s'.epochs adapter) with
    | .epoch (some epoch) => f epoch
    | _ => .raised (.adapter .singleWriterViolation "the writer has not acquired an epoch")) s'
  cases s'.epochs adapter with
  | none => trivial
  | some epoch => exact h s' epoch hrely

theorem meets_writeEpoch {adapter epoch : ℕ} {x : Call β}
    (h : ∀ s' : Backend, Reaches admitted s.database s'.database → (protocol admitted).Meets post x s') :
    (protocol admitted).Meets post (Session.request (.writeEpoch adapter epoch) >>= fun _ => x) s :=
  fun s' hrely hinv _ _ => ⟨hinv, .refl _, h { s' with epochs := Function.update s'.epochs adapter (some epoch) } hrely⟩

theorem checkFence_bind (adapter : ℕ) (db : Database) (f : ℕ → Call β) :
    (checkFence adapter db >>= f) = (rememberedEpoch adapter >>= fun epoch =>
      refuse (db.epoch ≠ epoch) .singleWriterViolation "stale writer epoch" >>= fun _ => f epoch) := by
  rw [rememberedEpoch_bind]
  refine congrArg (Session.ask _) (funext fun answer => ?_)
  cases answer with
  | epoch epoch =>
    cases epoch with
    | none => rfl
    | some epoch =>
      show (refuse (db.epoch ≠ epoch) .singleWriterViolation "stale writer epoch" >>= fun _ => pure epoch).bind f =
        (refuse (db.epoch ≠ epoch) .singleWriterViolation "stale writer epoch" >>= fun _ => f epoch)
      unfold refuse
      split_ifs <;> rfl
  | _ => rfl

theorem meets_checkFence {adapter : ℕ} {db : Database} {f : ℕ → Call β}
    (h : ∀ s' : Backend, Reaches admitted s.database s'.database → (protocol admitted).Meets post (f db.epoch) s') :
    (protocol admitted).Meets post (checkFence adapter db >>= f) s := by
  rw [checkFence_bind]
  refine meets_rememberedEpoch fun s' epoch hrely => meets_refuse fun hepoch => ?_
  rw [← not_not.mp hepoch]
  exact h s' hrely

theorem meets_attempts {post : α → Backend → Prop} {message : String} {attempt : ℕ → Call (Option α)}
    (h : ∀ n s, (protocol admitted).Meets (fun found s => ∀ a ∈ found, post a s) (attempt n) s) :
    ∀ n s, (protocol admitted).Meets post (attempts message attempt n) s
  | 0, _ => trivial
  | n + 1, s => by
    refine Service.Meets.bind ((h n s).mono fun found s' hfound => ?_)
    cases found with
    | none => exact meets_attempts h n s'
    | some a => exact hfound a rfl

end Requests
end Protocol
end OcorRuntime.Commits
