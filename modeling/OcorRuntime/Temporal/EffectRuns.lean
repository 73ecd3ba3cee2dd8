import Mathlib.Data.Set.Function
import OcorRuntime.Temporal.EffectLaws

/-! Durable effects over whole runs: calls of any number of sinks, answers that are lost, retries, and rollovers of
the workflows between any two updates. Where every context is JSON each accepted record is kept once and read back
equal; a context that JSON changes is kept changed. -/
namespace OcorRuntime.Temporal
open TemporalEffectSink
set_option autoImplicit false
set_option maxHeartbeats 250000
set_option maxRecDepth 120000

/-! ## Runs -/

/-- What happens: a call of `persist_effect`, told from when its update is served, or a rollover. -/
inductive SinkEvent
  | persist (record : PersistedEffect) (delivery : Delivery)
  | rollover (correlationId : PyStr)

/-- What became of a call. -/
structure SinkCall where
  record : PersistedEffect
  accepted : Bool
  returned : Bool

/-- The workflow accepted the update of the call. -/
def accepts (converter : EffectConverter) (system : System) (record : PersistedEffect) (delivery : Delivery) : Bool :=
  match payload record with
  | .error _ => false
  | .ok effect => delivery ≠ .lost && (serve converter system record effect).1.isOk

def sinkStep (converter : EffectConverter) (system : System) : SinkEvent → System
  | .persist record delivery => (persistEffect converter system record delivery).2
  | .rollover correlationId =>
    match system.get? correlationId with
    | none => system
    | some w => system.set correlationId (w.continueAsNew converter)

def sinkCalls (converter : EffectConverter) (system : System) : SinkEvent → List SinkCall
  | .persist record delivery =>
    [⟨record, accepts converter system record delivery, (persistEffect converter system record delivery).1.isOk⟩]
  | .rollover _ => []

/-- The accepted records of an action, in the order they were accepted in. -/
def acceptedOf (correlationId : PyStr) (calls : List SinkCall) : List PersistedEffect :=
  (calls.filter fun call => call.accepted && call.record.correlationId == correlationId).map SinkCall.record

/-- Each record where it first occurs. -/
def firstOf (records : List PersistedEffect) : List PersistedEffect :=
  records.foldl (fun firsts record => if firsts.any (·.pyEq record) then firsts else firsts ++ [record]) []

/-- The canonical bytes of the records of a run. -/
def bytesOf (events : List SinkEvent) : Set Bytes :=
  {raw | ∃ record delivery body, .persist record delivery ∈ events ∧ bodyOf record = .ok body ∧
    canonicalBytes body = .ok raw}

theorem acceptedOf_append (correlationId : PyStr) (calls more : List SinkCall) :
    acceptedOf correlationId (calls ++ more) = acceptedOf correlationId calls ++ acceptedOf correlationId more := by
  simp [acceptedOf]

theorem mem_acceptedOf {correlationId : PyStr} {calls : List SinkCall} {record : PersistedEffect} :
    record ∈ acceptedOf correlationId calls ↔
      ∃ call ∈ calls, call.accepted = true ∧ call.record.correlationId = correlationId ∧ call.record = record := by
  simp [acceptedOf, and_assoc]

theorem firstOf_append (records : List PersistedEffect) (record : PersistedEffect) :
    firstOf (records ++ [record]) =
      if (firstOf records).any (·.pyEq record) then firstOf records else firstOf records ++ [record] := by
  rw [firstOf, List.foldl_append]
  rfl

theorem mem_of_mem_firstOf {records : List PersistedEffect} : ∀ record ∈ firstOf records, record ∈ records := by
  induction records using List.reverseRecOn with
  | nil => exact fun _ h => h
  | append_singleton records last ih =>
    intro record h
    rw [firstOf_append] at h
    split_ifs at h
    · exact List.mem_append_left _ (ih record h)
    · rcases List.mem_append.mp h with h | h
      · exact List.mem_append_left _ (ih record h)
      · exact List.mem_append_right _ h

/-! ## The index of digests -/

/-- The index a workflow builds from its effects. -/
def digestsOf (effects : List Effect) : Dict PyStr PyStr :=
  effects.foldl (fun digests item => digests.set item.idempotencyKey item.digest) .empty

theorem digestsOf_append (effects : List Effect) (effect : Effect) :
    digestsOf (effects ++ [effect]) = (digestsOf effects).set effect.idempotencyKey effect.digest := by
  rw [digestsOf, List.foldl_append]
  rfl

theorem digestsOf_carried (converter : EffectConverter) (effects : List Effect) :
    digestsOf (effects.map converter.carryEffect) = digestsOf effects := by
  rw [digestsOf, List.foldl_map]
  rfl

theorem mem_of_digestsOf {effects : List Effect} {key digest : PyStr} (h : (digestsOf effects).get? key = some digest) :
    ∃ kept ∈ effects, kept.idempotencyKey = key ∧ kept.digest = digest := by
  induction effects using List.reverseRecOn with
  | nil => cases h
  | append_singleton effects last ih =>
    rw [digestsOf_append, Dict.get?_set] at h
    split_ifs at h with hkey
    · exact ⟨last, List.mem_append_right _ (List.mem_singleton_self last), hkey, Option.some.inj h⟩
    · obtain ⟨kept, hmem, hkept⟩ := ih h
      exact ⟨kept, List.mem_append_left _ hmem, hkept⟩

/-! ## One workflow -/

theorem validateEffect_eq_ok {w : ActionEffectsWorkflow} {effect : Effect} :
    w.validateEffect effect = .ok () ↔ effect.record.correlationId = w.correlationId ∧
      ∀ known ∈ w.digests.get? effect.idempotencyKey, known = effect.digest := by
  unfold ActionEffectsWorkflow.validateEffect refuse
  split_ifs with hforeign hconflict
  · simp [hforeign]
  · simpa using fun _ => hconflict
  · simpa [not_not.mp hforeign] using hconflict

/-- A workflow that accepted these records: it keeps the first of equal ones, and every one is in its index. -/
structure Keeps (S : Set Bytes) (correlationId : PyStr) (accepted : List PersistedEffect) (w : ActionEffectsWorkflow) :
    Prop where
  correlation : w.correlationId = correlationId
  digests : w.digests = digestsOf w.effects
  stored : List.Forall₂ (fun given kept => ∃ v, ∃ raw ∈ S, Stored given v raw kept) (firstOf accepted) w.effects
  indexed : ∀ record ∈ accepted, ∃ v, ∃ raw ∈ S, ∃ effect, Sent record v raw effect ∧
    w.digests.get? effect.idempotencyKey = some effect.digest

section Workflow
variable {S : Set Bytes} {correlationId : PyStr} {accepted : List PersistedEffect} {w : ActionEffectsWorkflow}

theorem keeps_init : Keeps S correlationId [] (.init correlationId none) where
  correlation := rfl
  digests := rfl
  stored := .nil
  indexed := fun _ h => absurd h List.not_mem_nil

theorem Keeps.rollover (h : Keeps S correlationId accepted w) (converter : EffectConverter) :
    Keeps S correlationId accepted (w.continueAsNew converter) := by
  have hdigests : (w.continueAsNew converter).digests = w.digests := by
    rw [h.digests]
    exact digestsOf_carried converter w.effects
  constructor
  · exact h.correlation
  · rw [hdigests, h.digests]
    exact (digestsOf_carried converter w.effects).symm
  · refine List.forall₂_map_right_iff.mpr (h.stored.imp fun given kept hkept => ?_)
    obtain ⟨v, raw, hraw, hstored⟩ := hkept
    exact ⟨v, raw, hraw, hstored.carried converter⟩
  · rw [hdigests]
    exact h.indexed

theorem Keeps.persistEffect (h : Keeps S correlationId accepted w) (hS : Set.InjOn Sha256.digest S)
    (converter : EffectConverter) {record : PersistedEffect} {v : PyValue} {raw : Bytes} {effect : Effect} (hraw : raw ∈ S)
    (hsent : Sent record v raw effect) (hvalid : w.validateEffect (converter.carryEffect effect) = .ok ()) :
    Keeps S correlationId (accepted ++ [record]) (w.persistEffect (converter.carryEffect effect)).2 := by
  have hinj := Sha256.hexdigest_injOn hS
  have hkey : (converter.carryEffect effect).idempotencyKey = effect.idempotencyKey := rfl
  have hdigest : (converter.carryEffect effect).digest = effect.digest := rfl
  unfold ActionEffectsWorkflow.persistEffect
  cases hknown : w.digests.get? effect.idempotencyKey with
  | some known =>
    -- the validator let it pass, so the kept effect has the same digest and hence the same bytes
    have hsame : known = effect.digest := (validateEffect_eq_ok.1 hvalid).2 known hknown
    subst hsame
    have hfirst : (firstOf accepted).any (·.pyEq record) = true := by
      rw [h.digests] at hknown
      obtain ⟨kept, hmem, -, hkeptDigest⟩ := mem_of_digestsOf hknown
      obtain ⟨given, hgiven, v', raw', hraw', hstored⟩ := exists_of_forall₂_right h.stored hmem
      obtain ⟨effect', hsent'⟩ := hstored.sent
      have hbytes : raw' = raw := hinj hraw' hraw (by rw [← hstored.digest, hkeptDigest, hsent.digest])
      subst hbytes
      exact List.any_eq_true.mpr ⟨given, hgiven, hsent'.pyEq hsent⟩
    rw [hkey, hknown, Option.isSome_some, if_pos rfl]
    refine ⟨h.correlation, h.digests, ?_, fun r hr => ?_⟩
    · rw [firstOf_append, if_pos hfirst]
      exact h.stored
    · rcases List.mem_append.mp hr with hr | hr
      · exact h.indexed r hr
      · rw [List.mem_singleton.mp hr]
        exact ⟨v, raw, hraw, effect, hsent, hknown⟩
  | none =>
    have hfirst : ¬ (firstOf accepted).any (·.pyEq record) = true := by
      intro hany
      obtain ⟨given, hgiven, hequal⟩ := List.any_eq_true.mp hany
      obtain ⟨v', raw', hraw', effect', hsent', hindexed⟩ := h.indexed given (mem_of_mem_firstOf given hgiven)
      rw [PersistedEffect.pyEq, Bool.and_eq_true, decide_eq_true_eq] at hequal
      rw [hsent'.key, hequal.1.1, hequal.1.2.2.2.2.1, ← hsent.key, hknown] at hindexed
      cases hindexed
    rw [hkey, hknown, Option.isSome_none, if_neg (by simp)]
    refine ⟨h.correlation, ?_, ?_, fun r hr => ?_⟩
    · simp only [digestsOf_append, h.digests, hkey]
    · rw [firstOf_append, if_neg hfirst]
      exact List.rel_append h.stored (.cons ⟨v, raw, hraw, hsent.stored converter⟩ .nil)
    · dsimp only
      rcases List.mem_append.mp hr with hr | hr
      · obtain ⟨v', raw', hraw', effect', hsent', hindexed⟩ := h.indexed r hr
        refine ⟨v', raw', hraw', effect', hsent', ?_⟩
        rw [Dict.get?_set_of_ne]
        · exact hindexed
        · intro heq
          rw [← heq, hknown] at hindexed
          cases hindexed
      · rw [List.mem_singleton.mp hr]
        refine ⟨v, raw, hraw, effect, hsent, ?_⟩
        rw [hdigest, Dict.get?_set_self]

end Workflow

/-! ## Every workflow -/

/-- The workflows after these calls. -/
structure Recorded (S : Set Bytes) (system : System) (calls : List SinkCall) : Prop where
  absent : ∀ correlationId, system.get? correlationId = none → acceptedOf correlationId calls = []
  present : ∀ correlationId w, system.get? correlationId = some w → Keeps S correlationId (acceptedOf correlationId calls) w
  named : ∀ correlationId w, system.get? correlationId = some w → correlationId ≠ []
  returned : ∀ call ∈ calls, call.returned = true → call.accepted = true

section Steps
variable {S : Set Bytes} {system : System} {calls : List SinkCall}

theorem Recorded.workflow (h : Recorded S system calls) (correlationId : PyStr) :
    Keeps S correlationId (acceptedOf correlationId calls)
      ((system.get? correlationId).getD (.init correlationId none)) := by
  cases hw : system.get? correlationId with
  | none =>
    rw [h.absent correlationId hw]
    exact keeps_init
  | some w => exact h.present correlationId w hw

theorem Recorded.set (h : Recorded S system calls) {correlationId : PyStr} {w : ActionEffectsWorkflow}
    (more : List SinkCall) (hnamed : correlationId ≠ []) (hw : Keeps S correlationId (acceptedOf correlationId (calls ++ more)) w)
    (hothers : ∀ other ≠ correlationId, acceptedOf other more = [])
    (hreturned : ∀ call ∈ more, call.returned = true → call.accepted = true) :
    Recorded S (system.set correlationId w) (calls ++ more) := by
  have hsame : ∀ other ≠ correlationId, acceptedOf other (calls ++ more) = acceptedOf other calls := by
    intro other hne
    rw [acceptedOf_append, hothers other hne, List.append_nil]
  constructor
  · intro other hnone
    have hne : other ≠ correlationId := by
      rintro rfl
      rw [Dict.get?_set_self] at hnone
      cases hnone
    rw [Dict.get?_set_of_ne _ _ hne.symm] at hnone
    rw [hsame other hne]
    exact h.absent other hnone
  · intro other w' hsome
    by_cases hne : other = correlationId
    · subst hne
      rw [Dict.get?_set_self] at hsome
      cases hsome
      exact hw
    · rw [Dict.get?_set_of_ne _ _ (Ne.symm hne)] at hsome
      rw [hsame other hne]
      exact h.present other w' hsome
  · intro other w' hsome
    by_cases hne : other = correlationId
    · rwa [hne]
    · rw [Dict.get?_set_of_ne _ _ (Ne.symm hne)] at hsome
      exact h.named other w' hsome
  · intro call hcall
    rcases List.mem_append.mp hcall with hcall | hcall
    · exact h.returned call hcall
    · exact hreturned call hcall

theorem Recorded.refused (h : Recorded S system calls) (record : PersistedEffect) :
    Recorded S system (calls ++ [⟨record, false, false⟩]) := by
  have hnone : ∀ correlationId, acceptedOf correlationId [⟨record, false, false⟩] = [] := fun _ => rfl
  constructor
  · intro correlationId hw
    rw [acceptedOf_append, hnone, List.append_nil]
    exact h.absent correlationId hw
  · intro correlationId w hw
    rw [acceptedOf_append, hnone, List.append_nil]
    exact h.present correlationId w hw
  · exact h.named
  · intro call hcall
    rcases List.mem_append.mp hcall with hcall | hcall
    · exact h.returned call hcall
    · rw [List.mem_singleton.mp hcall]
      exact id

theorem Recorded.serve (h : Recorded S system calls) (hS : Set.InjOn Sha256.digest S) (converter : EffectConverter)
    {record : PersistedEffect} {v : PyValue} {raw : Bytes} {effect : Effect} (hraw : raw ∈ S)
    (hsent : Sent record v raw effect) (returned : Bool)
    (hreturned : returned = true → (serve converter system record effect).1.isOk = true) :
    Recorded S (serve converter system record effect).2
      (calls ++ [⟨record, (serve converter system record effect).1.isOk, returned⟩]) := by
  have hworkflow := h.workflow record.correlationId
  unfold TemporalEffectSink.serve at hreturned ⊢
  generalize (system.get? record.correlationId).getD (.init record.correlationId none) = w at hworkflow hreturned ⊢
  cases hvalid : w.validateEffect (converter.carryEffect effect) with
  | error refusal =>
    simp only [hvalid] at hreturned ⊢
    refine h.set _ record.correlated ?_ (fun _ _ => rfl) fun call hcall => ?_
    · rw [acceptedOf_append]
      exact (List.append_nil _).symm ▸ hworkflow
    · rw [List.mem_singleton.mp hcall]
      exact hreturned
  | ok =>
    simp only [hvalid] at hreturned ⊢
    have hkeeps := hworkflow.persistEffect hS converter hraw hsent hvalid
    have hself : acceptedOf record.correlationId [⟨record, true, returned⟩] = [record] := by simp [acceptedOf]
    refine h.set _ record.correlated ?_ (fun other hne => ?_) fun call hcall => ?_
    · rw [acceptedOf_append]
      exact hself.symm ▸ hkeeps
    · simp [acceptedOf, Except.isOk, Except.toBool, Ne.symm hne]
    · rw [List.mem_singleton.mp hcall]
      exact fun _ => rfl

/-- What is asked of the calls of a run. -/
def Fits (S : Set Bytes) : SinkEvent → Prop
  | .persist record _ => JsonNative (.mapping record.context) ∧
      ∀ body raw, bodyOf record = .ok body → canonicalBytes body = .ok raw → raw ∈ S
  | .rollover _ => True

theorem Recorded.step (h : Recorded S system calls) (hS : Set.InjOn Sha256.digest S) (converter : EffectConverter)
    (event : SinkEvent) (hfits : Fits S event) :
    Recorded S (sinkStep converter system event) (calls ++ sinkCalls converter system event) := by
  cases event with
  | rollover correlationId =>
    rw [sinkCalls, List.append_nil, sinkStep]
    cases hw : system.get? correlationId with
    | none => exact h
    | some w =>
      have hkeeps : Keeps S correlationId (acceptedOf correlationId (calls ++ [])) (w.continueAsNew converter) := by
        rw [List.append_nil]
        exact (h.present correlationId w hw).rollover converter
      have hset := h.set [] (h.named correlationId w hw) hkeeps (fun _ _ => rfl) (by simp)
      rwa [List.append_nil] at hset
  | persist record delivery =>
    obtain ⟨hnative, hbytes⟩ := hfits
    rw [sinkStep, sinkCalls]
    unfold accepts persistEffect
    cases hpayload : payload record with
    | error error => exact h.refused record
    | ok effect =>
      obtain ⟨v, raw, hsent⟩ := exists_sent hnative hpayload
      have hraw : raw ∈ S := by
        unfold payload at hpayload
        obtain ⟨body, hbody, hpayload⟩ := bind_eq_ok.1 hpayload
        obtain ⟨raw', hraw', hpayload⟩ := bind_eq_ok.1 hpayload
        cases hpayload
        have hsame : raw' = raw := Except.ok.inj (hraw'.symm.trans hsent.canonical)
        exact hsame ▸ hbytes body raw' hbody hraw'
      have hserve := fun returned => h.serve hS converter hraw hsent returned
      cases delivery with
      | lost => exact h.refused record
      | answerLost => simpa [Except.isOk, Except.toBool] using hserve false (by simp)
      | answered =>
        cases hanswer : TemporalEffectSink.serve converter system record effect with
        | mk answer after =>
          rw [hanswer] at hserve
          cases answer with
          | error refusal => simpa [hanswer, Except.isOk, Except.toBool] using hserve false (by simp)
          | ok outcome => simpa [hanswer, Except.isOk, Except.toBool] using hserve true (by simp [Except.isOk, Except.toBool])

end Steps

/-! ## What a workflow answers -/

section Answers
variable {S : Set Bytes} {correlationId : PyStr} {accepted : List PersistedEffect} {w : ActionEffectsWorkflow}

theorem restored_of_stored (converter : EffectConverter) {givens : List PersistedEffect} {kepts : List Effect}
    (h : List.Forall₂ (fun given kept => ∃ v, ∃ raw ∈ S, Stored given v raw kept) givens kepts) :
    ∃ reads, (kepts.mapM fun item => restore (converter.carryEffect item).record) = .ok reads ∧
      List.Forall₂ (fun given read => given.pyEq read = true ∧ read.correlationId = given.correlationId) givens reads := by
  induction h with
  | nil => exact ⟨[], rfl, .nil⟩
  | @cons given kept givens kepts hkept _ ih =>
    obtain ⟨v, raw, -, hstored⟩ := hkept
    obtain ⟨read, hread, hequal⟩ := hstored.restore converter
    obtain ⟨reads, hreads, hall⟩ := ih
    exact ⟨read :: reads, by rw [List.mapM_cons, hread, hreads]; rfl, .cons hequal hall⟩

theorem Keeps.kept (h : Keeps S correlationId accepted w) (hS : Set.InjOn Sha256.digest S) {record : PersistedEffect}
    (hmem : record ∈ accepted) : ∃ kept ∈ w.effects, ∃ v raw, Stored record v raw kept := by
  obtain ⟨v, raw, hraw, effect, hsent, hindexed⟩ := h.indexed record hmem
  rw [h.digests] at hindexed
  obtain ⟨kept, hkept, -, hdigest⟩ := mem_of_digestsOf hindexed
  obtain ⟨given, -, v', raw', hraw', hstored⟩ := exists_of_forall₂_right h.stored hkept
  have hbytes : raw' = raw :=
    Sha256.hexdigest_injOn hS hraw' hraw (by rw [← hstored.digest, hdigest, hsent.digest])
  subst hbytes
  exact ⟨kept, hkept, v, raw', hstored.of_sent hsent⟩

theorem Keeps.pyEq_of_key (h : Keeps S correlationId accepted w) (hS : Set.InjOn Sha256.digest S)
    {first second : PersistedEffect} (hfirst : first ∈ accepted) (hsecond : second ∈ accepted)
    (htransition : first.transitionId = second.transitionId)
    (hinstant : first.occurredAt.instant = second.occurredAt.instant) : first.pyEq second = true := by
  obtain ⟨v, raw, hraw, effect, hsent, hindexed⟩ := h.indexed first hfirst
  obtain ⟨v', raw', hraw', effect', hsent', hindexed'⟩ := h.indexed second hsecond
  rw [hsent.key, htransition, hinstant, ← hsent'.key, hindexed', Option.some.injEq, hsent.digest, hsent'.digest] at hindexed
  have hbytes := Sha256.hexdigest_injOn hS hraw' hraw hindexed
  subst hbytes
  exact hsent.pyEq hsent'

theorem Keeps.free (h : Keeps S correlationId accepted w) {transitionId : PyStr} {instant : Instant}
    (hnew : ∀ earlier ∈ accepted, earlier.transitionId = transitionId → earlier.occurredAt.instant ≠ instant) :
    w.digests.get? (transitionId ++ py "@" ++ intText instant) = none := by
  by_contra hsome
  obtain ⟨digest, hdigest⟩ := Option.ne_none_iff_exists'.mp hsome
  rw [h.digests] at hdigest
  obtain ⟨kept, hkept, hkey, -⟩ := mem_of_digestsOf hdigest
  obtain ⟨given, hgiven, v, raw, -, hstored⟩ := exists_of_forall₂_right h.stored hkept
  obtain ⟨htransition, hinstant⟩ := key_injective (hstored.key.symm.trans hkey)
  exact hnew given (mem_of_mem_firstOf given hgiven) htransition hinstant

end Answers

/-! ## Every run -/

/-- **Durable effects.** In every run whose contexts are JSON, and unless two of its canonical texts have one
SHA-256 digest: the effects of an action are its accepted records, each once, where it was first accepted, and equal
to the one given; a call that returned has its record among them; of two different records of an action with one
transition and one instant, the second is not accepted and its call raises; and a record whose transition and
instant are new to its action is accepted once its update is served. -/
theorem effects_exactly_once (converter : EffectConverter) (events : List SinkEvent)
    (hnative : ∀ record delivery, .persist record delivery ∈ events → JsonNative (.mapping record.context)) :
    let system := run (sinkStep converter) .empty events
    let calls := trace (sinkStep converter) (sinkCalls converter) .empty events
    ¬ Set.InjOn Sha256.digest (bytesOf events) ∨
      (∀ correlationId, (system.get? correlationId = none ∧ acceptedOf correlationId calls = []) ∨
        ∃ reads, effects converter system correlationId = .ok reads ∧
          List.Forall₂ (fun given read => given.pyEq read = true) (firstOf (acceptedOf correlationId calls)) reads ∧
          ∀ read ∈ reads, read.correlationId = correlationId) ∧
      (∀ call ∈ calls, call.returned = true → ∃ reads, effects converter system call.record.correlationId = .ok reads ∧
        ∃ read ∈ reads, call.record.pyEq read = true) ∧
      (calls.Pairwise fun first second => first.record.correlationId = second.record.correlationId →
        first.record.transitionId = second.record.transitionId →
        first.record.occurredAt.instant = second.record.occurredAt.instant →
        first.record.pyEq second.record = false → first.accepted = true →
          second.accepted = false ∧ second.returned = false) ∧
      ∀ record delivery effect, payload record = .ok effect → delivery ≠ .lost →
        (∀ earlier ∈ acceptedOf record.correlationId calls, earlier.transitionId = record.transitionId →
          earlier.occurredAt.instant ≠ record.occurredAt.instant) → accepts converter system record delivery = true := by
  intro system calls
  rw [or_iff_not_imp_left, not_not]
  intro hS
  have hrecorded : Recorded (bytesOf events) system calls := by
    have hstart : Recorded (bytesOf events) .empty [] := by
      constructor
      · exact fun _ _ => rfl
      · exact fun _ _ h => nomatch h
      · exact fun _ _ h => nomatch h
      · exact fun _ h => nomatch h
    have hfits : ∀ event ∈ events, ∀ _ : System, Fits (bytesOf events) event := by
      intro event hevent _
      cases event with
      | rollover => trivial
      | persist record delivery =>
        exact ⟨hnative record delivery hevent, fun body raw hbody hraw => ⟨record, delivery, body, hevent, hbody, hraw⟩⟩
    exact trace_induction (fun _ _ event h hfit => h.step hS converter event hfit) hstart (allSteps_of_forall hfits _)
  have hworkflow : ∀ call ∈ calls, call.accepted = true → ∃ w, system.get? call.record.correlationId = some w ∧
      call.record ∈ acceptedOf call.record.correlationId calls := by
    intro call hcall haccepted
    have hmem : call.record ∈ acceptedOf call.record.correlationId calls :=
      mem_acceptedOf.2 ⟨call, hcall, haccepted, rfl, rfl⟩
    cases hw : system.get? call.record.correlationId with
    | none => exact absurd (hrecorded.absent _ hw ▸ hmem) List.not_mem_nil
    | some w => exact ⟨w, rfl, hmem⟩
  have hanswer : ∀ correlationId w, system.get? correlationId = some w → effects converter system correlationId =
      w.effects.mapM fun item => restore (converter.carryEffect item).record := by
    intro correlationId w hw
    rw [effects, if_neg (hrecorded.named correlationId w hw), hw]
  refine ⟨fun correlationId => ?_, fun call hcall hreturned => ?_, ?_, ?_⟩
  · cases hw : system.get? correlationId with
    | none => exact .inl ⟨rfl, hrecorded.absent correlationId hw⟩
    | some w =>
      have hkeeps := hrecorded.present correlationId w hw
      obtain ⟨reads, hreads, hall⟩ := restored_of_stored converter hkeeps.stored
      refine .inr ⟨reads, by rw [hanswer correlationId w hw, hreads], hall.imp fun _ _ h => h.1, fun read hread => ?_⟩
      obtain ⟨given, hgiven, -, hcorrelation⟩ := exists_of_forall₂_right hall hread
      obtain ⟨call, -, -, hcall, rfl⟩ := mem_acceptedOf.1 (mem_of_mem_firstOf given hgiven)
      rw [hcorrelation, hcall]
  · obtain ⟨w, hw, hmem⟩ := hworkflow call hcall (hrecorded.returned call hcall hreturned)
    have hkeeps := hrecorded.present _ w hw
    obtain ⟨reads, hreads, -⟩ := restored_of_stored converter hkeeps.stored
    obtain ⟨kept, hkept, v, raw, hstored⟩ := hkeeps.kept hS hmem
    obtain ⟨read, hread, hequal, -⟩ := hstored.restore converter
    obtain ⟨read', hread', hrestored⟩ := mapM_mem hreads hkept
    rw [hread, Except.ok.injEq] at hrestored
    subst hrestored
    exact ⟨reads, by rw [hanswer _ w hw, hreads], read, hread', hequal⟩
  · refine List.pairwise_of_forall_mem_list fun first hfirst second hsecond hcorrelation htransition hinstant hne haccepted => ?_
    have hrefused : second.accepted = false := by
      by_contra hsome
      obtain ⟨w, hw, hmem⟩ := hworkflow first hfirst haccepted
      have hmem' : second.record ∈ acceptedOf first.record.correlationId calls :=
        mem_acceptedOf.2 ⟨second, hsecond, by simpa using hsome, hcorrelation.symm, rfl⟩
      have hequal := (hrecorded.present _ w hw).pyEq_of_key hS hmem hmem' htransition hinstant
      rw [hne] at hequal
      cases hequal
    refine ⟨hrefused, ?_⟩
    by_contra hreturned
    have := hrecorded.returned second hsecond (by simpa using hreturned)
    rw [hrefused] at this
    cases this
  · intro record delivery effect hpayload hdelivery hnew
    obtain ⟨-, hbody, hkey, -⟩ := payload_eq_ok hpayload
    have hkeeps := hrecorded.workflow record.correlationId
    have hvalid : ((system.get? record.correlationId).getD (.init record.correlationId none)).validateEffect
        (converter.carryEffect effect) = .ok () := by
      refine validateEffect_eq_ok.2 ⟨?_, fun known hknown => ?_⟩
      · rw [hkeeps.correlation, EffectConverter.carryEffect, hbody]
        rfl
      · have hfree := hkeeps.free hnew
        rw [← hkey] at hfree
        exact absurd (hfree.symm.trans hknown) (by simp)
    simp only [accepts, hpayload, TemporalEffectSink.serve, hvalid, Except.isOk, Except.toBool]
    simpa using hdelivery

/-! ## Samples -/

/-- A dispatch, recorded with a context. -/
def sampleEffect (context : List (ContextKey × ContextValue)) : PersistedEffect where
  transitionId := py "ACT-T14"
  source := py "COMMAND_READY"
  destination := py "DISPATCHED"
  durableEffect := py "DeliveryAttempt"
  occurredAt := .utc 951827696500000
  correlationId := py "action-1"
  context := context
  aware := trivial
  correlated := by decide

theorem sampleEffect_payload {context : List (ContextKey × ContextValue)} {text : PyStr} {raw : Bytes}
    (htext : dumps ⟨true, false⟩ (.mapping context) = .ok text)
    (hraw : canonicalBytes (sentBody (sampleEffect context) (.mapping context)) = .ok raw) :
    payload (sampleEffect context) = .ok ⟨py "ACT-T14@951827696500000", Sha256.hexdigest raw,
      sentBody (sampleEffect context) (.mapping context)⟩ := by
  have hinstant : (sampleEffect context).occurredAt.instant = 951827696500000 := rfl
  have hrange : ¬ ¬ (minWall ≤ (951827696500000 : ℤ) ∧ (951827696500000 : ℤ) ≤ maxWall) := by decide
  have hbody : bodyOf (sampleEffect context) = .ok (sentBody (sampleEffect context) (.mapping context)) := by
    have hcontext : (sampleEffect context).context = context := rfl
    simp only [bodyOf, hinstant, hcontext, htext, refuseIf, if_neg hrange]
    rfl
  have hkey : py "ACT-T14" ++ py "@" ++ intText 951827696500000 = py "ACT-T14@951827696500000" := by decide
  unfold payload
  rw [hbody]
  dsimp only [bind, Except.bind]
  rw [hraw]
  have htransition : (sampleEffect context).transitionId = py "ACT-T14" := rfl
  dsimp only [sentBody]
  rw [hinstant, htransition, hkey]
  rfl

theorem persistEffect_first {record : PersistedEffect} {effect : Effect} (converter : EffectConverter)
    (hpayload : payload record = .ok effect) : accepts converter .empty record .answered = true ∧
      persistEffect converter .empty record .answered =
        (.ok (), Dict.empty.set record.correlationId ⟨record.correlationId, [converter.carryEffect effect],
          Dict.empty.set effect.idempotencyKey effect.digest⟩) := by
  obtain ⟨-, hbody, -, -⟩ := payload_eq_ok hpayload
  have hvalid : (ActionEffectsWorkflow.init record.correlationId none).validateEffect (converter.carryEffect effect) =
      .ok () := by
    refine validateEffect_eq_ok.2 ⟨?_, fun known hknown => nomatch hknown⟩
    rw [EffectConverter.carryEffect, hbody]
    rfl
  constructor
  · simp only [accepts, hpayload, TemporalEffectSink.serve, Dict.get?_empty, Option.getD_none, hvalid]
    rfl
  · simp only [persistEffect, hpayload, TemporalEffectSink.serve, Dict.get?_empty, Option.getD_none, hvalid]
    rfl

/-- A record whose answer was lost, persisted again after the workflow rolled over. -/
theorem effects_exactly_once_retried :
    let record := sampleEffect [(.str (py "attempt"), .int 1)]
    let events := [SinkEvent.persist record .answerLost, .rollover record.correlationId, .persist record .answered]
    let system := run (sinkStep .json) .empty events
    let calls := trace (sinkStep .json) (sinkCalls .json) .empty events
    ∀ correlationId, (system.get? correlationId = none ∧ acceptedOf correlationId calls = []) ∨
      ∃ reads, effects .json system correlationId = .ok reads ∧
        List.Forall₂ (fun given read => given.pyEq read = true) (firstOf (acceptedOf correlationId calls)) reads ∧
        ∀ read ∈ reads, read.correlationId = correlationId := by
  intro record events
  have hrecord : ∀ other delivery, SinkEvent.persist other delivery ∈ events → other = record := by
    intro other delivery h
    simp only [events, List.mem_cons, SinkEvent.persist.injEq, List.not_mem_nil, or_false, reduceCtorEq, false_or] at h
    exact h.elim And.left And.left
  have hnative : ∀ other delivery, SinkEvent.persist other delivery ∈ events → JsonNative (.mapping other.context) := by
    intro other delivery h
    rw [hrecord other delivery h]
    refine ⟨.mapping [(.str (py "attempt"), .int 1)], .mapping ?_ (List.nodup_singleton _) ?_, rfl⟩
    · intro e he
      exact ⟨py "attempt", by rw [List.mem_singleton.mp he]⟩
    · intro e he
      rw [List.mem_singleton.mp he]
      exact .int 1
  have hone : (bytesOf events).Subsingleton := by
    rintro raw ⟨first, delivery, body, hfirst, hbody, hraw⟩ raw' ⟨second, delivery', body', hsecond, hbody', hraw'⟩
    rw [hrecord first delivery hfirst] at hbody
    rw [hrecord second delivery' hsecond, hbody, Except.ok.injEq] at hbody'
    rw [← hbody', hraw, Except.ok.injEq] at hraw'
    exact hraw'
  have hrun := effects_exactly_once .json events hnative
  exact (hrun.resolve_left (not_not_intro (hone.injOn _))).1

/-- A context that holds a tuple is kept with a list in its place. -/
def tupleEffect : PersistedEffect := sampleEffect [(.str (py "ids"), .tuple [])]

/-- A tuple is written as a list, which is read back as one. -/
theorem ids_written :
    (∀ v ∈ [ContextValue.tuple [], .list []],
        dumps ⟨true, true⟩ (.mapping [(.str (py "ids"), v)]) = .ok (py "\x7b\"ids\":[]\x7d")) ∧
      dumps ⟨true, false⟩ (.mapping [(.str (py "ids"), .tuple [])]) = .ok (py "\x7b\"ids\":[]\x7d") ∧
        StandardJson.loads (py "\x7b\"ids\":[]\x7d") = .ok (.mapping [(.str (py "ids"), .list [])]) ∧
          (canonicalBytes (sentBody tupleEffect (.mapping [(.str (py "ids"), .tuple [])]))).isOk = true ∧
            tupleEffect.pyEq (sampleEffect [(.str (py "ids"), .list [])]) = false := by
  decide +kernel

theorem carry_ids (converter : EffectConverter) {v : ContextValue} (hv : v ∈ [ContextValue.tuple [], .list []]) :
    converter.carry (.mapping [(.str (py "ids"), v)]) = .mapping [(.str (py "ids"), .list [])] := by
  refine converter.reads _ (py "\x7b\"ids\":[]\x7d") _ (ids_written.1 v hv) ?_
  obtain ⟨-, -, hloads, -⟩ := ids_written
  rw [loadsContext, hloads]
  rfl

theorem carry_tuple (converter : EffectConverter) :
    converter.carry (.mapping [(.str (py "ids"), .tuple [])]) = .mapping [(.str (py "ids"), .list [])] :=
  carry_ids converter (List.mem_cons_self ..)

theorem carry_list (converter : EffectConverter) :
    converter.carry (.mapping [(.str (py "ids"), .list [])]) = .mapping [(.str (py "ids"), .list [])] :=
  carry_ids converter (List.mem_cons_of_mem _ (List.mem_cons_self ..))

theorem tuple_context_is_altered :
    let events := [SinkEvent.persist tupleEffect .answered]
    let system := run (sinkStep .json) .empty events
    let calls := trace (sinkStep .json) (sinkCalls .json) .empty events
    (∀ call ∈ calls, call.returned = true) ∧ acceptedOf (py "action-1") calls = [tupleEffect] ∧
      ∃ read, effects .json system (py "action-1") = .ok [read] ∧ tupleEffect.pyEq read = false := by
  obtain ⟨-, htext, -, hwritten, hequal⟩ := ids_written
  obtain ⟨raw, hraw⟩ : ∃ raw, canonicalBytes (sentBody tupleEffect (.mapping [(.str (py "ids"), .tuple [])])) = .ok raw := by
    cases hbytes : canonicalBytes (sentBody tupleEffect (.mapping [(.str (py "ids"), .tuple [])])) with
    | ok raw => exact ⟨raw, rfl⟩
    | error error =>
      rw [hbytes] at hwritten
      cases hwritten
  have hpayload := sampleEffect_payload htext hraw
  obtain ⟨haccepts, hfirst⟩ := persistEffect_first .json hpayload
  have hcalls : trace (sinkStep .json) (sinkCalls .json) .empty [SinkEvent.persist tupleEffect .answered] =
      [⟨tupleEffect, true, true⟩] := by
    rw [trace, trace, List.append_nil, sinkCalls, tupleEffect, haccepts, hfirst]
    rfl
  intro events system calls
  have hcallsEq : calls = [⟨tupleEffect, true, true⟩] := hcalls
  refine ⟨?_, ?_, sampleEffect [(.str (py "ids"), .list [])], ?_, hequal⟩
  · rw [hcallsEq]
    simp
  · rw [hcallsEq]
    rfl
  · have hsystem : system = (persistEffect .json .empty tupleEffect .answered).2 := rfl
    rw [hsystem, tupleEffect, hfirst]
    have hname : py "action-1" ≠ [] := by decide
    have hself : (sampleEffect [(.str (py "ids"), .tuple [])]).correlationId = py "action-1" := rfl
    rw [effects, if_neg hname, hself, Dict.get?_set_self]
    dsimp only
    rw [List.mapM_cons, List.mapM_nil]
    simp only [EffectConverter.carryEffect, sentBody, carry_tuple, carry_list]
    rfl

end OcorRuntime.Temporal
