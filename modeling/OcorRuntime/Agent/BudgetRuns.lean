import OcorRuntime.Agent.TokenBudget
import OcorRuntime.Foundations.Run

/-! Token budgets over whole runs. The parts of every invocation are calls of their own,
so a run interleaves any number of invocations with each other and with direct use of
the budget. Each call has one of five effects (`Effect`), and every result follows from that. -/
namespace OcorRuntime.Agent
open Op TokenBudget AgentKernel
set_option autoImplicit false
set_option maxHeartbeats 250000

inductive Call
  | consume (tokens : ℤ) (category : PyStr)
  | consumeText (text : TokenizerOutcome) (category : PyStr)
  | reserve (tokens : ℤ) (category uuid : PyStr)
  | commit (reservation : BudgetReservation) (used : ℤ)
  | cancel (reservation : BudgetReservation)
  | chargePrompt (maxOutputTokens : ℤ) (prompt : TokenizerOutcome)
  | reserveOutput (maxOutputTokens : ℤ) (uuid : PyStr)
  | settle (reservation : BudgetReservation) (attempt : Attempt)

/-- A call, its result put aside. -/
def perform (convert : Conversions) : Call → Budgeted Unit
  | .consume tokens category => do let _ ← consume tokens category
  | .consumeText text category => do let _ ← consumeText text category
  | .reserve tokens category uuid => do let _ ← reserve tokens category uuid
  | .commit reservation used => do let _ ← commit reservation used
  | .cancel reservation => cancel reservation
  | .chargePrompt maxOutputTokens prompt => chargePrompt maxOutputTokens prompt
  | .reserveOutput maxOutputTokens uuid => do let _ ← reserveOutput maxOutputTokens uuid
  | .settle reservation attempt => do let _ ← settle convert reservation attempt

def step (convert : Conversions) (b : TokenBudget) (call : Call) : TokenBudget := (perform convert call b).2

/-! ## Effects -/

namespace TokenBudget

def hold (b : TokenBudget) (r : BudgetReservation) : TokenBudget :=
  { b with reservations := b.reservations.set r.reservationId r }

def release (b : TokenBudget) (id : PyStr) : TokenBudget := { b with reservations := b.reservations.erase id }

end TokenBudget

/-- What happened to a reservation. -/
inductive Mark
  | opened (r : BudgetReservation)
  | charged (r : BudgetReservation)
  | cancelled (r : BudgetReservation)

/-- The effects a call can have, with what they mean for reservations. -/
inductive Effect (b : TokenBudget) : TokenBudget → List Mark → Prop
  | none : Effect b b []
  | consumed (c : TokenCharge) (h0 : 0 ≤ c.tokens) (hfits : c.tokens ≤ b.remaining) : Effect b (b.charge c) []
  | opened (r : BudgetReservation) (h0 : 0 ≤ r.tokens) (hfits : r.tokens ≤ b.remaining) :
      Effect b (b.hold r) [.opened r]
  | charged (r : BudgetReservation) (used : ℤ) (hopen : b.reservations.get? r.reservationId = some r) (h0 : 0 ≤ used)
      (hfits : used ≤ r.tokens) : Effect b ((b.release r.reservationId).charge ⟨r.category, used⟩) [.charged r]
  | cancelled (r : BudgetReservation) : Effect b (b.release r.reservationId) [.cancelled r]

theorem consume_cases (b : TokenBudget) (tokens : ℤ) (category : PyStr) :
    (∃ why, consume tokens category b = (.error why, b)) ∨
      (0 ≤ tokens ∧ tokens ≤ b.remaining ∧
        consume tokens category b = (.ok ⟨category, tokens⟩, b.charge ⟨category, tokens⟩)) := by
  simp only [consume, lift_refuseIf_bind, read_bind, update_bind, pure_apply]
  split_ifs with h1 h2 h3
  · exact Or.inl ⟨_, rfl⟩
  · exact Or.inl ⟨_, rfl⟩
  · exact Or.inl ⟨_, rfl⟩
  · exact Or.inr ⟨not_lt.mp h1, not_lt.mp h3, rfl⟩

theorem consumeText_cases (b : TokenBudget) (text : TokenizerOutcome) (category : PyStr) :
    (∃ why, consumeText text category b = (.error why, b)) ∨
      ∃ tokens, count text = .ok tokens ∧ 0 ≤ tokens ∧ tokens ≤ b.remaining ∧
        consumeText text category b = (.ok ⟨category, tokens⟩, b.charge ⟨category, tokens⟩) := by
  unfold consumeText
  cases hcount : count text with
  | error why => exact Or.inl ⟨why, bind_of_error rfl⟩
  | ok tokens =>
    have hthen : ((lift (.ok tokens) : Budgeted ℤ) >>= fun tokens => consume tokens category) b =
        consume tokens category b := bind_of_ok rfl
    rw [hthen]
    rcases consume_cases b tokens category with h | h
    · exact Or.inl h
    · exact Or.inr ⟨tokens, rfl, h⟩

theorem reserve_cases (b : TokenBudget) (tokens : ℤ) (category uuid : PyStr) :
    (∃ why, reserve tokens category uuid b = (.error why, b)) ∨
      (0 ≤ tokens ∧ tokens ≤ b.remaining ∧
        reserve tokens category uuid b = (.ok ⟨uuid, category, tokens⟩, b.hold ⟨uuid, category, tokens⟩)) := by
  simp only [reserve, lift_refuseIf_bind, read_bind, update_bind, pure_apply]
  split_ifs with h1 h2
  · exact Or.inl ⟨_, rfl⟩
  · exact Or.inl ⟨_, rfl⟩
  · exact Or.inr ⟨not_lt.mp h1, not_lt.mp h2, rfl⟩

theorem commit_cases (b : TokenBudget) (r : BudgetReservation) (used : ℤ) :
    (∃ e, commit r used b = (.error (.exception e), b)) ∨
      (b.reservations.get? r.reservationId = some r ∧ 0 ≤ used ∧ used ≤ r.tokens ∧
        commit r used b = (.ok ⟨r.category, used⟩, (b.release r.reservationId).charge ⟨r.category, used⟩)) := by
  simp only [commit, lift_refuseIf_bind, read_bind, update_bind, pure_apply]
  split_ifs with h1 h2 h3
  · exact Or.inl ⟨_, rfl⟩
  · exact Or.inl ⟨_, rfl⟩
  · exact Or.inl ⟨_, rfl⟩
  · exact Or.inr ⟨not_not.mp h2, not_lt.mp h1, not_lt.mp h3, rfl⟩

theorem attempted_cases (convert : Conversions) (b : TokenBudget) (r : BudgetReservation) (attempt : Attempt) :
    (∃ why, attempted convert r attempt b = (.error why, b)) ∨
      ∃ response used, b.reservations.get? r.reservationId = some r ∧ 0 ≤ used ∧ used ≤ r.tokens ∧
        attempted convert r attempt b = (.ok response, (b.release r.reservationId).charge ⟨r.category, used⟩) := by
  unfold attempted
  cases respond convert attempt with
  | error why => exact Or.inl ⟨why, bind_of_error rfl⟩
  | ok answer =>
    have hthen : ((lift (.ok answer) : Budgeted (AgentResponse × ℤ)) >>= fun answer =>
        commit r answer.2 >>= fun _ => pure answer.1) b = (commit r answer.2 >>= fun _ => pure answer.1) b :=
      bind_of_ok rfl
    rcases commit_cases b r answer.2 with ⟨e, hcommit⟩ | ⟨hopen, h0, hfits, hcommit⟩
    · exact Or.inl ⟨.exception e, hthen.trans (bind_of_error hcommit)⟩
    · exact Or.inr ⟨answer.1, answer.2, hopen, h0, hfits, hthen.trans (bind_of_ok hcommit)⟩

/-- The end of an invocation: its reservation is charged, cancelled, or left behind by an interrupt. -/
theorem settle_cases (convert : Conversions) (b : TokenBudget) (r : BudgetReservation) (attempt : Attempt) :
    (∃ e, settle convert r attempt b = (.error (.exception e), b.release r.reservationId)) ∨
      settle convert r attempt b = (.error .interrupt, b) ∨
      ∃ response used, b.reservations.get? r.reservationId = some r ∧ 0 ≤ used ∧ used ≤ r.tokens ∧
        settle convert r attempt b = (.ok response, (b.release r.reservationId).charge ⟨r.category, used⟩) := by
  rcases attempted_cases convert b r attempt with ⟨why, h⟩ | ⟨response, used, hopen, h0, hfits, h⟩
  · have hsettle : settle convert r attempt b = giveUp r why b := guarded_of_error h
    cases why with
    | exception e => exact Or.inl ⟨e, hsettle⟩
    | interrupt => exact Or.inr (Or.inl hsettle)
  · exact Or.inr (Or.inr ⟨response, used, hopen, h0, hfits, guarded_of_ok h⟩)

/-- What a call says about reservations. -/
def marks (convert : Conversions) (b : TokenBudget) : Call → List Mark
  | .reserve tokens category uuid => (reserve tokens category uuid b).1.toOption.toList.map .opened
  | .reserveOutput maxOutputTokens uuid => (reserveOutput maxOutputTokens uuid b).1.toOption.toList.map .opened
  | .commit r used => (commit r used b).1.toOption.toList.map fun _ => .charged r
  | .cancel r => [.cancelled r]
  | .settle r attempt =>
    match (settle convert r attempt b).1 with
    | .ok _ => [.charged r]
    | .error (.exception _) => [.cancelled r]
    | .error .interrupt => []
  | .consume _ _ | .consumeText _ _ | .chargePrompt _ _ => []

theorem discard_apply {α : Type} (x : Budgeted α) (b : TokenBudget) :
    ((do let _ ← x) : Budgeted Unit) b = ((x b).1.map fun _ => (), (x b).2) := by
  rcases h : x b with ⟨outcome, b'⟩
  cases outcome with
  | ok a => exact bind_of_ok h
  | error why => exact bind_of_error h

theorem step_effect (convert : Conversions) (b : TokenBudget) (call : Call) :
    Effect b (step convert b call) (marks convert b call) := by
  unfold step
  cases call with
  | consume tokens category =>
    rw [perform, discard_apply]
    rcases consume_cases b tokens category with ⟨why, h⟩ | ⟨h0, hfits, h⟩ <;> rw [h]
    · exact .none
    · exact .consumed ⟨category, tokens⟩ h0 hfits
  | consumeText text category =>
    rw [perform, discard_apply]
    rcases consumeText_cases b text category with ⟨why, h⟩ | ⟨tokens, -, h0, hfits, h⟩ <;> rw [h]
    · exact .none
    · exact .consumed ⟨category, tokens⟩ h0 hfits
  | reserve tokens category uuid =>
    rw [perform, discard_apply, marks]
    rcases reserve_cases b tokens category uuid with ⟨why, h⟩ | ⟨h0, hfits, h⟩ <;> rw [h]
    · exact .none
    · exact .opened ⟨uuid, category, tokens⟩ h0 hfits
  | commit r used =>
    rw [perform, discard_apply, marks]
    rcases commit_cases b r used with ⟨e, h⟩ | ⟨hopen, h0, hfits, h⟩ <;> rw [h]
    · exact .none
    · exact .charged r used hopen h0 hfits
  | cancel r => exact .cancelled r
  | chargePrompt maxOutputTokens prompt =>
    simp only [perform, chargePrompt, lift_refuseIf_bind]
    split_ifs
    · exact .none
    · rcases consumeText_cases b prompt (py "model-input") with ⟨why, h⟩ | ⟨tokens, -, h0, hfits, h⟩
      · rw [bind_of_error h]
        exact .none
      · rw [bind_of_ok h]
        exact .consumed ⟨py "model-input", tokens⟩ h0 hfits
  | reserveOutput maxOutputTokens uuid =>
    rw [perform, discard_apply, marks, reserveOutput]
    rcases reserve_cases b maxOutputTokens (py "model-output") uuid with ⟨why, h⟩ | ⟨h0, hfits, h⟩ <;> rw [h]
    · exact .none
    · exact .opened ⟨uuid, py "model-output", maxOutputTokens⟩ h0 hfits
  | settle r attempt =>
    rw [perform, discard_apply, marks]
    rcases settle_cases convert b r attempt with ⟨e, h⟩ | h | ⟨response, used, hopen, h0, hfits, h⟩ <;> rw [h]
    · exact .cancelled r
    · exact .none
    · exact .charged r used hopen h0 hfits

/-! ## The books -/

/-- Nothing is promised beyond the limit, and what was used is what was charged. -/
structure Balanced (b : TokenBudget) : Prop where
  within : b.used + b.reserved ≤ b.limit
  nonneg : ∀ r ∈ b.reservations.values, 0 ≤ r.tokens
  charged : b.used = (b.charges.map (·.tokens)).sum

theorem mem_values_of_set {d : Dict PyStr BudgetReservation} {id : PyStr} {r r' : BudgetReservation}
    (h : r' ∈ (d.set id r).values) : r' = r ∨ r' ∈ d.values := by
  obtain ⟨k, hk⟩ := (Dict.mem_values_iff _ r').mp h
  rw [Dict.get?_set] at hk
  split_ifs at hk
  · exact Or.inl (Option.some.inj hk).symm
  · exact Or.inr ((Dict.mem_values_iff _ r').mpr ⟨k, hk⟩)

theorem mem_values_of_erase {d : Dict PyStr BudgetReservation} {id : PyStr} {r : BudgetReservation}
    (h : r ∈ (d.erase id).values) : r ∈ d.values := by
  obtain ⟨k, hk⟩ := (Dict.mem_values_iff _ r).mp h
  rw [Dict.get?_erase] at hk
  split_ifs at hk
  exact (Dict.mem_values_iff _ r).mpr ⟨k, hk⟩

theorem Balanced.held_nonneg {b : TokenBudget} (h : Balanced b) (id : PyStr) :
    0 ≤ ((b.reservations.get? id).map (·.tokens)).getD 0 := by
  cases hget : b.reservations.get? id with
  | none => exact le_refl 0
  | some r => exact h.nonneg r ((Dict.mem_values_iff _ r).mpr ⟨id, hget⟩)

theorem Effect.limit {b b' : TokenBudget} {log : List Mark} (h : Effect b b' log) : b'.limit = b.limit := by
  cases h <;> rfl

theorem Balanced.effect {b b' : TokenBudget} {log : List Mark} (h : Balanced b) (he : Effect b b' log) :
    Balanced b' := by
  cases he with
  | none => exact h
  | consumed c h0 hfits =>
    refine ⟨?_, h.nonneg, ?_⟩
    · simp only [remaining] at hfits
      change b.used + c.tokens + b.reserved ≤ b.limit
      omega
    · simp [charge, h.charged]
  | opened r h0 hfits =>
    refine ⟨?_, ?_, h.charged⟩
    · have hsum := b.reservations.sum_set (·.tokens) r.reservationId r
      have hheld := h.held_nonneg r.reservationId
      simp only [remaining, reserved] at hfits
      simp only [hold, reserved]
      omega
    · intro r' hr'
      rcases mem_values_of_set hr' with rfl | hold
      · exact h0
      · exact h.nonneg r' hold
  | charged r used hopen h0 hfits =>
    have hsum := b.reservations.sum_erase (·.tokens) r.reservationId
    rw [hopen, Option.map_some, Option.getD_some] at hsum
    refine ⟨?_, fun r' hr' => h.nonneg r' (mem_values_of_erase hr'), ?_⟩
    · have hwithin := h.within
      simp only [reserved] at hwithin
      simp only [charge, release, reserved]
      omega
    · simp [charge, release, h.charged]
  | cancelled r =>
    have hsum := b.reservations.sum_erase (·.tokens) r.reservationId
    have hheld := h.held_nonneg r.reservationId
    refine ⟨?_, fun r' hr' => h.nonneg r' (mem_values_of_erase hr'), h.charged⟩
    have hwithin := h.within
    simp only [reserved] at hwithin
    simp only [release, reserved]
    omega

theorem balanced_create {limit : ℤ} {b : TokenBudget} (h : TokenBudget.create limit = .ok b) :
    Balanced b ∧ b.limit = limit := by
  unfold TokenBudget.create at h
  split_ifs at h with hneg
  cases h
  refine ⟨⟨?_, ?_, rfl⟩, rfl⟩
  · simp only [reserved, Dict.values, Dict.empty, List.map_nil, List.sum_nil]
    omega
  · simp [Dict.values, Dict.empty]

/-! ## Reservations are charged once, and not after they were cancelled -/

def openedIds (log : List Mark) : List PyStr :=
  log.filterMap fun m => match m with
    | .opened r => some r.reservationId
    | .charged _ | .cancelled _ => none

def chargedIds (log : List Mark) : List PyStr :=
  log.filterMap fun m => match m with
    | .charged r => some r.reservationId
    | .opened _ | .cancelled _ => none

theorem openedIds_append (log log' : List Mark) : openedIds (log ++ log') = openedIds log ++ openedIds log' :=
  List.filterMap_append

/-- A reservation that was made and is no longer open. -/
def Gone (b : TokenBudget) (log : List Mark) (id : PyStr) : Prop :=
  id ∈ openedIds log ∧ b.reservations.get? id = none

theorem Gone.effect {b b' : TokenBudget} {log out : List Mark} {id : PyStr} (h : Gone b log id) (he : Effect b b' out)
    (hfresh : (openedIds (log ++ out)).Nodup) : Gone b' (log ++ out) id := by
  have hmem : id ∈ openedIds (log ++ out) := by
    rw [openedIds_append]
    exact List.mem_append_left _ h.1
  refine ⟨hmem, ?_⟩
  cases he with
  | none => exact h.2
  | consumed c h0 hfits => exact h.2
  | opened r h0 hfits =>
    have hne : r.reservationId ≠ id := by
      rintro rfl
      rw [openedIds_append, List.nodup_append] at hfresh
      exact hfresh.2.2 _ h.1 _ (List.mem_singleton_self _) rfl
    change (b.reservations.set r.reservationId r).get? id = none
    rw [Dict.get?_set_of_ne _ _ hne]
    exact h.2
  | charged r used hopen h0 hfits =>
    change (b.reservations.erase r.reservationId).get? id = none
    rw [Dict.get?_erase, h.2, ite_self]
  | cancelled r =>
    change (b.reservations.erase r.reservationId).get? id = none
    rw [Dict.get?_erase, h.2, ite_self]

/-- What the log of a run says, when no id is drawn twice. -/
structure Tracked (b : TokenBudget) (log : List Mark) : Prop where
  opened : ∀ id r, b.reservations.get? id = some r → id ∈ openedIds log
  gone : ∀ id ∈ chargedIds log, Gone b log id
  once : (chargedIds log).Nodup

theorem Tracked.effect {b b' : TokenBudget} {log out : List Mark} (h : Tracked b log) (he : Effect b b' out)
    (hfresh : (openedIds (log ++ out)).Nodup) : Tracked b' (log ++ out) := by
  have hopened : ∀ id, id ∈ openedIds log → id ∈ openedIds (log ++ out) := by
    intro id hid
    rw [openedIds_append]
    exact List.mem_append_left _ hid
  have hgone : ∀ id ∈ chargedIds log, Gone b' (log ++ out) id := fun id hid => (h.gone id hid).effect he hfresh
  cases he with
  | none | consumed =>
    rw [List.append_nil] at hgone ⊢
    exact ⟨h.opened, hgone, h.once⟩
  | opened r h0 hfits =>
    have hcharged : chargedIds (log ++ [.opened r]) = chargedIds log := by simp [chargedIds]
    refine ⟨?_, by rwa [hcharged], by rw [hcharged]; exact h.once⟩
    intro id r' hget
    change (b.reservations.set r.reservationId r).get? id = some r' at hget
    rw [Dict.get?_set] at hget
    split_ifs at hget with hid
    · rw [openedIds_append, ← hid]
      exact List.mem_append_right _ (List.mem_singleton_self _)
    · exact hopened id (h.opened id r' hget)
  | charged r used hopen h0 hfits =>
    have hcharged : chargedIds (log ++ [.charged r]) = chargedIds log ++ [r.reservationId] := by simp [chargedIds]
    have hnew : r.reservationId ∉ chargedIds log := by
      intro hmem
      have hnone := (h.gone _ hmem).2
      rw [hopen] at hnone
      cases hnone
    refine ⟨?_, ?_, ?_⟩
    · intro id r' hget
      change (b.reservations.erase r.reservationId).get? id = some r' at hget
      rw [Dict.get?_erase] at hget
      split_ifs at hget
      exact hopened id (h.opened id r' hget)
    · intro id hid
      rw [hcharged] at hid
      rcases List.mem_append.mp hid with hold | hself
      · exact hgone id hold
      · rw [List.mem_singleton.mp hself]
        refine ⟨hopened _ (h.opened _ r hopen), ?_⟩
        change (b.reservations.erase r.reservationId).get? r.reservationId = none
        rw [Dict.get?_erase, if_pos rfl]
    · rw [hcharged]
      refine List.nodup_append.mpr ⟨h.once, List.nodup_singleton _, ?_⟩
      rintro id hid _ hself rfl
      exact hnew (List.mem_singleton.mp hself ▸ hid)
  | cancelled r =>
    have hcharged : chargedIds (log ++ [.cancelled r]) = chargedIds log := by simp [chargedIds]
    refine ⟨?_, by rwa [hcharged], by rw [hcharged]; exact h.once⟩
    intro id r' hget
    change (b.reservations.erase r.reservationId).get? id = some r' at hget
    rw [Dict.get?_erase] at hget
    split_ifs at hget
    exact hopened id (h.opened id r' hget)

/-! ## Runs -/

section Runs
variable (convert : Conversions)

/-- What happens to reservations along a run. -/
abbrev history (b : TokenBudget) (calls : List Call) : List Mark := trace (step convert) (marks convert) b calls

theorem balanced_run {b : TokenBudget} (h : Balanced b) (calls : List Call) : Balanced (run (step convert) b calls) :=
  run_induction (fun b call h => h.effect (step_effect convert b call)) h calls

theorem limit_run (b : TokenBudget) (calls : List Call) : (run (step convert) b calls).limit = b.limit := by
  induction calls generalizing b with
  | nil => rfl
  | cons call calls ih => rw [run_cons, ih, (step_effect convert b call).limit]

/-- A property of a state and its log that every effect keeps while ids are fresh holds along the run. -/
theorem fresh_induction {Inv : TokenBudget → List Mark → Prop}
    (hstep : ∀ b b' log out, Inv b log → Effect b b' out → (openedIds (log ++ out)).Nodup → Inv b' (log ++ out))
    {b : TokenBudget} {log : List Mark} (h : Inv b log) (calls : List Call)
    (hfresh : (openedIds (log ++ history convert b calls)).Nodup) :
    Inv (run (step convert) b calls) (log ++ history convert b calls) := by
  induction calls generalizing b log with
  | nil => rwa [history, trace, List.append_nil]
  | cons call calls ih =>
    rw [history, trace, ← List.append_assoc] at hfresh ⊢
    have hnow : (openedIds (log ++ marks convert b call)).Nodup := by
      rw [openedIds_append] at hfresh
      exact (List.nodup_append.mp hfresh).1
    exact ih (hstep _ _ _ _ h (step_effect convert b call) hnow) hfresh

theorem tracked_run {b : TokenBudget} (hempty : b.reservations = .empty) (calls : List Call)
    (hfresh : (openedIds (history convert b calls)).Nodup) :
    Tracked (run (step convert) b calls) (history convert b calls) := by
  have hstart : Tracked b [] := by
    refine ⟨?_, by simp [chargedIds], List.nodup_nil⟩
    intro id r hget
    rw [hempty] at hget
    cases hget
  have h := fresh_induction convert (fun _ _ _ _ h he hf => Tracked.effect h he hf) hstart calls (by simpa using hfresh)
  rwa [List.nil_append] at h

theorem cancelled_stays_gone {b : TokenBudget} {before between : List Call} {call : Call} {r : BudgetReservation}
    (hopened : r.reservationId ∈ openedIds (history convert b before))
    (hcancel : .cancelled r ∈ marks convert (run (step convert) b before) call)
    (hfresh : (openedIds (history convert b (before ++ call :: between))).Nodup) :
    (run (step convert) b (before ++ call :: between)).reservations.get? r.reservationId = none := by
  have hsplit : history convert b (before ++ call :: between) =
      (history convert b before ++ marks convert (run (step convert) b before) call) ++
        history convert (step convert (run (step convert) b before) call) between := by
    rw [history, trace_append, trace, ← List.append_assoc]
  rw [hsplit] at hfresh
  rw [run_append, run_cons]
  have hgone : Gone (step convert (run (step convert) b before) call)
      (history convert b before ++ marks convert (run (step convert) b before) call) r.reservationId := by
    refine ⟨by rw [openedIds_append]; exact List.mem_append_left _ hopened, ?_⟩
    have heffect := step_effect convert (run (step convert) b before) call
    generalize step convert (run (step convert) b before) call = b' at heffect
    generalize marks convert (run (step convert) b before) call = out at heffect hcancel
    cases heffect with
    | none => cases hcancel
    | consumed => cases hcancel
    | opened other =>
      rcases List.mem_singleton.mp hcancel
    | charged other =>
      rcases List.mem_singleton.mp hcancel
    | cancelled other =>
      cases List.mem_singleton.mp hcancel
      change (Dict.erase _ r.reservationId).get? r.reservationId = none
      rw [Dict.get?_erase, if_pos rfl]
  exact (@fresh_induction convert (fun b log => Gone b log r.reservationId)
    (fun _ _ _ _ h he hf => h.effect he hf) _ _ hgone between hfresh).2

theorem raises_unchanged {b : TokenBudget} {call : Call} {why : Raised} (h : (perform convert call b).1 = .error why)
    (hother : ∀ r attempt, call ≠ .settle r attempt) : step convert b call = b := by
  unfold step
  cases call with
  | consume tokens category =>
    rw [perform, discard_apply] at h ⊢
    rcases consume_cases b tokens category with ⟨_, hc⟩ | ⟨_, _, hc⟩ <;> rw [hc] at h ⊢
    cases h
  | consumeText text category =>
    rw [perform, discard_apply] at h ⊢
    rcases consumeText_cases b text category with ⟨_, hc⟩ | ⟨_, _, _, _, hc⟩ <;> rw [hc] at h ⊢
    cases h
  | reserve tokens category uuid =>
    rw [perform, discard_apply] at h ⊢
    rcases reserve_cases b tokens category uuid with ⟨_, hc⟩ | ⟨_, _, hc⟩ <;> rw [hc] at h ⊢
    cases h
  | commit r used =>
    rw [perform, discard_apply] at h ⊢
    rcases commit_cases b r used with ⟨_, hc⟩ | ⟨_, _, _, hc⟩ <;> rw [hc] at h ⊢
    cases h
  | cancel r => cases h
  | chargePrompt maxOutputTokens prompt =>
    simp only [perform, chargePrompt, lift_refuseIf_bind] at h ⊢
    split_ifs at h ⊢
    · rfl
    · rcases consumeText_cases b prompt (py "model-input") with ⟨_, hc⟩ | ⟨_, _, _, _, hc⟩
      · rw [bind_of_error hc]
      · rw [bind_of_ok hc] at h
        cases h
  | reserveOutput maxOutputTokens uuid =>
    rw [perform, discard_apply, reserveOutput] at h ⊢
    rcases reserve_cases b maxOutputTokens (py "model-output") uuid with ⟨_, hc⟩ | ⟨_, _, hc⟩ <;> rw [hc] at h ⊢
    cases h
  | settle r attempt => exact absurd rfl (hother r attempt)

/-- The end of an invocation, unless it was interrupted, leaves its reservation closed; when it raises, that is
all it does. -/
theorem settle_closes {b : TokenBudget} {r : BudgetReservation} {attempt : Attempt}
    (h : (settle convert r attempt b).1 ≠ .error .interrupt) :
    (settle convert r attempt b).2.reservations.get? r.reservationId = none ∧
      (∀ id, id ≠ r.reservationId →
        (settle convert r attempt b).2.reservations.get? id = b.reservations.get? id) ∧
      ∀ e, (settle convert r attempt b).1 = .error (.exception e) →
        (settle convert r attempt b).2.used = b.used ∧ (settle convert r attempt b).2.charges = b.charges := by
  have hrelease : (b.release r.reservationId).reservations.get? r.reservationId = none ∧
      ∀ id, id ≠ r.reservationId →
        (b.release r.reservationId).reservations.get? id = b.reservations.get? id := by
    refine ⟨by rw [release, Dict.get?_erase, if_pos rfl], fun id hid => ?_⟩
    rw [release, Dict.get?_erase, if_neg hid.symm]
  rcases settle_cases convert b r attempt with ⟨e, hs⟩ | hs | ⟨response, used, hopen, h0, hfits, hs⟩
  · rw [hs]
    exact ⟨hrelease.1, hrelease.2, fun _ _ => ⟨rfl, rfl⟩⟩
  · rw [hs] at h
    exact absurd rfl h
  · rw [hs]
    exact ⟨hrelease.1, hrelease.2, fun _ herror => by cases herror⟩

/-- A whole invocation, nothing else using the budget: at most the prompt stays charged when it raises. -/
theorem invoke_cases (b : TokenBudget) (maxOutputTokens : ℤ) (prompt : TokenizerOutcome) (uuid : PyStr)
    (attempt : Attempt) :
    (∃ why, invoke convert maxOutputTokens prompt uuid attempt b = (.error why, b)) ∨
    ∃ tokens, count prompt = .ok tokens ∧
      ((∃ why, invoke convert maxOutputTokens prompt uuid attempt b =
        (.error why, b.charge ⟨py "model-input", tokens⟩)) ∨
      invoke convert maxOutputTokens prompt uuid attempt b =
        settle convert ⟨uuid, py "model-output", maxOutputTokens⟩ attempt
          ((b.charge ⟨py "model-input", tokens⟩).hold ⟨uuid, py "model-output", maxOutputTokens⟩)) := by
  unfold invoke
  by_cases hmax : maxOutputTokens ≤ 0
  · left
    have hrefused : chargePrompt maxOutputTokens prompt b =
        (.error (raised .valueError "max_output_tokens must be positive" []), b) := by
      simp only [chargePrompt, lift_refuseIf_bind, if_pos hmax]
    exact ⟨_, bind_of_error hrefused⟩
  · have hcharge : chargePrompt maxOutputTokens prompt b =
        (consumeText prompt (py "model-input") >>= fun _ => pure ()) b := by
      simp only [chargePrompt, lift_refuseIf_bind, if_neg hmax]
    rcases consumeText_cases b prompt (py "model-input") with ⟨why, hc⟩ | ⟨tokens, hcount, -, -, hc⟩
    · exact Or.inl ⟨why, bind_of_error (hcharge.trans (bind_of_error hc))⟩
    · right
      refine ⟨tokens, hcount, ?_⟩
      have hcharged : chargePrompt maxOutputTokens prompt b = (.ok (), b.charge ⟨py "model-input", tokens⟩) :=
        hcharge.trans (bind_of_ok hc)
      rw [bind_of_ok hcharged]
      rcases reserve_cases (b.charge ⟨py "model-input", tokens⟩) maxOutputTokens (py "model-output") uuid with
        ⟨why, hr⟩ | ⟨-, -, hr⟩
      · exact Or.inl ⟨why, bind_of_error hr⟩
      · exact Or.inr (bind_of_ok hr)

/-- An invocation alone on a budget, unless it was interrupted, leaves every reservation as it was. -/
theorem invoke_closes {b : TokenBudget} {maxOutputTokens : ℤ} {prompt : TokenizerOutcome} {uuid : PyStr}
    {attempt : Attempt} (hfresh : b.reservations.get? uuid = none)
    (h : (invoke convert maxOutputTokens prompt uuid attempt b).1 ≠ .error .interrupt) (id : PyStr) :
    (invoke convert maxOutputTokens prompt uuid attempt b).2.reservations.get? id = b.reservations.get? id := by
  rcases invoke_cases convert b maxOutputTokens prompt uuid attempt with ⟨why, hi⟩ | ⟨tokens, hcount, ⟨why, hi⟩ | hi⟩
  · rw [hi]
  · rw [hi]
    rfl
  · rw [hi] at h ⊢
    obtain ⟨hclosed, hothers, -⟩ := settle_closes convert h
    by_cases hid : id = uuid
    · rw [hid, hclosed, hfresh]
    · rw [hothers id hid]
      exact Dict.get?_set_of_ne _ _ (Ne.symm hid)

theorem invoke_raises {b : TokenBudget} {maxOutputTokens : ℤ} {prompt : TokenizerOutcome} {uuid : PyStr}
    {attempt : Attempt} {e : PyError}
    (h : (invoke convert maxOutputTokens prompt uuid attempt b).1 = .error (.exception e)) :
    ((invoke convert maxOutputTokens prompt uuid attempt b).2.used = b.used ∧
      (invoke convert maxOutputTokens prompt uuid attempt b).2.charges = b.charges) ∨
    ∃ tokens, count prompt = .ok tokens ∧
      (invoke convert maxOutputTokens prompt uuid attempt b).2.used = b.used + tokens ∧
      (invoke convert maxOutputTokens prompt uuid attempt b).2.charges =
        b.charges ++ [⟨py "model-input", tokens⟩] := by
  rcases invoke_cases convert b maxOutputTokens prompt uuid attempt with ⟨why, hi⟩ | ⟨tokens, hcount, ⟨why, hi⟩ | hi⟩
  · rw [hi]
    exact Or.inl ⟨rfl, rfl⟩
  · rw [hi]
    exact Or.inr ⟨tokens, hcount, rfl, rfl⟩
  · rw [hi] at h ⊢
    obtain ⟨-, -, hexception⟩ := settle_closes convert (by rw [h]; simp)
    obtain ⟨hused, hcharges⟩ := hexception e h
    exact Or.inr ⟨tokens, hcount, hused, hcharges⟩

theorem commit_gone {b : TokenBudget} {r : BudgetReservation} (h : b.reservations.get? r.reservationId = none)
    (used : ℤ) : ∃ why, (commit r used b).1 = .error why := by
  rcases commit_cases b r used with ⟨e, hc⟩ | ⟨hopen, -⟩
  · exact ⟨.exception e, by rw [hc]⟩
  · rw [h] at hopen
    cases hopen

theorem settle_gone {b : TokenBudget} {r : BudgetReservation} (h : b.reservations.get? r.reservationId = none)
    (attempt : Attempt) : ∃ why, (settle convert r attempt b).1 = .error why := by
  rcases settle_cases convert b r attempt with ⟨e, hs⟩ | hs | ⟨_, _, hopen, -⟩
  · exact ⟨.exception e, by rw [hs]⟩
  · exact ⟨.interrupt, by rw [hs]⟩
  · rw [h] at hopen
    cases hopen

/-- **A token budget keeps its books.** Over every run of budget operations and parts of
invocations, interleaved in any way, with models and tokenizers that raise or misreport:
what is used and what is reserved stay within the limit; what was used is what was charged;
as long as no reservation id is drawn twice, none is charged twice, nor after it was
cancelled; a budget operation that raises changes nothing; an invocation that raises an
exception adds at most the charge of its prompt; and one that returns or raises an
exception leaves no reservation of its own open. -/
theorem token_budget_accounts {limit : ℤ} {b : TokenBudget} (hcreate : TokenBudget.create limit = .ok b)
    (calls : List Call) :
    (run (step convert) b calls).used + (run (step convert) b calls).reserved ≤ limit ∧
    (run (step convert) b calls).used = ((run (step convert) b calls).charges.map (·.tokens)).sum ∧
    ((openedIds (history convert b calls)).Nodup →
      (chargedIds (history convert b calls)).Nodup ∧
      ∀ before call between after r, calls = before ++ call :: between ++ after →
        r.reservationId ∈ openedIds (history convert b before) →
        .cancelled r ∈ marks convert (run (step convert) b before) call →
          (∀ used, ∃ why, (commit r used (run (step convert) b (before ++ call :: between))).1 = .error why) ∧
          ∀ attempt, ∃ why,
            (settle convert r attempt (run (step convert) b (before ++ call :: between))).1 = .error why) ∧
    (∀ call why, (perform convert call (run (step convert) b calls)).1 = .error why →
      (∀ r attempt, call ≠ .settle r attempt) →
        step convert (run (step convert) b calls) call = run (step convert) b calls) ∧
    (∀ r attempt, (settle convert r attempt (run (step convert) b calls)).1 ≠ .error .interrupt →
      (settle convert r attempt (run (step convert) b calls)).2.reservations.get? r.reservationId = none ∧
      (∀ id, id ≠ r.reservationId →
        (settle convert r attempt (run (step convert) b calls)).2.reservations.get? id =
          (run (step convert) b calls).reservations.get? id) ∧
      ∀ e, (settle convert r attempt (run (step convert) b calls)).1 = .error (.exception e) →
        (settle convert r attempt (run (step convert) b calls)).2.used = (run (step convert) b calls).used ∧
        (settle convert r attempt (run (step convert) b calls)).2.charges = (run (step convert) b calls).charges) ∧
    ∀ maxOutputTokens prompt uuid attempt,
      ((run (step convert) b calls).reservations.get? uuid = none →
        (invoke convert maxOutputTokens prompt uuid attempt (run (step convert) b calls)).1 ≠ .error .interrupt →
          ∀ id, (invoke convert maxOutputTokens prompt uuid attempt (run (step convert) b calls)).2.reservations.get? id =
            (run (step convert) b calls).reservations.get? id) ∧
      ∀ e, (invoke convert maxOutputTokens prompt uuid attempt (run (step convert) b calls)).1 = .error (.exception e) →
        ((invoke convert maxOutputTokens prompt uuid attempt (run (step convert) b calls)).2.used =
            (run (step convert) b calls).used ∧
          (invoke convert maxOutputTokens prompt uuid attempt (run (step convert) b calls)).2.charges =
            (run (step convert) b calls).charges) ∨
        ∃ tokens, count prompt = .ok tokens ∧
          (invoke convert maxOutputTokens prompt uuid attempt (run (step convert) b calls)).2.used =
            (run (step convert) b calls).used + tokens ∧
          (invoke convert maxOutputTokens prompt uuid attempt (run (step convert) b calls)).2.charges =
            (run (step convert) b calls).charges ++ [⟨py "model-input", tokens⟩] := by
  obtain ⟨hstart, hlimit⟩ := balanced_create hcreate
  have hbalanced := balanced_run convert hstart calls
  have hempty : b.reservations = .empty := by
    unfold TokenBudget.create at hcreate
    split_ifs at hcreate
    cases hcreate
    rfl
  refine ⟨?_, hbalanced.charged, ?_, ?_, ?_, ?_⟩
  · have hwithin := hbalanced.within
    rwa [limit_run, hlimit] at hwithin
  · intro hfresh
    refine ⟨(tracked_run convert hempty calls hfresh).once, ?_⟩
    intro before call between after r hcalls hopened hcancel
    have hprefix : (openedIds (history convert b (before ++ call :: between))).Nodup := by
      rw [hcalls, history, trace_append, openedIds_append] at hfresh
      exact (List.nodup_append.mp hfresh).1
    have hgone := cancelled_stays_gone convert hopened hcancel hprefix
    exact ⟨commit_gone hgone, settle_gone convert hgone⟩
  · intro call why hraises hother
    exact raises_unchanged convert hraises hother
  · intro r attempt hexit
    exact settle_closes convert hexit
  · intro maxOutputTokens prompt uuid attempt
    exact ⟨fun hfresh hexit => invoke_closes convert hfresh hexit, fun _ => invoke_raises convert⟩

end Runs

/-! An invocation whose model raises, on a budget of ten tokens: its prompt stays charged. -/

def sampleConversions : Conversions := ⟨fun _ => [], fun _ => .error ⟨.typeError, "float()", []⟩⟩

def sampleBudget : TokenBudget := ⟨10, 0, .empty, []⟩

theorem sampleBudget_created : TokenBudget.create 10 = .ok sampleBudget := rfl

def sampleFailure : Attempt := ⟨.ok (), .error (raised .runtimeError "model failed" []), fun _ => .counts 1⟩

theorem invoke_raising_keeps_prompt_charge :
    ¬ ∀ (convert : Conversions) (b : TokenBudget) (maxOutputTokens : ℤ) (prompt : TokenizerOutcome) (uuid : PyStr)
      (attempt : Attempt) (why : Raised),
      (invoke convert maxOutputTokens prompt uuid attempt b).1 = .error why →
        (invoke convert maxOutputTokens prompt uuid attempt b).2.used = b.used ∧
        (invoke convert maxOutputTokens prompt uuid attempt b).2.charges = b.charges := by
  intro h
  have hused := (h sampleConversions sampleBudget 5 (.counts 2) (py "u") sampleFailure _ rfl).1
  revert hused
  decide

/-- A run in which an invocation reserves five tokens and fails, next to a reservation that is committed. -/
theorem token_budget_accounts_sample :
    TokenBudget.create 10 = .ok sampleBudget ∧
    (run (step sampleConversions) sampleBudget [.reserve 2 (py "c") (py "v"), .chargePrompt 5 (.counts 2),
      .reserveOutput 5 (py "u"), .settle ⟨py "u", py "model-output", 5⟩ sampleFailure,
      .commit ⟨py "v", py "c", 2⟩ 1]).used = 3 ∧
    (run (step sampleConversions) sampleBudget [.reserve 2 (py "c") (py "v"), .chargePrompt 5 (.counts 2),
      .reserveOutput 5 (py "u"), .settle ⟨py "u", py "model-output", 5⟩ sampleFailure,
      .commit ⟨py "v", py "c", 2⟩ 1]).used =
    ((run (step sampleConversions) sampleBudget [.reserve 2 (py "c") (py "v"), .chargePrompt 5 (.counts 2),
      .reserveOutput 5 (py "u"), .settle ⟨py "u", py "model-output", 5⟩ sampleFailure,
      .commit ⟨py "v", py "c", 2⟩ 1]).charges.map (·.tokens)).sum :=
  ⟨sampleBudget_created, by decide, (token_budget_accounts sampleConversions sampleBudget_created _).2.1⟩

end OcorRuntime.Agent
