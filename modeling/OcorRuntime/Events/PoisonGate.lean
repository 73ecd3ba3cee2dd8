import OcorRuntime.Events.Operations

/-! Whether a poison event reaches the backbone before an operator releases it. The gate of `replay`
looks at the class of the letter it is given, and the letters of the first two failures keep the
class they were recorded with. -/
namespace OcorRuntime.Events.EventOperationsCoordinator
set_option autoImplicit false
set_option maxHeartbeats 250000
set_option maxRecDepth 120000

variable (broker : Broker)

/-- Each letter is classified by the attempt it was recorded at. -/
def Classified (c : EventOperationsCoordinator) : Prop :=
  ∀ letter ∈ c.deadLetters, letter.failureClass = failureClassOf letter.attempts

theorem deliver_deadLetters (c : EventOperationsCoordinator) (index : ℕ) (p : Publication) (attempts : ℕ)
    (replies : Replies) : (c.deliver broker index p attempts replies).deadLetters = c.deadLetters := by
  unfold deliver
  dsimp only
  split
  · rfl
  · rfl

theorem replay_deadLetters (c : EventOperationsCoordinator) (letter : DeadLetter) (reason : PyStr)
    (replies : Replies) : (c.replay broker letter reason replies).2.deadLetters = c.deadLetters := by
  unfold replay
  split
  · rfl
  · rfl

/-- A step keeps the letters there are and adds at most one, classified by its attempt. -/
theorem step_deadLetters (c : EventOperationsCoordinator) (a : Action) :
    (c.step broker a).deadLetters = c.deadLetters ∨
      ∃ envelope attempts reasonCode now,
        (c.step broker a).deadLetters = c.deadLetters ++ [letterOf envelope attempts reasonCode now] := by
  cases a with
  | start envelope tenant =>
    left
    simp only [step, start]
    split_ifs <;> rfl
  | count index =>
    left
    simp only [step]
    split <;> rfl
  | deliver index replies =>
    left
    simp only [step]
    split
    · exact deliver_deadLetters broker c index _ _ replies
    · rfl
  | record index now =>
    simp only [step]
    split
    · next envelope tenant attempts reasonCode _ => exact Or.inr ⟨envelope, attempts, reasonCode, now, rfl⟩
    · exact Or.inl rfl
  | conclude index =>
    left
    simp only [step]
    split
    · next failureClass _ => cases failureClass <;> rfl
    · rfl
  | release eventId =>
    left
    simp only [step, releaseForOperatorReplay]
    split_ifs <;> rfl
  | replay letter reason replies =>
    left
    simp only [step]
    split
    · exact replay_deadLetters broker c _ reason replies
    · rfl

theorem classified_step (c : EventOperationsCoordinator) (a : Action) (h : c.Classified) :
    (c.step broker a).Classified := by
  intro letter hletter
  rcases step_deadLetters broker c a with heq | ⟨envelope, attempts, reasonCode, now, heq⟩
  · rw [heq] at hletter
    exact h letter hletter
  · rw [heq, List.mem_append, List.mem_singleton] at hletter
    rcases hletter with hletter | rfl
    · exact h letter hletter
    · rfl

/-- No replay of a poisoned event that no operator released reaches the backbone in this step. -/
def GateHolds (c : EventOperationsCoordinator) (a : Action) : Prop :=
  ∀ letter, c.replayed a = some letter → c.isPoisoned letter.eventId = true → letter.eventId ∈ c.operatorReleasedEventIds

/-- The letter at an index, if its event is in quarantine and not released. -/
def heldLetter (c : EventOperationsCoordinator) (index : ℕ) : Option DeadLetter :=
  c.deadLetters[index]?.filter fun letter =>
    c.isPoisoned letter.eventId && decide (letter.eventId ∉ c.operatorReleasedEventIds)

/-- A replayed letter of a held event was recorded at the third or a later attempt, or is no envelope. -/
def ReplaysLate (c : EventOperationsCoordinator) : Action → Prop
  | .replay index _ _ => ∀ letter, c.heldLetter index = some letter →
      poisonThreshold ≤ letter.attempts ∨ (CanonicalIngestionEnvelope.fromMapping letter.envelopeRaw).isOk = false
  | _ => True

theorem heldLetter_eq_some {c : EventOperationsCoordinator} {index : ℕ} {letter : DeadLetter} :
    c.heldLetter index = some letter ↔ c.deadLetters[index]? = some letter ∧
      c.isPoisoned letter.eventId = true ∧ letter.eventId ∉ c.operatorReleasedEventIds := by
  simp [heldLetter, Option.filter_eq_some_iff]

/-- Of a held event, exactly the letters of the class `POISON` are stopped by the gate. -/
theorem replayedEnvelope_isOk {c : EventOperationsCoordinator} {letter : DeadLetter}
    (hheld : letter.eventId ∉ c.operatorReleasedEventIds) :
    (c.replayedEnvelope letter).isOk = true ↔
      letter.failureClass ≠ .poison ∧ (CanonicalIngestionEnvelope.fromMapping letter.envelopeRaw).isOk = true := by
  unfold replayedEnvelope refuseIf
  by_cases hclass : letter.failureClass = .poison
  · simp [hclass, hheld, bind, Except.bind, Except.isOk, Except.toBool]
  · simp [hclass, bind, Except.bind]

theorem failureClassOf_ne_poison {attempts : ℕ} :
    failureClassOf attempts ≠ .poison ↔ attempts < poisonThreshold := by
  unfold failureClassOf
  split_ifs with h
  · simp [h]
  · simpa using h

theorem gateHolds_iff_replaysLate (c : EventOperationsCoordinator) (a : Action) (hc : c.Classified) :
    c.GateHolds a ↔ c.ReplaysLate a := by
  cases a with
  | replay index reason replies =>
    constructor
    · intro h letter hheld
      obtain ⟨hletter, hpoisoned, hunreleased⟩ := heldLetter_eq_some.1 hheld
      by_contra hcon
      rw [not_or, not_le, Bool.not_eq_false] at hcon
      have hclass : letter.failureClass ≠ .poison := by
        rw [hc letter (List.mem_of_getElem? hletter)]
        exact failureClassOf_ne_poison.2 hcon.1
      have hok := (replayedEnvelope_isOk hunreleased).mpr ⟨hclass, hcon.2⟩
      exact hunreleased (h letter (by simp [replayed, hletter, hok]) hpoisoned)
    · intro h letter hreplayed hpoisoned
      by_contra hunreleased
      simp only [replayed] at hreplayed
      split at hreplayed
      · next found hfound =>
        split_ifs at hreplayed with hok
        cases hreplayed
        obtain ⟨hclass, henvelope⟩ := (replayedEnvelope_isOk hunreleased).mp hok
        rw [hc letter (List.mem_of_getElem? hfound), failureClassOf_ne_poison] at hclass
        rcases h letter (heldLetter_eq_some.2 ⟨hfound, hpoisoned, hunreleased⟩) with hlate | hnone
        · omega
        · simp [henvelope] at hnone
      · cases hreplayed
  | _ => simp [GateHolds, ReplaysLate, replayed]

/-- A coordinator as its constructor leaves it. -/
def created (backbone : CanonicalEventBackbone) (maxInFlightPerTenant : ℤ) : EventOperationsCoordinator :=
  { backbone, maxInFlightPerTenant }

/-- **The poison gate.** Over every run of publishes, releases and replays of recorded letters, no replay of a
poisoned event reaches the backbone before its release exactly if every letter replayed while its event is held was
recorded at the third or a later attempt, or holds no readable envelope. -/
theorem poison_gate_holds_iff (backbone : CanonicalEventBackbone) (maxInFlightPerTenant : ℤ) (actions : List Action) :
    AllSteps (fun c a => c.step broker a) GateHolds (created backbone maxInFlightPerTenant) actions ↔
      AllSteps (fun c a => c.step broker a) ReplaysLate (created backbone maxInFlightPerTenant) actions := by
  apply allSteps_congr (classified_step broker) gateHolds_iff_replaysLate
  intro letter hletter
  cases hletter

/-! ## A poisoned event replayed through its first letter -/

/-- An envelope with every field filled, under a schema that is not registered. -/
def strayEnvelope : CanonicalIngestionEnvelope where
  eventId := py "e"
  eventType := py "t"
  eventVersion := py "1"
  schemaRef := py "urn:unknown"
  producerPrincipal := py "p"
  sourceRef := py "s"
  aggregateRef := py "a"
  correlationId := py "c"
  causationId := py "c"
  classificationMarkingRef := py "m"
  governedContextDigest := py "g"
  idempotencyKey := py "k"
  sequence := .int 1
  payload := .empty

def unanswered : Replies where
  delivered := none
  produced := .succeeded

/-- One call of `publish_with_backpressure` with no other under way. -/
def strayCall : List Action :=
  [.start strayEnvelope (py "tenant"), .count 0, .deliver 0 unanswered, .record 0 0, .conclude 0]

instance (c : EventOperationsCoordinator) (a : Action) : Decidable (c.GateHolds a) :=
  match h : c.replayed a with
  | none => isTrue (by simp [GateHolds, h])
  | some letter => decidable_of_iff (c.isPoisoned letter.eventId = true → letter.eventId ∈ c.operatorReleasedEventIds)
      (by simp [GateHolds, h])

/-- Three failures poison the event, and the letter of the first of them is replayed without a release. -/
theorem first_letter_passes_the_gate :
    ¬ AllSteps (fun c a => step ⟨fun _ => 0⟩ c a) GateHolds (created {} 50)
      (strayCall ++ strayCall ++ strayCall ++ [.replay 0 (py "retry") unanswered]) := by
  decide

end OcorRuntime.Events.EventOperationsCoordinator
