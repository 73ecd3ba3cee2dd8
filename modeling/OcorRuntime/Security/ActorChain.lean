import OcorRuntime.Canonical.Json
import OcorRuntime.Security.Grant

/-! The actor chain of a token (`security/control_plane.py`): the nested `act` claims,
from the latest actor to the earliest one, each named by its `sub`. -/
namespace OcorRuntime.Security
open Canonical
set_option autoImplicit false
set_option maxHeartbeats 250000

/-! ## Claims -/

/-- `claims["act"]`, of claims that have it. -/
def actOf : PyValue → Option PyValue
  | .mapping entries => Dict.find entries (.str (py "act"))
  | _ => none

/-- The `sub` of an actor, if the actor is an object and its `sub` is a text that is not empty. -/
def actorId : PyValue → Option PyStr
  | .mapping entries =>
    match Dict.find entries (.str (py "sub")) with
    | some (.str (c :: text)) => some (c :: text)
    | _ => none
  | _ => none

theorem sizeOf_actOf {claims actor : PyValue} (h : actOf claims = some actor) : sizeOf actor < sizeOf claims := by
  cases claims with
  | mapping entries =>
    have hlt := sizeOf_entry_lt (Dict.mem_of_find h)
    simp only [PyValue.mapping.sizeOf_spec]
    exact hlt
  | _ => cases h

/-- The nested acts of claims, the outermost first. -/
def actPath (claims : PyValue) : List PyValue :=
  match _hact : actOf claims with
  | none => []
  | some actor => actor :: actPath actor
termination_by sizeOf claims
decreasing_by exact sizeOf_actOf ‹_›

/-! ## The chain -/

/-- `_correlation`. -/
def correlation (correlationId : Option PyStr) : PyStr :=
  match correlationId with
  | some (c :: text) => py "correlation_id=" ++ c :: text
  | _ => py "correlation_id=none"

def actorRejected (correlationId : Option PyStr) : PyError :=
  controlError "IDENTITY_REJECTED" "%s malformed or cyclic actor claim" [.text (correlation correlationId)]

/-- The loop of `_signed_actor_chain`. -/
def walkActors (rejected : PyError) (claims : PyValue) (chain : List PyStr) : Except PyError (List PyStr) :=
  match _hact : actOf claims with
  | none => .ok chain
  | some actor =>
    match actorId actor with
    | none => .error rejected
    | some name => if name ∈ chain then .error rejected else walkActors rejected actor (name :: chain)
termination_by sizeOf claims
decreasing_by exact sizeOf_actOf ‹_›

/-- `_signed_actor_chain`; no `actor` is `_ABSENT`. -/
def signedActorChain (actor : Option PyValue) (principalId : PyStr) (correlationId : Option PyStr) :
    Except PyError (List PyStr) :=
  let claims : PyValue :=
    match actor with
    | some actor => .mapping [(.str (py "act"), actor)]
    | none => .mapping []
  walkActors (actorRejected correlationId) claims [principalId]

/-! ## What a walk finds -/

variable {rejected : PyError} {claims actor : PyValue} {chain : List PyStr}

theorem claims_induct {P : PyValue → Prop} (step : ∀ claims, (∀ actor, actOf claims = some actor → P actor) → P claims)
    (claims : PyValue) : P claims := by
  induction hsize : sizeOf claims using Nat.strong_induction_on generalizing claims with
  | _ n ih =>
    refine step claims fun actor hact => ih (sizeOf actor) ?_ actor rfl
    rw [← hsize]
    exact sizeOf_actOf hact

theorem actPath_none (h : actOf claims = none) : actPath claims = [] := by
  rw [actPath]
  split
  · rfl
  · next hsome => cases h.symm.trans hsome

theorem actPath_some (h : actOf claims = some actor) : actPath claims = actor :: actPath actor := by
  rw [actPath]
  split
  · next hnone => cases h.symm.trans hnone
  · next hsome =>
    cases h.symm.trans hsome
    rfl

theorem walkActors_none (h : actOf claims = none) : walkActors rejected claims chain = .ok chain := by
  rw [walkActors]
  split
  · rfl
  · next hsome => cases h.symm.trans hsome

theorem walkActors_some (h : actOf claims = some actor) : walkActors rejected claims chain =
    match actorId actor with
    | none => .error rejected
    | some name => if name ∈ chain then .error rejected else walkActors rejected actor (name :: chain) := by
  rw [walkActors]
  split
  · next hnone => cases h.symm.trans hnone
  · next hsome =>
    cases h.symm.trans hsome
    rfl

/-- A walk that ends with a chain has put every actor of the path before it, and met none twice. -/
theorem walkActors_eq_ok {result : List PyStr} (hchain : chain.Nodup) (h : walkActors rejected claims chain = .ok result) :
    result.Nodup ∧ ∃ names : List PyStr, result = names.reverse ++ chain ∧ (actPath claims).map actorId = names.map some := by
  induction claims using claims_induct generalizing chain with
  | _ claims ih =>
    cases hact : actOf claims with
    | none =>
      rw [walkActors_none hact] at h
      cases h
      exact ⟨hchain, [], rfl, by rw [actPath_none hact]; rfl⟩
    | some actor =>
      rw [walkActors_some hact] at h
      cases hname : actorId actor with
      | none =>
        rw [hname] at h
        cases h
      | some name =>
        rw [hname] at h
        dsimp only at h
        split_ifs at h with hmet
        obtain ⟨hnodup, names, rfl, hpath⟩ := ih actor hact (List.nodup_cons.mpr ⟨hmet, hchain⟩) h
        refine ⟨hnodup, name :: names, ?_, ?_⟩
        · rw [List.reverse_cons, List.append_assoc, List.singleton_append]
        · rw [actPath_some hact, List.map_cons, List.map_cons, hname, hpath]

/-- An act that ends the walk: it names no actor, or one that is in the chain or was named before. -/
def Rejects (chain : List PyStr) (before : List PyValue) (act : PyValue) : Prop :=
  actorId act = none ∨ ∃ name, actorId act = some name ∧ (name ∈ chain ∨ name ∈ before.filterMap actorId)

theorem walkActors_eq_error {e : PyError} : walkActors rejected claims chain = .error e ↔
    e = rejected ∧ ∃ before act after, actPath claims = before ++ act :: after ∧ Rejects chain before act := by
  induction claims using claims_induct generalizing chain with
  | _ claims ih =>
    cases hact : actOf claims with
    | none =>
      rw [walkActors_none hact, actPath_none hact]
      constructor
      · intro h
        cases h
      · rintro ⟨-, before, act, after, hpath, -⟩
        exact absurd hpath.symm (List.append_ne_nil_of_right_ne_nil _ (List.cons_ne_nil act after))
    | some actor =>
      rw [walkActors_some hact, actPath_some hact]
      cases hname : actorId actor with
      | none =>
        constructor
        · intro h
          cases h
          exact ⟨rfl, [], actor, _, rfl, .inl hname⟩
        · rintro ⟨rfl, -⟩
          rfl
      | some name =>
        dsimp only
        by_cases hmet : name ∈ chain
        · rw [if_pos hmet]
          constructor
          · intro h
            cases h
            exact ⟨rfl, [], actor, _, rfl, .inr ⟨name, hname, .inl hmet⟩⟩
          · rintro ⟨rfl, -⟩
            rfl
        · rw [if_neg hmet, ih actor hact]
          refine and_congr_right fun _ => ⟨?_, ?_⟩
          · rintro ⟨before, act, after, hpath, hrejects⟩
            refine ⟨actor :: before, act, after, by rw [hpath, List.cons_append], hrejects.imp id ?_⟩
            rintro ⟨other, hother, hseen⟩
            refine ⟨other, hother, ?_⟩
            rw [List.filterMap_cons_some hname, List.mem_cons]
            rw [List.mem_cons] at hseen
            tauto
          · rintro ⟨before, act, after, hpath, hrejects⟩
            cases before with
            | nil =>
              -- the first act is not the one that ends the walk
              cases hpath
              rcases hrejects with hnone | ⟨other, hother, hseen⟩
              · cases hname.symm.trans hnone
              · cases hname.symm.trans hother
                rcases hseen with hseen | hseen
                · exact absurd hseen hmet
                · cases hseen
            | cons first before =>
              obtain ⟨rfl, hrest⟩ := List.cons.inj hpath
              refine ⟨before, act, after, hrest, hrejects.imp id ?_⟩
              rintro ⟨other, hother, hseen⟩
              refine ⟨other, hother, ?_⟩
              rw [List.filterMap_cons_some hname, List.mem_cons] at hseen
              rw [List.mem_cons]
              tauto

/-- **A chain is returned with every actor of the nested path in front of the principal, each once; a claim is
rejected exactly if an act along the path names no actor or one that is the principal or was named before it.** -/
theorem signed_actor_chain_exact : ∀ (actor : PyValue) (principalId : PyStr) (correlationId : Option PyStr),
    (∀ chain, signedActorChain (some actor) principalId correlationId = .ok chain →
      chain.Nodup ∧ ∃ names : List PyStr, chain = names.reverse ++ [principalId] ∧
        (actor :: actPath actor).map actorId = names.map some) ∧
    ∀ e, signedActorChain (some actor) principalId correlationId = .error e ↔ e = actorRejected correlationId ∧
      ∃ before act after, actor :: actPath actor = before ++ act :: after ∧ (actorId act = none ∨
        ∃ name, actorId act = some name ∧ (name = principalId ∨ name ∈ before.filterMap actorId)) := by
  intro actor principalId correlationId
  have hact : actOf (.mapping [(.str (py "act"), actor)]) = some actor := by
    rw [actOf, Dict.find, if_pos rfl]
  have hpath := actPath_some hact
  refine ⟨fun chain h => ?_, fun e => ?_⟩
  · obtain ⟨hnodup, names, hchain, hnames⟩ := walkActors_eq_ok (List.nodup_singleton principalId) h
    rw [hpath] at hnames
    exact ⟨hnodup, names, hchain, hnames⟩
  · have hwalk : walkActors (actorRejected correlationId) (.mapping [(.str (py "act"), actor)]) [principalId] = .error e ↔ _ :=
      walkActors_eq_error
    rw [hpath] at hwalk
    simp only [Rejects, List.mem_singleton] at hwalk
    exact hwalk

end OcorRuntime.Security
