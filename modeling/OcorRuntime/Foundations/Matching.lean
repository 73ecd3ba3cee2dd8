import Mathlib.Data.Finset.Card
import OcorRuntime.Foundations.Dict

/-! Assigning to each role a candidate of its own by augmenting paths. A role takes a free
candidate, or one whose holder can be moved to another; a candidate is looked at once in a
search. A search that fails has seen a set of candidates that are all taken, by roles with no
candidate outside it: there is one role too many for them, and no assignment at all. -/
namespace OcorRuntime.Matching
set_option autoImplicit false
set_option maxHeartbeats 250000

variable {ρ π : Type} [DecidableEq π]

/-! ## The search -/

/-- The candidates looked at, and the roles they hold. -/
structure Search (ρ π : Type) where
  visited : Finset π
  held : Dict π ρ

namespace Search

def visit (s : Search ρ π) (p : π) : Search ρ π := { s with visited := insert p s.visited }

def give (s : Search ρ π) (p : π) (r : ρ) : Search ρ π := { s with held := s.held.set p r }

@[simp] theorem held_visit (s : Search ρ π) (p : π) : (s.visit p).held = s.held := rfl
@[simp] theorem visited_visit (s : Search ρ π) (p : π) : (s.visit p).visited = insert p s.visited := rfl
@[simp] theorem held_give (s : Search ρ π) (p : π) (r : ρ) : (s.give p r).held = s.held.set p r := rfl
@[simp] theorem visited_give (s : Search ρ π) (p : π) (r : ρ) : (s.give p r).visited = s.visited := rfl

end Search

/-- The loop over the candidates of a role; `descend` looks for another candidate for a holder. -/
def firstCandidate (descend : ρ → Search ρ π → Bool × Search ρ π) (role : ρ) :
    List π → Search ρ π → Bool × Search ρ π
  | [], s => (false, s)
  | p :: rest, s =>
    if p ∈ s.visited then firstCandidate descend role rest s
    else
      match s.held.get? p with
      | none => (true, (s.visit p).give p role)
      | some previous =>
        match descend previous (s.visit p) with
        | (true, found) => (true, found.give p role)
        | (false, failed) => firstCandidate descend role rest failed

section Assign
variable (candidates : ρ → List π)

/-- The search for a candidate of a role, of bounded depth; a depth greater than the number of candidates not
looked at yet is no bound (`assign_spec`). -/
def assign : ℕ → ρ → Search ρ π → Bool × Search ρ π
  | 0, _, s => (false, s)
  | depth + 1, role, s => firstCandidate (assign depth) role (candidates role) s

/-- One search after the other, each from no candidate looked at. -/
def assignAll (depth : ℕ) (roles : List ρ) : Dict π ρ :=
  roles.foldl (fun held role => (assign candidates depth role ⟨∅, held⟩).2.held) .empty

end Assign

/-! ## Assignments -/

/-- No role is held twice, and every role by one of its candidates. -/
structure Valid (candidates : ρ → List π) (held : Dict π ρ) : Prop where
  candidate : ∀ p r, held.get? p = some r → p ∈ candidates r
  single : ∀ p q r, held.get? p = some r → held.get? q = some r → p = q

/-- What a search that finds a candidate does. The holder of `role` it starts from, if any, was looked at before. -/
structure Found (candidates : ρ → List π) (role : ρ) (s s' : Search ρ π) : Prop where
  visited : s.visited ⊆ s'.visited
  kept : ∀ p ∈ s.visited, s'.held.get? p = s.held.get? p
  candidate : ∀ p r, s'.held.get? p = some r → p ∈ candidates r
  covered : ∀ p r, s.held.get? p = some r → ∃ q, s'.held.get? q = some r
  placed : ∃ q, q ∉ s.visited ∧ s'.held.get? q = some role
  single : ∀ p q r, s'.held.get? p = some r → s'.held.get? q = some r → p = q ∨ r = role ∧ (p ∈ s.visited ∨ q ∈ s.visited)
  moved : ∀ p r, s'.held.get? p = some r → s.held.get? p = some r ∨ r = role ∨
    ∃ q, q ∉ s.visited ∧ s.held.get? q = some r

/-- What a search that finds none has seen. -/
structure Failed (candidates : ρ → List π) (todo : List π) (s s' : Search ρ π) : Prop where
  held : s'.held = s.held
  visited : s.visited ⊆ s'.visited
  seen : ∀ p ∈ todo, p ∈ s'.visited
  closed : ∀ p ∈ s'.visited, p ∉ s.visited → ∃ r, s.held.get? p = some r ∧ ∀ q ∈ candidates r, q ∈ s'.visited

/-- The two ends of a search. -/
def Outcome (candidates : ρ → List π) (role : ρ) (todo : List π) (s : Search ρ π) (result : Bool × Search ρ π) : Prop :=
  if result.1 then Found candidates role s result.2 else Failed candidates todo s result.2

/-- What a search starts from. -/
structure Ready (candidates : ρ → List π) (role : ρ) (s : Search ρ π) : Prop where
  valid : Valid candidates s.held
  holder : ∀ p, s.held.get? p = some role → p ∈ s.visited

section Steps
variable {candidates : ρ → List π} {role previous : ρ} {s s' : Search ρ π} {p : π} {rest : List π}

theorem Ready.descend (h : Ready candidates role s) (hp : s.held.get? p = some previous) :
    Ready candidates previous (s.visit p) where
  valid := h.valid
  holder q hq := by
    rw [h.valid.single q p previous hq hp]
    exact Finset.mem_insert_self p s.visited

theorem Found.free (h : Ready candidates role s) (hc : p ∈ candidates role) (hnew : p ∉ s.visited)
    (hp : s.held.get? p = none) : Found candidates role s ((s.visit p).give p role) where
  visited := Finset.subset_insert p s.visited
  kept q hq := by
    have hne : p ≠ q := fun heq => hnew (heq ▸ hq)
    simp [Dict.get?_set, hne]
  candidate q r hq := by
    rw [Search.held_give, Search.held_visit, Dict.get?_set] at hq
    split_ifs at hq with heq
    · cases hq
      exact heq ▸ hc
    · exact h.valid.candidate q r hq
  covered q r hq := by
    refine ⟨q, ?_⟩
    rw [Search.held_give, Search.held_visit, Dict.get?_set, if_neg]
    · exact hq
    · rintro rfl
      rw [hp] at hq
      cases hq
  placed := ⟨p, hnew, by simp⟩
  single a b r ha hb := by
    rw [Search.held_give, Search.held_visit, Dict.get?_set] at ha hb
    split_ifs at ha hb with hpa hpb hpb
    · exact .inl (hpa.symm.trans hpb)
    · cases ha
      exact .inr ⟨rfl, .inr (h.holder b hb)⟩
    · cases hb
      exact .inr ⟨rfl, .inl (h.holder a ha)⟩
    · exact .inl (h.valid.single a b r ha hb)
  moved a r ha := by
    rw [Search.held_give, Search.held_visit, Dict.get?_set] at ha
    split_ifs at ha
    · cases ha
      exact .inr (.inl rfl)
    · exact .inl ha

theorem Found.displace (h : Ready candidates role s) (hc : p ∈ candidates role) (hnew : p ∉ s.visited)
    (hp : s.held.get? p = some previous) (hfound : Found candidates previous (s.visit p) s') :
    Found candidates role s (s'.give p role) := by
  have hseen : ∀ {q}, q ∈ s.visited → q ∈ (s.visit p).visited := fun hq => Finset.mem_insert_of_mem hq
  have hunseen : ∀ {q}, q ∉ (s.visit p).visited → q ∉ s.visited := fun hq hmem => hq (hseen hmem)
  have hpkept : s'.held.get? p = some previous := by
    rw [hfound.kept p (Finset.mem_insert_self p s.visited)]
    exact hp
  have hroles : role ≠ previous := by
    rintro rfl
    exact hnew (h.holder p hp)
  -- nobody but a candidate looked at before holds the role
  have hrole : ∀ q, s'.held.get? q = some role → q ∈ s.visited := by
    intro q hq
    rcases hfound.moved q role hq with hold | hprev | ⟨c, hc, hold⟩
    · exact h.holder q hold
    · exact absurd hprev hroles
    · exact absurd (hseen (h.holder c hold)) hc
  constructor
  case visited => exact (Finset.subset_insert p s.visited).trans hfound.visited
  case kept =>
    intro q hq
    have hne : p ≠ q := fun heq => hnew (heq ▸ hq)
    rw [Search.held_give, Dict.get?_set, if_neg hne, hfound.kept q (hseen hq)]
    rfl
  case candidate =>
    intro q r hq
    rw [Search.held_give, Dict.get?_set] at hq
    split_ifs at hq with heq
    · cases hq
      exact heq ▸ hc
    · exact hfound.candidate q r hq
  case covered =>
    intro q r hq
    obtain ⟨c, hc⟩ := hfound.covered q r hq
    by_cases hcp : p = c
    · subst hcp
      obtain ⟨d, hd, hdrole⟩ := hfound.placed
      have hr : r = previous := Option.some.inj (hc.symm.trans hpkept)
      have hne : p ≠ d := fun heq => hd (heq ▸ Finset.mem_insert_self p s.visited)
      exact ⟨d, by rw [Search.held_give, Dict.get?_set, if_neg hne, hr, hdrole]⟩
    · exact ⟨c, by rw [Search.held_give, Dict.get?_set, if_neg hcp, hc]⟩
  case placed => exact ⟨p, hnew, by simp⟩
  case single =>
    intro a b r ha hb
    rw [Search.held_give, Dict.get?_set] at ha hb
    split_ifs at ha hb with hpa hpb hpb
    · exact .inl (hpa.symm.trans hpb)
    · cases ha
      exact .inr ⟨rfl, .inr (hrole b hb)⟩
    · cases hb
      exact .inr ⟨rfl, .inl (hrole a ha)⟩
    · rcases hfound.single a b r ha hb with heq | ⟨rfl, hvisited⟩
      · exact .inl heq
      · -- whoever held `previous` before is `p`
        exfalso
        have hback : ∀ {q}, q ∈ (s.visit p).visited → p ≠ q → s'.held.get? q = some r → False := by
          intro q hq hne hheld
          rw [hfound.kept q hq] at hheld
          exact hne (h.valid.single p q r hp hheld)
        rcases hvisited with hvisited | hvisited
        · exact hback hvisited hpa ha
        · exact hback hvisited hpb hb
  case moved =>
    intro a r ha
    rw [Search.held_give, Dict.get?_set] at ha
    split_ifs at ha
    · cases ha
      exact .inr (.inl rfl)
    · rcases hfound.moved a r ha with hold | rfl | ⟨c, hc, hold⟩
      · exact .inl hold
      · exact .inr (.inr ⟨p, hnew, hp⟩)
      · exact .inr (.inr ⟨c, hunseen hc, hold⟩)

theorem Failed.ready (h : Ready candidates role s) {todo : List π} (hfailed : Failed candidates todo (s.visit p) s') :
    Ready candidates role s' where
  valid := by
    rw [hfailed.held]
    exact h.valid
  holder q hq := by
    rw [hfailed.held] at hq
    exact hfailed.visited (Finset.mem_insert_of_mem (h.holder q hq))

theorem Found.widen (h : Ready candidates role s) {t : Search ρ π} (hheld : s'.held = s.held)
    (hvisited : s.visited ⊆ s'.visited) (hfound : Found candidates role s' t) : Found candidates role s t where
  visited := hvisited.trans hfound.visited
  kept q hq := by
    rw [hfound.kept q (hvisited hq), hheld]
  candidate := hfound.candidate
  covered q r hq := hfound.covered q r (by rw [hheld]; exact hq)
  placed := by
    obtain ⟨q, hq, hplaced⟩ := hfound.placed
    exact ⟨q, fun hmem => hq (hvisited hmem), hplaced⟩
  single a b r ha hb := by
    rcases hfound.single a b r ha hb with heq | ⟨rfl, hmem⟩
    · exact .inl heq
    · -- a holder among the candidates seen held the role all along
      have hback : ∀ {q}, q ∈ s'.visited → t.held.get? q = some r → q ∈ s.visited := by
        intro q hq hq'
        rw [hfound.kept q hq, hheld] at hq'
        exact h.holder q hq'
      exact .inr ⟨rfl, hmem.imp (fun hmem => hback hmem ha) fun hmem => hback hmem hb⟩
  moved a r ha := by
    rcases hfound.moved a r ha with hold | hr | ⟨c, hc, hold⟩
    · exact .inl (hheld ▸ hold)
    · exact .inr (.inl hr)
    · exact .inr (.inr ⟨c, fun hmem => hc (hvisited hmem), hheld ▸ hold⟩)

theorem Failed.cons_visited (hseen : p ∈ s.visited) {t : Search ρ π} (h : Failed candidates rest s t) :
    Failed candidates (p :: rest) s t where
  held := h.held
  visited := h.visited
  seen q hq := by
    rcases List.mem_cons.mp hq with rfl | hq
    · exact h.visited hseen
    · exact h.seen q hq
  closed := h.closed

theorem Failed.cons_taken (hp : s.held.get? p = some previous)
    (hfailed : Failed candidates (candidates previous) (s.visit p) s') {t : Search ρ π} (h : Failed candidates rest s' t) :
    Failed candidates (p :: rest) s t where
  held := h.held.trans hfailed.held
  visited := (Finset.subset_insert p s.visited).trans (hfailed.visited.trans h.visited)
  seen q hq := by
    rcases List.mem_cons.mp hq with rfl | hq
    · exact h.visited (hfailed.visited (Finset.mem_insert_self q s.visited))
    · exact h.seen q hq
  closed q hq hnew := by
    by_cases hfirst : q ∈ s'.visited
    · by_cases hqp : q = p
      · subst hqp
        exact ⟨previous, hp, fun c hc => h.visited (hfailed.seen c hc)⟩
      · obtain ⟨r, hr, hall⟩ := hfailed.closed q hfirst (by simp [hqp, hnew])
        exact ⟨r, hr, fun c hc => h.visited (hall c hc)⟩
    · obtain ⟨r, hr, hall⟩ := h.closed q hq hfirst
      refine ⟨r, ?_, hall⟩
      rw [hfailed.held] at hr
      exact hr

end Steps

/-! ## One search -/

section Search
variable {candidates : ρ → List π} {all : Finset π}

theorem firstCandidate_spec {descend : ρ → Search ρ π → Bool × Search ρ π} {depth : ℕ}
    (hdescend : ∀ previous s, Ready candidates previous s → (all \ s.visited).card < depth →
      Outcome candidates previous (candidates previous) s (descend previous s))
    {role : ρ} (todo : List π) {s : Search ρ π} (hready : Ready candidates role s)
    (htodo : ∀ p ∈ todo, p ∈ candidates role ∧ p ∈ all) (hdepth : (all \ s.visited).card < depth + 1) :
    Outcome candidates role todo s (firstCandidate descend role todo s) := by
  induction todo generalizing s with
  | nil =>
    exact ⟨rfl, Finset.Subset.refl _, fun p hp => absurd hp List.not_mem_nil, fun p hp hnew => absurd hp hnew⟩
  | cons p rest ih =>
    obtain ⟨hp, hrest⟩ := List.forall_mem_cons.mp htodo
    rw [firstCandidate]
    split_ifs with hseen
    · have hout := ih hready hrest hdepth
      unfold Outcome at hout ⊢
      split_ifs at hout ⊢ with hresult
      · exact hout
      · exact hout.cons_visited hseen
    · cases hheld : s.held.get? p with
      | none => exact Found.free hready hp.1 hseen hheld
      | some previous =>
        have hsmaller : (all \ (s.visit p).visited).card < depth := by
          have hlt : (all \ (s.visit p).visited).card < (all \ s.visited).card := by
            apply Finset.card_lt_card
            refine Finset.ssubset_iff_of_subset (Finset.sdiff_subset_sdiff (Finset.Subset.refl _)
              (Finset.subset_insert p s.visited)) |>.mpr ⟨p, by simp [hp.2, hseen], by simp⟩
          omega
        have hout := hdescend previous (s.visit p) (hready.descend hheld) hsmaller
        dsimp only
        rcases hrun : descend previous (s.visit p) with ⟨found, s'⟩
        rw [hrun] at hout
        cases found with
        | true => exact Found.displace hready hp.1 hseen hheld hout
        | false =>
          have hfailed : Failed candidates (candidates previous) (s.visit p) s' := hout
          have hvisited : s.visited ⊆ s'.visited := (Finset.subset_insert p s.visited).trans hfailed.visited
          have hcard : (all \ s'.visited).card < depth + 1 :=
            lt_of_le_of_lt (Finset.card_le_card (Finset.sdiff_subset_sdiff (Finset.Subset.refl _) hvisited)) hdepth
          have hnext := ih (Failed.ready hready hfailed) hrest hcard
          unfold Outcome at hnext ⊢
          dsimp only
          split_ifs at hnext ⊢ with hresult
          · exact hnext.widen hready hfailed.held hvisited
          · exact Failed.cons_taken hheld hfailed hnext

theorem assign_spec (hall : ∀ r, ∀ p ∈ candidates r, p ∈ all) (depth : ℕ) {role : ρ} {s : Search ρ π}
    (hready : Ready candidates role s) (hdepth : (all \ s.visited).card < depth) :
    Outcome candidates role (candidates role) s (assign candidates depth role s) := by
  induction depth generalizing role s with
  | zero => omega
  | succ depth ih =>
    rw [assign]
    refine firstCandidate_spec (fun previous t hready' hlt => ih hready' hlt) (candidates role) hready
      (fun p hp => ⟨hp, hall role p hp⟩) hdepth

end Search

/-! ## All roles -/

section All
variable {candidates : ρ → List π} {all : Finset π}

def Covers (held : Dict π ρ) (r : ρ) : Prop := ∃ p, held.get? p = some r

/-- A candidate of its own for each of the roles. -/
def Assignable (candidates : ρ → List π) (roles : List ρ) : Prop :=
  ∃ f : ρ → π, (∀ r ∈ roles, f r ∈ candidates r) ∧ ∀ a ∈ roles, ∀ b ∈ roles, f a = f b → a = b

/-- The candidates a failed search has seen are too few for the roles they hold and one more. -/
theorem Failed.not_assignable {roles : List ρ} {role : ρ} {held : Dict π ρ} {s : Search ρ π}
    (hfailed : Failed candidates (candidates role) ⟨∅, held⟩ s) (hvalid : Valid candidates held)
    (hheld : ∀ r, Covers held r → r ∈ roles) (hrole : role ∈ roles) (hfree : ¬ Covers held role) :
    ¬ Assignable candidates roles := by
  rintro ⟨f, hcandidate, hsingle⟩
  have hrole_of : ∀ p ∈ s.visited, ∃ r, held.get? p = some r ∧ ∀ q ∈ candidates r, q ∈ s.visited :=
    fun p hp => hfailed.closed p hp (Finset.notMem_empty p)
  -- the candidate a role held in the set would get instead
  have hmaps : ∀ p ∈ s.visited, ∀ r, held.get? p = some r → f r ∈ s.visited := by
    intro p hp r hr
    obtain ⟨r', hr', hall⟩ := hrole_of p hp
    cases hr.symm.trans hr'
    exact hall (f r) (hcandidate r (hheld r ⟨p, hr⟩))
  let next : π → π := fun p => ((held.get? p).map f).getD p
  have hnext : ∀ p ∈ s.visited, next p ∈ s.visited := by
    intro p hp
    obtain ⟨r, hr, -⟩ := hrole_of p hp
    simpa [next, hr] using hmaps p hp r hr
  have hinj : Set.InjOn next s.visited := by
    intro p hp q hq heq
    obtain ⟨r, hr, -⟩ := hrole_of p hp
    obtain ⟨t, ht, -⟩ := hrole_of q hq
    have hrt : f r = f t := by simpa [next, hr, ht] using heq
    have := hsingle r (hheld r ⟨p, hr⟩) t (hheld t ⟨q, ht⟩) hrt
    subst this
    exact hvalid.single p q r hr ht
  -- an injection of the finite set into itself hits the candidate of the role in question
  have himage : s.visited.image next = s.visited := by
    refine Finset.eq_of_subset_of_card_le (Finset.image_subset_iff.mpr hnext) ?_
    rw [Finset.card_image_of_injOn hinj]
  have hmem : f role ∈ s.visited := hfailed.seen (f role) (hcandidate role hrole)
  rw [← himage] at hmem
  obtain ⟨p, hp, hpf⟩ := Finset.mem_image.mp hmem
  obtain ⟨r, hr, -⟩ := hrole_of p hp
  have hfr : f r = f role := by simpa [next, hr] using hpf
  have := hsingle r (hheld r ⟨p, hr⟩) role hrole hfr
  subst this
  exact hfree ⟨p, hr⟩

/-- What holds between two searches. -/
structure Progress (candidates : ρ → List π) (done : List ρ) (held : Dict π ρ) : Prop where
  valid : Valid candidates held
  within : ∀ r, Covers held r → r ∈ done

theorem Progress.ready {done : List ρ} {held : Dict π ρ} (h : Progress candidates done held) {role : ρ}
    (hnew : role ∉ done) : Ready candidates role ⟨∅, held⟩ :=
  ⟨h.valid, fun p hp => absurd (h.within role ⟨p, hp⟩) hnew⟩

theorem Found.progress {done : List ρ} {held : Dict π ρ} (h : Progress candidates done held) {role : ρ}
    {s : Search ρ π} (hfound : Found candidates role ⟨∅, held⟩ s) : Progress candidates (done ++ [role]) s.held where
  valid := by
    refine ⟨hfound.candidate, fun p q r hp hq => ?_⟩
    rcases hfound.single p q r hp hq with heq | ⟨-, hmem | hmem⟩
    · exact heq
    · exact absurd hmem (Finset.notMem_empty p)
    · exact absurd hmem (Finset.notMem_empty q)
  within r hr := by
    obtain ⟨p, hp⟩ := hr
    rcases hfound.moved p r hp with hold | rfl | ⟨q, -, hold⟩
    · exact List.mem_append_left _ (h.within r ⟨p, hold⟩)
    · exact List.mem_append_right _ (List.mem_singleton_self r)
    · exact List.mem_append_left _ (h.within r ⟨q, hold⟩)

theorem Progress.step {done : List ρ} {held : Dict π ρ} (h : Progress candidates done held)
    (hall : ∀ r, ∀ p ∈ candidates r, p ∈ all) {depth : ℕ} (hdepth : all.card < depth) {role : ρ} (hnew : role ∉ done) :
    Progress candidates (done ++ [role]) (assign candidates depth role ⟨∅, held⟩).2.held ∧
      ∀ roles, (∀ r ∈ done, r ∈ roles) → role ∈ roles → Assignable candidates roles →
        (∀ r, Covers held r → Covers (assign candidates depth role ⟨∅, held⟩).2.held r) ∧
          Covers (assign candidates depth role ⟨∅, held⟩).2.held role := by
  have hout := assign_spec hall depth (h.ready hnew) (by simpa using hdepth)
  rcases hrun : assign candidates depth role ⟨∅, held⟩ with ⟨found, s⟩
  rw [hrun] at hout
  cases found with
  | true =>
    have hfound : Found candidates role ⟨∅, held⟩ s := hout
    refine ⟨hfound.progress h, fun roles _ _ _ => ⟨fun r hr => ?_, ?_⟩⟩
    · obtain ⟨p, hp⟩ := hr
      exact hfound.covered p r hp
    · obtain ⟨q, -, hq⟩ := hfound.placed
      exact ⟨q, hq⟩
  | false =>
    have hfailed : Failed candidates (candidates role) ⟨∅, held⟩ s := hout
    have hsame : s.held = held := hfailed.held
    refine ⟨⟨by rw [hsame]; exact h.valid, fun r hr => ?_⟩, fun roles hdone hrole hassign => ?_⟩
    · rw [hsame] at hr
      exact List.mem_append_left _ (h.within r hr)
    · refine absurd hassign (hfailed.not_assignable h.valid (fun r hr => hdone r (h.within r hr)) hrole ?_)
      exact fun hcovered => hnew (h.within role hcovered)

theorem Progress.run {done : List ρ} {held : Dict π ρ} (h : Progress candidates done held)
    (hall : ∀ r, ∀ p ∈ candidates r, p ∈ all) {depth : ℕ} (hdepth : all.card < depth) (todo : List ρ)
    (hnodup : (done ++ todo).Nodup) :
    Progress candidates (done ++ todo)
        (todo.foldl (fun held role => (assign candidates depth role ⟨∅, held⟩).2.held) held) ∧
      (Assignable candidates (done ++ todo) → (∀ r ∈ done, Covers held r) → ∀ r ∈ done ++ todo,
        Covers (todo.foldl (fun held role => (assign candidates depth role ⟨∅, held⟩).2.held) held) r) := by
  induction todo generalizing done held with
  | nil =>
    rw [List.append_nil]
    exact ⟨h, fun _ hcovered => hcovered⟩
  | cons role todo ih =>
    have hnew : role ∉ done := fun hmem => (List.nodup_append.mp hnodup).2.2 role hmem role List.mem_cons_self rfl
    obtain ⟨hprogress, hstep⟩ := h.step hall hdepth hnew
    have hshift : done ++ role :: todo = (done ++ [role]) ++ todo := by
      rw [List.append_assoc, List.singleton_append]
    rw [List.foldl_cons, hshift]
    rw [hshift] at hnodup
    obtain ⟨hrun, hcovers⟩ := ih hprogress hnodup
    refine ⟨hrun, fun hassign hcovered => hcovers hassign ?_⟩
    obtain ⟨hkept, hplaced⟩ := hstep _ (fun r hr => List.mem_append_left _ (List.mem_append_left _ hr))
      (List.mem_append_left _ (List.mem_append_right _ (List.mem_singleton_self role))) hassign
    intro r hr
    rcases List.mem_append.mp hr with hr | hr
    · exact hkept r (hcovered r hr)
    · rw [List.mem_singleton.mp hr]
      exact hplaced

/-- **The searches cover every role exactly when each can have a candidate of its own.** -/
theorem assignAll_covers [Nonempty π] (hall : ∀ r, ∀ p ∈ candidates r, p ∈ all) {depth : ℕ} (hdepth : all.card < depth)
    {roles : List ρ} (hnodup : roles.Nodup) :
    (∀ r ∈ roles, Covers (assignAll candidates depth roles) r) ↔ Assignable candidates roles := by
  have hempty : Progress candidates [] (Dict.empty : Dict π ρ) :=
    ⟨⟨fun p r h => by simp at h, fun p q r h => by simp at h⟩, fun r ⟨p, h⟩ => by simp at h⟩
  obtain ⟨hprogress, hcovers⟩ := hempty.run hall hdepth roles (by simpa using hnodup)
  constructor
  · intro hcovered
    choose! f hf using hcovered
    refine ⟨f, fun r hr => hprogress.valid.candidate (f r) r (hf r hr), fun a ha b hb hab => ?_⟩
    have hheld := hf a ha
    rw [hab] at hheld
    exact Option.some.inj (hheld.symm.trans (hf b hb))
  · intro hassign r hr
    exact hcovers (by simpa using hassign) (fun r hr => absurd hr List.not_mem_nil) r (by simpa using hr)

end All
end OcorRuntime.Matching
