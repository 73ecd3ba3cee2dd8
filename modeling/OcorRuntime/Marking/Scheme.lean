import OcorRuntime.Base.Errors
import OcorRuntime.Foundations.FiniteOrder
import OcorRuntime.Foundations.Saturation

/-! Marking schemes (`c4_marking.py`): a finite set of labels whose order is the
closure of the given pairs, validated to be a lattice. A scheme carries what its
constructor validated, and `join_eq` is the one fact the engine needs: joining known
labels never raises and returns their least upper bound. -/
namespace OcorRuntime.Marking
open Saturation FiniteOrder
set_option autoImplicit false
set_option maxHeartbeats 250000

def markingError (message : String) (args : List ErrorArg) : PyError := ⟨.markingError, message, args⟩

/-! ## The order of a scheme -/

def upperBounds (labels : List PyStr) (closure : Dict PyStr (Finset PyStr)) (given : List PyStr) : List PyStr :=
  labels.filter fun c => given.all fun l => decide (c ∈ row closure l)

def lowerBounds (labels : List PyStr) (closure : Dict PyStr (Finset PyStr)) (given : List PyStr) : List PyStr :=
  labels.filter fun c => given.all fun l => decide (l ∈ row closure c)

def minimal (closure : Dict PyStr (Finset PyStr)) (candidates : List PyStr) : List PyStr :=
  extremal (fun other c => decide (c ∈ row closure other)) candidates

def maximal (closure : Dict PyStr (Finset PyStr)) (candidates : List PyStr) : List PyStr :=
  extremal (fun other c => decide (other ∈ row closure c)) candidates

/-- What the constructor of a scheme validates. -/
structure IsMarkingLattice (labels : List PyStr) (closure : Dict PyStr (Finset PyStr)) (bottom top : PyStr) : Prop where
  nodup : labels.Nodup
  known : ∀ l, (closure.get? l).isSome = true ↔ l ∈ labels
  within : Within labels closure
  refl : ∀ l ∈ labels, l ∈ row closure l
  trans : Closed labels closure
  antisymm : ∀ a ∈ labels, ∀ b ∈ labels, b ∈ row closure a → a ∈ row closure b → a = b
  bottom_least : bottom ∈ labels ∧ ∀ l ∈ labels, l ∈ row closure bottom
  top_greatest : top ∈ labels ∧ ∀ l ∈ labels, top ∈ row closure l
  joins : ∀ a ∈ labels, ∀ b ∈ labels, (minimal closure (upperBounds labels closure [a, b])).length = 1
  meets : ∀ a ∈ labels, ∀ b ∈ labels, (maximal closure (lowerBounds labels closure [a, b])).length = 1

structure MarkingSchemeDefinition where
  schemeId : PyStr
  labels : List PyStr
  relations : Finset (PyStr × PyStr)
  bottom : PyStr
  top : PyStr
  closure : Dict PyStr (Finset PyStr)
  lattice : IsMarkingLattice labels closure bottom top

/-! ## The constructor -/

/-- An element of the `relations` argument. -/
inductive RelationArg
  | sequence (items : List PyStr)
  /-- A string or anything else that is not a sequence of labels. -/
  | other (typeName : String)

/-- The validated pairs of the `relations` argument. -/
def relationPairs (members : List PyStr) : List RelationArg → Except PyError (List (PyStr × PyStr))
  | [] => .ok []
  | .sequence [lower, upper] :: rest =>
    if lower ∈ members ∧ upper ∈ members then do
      let pairs ← relationPairs members rest
      return (lower, upper) :: pairs
    else .error (markingError "relation references an unknown label: %r" [.text lower, .text upper])
  | .sequence _ :: _ => .error (markingError "relations must be (lower, upper) tuples" [])
  | .other _ :: _ => .error (markingError "relations must be (lower, upper) tuples" [])

def addEdge (table : Dict PyStr (Finset PyStr)) (edge : PyStr × PyStr) : Dict PyStr (Finset PyStr) :=
  table.set edge.1 (insert edge.2 (row table edge.1))

def initialTable (members : List PyStr) : Dict PyStr (Finset PyStr) :=
  members.foldl (fun table label => table.set label {label}) .empty

def directTable (members : List PyStr) (direct : List (PyStr × PyStr)) : Dict PyStr (Finset PyStr) :=
  direct.foldl addEdge (initialTable members)

/-- The order table of a scheme; the number of rounds is a bound, not a cut-off (`closureOf_closed`). -/
def closureOf (members : List PyStr) (direct : List (PyStr × PyStr)) : Dict PyStr (Finset PyStr) :=
  saturate members (members.length * members.length + 1) (directTable members direct)

/-! ## The table is an order on the labels -/

theorem keys_set {table : Dict PyStr (Finset PyStr)} {k : PyStr} (r : Finset PyStr) (hk : k ∈ table.keys) :
    (table.set k r).keys = table.keys := by
  unfold Dict.keys Dict.set
  rw [Dict.put_keys]
  exact if_pos hk

/-- What holds of the table while it is built: its keys are the labels, rows stay within and contain their label. -/
structure Table (members : List PyStr) (table : Dict PyStr (Finset PyStr)) : Prop where
  keys : ∀ k, k ∈ table.keys ↔ k ∈ members
  within : Within members table
  refl : ∀ l ∈ members, l ∈ row table l

theorem get?_foldl_singleton (members : List PyStr) (table : Dict PyStr (Finset PyStr)) (k : PyStr) :
    (members.foldl (fun table label => table.set label {label}) table).get? k =
      if k ∈ members then some {k} else table.get? k := by
  induction members generalizing table with
  | nil => simp
  | cons m members ih =>
    rw [List.foldl_cons, ih, Dict.get?_set]
    by_cases hk : k ∈ members
    · simp [hk]
    · by_cases hm : m = k
      · simp [hk, hm]
      · simp [hk, hm, Ne.symm hm]

theorem table_initial (members : List PyStr) : Table members (initialTable members) := by
  have hget : ∀ k, (initialTable members).get? k = if k ∈ members then some {k} else none :=
    get?_foldl_singleton members .empty
  have hrow : ∀ k, row (initialTable members) k = if k ∈ members then {k} else ∅ := by
    intro k
    unfold row
    rw [hget]
    split_ifs <;> rfl
  constructor
  · intro k
    rw [Dict.mem_keys_iff, hget]
    split_ifs with h <;> simp [h]
  · intro k x hx
    rw [hrow] at hx
    split_ifs at hx with h
    · rw [Finset.mem_singleton.mp hx]
      exact h
    · exact absurd hx (Finset.notMem_empty x)
  · intro l hl
    rw [hrow, if_pos hl]
    exact Finset.mem_singleton_self l

theorem table_addEdge {members : List PyStr} {table : Dict PyStr (Finset PyStr)} (h : Table members table)
    {edge : PyStr × PyStr} (he : edge.1 ∈ members ∧ edge.2 ∈ members) : Table members (addEdge table edge) := by
  have hrow : ∀ k, row (addEdge table edge) k = if edge.1 = k then insert edge.2 (row table k) else row table k := by
    intro k
    rw [addEdge, row_set]
    split_ifs with hk
    · rw [hk]
    · rfl
  constructor
  · intro k
    rw [addEdge, keys_set _ ((h.keys edge.1).mpr he.1)]
    exact h.keys k
  · intro k x hx
    rw [hrow] at hx
    split_ifs at hx
    · rcases Finset.mem_insert.mp hx with rfl | hx
      · exact he.2
      · exact h.within k x hx
    · exact h.within k x hx
  · intro l hl
    rw [hrow]
    split_ifs
    · exact Finset.mem_insert_of_mem (h.refl l hl)
    · exact h.refl l hl

theorem table_direct (members : List PyStr) (direct : List (PyStr × PyStr))
    (hd : ∀ edge ∈ direct, edge.1 ∈ members ∧ edge.2 ∈ members) : Table members (directTable members direct) := by
  unfold directTable
  have hstart := table_initial members
  revert hstart
  generalize initialTable members = table
  induction direct generalizing table with
  | nil => exact fun h => h
  | cons edge direct ih =>
    intro h
    exact ih (fun e he => hd e (List.mem_cons_of_mem edge he)) _ (table_addEdge h (hd edge (List.mem_cons_self ..)))

theorem table_closureOf (members : List PyStr) (direct : List (PyStr × PyStr))
    (hd : ∀ edge ∈ direct, edge.1 ∈ members ∧ edge.2 ∈ members) : Table members (closureOf members direct) := by
  refine saturate_induction (fun table h => ?_) _ _ (table_direct members direct hd)
  refine ⟨fun k => ?_, pass_within members table false h.within, fun l hl => ?_⟩
  · rw [pass_keys members table false fun k hk => (h.keys k).mpr hk]
    exact h.keys k
  · exact pass_subset members table false l (h.refl l hl)

theorem closureOf_closed (members : List PyStr) (direct : List (PyStr × PyStr))
    (hd : ∀ edge ∈ direct, edge.1 ∈ members ∧ edge.2 ∈ members) : Closed members (closureOf members direct) := by
  refine saturate_closed _ _ (table_direct members direct hd).within ?_
  have hcard : members.toFinset.card ≤ members.length := List.toFinset_card_le members
  have := Nat.mul_le_mul hcard hcard
  omega

/-! ## Validation -/

def allPairs (members : List PyStr) : List (PyStr × PyStr) :=
  members.flatMap fun left => members.map fun right => (left, right)

def isLatticePair (members : List PyStr) (closure : Dict PyStr (Finset PyStr)) (pair : PyStr × PyStr) : Bool :=
  (minimal closure (upperBounds members closure [pair.1, pair.2])).length == 1 &&
    (maximal closure (lowerBounds members closure [pair.1, pair.2])).length == 1

def antisymmetric (members : List PyStr) (closure : Dict PyStr (Finset PyStr)) : Bool :=
  (allPairs members).all fun pair =>
    decide (pair.1 = pair.2) || !(decide (pair.2 ∈ row closure pair.1) && decide (pair.1 ∈ row closure pair.2))

def bottoms (members : List PyStr) (closure : Dict PyStr (Finset PyStr)) : List PyStr :=
  members.filter fun label => members.all fun other => decide (other ∈ row closure label)

def tops (members : List PyStr) (closure : Dict PyStr (Finset PyStr)) : List PyStr :=
  members.filter fun label => members.all fun other => decide (label ∈ row closure other)

theorem mem_allPairs {members : List PyStr} {a b : PyStr} : (a, b) ∈ allPairs members ↔ a ∈ members ∧ b ∈ members := by
  simp [allPairs]

theorem isMarkingLattice {members : List PyStr} {direct : List (PyStr × PyStr)} (hnd : members.Nodup)
    (hd : ∀ edge ∈ direct, edge.1 ∈ members ∧ edge.2 ∈ members)
    (hanti : antisymmetric members (closureOf members direct) = true) {bottom top : PyStr}
    (hbottom : bottoms members (closureOf members direct) = [bottom])
    (htop : tops members (closureOf members direct) = [top])
    (hpairs : (allPairs members).find? (fun pair => !isLatticePair members (closureOf members direct) pair) = none) :
    IsMarkingLattice members (closureOf members direct) bottom top := by
  have htable := table_closureOf members direct hd
  have hpair : ∀ a ∈ members, ∀ b ∈ members, isLatticePair members (closureOf members direct) (a, b) = true := by
    intro a ha b hb
    have := List.find?_eq_none.mp hpairs (a, b) (mem_allPairs.2 ⟨ha, hb⟩)
    simpa using this
  constructor
  case nodup => exact hnd
  case known =>
    intro l
    rw [← htable.keys l, Dict.mem_keys_iff, Option.isSome_iff_exists]
  case within => exact htable.within
  case refl => exact htable.refl
  case trans => exact closureOf_closed members direct hd
  case antisymm =>
    intro a ha b hb hab hba
    have := List.all_eq_true.mp hanti (a, b) (mem_allPairs.2 ⟨ha, hb⟩)
    simpa [hab, hba] using this
  case bottom_least =>
    have : bottom ∈ bottoms members (closureOf members direct) := by
      rw [hbottom]
      exact List.mem_singleton_self bottom
    obtain ⟨hm, hall⟩ := List.mem_filter.mp this
    exact ⟨hm, by simpa using hall⟩
  case top_greatest =>
    have : top ∈ tops members (closureOf members direct) := by
      rw [htop]
      exact List.mem_singleton_self top
    obtain ⟨hm, hall⟩ := List.mem_filter.mp this
    exact ⟨hm, by simpa using hall⟩
  case joins =>
    intro a ha b hb
    have := hpair a ha b hb
    simp only [isLatticePair, Bool.and_eq_true, beq_iff_eq] at this
    exact this.1
  case meets =>
    intro a ha b hb
    have := hpair a ha b hb
    simp only [isLatticePair, Bool.and_eq_true, beq_iff_eq] at this
    exact this.2

theorem relationPairs_mem {members : List PyStr} : ∀ {args : List RelationArg} {pairs : List (PyStr × PyStr)},
    relationPairs members args = .ok pairs → ∀ edge ∈ pairs, edge.1 ∈ members ∧ edge.2 ∈ members
  | [], pairs, h, edge, he => by
      cases h
      exact absurd he List.not_mem_nil
  | .sequence [lower, upper] :: rest, pairs, h, edge, he => by
      rw [relationPairs] at h
      split_ifs at h with hm
      obtain ⟨tail, ht, h⟩ := bind_eq_ok.1 h
      cases h
      rcases List.mem_cons.mp he with rfl | he
      · exact hm
      · exact relationPairs_mem ht edge he
  | .sequence [] :: _, _, h, _, _ => by simp [relationPairs] at h
  | .sequence [_] :: _, _, h, _, _ => by simp [relationPairs] at h
  | .sequence (_ :: _ :: _ :: _) :: _, _, h, _, _ => by simp [relationPairs] at h
  | .other _ :: _, _, h, _, _ => by simp [relationPairs] at h

/-- The pairs the order is built from: every label with itself, consecutive levels, the given relations. -/
def directPairs (members : List PyStr) (levels : Option (List PyStr)) (pairs : List (PyStr × PyStr)) :
    List (PyStr × PyStr) :=
  members.map (fun label => (label, label)) ++ (levels.map fun ordered => ordered.zip ordered.tail).getD [] ++ pairs

theorem directPairs_mem {members : List PyStr} {levels : Option (List PyStr)} {pairs : List (PyStr × PyStr)}
    (hl : ∀ ordered, levels = some ordered → members = ordered)
    (hp : ∀ edge ∈ pairs, edge.1 ∈ members ∧ edge.2 ∈ members) :
    ∀ edge ∈ directPairs members levels pairs, edge.1 ∈ members ∧ edge.2 ∈ members := by
  intro edge he
  rcases List.mem_append.mp he with he | he
  · rcases List.mem_append.mp he with he | he
    · obtain ⟨l, hl, rfl⟩ := List.mem_map.mp he
      exact ⟨hl, hl⟩
    · cases hlv : levels with
      | none =>
        rw [hlv] at he
        exact absurd he List.not_mem_nil
      | some ordered =>
        rw [hlv] at he
        have := List.of_mem_zip (show edge ∈ ordered.zip ordered.tail from he)
        rw [hl ordered hlv]
        exact ⟨this.1, List.mem_of_mem_tail this.2⟩
  · exact hp edge he

namespace MarkingSchemeDefinition

/-- The checks of the constructor once its labels and pairs are known. -/
def validated (schemeId : PyStr) (members : List PyStr) (direct : List (PyStr × PyStr)) (hnd : members.Nodup)
    (hd : ∀ edge ∈ direct, edge.1 ∈ members ∧ edge.2 ∈ members) : Except PyError MarkingSchemeDefinition :=
  if hanti : antisymmetric members (closureOf members direct) = true then
    match hb : bottoms members (closureOf members direct), ht : tops members (closureOf members direct) with
    | [bottom], [top] =>
      match hp : (allPairs members).find? fun pair => !isLatticePair members (closureOf members direct) pair with
      | some (left, right) =>
        .error (markingError "labels %r and %r do not form a lattice pair" [.text left, .text right])
      | none =>
        .ok ⟨schemeId, members, direct.toFinset, bottom, top, closureOf members direct,
          isMarkingLattice hnd hd hanti hb ht hp⟩
    | _, _ => .error (markingError "marking definition must have unique bottom and top labels" [])
  else .error (markingError "marking order must be antisymmetric" [])

/-- `MarkingSchemeDefinition(scheme_id, levels, labels=..., relations=...)`. -/
def create (schemeId : PyStr) (levels labels : Option (List PyStr)) (relations : List RelationArg) :
    Except PyError MarkingSchemeDefinition :=
  if schemeId.all isSpace then .error (markingError "scheme_id must be a non-empty string" [])
  else if hboth : levels.isSome ∧ labels.isSome then .error (markingError "provide levels or labels, not both" [])
  else
    let members := labels.getD (levels.getD [])
    if members = [] then .error (markingError "a marking scheme requires at least one label" [])
    else if members.any fun label => decide (label = []) then
      .error (markingError "marking labels must be non-empty strings" [])
    else if hnd : members.Nodup then
      match hp : relationPairs members relations with
      | .error e => .error e
      | .ok pairs =>
        validated schemeId members (directPairs members levels pairs) hnd
          (directPairs_mem (fun ordered hl => by
            cases hlabels : labels with
            | none => simp [members, hlabels, hl]
            | some l => exact absurd ⟨by rw [hl]; rfl, by rw [hlabels]; rfl⟩ hboth) (relationPairs_mem hp))
    else .error (markingError "marking labels must be unique" [])

/-! ## Comparison, joins and meets -/

def requireLabel (s : MarkingSchemeDefinition) (label : PyStr) : Except PyError Unit :=
  if (s.closure.get? label).isSome then .ok ()
  else .error (markingError "unknown %r label: %r" [.text s.schemeId, .text label])

def requireLabels (s : MarkingSchemeDefinition) : List PyStr → Except PyError Unit
  | [] => .ok ()
  | label :: labels => do
    s.requireLabel label
    s.requireLabels labels

def Leq (s : MarkingSchemeDefinition) (lower upper : PyStr) : Prop := upper ∈ row s.closure lower

instance (s : MarkingSchemeDefinition) (lower upper : PyStr) : Decidable (s.Leq lower upper) :=
  inferInstanceAs (Decidable (upper ∈ row s.closure lower))

def leq (s : MarkingSchemeDefinition) (lower upper : PyStr) : Except PyError Bool := do
  s.requireLabel lower
  s.requireLabel upper
  return decide (s.Leq lower upper)

def dominates (s : MarkingSchemeDefinition) (higher lower : PyStr) : Except PyError Bool := s.leq lower higher

def join (s : MarkingSchemeDefinition) (labels : List PyStr) : Except PyError PyStr :=
  if labels = [] then .ok s.bottom
  else do
    s.requireLabels labels
    match minimal s.closure (upperBounds s.labels s.closure labels) with
    | [result] =>
      if labels.all fun label => decide (s.Leq label result) then .ok result
      else .error (markingError "internal error: join would downgrade an input marking" [])
    | _ => .error (markingError "join is not unique for labels %r" (labels.map .text))

def meet (s : MarkingSchemeDefinition) (labels : List PyStr) : Except PyError PyStr :=
  if labels = [] then .ok s.top
  else do
    s.requireLabels labels
    match maximal s.closure (lowerBounds s.labels s.closure labels) with
    | [result] => .ok result
    | _ => .error (markingError "meet is not unique for labels %r" (labels.map .text))

variable (s : MarkingSchemeDefinition)

theorem requireLabel_eq_ok {label : PyStr} : s.requireLabel label = .ok () ↔ label ∈ s.labels := by
  rw [← s.lattice.known label, requireLabel]
  split_ifs with h <;> simp [h]

theorem requireLabels_eq_ok {labels : List PyStr} (h : ∀ l ∈ labels, l ∈ s.labels) :
    s.requireLabels labels = .ok () := by
  induction labels with
  | nil => rfl
  | cons l labels ih =>
    rw [requireLabels, s.requireLabel_eq_ok.2 (h l (List.mem_cons_self ..))]
    exact ih fun x hx => h x (List.mem_cons_of_mem l hx)

theorem leq_eq_ok {lower upper : PyStr} (hl : lower ∈ s.labels) (hu : upper ∈ s.labels) :
    s.leq lower upper = .ok (decide (s.Leq lower upper)) := by
  rw [leq, s.requireLabel_eq_ok.2 hl, s.requireLabel_eq_ok.2 hu]
  rfl

theorem orderOn : OrderOn (fun other c => decide (c ∈ row s.closure other)) s.labels where
  refl a ha := decide_eq_true (s.lattice.refl a ha)
  trans a ha b _ c _ hab hbc := decide_eq_true (s.lattice.trans a ha b (of_decide_eq_true hab) c (of_decide_eq_true hbc))
  antisymm a ha b hb hab hba := s.lattice.antisymm a ha b hb (of_decide_eq_true hab) (of_decide_eq_true hba)

theorem mem_upperBounds {given : List PyStr} {u : PyStr} :
    u ∈ upperBounds s.labels s.closure given ↔ u ∈ s.labels ∧ ∀ l ∈ given, s.Leq l u := by
  rw [upperBounds, List.mem_filter, List.all_eq_true]
  simp [Leq]

structure IsJoin (labels : List PyStr) (j : PyStr) : Prop where
  known : j ∈ s.labels
  upper : ∀ l ∈ labels, s.Leq l j
  least : ∀ u ∈ s.labels, (∀ l ∈ labels, s.Leq l u) → s.Leq j u

theorem IsJoin.unique {labels : List PyStr} {i j : PyStr} (hi : s.IsJoin labels i) (hj : s.IsJoin labels j) : i = j :=
  s.lattice.antisymm i hi.known j hj.known (hi.least j hj.known hj.upper) (hj.least i hi.known hi.upper)

theorem exists_isJoin_pair {a b : PyStr} (ha : a ∈ s.labels) (hb : b ∈ s.labels) : ∃ j, s.IsJoin [a, b] j := by
  obtain ⟨j, hj⟩ := List.length_eq_one_iff.mp (s.lattice.joins a ha b hb)
  obtain ⟨hm, hleast⟩ := (s.orderOn.filter _).least_of_extremal_eq hj
  obtain ⟨hknown, hupper⟩ := s.mem_upperBounds.1 hm
  refine ⟨j, hknown, hupper, fun u hu hub => ?_⟩
  exact of_decide_eq_true (hleast u (s.mem_upperBounds.2 ⟨hu, hub⟩))

theorem exists_isJoin : ∀ {labels : List PyStr}, (∀ l ∈ labels, l ∈ s.labels) → ∃ j, s.IsJoin labels j
  | [], _ => ⟨s.bottom, s.lattice.bottom_least.1, by simp, fun u hu _ => s.lattice.bottom_least.2 u hu⟩
  | l :: labels, h => by
      have hl := h l (List.mem_cons_self ..)
      obtain ⟨i, hi⟩ := exists_isJoin fun x hx => h x (List.mem_cons_of_mem l hx)
      obtain ⟨j, hj⟩ := s.exists_isJoin_pair hl hi.known
      have hij : s.Leq i j := hj.upper i (by simp)
      refine ⟨j, hj.known, fun x hx => ?_, fun u hu hub => hj.least u hu fun x hx => ?_⟩
      · rcases List.mem_cons.mp hx with rfl | hx
        · exact hj.upper x (by simp)
        · exact s.lattice.trans x (h x (List.mem_cons_of_mem l hx)) i (hi.upper x hx) j hij
      · rcases List.mem_cons.mp hx with rfl | hx
        · exact hub x (List.mem_cons_self ..)
        · rw [List.mem_singleton.mp hx]
          exact hi.least u hu fun y hy => hub y (List.mem_cons_of_mem l hy)

theorem join_eq {labels : List PyStr} (h : ∀ l ∈ labels, l ∈ s.labels) {j : PyStr} (hj : s.IsJoin labels j) :
    s.join labels = .ok j := by
  unfold join
  split_ifs with hnil
  · subst hnil
    have hbottom : s.IsJoin [] s.bottom :=
      ⟨s.lattice.bottom_least.1, by simp, fun u hu _ => s.lattice.bottom_least.2 u hu⟩
    rw [hbottom.unique s hj]
  · have hmin : minimal s.closure (upperBounds s.labels s.closure labels) = [j] := by
      refine (s.orderOn.filter _).extremal_eq_of_least (s.lattice.nodup.filter _) ?_ fun u hu => ?_
      · exact s.mem_upperBounds.2 ⟨hj.known, hj.upper⟩
      · obtain ⟨hknown, hub⟩ := s.mem_upperBounds.1 hu
        exact decide_eq_true (hj.least u hknown hub)
    have hall : (labels.all fun label => decide (s.Leq label j)) = true := by
      rw [List.all_eq_true]
      exact fun l hl => decide_eq_true (hj.upper l hl)
    rw [s.requireLabels_eq_ok h, hmin]
    dsimp only
    rw [if_pos hall]
    rfl

theorem IsJoin.leq_iff {labels : List PyStr} (h : ∀ l ∈ labels, l ∈ s.labels) {j u : PyStr} (hj : s.IsJoin labels j)
    (hu : u ∈ s.labels) : s.Leq j u ↔ ∀ l ∈ labels, s.Leq l u :=
  ⟨fun hju l hl => s.lattice.trans l (h l hl) j (hj.upper l hl) u hju, hj.least u hu⟩

theorem join_congr {labels labels' : List PyStr} (h : ∀ l ∈ labels, l ∈ s.labels) (h' : ∀ l ∈ labels', l ∈ s.labels)
    (hiff : ∀ u ∈ s.labels, (∀ l ∈ labels, s.Leq l u) ↔ ∀ l ∈ labels', s.Leq l u) : s.join labels = s.join labels' := by
  obtain ⟨j, hj⟩ := s.exists_isJoin h
  have hj' : s.IsJoin labels' j :=
    ⟨hj.known, (hiff j hj.known).mp hj.upper, fun u hu hub => hj.least u hu ((hiff u hu).mpr hub)⟩
  rw [s.join_eq h hj, s.join_eq h' hj']

end MarkingSchemeDefinition
end OcorRuntime.Marking
