import Mathlib.Logic.Relation
import OcorRuntime.Marking.Scheme

/-! A marking scheme is the lattice its pairs generate. The table the constructor saturates
holds exactly the reflexive-transitive closure; that every two labels have a least upper and a
greatest lower bound is all the constructor asks of it, and is enough for the bounds of any
list of labels. -/
namespace OcorRuntime.Marking
open Saturation FiniteOrder
set_option autoImplicit false
set_option maxHeartbeats 250000

/-! ## The table holds the closure -/

/-- The reflexive-transitive closure of the pairs. -/
def Below (pairs : List (PyStr × PyStr)) : PyStr → PyStr → Prop := Relation.ReflTransGen fun a b => (a, b) ∈ pairs

/-- Every entry of the table is a consequence of the pairs. -/
def Sound (pairs : List (PyStr × PyStr)) (table : Dict PyStr (Finset PyStr)) : Prop :=
  ∀ k, ∀ x ∈ row table k, Below pairs k x

theorem Sound.expanded {pairs : List (PyStr × PyStr)} {table : Dict PyStr (Finset PyStr)} (h : Sound pairs table)
    (lower : PyStr) : ∀ x ∈ expanded table lower, Below pairs lower x := by
  intro x hx
  rcases Finset.mem_union.mp hx with hx | hx
  · exact h lower x hx
  · obtain ⟨middle, hmiddle, hx⟩ := Finset.mem_biUnion.mp hx
    exact (h lower middle hmiddle).trans (h middle x hx)

theorem Sound.set {pairs : List (PyStr × PyStr)} {table : Dict PyStr (Finset PyStr)} (h : Sound pairs table)
    {lower : PyStr} {r : Finset PyStr} (hr : ∀ x ∈ r, Below pairs lower x) : Sound pairs (table.set lower r) := by
  intro k x hx
  rw [row_set] at hx
  split_ifs at hx with hk
  · exact hk ▸ hr x hx
  · exact h k x hx

theorem Sound.pass {pairs : List (PyStr × PyStr)} {table : Dict PyStr (Finset PyStr)} (h : Sound pairs table)
    (todo : List PyStr) (changed : Bool) : Sound pairs (pass todo table changed).2 := by
  induction todo generalizing table changed with
  | nil => exact h
  | cons lower todo ih =>
    rw [Saturation.pass]
    split_ifs
    · exact ih h changed
    · exact ih (h.set (h.expanded lower)) true

theorem sound_directTable {members : List PyStr} {pairs direct : List (PyStr × PyStr)}
    (hdirect : ∀ edge ∈ direct, Below pairs edge.1 edge.2) : Sound pairs (directTable members direct) := by
  have hadd : ∀ (direct : List (PyStr × PyStr)) (table : Dict PyStr (Finset PyStr)),
      (∀ edge ∈ direct, Below pairs edge.1 edge.2) → Sound pairs table → Sound pairs (direct.foldl addEdge table) := by
    intro direct
    induction direct with
    | nil => exact fun _ _ h => h
    | cons edge direct ih =>
      intro table hdirect h
      refine ih _ (fun e he => hdirect e (List.mem_cons_of_mem edge he)) (h.set fun x hx => ?_)
      rcases Finset.mem_insert.mp hx with rfl | hx
      · exact hdirect edge List.mem_cons_self
      · exact h edge.1 x hx
  refine hadd direct _ hdirect fun k x hx => ?_
  have hget : row (initialTable members) k = if k ∈ members then {k} else ∅ := by
    unfold row
    rw [show (initialTable members).get? k = if k ∈ members then some {k} else none from
      get?_foldl_singleton members .empty k]
    split_ifs <;> rfl
  rw [hget] at hx
  split_ifs at hx
  · rw [Finset.mem_singleton.mp hx]
    exact Relation.ReflTransGen.refl
  · exact absurd hx (Finset.notMem_empty x)

theorem mem_directTable {members : List PyStr} {direct : List (PyStr × PyStr)} {edge : PyStr × PyStr}
    (h : edge ∈ direct) : edge.2 ∈ row (directTable members direct) edge.1 := by
  have hgrows : ∀ (rest : List (PyStr × PyStr)) (table : Dict PyStr (Finset PyStr)) (k : PyStr),
      row table k ⊆ row (rest.foldl addEdge table) k := by
    intro rest
    induction rest with
    | nil => exact fun _ _ => Finset.Subset.refl _
    | cons e rest ih =>
      intro table k
      refine Finset.Subset.trans ?_ (ih (addEdge table e) k)
      rw [addEdge, row_set]
      split_ifs with hk
      · exact hk ▸ Finset.subset_insert e.2 _
      · exact Finset.Subset.refl _
  obtain ⟨before, after, rfl⟩ := List.append_of_mem h
  rw [directTable, List.foldl_append, List.foldl_cons]
  refine hgrows after _ edge.1 ?_
  rw [addEdge, row_set, if_pos rfl]
  exact Finset.mem_insert_self _ _

section Closure
variable {members : List PyStr} {direct pairs : List (PyStr × PyStr)}

theorem mem_closureOf_of_mem {edge : PyStr × PyStr} (h : edge ∈ direct) :
    edge.2 ∈ row (closureOf members direct) edge.1 := by
  have hkeeps : ∀ table, edge.2 ∈ row table edge.1 → edge.2 ∈ row (pass members table false).2 edge.1 :=
    fun table hmem => pass_subset members table false edge.1 hmem
  exact saturate_induction hkeeps _ _ (mem_directTable h)

/-- **The table is the closure.** -/
theorem mem_closureOf (hmembers : ∀ edge ∈ direct, edge.1 ∈ members ∧ edge.2 ∈ members)
    (hdirect : ∀ edge, edge ∈ direct ↔ edge ∈ pairs ∨ edge.1 = edge.2 ∧ edge.1 ∈ members) {a b : PyStr}
    (ha : a ∈ members) : b ∈ row (closureOf members direct) a ↔ Below pairs a b := by
  constructor
  · have hsound : Sound pairs (closureOf members direct) := by
      have hpass : ∀ table, Sound pairs table → Sound pairs (pass members table false).2 := fun table h => h.pass members false
      refine saturate_induction hpass _ _ (sound_directTable fun edge he => ?_)
      rcases (hdirect edge).mp he with he | ⟨heq, -⟩
      · exact Relation.ReflTransGen.single he
      · rw [heq]
        exact Relation.ReflTransGen.refl
    exact hsound a b
  · intro h
    induction h with
    | refl => exact (table_closureOf members direct hmembers).refl a ha
    | @tail b c _ hbc ih =>
      have hmem : (b, c) ∈ direct := (hdirect (b, c)).mpr (.inl hbc)
      exact closureOf_closed members direct hmembers a ha b ih c (mem_closureOf_of_mem hmem)

end Closure

theorem pass_of_closed {members : List PyStr} {table : Dict PyStr (Finset PyStr)} (h : Closed members table)
    (todo : List PyStr) (htodo : ∀ k ∈ todo, k ∈ members) : pass todo table false = (false, table) := by
  induction todo with
  | nil => rfl
  | cons lower todo ih =>
    obtain ⟨hlower, hrest⟩ := List.forall_mem_cons.mp htodo
    have hrow : expanded table lower = row table lower := by
      refine Finset.Subset.antisymm (fun x hx => ?_) (subset_expanded table lower)
      rcases Finset.mem_union.mp hx with hx | hx
      · exact hx
      · obtain ⟨b, hb, hx⟩ := Finset.mem_biUnion.mp hx
        exact h lower hlower b hb x hx
    rw [Saturation.pass, if_pos hrow]
    exact ih hrest

/-- The loop of the constructor, pass after pass until one changes nothing. -/
inductive WhileChanged (members : List PyStr) : Dict PyStr (Finset PyStr) → Dict PyStr (Finset PyStr) → Prop
  | done {table next : Dict PyStr (Finset PyStr)} : pass members table false = (false, next) → WhileChanged members table next
  | again {table next final : Dict PyStr (Finset PyStr)} : pass members table false = (true, next) →
      WhileChanged members next final → WhileChanged members table final

theorem whileChanged_saturate {members : List PyStr} (rounds : ℕ) (table : Dict PyStr (Finset PyStr))
    (h : Closed members (saturate members rounds table)) : WhileChanged members table (saturate members rounds table) := by
  induction rounds generalizing table with
  | zero => exact .done (pass_of_closed h members fun k hk => hk)
  | succ rounds ih =>
    rw [saturate] at h ⊢
    rcases hpass : pass members table false with ⟨changed, next⟩
    rw [hpass] at h
    cases changed with
    | true => exact .again hpass (ih next h)
    | false => exact .done hpass

theorem whileChanged_closureOf {members : List PyStr} {direct : List (PyStr × PyStr)}
    (hd : ∀ edge ∈ direct, edge.1 ∈ members ∧ edge.2 ∈ members) :
    WhileChanged members (directTable members direct) (closureOf members direct) :=
  whileChanged_saturate _ _ (closureOf_closed members direct hd)

/-! ## Bounds -/

/-- The order of a table. -/
def belowIn (closure : Dict PyStr (Finset PyStr)) (a b : PyStr) : Bool := decide (b ∈ row closure a)

theorem minimal_upperBounds (labels : List PyStr) (closure : Dict PyStr (Finset PyStr)) (given : List PyStr) :
    minimal closure (upperBounds labels closure given) =
      extremal (belowIn closure) (boundsOf (belowIn closure) labels given) := rfl

theorem maximal_lowerBounds (labels : List PyStr) (closure : Dict PyStr (Finset PyStr)) (given : List PyStr) :
    maximal closure (lowerBounds labels closure given) =
      extremal (fun a b => belowIn closure b a) (boundsOf (fun a b => belowIn closure b a) labels given) := rfl

/-- A least upper bound of the given labels, in the closure of the pairs. -/
structure IsLub (labels : List PyStr) (pairs : List (PyStr × PyStr)) (given : List PyStr) (j : PyStr) : Prop where
  mem : j ∈ labels
  above : ∀ l ∈ given, Below pairs l j
  least : ∀ u ∈ labels, (∀ l ∈ given, Below pairs l u) → Below pairs j u

/-- A greatest lower bound. -/
structure IsGlb (labels : List PyStr) (pairs : List (PyStr × PyStr)) (given : List PyStr) (m : PyStr) : Prop where
  mem : m ∈ labels
  below : ∀ l ∈ given, Below pairs m l
  greatest : ∀ u ∈ labels, (∀ l ∈ given, Below pairs u l) → Below pairs u m

/-- The closure of the pairs is an order in which every two labels have both bounds. -/
structure LatticePairs (labels : List PyStr) (pairs : List (PyStr × PyStr)) : Prop where
  antisymm : ∀ a b, Below pairs a b → Below pairs b a → a = b
  joins : ∀ a ∈ labels, ∀ b ∈ labels, ∃ j, IsLub labels pairs [a, b] j
  meets : ∀ a ∈ labels, ∀ b ∈ labels, ∃ m, IsGlb labels pairs [a, b] m

/-- The pairs are over the labels, and the table is built from them and the labels themselves. -/
structure Generated (labels : List PyStr) (pairs direct : List (PyStr × PyStr)) : Prop where
  nodup : labels.Nodup
  known : ∀ edge ∈ pairs, edge.1 ∈ labels ∧ edge.2 ∈ labels
  direct : ∀ edge, edge ∈ direct ↔ edge ∈ pairs ∨ edge.1 = edge.2 ∧ edge.1 ∈ labels

namespace Generated
variable {labels : List PyStr} {pairs direct : List (PyStr × PyStr)} (h : Generated labels pairs direct)
include h

theorem members : ∀ edge ∈ direct, edge.1 ∈ labels ∧ edge.2 ∈ labels := by
  intro edge he
  rcases (h.direct edge).mp he with he | ⟨heq, hmem⟩
  · exact h.known edge he
  · exact ⟨hmem, heq ▸ hmem⟩

theorem belowIn_iff {a b : PyStr} (ha : a ∈ labels) :
    belowIn (closureOf labels direct) a b = true ↔ Below pairs a b := by
  rw [belowIn, decide_eq_true_iff]
  exact mem_closureOf h.members h.direct ha

theorem isLub_iff {given : List PyStr} (hgiven : ∀ l ∈ given, l ∈ labels) {j : PyStr} :
    LeastAbove (belowIn (closureOf labels direct)) labels given j ↔ IsLub labels pairs given j := by
  constructor
  · rintro ⟨hmem, habove, hleast⟩
    refine ⟨hmem, fun l hl => (h.belowIn_iff (hgiven l hl)).mp (habove l hl), fun u hu hub => ?_⟩
    exact (h.belowIn_iff hmem).mp (hleast u hu fun l hl => (h.belowIn_iff (hgiven l hl)).mpr (hub l hl))
  · rintro ⟨hmem, habove, hleast⟩
    refine ⟨hmem, fun l hl => (h.belowIn_iff (hgiven l hl)).mpr (habove l hl), fun u hu hub => ?_⟩
    exact (h.belowIn_iff hmem).mpr (hleast u hu fun l hl => (h.belowIn_iff (hgiven l hl)).mp (hub l hl))

theorem isGlb_iff {given : List PyStr} {m : PyStr} :
    LeastAbove (fun a b => belowIn (closureOf labels direct) b a) labels given m ↔ IsGlb labels pairs given m := by
  constructor
  · rintro ⟨hmem, hbelow, hgreatest⟩
    refine ⟨hmem, fun l hl => (h.belowIn_iff hmem).mp (hbelow l hl), fun u hu hub => ?_⟩
    exact (h.belowIn_iff hu).mp (hgreatest u hu fun l hl => (h.belowIn_iff hu).mpr (hub l hl))
  · rintro ⟨hmem, hbelow, hgreatest⟩
    refine ⟨hmem, fun l hl => (h.belowIn_iff hmem).mpr (hbelow l hl), fun u hu hub => ?_⟩
    exact (h.belowIn_iff hu).mpr (hgreatest u hu fun l hl => (h.belowIn_iff hu).mp (hub l hl))

theorem antisymmetric_iff : antisymmetric labels (closureOf labels direct) = true ↔
    ∀ a b, Below pairs a b → Below pairs b a → a = b := by
  have hknown : ∀ a b, Below pairs a b → a = b ∨ a ∈ labels ∧ b ∈ labels := by
    intro a b hab
    induction hab with
    | refl => exact .inl rfl
    | @tail b c _ hbc ih =>
      have hc := (h.known (b, c) hbc).2
      rcases ih with rfl | ⟨ha, -⟩
      · exact .inr ⟨(h.known (a, c) hbc).1, hc⟩
      · exact .inr ⟨ha, hc⟩
  unfold antisymmetric
  rw [List.all_eq_true]
  constructor
  · intro hall a b hab hba
    rcases hknown a b hab with heq | ⟨ha, hb⟩
    · exact heq
    · have hpair := hall (a, b) (mem_allPairs.2 ⟨ha, hb⟩)
      simpa [mem_closureOf h.members h.direct ha, mem_closureOf h.members h.direct hb, hab, hba] using hpair
  · rintro hanti ⟨a, b⟩ hpair
    obtain ⟨ha, hb⟩ := mem_allPairs.1 hpair
    by_cases hboth : Below pairs a b ∧ Below pairs b a
    · simp [hanti a b hboth.1 hboth.2]
    · simp only [mem_closureOf h.members h.direct ha, mem_closureOf h.members h.direct hb, Bool.or_eq_true,
        decide_eq_true_iff, Bool.not_eq_true', Bool.and_eq_false_iff, decide_eq_false_iff_not]
      by_cases hab : Below pairs a b
      · exact .inr (.inr fun hba => hboth ⟨hab, hba⟩)
      · exact .inr (.inl hab)

theorem orderOn (hanti : ∀ a b, Below pairs a b → Below pairs b a → a = b) :
    OrderOn (belowIn (closureOf labels direct)) labels where
  refl _ ha := (h.belowIn_iff ha).mpr Relation.ReflTransGen.refl
  trans _ ha _ hb _ _ hab hbc :=
    (h.belowIn_iff ha).mpr (((h.belowIn_iff ha).mp hab).trans ((h.belowIn_iff hb).mp hbc))
  antisymm a ha b hb hab hba := hanti a b ((h.belowIn_iff ha).mp hab) ((h.belowIn_iff hb).mp hba)

theorem isLatticePair_iff (hanti : ∀ a b, Below pairs a b → Below pairs b a → a = b) {a b : PyStr} (ha : a ∈ labels)
    (hb : b ∈ labels) : isLatticePair labels (closureOf labels direct) (a, b) = true ↔
      (∃ j, IsLub labels pairs [a, b] j) ∧ ∃ m, IsGlb labels pairs [a, b] m := by
  have hgiven : ∀ l ∈ [a, b], l ∈ labels := by
    intro l hl
    rcases List.mem_cons.mp hl with rfl | hl
    · exact ha
    · exact List.mem_singleton.mp hl ▸ hb
  rw [isLatticePair, Bool.and_eq_true, beq_iff_eq, beq_iff_eq, minimal_upperBounds, maximal_lowerBounds,
    (h.orderOn hanti).length_extremal_boundsOf h.nodup, (h.orderOn hanti).flip.length_extremal_boundsOf h.nodup]
  exact and_congr (exists_congr fun j => h.isLub_iff hgiven) (exists_congr fun m => h.isGlb_iff)

theorem exists_extremes (hne : labels ≠ []) (hlattice : LatticePairs labels pairs) :
    (∃ bottom, bottoms labels (closureOf labels direct) = [bottom]) ∧
      ∃ top, tops labels (closureOf labels direct) = [top] := by
  have horder := h.orderOn hlattice.antisymm
  have hgiven : ∀ {a b}, a ∈ labels → b ∈ labels → ∀ l ∈ [a, b], l ∈ labels := by
    intro a b ha hb l hl
    rcases List.mem_cons.mp hl with rfl | hl
    · exact ha
    · exact List.mem_singleton.mp hl ▸ hb
  constructor
  · obtain ⟨bottom, hmem, hleast⟩ := exists_bound (fun a b => belowIn (closureOf labels direct) b a)
      (fun a ha b hb => (hlattice.meets a ha b hb).imp fun m hm => h.isGlb_iff.2 hm) horder.flip.trans hne
      fun l hl => hl
    exact ⟨bottom, (horder.filter_below_eq h.nodup).mpr ⟨hmem, List.forall_mem_nil _, fun u hu _ => hleast u hu⟩⟩
  · obtain ⟨top, hmem, hgreatest⟩ := exists_bound (belowIn (closureOf labels direct))
      (fun a ha b hb => (hlattice.joins a ha b hb).imp fun j hj => (h.isLub_iff (hgiven ha hb)).mpr hj) horder.trans hne
      fun l hl => hl
    exact ⟨top, (horder.flip.filter_below_eq h.nodup).mpr ⟨hmem, List.forall_mem_nil _, fun u hu _ => hgreatest u hu⟩⟩

end Generated

/-! ## The constructor -/

namespace MarkingSchemeDefinition
variable {schemeId : PyStr} {labels : List PyStr} {direct pairs : List (PyStr × PyStr)}

theorem exists_validated (hnd : labels.Nodup) (hd : ∀ edge ∈ direct, edge.1 ∈ labels ∧ edge.2 ∈ labels) :
    (∃ s, validated schemeId labels direct hnd hd = .ok s) ↔
      antisymmetric labels (closureOf labels direct) = true ∧
        (∃ bottom, bottoms labels (closureOf labels direct) = [bottom]) ∧
        (∃ top, tops labels (closureOf labels direct) = [top]) ∧
        ∀ pair ∈ allPairs labels, isLatticePair labels (closureOf labels direct) pair = true := by
  unfold validated
  constructor
  · rintro ⟨s, h⟩
    split_ifs at h with hanti
    split at h
    case h_2 => cases h
    case h_1 bottom top hb ht =>
      split at h
      case h_1 => cases h
      case h_2 hp =>
        refine ⟨hanti, ⟨bottom, hb⟩, ⟨top, ht⟩, fun pair hpair => ?_⟩
        simpa using List.find?_eq_none.mp hp pair hpair
  · rintro ⟨hanti, ⟨bottom, hb⟩, ⟨top, ht⟩, hpairs⟩
    have hp : (allPairs labels).find? (fun pair => !isLatticePair labels (closureOf labels direct) pair) = none := by
      rw [List.find?_eq_none]
      intro pair hpair
      simpa using hpairs pair hpair
    rw [dif_pos hanti]
    split
    case h_1 =>
      split
      case h_1 heq => exact absurd (hp.symm.trans heq) (by simp)
      case h_2 => exact ⟨_, rfl⟩
    case h_2 hno => exact absurd ht (hno bottom top hb)

theorem validated_eq_ok {hnd : labels.Nodup} {hd : ∀ edge ∈ direct, edge.1 ∈ labels ∧ edge.2 ∈ labels}
    {s : MarkingSchemeDefinition} (h : validated schemeId labels direct hnd hd = .ok s) :
    s.labels = labels ∧ s.closure = closureOf labels direct := by
  unfold validated at h
  split_ifs at h
  split at h
  · split at h
    · cases h
    · cases h
      exact ⟨rfl, rfl⟩
  · cases h

/-- The pairs as they are given to the constructor. -/
def relationsOf (pairs : List (PyStr × PyStr)) : List RelationArg := pairs.map fun edge => .sequence [edge.1, edge.2]

theorem relationPairs_relationsOf (hknown : ∀ edge ∈ pairs, edge.1 ∈ labels ∧ edge.2 ∈ labels) :
    relationPairs labels (relationsOf pairs) = .ok pairs := by
  induction pairs with
  | nil => rfl
  | cons edge pairs ih =>
    obtain ⟨hedge, hrest⟩ := List.forall_mem_cons.mp hknown
    have hpairs := ih hrest
    unfold relationsOf at hpairs ⊢
    rw [List.map_cons, relationPairs, if_pos hedge, hpairs]
    rfl

theorem generated_directPairs (hnd : labels.Nodup) (hknown : ∀ edge ∈ pairs, edge.1 ∈ labels ∧ edge.2 ∈ labels) :
    Generated labels pairs (directPairs labels none pairs) where
  nodup := hnd
  known := hknown
  direct := by
    rintro ⟨a, b⟩
    unfold directPairs
    simp only [Option.map_none, Option.getD_none, List.append_nil, List.mem_append, List.mem_map, Prod.mk.injEq]
    constructor
    · rintro (⟨label, hlabel, rfl, rfl⟩ | hmem)
      · exact .inr ⟨rfl, hlabel⟩
      · exact .inl hmem
    · rintro (hmem | ⟨rfl, hmem⟩)
      · exact .inr hmem
      · exact .inl ⟨a, hmem, rfl, rfl⟩

theorem create_eq (hid : schemeId.all isSpace = false) (hne : labels ≠ []) (htexts : ∀ l ∈ labels, l ≠ [])
    (hnd : labels.Nodup) (hknown : ∀ edge ∈ pairs, edge.1 ∈ labels ∧ edge.2 ∈ labels) :
    create schemeId none (some labels) (relationsOf pairs) =
      validated schemeId labels (directPairs labels none pairs) hnd (generated_directPairs hnd hknown).members := by
  have hsome : ¬ (((none : Option (List PyStr)).isSome = true) ∧ (some labels).isSome = true) := fun h => absurd h.1 (by decide)
  have hany : ¬ (labels.any fun label => decide (label = [])) = true := by
    rw [List.any_eq_true]
    rintro ⟨l, hl, hempty⟩
    exact htexts l hl (of_decide_eq_true hempty)
  unfold create
  rw [if_neg (by rw [hid]; decide), dif_neg hsome]
  dsimp only [Option.getD_some]
  rw [if_neg hne, if_neg hany, dif_pos hnd]
  split
  case h_1 heq =>
    rw [relationPairs_relationsOf hknown] at heq
    cases heq
  case h_2 found heq =>
    rw [relationPairs_relationsOf hknown] at heq
    cases heq
    rfl

theorem texts_of_create {relations : List RelationArg} {s : MarkingSchemeDefinition}
    (h : create schemeId none (some labels) relations = .ok s) :
    schemeId.all isSpace = false ∧ labels ≠ [] ∧ ∀ l ∈ labels, l ≠ [] := by
  unfold create at h
  dsimp only [Option.getD_some] at h
  split_ifs at h with hid hboth hne hany
  refine ⟨Bool.not_eq_true _ ▸ hid, hne, fun l hl hempty => hany ?_⟩
  exact List.any_eq_true.mpr ⟨l, hl, decide_eq_true hempty⟩

/-! ## The bounds of a scheme -/

variable (s : MarkingSchemeDefinition)

theorem exists_join {given : List PyStr} (h : ∀ l ∈ given, l ∈ s.labels) :
    ∃ j, s.join given = .ok j ∧ LeastAbove (belowIn s.closure) s.labels given j := by
  obtain ⟨j, hj⟩ := s.exists_isJoin h
  refine ⟨j, s.join_eq h hj, hj.known, fun l hl => decide_eq_true (hj.upper l hl), fun u hu hub => ?_⟩
  exact decide_eq_true (hj.least u hu fun l hl => of_decide_eq_true (hub l hl))

theorem leastAbove_top : LeastAbove (fun a b => belowIn s.closure b a) s.labels [] s.top :=
  ⟨s.lattice.top_greatest.1, List.forall_mem_nil _, fun u hu _ => decide_eq_true (s.lattice.top_greatest.2 u hu)⟩

theorem exists_meet {given : List PyStr} (h : ∀ l ∈ given, l ∈ s.labels) :
    ∃ m, s.meet given = .ok m ∧ LeastAbove (fun a b => belowIn s.closure b a) s.labels given m := by
  have horder : OrderOn (fun a b => belowIn s.closure b a) s.labels := s.orderOn.flip
  by_cases hnil : given = []
  · subst hnil
    exact ⟨s.top, rfl, s.leastAbove_top⟩
  · have hpairs : ∀ a ∈ s.labels, ∀ b ∈ s.labels,
        ∃ m, LeastAbove (fun a b => belowIn s.closure b a) s.labels [a, b] m := by
      intro a ha b hb
      have hlen := s.lattice.meets a ha b hb
      rw [maximal_lowerBounds] at hlen
      exact (horder.length_extremal_boundsOf s.lattice.nodup).mp hlen
    obtain ⟨m, hm⟩ := horder.exists_leastAbove hpairs s.leastAbove_top h
    refine ⟨m, ?_, hm⟩
    unfold meet
    rw [if_neg hnil, s.requireLabels_eq_ok h, maximal_lowerBounds,
      (horder.extremal_boundsOf s.lattice.nodup).mpr hm]
    rfl

end MarkingSchemeDefinition

open MarkingSchemeDefinition

/-- **A scheme is constructed exactly when its pairs generate a lattice**, its labels and its name are no empty texts,
and there is a label at all; its constructor ends in any case. Its comparison is then the closure of the pairs, and
`join` and `meet` of any known labels return their least upper and greatest lower bound, the least and the greatest
label when none are given. -/
theorem create_decides (schemeId : PyStr) (labels : List PyStr) (pairs : List (PyStr × PyStr)) (hnd : labels.Nodup)
    (hknown : ∀ edge ∈ pairs, edge.1 ∈ labels ∧ edge.2 ∈ labels) :
    (∃ table, WhileChanged labels (directTable labels (directPairs labels none pairs)) table ∧
        ∀ a ∈ labels, ∀ b, b ∈ row table a ↔ Below pairs a b) ∧
      ((∃ s, create schemeId none (some labels) (relationsOf pairs) = .ok s) ↔
        (schemeId.all isSpace = false ∧ labels ≠ [] ∧ ∀ l ∈ labels, l ≠ []) ∧ LatticePairs labels pairs) ∧
      ∀ s, create schemeId none (some labels) (relationsOf pairs) = .ok s →
        (∀ a ∈ labels, ∀ b ∈ labels, ∃ below, s.leq a b = .ok below ∧ (below = true ↔ Below pairs a b)) ∧
          (∀ given : List PyStr, (∀ l ∈ given, l ∈ labels) → (∃ j, s.join given = .ok j ∧ IsLub labels pairs given j) ∧
            ∃ m, s.meet given = .ok m ∧ IsGlb labels pairs given m) ∧
          s.join [] = .ok s.bottom ∧ s.meet [] = .ok s.top ∧ ∀ l ∈ labels, Below pairs s.bottom l ∧ Below pairs l s.top := by
  have hgen := generated_directPairs hnd hknown
  refine ⟨⟨_, whileChanged_closureOf hgen.members, fun a ha b => mem_closureOf hgen.members hgen.direct ha⟩, ?_, ?_⟩
  · constructor
    · rintro ⟨s, hs⟩
      obtain ⟨hid, hne, htexts⟩ := texts_of_create hs
      rw [create_eq hid hne htexts hnd hknown] at hs
      obtain ⟨hanti, -, -, hpairs⟩ := (exists_validated hnd hgen.members).mp ⟨s, hs⟩
      rw [hgen.antisymmetric_iff] at hanti
      have hboth : ∀ a ∈ labels, ∀ b ∈ labels, (∃ j, IsLub labels pairs [a, b] j) ∧ ∃ m, IsGlb labels pairs [a, b] m :=
        fun a ha b hb => (hgen.isLatticePair_iff hanti ha hb).mp (hpairs (a, b) (mem_allPairs.2 ⟨ha, hb⟩))
      exact ⟨⟨hid, hne, htexts⟩, hanti, fun a ha b hb => (hboth a ha b hb).1, fun a ha b hb => (hboth a ha b hb).2⟩
    · rintro ⟨⟨hid, hne, htexts⟩, hlattice⟩
      rw [create_eq hid hne htexts hnd hknown, exists_validated, hgen.antisymmetric_iff]
      obtain ⟨hbottom, htop⟩ := hgen.exists_extremes hne hlattice
      refine ⟨hlattice.antisymm, hbottom, htop, ?_⟩
      rintro ⟨a, b⟩ hpair
      obtain ⟨ha, hb⟩ := mem_allPairs.1 hpair
      exact (hgen.isLatticePair_iff hlattice.antisymm ha hb).mpr ⟨hlattice.joins a ha b hb, hlattice.meets a ha b hb⟩
  · intro s hs
    obtain ⟨hid, hne, htexts⟩ := texts_of_create hs
    rw [create_eq hid hne htexts hnd hknown] at hs
    obtain ⟨hlabels, hclosure⟩ := validated_eq_ok hs
    have hleq : ∀ a ∈ labels, ∀ b, s.Leq a b ↔ Below pairs a b := by
      intro a ha b
      unfold Leq
      rw [hclosure]
      exact mem_closureOf hgen.members hgen.direct ha
    refine ⟨fun a ha b hb => ?_, fun given hgiven => ⟨?_, ?_⟩, rfl, rfl, fun l hl => ⟨?_, ?_⟩⟩
    · refine ⟨_, s.leq_eq_ok (hlabels ▸ ha) (hlabels ▸ hb), ?_⟩
      rw [decide_eq_true_iff]
      exact hleq a ha b
    · obtain ⟨j, hj, hlub⟩ := s.exists_join fun l hl => hlabels ▸ hgiven l hl
      rw [hlabels, hclosure] at hlub
      exact ⟨j, hj, (hgen.isLub_iff hgiven).mp hlub⟩
    · obtain ⟨m, hm, hglb⟩ := s.exists_meet fun l hl => hlabels ▸ hgiven l hl
      rw [hlabels, hclosure] at hglb
      exact ⟨m, hm, hgen.isGlb_iff.1 hglb⟩
    · exact (hleq s.bottom (hlabels ▸ s.lattice.bottom_least.1) l).mp (s.lattice.bottom_least.2 l (hlabels ▸ hl))
    · exact (hleq l hl s.top).mp (s.lattice.top_greatest.2 l (hlabels ▸ hl))

/-- Two labels, the one below the other. -/
theorem create_decides_two : ∃ s, create (py "tlp") none (some [py "CLEAR", py "RED"])
    (relationsOf [(py "CLEAR", py "RED")]) = .ok s ∧ s.join [] = .ok s.bottom ∧
      ∃ j, s.join [py "RED", py "CLEAR"] = .ok j ∧
        IsLub [py "CLEAR", py "RED"] [(py "CLEAR", py "RED")] [py "RED", py "CLEAR"] j := by
  obtain ⟨-, -, hbounds⟩ := create_decides (py "tlp") [py "CLEAR", py "RED"] [(py "CLEAR", py "RED")] (by decide)
    (by decide)
  have hok : (create (py "tlp") none (some [py "CLEAR", py "RED"])
      (relationsOf [(py "CLEAR", py "RED")])).isOk = true := by decide
  obtain ⟨s, hs⟩ : ∃ s, create (py "tlp") none (some [py "CLEAR", py "RED"])
      (relationsOf [(py "CLEAR", py "RED")]) = .ok s := by
    cases hcreate : create (py "tlp") none (some [py "CLEAR", py "RED"]) (relationsOf [(py "CLEAR", py "RED")]) with
    | ok s => exact ⟨s, rfl⟩
    | error e =>
      rw [hcreate] at hok
      cases hok
  obtain ⟨-, hgiven, hjoin, -⟩ := hbounds s hs
  exact ⟨s, hs, hjoin, (hgiven [py "RED", py "CLEAR"] (by decide)).1⟩

/-- No labels are a lattice whose every two labels have both bounds, and the constructor refuses them. -/
theorem create_refuses_no_labels : ¬ ∀ (schemeId : PyStr) (labels : List PyStr) (pairs : List (PyStr × PyStr)),
    schemeId.all isSpace = false → labels.Nodup → (∀ edge ∈ pairs, edge.1 ∈ labels ∧ edge.2 ∈ labels) →
      ((∃ s, create schemeId none (some labels) (relationsOf pairs) = .ok s) ↔ LatticePairs labels pairs) := by
  intro h
  have hlattice : LatticePairs [] [] := by
    refine ⟨fun a b hab _ => ?_, fun a ha => absurd ha List.not_mem_nil, fun a ha => absurd ha List.not_mem_nil⟩
    rcases Relation.ReflTransGen.cases_head hab with heq | ⟨c, hc, -⟩
    · exact heq
    · exact absurd hc List.not_mem_nil
  obtain ⟨s, hs⟩ := (h (py "tlp") [] [] (by decide) List.nodup_nil (List.forall_mem_nil _)).mpr hlattice
  cases hs

end OcorRuntime.Marking
