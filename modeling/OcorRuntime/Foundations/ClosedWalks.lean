import Mathlib.Data.List.Chain
import Mathlib.Data.List.Nodup
import Mathlib.Logic.Relation

/-! Closed walks of a relation, and the certificate a depth-first search leaves where there is
none: an order in which every node was finished after all it leads to. -/
namespace OcorRuntime.ClosedWalks
set_option autoImplicit false
set_option maxHeartbeats 250000

variable {α : Type} {edge : α → α → Prop}

/-- No node leads back to itself. -/
def Acyclic (edge : α → α → Prop) : Prop := ∀ n, ¬ Relation.TransGen edge n n

/-- `n₁, …, nₖ, n₁` with pairwise distinct `n₁, …, nₖ`, every step an edge. -/
def IsCycle (edge : α → α → Prop) (walk : List α) : Prop :=
  ∃ n rest, walk = n :: rest ++ [n] ∧ (n :: rest).Nodup ∧ walk.IsChain edge

/-! ## Walks -/

theorem leads_to_end {n m : α} {walk : List α} (h : (n :: walk ++ [m]).IsChain edge) : Relation.TransGen edge n m := by
  induction walk generalizing n with
  | nil => exact .single (List.isChain_cons_cons.mp h).1
  | cons next walk ih =>
    obtain ⟨hstep, hrest⟩ := List.isChain_cons_cons.mp h
    exact .head hstep (ih hrest)

theorem IsCycle.not_acyclic {walk : List α} (h : IsCycle edge walk) : ¬ Acyclic edge := by
  obtain ⟨n, rest, rfl, -, hchain⟩ := h
  exact fun hacyclic => hacyclic n (leads_to_end hchain)

theorem isCycle_of_path [BEq α] [LawfulBEq α] {path : List α} {m : α} (hnodup : path.Nodup) (hchain : path.IsChain edge)
    (hm : m ∈ path) (hback : ∀ last ∈ path.getLast?, edge last m) : IsCycle edge (path.drop (path.idxOf m) ++ [m]) := by
  have hlt : path.idxOf m < path.length := List.idxOf_lt_length_of_mem hm
  have hdrop : path.drop (path.idxOf m) = m :: path.drop (path.idxOf m + 1) := by
    rw [List.drop_eq_getElem_cons hlt, List.getElem_idxOf]
  refine ⟨m, path.drop (path.idxOf m + 1), by rw [hdrop], ?_, ?_⟩
  · rw [← hdrop]
    exact hnodup.sublist (List.drop_sublist _ _)
  · refine (hchain.drop _).append (List.isChain_singleton m) ?_
    intro last hlast first hfirst
    obtain rfl : m = first := by simpa using hfirst
    refine hback last ?_
    rwa [List.getLast?_drop, if_neg (not_le.mpr hlt)] at hlast

/-! ## Finished nodes -/

/-- Every node leads only to nodes that were finished before it; the latest stands first. -/
def Finished (edge : α → α → Prop) : List α → Prop
  | [] => True
  | n :: earlier => n ∉ earlier ∧ (∀ m, edge n m → m ∈ earlier) ∧ Finished edge earlier

theorem Finished.closed {finished : List α} (h : Finished edge finished) {n m : α} (hn : n ∈ finished)
    (hpath : Relation.ReflTransGen edge n m) : m ∈ finished := by
  have hstep : ∀ {a b : α}, a ∈ finished → edge a b → b ∈ finished := by
    clear hn hpath
    induction finished with
    | nil => exact fun ha => absurd ha List.not_mem_nil
    | cons latest earlier ih =>
      obtain ⟨-, hedges, hearlier⟩ := h
      intro a b ha hab
      apply List.mem_cons_of_mem
      rcases List.mem_cons.mp ha with rfl | ha
      · exact hedges b hab
      · exact ih hearlier ha hab
  induction hpath with
  | refl => exact hn
  | tail _ hab ih => exact hstep ih hab

theorem Finished.not_cyclic {finished : List α} (h : Finished edge finished) {n : α} (hn : n ∈ finished) :
    ¬ Relation.TransGen edge n n := by
  induction finished with
  | nil => exact absurd hn List.not_mem_nil
  | cons latest earlier ih =>
    obtain ⟨hfresh, hedges, hearlier⟩ := h
    intro hcycle
    rcases List.mem_cons.mp hn with rfl | hn
    · -- the first step leads to an earlier node, and from there nothing leads back
      obtain ⟨m, hstep, hback⟩ := Relation.TransGen.head'_iff.mp hcycle
      exact hfresh (hearlier.closed (hedges m hstep) hback)
    · exact ih hearlier hn hcycle

theorem Finished.acyclic {finished : List α} (h : Finished edge finished) (hall : ∀ n m, edge n m → n ∈ finished) :
    Acyclic edge := by
  intro n hcycle
  obtain ⟨m, hstep, -⟩ := Relation.TransGen.head'_iff.mp hcycle
  exact h.not_cyclic (hall n m hstep) hcycle

theorem Acyclic.mono {edge' : α → α → Prop} (h : Acyclic edge) (hsub : ∀ n m, edge' n m → edge n m) : Acyclic edge' :=
  fun n hcycle => h n (Relation.TransGen.mono hsub n n hcycle)

end OcorRuntime.ClosedWalks
