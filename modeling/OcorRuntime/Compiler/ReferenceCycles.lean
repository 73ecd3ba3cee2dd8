import OcorRuntime.Compiler.Completeness
import OcorRuntime.Foundations.ClosedWalks

/-! The reference phase of the frontend (`c1/frontend.py`): the search for a cycle answers
exactly, and what the validator accepts of a request whose documents are well typed. The search
is carried by one invariant: the grey nodes are the path, and the black ones were finished after
everything they lead to. -/
namespace OcorRuntime.Compiler
open Canonical Kernel ClosedWalks
set_option autoImplicit false
set_option maxHeartbeats 250000

/-! ## The search -/

section
variable {nodes : List PyStr} {graph : PyStr → List PyStr}

/-- The graph over its own nodes. -/
def Refers (nodes : List PyStr) (graph : PyStr → List PyStr) (a b : PyStr) : Prop :=
  a ∈ nodes ∧ b ∈ nodes ∧ b ∈ graph a

structure Searching (nodes : List PyStr) (graph : PyStr → List PyStr) (s : Search) (finished : List PyStr) : Prop where
  known : ∀ n, s.color n = none ↔ n ∉ nodes
  gray : ∀ n, s.color n = some .gray ↔ n ∈ s.path
  black : ∀ n, s.color n = some .black ↔ n ∈ finished
  order : Finished (Refers nodes graph) finished
  distinct : s.path.Nodup
  walk : s.path.IsChain (Refers nodes graph)

/-- The nodes that are yet to be visited. -/
def whites (nodes : List PyStr) (s : Search) : ℕ := nodes.countP fun n => s.color n = some .white

theorem Searching.white_iff {s : Search} {finished : List PyStr} (h : Searching nodes graph s finished) (n : PyStr) :
    s.color n = some .white ↔ n ∈ nodes ∧ n ∉ s.path ∧ n ∉ finished := by
  have hknown : n ∈ nodes ↔ s.color n ≠ none := by rw [ne_eq, h.known, not_not]
  rw [← h.gray, ← h.black, hknown]
  cases s.color n with
  | none => simp
  | some c => cases c <;> simp

/-- What a visit comes to: a cycle, the end of the interpreter's stack, or more finished nodes. -/
def Outcome (nodes : List PyStr) (graph : PyStr → List PyStr) (depth : ℕ) (s : Search) (finished goals : List PyStr)
    (result : Visit) : Prop :=
  (∃ e, result = .error e ∧ depth < whites nodes s) ∨
  (∃ cycle s', result = .ok (some cycle, s') ∧ IsCycle (Refers nodes graph) cycle) ∨
  ∃ s' finished', result = .ok (none, s') ∧ Searching nodes graph s' finished' ∧ s'.path = s.path ∧
    finished ⊆ finished' ∧ ∀ n ∈ goals, n ∈ nodes → n ∈ finished'

theorem whites_mono {s s' : Search} {finished finished' : List PyStr} (h : Searching nodes graph s finished)
    (h' : Searching nodes graph s' finished') (hpath : s'.path = s.path) (hsub : finished ⊆ finished') :
    whites nodes s' ≤ whites nodes s := by
  refine List.countP_mono_left fun n _ hwhite => ?_
  rw [decide_eq_true_iff, h'.white_iff, hpath] at hwhite
  rw [decide_eq_true_iff, h.white_iff]
  exact ⟨hwhite.1, hwhite.2.1, fun hn => hwhite.2.2 (hsub hn)⟩

/-- A visit of a white node the path leads to. -/
def Visits (nodes : List PyStr) (graph : PyStr → List PyStr) (depth : ℕ) : Prop :=
  ∀ node s finished, Searching nodes graph s finished → s.color node = some .white →
    (∀ last ∈ s.path.getLast?, Refers nodes graph last node) →
    Outcome nodes graph depth s finished [node] (visit graph depth node s)

theorem visitNeighbors_outcome {depth : ℕ} (hvisits : Visits nodes graph depth) {node : PyStr} {neighbors : List PyStr}
    (hneighbors : ∀ n ∈ neighbors, n ∈ nodes → Refers nodes graph node n) {s : Search} {finished : List PyStr}
    (h : Searching nodes graph s finished) (hlast : s.path.getLast? = some node) :
    Outcome nodes graph depth s finished neighbors (visitNeighbors (visit graph depth) neighbors s) := by
  induction neighbors generalizing s finished with
  | nil => exact Or.inr (Or.inr ⟨s, finished, rfl, h, rfl, List.Subset.refl _, fun n hn => absurd hn List.not_mem_nil⟩)
  | cons neighbor rest ih =>
    have hrest : ∀ n ∈ rest, n ∈ nodes → Refers nodes graph node n := fun n hn => hneighbors n (List.mem_cons_of_mem _ hn)
    -- a neighbour that needs no visit leaves the rest of the loop
    have hskip : ∀ (s' : Search) (finished' : List PyStr), Searching nodes graph s' finished' → s'.path = s.path →
        finished ⊆ finished' → (neighbor ∈ nodes → neighbor ∈ finished') →
        Outcome nodes graph depth s finished (neighbor :: rest) (visitNeighbors (visit graph depth) rest s') := by
      intro s' finished' h' hpath hsub hdone
      rcases ih hrest h' (hpath ▸ hlast) with ⟨e, he, hdepth⟩ | hcycle | ⟨s2, finished2, hok, h2, hpath2, hsub2, hgoals⟩
      · exact Or.inl ⟨e, he, hdepth.trans_le (whites_mono h h' hpath hsub)⟩
      · exact Or.inr (Or.inl hcycle)
      · refine Or.inr (Or.inr ⟨s2, finished2, hok, h2, hpath2.trans hpath, List.Subset.trans hsub hsub2, ?_⟩)
        intro n hn hnode
        rcases List.mem_cons.mp hn with rfl | hn
        · exact hsub2 (hdone hnode)
        · exact hgoals n hn hnode
    rw [visitNeighbors]
    cases hcolor : s.color neighbor with
    | none => exact hskip s finished h rfl (List.Subset.refl _) fun hnode => absurd hnode ((h.known neighbor).mp hcolor)
    | some color =>
      have hnode : neighbor ∈ nodes := by
        by_contra hunknown
        rw [(h.known neighbor).mpr hunknown] at hcolor
        cases hcolor
      have hedge := hneighbors neighbor List.mem_cons_self hnode
      cases color with
      | black => exact hskip s finished h rfl (List.Subset.refl _) fun _ => (h.black neighbor).mp hcolor
      | gray =>
        refine Or.inr (Or.inl ⟨_, s, rfl, ?_⟩)
        refine isCycle_of_path h.distinct h.walk ((h.gray neighbor).mp hcolor) fun last hmem => ?_
        rw [hlast] at hmem
        cases hmem
        exact hedge
      | white =>
        have hvisit := hvisits neighbor s finished h hcolor fun last hmem => by
          rw [hlast] at hmem
          cases hmem
          exact hedge
        rcases hvisit with ⟨e, he, hdepth⟩ | ⟨cycle, s', hok, hcycle⟩ | ⟨s', finished', hok, h', hpath, hsub, hgoal⟩
        · refine Or.inl ⟨e, ?_, hdepth⟩
          dsimp only
          rw [he]
          rfl
        · refine Or.inr (Or.inl ⟨cycle, s', ?_, hcycle⟩)
          dsimp only
          rw [hok]
          rfl
        · have hnext := hskip s' finished' h' hpath hsub (hgoal neighbor (List.mem_singleton_self _))
          dsimp only
          rw [hok]
          exact hnext

theorem Searching.enter {s : Search} {finished : List PyStr} (h : Searching nodes graph s finished) {node : PyStr}
    (hwhite : s.color node = some .white) (hlast : ∀ last ∈ s.path.getLast?, Refers nodes graph last node) :
    Searching nodes graph ⟨Function.update s.color node (some .gray), s.path ++ [node]⟩ finished := by
  obtain ⟨hnode, hpath, hunfinished⟩ := (h.white_iff node).mp hwhite
  constructor
  · intro n
    dsimp only
    rcases eq_or_ne n node with rfl | hne
    · simp [hnode]
    · rw [Function.update_of_ne hne]
      exact h.known n
  · intro n
    dsimp only
    rcases eq_or_ne n node with rfl | hne
    · simp
    · rw [Function.update_of_ne hne, h.gray]
      simp [hne]
  · intro n
    dsimp only
    rcases eq_or_ne n node with rfl | hne
    · simp [hunfinished]
    · rw [Function.update_of_ne hne]
      exact h.black n
  · exact h.order
  · simpa [List.nodup_append, h.distinct] using fun a ha (heq : a = node) => hpath (heq ▸ ha)
  · refine h.walk.append (List.isChain_singleton node) ?_
    intro last hmem first hfirst
    obtain rfl : node = first := by simpa using hfirst
    exact hlast last hmem

/-- Leaving the node at the end of the path, everything it leads to being finished. -/
theorem Searching.leave {s : Search} {path finished : List PyStr} {node : PyStr} (h : Searching nodes graph s finished)
    (hpath : s.path = path ++ [node]) (hdone : ∀ n, Refers nodes graph node n → n ∈ finished) :
    Searching nodes graph ⟨Function.update s.color node (some .black), s.path.dropLast⟩ (node :: finished) := by
  have hgray := (h.gray node).mpr (by simp [hpath])
  have hdistinct := h.distinct
  rw [hpath, List.nodup_append] at hdistinct
  have hdrop : s.path.dropLast = path := by rw [hpath, List.dropLast_concat]
  have hout : node ∉ path := fun hmem => hdistinct.2.2 node hmem node (List.mem_singleton_self node) rfl
  constructor
  · intro n
    dsimp only
    rcases eq_or_ne n node with rfl | hne
    · have hnode := mt (h.known n).mpr (by rw [hgray]; nofun)
      simpa using hnode
    · rw [Function.update_of_ne hne]
      exact h.known n
  · intro n
    dsimp only
    rw [hdrop]
    rcases eq_or_ne n node with rfl | hne
    · simp [hout]
    · rw [Function.update_of_ne hne, h.gray, hpath]
      simp [hne]
  · intro n
    dsimp only
    rcases eq_or_ne n node with rfl | hne
    · simp
    · rw [Function.update_of_ne hne, h.black]
      simp [hne]
  · refine ⟨fun hmem => ?_, hdone, h.order⟩
    rw [← h.black, hgray] at hmem
    cases hmem
  · dsimp only
    rw [hdrop]
    exact hdistinct.1
  · have hwalk := h.walk
    dsimp only
    rw [hdrop]
    rw [hpath] at hwalk
    exact hwalk.left_of_append

theorem whites_enter {s : Search} {node : PyStr} (hwhite : s.color node = some .white) (hnode : node ∈ nodes) :
    whites nodes ⟨Function.update s.color node (some .gray), s.path ++ [node]⟩ < whites nodes s := by
  have hother : ∀ n, n ≠ node → (decide (Function.update s.color node (some .gray) n = some .white) =
      decide (s.color n = some .white)) := fun n hne => by rw [Function.update_of_ne hne]
  unfold whites
  dsimp only
  induction nodes with
  | nil => exact absurd hnode List.not_mem_nil
  | cons n rest ih =>
    have hle : rest.countP (fun n => Function.update s.color node (some Color.gray) n = some .white) ≤
        rest.countP fun n => s.color n = some .white := by
      refine List.countP_mono_left fun m _ hm => ?_
      rcases eq_or_ne m node with rfl | hne
      · simp at hm
      · rwa [hother m hne] at hm
    rw [List.countP_cons, List.countP_cons]
    rcases eq_or_ne n node with rfl | hne
    · simp only [Function.update_self, hwhite, decide_true, if_true]
      simpa using Nat.lt_succ_of_le hle
    · have hlt := ih ((List.mem_cons.mp hnode).resolve_left hne.symm)
      rw [hother n hne]
      omega

theorem visits (depth : ℕ) : Visits nodes graph depth := by
  induction depth with
  | zero =>
    intro node s finished h hwhite _
    refine Or.inl ⟨_, rfl, ?_⟩
    exact List.countP_pos_iff.mpr ⟨node, ((h.white_iff node).mp hwhite).1, decide_eq_true hwhite⟩
  | succ depth ih =>
    intro node s finished h hwhite hlast
    have hnode := ((h.white_iff node).mp hwhite).1
    have hentered := h.enter hwhite hlast
    have hloop := @visitNeighbors_outcome nodes graph depth ih _ (graph node) (fun n hn hmem => ⟨hnode, hmem, hn⟩) _ _ hentered
      (by simp)
    rw [visit]
    rcases hloop with ⟨e, he, hdepth⟩ | ⟨cycle, s', hok, hcycle⟩ | ⟨s', finished', hok, h', hpath, hsub, hgoals⟩
    · refine Or.inl ⟨e, by rw [he]; rfl, ?_⟩
      have := whites_enter hwhite hnode
      omega
    · exact Or.inr (Or.inl ⟨cycle, s', by rw [hok]; rfl, hcycle⟩)
    · have hleft := h'.leave hpath fun n hn => hgoals n hn.2.2 hn.2.1
      refine Or.inr (Or.inr ⟨_, node :: finished', by rw [hok]; rfl, hleft, ?_, ?_, ?_⟩)
      · rw [hpath, List.dropLast_concat]
      · exact List.Subset.trans hsub (List.subset_cons_self _ _)
      · intro n hn _
        rw [List.mem_singleton.mp hn]
        exact List.mem_cons_self

theorem searchFrom_outcome {depth : ℕ} {starts : List PyStr} (hstarts : ∀ n ∈ starts, n ∈ nodes) {s : Search}
    {finished : List PyStr} (h : Searching nodes graph s finished) (hpath : s.path = []) (hdepth : whites nodes s ≤ depth) :
    (∃ cycle, searchFrom graph depth starts s = .ok (some cycle) ∧ IsCycle (Refers nodes graph) cycle) ∨
      (searchFrom graph depth starts s = .ok none ∧
        ∃ finished', Finished (Refers nodes graph) finished' ∧ finished ⊆ finished' ∧ ∀ n ∈ starts, n ∈ finished') := by
  induction starts generalizing s finished with
  | nil => exact Or.inr ⟨rfl, finished, h.order, List.Subset.refl _, fun n hn => absurd hn List.not_mem_nil⟩
  | cons node rest ih =>
    have hnode := hstarts node List.mem_cons_self
    have hrest : ∀ n ∈ rest, n ∈ nodes := fun n hn => hstarts n (List.mem_cons_of_mem _ hn)
    rw [searchFrom]
    by_cases hwhite : s.color node = some .white
    · rw [hwhite]
      dsimp only
      rcases visits depth node s finished h hwhite (by simp [hpath]) with
        ⟨e, he, hlt⟩ | ⟨cycle, s', hok, hcycle⟩ | ⟨s', finished', hok, h', hpath', hsub, hgoal⟩
      · omega
      · exact Or.inl ⟨cycle, by rw [hok]; rfl, hcycle⟩
      · rw [hok]
        rcases ih hrest h' (hpath'.trans hpath) ((whites_mono h h' hpath' hsub).trans hdepth) with
          hcycle | ⟨hnone, all, horder, hsub', hall⟩
        · exact Or.inl hcycle
        · refine Or.inr ⟨hnone, all, horder, List.Subset.trans hsub hsub', ?_⟩
          intro n hn
          rcases List.mem_cons.mp hn with rfl | hn
          · exact hsub' (hgoal n (List.mem_singleton_self n) hnode)
          · exact hall n hn
    · -- with an empty path nothing is grey
      have hblack : node ∈ finished := by
        by_contra hunfinished
        exact hwhite ((h.white_iff node).mpr ⟨hnode, by simp [hpath], hunfinished⟩)
      rw [(h.black node).mpr hblack]
      dsimp only
      rcases ih hrest h hpath hdepth with hcycle | ⟨hnone, all, horder, hsub, hall⟩
      · exact Or.inl hcycle
      · refine Or.inr ⟨hnone, all, horder, hsub, ?_⟩
        intro n hn
        rcases List.mem_cons.mp hn with rfl | hn
        · exact hsub hblack
        · exact hall n hn

/-- With room for one call a node the search ends, with a cycle exactly if there is one. -/
theorem findCycle_exact (nodes : List PyStr) (graph : PyStr → List PyStr) {depth : ℕ} (hdepth : nodes.length ≤ depth) :
    ∃ found, findCycle depth nodes graph = .ok found ∧ (found = none ↔ Acyclic (Refers nodes graph)) ∧
      ∀ cycle ∈ found, IsCycle (Refers nodes graph) cycle := by
  have hstart : Searching nodes graph ⟨fun node => if node ∈ nodes then some .white else none, []⟩ [] := by
    constructor
    all_goals try (intro n; by_cases hn : n ∈ nodes <;> simp [hn])
    · trivial
    · exact List.nodup_nil
    · exact List.IsChain.nil
  rcases @searchFrom_outcome nodes graph depth (nodes.insertionSort (· ≤ ·))
    (fun n hn => (List.mem_insertionSort _).mp hn) _ _ hstart rfl (List.countP_le_length.trans hdepth) with
    ⟨cycle, hfound, hcycle⟩ | ⟨hfound, finished, horder, -, hall⟩
  · refine ⟨some cycle, hfound, iff_of_false nofun hcycle.not_acyclic, ?_⟩
    intro c hc
    cases hc
    exact hcycle
  · refine ⟨none, hfound, iff_of_true rfl ?_, nofun⟩
    exact horder.acyclic fun n m hnm => hall n ((List.mem_insertionSort _).mpr hnm.1)

end

/-! ## What the validator accepts -/

section
variable (yaml : Yaml)

/-- The references of a document, all of them texts. -/
def referencesOf (document : Entries) : List PyStr :=
  ((references yaml document).toOption.getD []).filterMap PyValue.text?

/-- Named resources whose documents have nothing wrong with them and list their references by name. -/
structure WellTyped (parsed : List (SourceUnit × Entries)) : Prop where
  named : ∀ p ∈ parsed, p.1.resourceId ≠ []
  typed : ∀ p ∈ parsed, frontendDiagnose yaml p.1 p.2 = .ok []
  listed : ∀ p ∈ parsed, ∃ names : List PyStr, references yaml p.2 = .ok (names.map .str)

/-- Every reference of these documents names one of them, and no resource leads back to itself. -/
def ReferencesSound (declared : List (PyStr × Entries)) : Prop :=
  (∀ d ∈ declared, ∀ name ∈ referencesOf yaml d.2, name ∈ declared.map Prod.fst) ∧
    Acyclic fun a b => ∃ d ∈ declared, d.1 = a ∧ b ∈ referencesOf yaml d.2

/-- The documents of a request, those of superseded versions included. -/
def declarations (parsed : List (SourceUnit × Entries)) : List (PyStr × Entries) := parsed.map fun p => (p.1.resourceId, p.2)

end

section
variable {yaml : Yaml} {parsed : List (SourceUnit × Entries)}

theorem mem_byId {d : PyStr × Entries} (h : d ∈ byId parsed) : d ∈ declarations parsed := by
  rcases Dict.mem_foldl_put (fun p : SourceUnit × Entries => p.1.resourceId) (fun p => p.2) parsed h with h | ⟨p, hp, rfl⟩
  · cases h
  · exact List.mem_map.mpr ⟨p, hp, rfl⟩

theorem byId_names (name : PyStr) : name ∈ (byId parsed).map Prod.fst ↔ name ∈ (declarations parsed).map Prod.fst := by
  rw [byId, Dict.keys_foldl_put, declarations, List.map_map]
  simp

theorem ReferencesSound.byId (h : ReferencesSound yaml (declarations parsed)) : ReferencesSound yaml (byId parsed) := by
  obtain ⟨hresolved, hacyclic⟩ := h
  refine ⟨fun d hd name hname => (byId_names name).mpr (hresolved d (mem_byId hd) name hname), ?_⟩
  refine hacyclic.mono ?_
  rintro a b ⟨d, hd, rfl, hb⟩
  exact ⟨d, mem_byId hd, rfl, hb⟩

theorem requireResolvedReferences_eq_ok {defined names : List PyStr} :
    requireResolvedReferences defined (names.map .str) = .ok () ↔
      UniqueStrings defined ∧ ∀ name ∈ names, name ∈ defined := by
  have htexts : (names.map PyValue.str).filterMap PyValue.text? = names := by
    rw [List.filterMap_map]
    exact List.filterMap_some
  rw [requireResolvedReferences, htexts]
  constructor
  · intro h
    obtain ⟨unique, hunique, h⟩ := bind_eq_ok.1 h
    obtain ⟨-, h⟩ := check_bind.1 h
    obtain ⟨-, -, h⟩ := bind_eq_ok.1 h
    rw [refuseIf_eq_ok, not_not] at h
    refine ⟨uniqueStrings_eq_ok.1 ⟨unique, hunique⟩, fun name hname => ?_⟩
    have hsorted : name ∈ names.dedup.insertionSort (· ≤ ·) :=
      (List.mem_insertionSort _).mpr (List.mem_dedup.mpr hname)
    simpa using List.filter_eq_nil_iff.mp h name hsorted
  · rintro ⟨hunique, hall⟩
    have hmem : ∀ name ∈ names.dedup.insertionSort (· ≤ ·), name ∈ defined := fun name hname =>
      hall name (List.mem_dedup.mp ((List.mem_insertionSort _).mp hname))
    obtain ⟨u, hu⟩ := uniqueStrings_eq_ok.2 hunique
    obtain ⟨v, hv⟩ := uniqueStrings_eq_ok.2
      (show UniqueStrings (names.dedup.insertionSort (· ≤ ·)) from
        ⟨fun name hname => hunique.1 name (hmem name hname), ((List.perm_insertionSort _ _).nodup_iff).mpr (List.nodup_dedup _)⟩)
    refine bind_eq_ok.2 ⟨u, hu, check_bind.2 ⟨?_, bind_eq_ok.2 ⟨v, hv, ?_⟩⟩⟩
    · rw [refuseIf_eq_ok]
      rintro ⟨item, hitem, hnone⟩
      obtain ⟨name, -, rfl⟩ := List.mem_map.mp hitem
      cases hnone
    · rw [refuseIf_eq_ok, not_not]
      exact List.filter_eq_nil_iff.mpr fun name hname => by simpa using hmem name hname

theorem acyclic_graphOf {documents : List (PyStr × Entries)} (hnodup : (documents.map Prod.fst).Nodup)
    (hresolved : ∀ d ∈ documents, ∀ name ∈ referencesOf yaml d.2, name ∈ documents.map Prod.fst) :
    Acyclic (Refers (documents.map Prod.fst) (graphOf yaml documents)) ↔
      Acyclic fun a b => ∃ d ∈ documents, d.1 = a ∧ b ∈ referencesOf yaml d.2 := by
  have hedge : ∀ a b, Refers (documents.map Prod.fst) (graphOf yaml documents) a b ↔
      ∃ d ∈ documents, d.1 = a ∧ b ∈ referencesOf yaml d.2 := by
    intro a b
    constructor
    · rintro ⟨-, -, hb⟩
      rw [graphOf] at hb
      cases hfind : Dict.find documents a with
      | none =>
        rw [hfind] at hb
        cases hb
      | some document =>
        rw [hfind] at hb
        exact ⟨(a, document), Dict.mem_of_find hfind, rfl, hb⟩
    · rintro ⟨d, hd, rfl, hb⟩
      refine ⟨List.mem_map_of_mem hd, hresolved d hd b hb, ?_⟩
      rw [graphOf, (Dict.find_eq_some_iff hnodup d.1 d.2).mpr hd]
      exact hb
  exact ⟨fun h => h.mono fun a b => (hedge a b).mpr, fun h => h.mono fun a b => (hedge a b).mp⟩

theorem frontendValidate_eq_ok (h : WellTyped yaml parsed) {depth : ℕ} (hdepth : parsed.length ≤ depth) :
    frontendValidate yaml depth parsed = .ok () ↔ ReferencesSound yaml (byId parsed) := by
  have hnodup : ((byId parsed).map Prod.fst).Nodup := Dict.nodup_foldl_put _ _ _ List.nodup_nil
  have hunique : UniqueStrings ((byId parsed).map Prod.fst) := by
    refine ⟨fun name hname => ?_, hnodup⟩
    obtain ⟨d, hd, rfl⟩ := List.mem_map.mp ((byId_names name).mp hname)
    obtain ⟨p, hp, rfl⟩ := List.mem_map.mp hd
    exact h.named p hp
  have hshort : ((byId parsed).map Prod.fst).length ≤ depth := by
    have hsub : (byId parsed).map Prod.fst ⊆ (declarations parsed).map Prod.fst := fun name => (byId_names name).mp
    have hle := (List.subperm_of_subset hnodup hsub).length_le
    simp only [declarations, List.length_map] at hle ⊢
    omega
  have hdiagnosed : parsed.mapM (fun p => frontendDiagnose yaml p.1 p.2) = .ok (parsed.map fun _ => []) :=
    mapM_ok h.typed
  have hclean : (parsed.map fun _ => ([] : List C1Diagnostic)).flatten = [] := by simp
  have hlisted : ∀ d ∈ byId parsed, references yaml d.2 = .ok ((referencesOf yaml d.2).map .str) := by
    intro d hd
    obtain ⟨p, hp, rfl⟩ := List.mem_map.mp (mem_byId hd)
    obtain ⟨names, hnames⟩ := h.listed p hp
    have htexts : referencesOf yaml p.2 = names := by
      rw [referencesOf, hnames]
      exact (List.filterMap_map).trans List.filterMap_some
    rw [htexts, hnames]
  have hreferenced := mapM_ok hlisted
  have hflat : ((byId parsed).map fun d => (referencesOf yaml d.2).map PyValue.str).flatten =
      ((byId parsed).flatMap fun d => referencesOf yaml d.2).map .str := by
    rw [List.map_flatMap, List.flatMap_def]
  have htext : ∀ item ∈ ((byId parsed).flatMap fun d => referencesOf yaml d.2).map PyValue.str, ∃ s, item = .str s :=
    fun item hitem => (List.mem_map.mp hitem).imp fun s hs => hs.2.symm
  have hhashable : ¬ ∃ item ∈ ((byId parsed).flatMap fun d => referencesOf yaml d.2).map PyValue.str,
      PyValue.hashable item = false := by
    rintro ⟨item, hitem, hfalse⟩
    obtain ⟨s, rfl⟩ := htext item hitem
    cases hfalse
  have hsortable : Sortable (((byId parsed).flatMap fun d => referencesOf yaml d.2).map PyValue.str) := by
    intro a ha b hb
    obtain ⟨s, rfl⟩ := htext a ha
    obtain ⟨t, rfl⟩ := htext b hb
    exact Or.inr rfl
  have hresolves : (∀ name ∈ (byId parsed).flatMap fun d => referencesOf yaml d.2, name ∈ (byId parsed).map Prod.fst) ↔
      ∀ d ∈ byId parsed, ∀ name ∈ referencesOf yaml d.2, name ∈ (byId parsed).map Prod.fst := by
    simp only [List.mem_flatMap, forall_exists_index, and_imp]
    exact ⟨fun hall d hd name hname => hall name d hd hname, fun hall name d hd hname => hall d hd name hname⟩
  obtain ⟨found, hfound, hexact, -⟩ := findCycle_exact ((byId parsed).map Prod.fst) (graphOf yaml (byId parsed)) hshort
  constructor
  · intro hvalid
    obtain ⟨diagnostics, hdiagnostics, hvalid⟩ := bind_eq_ok.1 hvalid
    obtain ⟨-, hvalid⟩ := check_bind.1 hvalid
    obtain ⟨referenced, hreferenced', hvalid⟩ := bind_eq_ok.1 hvalid
    obtain ⟨-, hvalid⟩ := check_bind.1 hvalid
    obtain ⟨-, hvalid⟩ := check_bind.1 hvalid
    obtain ⟨hresolved, hvalid⟩ := check_bind.1 hvalid
    obtain ⟨found', hfound', hvalid⟩ := bind_eq_ok.1 hvalid
    rw [liftPy_eq_ok, hreferenced, Except.ok.injEq] at hreferenced'
    subst hreferenced'
    rw [hflat, requireResolvedReferences_eq_ok, hresolves] at hresolved
    rw [liftPy_eq_ok, hfound, Except.ok.injEq] at hfound'
    subst hfound'
    cases found with
    | none => exact ⟨hresolved.2, (acyclic_graphOf hnodup hresolved.2).mp (hexact.mp rfl)⟩
    | some cycle =>
      obtain ⟨diagnostic, -, hvalid⟩ := bind_eq_ok.1 hvalid
      cases hvalid
  · rintro ⟨hresolved, hacyclic⟩
    have hnone : found = none := hexact.mpr ((acyclic_graphOf hnodup hresolved).mpr hacyclic)
    subst hnone
    refine bind_eq_ok.2 ⟨_, liftPy_eq_ok.2 hdiagnosed, check_bind.2 ⟨?_, bind_eq_ok.2
      ⟨_, liftPy_eq_ok.2 hreferenced, ?_⟩⟩⟩
    · rw [refuseIf_eq_ok, hclean]
      exact fun hne => hne rfl
    rw [hflat]
    refine check_bind.2 ⟨refuseIf_eq_ok.2 hhashable, check_bind.2 ⟨refuseIf_eq_ok.2 (not_not.mpr hsortable),
      check_bind.2 ⟨?_, bind_eq_ok.2 ⟨none, liftPy_eq_ok.2 hfound, rfl⟩⟩⟩⟩
    exact requireResolvedReferences_eq_ok.2 ⟨hunique, hresolves.mpr hresolved⟩

end

/-- **The search for a cycle is exact, the validator only among the documents it keeps.** Of a well-typed
request it accepts exactly the sound references of those documents; it misses a superseded version whose
references do not resolve or lead back where those of the kept ones are sound. -/
theorem reference_phase_exact (yaml : Yaml) (depth : ℕ) (parsed : List (SourceUnit × Entries))
    (htyped : WellTyped yaml parsed) (hdepth : parsed.length ≤ depth) :
    (∀ (nodes : List PyStr) (graph : PyStr → List PyStr) (depth : ℕ), nodes.length ≤ depth →
      ∃ found, findCycle depth nodes graph = .ok found ∧ (found = none ↔ Acyclic (Refers nodes graph)) ∧
        ∀ cycle ∈ found, IsCycle (Refers nodes graph) cycle) ∧
    ((frontendValidate yaml depth parsed = .ok () ↔ ReferencesSound yaml (declarations parsed)) ↔
      (ReferencesSound yaml (byId parsed) → ReferencesSound yaml (declarations parsed))) := by
  refine ⟨fun nodes graph depth hdepth => findCycle_exact nodes graph hdepth, ?_⟩
  rw [frontendValidate_eq_ok htyped hdepth]
  exact ⟨Iff.mp, fun h => ⟨h, ReferencesSound.byId⟩⟩

/-! ### A superseded version -/

section Superseded

def referringContent : Bytes :=
  utf8Encode (py "\x7b\"id\":\"r\",\"fields\":\x7b\x7d,\"field_types\":\x7b\x7d,\"references\":[\"s\"]\x7d")

def referringDocument : Entries := sampleDocument ++ [(.str (py "references"), .list [.str (py "s")])]

/-- `SourceUnit.create("r", "1", "JSON", ...)`, with a reference to a resource that is not there. -/
def referringUnit : SourceUnit :=
  { sampleUnit (py "1") with
    content := referringContent
    contentDigest := (canonicalDigest (.mapping [(.str (py "bytes_hex"), .str (hex referringContent))])).toOption.getD [] }

def supersedingRequest : CompilerRequest :=
  { sampleRequest [py "1"] (by decide) (by decide) with
    sources := [referringUnit, sampleUnit (py "2")]
    sourced := List.cons_ne_nil _ _
    unique := by decide
    resolved := by
      intro source hsource reference hreference
      rcases List.mem_pair.mp hsource with rfl | rfl <;> cases hreference }

def supersedingParsed : List (SourceUnit × Entries) :=
  [(referringUnit, referringDocument), (sampleUnit (py "2"), sampleDocument)]

theorem supersedingParsed_parsed : supersedingRequest.sources.mapM (parsePair sampleYaml) = .ok supersedingParsed := by
  have hloads : jsonLoads referringContent = .ok (.mapping referringDocument) := by decide +kernel
  have hparse : parse sampleYaml referringUnit = .ok referringDocument := by
    unfold parse
    simp only [referringUnit, sampleUnit, hloads]
    rfl
  rw [forall₂_of_mapM]
  refine .cons (parsePair_eq_ok.2 ⟨rfl, hparse⟩) (.cons (parsePair_eq_ok.2 ⟨rfl, sampleUnit_parsed _⟩) .nil)

theorem supersedingParsed_wellTyped : WellTyped sampleYaml supersedingParsed := by
  refine ⟨by decide, by decide, ?_⟩
  intro p hp
  rcases List.mem_pair.mp hp with rfl | rfl
  · exact ⟨[py "s"], rfl⟩
  · exact ⟨[], rfl⟩

theorem reference_phase_exact_superseding :
    (∀ (nodes : List PyStr) (graph : PyStr → List PyStr) (depth : ℕ), nodes.length ≤ depth →
      ∃ found, findCycle depth nodes graph = .ok found ∧ (found = none ↔ Acyclic (Refers nodes graph)) ∧
        ∀ cycle ∈ found, IsCycle (Refers nodes graph) cycle) ∧
    ((frontendValidate sampleYaml 2 supersedingParsed = .ok () ↔ ReferencesSound sampleYaml (declarations supersedingParsed)) ↔
      (ReferencesSound sampleYaml (byId supersedingParsed) → ReferencesSound sampleYaml (declarations supersedingParsed))) :=
  reference_phase_exact sampleYaml 2 supersedingParsed supersedingParsed_wellTyped (by decide)

/-- The validator accepts the request although its first source refers to a resource it does not have. -/
theorem superseded_reference_accepted :
    supersedingRequest.sources.mapM (parsePair sampleYaml) = .ok supersedingParsed ∧
      WellTyped sampleYaml supersedingParsed ∧ frontendValidate sampleYaml 2 supersedingParsed = .ok () ∧
        ¬ ReferencesSound sampleYaml (declarations supersedingParsed) := by
  refine ⟨supersedingParsed_parsed, supersedingParsed_wellTyped, by decide, ?_⟩
  rintro ⟨hresolved, -⟩
  have hmember : (py "r", referringDocument) ∈ declarations supersedingParsed := List.mem_cons_self
  have hname : py "s" ∈ referencesOf sampleYaml referringDocument := List.mem_singleton_self _
  exact absurd (hresolved _ hmember _ hname) (by decide)

end Superseded

end OcorRuntime.Compiler
