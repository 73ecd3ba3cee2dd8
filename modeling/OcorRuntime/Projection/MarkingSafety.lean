import OcorRuntime.Projection.Publication

/-! What the marking join of the Jena projection keeps apart, over histories of
publications: a read recombines all that was ever said of a resource. -/
namespace OcorRuntime.Projection.Jena
open Marking
set_option autoImplicit false
set_option maxHeartbeats 250000

/-- The triples after the calls, from the empty store; a call that is refused writes nothing. -/
def after (history : List Publication) : List Triple :=
  run (fun store p => (publish store p).toOption.getD store) [] history

/-- What the accepted calls published. -/
def entries (history : List Publication) : List Entry := history.filterMap fun p => (entryOf p).toOption

/-! ## The triples of a history -/

theorem mem_insertTriple {store : List Triple} {s t : Triple} : t ∈ insertTriple store s ↔ t ∈ store ∨ t = s := by
  unfold insertTriple
  split_ifs with h
  · constructor
    · exact Or.inl
    · rintro (ht | rfl)
      · exact ht
      · exact h
  · rw [List.mem_append, List.mem_singleton]

theorem mem_foldl_insert (ts store : List Triple) (t : Triple) :
    t ∈ ts.foldl insertTriple store ↔ t ∈ store ∨ t ∈ ts := by
  induction ts generalizing store with
  | nil => simp
  | cons s ts ih => rw [List.foldl_cons, ih, mem_insertTriple, List.mem_cons, or_assoc]

theorem mem_after (history : List Publication) (t : Triple) : t ∈ after history ↔ ∃ e ∈ entries history, t ∈ e.triples := by
  induction history using List.reverseRecOn with
  | nil => simp [after, entries]
  | append_singleton history p ih =>
    have hlast : entries (history ++ [p]) = entries history ++ (entryOf p).toOption.toList := by
      unfold entries
      rw [List.filterMap_append]
      cases hp : (entryOf p).toOption <;> simp [hp]
    rw [hlast, after, run_append, ← after]
    cases hentry : entryOf p with
    | error e => simp [publish, hentry, bind, Except.bind, Except.toOption, ih]
    | ok e =>
      simp only [run_cons, run_nil, publish, hentry, bind, Except.bind, pure, Except.pure, Except.toOption,
        Option.getD_some, mem_foldl_insert, ih, Option.toList_some, List.mem_append, List.mem_singleton, or_and_right,
        exists_or, exists_eq_left]

theorem typed_mem_triples {e : Entry} {resource : PyStr} : .typed resource ∈ e.triples ↔ e.resource = resource := by
  simp [Entry.triples, eq_comm]

theorem stated_mem_triples {e : Entry} {resource value : PyStr} {property : Property} :
    .stated resource property value ∈ e.triples ↔ e.resource = resource ∧ e.value property = value := by
  cases property <;> simp [Entry.triples, eq_comm]

theorem stated_mem_after {history : List Publication} {resource value : PyStr} {property : Property} :
    .stated resource property value ∈ after history ↔
      ∃ e ∈ entries history, e.resource = resource ∧ e.value property = value := by
  rw [mem_after]
  simp only [stated_mem_triples]

/-! ## The rows of a history -/

theorem mem_resources {store : List Triple} {resource : PyStr} : resource ∈ resources store ↔ .typed resource ∈ store := by
  rw [resources, List.mem_filterMap]
  constructor
  · rintro ⟨t, ht, heq⟩
    cases t with
    | typed r =>
      cases heq
      exact ht
    | stated r p v => cases heq
  · intro h
    exact ⟨_, h, rfl⟩

theorem mem_valuesOf {store : List Triple} {resource value : PyStr} {property : Property} :
    value ∈ valuesOf store resource property ↔ .stated resource property value ∈ store := by
  rw [valuesOf, List.mem_filterMap]
  constructor
  · rintro ⟨t, ht, heq⟩
    cases t with
    | typed r => cases heq
    | stated r p v =>
      dsimp only at heq
      split_ifs at heq with hsame
      obtain ⟨rfl, rfl⟩ := hsame
      cases heq
      exact ht
  · intro h
    exact ⟨_, h, if_pos ⟨rfl, rfl⟩⟩

theorem mem_rows {store : List Triple} {row : Row} : row ∈ rows store ↔
    .typed row.resource ∈ store ∧ ∀ property, .stated row.resource property (row.value property) ∈ store := by
  simp only [rows, List.mem_flatMap, List.mem_map, mem_resources, mem_valuesOf]
  constructor
  · rintro ⟨resource, htyped, label, hlabel, classification, hclass, provenance, hprov, rfl⟩
    refine ⟨htyped, fun property => ?_⟩
    cases property
    · exact hclass
    · exact hlabel
    · exact hprov
  · rintro ⟨htyped, hstated⟩
    refine ⟨row.resource, htyped, row.value .label, hstated .label, row.value .classification, hstated .classification,
      row.value .provenanceRef, hstated .provenanceRef, ?_⟩
    obtain ⟨resource, value⟩ := row
    congr 1
    funext property
    cases property <;> rfl

theorem mem_rows_after {history : List Publication} {row : Row} : row ∈ rows (after history) ↔
    ∀ property, ∃ e ∈ entries history, e.resource = row.resource ∧ e.value property = row.value property := by
  rw [mem_rows, mem_after]
  simp only [stated_mem_after, typed_mem_triples]
  constructor
  · exact And.right
  · intro h
    obtain ⟨e, he, hresource, -⟩ := h .label
    exact ⟨⟨e, he, hresource⟩, h⟩

theorem entry_mem_rows {history : List Publication} {e : Entry} (he : e ∈ entries history) :
    ⟨e.resource, e.value⟩ ∈ rows (after history) :=
  mem_rows_after.2 fun _ => ⟨e, he, rfl, rfl⟩

section Reads
variable {engine : MarkingEngine} {clearance : MarkingSet}

theorem keepAuthorized_eq_ok : ∀ {candidates kept : List Row}, keepAuthorized engine clearance candidates = .ok kept →
    (∀ row ∈ candidates, ∃ b, decides engine clearance (row.value .classification) = .ok b) ∧
      ∀ row, row ∈ kept ↔ row ∈ candidates ∧ decides engine clearance (row.value .classification) = .ok true
  | [], kept, h => by
      cases h
      simp
  | row :: rest, kept, h => by
      obtain ⟨authorized, hdecides, h⟩ := bind_eq_ok.1 h
      obtain ⟨tail, htail, h⟩ := bind_eq_ok.1 h
      obtain ⟨hdecided, hmem⟩ := keepAuthorized_eq_ok htail
      cases h
      refine ⟨List.forall_mem_cons.mpr ⟨⟨authorized, hdecides⟩, hdecided⟩, fun x => ?_⟩
      cases authorized with
      | true =>
        simp only [if_true, List.mem_cons, hmem]
        constructor
        · rintro (rfl | hx)
          · exact ⟨Or.inl rfl, hdecides⟩
          · exact ⟨Or.inr hx.1, hx.2⟩
        · rintro ⟨rfl | hx, hok⟩
          · exact Or.inl rfl
          · exact Or.inr ⟨hx, hok⟩
      | false =>
        simp only [Bool.false_eq_true, if_false, List.mem_cons, hmem]
        constructor
        · exact fun hx => ⟨Or.inr hx.1, hx.2⟩
        · rintro ⟨rfl | hx, hok⟩
          · rw [hdecides] at hok
            cases hok
          · exact ⟨hx, hok⟩

theorem keepAuthorized_of_decided : ∀ {candidates : List Row},
    (∀ row ∈ candidates, ∃ b, decides engine clearance (row.value .classification) = .ok b) →
      ∃ kept, keepAuthorized engine clearance candidates = .ok kept
  | [], _ => ⟨[], rfl⟩
  | row :: rest, h => by
      obtain ⟨⟨b, hb⟩, hrest⟩ := List.forall_mem_cons.mp h
      obtain ⟨kept, hkept⟩ := keepAuthorized_of_decided hrest
      exact ⟨_, bind_eq_ok.2 ⟨b, hb, bind_eq_ok.2 ⟨kept, hkept, rfl⟩⟩⟩

/-- A listing that returns decided every row and holds those the clearance is authorized for. -/
theorem listAuthorized_eq_ok {store : List Triple} {listed : List Row}
    (h : listAuthorized engine clearance store = .ok listed) :
    (∀ row ∈ rows store, ∃ b, decides engine clearance (row.value .classification) = .ok b) ∧
      ∀ row, row ∈ listed ↔ row ∈ rows store ∧ decides engine clearance (row.value .classification) = .ok true := by
  obtain ⟨kept, hkept, h⟩ := bind_eq_ok.1 h
  obtain ⟨hdecided, hmem⟩ := keepAuthorized_eq_ok hkept
  cases h
  exact ⟨hdecided, fun row => by rw [List.mem_mergeSort, hmem]⟩

theorem listAuthorized_of_decided {store : List Triple}
    (h : ∀ row ∈ rows store, ∃ b, decides engine clearance (row.value .classification) = .ok b) :
    ∃ listed, listAuthorized engine clearance store = .ok listed := by
  obtain ⟨kept, hkept⟩ := keepAuthorized_of_decided h
  exact ⟨_, bind_eq_ok.2 ⟨kept, hkept, rfl⟩⟩

theorem existsAuthorized_of_listed {store : List Triple} {listed : List Row}
    (h : listAuthorized engine clearance store = .ok listed) (resource : PyStr) :
    existsAuthorized engine clearance store resource = .ok (listed.any fun row => decide (row.resource = resource)) :=
  bind_eq_ok.2 ⟨listed, h, rfl⟩

theorem any_resource {listed : List Row} {resource : PyStr} :
    (listed.any fun row => decide (row.resource = resource)) = true ↔ ∃ row ∈ listed, row.resource = resource := by
  simp

theorem toJsonLd_eq_ok {store graph : List Triple} {resource : PyStr}
    (h : toJsonLd engine clearance store resource = .ok graph) :
    existsAuthorized engine clearance store resource = .ok true ∧
      graph = store.filter fun t => decide (t.resource = resource) := by
  obtain ⟨-, h⟩ := check_bind_eq_ok.1 h
  obtain ⟨authorized, hexists, h⟩ := bind_eq_ok.1 h
  obtain ⟨hrefuse, h⟩ := check_bind_eq_ok.1 h
  have hauthorized := not_not.mp (refuseIf_eq_ok.1 hrefuse)
  rw [hauthorized] at hexists
  cases h
  exact ⟨hexists, rfl⟩

theorem toJsonLd_of_exists {store : List Triple} {resource : PyStr} (hiri : requireIri resource = .ok ())
    (h : existsAuthorized engine clearance store resource = .ok true) :
    toJsonLd engine clearance store resource = .ok (store.filter fun t => decide (t.resource = resource)) :=
  check_bind_eq_ok.2 ⟨hiri, bind_eq_ok.2 ⟨true, h, check_bind_eq_ok.2 ⟨refuseIf_eq_ok.2 (by simp), rfl⟩⟩⟩

end Reads

/-! ## Marking safety -/

section Safety
variable (engine : MarkingEngine) (clearance : MarkingSet)

/-- The clearance is authorized for what the entry is classified as. -/
def Cleared (e : Entry) : Prop := decides engine clearance (e.value .classification) = .ok true

instance (e : Entry) : Decidable (Cleared engine clearance e) := inferInstanceAs (Decidable (_ = _))

/-- The calls whose own classification the clearance is authorized for. -/
def authorizedCalls (history : List Publication) : List Publication :=
  history.filter fun p => (entryOf p).toOption.any fun e => decide (Cleared engine clearance e)

/-- Both answers are refusals, or both return the same set. -/
def SameSet {α : Type} (x y : Except PyError (List α)) : Prop :=
  match x, y with
  | .ok a, .ok b => ∀ v, v ∈ a ↔ v ∈ b
  | .error _, .error _ => True
  | _, _ => False

/-- Every value that is returned was published for that resource by a call the clearance is authorized for, and the
other calls make no difference to any answer. -/
structure MarkingSafe (history : List Publication) : Prop where
  listed : ∀ listed, listAuthorized engine clearance (after history) = .ok listed → ∀ row ∈ listed, ∀ property,
    ∃ e ∈ entries history, Cleared engine clearance e ∧ e.resource = row.resource ∧ e.value property = row.value property
  exported : ∀ resource graph, toJsonLd engine clearance (after history) resource = .ok graph → ∀ property value,
    .stated resource property value ∈ graph →
    ∃ e ∈ entries history, Cleared engine clearance e ∧ e.resource = resource ∧ e.value property = value
  existing : ∀ resource, existsAuthorized engine clearance (after history) resource = .ok true →
    ∃ e ∈ entries history, Cleared engine clearance e ∧ e.resource = resource
  sameList : SameSet (listAuthorized engine clearance (after history))
    (listAuthorized engine clearance (after (authorizedCalls engine clearance history)))
  sameExists : ∀ resource, existsAuthorized engine clearance (after history) resource =
    existsAuthorized engine clearance (after (authorizedCalls engine clearance history)) resource
  sameExport : ∀ resource, SameSet (toJsonLd engine clearance (after history) resource)
    (toJsonLd engine clearance (after (authorizedCalls engine clearance history)) resource)

/-- The engine decides every published classification, and no resource was published both ways. -/
structure Separated (history : List Publication) : Prop where
  decided : ∀ e ∈ entries history, ∃ b, decides engine clearance (e.value .classification) = .ok b
  apart : ∀ e ∈ entries history, ∀ f ∈ entries history, e.resource = f.resource →
    Cleared engine clearance e → Cleared engine clearance f

variable {engine clearance}

theorem mem_entries_authorizedCalls {history : List Publication} {e : Entry} :
    e ∈ entries (authorizedCalls engine clearance history) ↔ e ∈ entries history ∧ Cleared engine clearance e := by
  simp only [entries, authorizedCalls, List.mem_filterMap, List.mem_filter]
  constructor
  · rintro ⟨p, ⟨hp, hcleared⟩, he⟩
    rw [he] at hcleared
    exact ⟨⟨p, hp, he⟩, of_decide_eq_true hcleared⟩
  · rintro ⟨⟨p, hp, he⟩, hcleared⟩
    refine ⟨p, ⟨hp, ?_⟩, he⟩
    rw [he]
    exact decide_eq_true hcleared

theorem decided_rows {history : List Publication}
    (h : ∀ e ∈ entries history, ∃ b, decides engine clearance (e.value .classification) = .ok b) :
    ∀ row ∈ rows (after history), ∃ b, decides engine clearance (row.value .classification) = .ok b := by
  intro row hrow
  obtain ⟨e, he, -, hvalue⟩ := mem_rows_after.1 hrow .classification
  rw [← hvalue]
  exact h e he

theorem listAuthorized_authorizedCalls (engine : MarkingEngine) (clearance : MarkingSet) (history : List Publication) :
    ∃ listed, listAuthorized engine clearance (after (authorizedCalls engine clearance history)) = .ok listed :=
  listAuthorized_of_decided (decided_rows fun _ he => ⟨true, (mem_entries_authorizedCalls.1 he).2⟩)

theorem iri_of_entry {history : List Publication} {e : Entry} (he : e ∈ entries history) : requireIri e.resource = .ok () := by
  obtain ⟨p, -, hp⟩ := List.mem_filterMap.mp he
  cases hentry : entryOf p with
  | error x =>
    rw [hentry] at hp
    cases hp
  | ok f =>
    rw [hentry] at hp
    cases hp
    have hiri := (check_bind_eq_ok.1 hentry).1
    have hresource : e.resource = p.resourceId := by
      obtain ⟨-, h⟩ := check_bind_eq_ok.1 hentry
      obtain ⟨-, h⟩ := check_bind_eq_ok.1 h
      obtain ⟨-, h⟩ := check_bind_eq_ok.1 h
      obtain ⟨provenance, -, h⟩ := bind_eq_ok.1 h
      obtain ⟨-, h⟩ := check_bind_eq_ok.1 h
      obtain ⟨classification, -, h⟩ := bind_eq_ok.1 h
      obtain ⟨label, -, h⟩ := bind_eq_ok.1 h
      obtain ⟨-, h⟩ := check_bind_eq_ok.1 h
      obtain ⟨classification, -, h⟩ := bind_eq_ok.1 h
      obtain ⟨label, -, h⟩ := bind_eq_ok.1 h
      obtain ⟨provenance, -, h⟩ := bind_eq_ok.1 h
      cases h
      rfl
    rw [hresource]
    exact hiri

/-- Where the markings are separated, a row the clearance sees is a row of the authorized calls. -/
theorem row_of_authorizedCalls {history : List Publication} (h : Separated engine clearance history) {row : Row} :
    row ∈ rows (after history) ∧ decides engine clearance (row.value .classification) = .ok true ↔
      row ∈ rows (after (authorizedCalls engine clearance history)) := by
  rw [mem_rows_after, mem_rows_after]
  simp only [mem_entries_authorizedCalls]
  constructor
  · rintro ⟨hrow, hok⟩ property
    obtain ⟨e, he, hresource, hvalue⟩ := hrow .classification
    obtain ⟨f, hf, hsame, hproperty⟩ := hrow property
    have hcleared : Cleared engine clearance e := by
      unfold Cleared
      rw [hvalue]
      exact hok
    exact ⟨f, ⟨hf, h.apart e he f hf (hresource.trans hsame.symm) hcleared⟩, hsame, hproperty⟩
  · intro hrow
    refine ⟨fun property => ?_, ?_⟩
    · obtain ⟨e, ⟨he, -⟩, hresource, hvalue⟩ := hrow property
      exact ⟨e, he, hresource, hvalue⟩
    · obtain ⟨e, ⟨-, hcleared⟩, -, hvalue⟩ := hrow .classification
      rw [← hvalue]
      exact hcleared

theorem decides_of_mem_authorizedCalls {history : List Publication} {row : Row}
    (h : row ∈ rows (after (authorizedCalls engine clearance history))) :
    decides engine clearance (row.value .classification) = .ok true := by
  obtain ⟨e, he, -, hvalue⟩ := mem_rows_after.1 h .classification
  rw [← hvalue]
  exact (mem_entries_authorizedCalls.1 he).2

theorem resource_of_mem_triples {e : Entry} {t : Triple} (h : t ∈ e.triples) : t.resource = e.resource := by
  cases t with
  | typed resource => exact (typed_mem_triples.1 h).symm
  | stated resource property value => exact (stated_mem_triples.1 h).1.symm

theorem mem_graph_iff {history : List Publication} (h : Separated engine clearance history) {resource : PyStr}
    (hseen : ∃ e ∈ entries history, Cleared engine clearance e ∧ e.resource = resource) (t : Triple) :
    (t ∈ after history ∧ t.resource = resource) ↔
      (t ∈ after (authorizedCalls engine clearance history) ∧ t.resource = resource) := by
  obtain ⟨e, he, hcleared, hresource⟩ := hseen
  rw [mem_after, mem_after]
  simp only [mem_entries_authorizedCalls]
  constructor
  · rintro ⟨⟨f, hf, hmem⟩, ht⟩
    have hsame : e.resource = f.resource := by
      rw [hresource, ← ht, resource_of_mem_triples hmem]
    exact ⟨⟨f, ⟨hf, h.apart e he f hf hsame hcleared⟩, hmem⟩, ht⟩
  · rintro ⟨⟨f, ⟨hf, -⟩, hmem⟩, ht⟩
    exact ⟨⟨f, hf, hmem⟩, ht⟩

theorem existing_of_separated {history : List Publication} (h : Separated engine clearance history) {resource : PyStr}
    (hexists : existsAuthorized engine clearance (after history) resource = .ok true) :
    ∃ e ∈ entries history, Cleared engine clearance e ∧ e.resource = resource := by
  obtain ⟨listed, hlisted⟩ := listAuthorized_of_decided (decided_rows h.decided)
  rw [existsAuthorized_of_listed hlisted, Except.ok.injEq, any_resource] at hexists
  obtain ⟨row, hrow, rfl⟩ := hexists
  have hseen := (row_of_authorizedCalls h).mp (((listAuthorized_eq_ok hlisted).2 row).mp hrow)
  obtain ⟨e, he, hresource, -⟩ := mem_rows_after.1 hseen .label
  obtain ⟨hmem, hcleared⟩ := mem_entries_authorizedCalls.1 he
  exact ⟨e, hmem, hcleared, hresource⟩

theorem sameList_of_separated {history : List Publication} (h : Separated engine clearance history) :
    ∃ full restricted, listAuthorized engine clearance (after history) = .ok full ∧
      listAuthorized engine clearance (after (authorizedCalls engine clearance history)) = .ok restricted ∧
      (∀ row, row ∈ full ↔ row ∈ restricted) ∧
      ∀ row ∈ full, row ∈ rows (after (authorizedCalls engine clearance history)) := by
  obtain ⟨full, hfull⟩ := listAuthorized_of_decided (decided_rows h.decided)
  obtain ⟨restricted, hrestricted⟩ := listAuthorized_authorizedCalls engine clearance history
  have hseen : ∀ row, row ∈ full ↔ row ∈ rows (after (authorizedCalls engine clearance history)) := fun row => by
    rw [(listAuthorized_eq_ok hfull).2 row, row_of_authorizedCalls h]
  refine ⟨full, restricted, hfull, hrestricted, fun row => ?_, fun row hrow => (hseen row).mp hrow⟩
  rw [hseen, (listAuthorized_eq_ok hrestricted).2 row]
  exact ⟨fun hrow => ⟨hrow, decides_of_mem_authorizedCalls hrow⟩, And.left⟩

theorem toJsonLd_of_denied {store : List Triple} {resource : PyStr}
    (h : existsAuthorized engine clearance store resource = .ok false) :
    ∃ x, toJsonLd engine clearance store resource = .error x := by
  unfold toJsonLd
  rw [h]
  cases requireIri resource with
  | error x => exact ⟨x, rfl⟩
  | ok u => exact ⟨_, rfl⟩

theorem sameExport_of_separated {history : List Publication} (h : Separated engine clearance history) (resource : PyStr)
    (hexists : existsAuthorized engine clearance (after history) resource =
      existsAuthorized engine clearance (after (authorizedCalls engine clearance history)) resource)
    {b : Bool} (hfull : existsAuthorized engine clearance (after history) resource = .ok b) :
    SameSet (toJsonLd engine clearance (after history) resource)
      (toJsonLd engine clearance (after (authorizedCalls engine clearance history)) resource) := by
  have hrestricted := hexists.symm.trans hfull
  cases b with
  | false =>
    obtain ⟨x, hx⟩ := toJsonLd_of_denied hfull
    obtain ⟨y, hy⟩ := toJsonLd_of_denied hrestricted
    rw [hx, hy]
    trivial
  | true =>
    obtain ⟨e, he, hcleared, hresource⟩ := existing_of_separated h hfull
    have hiri : requireIri resource = .ok () := hresource ▸ iri_of_entry he
    rw [toJsonLd_of_exists hiri hfull, toJsonLd_of_exists hiri hrestricted]
    intro t
    rw [List.mem_filter, List.mem_filter, decide_eq_true_iff]
    exact mem_graph_iff h ⟨e, he, hcleared, hresource⟩ t

theorem markingSafe_of_separated {history : List Publication} (h : Separated engine clearance history) :
    MarkingSafe engine clearance history := by
  obtain ⟨full, restricted, hfull, hrestricted, hsame, hseen⟩ := sameList_of_separated h
  have hexists : ∀ resource, existsAuthorized engine clearance (after history) resource =
      existsAuthorized engine clearance (after (authorizedCalls engine clearance history)) resource := by
    intro resource
    rw [existsAuthorized_of_listed hfull, existsAuthorized_of_listed hrestricted, Except.ok.injEq, Bool.eq_iff_iff,
      any_resource, any_resource]
    simp only [hsame]
  refine ⟨?_, ?_, fun resource => existing_of_separated h, ?_, hexists, ?_⟩
  · intro listed hlisted row hrow property
    rw [hfull, Except.ok.injEq] at hlisted
    obtain ⟨e, he, hresource, hvalue⟩ := mem_rows_after.1 (hseen row (hlisted ▸ hrow)) property
    obtain ⟨hmem, hcleared⟩ := mem_entries_authorizedCalls.1 he
    exact ⟨e, hmem, hcleared, hresource, hvalue⟩
  · intro resource graph hgraph property value hmem
    obtain ⟨hauthorized, rfl⟩ := toJsonLd_eq_ok hgraph
    have hboth := List.mem_filter.mp hmem
    have hgraphed := (mem_graph_iff h (existing_of_separated h hauthorized) _).mp ⟨hboth.1, of_decide_eq_true hboth.2⟩
    obtain ⟨e, he, hresource, hvalue⟩ := stated_mem_after.1 hgraphed.1
    obtain ⟨hin, hcleared⟩ := mem_entries_authorizedCalls.1 he
    exact ⟨e, hin, hcleared, hresource, hvalue⟩
  · rw [hfull, hrestricted]
    exact hsame
  · intro resource
    exact sameExport_of_separated h resource (hexists resource) (existsAuthorized_of_listed hfull resource)

theorem separated_of_markingSafe {history : List Publication} (h : MarkingSafe engine clearance history) :
    Separated engine clearance history := by
  obtain ⟨restricted, hrestricted⟩ := listAuthorized_authorizedCalls engine clearance history
  have hlist := h.sameList
  rw [hrestricted] at hlist
  cases hfull : listAuthorized engine clearance (after history) with
  | error x =>
    rw [hfull] at hlist
    exact hlist.elim
  | ok full =>
    obtain ⟨hdecided, hmem⟩ := listAuthorized_eq_ok hfull
    refine ⟨fun e he => hdecided _ (entry_mem_rows he), fun e he f hf hsame hcleared => ?_⟩
    -- The export of the resource carries both classifications.
    have hseen : existsAuthorized engine clearance (after history) e.resource = .ok true := by
      rw [existsAuthorized_of_listed hfull, Except.ok.injEq, any_resource]
      exact ⟨⟨e.resource, e.value⟩, (hmem _).mpr ⟨entry_mem_rows he, hcleared⟩, rfl⟩
    have hgraph := toJsonLd_of_exists (iri_of_entry he) hseen
    have hstated : Triple.stated e.resource .classification (f.value .classification) ∈
        (after history).filter fun t => decide (t.resource = e.resource) :=
      List.mem_filter.mpr ⟨stated_mem_after.2 ⟨f, hf, hsame.symm, rfl⟩, decide_eq_true rfl⟩
    obtain ⟨g, -, hg, -, hvalue⟩ := h.exported e.resource _ hgraph .classification _ hstated
    unfold Cleared at hg ⊢
    rw [← hvalue]
    exact hg

/-- **What the marking join keeps apart.** The answers of a history are marking-safe for a clearance exactly when the
engine decides every published classification for it and no resource was published under classifications of which the
clearance is authorized for some and not for others. -/
theorem marking_safe_iff (engine : MarkingEngine) (clearance : MarkingSet) (history : List Publication) :
    MarkingSafe engine clearance history ↔ Separated engine clearance history :=
  ⟨separated_of_markingSafe, markingSafe_of_separated⟩

end Safety

/-! ## A resource published twice -/

def samplePublication (label classification : String) : Publication where
  resourceId := py "urn:ocor:resource:1"
  properties := ((Dict.empty.set (py "label") (py label)).set (py "classification") (py classification)).set
    (py "provenanceRef") (py "urn:ocor:provenance:1")

def sampleScheme : Except PyError MarkingSchemeDefinition :=
  MarkingSchemeDefinition.create (py "classification") none (some [py "PUBLIC", py "SECRET"])
    [.sequence [py "PUBLIC", py "SECRET"]]

/-- A resource that was published as public and then as secret. -/
theorem republished_secret_is_exposed :
    ¬ ∀ (engine : MarkingEngine) (clearance : MarkingSet) (history : List Publication),
      MarkingSafe engine clearance history := by
  intro h
  have hengine : (sampleScheme >>= fun scheme => MarkingEngine.create [scheme] >>= fun engine =>
      decides engine (classificationSet (py "PUBLIC")) (py "PUBLIC") >>= fun first =>
      decides engine (classificationSet (py "PUBLIC")) (py "SECRET") >>= fun second =>
      Except.ok (first, second)) = .ok (true, false) := by decide
  obtain ⟨scheme, -, hengine⟩ := bind_eq_ok.1 hengine
  obtain ⟨engine, -, hengine⟩ := bind_eq_ok.1 hengine
  obtain ⟨first, hpublic, hengine⟩ := bind_eq_ok.1 hengine
  obtain ⟨second, hsecret, hengine⟩ := bind_eq_ok.1 hengine
  cases hengine
  obtain ⟨e, he, heresource, hevalue⟩ : ∃ e, entryOf (samplePublication "open" "PUBLIC") = .ok e ∧
      e.resource = py "urn:ocor:resource:1" ∧ e.value .classification = py "PUBLIC" := ⟨_, rfl, rfl, rfl⟩
  obtain ⟨f, hf, hfresource, hfvalue⟩ : ∃ f, entryOf (samplePublication "hidden" "SECRET") = .ok f ∧
      f.resource = py "urn:ocor:resource:1" ∧ f.value .classification = py "SECRET" := ⟨_, rfl, rfl, rfl⟩
  have hseparated := separated_of_markingSafe (h engine (classificationSet (py "PUBLIC"))
    [samplePublication "open" "PUBLIC", samplePublication "hidden" "SECRET"])
  have hentries : entries [samplePublication "open" "PUBLIC", samplePublication "hidden" "SECRET"] = [e, f] := by
    simp [entries, he, hf, Except.toOption]
  have hcleared := hseparated.apart e (by simp [hentries]) f (by simp [hentries]) (heresource.trans hfresource.symm) (by
    rw [Cleared, hevalue]
    exact hpublic)
  rw [Cleared, hfvalue, hsecret] at hcleared
  cases hcleared

end OcorRuntime.Projection.Jena
