import OcorRuntime.Kernel.TypedRefusals

/-! When a refusal of the governance boundary is the typed fault it is meant to be. A title with fixed words
always fits; one that names the additional fields of a record takes them as they came, and the fault
of a denied request takes the correlation id of its context, which the context does not check. -/
namespace OcorRuntime.Governance
open Canonical Kernel
set_option autoImplicit false
set_option maxHeartbeats 250000

/-! ## Titles -/

/-- Printable ASCII. -/
def Plain (s : PyStr) : Prop := ∀ c ∈ s, 32 ≤ c.val ∧ c.val < 128

instance (s : PyStr) : Decidable (Plain s) := List.decidableBAll (fun c : CodePoint => 32 ≤ c.val ∧ c.val < 128) s

theorem utf8Encode_append (s t : PyStr) : utf8Encode (s ++ t) = utf8Encode s ++ utf8Encode t := List.flatMap_append

theorem utf8Encode_plain_length {s : PyStr} (h : Plain s) : (utf8Encode s).length = s.length := by
  induction s with
  | nil => rfl
  | cons c s ih =>
    have hc : (utf8Char c).length = 1 := by
      simp only [utf8Char, if_pos (h c List.mem_cons_self).2, List.length_singleton]
    have hs := ih fun d hd => h d (List.mem_cons_of_mem c hd)
    rw [utf8Encode, List.flatMap_cons, List.length_append, hc, ← utf8Encode, hs, List.length_cons]
    omega

theorem scalar_plain {s : PyStr} (h : Plain s) : Scalar s := by
  intro c hc
  have hlt := (h c hc).2
  unfold IsSurrogate
  omega

theorem py_append (s t : String) : py (s ++ t) = py s ++ py t := by simp [py]

theorem titleFits_plain {s : PyStr} (hs : s ≠ []) (h : Plain s) (hlength : s.length ≤ 256) : TitleFits s :=
  ⟨hs, scalar_plain h, by rw [utf8Encode_plain_length h]; exact hlength, fun c hc => (h c hc).1⟩

theorem mem_joined {names : List PyStr} {c : CodePoint} (h : c ∈ joined names) :
    (∃ name ∈ names, c ∈ name) ∨ 1 < names.length ∧ c ∈ py ", " := by
  unfold joined at h
  induction names with
  | nil => simp at h
  | cons name names ih =>
    cases names with
    | nil =>
      rw [List.intercalate_singleton] at h
      exact Or.inl ⟨name, List.mem_cons_self, h⟩
    | cons next names =>
      rw [List.intercalate_cons_cons, List.mem_append, List.mem_append] at h
      rcases h with (h | h) | h
      · exact Or.inl ⟨name, List.mem_cons_self, h⟩
      · exact Or.inr ⟨by simp, h⟩
      · rcases ih h with ⟨other, hother, hc⟩ | ⟨-, hc⟩
        · exact Or.inl ⟨other, List.mem_cons_of_mem name hother, hc⟩
        · exact Or.inr ⟨by simp, hc⟩

theorem mem_joined_of_mem {names : List PyStr} {name : PyStr} {c : CodePoint} (hname : name ∈ names) (hc : c ∈ name) :
    c ∈ joined names := by
  unfold joined
  induction names with
  | nil => cases hname
  | cons first names ih =>
    cases names with
    | nil =>
      rw [List.mem_singleton] at hname
      rw [List.intercalate_singleton, ← hname]
      exact hc
    | cons next names =>
      rw [List.intercalate_cons_cons, List.mem_append]
      rcases List.mem_cons.mp hname with rfl | hname
      · exact Or.inl (List.mem_append_left _ hc)
      · exact Or.inr (ih hname)

theorem joined_length_le (names : List PyStr) : (joined names).length ≤ (names.map fun name => name.length + 2).sum := by
  unfold joined
  induction names with
  | nil => simp
  | cons name names ih =>
    cases names with
    | nil => simp
    | cons next names =>
      have htwo : (py ", ").length = 2 := rfl
      rw [List.intercalate_cons_cons, List.length_append, List.length_append, htwo]
      rw [List.map_cons, List.sum_cons]
      omega

/-- The names are written as they are, in at most `room` bytes. -/
def NamesFit (room : ℕ) (names : List PyStr) : Prop :=
  (∀ name ∈ names, Scalar name ∧ ∀ c ∈ name, 32 ≤ c.val) ∧ (utf8Encode (joined names)).length ≤ room

instance (room : ℕ) (names : List PyStr) : Decidable (NamesFit room names) :=
  haveI (name : PyStr) : Decidable (∀ c ∈ name, 32 ≤ c.val) := List.decidableBAll (fun c : CodePoint => 32 ≤ c.val) name
  haveI : Decidable (∀ name ∈ names, Scalar name ∧ ∀ c ∈ name, 32 ≤ c.val) :=
    List.decidableBAll (fun name : PyStr => Scalar name ∧ ∀ c ∈ name, 32 ≤ c.val) names
  inferInstanceAs (Decidable (_ ∧ _))

theorem titleFits_names {words : PyStr} {names : List PyStr} {room : ℕ} (hwords : Plain words) (hsome : words ≠ [])
    (hroom : words.length + room = 256) : TitleFits (words ++ joined names) ↔ NamesFit room names := by
  have hlength : (utf8Encode (words ++ joined names)).length = words.length + (utf8Encode (joined names)).length := by
    rw [utf8Encode_append, List.length_append, utf8Encode_plain_length hwords]
  constructor
  · rintro ⟨-, hscalar, hbytes, hcontrol⟩
    refine ⟨fun name hname => ⟨fun c hc => ?_, fun c hc => ?_⟩, by omega⟩
    · exact hscalar c (List.mem_append_right words (mem_joined_of_mem hname hc))
    · exact hcontrol c (List.mem_append_right words (mem_joined_of_mem hname hc))
  · rintro ⟨hnames, hbytes⟩
    have hcomma : Plain (py ", ") := by decide
    refine ⟨by simp [hsome], fun c hc => ?_, by omega, fun c hc => ?_⟩
    · rcases List.mem_append.mp hc with hc | hc
      · exact scalar_plain hwords c hc
      · rcases mem_joined hc with ⟨name, hname, hc⟩ | ⟨-, hc⟩
        · exact (hnames name hname).1 c hc
        · exact scalar_plain hcomma c hc
    · rcases List.mem_append.mp hc with hc | hc
      · exact (hwords c hc).1
      · rcases mem_joined hc with ⟨name, hname, hc⟩ | ⟨-, hc⟩
        · exact (hnames name hname).2 c hc
        · exact (hcomma c hc).1

/-! ## Faults -/

/-- Building a fault raises nothing else exactly if its title fits and its identifiers are canonical. -/
theorem isFault_fault {reason : FaultReason} {correlationId title : PyStr} {causationId : Option PyStr} :
    (fault reason correlationId title causationId).IsFault ↔
      TitleFits title ∧ IsIdentifier correlationId ∧ ∀ c ∈ causationId, IsIdentifier c := by
  unfold fault
  split_ifs with hempty hscalar hfits hcorrelation hcausation
  · exact iff_of_false nofun fun h => h.1.1 hempty
  · exact iff_of_true (.intro _) ⟨hfits, hcorrelation, hcausation⟩
  · exact iff_of_false nofun fun h => hcausation h.2.2
  · exact iff_of_false nofun fun h => hcorrelation h.2.1
  · exact iff_of_false nofun fun h => hfits h.1
  · exact iff_of_false nofun fun h => hscalar h.1.2.1

/-- The fault that was meant, with its reason. -/
inductive Refusal.Gives (reason : FaultReason) : Refusal → Prop
  | intro (f : GovernanceFault) (h : f.reasonCode = reason) : Gives reason (.fault f)

theorem gives_fault {reason : FaultReason} {correlationId title : PyStr} {causationId : Option PyStr} :
    (fault reason correlationId title causationId).Gives reason ↔
      TitleFits title ∧ IsIdentifier correlationId ∧ ∀ c ∈ causationId, IsIdentifier c := by
  rw [← @isFault_fault reason]
  unfold fault
  split_ifs
  · exact iff_of_false nofun nofun
  · exact iff_of_true (.intro _ rfl) (.intro _)
  all_goals exact iff_of_false nofun nofun

theorem isIdentifier_correlationZero : IsIdentifier correlationZero := by decide

theorem isFault_zero {reason : FaultReason} {title : PyStr} :
    (fault reason correlationZero title).IsFault ↔ TitleFits title := by
  rw [isFault_fault]
  simp [isIdentifier_correlationZero]

/-! ## Field checks -/

/-- The name of a field, short enough for every title it stands in. -/
def Short (field : String) : Prop := Plain (py field) ∧ (py field).length ≤ 128

instance (field : String) : Decidable (Short field) := inferInstanceAs (Decidable (_ ∧ _))

section Fields
variable {field : String} {value : PyValue} {correlationId : PyStr}

/-- Words every title can end in. -/
def Words (words : String) : Prop := Plain (py words) ∧ 0 < (py words).length ∧ (py words).length ≤ 128

instance (words : String) : Decidable (Words words) := inferInstanceAs (Decidable (_ ∧ _ ∧ _))

theorem titleFits_words {words : String} (h : Words words) : TitleFits (py words) :=
  titleFits_plain (List.ne_nil_of_length_pos h.2.1) h.1 (by have hle := h.2.2; omega)

theorem titleFits_field {words : String} (hfield : Short field)
    (hwords : Words words) : TitleFits (py (field ++ words)) := by
  obtain ⟨hplain, hpos, hlength⟩ := hwords
  rw [py_append]
  refine titleFits_plain ?_ ?_ ?_
  · intro hnil
    have hempty := (List.append_eq_nil_iff.mp hnil).2
    rw [hempty] at hpos
    exact absurd hpos (lt_irrefl 0)
  · intro c hc
    rcases List.mem_append.mp hc with hc | hc
    · exact hfield.1 c hc
    · exact hplain c hc
  · have hle := hfield.2
    rw [List.length_append]
    omega

theorem isFault_words {reason : FaultReason} {words : String} {causationId : Option PyStr} (hwords : Words words)
    (hcorrelation : IsIdentifier correlationId) (hcausation : ∀ c ∈ causationId, IsIdentifier c) :
    (fault reason correlationId (py words) causationId).IsFault :=
  isFault_fault.2 ⟨titleFits_words hwords, hcorrelation, hcausation⟩

theorem isFault_field {reason : FaultReason} {words : String} (hfield : Short field) (hcorrelation : IsIdentifier correlationId)
    (hwords : Words words) : (fault reason correlationId (py (field ++ words))).IsFault :=
  isFault_fault.2 ⟨titleFits_field hfield hwords, hcorrelation, fun _ h => nomatch h⟩

theorem faults_string (hfield : Short field) (hcorrelation : IsIdentifier correlationId) :
    OnlyRaises Refusal.IsFault (string field value correlationId) := by
  unfold string
  split
  · exact onlyRaises_ok _
  · exact onlyRaises_error.2 (isFault_field hfield hcorrelation (by decide))

theorem faults_digest (hfield : Short field) (hcorrelation : IsIdentifier correlationId) :
    OnlyRaises Refusal.IsFault (digest field value correlationId) := by
  refine onlyRaises_bind.2 ⟨faults_string hfield hcorrelation, fun result _ => onlyRaises_bind.2 ⟨?_, fun _ _ => ?_⟩⟩
  · exact onlyRaises_require.2 fun _ => isFault_field hfield hcorrelation (by decide)
  · exact onlyRaises_ok _

theorem faults_counter {low : ℤ} (hfield : Short field) : OnlyRaises Refusal.IsFault (counter field low value) := by
  have hinvalid : (fault .leaseInvalid correlationZero (py (field ++ " is invalid"))).IsFault :=
    isFault_field hfield isIdentifier_correlationZero (by decide)
  unfold counter
  split
  · exact onlyRaises_bind.2 ⟨onlyRaises_require.2 fun _ => hinvalid, fun _ _ => onlyRaises_ok _⟩
  · exact onlyRaises_error.2 hinvalid

/-! ## The handler of the readers -/

/-- A fault, or an exception the handler makes one of. -/
def Refusal.Handled (label : String) : Refusal → Prop
  | .fault _ => True
  | .raised e => isCaught e.cls = true ∧ TitleFits (py (label ++ e.message))

theorem Refusal.IsFault.handled {label : String} {r : Refusal} (h : r.IsFault) : r.Handled label := by
  cases h
  trivial

theorem faults_guarded {α : Type} {reason : FaultReason} {label : String} {x : Except Refusal α}
    (h : OnlyRaises (Refusal.Handled label) x) : OnlyRaises Refusal.IsFault (guarded reason label x) := by
  cases x with
  | ok a => exact onlyRaises_ok a
  | error r =>
    have hr := onlyRaises_error.1 h
    cases r with
    | fault f => exact onlyRaises_error.2 (.intro f)
    | raised e =>
      obtain ⟨hcaught, htitle⟩ := hr
      refine onlyRaises_error.2 ?_
      rw [if_pos hcaught]
      exact isFault_zero.2 htitle

/-- The words a handler puts in front. -/
def Label (label : String) : Prop := label = "invalid lease: " ∨ label = "invalid provenance: "

theorem handled_timestamp {label : String} (hlabel : Label label) :
    OnlyRaises (Refusal.Handled label) ((timestamp value).mapError .raised) := by
  have hmessages : ∀ message ∈ ["timestamp must be canonical RFC 3339 UTC with Z suffix", "invalid UTC timestamp"],
      Refusal.Handled label (.raised (timestampError message)) := by
    intro message hmessage
    refine ⟨rfl, ?_⟩
    simp only [List.mem_cons, List.not_mem_nil, or_false] at hmessage
    rcases hlabel with rfl | rfl <;> rcases hmessage with rfl | rfl <;>
      exact titleFits_plain (by decide) (by decide) (by decide)
  refine onlyRaises_mapError.2 ?_
  unfold timestamp
  split
  · refine onlyRaises_bind.2 ⟨fun e he => ?_, fun w _ => onlyRaises_check.2 ⟨onlyRaises_refuseIf.2 fun _ => ?_, fun _ => ?_⟩⟩
    · unfold orRaise at he
      split at he
      · cases he
      · cases he
        exact hmessages _ (by simp)
    · exact hmessages _ (by simp)
    · exact onlyRaises_ok _
  · exact onlyRaises_error.2 (hmessages _ (by simp))

end Fields

/-! ## Closed records -/

/-- The names of a record are short enough to be listed as missing, all of them. -/
structure Listable (record : String) (required : List String) : Prop where
  label : Plain (py record)
  names : ∀ name ∈ required, Plain (py name)
  room : (py record).length + (required.map fun name => (py name).length + 2).sum ≤ 239

theorem mem_missingFields {required : List String} {value : Dict PyStr PyValue} {name : PyStr}
    (h : name ∈ missingFields required value) : ∃ field ∈ required, name = py field := by
  rw [missingFields, List.mem_insertionSort] at h
  obtain ⟨field, hfield, rfl⟩ := List.mem_map.mp (List.mem_of_mem_filter h)
  exact ⟨field, hfield, rfl⟩

theorem missingFields_length_le (required : List String) (value : Dict PyStr PyValue) :
    (joined (missingFields required value)).length ≤ (required.map fun name => (py name).length + 2).sum := by
  have hperm : ((missingFields required value).map fun name => name.length + 2).Perm
      (((required.map py).filter fun name => name ∉ value.keys).map fun name => name.length + 2) :=
    (List.perm_insertionSort _ _).map _
  calc (joined (missingFields required value)).length
      ≤ ((missingFields required value).map fun name => name.length + 2).sum := joined_length_le _
    _ = (((required.map py).filter fun name => name ∉ value.keys).map fun name => name.length + 2).sum := hperm.sum_eq
    _ ≤ ((required.map py).map fun name => name.length + 2).sum :=
      (List.filter_sublist.map _).sum_le_sum fun _ _ => Nat.zero_le _
    _ = (required.map fun name => (py name).length + 2).sum := by rw [List.map_map]; rfl

section Closed
variable {reason : FaultReason} {record : String} {required : List String} {value : Dict PyStr PyValue}

theorem isFault_missing (h : Listable record required) :
    (fault reason correlationZero
      (py ("missing " ++ record ++ " fields: ") ++ joined (missingFields required value))).IsFault := by
  have hshort : Plain (py "missing ") ∧ Plain (py " fields: ") := by decide
  have hplain : Plain (joined (missingFields required value)) := by
    have hcomma : Plain (py ", ") := by decide
    intro c hc
    rcases mem_joined hc with ⟨name, hname, hc⟩ | ⟨-, hc⟩
    · obtain ⟨field, hfield, rfl⟩ := mem_missingFields hname
      exact h.names field hfield c hc
    · exact hcomma c hc
  have hlength : (py ("missing " ++ record ++ " fields: ")).length = 17 + (py record).length := by
    have hwords : (py "missing ").length = 8 ∧ (py " fields: ").length = 9 := ⟨rfl, rfl⟩
    rw [py_append, py_append, List.length_append, List.length_append]
    omega
  rw [isFault_zero]
  refine titleFits_plain ?_ ?_ ?_
  · intro hnil
    have hzero : (py ("missing " ++ record ++ " fields: ")).length = 0 := by rw [(List.append_eq_nil_iff.mp hnil).1]; rfl
    omega
  · intro c hc
    rw [py_append, py_append, List.mem_append, List.mem_append, List.mem_append] at hc
    rcases hc with ((hc | hc) | hc) | hc
    · exact hshort.1 c hc
    · exact h.label c hc
    · exact hshort.2 c hc
    · exact hplain c hc
  · have hroom := h.room
    have hle := missingFields_length_le required value
    rw [List.length_append]
    omega

theorem isFault_additional {room : ℕ} (hrecord : Plain (py record)) (hroom : 20 + (py record).length + room = 256) :
    (fault reason correlationZero (additionalTitle record required value)).IsFault ↔
      NamesFit room (additionalFields required value) := by
  have hshort : Plain (py "additional ") ∧ Plain (py " fields: ") := by decide
  have hlength : (py ("additional " ++ record ++ " fields: ")).length = 20 + (py record).length := by
    have hwords : (py "additional ").length = 11 ∧ (py " fields: ").length = 9 := ⟨rfl, rfl⟩
    rw [py_append, py_append, List.length_append, List.length_append]
    omega
  rw [isFault_zero, additionalTitle]
  refine titleFits_names (fun c hc => ?_) (fun hnil => ?_) (by omega)
  · rw [py_append, py_append, List.mem_append, List.mem_append] at hc
    rcases hc with (hc | hc) | hc
    · exact hshort.1 c hc
    · exact hrecord c hc
    · exact hshort.2 c hc
  · rw [hnil] at hlength
    cases hlength.trans (Nat.add_comm _ _)

theorem namesFit_nil (room : ℕ) : NamesFit room [] := ⟨fun _ h => (List.not_mem_nil h).elim, Nat.zero_le room⟩

/-- A closed record is refused with a fault unless it has every field, and names too long, with control characters
or with lone surrogates beside them. -/
theorem faults_closed {room : ℕ} (h : Listable record required) (hroom : 20 + (py record).length + room = 256) :
    OnlyRaises Refusal.IsFault (closed reason record required value) ↔
      missingFields required value ≠ [] ∨ NamesFit room (additionalFields required value) := by
  unfold closed
  rw [onlyRaises_check, onlyRaises_refuseIf, onlyRaises_refuseIf, refuseIf_eq_ok, isFault_additional h.label hroom]
  constructor
  · rintro ⟨-, hadditional⟩
    by_cases hmissing : missingFields required value = []
    · right
      by_cases hnone : additionalFields required value = []
      · rw [hnone]
        exact namesFit_nil room
      · exact hadditional (not_not.mpr hmissing) hnone
    · exact Or.inl hmissing
  · intro hcase
    refine ⟨fun _ => isFault_missing h, fun hmissing _ => ?_⟩
    exact hcase.resolve_left hmissing

end Closed

/-! ## Leases -/

theorem listable_lease : Listable "lease" leaseFields :=
  ⟨by decide, by decide, by simp [leaseFields, py]⟩

theorem faults_createLease {value : String → PyValue} {issuedAt expiresAt : Instant} :
    OnlyRaises Refusal.IsFault (createLease value issuedAt expiresAt) := by
  have hzero := isIdentifier_correlationZero
  have hnone : ∀ c ∈ (none : Option PyStr), IsIdentifier c := fun _ h => nomatch h
  refine onlyRaises_bind.2 ⟨faults_string (by decide) hzero, fun _ _ => ?_⟩
  refine onlyRaises_bind.2 ⟨faults_string (by decide) hzero, fun _ _ => ?_⟩
  refine onlyRaises_bind.2 ⟨faults_string (by decide) hzero, fun _ _ => ?_⟩
  refine onlyRaises_bind.2 ⟨faults_string (by decide) hzero, fun _ _ => ?_⟩
  refine onlyRaises_bind.2 ⟨faults_digest (by decide) hzero, fun _ _ => ?_⟩
  refine onlyRaises_bind.2 ⟨faults_digest (by decide) hzero, fun _ _ => ?_⟩
  refine onlyRaises_bind.2 ⟨faults_digest (by decide) hzero, fun _ _ => ?_⟩
  refine onlyRaises_bind.2 ⟨faults_counter (by decide), fun _ _ => ?_⟩
  refine onlyRaises_bind.2 ⟨faults_counter (by decide), fun _ _ => ?_⟩
  refine onlyRaises_bind.2 ⟨onlyRaises_require.2 fun _ => isFault_words (by decide) hzero hnone, fun _ _ => ?_⟩
  refine onlyRaises_bind.2 ⟨onlyRaises_require.2 fun _ => isFault_words (by decide) hzero hnone, fun _ _ => ?_⟩
  exact onlyRaises_ok _

theorem faults_read {α : Type} {reason : FaultReason} {record : String} {required : List String}
    {value : Dict PyStr PyValue} {read : Except Refusal α} {room : ℕ} (h : Listable record required)
    (hroom : 20 + (py record).length + room = 256) (hread : OnlyRaises Refusal.IsFault read) :
    OnlyRaises Refusal.IsFault (closed reason record required value >>= fun _ => read) ↔
      missingFields required value ≠ [] ∨ NamesFit room (additionalFields required value) := by
  rw [onlyRaises_bind, faults_closed h hroom]
  exact and_iff_left fun _ _ => hread

theorem faults_leaseFromMapping {value : Dict PyStr PyValue} :
    OnlyRaises Refusal.IsFault (leaseFromMapping value) ↔
      missingFields leaseFields value ≠ [] ∨ NamesFit 231 (additionalFields leaseFields value) := by
  refine faults_read listable_lease rfl (faults_guarded ?_)
  refine onlyRaises_bind.2 ⟨handled_timestamp (Or.inl rfl), fun _ _ => ?_⟩
  refine onlyRaises_bind.2 ⟨handled_timestamp (Or.inl rfl), fun _ _ => ?_⟩
  exact OnlyRaises.mono faults_createLease fun _ h => h.handled

/-! ## Provenance -/

theorem listable_provenance : Listable "provenance" provenanceFields :=
  ⟨by decide, by decide, by simp [provenanceFields, py]⟩

section Provenance
variable {uuid : PyStr → Option PyStr} {field : String} {value : PyValue} {correlationId : PyStr}

theorem faults_causal (hfield : field = "correlation_id" ∨ field = "causation_id") :
    OnlyRaises Refusal.IsFault (causal uuid field value) := by
  have htexts : ∀ text ∈ [field ++ " must be a canonical UUID", field ++ " must use lowercase hyphenated canonical form",
      field ++ " must be a non-nil RFC 4122 UUID", field ++ " must be a non-empty canonical UUID"],
      Words ("causal binding invalid: " ++ text) := by
    rcases hfield with rfl | rfl <;> decide
  have hmember : identifierText uuid field value ∈ [field ++ " must be a canonical UUID",
      field ++ " must use lowercase hyphenated canonical form", field ++ " must be a non-nil RFC 4122 UUID",
      field ++ " must be a non-empty canonical UUID"] := by
    unfold identifierText
    split
    · split
      · simp
      · split_ifs <;> simp
    · simp
  have hinvalid : (fault .provenanceIncomplete correlationZero
      (py ("causal binding invalid: " ++ identifierText uuid field value))).IsFault :=
    isFault_zero.2 (titleFits_words (htexts _ hmember))
  unfold causal
  split
  · split_ifs
    · exact onlyRaises_ok _
    · exact onlyRaises_error.2 hinvalid
  · exact onlyRaises_error.2 hinvalid

/-- A value of JSON is no object of another kind. -/
def Json (value : PyValue) : Prop := ∀ name, value ≠ .other name

theorem handled_tupleOf (hjson : Json value) :
    OnlyRaises (Refusal.Handled "invalid provenance: ") ((tupleOf value).mapError .raised) := by
  have htypes : ∀ name ∈ ["NoneType", "bool", "int", "float"],
      Words ("invalid provenance: " ++ ("'" ++ name ++ "' object is not iterable")) := by decide
  refine onlyRaises_mapError.2 ?_
  unfold tupleOf
  split
  case h_5 hlist htuple hstr hmapping =>
    refine onlyRaises_error.2 ⟨rfl, titleFits_words (htypes (typeName value) ?_)⟩
    cases value with
    | none | bool _ | int _ | float _ => simp [typeName]
    | str s => exact absurd rfl (hstr s)
    | list items => exact absurd rfl (hlist items)
    | tuple items => exact absurd rfl (htuple items)
    | mapping entries => exact absurd rfl (hmapping entries)
    | other name => exact absurd rfl (hjson name)
  all_goals exact onlyRaises_ok _

theorem handled_refs (hfield : Short field) (hjson : Json value) (hcorrelation : IsIdentifier correlationId) :
    OnlyRaises (Refusal.Handled "invalid provenance: ") (refs field value correlationId) := by
  unfold refs
  split
  · exact onlyRaises_error.2 (isFault_field hfield hcorrelation (by decide)).handled
  · refine onlyRaises_bind.2 ⟨handled_tupleOf hjson, fun items _ => ?_⟩
    refine onlyRaises_bind.2 ⟨onlyRaises_require.2 fun _ => ?_, fun _ _ => ?_⟩
    · exact (isFault_field hfield hcorrelation (by decide)).handled
    · refine onlyRaises_bind.2 ⟨onlyRaises_require.2 fun _ => ?_, fun _ _ => onlyRaises_ok _⟩
      exact (isFault_field hfield hcorrelation (by decide)).handled

theorem faults_reworded {α : Type} {reason : FaultReason} {x : Except Refusal α} (hcorrelation : IsIdentifier correlationId)
    (h : OnlyRaises Refusal.IsFault x) : OnlyRaises Refusal.IsFault (reworded reason correlationId x) := by
  cases x with
  | ok a => exact onlyRaises_ok a
  | error r =>
    cases onlyRaises_error.1 h with
    | intro f => exact onlyRaises_error.2 (isFault_fault.2 ⟨f.titled, hcorrelation, fun _ hc => nomatch hc⟩)

theorem handled_create {value : String → PyValue} {createdAt : Instant} (hjson : ∀ name, Json (value name)) :
    OnlyRaises (Refusal.Handled "invalid provenance: ") (ProvenanceRecord.create uuid value createdAt) := by
  refine onlyRaises_bind.2 ⟨(faults_causal (Or.inl rfl)).mono fun _ h => h.handled, fun correlationId _ => ?_⟩
  have hcorrelation := correlationId.2
  refine onlyRaises_bind.2 ⟨(faults_causal (Or.inr rfl)).mono fun _ h => h.handled, fun _ _ => ?_⟩
  refine onlyRaises_bind.2 ⟨(faults_string (by decide) hcorrelation).mono fun _ h => h.handled, fun _ _ => ?_⟩
  refine onlyRaises_bind.2 ⟨handled_refs (by decide) (hjson _) hcorrelation, fun _ _ => ?_⟩
  refine onlyRaises_bind.2 ⟨handled_refs (by decide) (hjson _) hcorrelation, fun _ _ => ?_⟩
  refine onlyRaises_bind.2 ⟨handled_refs (by decide) (hjson _) hcorrelation, fun _ _ => ?_⟩
  refine onlyRaises_bind.2 ⟨handled_refs (by decide) (hjson _) hcorrelation, fun _ _ => ?_⟩
  refine onlyRaises_bind.2 ⟨?_, fun _ _ => onlyRaises_ok _⟩
  exact (faults_reworded hcorrelation (faults_digest (by decide) hcorrelation)).mono fun _ h => h.handled

end Provenance

theorem faults_provenanceFromMapping {uuid : PyStr → Option PyStr} {value : Dict PyStr PyValue}
    (hjson : ∀ entry ∈ value.entries, Json entry.2) :
    OnlyRaises Refusal.IsFault (ProvenanceRecord.fromMapping uuid value) ↔
      missingFields provenanceFields value ≠ [] ∨ NamesFit 226 (additionalFields provenanceFields value) := by
  have hitem : ∀ name, Json (item value name) := by
    intro name
    unfold item
    cases hget : value.get? (py name) with
    | none => exact fun _ => nofun
    | some v => exact hjson _ (((Dict.mem_entries_iff _ _ _).mpr hget))
  refine faults_read listable_provenance rfl (faults_guarded ?_)
  exact onlyRaises_bind.2 ⟨handled_timestamp (Or.inr rfl), fun _ _ => handled_create hitem⟩

/-! ## Authority -/

section Authority
variable {authority : Authority} {request : AuthorityRequest} {signatureVerified revoked : Bool}
  {binding : Option VerifiedAuthorityBinding}

/-- The reason of the first check that fails, of a list of checks and their reasons. -/
def firstOf (checks : List (Bool × FaultReason)) : Option FaultReason := (checks.find? Prod.fst).map Prod.snd

/-- The checks of `validate_authority` in their order. -/
def firstFailed (authority : Authority) (request : AuthorityRequest) (signatureVerified revoked : Bool)
    (binding : Option VerifiedAuthorityBinding) : Option FaultReason :=
  firstOf [(signatureVerified = false ∨ authority.signatureRef = [], .authorityUnsigned),
    (revoked = true, .authorityRevoked),
    (BindingDiffers authority request.governedContext binding, .authorityBindingMismatch),
    (request.at' < authority.notBefore, .authorityNotYetValid), (authority.expiresAt ≤ request.at', .authorityExpired),
    (¬ InScope authority request, .authorityScopeMismatch)]

/-- A decision where no check fails, and a fault with the reason of the first one that does. -/
inductive Answers : Option FaultReason → Except Refusal AuthorityDecision → Prop
  | decided (d : AuthorityDecision) : Answers none (.ok d)
  | denied {reason : FaultReason} {r : Refusal} (h : r.Gives reason) : Answers (some reason) (.error r)

/-- What the context of a request has to be like: a denial repeats its correlation id, a decision its digest. -/
def Tellable (context : GovernedContext) : Option FaultReason → Prop
  | none => ∀ s ∈ texts context, Scalar s
  | some _ => IsIdentifier context.correlationId

theorem mem_members_of_text {c : GovernedContext} {s : PyStr} (h : s ∈ texts c) :
    ∃ entry ∈ c.members, entry.2 = .str s ∨ ∃ items, s ∈ items ∧ entry.2 = strings items := by
  simp only [texts, List.mem_append, List.mem_cons, List.not_mem_nil, or_false] at h
  simp only [GovernedContext.members, List.mem_cons, List.not_mem_nil, or_false, exists_eq_or_imp, exists_eq_left,
    PyValue.str.injEq]
  rcases h with (h | h) | h
  · rcases h with rfl | rfl | rfl | rfl | rfl | rfl | rfl | rfl | rfl <;> simp
  · exact Or.inr (Or.inr (Or.inr (Or.inl (Or.inr ⟨_, h, rfl⟩))))
  · exact Or.inr (Or.inr (Or.inr (Or.inr (Or.inr (Or.inr (Or.inr (Or.inl (Or.inr ⟨_, h, rfl⟩))))))))

theorem scalar_of_serialize_strings {items : List PyStr} {t : PyStr} (h : serialize (strings items) = .ok t) {s : PyStr}
    (hs : s ∈ items) : Scalar s := by
  rw [strings, serialize, serializeItems_eq] at h
  obtain ⟨parts, hparts, -⟩ := bind_eq_ok.1 h
  obtain ⟨t, ht⟩ := mapM_mem_ok hparts _ (List.mem_map_of_mem hs)
  exact scalar_of_serialize ht

theorem contextDigest_ok_iff {c : GovernedContext} : (∃ d, contextDigest c = .ok d) ↔ ∀ s ∈ texts c, Scalar s := by
  have hdigest : (∃ d, contextDigest c = .ok d) ↔ ∃ bytes, canonicalize c.toMapping = .ok bytes := by
    unfold contextDigest
    cases canonicalize c.toMapping <;> simp [Except.map, Except.mapError]
  rw [hdigest]
  constructor
  · rintro ⟨bytes, hbytes⟩ s hs
    obtain ⟨text, htext, -⟩ := canonicalize_eq_ok.1 hbytes
    rw [toMapping_members] at htext
    obtain ⟨entry, hentry, hvalue⟩ := mem_members_of_text hs
    obtain ⟨t, ht⟩ := serialize_member htext (List.mem_map_of_mem hentry)
    rcases hvalue with hvalue | ⟨items, hitem, hvalue⟩
    · rw [hvalue] at ht
      exact scalar_of_serialize ht
    · rw [hvalue] at ht
      exact scalar_of_serialize_strings ht hitem
  · intro h
    exact ⟨_, canonicalize_eq (iJson_toMapping h)⟩

theorem answers_check {bad : Prop} [Decidable bad] {reason : FaultReason} {title : String}
    {rest : List (Bool × FaultReason)} {next : Unit → Except Refusal AuthorityDecision} (htitle : Words title)
    (h : Answers (firstOf rest) (next ()) ↔ Tellable request.governedContext (firstOf rest)) :
    Answers (firstOf ((decide bad, reason) :: rest))
        (refuseIf bad (fault reason request.governedContext.correlationId (py title) request.causationId) >>= next) ↔
      Tellable request.governedContext (firstOf ((decide bad, reason) :: rest)) := by
  by_cases hbad : bad
  · have hfirst : firstOf ((decide bad, reason) :: rest) = some reason := by simp [firstOf, hbad]
    rw [hfirst, refuseIf, if_pos hbad]
    have hgives := @gives_fault reason request.governedContext.correlationId (py title) request.causationId
    constructor
    · intro hanswer
      cases hanswer with
      | denied hdenied => exact (hgives.mp hdenied).2.1
    · intro hcorrelation
      exact .denied (hgives.mpr ⟨titleFits_words htitle, hcorrelation, request.caused⟩)
  · have hfirst : firstOf ((decide bad, reason) :: rest) = firstOf rest := by simp [firstOf, hbad]
    rw [hfirst, refuseIf, if_neg hbad]
    exact h

theorem answers_validateAuthority :
    Answers (firstFailed authority request signatureVerified revoked binding)
        (validateAuthority authority request signatureVerified revoked binding) ↔
      Tellable request.governedContext (firstFailed authority request signatureVerified revoked binding) := by
  refine answers_check (by decide) (answers_check (by decide) (answers_check (by decide) (answers_check (by decide)
    (answers_check (by decide) (answers_check (by decide) ?_)))))
  have hlast : firstOf [] = none := rfl
  rw [hlast]
  refine Iff.trans ?_ contextDigest_ok_iff
  cases hdigest : contextDigest request.governedContext with
  | error e => exact iff_of_false (fun h => nomatch h) fun ⟨d, hd⟩ => nomatch hd
  | ok d => exact iff_of_true (.decided _) ⟨d, rfl⟩

end Authority

/-! ## Main result -/

section Samples

private def sampleDigest : PyStr := py "urn:sha256:" ++ List.replicate 64 (digitChar 0)

/-- A context whose correlation id is no UUID, which its constructor does not ask of it. -/
def namedContext (correlationId : PyStr) : GovernedContext where
  tenantId := py "t"
  organizationId := py "o"
  domainId := py "d"
  compartments := [py "c"]
  classificationMarkingRef := sampleDigest
  purpose := py "p"
  effectivePrincipalId := py "e"
  actorChain := [py "a"]
  ontologyReleaseDigest := sampleDigest
  policyBundleDigest := sampleDigest
  correlationId := correlationId

theorem admissible_namedContext {correlationId : PyStr} (h : correlationId ≠ []) : Admissible (namedContext correlationId) := by
  have hone : ∀ s : PyStr, s ≠ [] → IsArray [s] := fun s hs =>
    ⟨List.cons_ne_nil s [], List.nodup_singleton s, fun item hitem => List.mem_singleton.mp hitem ▸ hs⟩
  have hset : canonicalSet [py "c"] = .ok [py "c"] := by decide
  have hdigest : IsDigest sampleDigest := by decide
  refine ⟨⟨?_, ?_, ?_, ?_, ?_, h⟩, ⟨hone (py "c") (by decide), hset⟩, hone (py "a") (by decide), hdigest, hdigest, hdigest⟩ <;>
    exact List.cons_ne_nil _ _

theorem listed_singleton {s : PyStr} (h : s ≠ []) : Listed [s] :=
  ⟨List.cons_ne_nil s [], fun _ ht => List.mem_singleton.mp ht ▸ h, List.nodup_singleton s⟩

def sampleAuthority : Authority where
  authorityId := py "authority"
  effectivePrincipalId := py "e"
  capabilityIds := [py "read"]
  resourceScopes := [py "scope"]
  tenantId := py "t"
  domains := [py "d"]
  compartments := [py "c"]
  permittedPurposes := [py "p"]
  riskCeiling := .r1Low
  notBefore := 0
  expiresAt := 10
  delegationRef := sampleDigest
  policyBundleDigest := sampleDigest
  signatureRef := py "signature"
  named := by decide
  listed := ⟨listed_singleton (by decide), listed_singleton (by decide), listed_singleton (by decide),
    listed_singleton (by decide), listed_singleton (by decide)⟩
  bound := by decide
  window := by decide

def sampleRequest (correlationId : PyStr) (h : correlationId ≠ []) : AuthorityRequest where
  capabilityId := py "read"
  resourceScope := py "scope"
  riskClass := .r1Low
  governedContext := namedContext correlationId
  at' := 5
  causationId := none
  named := by decide
  governed := admissible_namedContext h
  caused := fun _ hc => nomatch hc

/-- Every field of a lease, and one more that holds a line break. -/
def brokenLease : Dict PyStr PyValue :=
  ⟨(leaseFields.map fun name => (py name, .none)) ++ [(py "note\n", .none)], by decide⟩

end Samples

/-- A mapping with an additional field whose name has a line break is refused with an untyped error, and a revoked
authority over a context with a correlation id that is no UUID is denied with one. -/
theorem untyped_refusals :
    ¬ OnlyRaises Refusal.IsFault (leaseFromMapping brokenLease) ∧
      firstFailed sampleAuthority (sampleRequest (py "c") (by decide)) true true none = some .authorityRevoked ∧
      ¬ Answers (some .authorityRevoked)
        (validateAuthority sampleAuthority (sampleRequest (py "c") (by decide)) true true none) := by
  have hfirst : firstFailed sampleAuthority (sampleRequest (py "c") (by decide)) true true none =
      some .authorityRevoked := by decide
  refine ⟨?_, hfirst, ?_⟩
  · rw [faults_leaseFromMapping]
    decide
  · rw [← hfirst, answers_validateAuthority, hfirst]
    show ¬ IsIdentifier (py "c")
    decide

/-- **A refusal of the governance boundary is the typed fault it is meant to be exactly if what its title and its
trace repeat of the input fits: the names of the additional fields of a record that has all its own, and the
correlation id of the context of a request that fails a check. A decision needs a context of Unicode text.** -/
theorem refusals_typed_iff (uuid : PyStr → Option PyStr) (lease provenance : Dict PyStr PyValue) (authority : Authority)
    (request : AuthorityRequest) (signatureVerified revoked : Bool) (binding : Option VerifiedAuthorityBinding)
    (hjson : ∀ entry ∈ provenance.entries, Json entry.2) :
    (OnlyRaises Refusal.IsFault (leaseFromMapping lease) ∧
        OnlyRaises Refusal.IsFault (ProvenanceRecord.fromMapping uuid provenance) ∧
        Answers (firstFailed authority request signatureVerified revoked binding)
          (validateAuthority authority request signatureVerified revoked binding)) ↔
      (missingFields leaseFields lease ≠ [] ∨ NamesFit 231 (additionalFields leaseFields lease)) ∧
        (missingFields provenanceFields provenance ≠ [] ∨ NamesFit 226 (additionalFields provenanceFields provenance)) ∧
        Tellable request.governedContext (firstFailed authority request signatureVerified revoked binding) := by
  rw [faults_leaseFromMapping, faults_provenanceFromMapping hjson, answers_validateAuthority]

theorem refusals_typed_iff_sample :
    OnlyRaises Refusal.IsFault (leaseFromMapping ⟨[(py "note\n", .none)], by decide⟩) ∧
      OnlyRaises Refusal.IsFault (ProvenanceRecord.fromMapping some ⟨[(py "created_at", .none)], by decide⟩) ∧
      Answers (firstFailed sampleAuthority (sampleRequest correlationZero (by decide)) true true none)
        (validateAuthority sampleAuthority (sampleRequest correlationZero (by decide)) true true none) :=
  (refusals_typed_iff some _ _ sampleAuthority (sampleRequest correlationZero (by decide)) true true none
    (fun entry hentry => by
      rw [List.mem_singleton] at hentry
      rw [hentry]
      exact fun _ => nofun)).mpr
    ⟨Or.inl (by decide), Or.inl (by decide), by
      have hfirst : firstFailed sampleAuthority (sampleRequest correlationZero (by decide)) true true none =
          some .authorityRevoked := by decide
      rw [hfirst]
      exact isIdentifier_correlationZero⟩

end OcorRuntime.Governance
