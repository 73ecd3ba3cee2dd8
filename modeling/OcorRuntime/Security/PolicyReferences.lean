import OcorRuntime.Canonical.StandardJson
import OcorRuntime.Security.GrantForms

/-! The self-containment check of an installed policy module (`_data_references` and
`_self_contained_rules` in `security/control_plane.py`): every reference to `data` in the
compiled rules and imports must name a rule of the module itself. A module that is accepted
has `data` nowhere else, its locations left aside. -/
namespace OcorRuntime.Security
set_option autoImplicit false
set_option maxHeartbeats 250000

/-! ## The check -/

def textKey (name : String) : MappingKey := .str (py name)

/-- `node.get(name)`, of a node that is a dictionary. -/
def getMember (node : PyValue) (name : String) : Option PyValue :=
  match node with
  | .mapping es => Dict.find es (textKey name)
  | _ => none

/-- `node == {"type": type, "value": value}`. -/
def isTerm (type value : String) (node : PyValue) : Bool :=
  PyValue.pyEq node (.mapping [(textKey "type", .str (py type)), (textKey "value", .str (py value))])

/-- The operands of a reference that starts at `data`. -/
def dataOperands (es : List (MappingKey × PyValue)) : Option (List PyValue) :=
  match Dict.find es (textKey "type"), Dict.find es (textKey "value") with
  | some (.str type), some (.list (head :: operands)) =>
    if type = py "ref" ∧ isTerm "var" "data" head then some operands else none
  | _, _ => none

/-- Whether a node is the variable `data`. -/
def isDataVar (es : List (MappingKey × PyValue)) : Bool :=
  decide (Dict.find es (textKey "type") = some (.str (py "var")) ∧ Dict.find es (textKey "value") = some (.str (py "data")))

mutual
/-- `_data_references`. -/
def dataReferences : PyValue → List (List PyValue)
  | .mapping es =>
    (if isDataVar es then [[]] else []) ++
      match dataOperands es with
      | some operands => operands :: operandReferences es
      | none => memberReferences es
  | .list items => itemReferences items
  | _ => []
/-- The references in the items of a list. -/
def itemReferences : List PyValue → List (List PyValue)
  | [] => []
  | item :: items => dataReferences item ++ itemReferences items
/-- The references in the members of a node, its location left out. -/
def memberReferences : List (MappingKey × PyValue) → List (List PyValue)
  | [] => []
  | (key, child) :: es => (if key ≠ textKey "location" then dataReferences child else []) ++ memberReferences es
/-- The references in the value of a node, behind its first item. -/
def operandReferences : List (MappingKey × PyValue) → List (List PyValue)
  | [] => []
  | (key, child) :: es => if key = textKey "value" then tailReferences child else operandReferences es
def tailReferences : PyValue → List (List PyValue)
  | .list (_ :: operands) => itemReferences operands
  | _ => []
end

attribute [local grind =] dataReferences itemReferences memberReferences operandReferences tailReferences

mutual
/-- `_strip_locations`. -/
def stripLocations : PyValue → PyValue
  | .mapping es => .mapping (stripMembers es)
  | .list items => .list (stripItems items)
  | node => node
def stripItems : List PyValue → List PyValue
  | [] => []
  | item :: items => stripLocations item :: stripItems items
def stripMembers : List (MappingKey × PyValue) → List (MappingKey × PyValue)
  | [] => []
  | (key, child) :: es => if key ≠ textKey "location" then (key, stripLocations child) :: stripMembers es else stripMembers es
end

attribute [local grind =] stripLocations stripItems stripMembers

/-- `_rule_fingerprint`. -/
def ruleFingerprint (rule : PyValue) : Except PyError PyStr := StandardJson.dumps (stripLocations rule)

/-- `_rule_name`. -/
def ruleName (rule : PyValue) : Option PyStr :=
  match (getMember rule "head").bind fun head => getMember head "name" with
  | some (.str name) => if name = [] then none else some name
  | _ => none

/-- `_GOVERNED_PACKAGE_PATH`. -/
def governedPackagePath : List PyStr := [py "data", py "ocor", py "control_plane"]

/-- `_policy_package_path`. -/
def policyPackagePath (item : PyValue) : List PyStr :=
  match (getMember item "ast").bind fun ast => (getMember ast "package").bind fun package => getMember package "path" with
  | some (.list path) =>
    (path.mapM fun node => match getMember node "value" with
      | some (.str value) => some value
      | _ => none).getD []
  | _ => []

/-- `value in names`; a list or a dictionary has no hash. -/
def inNames (names : List PyStr) : Option PyValue → Except PyError Bool
  | some (.str value) => .ok (decide (value ∈ names))
  | some (.list _) => .error ⟨.typeError, "unhashable type: 'list'", []⟩
  | some (.mapping _) => .error ⟨.typeError, "unhashable type: 'dict'", []⟩
  | _ => .ok false

/-- Whether a reference names one of these rules. -/
def isLocal (names : List PyStr) : List PyValue → Except PyError Bool
  | ocor :: controlPlane :: head :: _ =>
    if isTerm "string" "ocor" ocor ∧ isTerm "string" "control_plane" controlPlane ∧
        getMember head "type" = some (.str (py "string")) then inNames names (getMember head "value")
    else .ok false
  | _ => .ok false

def policyInvalid (message : String) : PyError := controlError "POLICY_BUNDLE_INVALID" message []

def requireLocal (names : List PyStr) (reference : List PyValue) : Except PyError Unit := do
  let isOwn ← isLocal names reference
  refuseIf (isOwn = false) (policyInvalid "signed module depends on a data document outside the bundle")

/-- `_self_contained_rules`: the fingerprints of the rules; an `imports` that is not there has no references. -/
def selfContainedRules (item : PyValue) : Except PyError (List PyStr) := do
  refuseIf (policyPackagePath item ≠ governedPackagePath) (policyInvalid "signed module is not in the governed package")
  let ast := (getMember item "ast").getD .none
  match getMember ast "rules" with
  | some (.list (first :: rest)) => do
    let rules := first :: rest
    let names ← orRaise (rules.mapM ruleName) (policyInvalid "signed module rule is unnamed")
    let imports := (getMember ast "imports").getD .none
    (dataReferences (.list rules) ++ dataReferences imports).forM (requireLocal names)
    rules.mapM ruleFingerprint
  | _ => .error (policyInvalid "signed module has no rules")

/-! ## Where a variable occurs -/

inductive AstStep
  | item (i : ℕ)
  | member (key : MappingKey)
deriving DecidableEq

def child : PyValue → AstStep → Option PyValue
  | .list items, .item i => items[i]?
  | .mapping es, .member key => Dict.find es key
  | _, _ => none

/-- The node at the end of a path. -/
def descend (node : PyValue) : List AstStep → Option PyValue
  | [] => some node
  | step :: path => (child node step).bind fun next => descend next path

attribute [local grind =] descend

/-- The variable `data` is at the end of the path. -/
def DataAt (root : PyValue) (path : List AstStep) : Prop := ∃ es, descend root path = some (.mapping es) ∧ isDataVar es

/-- No step goes into a location. -/
def OutsideLocations (path : List AstStep) : Prop := AstStep.member (textKey "location") ∉ path

/-- A reference carries its type, its value and its location only. -/
def PlainReferences (root : PyValue) : Prop :=
  ∀ path es, descend root path = some (.mapping es) → Dict.find es (textKey "type") = some (.str (py "ref")) →
    ∀ key value, Dict.find es key = some value → key ∈ [textKey "type", textKey "value", textKey "location"]

/-- The path ends at the head of a reference that starts at `data`, with these operands. -/
def HeadsReference (root : PyValue) (path : List AstStep) (operands : List PyValue) : Prop :=
  ∃ parent es, path = parent ++ [.member (textKey "value"), .item 0] ∧ descend root parent = some (.mapping es) ∧
    dataOperands es = some operands

theorem descend_cons {root next : PyValue} {step : AstStep} (h : child root step = some next) (path : List AstStep) :
    descend root (step :: path) = descend next path := by
  rw [descend, h, Option.bind_some]

theorem PlainReferences.child {root next : PyValue} {step : AstStep} (h : PlainReferences root)
    (hnext : Security.child root step = some next) : PlainReferences next := by
  intro path es hpath
  exact h (step :: path) es ((descend_cons hnext path).trans hpath)

theorem HeadsReference.cons {root next : PyValue} {step : AstStep} {path : List AstStep} {operands : List PyValue}
    (hnext : child root step = some next) (h : HeadsReference next path operands) :
    HeadsReference root (step :: path) operands := by
  obtain ⟨parent, es, rfl, hparent, hoperands⟩ := h
  exact ⟨step :: parent, es, rfl, (descend_cons hnext parent).trans hparent, hoperands⟩

/-! ## What is collected -/

theorem dataReferences_sub_items {items : List PyValue} {item : PyValue} (h : item ∈ items) :
    dataReferences item ⊆ itemReferences items := by
  induction items with
  | nil => exact absurd h List.not_mem_nil
  | cons first items ih =>
    rw [itemReferences]
    rcases List.mem_cons.mp h with rfl | h
    · exact List.subset_append_left _ _
    · exact List.subset_append_of_subset_right _ (ih h)

theorem dataReferences_sub_members {es : List (MappingKey × PyValue)} {key : MappingKey} {value : PyValue}
    (h : Dict.find es key = some value) (hkey : key ≠ textKey "location") : dataReferences value ⊆ memberReferences es := by
  induction es with
  | nil => cases h
  | cons entry es ih =>
    obtain ⟨name, member⟩ := entry
    rw [Dict.find] at h
    rw [memberReferences]
    split_ifs at h with hname
    · cases h
      rw [hname, if_pos hkey]
      exact List.subset_append_left _ _
    · exact List.subset_append_of_subset_right _ (ih h)

theorem operandReferences_eq {es : List (MappingKey × PyValue)} {head : PyValue} {operands : List PyValue}
    (h : Dict.find es (textKey "value") = some (.list (head :: operands))) : operandReferences es = itemReferences operands := by
  induction es with
  | nil => cases h
  | cons entry es ih =>
    obtain ⟨name, member⟩ := entry
    rw [Dict.find] at h
    rw [operandReferences]
    split_ifs at h with hname
    · cases h
      rw [if_pos hname, tailReferences]
    · rw [if_neg hname, ih h]

theorem dataOperands_eq_some {es : List (MappingKey × PyValue)} {operands : List PyValue} (h : dataOperands es = some operands) :
    Dict.find es (textKey "type") = some (.str (py "ref")) ∧
      ∃ head, Dict.find es (textKey "value") = some (.list (head :: operands)) ∧ isTerm "var" "data" head := by
  unfold dataOperands at h
  split at h
  · next type head rest htype hvalue =>
    split_ifs at h with hhead
    cases h
    exact ⟨hhead.1 ▸ htype, head, hvalue, hhead.2⟩
  · cases h

theorem eq_str_of_pyEq {node : PyValue} {s : PyStr} (h : PyValue.pyEq node (.str s) = true) : node = .str s := by
  cases node with
  | str s' => rw [eq_of_beq h]
  | float x => cases x <;> cases h
  | _ => cases h

theorem isTerm_child {type value : String} {node next : PyValue} {step : AstStep} (h : isTerm type value node = true)
    (hnext : child node step = some next) : ∃ s, next = .str s := by
  cases node with
  | mapping es =>
    cases step with
    | item i => cases hnext
    | member key =>
      unfold isTerm at h
      rw [PyValue.pyEq, Bool.and_eq_true, PyValue.pyEqEntries_iff] at h
      obtain ⟨b, hb, heq⟩ := h.2 (key, next) (Dict.mem_of_find hnext)
      have hmem := Dict.mem_of_find hb
      simp only [List.mem_cons, List.not_mem_nil, or_false, Prod.mk.injEq] at hmem
      rcases hmem with ⟨-, rfl⟩ | ⟨-, rfl⟩
      · exact ⟨_, eq_str_of_pyEq heq⟩
      · exact ⟨_, eq_str_of_pyEq heq⟩
  | list items =>
    unfold isTerm at h
    rw [PyValue.pyEq] at h
    · cases h
    all_goals
      intros
      contradiction
  | _ => cases hnext

theorem not_dataAt_str {s : PyStr} {path : List AstStep} : ¬ DataAt (.str s) path := by
  rintro ⟨es, hes, -⟩
  cases path with
  | nil => cases hes
  | cons step path => cases hes

theorem DataAt.below {root next : PyValue} {step : AstStep} {path : List AstStep} (hnext : child root step = some next)
    (h : DataAt root (step :: path)) : DataAt next path := by
  obtain ⟨es, hes, hvar⟩ := h
  exact ⟨es, (descend_cons hnext path).symm.trans hes, hvar⟩

theorem DataAt.exists_child {root : PyValue} {step : AstStep} {path : List AstStep} (h : DataAt root (step :: path)) :
    ∃ next, child root step = some next := by
  obtain ⟨es, hes, -⟩ := h
  rw [descend] at hes
  obtain ⟨next, hnext, -⟩ := Option.bind_eq_some_iff.mp hes
  exact ⟨next, hnext⟩

/-- Within a reference that starts at `data`, the variable is its head, or it is within an operand. -/
theorem DataAt.in_reference {members : List (MappingKey × PyValue)} {operands : List PyValue} {key : MappingKey}
    {path : List AstStep} (hplain : PlainReferences (.mapping members)) (hoperands : dataOperands members = some operands)
    (hkey : key ≠ textKey "location") (h : DataAt (.mapping members) (.member key :: path)) :
    key = textKey "value" ∧ (path = [.item 0] ∨
      ∃ i node below, path = .item (i + 1) :: below ∧ operands[i]? = some node ∧ DataAt node below) := by
  obtain ⟨htype, head, hvalue, hhead⟩ := dataOperands_eq_some hoperands
  obtain ⟨next, hnext⟩ := h.exists_child
  have hbelow := h.below hnext
  have hcarried := hplain [] members rfl htype key next hnext
  simp only [List.mem_cons, List.not_mem_nil, or_false] at hcarried
  rcases hcarried with rfl | rfl | hlocation
  · cases htype.symm.trans hnext
    exact absurd hbelow not_dataAt_str
  · cases hvalue.symm.trans hnext
    refine ⟨rfl, ?_⟩
    cases path with
    | nil =>
      obtain ⟨es, hes, -⟩ := hbelow
      cases hes
    | cons operand path =>
      obtain ⟨node, hnode⟩ := hbelow.exists_child
      have hdata := hbelow.below hnode
      cases operand with
      | member key => cases hnode
      | item i =>
        cases i with
        | zero =>
          cases hnode
          cases path with
          | nil => exact .inl rfl
          | cons step path =>
            obtain ⟨text, htext⟩ := hdata.exists_child
            obtain ⟨s, rfl⟩ := isTerm_child hhead htext
            exact absurd (hdata.below htext) not_dataAt_str
        | succ i => exact .inr ⟨i, node, path, rfl, hnode, hdata⟩
  · exact absurd hlocation hkey

/-- Every occurrence of `data` is collected: as the head of a reference, by its operands, or as a reference without
any. The induction is on the path; a reference is passed in two steps, into its value and to an operand. -/
theorem dataAt_collected : ∀ (n : ℕ) (root : PyValue) (path : List AstStep), path.length = n → PlainReferences root →
    DataAt root path → OutsideLocations path →
      [] ∈ dataReferences root ∨ ∃ operands ∈ dataReferences root, HeadsReference root path operands := by
  intro n
  induction n using Nat.strong_induction_on with
  | _ n ih =>
    intro root path hn hplain hdata houtside
    cases path with
    | nil =>
      obtain ⟨es, hes, hvar⟩ := hdata
      cases hes
      left
      rw [dataReferences, if_pos hvar]
      exact List.mem_append_left _ List.mem_cons_self
    | cons step path =>
      obtain ⟨next, hnext⟩ := hdata.exists_child
      have hshort : path.length < n := hn ▸ Nat.lt_succ_self _
      have houtside' : OutsideLocations path := fun h => houtside (List.mem_cons_of_mem _ h)
      -- what is collected below is collected here, if this node is gone through
      have hthrough (hsub : dataReferences next ⊆ dataReferences root) : [] ∈ dataReferences root ∨
          ∃ operands ∈ dataReferences root, HeadsReference root (step :: path) operands := by
        rcases ih path.length hshort next path rfl (hplain.child hnext) (hdata.below hnext) houtside' with
          h | ⟨operands, h, hheads⟩
        · exact .inl (hsub h)
        · exact .inr ⟨operands, hsub h, hheads.cons hnext⟩
      cases root with
      | list items =>
        cases step with
        | member key => cases hnext
        | item i =>
          refine hthrough ?_
          rw [dataReferences]
          exact dataReferences_sub_items (List.mem_of_getElem? hnext)
      | mapping members =>
        cases step with
        | item i => cases hnext
        | member key =>
          have hkey : key ≠ textKey "location" := fun h => houtside (h ▸ List.mem_cons_self)
          cases hoperands : dataOperands members with
          | none =>
            refine hthrough ?_
            rw [dataReferences, hoperands]
            exact List.subset_append_of_subset_right _ (dataReferences_sub_members hnext hkey)
          | some operands =>
            obtain ⟨-, head, hvalue, -⟩ := dataOperands_eq_some hoperands
            have hreferences : dataReferences (.mapping members) =
                (if isDataVar members then [[]] else []) ++ operands :: itemReferences operands := by
              rw [dataReferences, hoperands, ← operandReferences_eq hvalue]
            obtain ⟨rfl, rfl | ⟨i, node, below, rfl, hnode, hdata'⟩⟩ := hdata.in_reference hplain hoperands hkey
            · refine .inr ⟨operands, ?_, [], members, rfl, rfl, hoperands⟩
              rw [hreferences]
              exact List.mem_append_right _ List.mem_cons_self
            · cases hvalue.symm.trans hnext
              have hchild : child (.list (head :: operands)) (.item (i + 1)) = some node := hnode
              have hsub : dataReferences node ⊆ dataReferences (.mapping members) := by
                rw [hreferences]
                exact List.subset_append_of_subset_right _ (List.subset_cons_of_subset _
                  (dataReferences_sub_items (List.mem_of_getElem? hnode)))
              have hless : below.length < n := (Nat.lt_succ_self below.length).trans hshort
              rcases ih below.length hless node below rfl ((hplain.child hnext).child hchild) hdata'
                (fun h => houtside' (List.mem_cons_of_mem _ h)) with h | ⟨inner, h, hheads⟩
              · exact .inl (hsub h)
              · exact .inr ⟨inner, hsub h, (hheads.cons hchild).cons hnext⟩
      | _ => cases hnext

/-! ## What is accepted -/

/-- The rules and the imports of a module. -/
def moduleParts (item : PyValue) : List PyValue :=
  let ast := (getMember item "ast").getD .none
  [(getMember ast "rules").getD .none, (getMember ast "imports").getD .none]

/-- The name is one of a rule of the module. -/
def IsRuleName (item : PyValue) (name : PyStr) : Prop :=
  ∃ rules, getMember ((getMember item "ast").getD .none) "rules" = some (.list rules) ∧
    ∃ rule ∈ rules, ruleName rule = some name

/-- `data.ocor.control_plane` and then the name of a rule of the module. -/
def OwnReference (item : PyValue) (operands : List PyValue) : Prop :=
  ∃ ocor controlPlane head rest name, operands = ocor :: controlPlane :: head :: rest ∧
    isTerm "string" "ocor" ocor ∧ isTerm "string" "control_plane" controlPlane ∧
    getMember head "type" = some (.str (py "string")) ∧ getMember head "value" = some (.str name) ∧ IsRuleName item name

theorem isLocal_eq_true {names : List PyStr} {operands : List PyValue} (h : isLocal names operands = .ok true) :
    ∃ ocor controlPlane head rest name, operands = ocor :: controlPlane :: head :: rest ∧
      isTerm "string" "ocor" ocor ∧ isTerm "string" "control_plane" controlPlane ∧
      getMember head "type" = some (.str (py "string")) ∧ getMember head "value" = some (.str name) ∧ name ∈ names := by
  unfold isLocal at h
  split at h
  · next ocor controlPlane head rest =>
    split_ifs at h with hterms
    unfold inNames at h
    split at h
    · next value hvalue =>
      exact ⟨ocor, controlPlane, head, rest, value, rfl, hterms.1, hterms.2.1, hterms.2.2, hvalue,
        of_decide_eq_true (Except.ok.inj h)⟩
    all_goals cases h
  · cases h

theorem requireLocal_eq_ok {names : List PyStr} {operands : List PyValue} (h : requireLocal names operands = .ok ()) :
    isLocal names operands = .ok true := by
  obtain ⟨isOwn, hown, hcheck⟩ := bind_eq_ok.1 h
  rw [hown, Bool.eq_true_of_not_eq_false (refuseIf_eq_ok.1 hcheck)]

theorem forM_eq_ok {α : Type} {f : α → Except PyError Unit} {l : List α} (h : l.forM f = .ok ()) :
    ∀ a ∈ l, f a = .ok () := by
  induction l with
  | nil => exact fun a ha => absurd ha List.not_mem_nil
  | cons first l ih =>
    obtain ⟨hfirst, hrest⟩ := check_bind_eq_ok.1 (show (f first >>= fun _ => l.forM f) = .ok () from h)
    exact List.forall_mem_cons.mpr ⟨hfirst, ih hrest⟩

theorem ruleName_of_mem {rules : List PyValue} {names : List PyStr} (h : rules.mapM ruleName = some names) {name : PyStr}
    (hname : name ∈ names) : ∃ rule ∈ rules, ruleName rule = some name := by
  induction rules generalizing names with
  | nil =>
    cases h
    exact absurd hname List.not_mem_nil
  | cons rule rules ih =>
    rw [List.mapM_cons] at h
    obtain ⟨first, hfirst, h⟩ := Option.bind_eq_some_iff.mp h
    obtain ⟨rest, hrest, h⟩ := Option.bind_eq_some_iff.mp h
    cases h
    rcases List.mem_cons.mp hname with rfl | hname
    · exact ⟨rule, List.mem_cons_self, hfirst⟩
    · obtain ⟨rule', hmem, hrule⟩ := ih hrest hname
      exact ⟨rule', List.mem_cons_of_mem _ hmem, hrule⟩

/-- An accepted module: every reference that is collected is one to a rule of its own. -/
theorem selfContainedRules_eq_ok {item : PyValue} {fingerprints : List PyStr}
    (h : selfContainedRules item = .ok fingerprints) :
    ∀ part ∈ moduleParts item, ∀ operands ∈ dataReferences part, OwnReference item operands := by
  unfold selfContainedRules at h
  obtain ⟨-, h⟩ := check_bind_eq_ok.1 h
  dsimp only at h
  split at h
  · next first rest hrules =>
    obtain ⟨names, hnames, h⟩ := bind_eq_ok.1 h
    obtain ⟨hchecked, -⟩ := check_bind_eq_ok.1 h
    have hall := forM_eq_ok hchecked
    intro part hpart operands hoperands
    have hmem : operands ∈ dataReferences (.list (first :: rest)) ++
        dataReferences ((getMember ((getMember item "ast").getD .none) "imports").getD .none) := by
      simp only [moduleParts, List.mem_cons, List.not_mem_nil, or_false] at hpart
      rcases hpart with rfl | rfl
      · rw [hrules] at hoperands
        exact List.mem_append_left _ hoperands
      · exact List.mem_append_right _ hoperands
    obtain ⟨ocor, controlPlane, head, tail, name, hshape, h1, h2, h3, h4, hname⟩ :=
      isLocal_eq_true (requireLocal_eq_ok (hall operands hmem))
    exact ⟨ocor, controlPlane, head, tail, name, hshape, h1, h2, h3, h4, first :: rest, hrules,
      ruleName_of_mem (orRaise_eq_ok.1 hnames) hname⟩
  · cases h

/-- **In an accepted module every occurrence of `data` outside locations, however deep, is the head of a reference to
a rule of the module itself.** -/
theorem accepted_module_self_contained : ∀ (item : PyValue) (fingerprints : List PyStr),
    selfContainedRules item = .ok fingerprints → (∀ part ∈ moduleParts item, PlainReferences part) →
      ∀ part ∈ moduleParts item, ∀ path, DataAt part path → OutsideLocations path →
        ∃ operands, HeadsReference part path operands ∧ OwnReference item operands := by
  intro item fingerprints h hplain part hpart path hdata houtside
  have hown := selfContainedRules_eq_ok h part hpart
  rcases dataAt_collected _ part path rfl (hplain part hpart) hdata houtside with hempty | ⟨operands, hmem, hheads⟩
  · obtain ⟨_, _, _, _, _, hnil, -⟩ := hown [] hempty
    cases hnil
  · exact ⟨operands, hheads, hown operands hmem⟩

/-! ## A module with one rule -/

theorem plainReferences_of_children {root : PyValue}
    (hroot : ∀ es, root = .mapping es → Dict.find es (textKey "type") = some (.str (py "ref")) →
      ∀ key value, Dict.find es key = some value → key ∈ [textKey "type", textKey "value", textKey "location"])
    (hchildren : ∀ step next, child root step = some next → PlainReferences next) : PlainReferences root := by
  intro path es hpath
  cases path with
  | nil => exact hroot es (Option.some.inj hpath)
  | cons step path =>
    rw [descend] at hpath
    obtain ⟨next, hnext, hbelow⟩ := Option.bind_eq_some_iff.mp hpath
    exact hchildren step next hnext path es hbelow

theorem plainReferences_str (s : PyStr) : PlainReferences (.str s) :=
  plainReferences_of_children (fun _ h => nomatch h) fun _ _ h => nomatch h

theorem plainReferences_list {items : List PyValue} (h : ∀ item ∈ items, PlainReferences item) :
    PlainReferences (.list items) := by
  refine plainReferences_of_children (fun _ hes => nomatch hes) fun step next hnext => ?_
  cases step with
  | item i => exact h next (List.mem_of_getElem? hnext)
  | member key => cases hnext

theorem plainReferences_mapping {es : List (MappingKey × PyValue)}
    (hkeys : Dict.find es (textKey "type") = some (.str (py "ref")) →
      ∀ e ∈ es, e.1 ∈ [textKey "type", textKey "value", textKey "location"])
    (h : ∀ e ∈ es, PlainReferences e.2) : PlainReferences (.mapping es) := by
  refine plainReferences_of_children ?_ fun step next hnext => ?_
  · rintro es' hes htype key value hvalue
    cases hes
    exact hkeys htype _ (Dict.mem_of_find hvalue)
  · cases step with
    | item i => cases hnext
    | member key => exact h _ (Dict.mem_of_find hnext)

def sampleTerm (type value : String) : PyValue :=
  .mapping [(textKey "type", .str (py type)), (textKey "value", .str (py value))]

/-- A rule that names itself. -/
def sampleReference : PyValue :=
  .mapping [(textKey "type", .str (py "ref")), (textKey "value", .list [sampleTerm "var" "data", sampleTerm "string" "ocor",
    sampleTerm "string" "control_plane", sampleTerm "string" "allow"])]

/-- A module in the governed package with one rule of two members. -/
def sampleModule (name : String) (value : PyValue) : PyValue :=
  .mapping [(textKey "ast", .mapping [
    (textKey "package", .mapping [(textKey "path", .list [sampleTerm "var" "data", sampleTerm "string" "ocor",
      sampleTerm "string" "control_plane"])]),
    (textKey "rules", .list [.mapping [(textKey "head", .mapping [(textKey "name", .str (py "allow"))]),
      (textKey name, value)]])])]

theorem sampleTerm_plain (type value : String) (h : py type ≠ py "ref") : PlainReferences (sampleTerm type value) := by
  refine plainReferences_mapping (fun htype => absurd (PyValue.str.inj (Option.some.inj htype)) h) ?_
  intro e he
  simp only [List.mem_cons, List.not_mem_nil, or_false] at he
  rcases he with rfl | rfl
  · exact plainReferences_str _
  · exact plainReferences_str _

theorem sampleModule_plain {name : String} {value : PyValue} (hname : textKey name ≠ textKey "type")
    (hvalue : PlainReferences value) : ∀ part ∈ moduleParts (sampleModule name value), PlainReferences part := by
  intro part hpart
  have hparts : moduleParts (sampleModule name value) =
      [.list [.mapping [(textKey "head", .mapping [(textKey "name", .str (py "allow"))]), (textKey name, value)]], .none] := rfl
  rw [hparts] at hpart
  simp only [List.mem_cons, List.not_mem_nil, or_false] at hpart
  rcases hpart with rfl | rfl
  · refine plainReferences_list fun item hitem => ?_
    rw [List.mem_singleton.mp hitem]
    refine plainReferences_mapping (fun htype => ?_) fun e he => ?_
    · have hhead : textKey "head" ≠ textKey "type" := by decide
      rw [Dict.find, if_neg hhead, Dict.find, if_neg hname] at htype
      cases htype
    · simp only [List.mem_cons, List.not_mem_nil, or_false] at he
      rcases he with rfl | rfl
      · refine plainReferences_mapping (fun htype => by cases htype) fun e he => ?_
        rw [List.mem_singleton.mp he]
        exact plainReferences_str _
      · exact hvalue
  · exact plainReferences_of_children (fun _ h => by cases h) fun _ _ h => by cases h

theorem sampleReference_plain : PlainReferences sampleReference := by
  refine plainReferences_mapping (fun _ e he => ?_) fun e he => ?_
  · simp only [List.mem_cons, List.not_mem_nil, or_false] at he
    rcases he with rfl | rfl
    · exact List.mem_cons_self
    · exact List.mem_cons_of_mem _ List.mem_cons_self
  · simp only [List.mem_cons, List.not_mem_nil, or_false] at he
    rcases he with rfl | rfl
    · exact plainReferences_str _
    · refine plainReferences_list fun item hitem => ?_
      simp only [List.mem_cons, List.not_mem_nil, or_false] at hitem
      rcases hitem with rfl | rfl | rfl | rfl <;> exact sampleTerm_plain _ _ (by decide)

theorem accepted_module_self_contained_sample : ∃ fingerprints,
    selfContainedRules (sampleModule "value" sampleReference) = .ok fingerprints ∧
      ∀ part ∈ moduleParts (sampleModule "value" sampleReference), ∀ path, DataAt part path → OutsideLocations path →
        ∃ operands, HeadsReference part path operands ∧ OwnReference (sampleModule "value" sampleReference) operands := by
  have haccepted : (selfContainedRules (sampleModule "value" sampleReference)).isOk = true := by decide
  obtain ⟨fingerprints, hfingerprints⟩ : ∃ fingerprints,
      selfContainedRules (sampleModule "value" sampleReference) = .ok fingerprints := by
    cases hcase : selfContainedRules (sampleModule "value" sampleReference) with
    | error e =>
      rw [hcase] at haccepted
      cases haccepted
    | ok fingerprints => exact ⟨fingerprints, rfl⟩
  exact ⟨fingerprints, hfingerprints, accepted_module_self_contained _ _ hfingerprints
    (sampleModule_plain (by decide) sampleReference_plain)⟩

/-- A rule whose location holds the variable: the module is accepted. -/
theorem data_in_location_accepted : ¬ ∀ (item : PyValue) (fingerprints : List PyStr),
    selfContainedRules item = .ok fingerprints → (∀ part ∈ moduleParts item, PlainReferences part) →
      ∀ part ∈ moduleParts item, ∀ path, DataAt part path →
        ∃ operands, HeadsReference part path operands ∧ OwnReference item operands := by
  intro h
  have haccepted : (selfContainedRules (sampleModule "location" (sampleTerm "var" "data"))).isOk = true := by decide
  cases hcase : selfContainedRules (sampleModule "location" (sampleTerm "var" "data")) with
  | error e =>
    rw [hcase] at haccepted
    cases haccepted
  | ok fingerprints =>
    obtain ⟨operands, ⟨parent, es, hpath, -⟩, -⟩ := h _ fingerprints hcase
      (sampleModule_plain (by decide) (sampleTerm_plain _ _ (by decide))) _ List.mem_cons_self
      [.item 0, .member (textKey "location")] ⟨_, rfl, by decide⟩
    have hlast := congrArg List.getLast? hpath
    rw [List.getLast?_append] at hlast
    revert hlast
    simp

end OcorRuntime.Security
