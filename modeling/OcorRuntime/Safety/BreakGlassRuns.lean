import OcorRuntime.Safety.BreakGlass

/-! Break-glass over whole runs of a controller, whatever its surroundings do between the
calls. A call only adds to what was audited and revoked; only an accepted grant touches
what was issued; and a use is returned only by a call that found everything in order. -/
namespace OcorRuntime.Safety
set_option autoImplicit false
set_option maxHeartbeats 250000

/-! ## What the checks establish -/

/-- The tokens of the `roles` attribute. -/
def roleTokens (record : IdentityRecord) : List PyStr :=
  match (record.attributes.get? (py "roles")).bind text? with
  | some raw => if raw = [] then [] else raw.splitOn (codePoint 0x20)
  | none => []

/-- The registry resolves the identity to an active human with these roles. -/
def ActiveHuman (directory : PrincipalDirectory) (canonicalId : PyStr) (roles : List PyStr) : Prop :=
  ∃ record, directory canonicalId = .ok (some record) ∧
    record.attributes.get? (py "principal_kind") = some (.str (py "HUMAN")) ∧
    record.attributes.get? (py "status") = some (.str (py "ACTIVE")) ∧ roleTokens record = roles

/-- Two distinct active humans, neither the requester, hold the two roles between them. -/
def DualControl (directory : PrincipalDirectory) (requester : PyStr) (approvers : PyStr × PyStr) (domain : PyStr) :
    Prop :=
  approvers.1 ≠ approvers.2 ∧ requester ≠ approvers.1 ∧ requester ≠ approvers.2 ∧
    ∃ first second, ActiveHuman directory approvers.1 first ∧ ActiveHuman directory approvers.2 second ∧
      ((securityDutyOfficerRole ∈ first ∧ ownerRole domain ∈ second) ∨
        (securityDutyOfficerRole ∈ second ∧ ownerRole domain ∈ first))

theorem readRecord_eq_ok {canonicalId : PyStr} {record : IdentityRecord} {principal : Principal}
    (h : readRecord canonicalId record = .ok principal) :
    record.attributes.get? (py "principal_kind") = some (.str principal.kind) ∧
      (principal.active = true → record.attributes.get? (py "status") = some (.str (py "ACTIVE"))) ∧
      principal.roles = roleTokens record := by
  obtain ⟨_, -, h⟩ := bind_eq_ok.1 h
  obtain ⟨kind, hkind, h⟩ := bind_eq_ok.1 h
  obtain ⟨rawRoles, hroles, h⟩ := bind_eq_ok.1 h
  obtain ⟨_, -, h⟩ := bind_eq_ok.1 h
  cases h
  have hfind := List.find?_some (orRaise_eq_ok.1 hkind)
  have hfound : (record.attributes.get? (py "principal_kind")).getD .none = .str kind := of_decide_eq_true hfind
  refine ⟨?_, of_decide_eq_true, ?_⟩
  · cases hget : record.attributes.get? (py "principal_kind") with
    | none => simp [hget] at hfound
    | some value =>
      rw [hget, Option.getD_some] at hfound
      rw [hfound]
  · have htext := orRaise_eq_ok.1 hroles
    unfold roleTokens
    cases hget : record.attributes.get? (py "roles") with
    | none =>
      rw [hget] at htext
      cases htext
      rfl
    | some value =>
      rw [hget, Option.getD_some] at htext
      rw [Option.bind_some, htext]

theorem readApprover_eq_ok {directory : PrincipalDirectory} {approver : PyStr} {principal : Principal}
    (h : readApprover directory approver = .ok principal) : ActiveHuman directory approver principal.roles := by
  obtain ⟨found, hfound, h⟩ := bind_eq_ok.1 h
  obtain ⟨resolved, hresolved, h⟩ := bind_eq_ok.1 h
  obtain ⟨_, hhuman, h⟩ := bind_eq_ok.1 h
  obtain ⟨_, hactive, h⟩ := bind_eq_ok.1 h
  cases h
  rw [orRaise_eq_ok.1 hresolved] at hfound
  obtain ⟨looked, hlooked, hfound⟩ := bind_eq_ok.1 hfound
  cases looked with
  | none => cases hfound
  | some record =>
    obtain ⟨_, hread, hfound⟩ := bind_eq_ok.1 hfound
    cases hfound
    obtain ⟨hkind, hstatus, hroles⟩ := readRecord_eq_ok hread
    have hhuman' := not_not.mp (refuseIf_eq_ok.1 hhuman)
    have hactive' := not_not.mp (refuseIf_eq_ok.1 hactive)
    exact ⟨record, hlooked, hhuman' ▸ hkind, hstatus hactive', hroles.symm⟩

theorem validatePrincipals_eq_ok {directory : PrincipalDirectory} {requester : PyStr} {approvers : PyStr × PyStr}
    {domain : PyStr}
    (h : validatePrincipals directory requester [approvers.1, approvers.2] domain = .ok ()) :
    DualControl directory requester approvers domain := by
  obtain ⟨_, htwo, h⟩ := bind_eq_ok.1 h
  obtain ⟨_, hapart, h⟩ := bind_eq_ok.1 h
  obtain ⟨_, -, h⟩ := bind_eq_ok.1 h
  obtain ⟨principals, hprincipals, h⟩ := bind_eq_ok.1 h
  rw [List.mapM_cons, List.mapM_cons, List.mapM_nil] at hprincipals
  obtain ⟨first, hfirst, hprincipals⟩ := bind_eq_ok.1 hprincipals
  obtain ⟨rest, hrest, hprincipals⟩ := bind_eq_ok.1 hprincipals
  obtain ⟨second, hsecond, hrest⟩ := bind_eq_ok.1 hrest
  obtain ⟨_, hnil, hrest⟩ := bind_eq_ok.1 hrest
  cases hprincipals
  cases hrest
  cases hnil
  have hdistinct := refuseIf_eq_ok.1 htwo
  have hnot := refuseIf_eq_ok.1 hapart
  simp only [not_or, not_not, List.nodup_cons, List.mem_cons, List.not_mem_nil, or_false] at hdistinct hnot
  refine ⟨hdistinct.2.1, hnot.1, hnot.2, first.roles, second.roles, readApprover_eq_ok hfirst,
    readApprover_eq_ok hsecond, ?_⟩
  exact not_not.mp (refuseIf_eq_ok.1 h)

namespace BreakGlassController

/-! ## What a call leaves behind -/

/-- Nothing issued, more revoked and more audited. -/
structure Grows (c c' : BreakGlassController) : Prop where
  issued : c'.issued = c.issued
  revoked : c.revokedGrantIds ⊆ c'.revokedGrantIds
  audited : c.audited <+: c'.audited

instance : Std.Refl Grows := ⟨fun _ => ⟨rfl, Finset.Subset.refl _, List.prefix_rfl⟩⟩

instance : IsTrans BreakGlassController Grows :=
  ⟨fun _ _ _ h h' => ⟨h'.issued.trans h.issued, h.revoked.trans h'.revoked, h.audited.trans h'.audited⟩⟩

open Op

theorem keeps_append (env : Surroundings) (event : BreakGlassEvent) : Keeps Grows (append env event) := by
  intro c
  unfold append
  cases env.audit event.event with
  | returns => exact ⟨rfl, Finset.Subset.refl _, List.prefix_append ..⟩
  | raises => exact Std.Refl.refl c
  | interrupts => exact Std.Refl.refl c

theorem append_eq_ok {env : Surroundings} {event : BreakGlassEvent} {c c' : BreakGlassController} {u : Unit}
    (h : append env event c = (.ok u, c')) : c' = { c with audited := c.audited ++ [event] } := by
  unfold append at h
  cases hsink : env.audit event.event <;> simp only [hsink] at h <;> cases h
  rfl

theorem keeps_markRevoked (grantId : PyStr) : Keeps Grows (markRevoked grantId) :=
  Keeps.update fun _ => ⟨rfl, Finset.subset_insert _ _, List.prefix_rfl⟩

theorem keeps_refuse {α : Type} (env : Surroundings) (kind : BreakGlassEventKind) (instant : DateTime)
    (fields : List (String × PyValue)) (error : PyError) :
    Keeps Grows (refuse (α := α) env kind instant fields error) := by
  unfold refuse
  cases error.cls with
  | safetyError reasonCode => exact (keeps_append env _).bind fun _ => Keeps.raise error
  | _ => exact Keeps.raise error

theorem refuse_ne_ok {α : Type} {env : Surroundings} {kind : BreakGlassEventKind} {instant : DateTime}
    {fields : List (String × PyValue)} {error : PyError} {a : α} {c c' : BreakGlassController} :
    refuse env kind instant fields error c ≠ (.ok a, c') := by
  intro h
  unfold refuse at h
  cases hcls : error.cls <;> simp only [hcls] at h
  case safetyError reasonCode =>
    obtain ⟨_, _, -, hraise⟩ := Op.bind_eq_ok.1 h
    cases hraise
  all_goals cases h

theorem keeps_announce (env : Surroundings) (event withdrawn : BreakGlassEvent) (message : String) (grantId : PyStr) :
    Keeps Grows (announce env event withdrawn message grantId) := by
  refine (keeps_append env event).bind fun _ => ?_
  cases env.alert with
  | returns => exact Keeps.pure ()
  | interrupts => exact Keeps.raise interrupted
  | raises => exact (keeps_append env withdrawn).bind fun _ => Keeps.raise _

/-- An announcement that goes through has put its event on record, and nothing else. -/
theorem announce_eq_ok {env : Surroundings} {event withdrawn : BreakGlassEvent} {message : String} {grantId : PyStr}
    {c c' : BreakGlassController} {u : Unit} (h : announce env event withdrawn message grantId c = (.ok u, c')) :
    c' = { c with audited := c.audited ++ [event] } := by
  obtain ⟨_, c1, happend, h⟩ := Op.bind_eq_ok.1 h
  rw [← append_eq_ok happend]
  cases halert : env.alert <;> simp only [halert] at h
  case returns =>
    cases h
    rfl
  case raises =>
    obtain ⟨_, _, -, hraise⟩ := Op.bind_eq_ok.1 h
    cases hraise
  case interrupts => cases h

theorem guarded_refuse_eq_ok {env : Surroundings} {kind : BreakGlassEventKind} {instant : DateTime}
    {fields : List (String × PyValue)} {x : Act Unit} {c c' : BreakGlassController} {u : Unit}
    (h : guarded x (refuse env kind instant fields) c = (.ok u, c')) : x c = (.ok u, c') := by
  rcases hx : x c with ⟨outcome, c1⟩
  cases outcome with
  | ok a =>
    rw [guarded_of_ok hx] at h
    exact h
  | error e =>
    rw [guarded_of_error hx] at h
    exact absurd h refuse_ne_ok

/-! ## Grants -/

theorem keeps_issue (env : Surroundings) (request : GrantRequest) (instant : {d : DateTime // d.Aware})
    (fields : List (String × PyValue)) : Keeps Grows (issue env request instant fields) := by
  unfold issue
  cases BreakGlassGrant.create request.grantId request.requester request.reason request.incidentRef request.scope
      request.domain request.capabilities (sortedPair request.approvers) instant request.ttl with
  | ok issued => exact Keeps.pure issued
  | error invalid => exact (keeps_append env _).bind fun _ => Keeps.raise invalid

theorem keeps_announced (env : Surroundings) (request : GrantRequest) : Keeps Grows (announced env request) := by
  refine (Keeps.lift _).bind fun instant => Keeps.read.bind fun c => ?_
  refine Keeps.bind ?_ fun _ => (keeps_issue env request instant _).bind fun issued => ?_
  · exact (Keeps.lift _).guarded fun e => keeps_refuse env .grantDenied instant _ e
  · exact (Keeps.lift _).bind fun _ => (keeps_announce env _ _ _ _).bind fun _ => Keeps.pure issued

theorem create_grantId {request : GrantRequest} {instant : {d : DateTime // d.Aware}} {approvers : PyStr × PyStr}
    {issued : BreakGlassGrant}
    (h : BreakGlassGrant.create request.grantId request.requester request.reason request.incidentRef request.scope
      request.domain request.capabilities approvers instant request.ttl = .ok issued) :
    issued.grantId = request.grantId := by
  obtain ⟨_, -, h⟩ := OcorRuntime.bind_eq_ok.1 h
  obtain ⟨_, -, h⟩ := OcorRuntime.bind_eq_ok.1 h
  obtain ⟨_, -, h⟩ := OcorRuntime.bind_eq_ok.1 h
  obtain ⟨_, -, h⟩ := OcorRuntime.bind_eq_ok.1 h
  obtain ⟨_, -, h⟩ := OcorRuntime.bind_eq_ok.1 h
  obtain ⟨_, -, h⟩ := OcorRuntime.bind_eq_ok.1 h
  obtain ⟨_, -, h⟩ := OcorRuntime.bind_eq_ok.1 h
  obtain ⟨_, -, h⟩ := OcorRuntime.bind_eq_ok.1 h
  obtain ⟨_, -, h⟩ := OcorRuntime.bind_eq_ok.1 h
  obtain ⟨_, -, h⟩ := OcorRuntime.bind_eq_ok.1 h
  cases h
  rfl

theorem announced_eq_ok {env : Surroundings} {request : GrantRequest} {issued : BreakGlassGrant}
    {c c' : BreakGlassController} (h : announced env request c = (.ok issued, c')) :
    issued.grantId = request.grantId ∧ c.issued.get? request.grantId = none := by
  obtain ⟨instant, c1, hnow, h⟩ := Op.bind_eq_ok.1 h
  obtain ⟨c2, c3, hread, h⟩ := Op.bind_eq_ok.1 h
  obtain ⟨_, c4, hcheck, h⟩ := Op.bind_eq_ok.1 h
  obtain ⟨made, c5, hissue, h⟩ := Op.bind_eq_ok.1 h
  obtain ⟨_, _, -, h⟩ := Op.bind_eq_ok.1 h
  obtain ⟨_, _, -, h⟩ := Op.bind_eq_ok.1 h
  cases h
  cases hread
  obtain ⟨-, rfl⟩ := Op.lift_eq_ok.1 hnow
  have hchecked := (Op.lift_eq_ok.1 (guarded_refuse_eq_ok hcheck)).1
  obtain ⟨_, -, hrest⟩ := OcorRuntime.bind_eq_ok.1 hchecked
  obtain ⟨_, hunused, -⟩ := OcorRuntime.bind_eq_ok.1 hrest
  refine ⟨?_, by simpa using refuseIf_eq_ok.1 hunused⟩
  unfold issue at hissue
  cases hcreate : BreakGlassGrant.create request.grantId request.requester request.reason request.incidentRef
      request.scope request.domain request.capabilities (sortedPair request.approvers) instant request.ttl with
  | ok issued =>
    rw [hcreate] at hissue
    cases hissue
    exact create_grantId hcreate
  | error invalid =>
    rw [hcreate] at hissue
    obtain ⟨_, _, -, hraise⟩ := Op.bind_eq_ok.1 hissue
    cases hraise

/-- A grant is refused and nothing is issued, or it is issued under an id of its own. -/
theorem grant_cases (c : BreakGlassController) (env : Surroundings) (request : GrantRequest) :
    (Grows c (grant env request c).2 ∧ ∃ e, (grant env request c).1 = .error e) ∨
    ∃ issued c', Grows c c' ∧ c.issued.get? issued.grantId = none ∧
      grant env request c = (.ok issued, { c' with issued := c'.issued.set issued.grantId issued }) := by
  have hgrows := keeps_announced env request c
  rcases h : announced env request c with ⟨outcome, c'⟩
  rw [h] at hgrows
  cases outcome with
  | error e =>
    have hgrant : grant env request c = (.error e, c') := bind_of_error h
    exact Or.inl ⟨by rw [hgrant]; exact hgrows, e, by rw [hgrant]⟩
  | ok issued =>
    obtain ⟨hid, hfresh⟩ := announced_eq_ok h
    have hgrant : grant env request c = (.ok issued, { c' with issued := c'.issued.set request.grantId issued }) :=
      bind_of_ok h
    rw [← hid] at hfresh hgrant
    exact Or.inr ⟨issued, c', hgrows, hfresh, hgrant⟩

/-! ## Revocation and use -/

theorem keeps_revoke (env : Surroundings) (grant : BreakGlassGrant) : Keeps Grows (revoke env grant) :=
  (Keeps.lift _).bind fun _ => Keeps.read.bind fun _ => (Keeps.lift _).bind fun _ =>
    (keeps_markRevoked _).bind fun _ => (Keeps.lift _).bind fun _ => keeps_append env _

theorem keeps_expire (env : Surroundings) (grant : BreakGlassGrant) (expiresAt instant : DateTime) :
    Keeps Grows (expire env grant expiresAt instant) :=
  (keeps_markRevoked _).bind fun _ => (keeps_append env _).bind fun _ => Keeps.raise _

theorem keeps_admissible (env : Surroundings) (grant : BreakGlassGrant) (capability reviewRef : PyStr)
    (instant : DateTime) : Keeps Grows (admissible env grant capability reviewRef instant) := by
  refine Keeps.read.bind fun c => (Keeps.lift _).bind fun _ => (Keeps.lift _).bind fun _ => ?_
  refine (Keeps.lift _).bind fun expiresAt => ?_
  split_ifs
  · exact keeps_expire env grant expiresAt instant
  · exact Keeps.lift _

theorem keeps_authorize (env : Surroundings) (grant : BreakGlassGrant) (capability reviewRef : PyStr) :
    Keeps Grows (authorize env grant capability reviewRef) := by
  refine (Keeps.lift _).bind fun instant => Keeps.bind ?_ fun _ => ?_
  · exact (keeps_admissible env grant capability reviewRef instant).guarded fun e => keeps_refuse env .useDenied instant _ e
  · exact (Keeps.lift _).bind fun _ => (keeps_announce env _ _ _ _).bind fun _ => Keeps.pure _

/-- What a call of `authorize` finds when it lets a use through. -/
structure Permitted (c : BreakGlassController) (env : Surroundings) (grant : BreakGlassGrant) (capability : PyStr) :
    Prop where
  issued : ∃ issued, c.issued.get? grant.grantId = some issued ∧ issued.Same grant
  unrevoked : grant.grantId ∉ c.revokedGrantIds
  named : capability ∈ grant.capabilities
  allowed : capability ∉ forbiddenCapabilities
  normal : env.stop = .normal
  approved : DualControl env.identities grant.requester grant.approvers grant.domain

theorem checkUse_eq_ok {env : Surroundings} {grant : BreakGlassGrant} {capability reviewRef : PyStr}
    {instant : Instant} (h : checkUse env grant capability reviewRef instant = .ok ()) :
    capability ∈ grant.capabilities ∧ capability ∉ forbiddenCapabilities ∧ env.stop = .normal ∧
      DualControl env.identities grant.requester grant.approvers grant.domain := by
  obtain ⟨_, -, h⟩ := OcorRuntime.bind_eq_ok.1 h
  obtain ⟨_, hallowed, h⟩ := OcorRuntime.bind_eq_ok.1 h
  obtain ⟨_, hnamed, h⟩ := OcorRuntime.bind_eq_ok.1 h
  obtain ⟨_, hnormal, h⟩ := OcorRuntime.bind_eq_ok.1 h
  obtain ⟨_, -, h⟩ := OcorRuntime.bind_eq_ok.1 h
  exact ⟨not_not.mp (refuseIf_eq_ok.1 hnamed), refuseIf_eq_ok.1 hallowed, not_not.mp (refuseIf_eq_ok.1 hnormal),
    validatePrincipals_eq_ok h⟩

theorem requireIssued_eq_ok {c : BreakGlassController} {grant : BreakGlassGrant} :
    requireIssued c grant = .ok () ↔ ∃ issued, c.issued.get? grant.grantId = some issued ∧ issued.Same grant := by
  rw [requireIssued, refuseIf_eq_ok, not_not]
  rfl

theorem admissible_eq_ok {env : Surroundings} {grant : BreakGlassGrant} {capability reviewRef : PyStr}
    {instant : DateTime} {c c' : BreakGlassController} {u : Unit}
    (h : admissible env grant capability reviewRef instant c = (.ok u, c')) :
    Permitted c env grant capability ∧ c' = c := by
  obtain ⟨_, c1, hread, h⟩ := Op.bind_eq_ok.1 h
  obtain ⟨_, c2, hissued, h⟩ := Op.bind_eq_ok.1 h
  obtain ⟨_, c3, hunrevoked, h⟩ := Op.bind_eq_ok.1 h
  obtain ⟨expiresAt, c4, hexpires, h⟩ := Op.bind_eq_ok.1 h
  cases hread
  obtain ⟨hissued', rfl⟩ := Op.lift_eq_ok.1 hissued
  obtain ⟨hunrevoked', rfl⟩ := Op.lift_eq_ok.1 hunrevoked
  obtain ⟨-, rfl⟩ := Op.lift_eq_ok.1 hexpires
  split_ifs at h with hover
  · obtain ⟨_, _, -, h⟩ := Op.bind_eq_ok.1 h
    obtain ⟨_, _, -, h⟩ := Op.bind_eq_ok.1 h
    cases h
  · obtain ⟨hchecks, rfl⟩ := Op.lift_eq_ok.1 h
    obtain ⟨hnamed, hallowed, hnormal, happroved⟩ := checkUse_eq_ok hchecks
    exact ⟨⟨requireIssued_eq_ok.1 hissued', refuseIf_eq_ok.1 hunrevoked', hnamed, hallowed, hnormal, happroved⟩, rfl⟩

/-- The record of a use in an audit event. -/
def Records (event : BreakGlassEvent) (use : BreakGlassUse) : Prop :=
  event.event = .useAuthorized ∧ ("grant_id", .str use.grantId) ∈ event.fields ∧
    ("capability", .str use.capability) ∈ event.fields ∧ ("review_ref", .str use.reviewRef) ∈ event.fields

theorem records_grantEvent (grant : BreakGlassGrant) (expiresAt instant : DateTime) (capability reviewRef : PyStr) :
    Records (grantEvent .useAuthorized grant expiresAt instant
      [("capability", .str capability), ("review_ref", .str reviewRef)]) ⟨grant.grantId, capability, reviewRef, instant⟩ := by
  refine ⟨rfl, List.mem_cons_of_mem _ (List.mem_append_left _ (List.mem_cons_self ..)), ?_, ?_⟩
  · exact List.mem_cons_of_mem _ (List.mem_append_right _ (List.mem_cons_self ..))
  · exact List.mem_cons_of_mem _ (List.mem_append_right _ (List.mem_cons_of_mem _ (List.mem_cons_self ..)))

theorem authorize_eq_ok {env : Surroundings} {grant : BreakGlassGrant} {capability reviewRef : PyStr}
    {c c' : BreakGlassController} {use : BreakGlassUse}
    (h : authorize env grant capability reviewRef c = (.ok use, c')) :
    Permitted c env grant capability ∧ use.grantId = grant.grantId ∧ use.capability = capability ∧
      ∃ event ∈ c'.audited, Records event use := by
  obtain ⟨instant, c1, hnow, h⟩ := Op.bind_eq_ok.1 h
  obtain ⟨_, c2, hadmissible, h⟩ := Op.bind_eq_ok.1 h
  obtain ⟨expiresAt, c3, hexpires, h⟩ := Op.bind_eq_ok.1 h
  obtain ⟨_, c4, hannounce, h⟩ := Op.bind_eq_ok.1 h
  cases h
  obtain ⟨-, rfl⟩ := Op.lift_eq_ok.1 hnow
  obtain ⟨hpermitted, rfl⟩ := admissible_eq_ok (guarded_refuse_eq_ok hadmissible)
  refine ⟨hpermitted, rfl, rfl, _, ?_, records_grantEvent grant expiresAt instant capability reviewRef⟩
  rw [announce_eq_ok hannounce]
  exact List.mem_append_right _ (List.mem_singleton_self _)

/-! ## Runs -/

inductive Call
  | grant (env : Surroundings) (request : GrantRequest)
  | revoke (env : Surroundings) (grant : BreakGlassGrant)
  | authorize (env : Surroundings) (grant : BreakGlassGrant) (capability reviewRef : PyStr)

def step (c : BreakGlassController) : Call → BreakGlassController
  | .grant env request => (grant env request c).2
  | .revoke env value => (revoke env value c).2
  | .authorize env value capability reviewRef => (authorize env value capability reviewRef c).2

/-- The grant a call issues, if any. -/
def issues (c : BreakGlassController) : Call → List BreakGlassGrant
  | .grant env request => (grant env request c).1.toOption.toList
  | _ => []

/-- What was issued stays issued, what was revoked stays revoked. -/
structure Remembers (c c' : BreakGlassController) : Prop where
  issued : ∀ id value, c.issued.get? id = some value → c'.issued.get? id = some value
  revoked : c.revokedGrantIds ⊆ c'.revokedGrantIds

theorem Grows.remembers {c c' : BreakGlassController} (h : Grows c c') : Remembers c c' :=
  ⟨fun _ _ hv => by rw [h.issued]; exact hv, h.revoked⟩

theorem step_remembers (c : BreakGlassController) (call : Call) : Remembers c (c.step call) := by
  cases call with
  | grant env request =>
    rcases grant_cases c env request with ⟨hgrows, -⟩ | ⟨issued, c', hgrows, hfresh, heq⟩
    · exact hgrows.remembers
    · rw [step, heq]
      refine ⟨fun id value hv => ?_, hgrows.revoked⟩
      have hne : issued.grantId ≠ id := by
        rintro rfl
        rw [hfresh] at hv
        cases hv
      rw [Dict.get?_set_of_ne _ _ hne, hgrows.issued]
      exact hv
  | revoke env value => exact (keeps_revoke env value c).remembers
  | authorize env value capability reviewRef => exact (keeps_authorize env value capability reviewRef c).remembers

theorem run_remembers (c : BreakGlassController) (calls : List Call) : Remembers c (run step c calls) := by
  induction calls generalizing c with
  | nil => exact ⟨fun _ _ h => h, Finset.Subset.refl _⟩
  | cons call calls ih =>
    have hstep := c.step_remembers call
    have hrest := ih (c.step call)
    exact ⟨fun id value hv => hrest.issued id value (hstep.issued id value hv), hstep.revoked.trans hrest.revoked⟩

/-- Whatever the controller holds as issued, a call of `grant` returned. -/
def Returned (c : BreakGlassController) (grants : List BreakGlassGrant) : Prop :=
  ∀ id value, c.issued.get? id = some value → value ∈ grants

theorem returned_step {c : BreakGlassController} {grants : List BreakGlassGrant} (h : Returned c grants) (call : Call) :
    Returned (c.step call) (grants ++ c.issues call) := by
  cases call with
  | grant env request =>
    rcases grant_cases c env request with ⟨hgrows, e, he⟩ | ⟨issued, c', hgrows, -, heq⟩
    · intro id value hv
      rw [step, hgrows.issued] at hv
      exact List.mem_append_left _ (h id value hv)
    · intro id value hv
      rw [step, heq, Dict.get?_set] at hv
      rw [issues, heq]
      split_ifs at hv with hid
      · cases hv
        exact List.mem_append_right _ (List.mem_singleton_self _)
      · rw [hgrows.issued] at hv
        exact List.mem_append_left _ (h id value hv)
  | revoke env value =>
    intro id issued hv
    rw [step, (keeps_revoke env value c).issued] at hv
    exact List.mem_append_left _ (h id issued hv)
  | authorize env value capability reviewRef =>
    intro id issued hv
    rw [step, (keeps_authorize env value capability reviewRef c).issued] at hv
    exact List.mem_append_left _ (h id issued hv)

theorem returned_run (calls : List Call) : Returned (run step create calls) (trace step issues create calls) := by
  have hall : AllSteps step (fun _ _ => True) create calls := allSteps_of_forall (fun _ _ _ => trivial) create
  have h := @trace_induction _ _ _ step issues (fun _ _ => True) Returned (fun _ _ call h _ => returned_step h call)
    create [] (by intro id value hv; cases hv) calls hall
  rwa [List.nil_append] at h

/-- A call that ends a grant the controller has issued: a revocation of it at an aware reading of the
clock, or a use that reads an instant at or past its expiry. -/
def Ends (c : BreakGlassController) (value : BreakGlassGrant) : Call → Prop
  | .grant _ _ => False
  | .revoke env other =>
    other.Same value ∧ requireIssued c other = .ok () ∧ ∃ instant, now env = .ok instant
  | .authorize env other _ _ =>
    other.Same value ∧ requireIssued c other = .ok () ∧
      ∃ instant expiresAt, now env = .ok instant ∧ other.expiresAt = .ok expiresAt ∧
        expiresAt.instant ≤ instant.1.instant

theorem mem_markRevoked (grantId : PyStr) (c : BreakGlassController) :
    grantId ∈ (markRevoked grantId c).2.revokedGrantIds := Finset.mem_insert_self ..

theorem revoke_marks {c : BreakGlassController} {env : Surroundings} {value : BreakGlassGrant}
    {instant : {d : DateTime // d.Aware}} (hnow : now env = .ok instant) (hissued : requireIssued c value = .ok ()) :
    value.grantId ∈ (revoke env value c).2.revokedGrantIds := by
  have h1 : lift (now env) c = (.ok instant, c) := by rw [lift_apply, hnow]
  have h2 : lift (requireIssued c value) c = (.ok (), c) := by rw [lift_apply, hissued]
  have hrest : Grows (markRevoked value.grantId c).2 (revoke env value c).2 := by
    unfold revoke
    rw [bind_of_ok h1, bind_of_ok (read_apply c), bind_of_ok h2]
    exact Keeps.after_bind (fun _ => (Keeps.lift _).bind fun _ => keeps_append env _) _ c
  exact hrest.revoked (mem_markRevoked value.grantId c)

theorem admissible_marks {c : BreakGlassController} {env : Surroundings} {value : BreakGlassGrant}
    {capability reviewRef : PyStr} {instant expiresAt : DateTime} (hissued : requireIssued c value = .ok ())
    (hexpires : value.expiresAt = .ok expiresAt) (hover : expiresAt.instant ≤ instant.instant) :
    value.grantId ∈ (admissible env value capability reviewRef instant c).2.revokedGrantIds := by
  have h1 : lift (requireIssued c value) c = (.ok (), c) := by rw [lift_apply, hissued]
  have h3 : lift value.expiresAt c = (.ok expiresAt, c) := by rw [lift_apply, hexpires]
  unfold admissible
  rw [bind_of_ok (read_apply c), bind_of_ok h1]
  by_cases hrevoked : value.grantId ∈ c.revokedGrantIds
  · rw [refuseIf, if_pos hrevoked, bind_of_error (lift_apply _ c)]
    exact hrevoked
  · rw [refuseIf, if_neg hrevoked, bind_of_ok (lift_apply _ c), bind_of_ok h3, if_pos hover]
    have hrest : Grows (markRevoked value.grantId c).2 (expire env value expiresAt instant c).2 :=
      Keeps.after_bind (fun _ => (keeps_append env _).bind fun _ => Keeps.raise _) _ c
    exact hrest.revoked (mem_markRevoked value.grantId c)

theorem authorize_marks {c : BreakGlassController} {env : Surroundings} {value : BreakGlassGrant}
    {capability reviewRef : PyStr} {instant : {d : DateTime // d.Aware}} {expiresAt : DateTime}
    (hnow : now env = .ok instant) (hissued : requireIssued c value = .ok ())
    (hexpires : value.expiresAt = .ok expiresAt) (hover : expiresAt.instant ≤ instant.1.instant) :
    value.grantId ∈ (authorize env value capability reviewRef c).2.revokedGrantIds := by
  have h1 : lift (now env) c = (.ok instant, c) := by rw [lift_apply, hnow]
  have hmarked := @admissible_marks c env value capability reviewRef instant expiresAt hissued hexpires hover
  unfold authorize
  rw [bind_of_ok h1]
  have hguarded := (Keeps.after_guarded (fun e => keeps_refuse env .useDenied instant
    [("grant_id", .str value.grantId), ("capability", .str capability), ("review_ref", .str reviewRef)] e)
    (admissible env value capability reviewRef instant) c).revoked hmarked
  exact (Keeps.after_bind (fun _ => (Keeps.lift _).bind fun _ => (keeps_announce env _ _ _ _).bind fun _ => Keeps.pure _)
    _ c).revoked hguarded

theorem Ends.marks {c : BreakGlassController} {value : BreakGlassGrant} {call : Call} (h : Ends c value call) :
    value.grantId ∈ (c.step call).revokedGrantIds := by
  cases call with
  | grant env request => exact h.elim
  | revoke env other =>
    obtain ⟨hsame, hissued, instant, hnow⟩ := h
    rw [← hsame.1]
    exact revoke_marks hnow hissued
  | authorize env other capability reviewRef =>
    obtain ⟨hsame, hissued, instant, expiresAt, hnow, hexpires, hover⟩ := h
    rw [← hsame.1]
    exact authorize_marks hnow hissued hexpires hover

/-- **Break-glass stays governed.** Over every run of a controller, with any readings of the
clock, any registry, stop state, audit and alert sinks at each call: a use that is returned
is on the audit log, is of a grant equal to one the controller issued, names a capability of
it that is not forbidden, and came while the stop was NORMAL and the two approvers were
active humans with both roles, apart from the requester; and once a call has revoked an
issued grant, or has read an instant at or past its expiry, no later use of it is returned. -/
theorem break_glass_governed (calls : List Call) :
    (∀ before after env value capability reviewRef use,
      calls = before ++ .authorize env value capability reviewRef :: after →
      (authorize env value capability reviewRef (run step create before)).1 = .ok use →
        use.grantId = value.grantId ∧ use.capability = capability ∧
        (∃ event ∈ (authorize env value capability reviewRef (run step create before)).2.audited,
          Records event use) ∧
        (∃ issued ∈ trace step issues create before, issued.Same value) ∧
        capability ∈ value.capabilities ∧ capability ∉ forbiddenCapabilities ∧ env.stop = .normal ∧
        DualControl env.identities value.requester value.approvers value.domain) ∧
    ∀ before call between after env value capability reviewRef,
      calls = before ++ call :: between ++ .authorize env value capability reviewRef :: after →
      Ends (run step create before) value call →
        ∃ e, (authorize env value capability reviewRef (run step create (before ++ call :: between))).1 = .error e := by
  constructor
  · intro before after env value capability reviewRef use _ hok
    have hcall : authorize env value capability reviewRef (run step create before) =
        (.ok use, (authorize env value capability reviewRef (run step create before)).2) := Prod.ext hok rfl
    obtain ⟨hpermitted, hid, hcapability, haudited⟩ := authorize_eq_ok hcall
    obtain ⟨issued, hissued, hsame⟩ := hpermitted.issued
    exact ⟨hid, hcapability, haudited, ⟨issued, returned_run before _ issued hissued, hsame⟩, hpermitted.named,
      hpermitted.allowed, hpermitted.normal, hpermitted.approved⟩
  · intro before call between after env value capability reviewRef _ hends
    have hmarked : value.grantId ∈ (run step create (before ++ call :: between)).revokedGrantIds := by
      rw [run_append, run_cons]
      exact (run_remembers _ between).revoked hends.marks
    cases hresult : (authorize env value capability reviewRef (run step create (before ++ call :: between))).1 with
    | error e => exact ⟨e, rfl⟩
    | ok use =>
      have hcall : authorize env value capability reviewRef (run step create (before ++ call :: between)) =
          (.ok use, (authorize env value capability reviewRef (run step create (before ++ call :: between))).2) :=
        Prod.ext hresult rfl
      exact absurd hmarked (authorize_eq_ok hcall).1.unrevoked

/-! A grant value may be built by hand and presented before it is issued: revoking it then is refused, and
leaves an equal grant issued later usable. -/

def samplePerson (roles : String) : IdentityRecord where
  canonicalId := py "person"
  attributes := ((Dict.empty.set (py "principal_kind") (.str (py "HUMAN"))).set (py "status") (.str (py "ACTIVE"))).set
    (py "roles") (.str (py roles))

def sampleDirectory : PrincipalDirectory := fun id =>
  .ok (some (samplePerson (if id = py "a" then "SECURITY_DUTY_OFFICER" else "DOMAIN_OWNER:grid")))

def sampleSurroundings (t : Instant) : Surroundings :=
  ⟨.ok (.utc t), sampleDirectory, .normal, fun _ => .returns, .returns⟩

def sampleRequest : GrantRequest where
  grantId := py "g"
  requester := py "r"
  reason := py "outage"
  incidentRef := py "i"
  scope := py "s"
  domain := py "grid"
  capabilities := {py "restart"}
  approvers := [py "b", py "a"]
  ttl := 10

def sampleGrant : BreakGlassGrant where
  grantId := py "g"
  requester := py "r"
  reason := py "outage"
  incidentRef := py "i"
  scope := py "s"
  domain := py "grid"
  capabilities := {py "restart"}
  approvers := (py "a", py "b")
  grantedAt := .utc 0
  ttl := 10
  aware := by decide
  described := by decide
  domain_valid := by decide
  capabilities_named := by decide
  approvers_distinct := by decide
  requester_apart := by decide
  ttl_bounded := by decide

theorem revoked_before_issue_still_usable :
    ¬ ∀ (calls : List Call) (env : Surroundings) (value : BreakGlassGrant) (capability reviewRef : PyStr),
      (∃ env', .revoke env' value ∈ calls) →
        ∃ e, (authorize env value capability reviewRef (run step create calls)).1 = .error e := by
  intro h
  have hused : (authorize (sampleSurroundings 1) sampleGrant (py "restart") (py "review") (run step create
      [.revoke (sampleSurroundings 0) sampleGrant, .grant (sampleSurroundings 0) sampleRequest])).1.toOption.isSome =
        true := by
    decide
  obtain ⟨e, he⟩ := h [.revoke (sampleSurroundings 0) sampleGrant, .grant (sampleSurroundings 0) sampleRequest]
    (sampleSurroundings 1) sampleGrant (py "restart") (py "review")
    ⟨sampleSurroundings 0, List.mem_cons_self ..⟩
  rw [he] at hused
  cases hused

/-- The same grant issued, used, and revoked: the use is returned, and none after the revocation. -/
theorem break_glass_governed_sample :
    (∃ use, (authorize (sampleSurroundings 1) sampleGrant (py "restart") (py "review")
      (run step create [.grant (sampleSurroundings 0) sampleRequest])).1 = .ok use) ∧
    ∃ e, (authorize (sampleSurroundings 1) sampleGrant (py "restart") (py "review")
      (run step create [.grant (sampleSurroundings 0) sampleRequest, .revoke (sampleSurroundings 2) sampleGrant])).1 =
        .error e := by
  refine ⟨?_, ?_⟩
  · have hused : (authorize (sampleSurroundings 1) sampleGrant (py "restart") (py "review") (run step create
        [.grant (sampleSurroundings 0) sampleRequest])).1.toOption.isSome = true := by
      decide
    cases hresult : (authorize (sampleSurroundings 1) sampleGrant (py "restart") (py "review") (run step create
        [.grant (sampleSurroundings 0) sampleRequest])).1 with
    | error e =>
      rw [hresult] at hused
      cases hused
    | ok use => exact ⟨use, rfl⟩
  · have hissued : (requireIssued (run step create [.grant (sampleSurroundings 0) sampleRequest])
        sampleGrant).toOption.isSome = true := by
      decide
    refine (break_glass_governed [.grant (sampleSurroundings 0) sampleRequest,
      .revoke (sampleSurroundings 2) sampleGrant,
      .authorize (sampleSurroundings 1) sampleGrant (py "restart") (py "review")]).2
      [.grant (sampleSurroundings 0) sampleRequest] (.revoke (sampleSurroundings 2) sampleGrant) [] []
      (sampleSurroundings 1) sampleGrant (py "restart") (py "review") rfl ⟨by decide, ?_, ⟨_, rfl⟩⟩
    cases hresult : requireIssued (run step create [.grant (sampleSurroundings 0) sampleRequest]) sampleGrant with
    | error e =>
      rw [hresult] at hissued
      cases hissued
    | ok u => rfl

end BreakGlassController
end OcorRuntime.Safety
