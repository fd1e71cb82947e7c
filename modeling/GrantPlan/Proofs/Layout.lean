import GrantPlan.Proofs.RoleShare
import GrantPlan.Proofs.Writers
/-!
# The layout of a spec

Two specs may say the same of each role in different layouts (`Spec.SameContent`): the roles stand
in another order, and the entries of a list come in another order or more than once.

Of all that a spec lays down for its schemas, a layout can decide only who owns a schema that
several roles claim. Where the owners are the same, so are the writers of each schema
(`Spec.SameContent.writersOf_eq`), and what a list of targets asks for is decided by which items are
in it (`Scope.wanted_eq_ok_of_items`). So the plans have the same shares (`plan_layout`).
-/

namespace GrantPlan

variable {spec spec' : Spec} {authority authority' : Authority} {catalog : Catalog} {role : String}
  {config config' : RoleConfig} {scope : Scope} {items items' : List String} {request : Request}
  {wanted : Wanted} {block : List Statement}

/-! ## The same content in another layout -/

/-- Two entries say the same of a role: they have the same flags, and each list has the same entries
as the other, in whatever order and number. -/
structure RoleConfig.SameContent (config config' : RoleConfig) : Prop where
  isSuperuser_eq : config'.isSuperuser = config.isSuperuser
  hasPersonalSchema_eq : config'.hasPersonalSchema = config.hasPersonalSchema
  mem_memberOf_iff : ∀ group, group ∈ config'.memberOf ↔ group ∈ config.memberOf
  mem_ownedSchemas_iff : ∀ schema, schema ∈ config'.ownedSchemas ↔ schema ∈ config.ownedSchemas
  mem_targetsAt_iff : ∀ kind access item,
    item ∈ config'.targetsAt kind access ↔ item ∈ config.targetsAt kind access

/-- Two specs declare the same roles, in whatever order, and say the same of each. -/
structure Spec.SameContent (spec spec' : Spec) : Prop where
  forth : ∀ role config, (role, config) ∈ spec.roles →
    ∃ config', (role, config') ∈ spec'.roles ∧ config.SameContent config'
  back : ∀ role config', (role, config') ∈ spec'.roles →
    ∃ config, (role, config) ∈ spec.roles ∧ config.SameContent config'

theorem RoleConfig.SameContent.refl (config : RoleConfig) : config.SameContent config :=
  ⟨rfl, rfl, fun _ => Iff.rfl, fun _ => Iff.rfl, fun _ _ _ => Iff.rfl⟩

theorem RoleConfig.SameContent.symm (h : config.SameContent config') :
    config'.SameContent config where
  isSuperuser_eq := h.isSuperuser_eq.symm
  hasPersonalSchema_eq := h.hasPersonalSchema_eq.symm
  mem_memberOf_iff group := (h.mem_memberOf_iff group).symm
  mem_ownedSchemas_iff schema := (h.mem_ownedSchemas_iff schema).symm
  mem_targetsAt_iff kind access item := (h.mem_targetsAt_iff kind access item).symm

theorem Spec.SameContent.symm (h : spec.SameContent spec') : spec'.SameContent spec where
  forth role config' hconfig' :=
    let ⟨config, hconfig, hsame⟩ := h.back role config' hconfig'
    ⟨config, hconfig, hsame.symm⟩
  back role config hconfig :=
    let ⟨config', hconfig', hsame⟩ := h.forth role config hconfig
    ⟨config', hconfig', hsame.symm⟩

theorem RoleConfig.SameContent.mem_wantedAt_iff (h : config.SameContent config')
    (kind : ObjectKind) (access : Access) (item : String) :
    item ∈ config'.wantedAt kind access ↔ item ∈ config.wantedAt kind access := by
  simp only [RoleConfig.mem_wantedAt_iff, RoleConfig.Counts, h.mem_targetsAt_iff]

/-- What no layout of an entry changes holds of the entry of a role in both specs or in neither. -/
theorem Spec.SameContent.exists_config_iff (h : spec.SameContent spec') {P : RoleConfig → Prop}
    (hP : ∀ config config', config.SameContent config' → (P config' ↔ P config)) :
    (∃ config, (role, config) ∈ spec'.roles ∧ P config) ↔
      ∃ config, (role, config) ∈ spec.roles ∧ P config := by
  constructor
  · rintro ⟨config', hconfig', hp⟩
    obtain ⟨config, hconfig, hsame⟩ := h.back role config' hconfig'
    exact ⟨config, hconfig, (hP config config' hsame).1 hp⟩
  · rintro ⟨config, hconfig, hp⟩
    obtain ⟨config', hconfig', hsame⟩ := h.forth role config hconfig
    exact ⟨config', hconfig', (hP config config' hsame).2 hp⟩

theorem Spec.SameContent.declares_iff (h : spec.SameContent spec') :
    (∃ config, (role, config) ∈ spec'.roles) ↔ ∃ config, (role, config) ∈ spec.roles := by
  simpa using @exists_config_iff spec spec' role h (fun _ => True) fun _ _ _ => Iff.rfl

/-! ## What a layout does not change in a spec -/

theorem Spec.SameContent.personalSchemas_eq (h : spec.SameContent spec') :
    spec'.personalSchemas = spec.personalSchemas := by
  refine OrderedSet.ext fun role => ?_
  rw [personalSchemas, personalSchemas, Spec.mem_flagged, Spec.mem_flagged]
  exact h.exists_config_iff fun config config' hsame => by rw [hsame.hasPersonalSchema_eq]

theorem Spec.SameContent.joins_eq (h : spec.SameContent spec') : spec'.Joins = spec.Joins := by
  funext member group
  exact propext (h.exists_config_iff fun config config' hsame => hsame.mem_memberOf_iff group)

/-- The schemas that a role may write. -/
theorem RoleConfig.SameContent.writableSchemas_eq (h : config.SameContent config')
    (personal : OrderedSet String) :
    writableSchemas personal config' = writableSchemas personal config := by
  have hnamed : OrderedSet.ofList ((config'.targetsAt .schemas .write).map Identifier.unquote) =
      .ofList ((config.targetsAt .schemas .write).map Identifier.unquote) := by
    refine OrderedSet.ext fun schema => ?_
    simp only [OrderedSet.mem_ofList, List.mem_map, h.mem_targetsAt_iff]
  rw [writableSchemas, writableSchemas, hnamed]

/-- The writers of a schema are the same, save for its owner. -/
theorem Spec.SameContent.writersOf_eq (h : spec.SameContent spec')
    (howners : spec'.schemaOwners = spec.schemaOwners) (schema : String) :
    spec'.authority.writersOf schema = spec.authority.writersOf schema := by
  have hsuperuser : ∀ writer,
      (∃ config, (writer, config) ∈ spec'.roles ∧ config.isSuperuser = true) ↔
        ∃ config, (writer, config) ∈ spec.roles ∧ config.isSuperuser = true := fun writer =>
    h.exists_config_iff fun config config' hsame => by rw [hsame.isSuperuser_eq]
  have hopened : ∀ role,
      (∃ config, (role, config) ∈ spec'.roles ∧
        schema ∈ writableSchemas spec.personalSchemas config) ↔
        ∃ config, (role, config) ∈ spec.roles ∧
          schema ∈ writableSchemas spec.personalSchemas config := fun role =>
    h.exists_config_iff fun config config' hsame => by rw [hsame.writableSchemas_eq]
  refine OrderedSet.ext fun writer => ?_
  -- by the three ways in which a role comes to be a writer
  simp only [mem_writersOf_iff, ← mem_writableSchemas_iff, h.personalSchemas_eq, h.joins_eq,
    howners, hsuperuser, ← and_assoc, exists_and_right, hopened]

/-! ## What a layout does not change in a plan -/

namespace Scope

theorem request_congr_authority (hpersonal : authority'.personalSchemas = authority.personalSchemas)
    (target : Target) :
    scope.request authority' catalog target = scope.request authority catalog target := by
  cases target <;> simp only [Scope.request, hpersonal]

/-- Lists of the same items ask for the same. -/
theorem requests_eq_ok_of_items (hpersonal : authority'.personalSchemas = authority.personalSchemas)
    (hitems : ∀ item, item ∈ items' ↔ item ∈ items)
    (h : scope.requests authority catalog items = .ok request) :
    scope.requests authority' catalog items' = .ok request := by
  obtain ⟨parts, hparts, hrequest⟩ := bind_eq_ok_iff.1 h
  obtain ⟨parts', hparts', hmem⟩ := exists_mapM_eq_ok_of_mem_iff hparts hitems
  have hschemas : OrderedSet.ofList (parts'.flatMap (·.schemas.toList)) =
      .ofList (parts.flatMap (·.schemas.toList)) := by
    refine OrderedSet.ext fun schema => ?_
    simp only [OrderedSet.mem_ofList, List.mem_flatMap, hmem]
  have hobjects : ∀ contents, OrderedSet.ofList (parts'.flatMap (·.objects.toList) ++ contents) =
      .ofList (parts.flatMap (·.objects.toList) ++ contents) := by
    intro contents
    refine OrderedSet.ext fun object => ?_
    simp only [OrderedSet.mem_ofList, List.mem_append, List.mem_flatMap, hmem]
  simp only [requests, request_congr_authority hpersonal]
  refine bind_eq_ok_iff.2 ⟨parts', hparts', ?_⟩
  rw [hschemas, hobjects]
  exact hrequest

/-- So do specs that lay down the same. -/
theorem wanted_eq_ok_of_items (hpersonal : authority'.personalSchemas = authority.personalSchemas)
    (hwriters : ∀ schema, authority'.writersOf schema = authority.writersOf schema)
    (hitems : ∀ item, item ∈ items' ↔ item ∈ items)
    (h : scope.wanted authority catalog items = .ok wanted) :
    scope.wanted authority' catalog items' = .ok wanted := by
  obtain ⟨request, hrequest, rfl⟩ := wanted_eq_ok_iff.1 h
  refine wanted_eq_ok_iff.2
    ⟨request, requests_eq_ok_of_items hpersonal hitems hrequest, ?_⟩
  simp only [wantedDefaults, hwriters]

end Scope

/-- An entry in another layout leads to the same statements. -/
theorem planRole_eq_ok_of_sameContent
    (hpersonal : authority'.personalSchemas = authority.personalSchemas)
    (hwriters : ∀ schema, authority'.writersOf schema = authority.writersOf schema)
    (hsame : config.SameContent config')
    (hblock : planRole authority catalog role config = .ok block) :
    planRole authority' catalog role config' = .ok block := by
  cases hrole : catalog.isSuperuser role with
  | true =>
    rw [planRole_superuser_eq_ok_iff hrole] at hblock ⊢
    exact hblock
  | false =>
    obtain ⟨parts, hparts, rfl⟩ := (planRole_eq_ok_iff hrole).1 hblock
    refine (planRole_eq_ok_iff hrole).2 ⟨parts, ?_, rfl⟩
    rw [← List.map_id parts]
    refine mapM_eq_ok_map hparts fun ⟨kind, access⟩ _ part hpart => ?_
    obtain ⟨wanted, hwanted, rfl⟩ := Scope.plan_eq_ok_iff.1 hpart
    exact Scope.plan_eq_ok_iff.2 ⟨wanted,
      Scope.wanted_eq_ok_of_items hpersonal hwriters (hsame.mem_wantedAt_iff kind access) hwanted,
      rfl⟩

/-- A spec in another layout has a plan, and each role has the same share of it. -/
theorem Spec.SameContent.exists_plan (h : spec.SameContent spec')
    (howners : spec'.schemaOwners = spec.schemaOwners) {statements : List Statement}
    (hplan : plan spec catalog = .ok statements) :
    ∃ statements', plan spec' catalog = .ok statements' ∧
      ∀ role, roleShare role statements' = roleShare role statements := by
  have hpersonal : spec'.authority.personalSchemas = spec.authority.personalSchemas :=
    h.personalSchemas_eq
  -- planning for a role of the second layout yields its share of the plan for the first
  have hrole : ∀ role config', (role, config') ∈ spec'.roles →
      planRole spec'.authority catalog role config' = .ok (roleShare role statements) := by
    intro role config' hconfig'
    obtain ⟨config, hconfig, hsame⟩ := h.back role config' hconfig'
    exact planRole_eq_ok_of_sameContent hpersonal (h.writersOf_eq howners) hsame
      (planRole_eq_roleShare hplan hconfig)
  obtain ⟨parts, hparts⟩ : ∃ parts, (spec'.roles.mapM fun entry =>
      planRole spec'.authority catalog entry.1 entry.2) = .ok parts := by
    refine exists_mapM_eq_ok_iff.2 ?_
    rintro ⟨role, config'⟩ hconfig'
    exact ⟨_, hrole role config' hconfig'⟩
  have hplan' : plan spec' catalog = .ok parts.flatten := plan_eq_ok_iff.2 ⟨parts, hparts, rfl⟩
  refine ⟨parts.flatten, hplan', fun role => ?_⟩
  refine roleShare_congr hplan hplan' h.declares_iff fun config config' hconfig hconfig' => ?_
  rw [hrole role config' hconfig', planRole_eq_roleShare hplan hconfig]

/-! ## Plans of two layouts -/

/-- Where two specs say the same of each role in whatever layout, and give the same owner to each
schema, either there is a plan for both or for neither. The plans have the same share for each role,
and each plan puts the shares together in the order in which its spec has the roles. -/
theorem plan_layout (h : spec.SameContent spec') (howners : spec'.schemaOwners = spec.schemaOwners)
    (catalog : Catalog) :
    (∃ statements statements', plan spec catalog = .ok statements ∧
      plan spec' catalog = .ok statements' ∧
      (∀ role, roleShare role statements' = roleShare role statements) ∧
      statements = (spec.roles.map Prod.fst).flatMap (fun role => roleShare role statements) ∧
      statements' = (spec'.roles.map Prod.fst).flatMap fun role => roleShare role statements) ∨
    ∃ mistake mistake', plan spec catalog = .error mistake ∧
      plan spec' catalog = .error mistake' := by
  cases hplan : plan spec catalog with
  | ok statements =>
    obtain ⟨statements', hplan', hshares⟩ := h.exists_plan howners hplan
    refine .inl ⟨statements, statements', rfl, hplan', hshares,
      plan_eq_flatMap_roleShare hplan, ?_⟩
    simp only [← hshares]
    exact plan_eq_flatMap_roleShare hplan'
  | error mistake =>
    cases hplan' : plan spec' catalog with
    | error mistake' => exact .inr ⟨mistake, mistake', rfl, rfl⟩
    | ok statements' =>
      -- the plan of the second layout would be one for the first
      obtain ⟨statements, hplan'', -⟩ := h.symm.exists_plan howners.symm hplan'
      rw [hplan] at hplan''
      cases hplan''

/-- What a spec says about an analyst who belongs to some groups and is to read some tables. -/
def deskAnalyst (groups reads : List String) : RoleConfig :=
  { RoleConfig.default with memberOf := groups, targets := .insert ∅ .tables (.insert ∅ .read reads) }

/-- What a spec says about a service that owns some schemas. -/
def deskService (owned : List String) : RoleConfig :=
  { RoleConfig.default with ownedSchemas := owned }

/-- A spec for the small database, with two schemas and two groups. -/
def deskSpec : Spec :=
  .ofList [("postgres", .default),
    ("etl", deskService ["finance", "archive"]),
    ("analyst", deskAnalyst ["staff", "readers"] ["finance.*", "finance.ledger"])]

/-- The spec written from the end, with entries in another order and some of them twice. -/
def deskSpecRewritten : Spec :=
  .ofList [("analyst", deskAnalyst ["readers", "staff", "readers"]
      ["finance.ledger", "finance.*", "finance.ledger"]),
    ("etl", deskService ["archive", "finance", "archive"]),
    ("postgres", .default)]

theorem RoleConfig.SameContent.deskAnalyst {groups groups' reads reads' : List String}
    (hgroups : ∀ group, group ∈ groups' ↔ group ∈ groups)
    (hreads : ∀ item, item ∈ reads' ↔ item ∈ reads) :
    (deskAnalyst groups reads).SameContent (deskAnalyst groups' reads') where
  isSuperuser_eq := rfl
  hasPersonalSchema_eq := rfl
  mem_memberOf_iff := hgroups
  mem_ownedSchemas_iff _ := Iff.rfl
  mem_targetsAt_iff kind access item := by
    cases kind <;> cases access <;> first | exact hreads item | exact Iff.rfl

theorem RoleConfig.SameContent.deskService {owned owned' : List String}
    (howned : ∀ schema, schema ∈ owned' ↔ schema ∈ owned) :
    (deskService owned).SameContent (deskService owned') :=
  ⟨rfl, rfl, fun _ => Iff.rfl, howned, fun _ _ _ => Iff.rfl⟩

/-- The spec written from the end leads to the same blocks, from the last one to the first. -/
theorem plan_layout_desk :
    deskSpec.SameContent deskSpecRewritten ∧
    deskSpecRewritten.schemaOwners = deskSpec.schemaOwners ∧
    plan deskSpec ledgerCatalog = .ok ledgerPlan ∧
    plan deskSpecRewritten ledgerCatalog = .ok (ledgerPlan.drop 1 ++ ledgerPlan.take 1) ∧
    ∀ role, roleShare role (ledgerPlan.drop 1 ++ ledgerPlan.take 1) = roleShare role ledgerPlan := by
  have hroles : deskSpec.roles = [("postgres", .default),
      ("etl", deskService ["finance", "archive"]),
      ("analyst", deskAnalyst ["staff", "readers"] ["finance.*", "finance.ledger"])] := rfl
  have hroles' : deskSpecRewritten.roles = [("analyst", deskAnalyst ["readers", "staff", "readers"]
        ["finance.ledger", "finance.*", "finance.ledger"]),
      ("etl", deskService ["archive", "finance", "archive"]), ("postgres", .default)] := rfl
  have hservice : (deskService ["finance", "archive"]).SameContent
      (deskService ["archive", "finance", "archive"]) := .deskService (by simp)
  have hanalyst : (deskAnalyst ["staff", "readers"] ["finance.*", "finance.ledger"]).SameContent
      (deskAnalyst ["readers", "staff", "readers"]
        ["finance.ledger", "finance.*", "finance.ledger"]) := .deskAnalyst (by simp) (by simp)
  have hsame : deskSpec.SameContent deskSpecRewritten := by
    refine ⟨fun role config hconfig => ?_, fun role config hconfig => ?_⟩
    · simp only [hroles, List.mem_cons, Prod.mk.injEq, List.not_mem_nil, or_false] at hconfig
      obtain ⟨rfl, rfl⟩ | ⟨rfl, rfl⟩ | ⟨rfl, rfl⟩ := hconfig
      · exact ⟨_, by simp [hroles'], .refl _⟩
      · exact ⟨_, by simp [hroles'], hservice⟩
      · exact ⟨_, by simp [hroles'], hanalyst⟩
    · simp only [hroles', List.mem_cons, Prod.mk.injEq, List.not_mem_nil, or_false] at hconfig
      obtain ⟨rfl, rfl⟩ | ⟨rfl, rfl⟩ | ⟨rfl, rfl⟩ := hconfig
      · exact ⟨_, by simp [hroles], hanalyst⟩
      · exact ⟨_, by simp [hroles], hservice⟩
      · exact ⟨_, by simp [hroles], .refl _⟩
  have howners : deskSpecRewritten.schemaOwners = deskSpec.schemaOwners := by rfl
  have hplan : plan deskSpec ledgerCatalog = .ok ledgerPlan := by rfl
  have hplan' : plan deskSpecRewritten ledgerCatalog =
      .ok (ledgerPlan.drop 1 ++ ledgerPlan.take 1) := by rfl
  refine ⟨hsame, howners, hplan, hplan', ?_⟩
  obtain ⟨statements, statements', hok, hok', hshares, -, -⟩ | ⟨mistake, -, herror, -⟩ :=
    plan_layout hsame howners ledgerCatalog
  · obtain rfl := Except.ok.inj (hplan.symm.trans hok)
    obtain rfl := Except.ok.inj (hplan'.symm.trans hok')
    exact hshares
  · rw [hplan] at herror
    cases herror

/-- Who owns a schema that two roles claim is a matter of layout: the last of them does. The owner is
a grantor there, so the hypothesis on the owners is needed. -/
example :
    let claims (first second : String) : Spec := .ofList [(first, deskService ["finance"]),
      (second, deskService ["finance"]), ("analyst", deskAnalyst [] ["finance.*"])]
    (plan (claims "etl" "dba") ∅).map (roleShare "analyst") =
      .ok [.grantDefault "analyst" .tables ⟨"dba", "finance", "SELECT"⟩] ∧
    (plan (claims "dba" "etl") ∅).map (roleShare "analyst") =
      .ok [.grantDefault "analyst" .tables ⟨"etl", "finance", "SELECT"⟩] := ⟨rfl, rfl⟩

end GrantPlan
