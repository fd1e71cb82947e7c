import GrantPlan.Proofs.Failure
import GrantPlan.Proofs.Plan
/-!
# What a plan says about one role

A plan is made role by role, so it falls into the shares of the roles, in the order of the spec
(`plan_eq_flatMap_roleShare`). The share of a role is all that planning for this role yields
(`planRole_eq_roleShare`).

What a role holds is looked at for the share of that role only (`planRole_congr`), and it does not
decide whether planning fails (`failure?_plan_congr`). So the roles do not interfere with each other
(`roles_isolated`).
-/

namespace GrantPlan

/-- The part of a plan that is about a role. -/
def roleShare (role : String) (statements : List Statement) : List Statement :=
  statements.filter (·.role = role)

variable {spec : Spec} {authority : Authority} {catalog catalog' : Catalog} {role : String}
  {config : RoleConfig} {scope : Scope} {wanted : Wanted} {statements : List Statement}

theorem mem_roleShare {s : Statement} :
    s ∈ roleShare role statements ↔ s ∈ statements ∧ s.role = role := by
  simp [roleShare]

/-! ## The shares of a plan -/

/-- The share of a role is what planning for this role yields. -/
theorem planRole_eq_roleShare (hplan : plan spec catalog = .ok statements)
    (hconfig : (role, config) ∈ spec.roles) :
    planRole spec.authority catalog role config = .ok (roleShare role statements) := by
  obtain ⟨parts, hparts, rfl⟩ := plan_eq_ok_iff.1 hplan
  refine eq_ok_filter_of_mapM_eq_ok (x := (role, config)) hparts (.of_map _ spec.nodup_roles)
    hconfig ?_
  rintro ⟨role', config'⟩ hconfig' block hblock s hs
  rw [role_of_mem_planRole hblock hs, decide_eq_true_eq]
  constructor
  · rintro rfl
    rw [Spec.config_unique hconfig' hconfig]
  · exact fun heq => congrArg Prod.fst heq

/-- A plan is about roles of the spec only. -/
theorem role_mem_of_mem_plan (hplan : plan spec catalog = .ok statements) {s : Statement}
    (hs : s ∈ statements) : ∃ config, (s.role, config) ∈ spec.roles := by
  obtain ⟨parts, hparts, rfl⟩ := plan_eq_ok_iff.1 hplan
  obtain ⟨⟨role, config⟩, hconfig, block, hblock, hs⟩ := (mem_flatten_of_mapM_eq_ok hparts).1 hs
  exact ⟨config, role_of_mem_planRole hblock hs ▸ hconfig⟩

theorem roleShare_eq_nil (hplan : plan spec catalog = .ok statements)
    (hrole : ∀ config, (role, config) ∉ spec.roles) : roleShare role statements = [] := by
  refine List.filter_eq_nil_iff.2 fun s hs heq => ?_
  obtain ⟨config, hconfig⟩ := role_mem_of_mem_plan hplan hs
  exact hrole config (of_decide_eq_true heq ▸ hconfig)

/-- A plan is the shares of the roles in the order of the spec. -/
theorem plan_eq_flatMap_roleShare (hplan : plan spec catalog = .ok statements) :
    statements = (spec.roles.map Prod.fst).flatMap fun role => roleShare role statements := by
  obtain ⟨parts, hparts, heq⟩ := plan_eq_ok_iff.1 hplan
  have hshares : (spec.roles.mapM fun entry =>
      planRole spec.authority catalog entry.1 entry.2) =
        .ok (spec.roles.map fun entry => roleShare entry.1 statements) := by
    rw [mapM_eq_ok_iff, List.forall₂_map_right_iff, List.forall₂_same]
    rintro ⟨role, config⟩ hconfig
    exact planRole_eq_roleShare hplan hconfig
  obtain rfl := Except.ok.inj (hparts.symm.trans hshares)
  rw [List.flatMap_map, List.flatMap_def, ← heq]

/-- Two plans have the same share for a role when both specs declare it, or neither does, and
planning for it has the same result. -/
theorem roleShare_congr {spec' : Spec} {statements' : List Statement}
    (hplan : plan spec catalog = .ok statements) (hplan' : plan spec' catalog' = .ok statements')
    (hdeclared : (∃ config', (role, config') ∈ spec'.roles) ↔ ∃ config, (role, config) ∈ spec.roles)
    (hresult : ∀ config config', (role, config) ∈ spec.roles → (role, config') ∈ spec'.roles →
      planRole spec'.authority catalog' role config' =
        planRole spec.authority catalog role config) :
    roleShare role statements' = roleShare role statements := by
  by_cases hrole : ∃ config, (role, config) ∈ spec.roles
  · obtain ⟨config, hconfig⟩ := hrole
    obtain ⟨config', hconfig'⟩ := hdeclared.2 ⟨config, hconfig⟩
    have h := hresult config config' hconfig hconfig'
    rw [planRole_eq_roleShare hplan hconfig, planRole_eq_roleShare hplan' hconfig'] at h
    exact Except.ok.inj h
  · have hrole' := mt hdeclared.1 hrole
    rw [roleShare_eq_nil hplan (not_exists.1 hrole), roleShare_eq_nil hplan' (not_exists.1 hrole')]

/-! ## What the share of a role depends on -/

/-- What is held outside a scope makes no difference to the scope. -/
theorem Scope.changes_congr
    (h : ∀ e, scope.Covers e → (catalog'.Holds e ↔ catalog.Holds e)) :
    scope.changes catalog' wanted = scope.changes catalog wanted := by
  have hheld : scope.held catalog' = scope.held catalog := by
    refine OrderedSet.ext fun p => ?_
    rw [mem_held_iff, mem_held_iff]
    exact and_congr_left fun hverb => h _ (covers_onObject hverb)
  have hdefaults : scope.heldDefaults catalog' = scope.heldDefaults catalog := by
    refine OrderedSet.ext fun p => ?_
    rw [mem_heldDefaults_iff, mem_heldDefaults_iff]
    exact and_congr_right fun hkind => and_congr_left fun hverb => h _ (covers_onFuture hverb hkind)
  rw [changes, changes, hheld, hdefaults]

/-- Planning for a role looks at the superusers, the owners, and what this role holds. -/
theorem planRole_congr (hsuperusers : catalog'.superusers = catalog.superusers)
    (howners : catalog'.owners = catalog.owners)
    (hholds : ∀ e : Entitlement, e.role = role → (catalog'.Holds e ↔ catalog.Holds e)) :
    planRole authority catalog' role config = planRole authority catalog role config := by
  have hscope : ∀ kind access items, Scope.plan authority catalog' ⟨role, kind, access⟩ items =
      Scope.plan authority catalog ⟨role, kind, access⟩ items := by
    intro kind access items
    have hchanges : ∀ wanted, Scope.changes catalog' ⟨role, kind, access⟩ wanted =
        Scope.changes catalog ⟨role, kind, access⟩ wanted := fun wanted =>
      Scope.changes_congr fun e hcovers => hholds e hcovers.role_eq
    simp only [Scope.plan, Scope.wanted_congr howners, hchanges]
  simp only [planRole, isSuperuser_congr hsuperusers, hscope]

/-- Whether planning fails, and with which mistake, depends on the superusers and the owners. -/
theorem failure?_plan_congr (hsuperusers : catalog'.superusers = catalog.superusers)
    (howners : catalog'.owners = catalog.owners) :
    failure? (plan spec catalog') = failure? (plan spec catalog) := by
  have hobstacle : ∀ listing, Listing.obstacle? spec catalog' listing =
      Listing.obstacle? spec catalog listing := by
    intro listing
    simp only [Listing.obstacle?, Listing.mistake?, isSuperuser_congr hsuperusers,
      Scope.request_congr howners]
  rw [failure?_plan, failure?_plan, funext hobstacle]

/-! ## Roles do not interfere -/

/-- Where two databases have the same superusers and the same owners, either there is a plan for
both, and the shares of each role that holds the same in both are the same, or planning fails for
both with the same mistake. What the other roles hold has no part in this. -/
theorem roles_isolated (spec : Spec) (hsuperusers : catalog'.superusers = catalog.superusers)
    (howners : catalog'.owners = catalog.owners) :
    (∃ statements statements', plan spec catalog = .ok statements ∧
      plan spec catalog' = .ok statements' ∧
      ∀ role, (∀ e : Entitlement, e.role = role → (catalog'.Holds e ↔ catalog.Holds e)) →
        roleShare role statements' = roleShare role statements) ∨
    ∃ mistake, plan spec catalog = .error mistake ∧ plan spec catalog' = .error mistake := by
  have hfailure := @failure?_plan_congr spec catalog catalog' hsuperusers howners
  cases hplan : plan spec catalog with
  | error mistake =>
    rw [hplan] at hfailure
    exact .inr ⟨mistake, rfl, failure?_eq_some_iff.1 hfailure⟩
  | ok statements =>
    cases hplan' : plan spec catalog' with
    | error mistake =>
      rw [hplan, hplan'] at hfailure
      cases hfailure
    | ok statements' =>
      refine .inl ⟨statements, statements', rfl, rfl, fun role hholds => ?_⟩
      refine roleShare_congr hplan hplan' Iff.rfl fun config config' hconfig hconfig' => ?_
      rw [Spec.config_unique hconfig' hconfig]
      exact planRole_congr hsuperusers howners hholds

/-- The small database after somebody has granted `etl` a few things by hand. -/
def meddledCatalog : Catalog :=
  ledgerCatalog.addGrant "etl" .tables "finance.ledger" "SELECT"
    |>.addGrant "etl" .schemas "finance" "CREATE"
    |>.addDefaultGrant "etl" .tables "analyst" "finance" "INSERT"

/-- The plan for it: `etl` loses what it does not need, and the rest is as before. -/
def meddledPlan : List Statement :=
  [.skipSuperuser "postgres",
    .revoke "etl" .schemas ⟨"finance", "CREATE"⟩,
    .revoke "etl" .tables ⟨"finance.\"ledger\"", "SELECT"⟩,
    .revokeDefault "etl" .tables ⟨"analyst", "finance", "INSERT"⟩] ++ ledgerPlan.drop 1

/-- What `etl` was granted by hand makes no difference to the share of the analyst. -/
theorem roles_isolated_meddled :
    meddledCatalog.superusers = ledgerCatalog.superusers ∧
    meddledCatalog.owners = ledgerCatalog.owners ∧
    (∀ e : Entitlement, e.role = "analyst" → (meddledCatalog.Holds e ↔ ledgerCatalog.Holds e)) ∧
    plan ledgerSpec ledgerCatalog = .ok ledgerPlan ∧
    plan ledgerSpec meddledCatalog = .ok meddledPlan ∧
    roleShare "analyst" meddledPlan = roleShare "analyst" ledgerPlan := by
  have hholds : ∀ e : Entitlement, e.role = "analyst" →
      (meddledCatalog.Holds e ↔ ledgerCatalog.Holds e) := by
    rintro (⟨role, kind, p⟩ | ⟨role, kind, p⟩) hrole
    all_goals
      obtain rfl : role = "analyst" := hrole
      simp [meddledCatalog, Catalog.addGrant, Catalog.addDefaultGrant, Catalog.Holds]
  have hmeddled : plan ledgerSpec meddledCatalog = .ok meddledPlan := by rfl
  refine ⟨rfl, rfl, hholds, plan_ledger, hmeddled, ?_⟩
  obtain ⟨statements, statements', hplan, hplan', hshares⟩ | ⟨mistake, hplan, -⟩ :=
    @roles_isolated ledgerCatalog meddledCatalog ledgerSpec rfl rfl
  · obtain rfl := Except.ok.inj (plan_ledger.symm.trans hplan)
    obtain rfl := Except.ok.inj (hmeddled.symm.trans hplan')
    exact hshares "analyst" hholds
  · rw [plan_ledger] at hplan
    cases hplan

end GrantPlan
