import GrantPlan.Plan
import GrantPlan.Proofs.Scope
/-!
# What is in a plan

A plan is the difference between two states of affairs: the entitlements that a catalog holds
(`Catalog.Holds`) and those that a spec wants (`Spec.Wants`), within what the spec manages at all.

* `award_mem_plan_iff` and `withdraw_mem_plan_iff` say which statements are in a plan;
* `nodup_plan` says that none is there twice;
* `plan_eq_filter` says which plan is made for a catalog that differs only in what is held.
-/

namespace GrantPlan

variable {spec : Spec} {authority : Authority} {catalog catalog' : Catalog} {role : String}
  {config : RoleConfig} {scope : Scope} {items : List String} {wanted : Wanted}
  {statements : List Statement}

/-! ## What a spec wants -/

/-- A role has one entry in a spec. -/
theorem Spec.config_unique {config' : RoleConfig} (h : (role, config) ∈ spec.roles)
    (h' : (role, config') ∈ spec.roles) : config = config' :=
  congrArg Prod.snd (List.inj_on_of_nodup_map spec.nodup_roles h h' rfl)

/-- The privileges that a spec wants in a scope of a role that is no superuser. -/
def Spec.WantsIn (spec : Spec) (catalog : Catalog) (scope : Scope) (wanted : Wanted) : Prop :=
  ∃ config, (scope.role, config) ∈ spec.roles ∧ catalog.isSuperuser scope.role = false ∧
    scope.wanted spec.authority catalog (config.wantedAt scope.kind scope.access) = .ok wanted

theorem Spec.WantsIn.unique {wanted' : Wanted} (h : spec.WantsIn catalog scope wanted)
    (h' : spec.WantsIn catalog scope wanted') : wanted = wanted' := by
  obtain ⟨config, hconfig, -, hwanted⟩ := h
  obtain ⟨config', hconfig', -, hwanted'⟩ := h'
  obtain rfl := Spec.config_unique hconfig hconfig'
  exact Except.ok.inj (hwanted.symm.trans hwanted')

theorem Spec.WantsIn.fitsIn (h : spec.WantsIn catalog scope wanted) : wanted.FitsIn scope := by
  obtain ⟨config, -, -, hwanted⟩ := h
  exact Scope.fitsIn_of_wanted hwanted

/-- Whether a spec wants a role to have an entitlement. -/
def Spec.Wants (spec : Spec) (catalog : Catalog) (e : Entitlement) : Prop :=
  ∃ scope wanted, spec.WantsIn catalog scope wanted ∧ scope.Covers e ∧ wanted.Asks e

/-- Whether a spec decides on an entitlement: its role is declared and no superuser, and its verb
belongs to some access level. -/
structure Spec.Manages (spec : Spec) (catalog : Catalog) (e : Entitlement) : Prop where
  declared : ∃ config, (e.role, config) ∈ spec.roles
  not_superuser : catalog.isSuperuser e.role = false
  verb_mem : ∃ access, e.verb ∈ e.kind.verbs access
  supported : e.IsSupported

/-- The scope that covers an entitlement tells whether it is wanted. -/
theorem Spec.WantsIn.wants_iff (h : spec.WantsIn catalog scope wanted) {e : Entitlement}
    (hcovers : scope.Covers e) : spec.Wants catalog e ↔ wanted.Asks e := by
  constructor
  · rintro ⟨scope', wanted', h', hcovers', hasks⟩
    obtain rfl := hcovers.unique hcovers'
    obtain rfl := h.unique h'
    exact hasks
  · exact fun hasks => ⟨scope, wanted, h, hcovers, hasks⟩

theorem Spec.WantsIn.manages (h : spec.WantsIn catalog scope wanted) {e : Entitlement}
    (hcovers : scope.Covers e) : spec.Manages catalog e := by
  obtain ⟨config, hconfig, hrole, -⟩ := h
  exact
    { declared := ⟨config, hcovers.role_eq ▸ hconfig⟩
      not_superuser := hcovers.role_eq ▸ hrole
      verb_mem := ⟨scope.access, hcovers.kind_eq ▸ hcovers.verb_mem⟩
      supported := hcovers.supported }

theorem Spec.Wants.manages {e : Entitlement} (h : spec.Wants catalog e) :
    spec.Manages catalog e := by
  obtain ⟨scope, wanted, h, hcovers, -⟩ := h
  exact h.manages hcovers

/-! ## Plans by scope -/

theorem mem_levels (kind : ObjectKind) (access : Access) : (kind, access) ∈ levels := by
  cases kind <;> cases access <;> decide

theorem nodup_levels : levels.Nodup := by decide

theorem Scope.plan_eq_ok_iff :
    scope.plan authority catalog items = .ok statements ↔
      ∃ wanted, scope.wanted authority catalog items = .ok wanted ∧
        statements = scope.changes catalog wanted := by
  simp only [Scope.plan, bind_eq_ok_iff, pure_eq_ok_iff, eq_comm (b := statements)]

/-- A superuser gets a note. -/
theorem planRole_superuser_eq_ok_iff (hrole : catalog.isSuperuser role = true) :
    planRole authority catalog role config = .ok statements ↔
      statements = [.skipSuperuser role] := by
  rw [planRole, if_pos hrole, Except.ok.injEq, eq_comm]

theorem planRole_eq_ok_iff (hrole : catalog.isSuperuser role = false) :
    planRole authority catalog role config = .ok statements ↔
      ∃ parts, (levels.mapM fun (kind, access) =>
        Scope.plan authority catalog ⟨role, kind, access⟩ (config.wantedAt kind access)) =
          .ok parts ∧ statements = parts.flatten := by
  rw [planRole, hrole]
  simp only [Bool.false_eq_true, if_false, bind_eq_ok_iff, pure_eq_ok_iff,
    eq_comm (b := statements)]

theorem plan_eq_ok_iff :
    plan spec catalog = .ok statements ↔
      ∃ parts, (spec.roles.mapM fun (role, config) =>
        planRole spec.authority catalog role config) = .ok parts ∧ statements = parts.flatten := by
  simp only [plan, bind_eq_ok_iff, pure_eq_ok_iff, eq_comm (b := statements)]

theorem exists_planRole_iff :
    (∃ block, planRole authority catalog role config = .ok block) ↔
      (catalog.isSuperuser role = false → ∀ kind access, ∃ wanted,
        Scope.wanted authority catalog ⟨role, kind, access⟩ (config.wantedAt kind access) =
          .ok wanted) := by
  unfold planRole
  cases hrole : catalog.isSuperuser role with
  | true => simp
  | false =>
    simp only [Bool.false_eq_true, if_false, true_imp_iff]
    rw [exists_bind_pure_eq_ok_iff, exists_mapM_eq_ok_iff]
    simp only [Prod.forall, Scope.plan, exists_bind_pure_eq_ok_iff]
    exact ⟨fun h kind access => h kind access (mem_levels kind access),
      fun h kind access _ => h kind access⟩

/-- A plan is made when the targets of every role that is no superuser can be read. -/
theorem exists_plan_iff :
    (∃ statements, plan spec catalog = .ok statements) ↔
      ∀ role config, (role, config) ∈ spec.roles → catalog.isSuperuser role = false →
        ∀ kind access, ∃ wanted, Scope.wanted spec.authority catalog ⟨role, kind, access⟩
          (config.wantedAt kind access) = .ok wanted := by
  unfold plan
  rw [exists_bind_pure_eq_ok_iff, exists_mapM_eq_ok_iff]
  simp only [Prod.forall, exists_planRole_iff]

/-- Where there is a plan, the targets of a role that is no superuser can be read. -/
theorem exists_wantsIn (hplan : plan spec catalog = .ok statements)
    (hconfig : (role, config) ∈ spec.roles) (hrole : catalog.isSuperuser role = false)
    (kind : ObjectKind) (access : Access) : ∃ wanted,
      Scope.wanted spec.authority catalog ⟨role, kind, access⟩ (config.wantedAt kind access) =
        .ok wanted ∧
      spec.WantsIn catalog ⟨role, kind, access⟩ wanted := by
  obtain ⟨wanted, hwanted⟩ :=
    exists_plan_iff.1 ⟨statements, hplan⟩ role config hconfig hrole kind access
  exact ⟨wanted, hwanted, config, hconfig, hrole, hwanted⟩

/-- Where there is a plan, everything that the spec manages falls into a scope. -/
theorem Spec.Manages.exists_wantsIn (hplan : plan spec catalog = .ok statements) {e : Entitlement}
    (h : spec.Manages catalog e) :
    ∃ scope wanted, spec.WantsIn catalog scope wanted ∧ scope.Covers e := by
  obtain ⟨config, hconfig⟩ := h.declared
  obtain ⟨access, hverb⟩ := h.verb_mem
  obtain ⟨wanted, hwanted⟩ :=
    exists_plan_iff.1 ⟨statements, hplan⟩ e.role config hconfig h.not_superuser e.kind access
  exact ⟨⟨e.role, e.kind, access⟩, wanted, ⟨config, hconfig, h.not_superuser, hwanted⟩,
    ⟨rfl, rfl, hverb, h.supported⟩⟩

/-! ## The statements of a plan -/

/-- A plan consists of notes on superusers and of what its scopes change. -/
theorem mem_plan_iff (hplan : plan spec catalog = .ok statements) {s : Statement} :
    s ∈ statements ↔
      (∃ role config, (role, config) ∈ spec.roles ∧ catalog.isSuperuser role = true ∧
        s = .skipSuperuser role) ∨
      ∃ scope wanted, spec.WantsIn catalog scope wanted ∧ s ∈ scope.changes catalog wanted := by
  obtain ⟨parts, hparts, rfl⟩ := plan_eq_ok_iff.1 hplan
  rw [mem_flatten_of_mapM_eq_ok hparts]
  constructor
  · rintro ⟨⟨role, config⟩, hconfig, block, hblock, hs⟩
    cases hrole : catalog.isSuperuser role with
    | true =>
      obtain rfl := (planRole_superuser_eq_ok_iff hrole).1 hblock
      exact .inl ⟨role, config, hconfig, hrole, List.mem_singleton.1 hs⟩
    | false =>
      obtain ⟨levelParts, hlevelParts, rfl⟩ := (planRole_eq_ok_iff hrole).1 hblock
      obtain ⟨⟨kind, access⟩, -, block, hblock, hs⟩ :=
        (mem_flatten_of_mapM_eq_ok hlevelParts).1 hs
      obtain ⟨wanted, hwanted, rfl⟩ := Scope.plan_eq_ok_iff.1 hblock
      exact .inr ⟨⟨role, kind, access⟩, wanted, ⟨config, hconfig, hrole, hwanted⟩, hs⟩
  · rintro (⟨role, config, hconfig, hrole, rfl⟩ |
      ⟨⟨role, kind, access⟩, wanted, ⟨config, hconfig, hrole, hwanted⟩, hs⟩)
    · have hblock : planRole spec.authority catalog role config = .ok [.skipSuperuser role] :=
        (planRole_superuser_eq_ok_iff hrole).2 rfl
      exact ⟨(role, config), hconfig, _, hblock, List.mem_singleton.2 rfl⟩
    · have hall := exists_plan_iff.1 ⟨_, hplan⟩ role config hconfig hrole
      obtain ⟨block, hblock⟩ := exists_planRole_iff.2 fun _ => hall
      refine ⟨(role, config), hconfig, block, hblock, ?_⟩
      obtain ⟨levelParts, hlevelParts, rfl⟩ := (planRole_eq_ok_iff hrole).1 hblock
      exact (mem_flatten_of_mapM_eq_ok hlevelParts).2 ⟨(kind, access), mem_levels kind access, _,
        Scope.plan_eq_ok_iff.2 ⟨wanted, hwanted, rfl⟩, hs⟩

/-- A plan awards what is wanted and not held. -/
theorem award_mem_plan_iff (hplan : plan spec catalog = .ok statements) {e : Entitlement} :
    e.award ∈ statements ↔ spec.Wants catalog e ∧ ¬ catalog.Holds e := by
  rw [mem_plan_iff hplan]
  constructor
  · rintro (⟨role, -, -, -, hs⟩ | ⟨scope, wanted, h, hs⟩)
    · have := e.isChange_award
      simp [hs, Statement.isChange] at this
    · obtain ⟨e', hcovers, ⟨heq, hasks, hheld⟩ | ⟨heq, -, -⟩⟩ := (Scope.mem_changes_iff h.fitsIn).1 hs
      · obtain rfl := Entitlement.award_inj.1 heq
        exact ⟨⟨scope, wanted, h, hcovers, hasks⟩, hheld⟩
      · exact absurd heq (Entitlement.award_ne_withdraw e e')
  · rintro ⟨⟨scope, wanted, h, hcovers, hasks⟩, hheld⟩
    exact .inr ⟨scope, wanted, h,
      (Scope.mem_changes_iff h.fitsIn).2 ⟨e, hcovers, .inl ⟨rfl, hasks, hheld⟩⟩⟩

/-- A plan withdraws what is held and not wanted, so far as the spec manages it. -/
theorem withdraw_mem_plan_iff (hplan : plan spec catalog = .ok statements) {e : Entitlement} :
    e.withdraw ∈ statements ↔
      spec.Manages catalog e ∧ ¬ spec.Wants catalog e ∧ catalog.Holds e := by
  rw [mem_plan_iff hplan]
  constructor
  · rintro (⟨role, -, -, -, hs⟩ | ⟨scope, wanted, h, hs⟩)
    · have := e.isChange_withdraw
      simp [hs, Statement.isChange] at this
    · obtain ⟨e', hcovers, ⟨heq, -, -⟩ | ⟨heq, hasks, hheld⟩⟩ := (Scope.mem_changes_iff h.fitsIn).1 hs
      · exact absurd heq.symm (Entitlement.award_ne_withdraw e' e)
      · obtain rfl := Entitlement.withdraw_inj.1 heq
        exact ⟨h.manages hcovers, mt (h.wants_iff hcovers).1 hasks, hheld⟩
  · rintro ⟨hmanages, hwants, hheld⟩
    obtain ⟨scope, wanted, h, hcovers⟩ := hmanages.exists_wantsIn hplan
    have hasks : ¬ wanted.Asks e := mt (h.wants_iff hcovers).2 hwants
    exact .inr ⟨scope, wanted, h,
      (Scope.mem_changes_iff h.fitsIn).2 ⟨e, hcovers, .inr ⟨rfl, hasks, hheld⟩⟩⟩

/-- A plan without changes means that what is held is what is wanted. -/
theorem no_change_iff (hplan : plan spec catalog = .ok statements) :
    (∀ s ∈ statements, s.isChange = false) ↔
      ∀ e, spec.Manages catalog e → (catalog.Holds e ↔ spec.Wants catalog e) := by
  constructor
  · intro h e hmanages
    have haward : e.award ∉ statements := fun hs => by simpa using h _ hs
    have hwithdraw : e.withdraw ∉ statements := fun hs => by simpa using h _ hs
    rw [award_mem_plan_iff hplan] at haward
    rw [withdraw_mem_plan_iff hplan] at hwithdraw
    constructor
    · exact fun hheld => by_contra fun hwants => hwithdraw ⟨hmanages, hwants, hheld⟩
    · exact fun hwants => by_contra fun hheld => haward ⟨hwants, hheld⟩
  · intro h s hs
    by_contra hchange
    obtain ⟨e, rfl | rfl⟩ := Statement.exists_entitlement (Bool.not_eq_false _ ▸ hchange)
    · obtain ⟨hwants, hheld⟩ := (award_mem_plan_iff hplan).1 hs
      exact hheld ((h e hwants.manages).2 hwants)
    · obtain ⟨hmanages, hwants, hheld⟩ := (withdraw_mem_plan_iff hplan).1 hs
      exact hwants ((h e hmanages).1 hheld)

/-- No plan awards and withdraws one entitlement. -/
theorem not_award_and_withdraw (hplan : plan spec catalog = .ok statements) (e : Entitlement) :
    ¬ (e.award ∈ statements ∧ e.withdraw ∈ statements) := by
  rw [award_mem_plan_iff hplan, withdraw_mem_plan_iff hplan]
  rintro ⟨⟨hwants, -⟩, -, hnot, -⟩
  exact hnot hwants

/-! ## Order and repetition -/

theorem role_of_mem_planRole
    (h : planRole authority catalog role config = .ok statements) {s : Statement}
    (hs : s ∈ statements) : s.role = role := by
  cases hrole : catalog.isSuperuser role with
  | true =>
    obtain rfl := (planRole_superuser_eq_ok_iff hrole).1 h
    rw [List.mem_singleton.1 hs, Statement.role]
  | false =>
    obtain ⟨parts, hparts, rfl⟩ := (planRole_eq_ok_iff hrole).1 h
    obtain ⟨⟨kind, access⟩, -, block, hblock, hs⟩ := (mem_flatten_of_mapM_eq_ok hparts).1 hs
    obtain ⟨wanted, hwanted, rfl⟩ := Scope.plan_eq_ok_iff.1 hblock
    exact Scope.role_of_mem_changes (Scope.fitsIn_of_wanted hwanted) hs

theorem nodup_planRole (h : planRole authority catalog role config = .ok statements) :
    statements.Nodup := by
  cases hrole : catalog.isSuperuser role with
  | true =>
    obtain rfl := (planRole_superuser_eq_ok_iff hrole).1 h
    exact List.nodup_singleton _
  | false =>
    obtain ⟨parts, hparts, rfl⟩ := (planRole_eq_ok_iff hrole).1 h
    refine pairwise_flatten_of_mapM_eq_ok hparts ?_ (nodup_levels.imp ?_)
    · -- within a scope
      rintro ⟨kind, access⟩ - block hblock
      obtain ⟨wanted, -, rfl⟩ := Scope.plan_eq_ok_iff.1 hblock
      exact Scope.nodup_changes _ catalog wanted
    · -- a statement in two scopes would make them equal
      rintro ⟨kind, access⟩ ⟨kind', access'⟩ hne block block' hblock hblock' s hs t ht rfl
      obtain ⟨wanted, hwanted, rfl⟩ := Scope.plan_eq_ok_iff.1 hblock
      obtain ⟨wanted', hwanted', rfl⟩ := Scope.plan_eq_ok_iff.1 hblock'
      have hscope := Scope.eq_of_mem_changes (Scope.fitsIn_of_wanted hwanted)
        (Scope.fitsIn_of_wanted hwanted') hs ht
      obtain ⟨-, rfl, rfl⟩ := Scope.mk.inj hscope
      exact hne rfl

/-- No statement is in a plan twice. -/
theorem nodup_plan (hplan : plan spec catalog = .ok statements) : statements.Nodup := by
  obtain ⟨parts, hparts, rfl⟩ := plan_eq_ok_iff.1 hplan
  have hroles : spec.roles.Pairwise fun entry entry' => entry.1 ≠ entry'.1 :=
    List.pairwise_map.1 spec.nodup_roles
  refine pairwise_flatten_of_mapM_eq_ok hparts (fun entry _ block hblock => nodup_planRole hblock) ?_
  -- a statement tells its role, and no role has two entries
  refine hroles.imp fun hne block block' hblock hblock' s hs t ht heq => hne ?_
  rw [← role_of_mem_planRole hblock hs, heq, role_of_mem_planRole hblock' ht]

/-! ## Catalogs that differ in what is held -/

theorem isSuperuser_congr (h : catalog'.superusers = catalog.superusers) (role : String) :
    catalog'.isSuperuser role = catalog.isSuperuser role := by
  rw [Catalog.isSuperuser, h, Catalog.isSuperuser]

theorem Spec.wantsIn_congr (hsuperusers : catalog'.superusers = catalog.superusers)
    (howners : catalog'.owners = catalog.owners) :
    spec.WantsIn catalog' scope wanted ↔ spec.WantsIn catalog scope wanted := by
  simp only [WantsIn, isSuperuser_congr hsuperusers, Scope.wanted_congr howners]

theorem Spec.wants_congr (hsuperusers : catalog'.superusers = catalog.superusers)
    (howners : catalog'.owners = catalog.owners) {e : Entitlement} :
    spec.Wants catalog' e ↔ spec.Wants catalog e := by
  simp only [Wants, wantsIn_congr hsuperusers howners]

theorem Spec.manages_congr (hsuperusers : catalog'.superusers = catalog.superusers)
    {e : Entitlement} : spec.Manages catalog' e ↔ spec.Manages catalog e := by
  have hrole := isSuperuser_congr hsuperusers e.role
  exact ⟨fun h => ⟨h.1, hrole ▸ h.2, h.3, h.4⟩, fun h => ⟨h.1, hrole ▸ h.2, h.3, h.4⟩⟩

/-- Where two catalogs agree on superusers and owners, and differ in what is held by the effect of
statements that are not kept, the plan for the second keeps the rest of the plan for the first. -/
theorem plan_eq_filter {keep : Statement → Bool} (hplan : plan spec catalog = .ok statements)
    (hsuperusers : catalog'.superusers = catalog.superusers)
    (howners : catalog'.owners = catalog.owners)
    (hnotes : ∀ role, keep (.skipSuperuser role) = true)
    (haward : ∀ e, spec.Wants catalog e →
      (catalog'.Holds e ↔ keep e.award = false ∨ catalog.Holds e))
    (hwithdraw : ∀ e, spec.Manages catalog e → ¬ spec.Wants catalog e →
      (catalog'.Holds e ↔ catalog.Holds e ∧ keep e.withdraw = true)) :
    plan spec catalog' = .ok (statements.filter keep) := by
  -- the statements of one scope, then of one role, then of all roles
  have hscope : ∀ {scope wanted}, spec.WantsIn catalog scope wanted →
      scope.changes catalog' wanted = (scope.changes catalog wanted).filter keep := by
    intro scope wanted h
    refine Scope.changes_eq_filter h.fitsIn (fun e hcovers hasks => ?_) fun e hcovers hasks => ?_
    · exact haward e ((h.wants_iff hcovers).2 hasks)
    · exact hwithdraw e (h.manages hcovers) (mt (h.wants_iff hcovers).1 hasks)
  have hblock : ∀ entry ∈ spec.roles, ∀ block,
      planRole spec.authority catalog entry.1 entry.2 = .ok block →
      planRole spec.authority catalog' entry.1 entry.2 = .ok (block.filter keep) := by
    rintro ⟨role, config⟩ hconfig block hblock
    have hrole' := isSuperuser_congr hsuperusers role
    cases hrole : catalog.isSuperuser role with
    | true =>
      obtain rfl := (planRole_superuser_eq_ok_iff hrole).1 hblock
      rw [planRole_superuser_eq_ok_iff (hrole'.trans hrole)]
      simp [hnotes]
    | false =>
      obtain ⟨parts, hparts, rfl⟩ := (planRole_eq_ok_iff hrole).1 hblock
      rw [List.filter_flatten, planRole_eq_ok_iff (hrole'.trans hrole)]
      refine ⟨_, mapM_eq_ok_map hparts fun level _ part hpart => ?_, rfl⟩
      obtain ⟨wanted, hwanted, rfl⟩ := Scope.plan_eq_ok_iff.1 hpart
      rw [Scope.plan_eq_ok_iff, Scope.wanted_congr howners]
      exact ⟨wanted, hwanted, (hscope ⟨config, hconfig, hrole, hwanted⟩).symm⟩
  obtain ⟨parts, hparts, rfl⟩ := plan_eq_ok_iff.1 hplan
  rw [List.filter_flatten, plan_eq_ok_iff]
  exact ⟨_, mapM_eq_ok_map hparts hblock, rfl⟩

/-! ## A small database

The superuser `postgres`, a service `etl` that owns the schema `finance`, and an `analyst` who is to
read everything in it. The analyst holds a privilege on a table that is gone, one too many on the
ledger, and a promise of a role that no longer writes to the schema.
-/

/-- What the spec of the small database says about the analyst. -/
def ledgerAnalyst : RoleConfig :=
  let reads : OrderedMap Access (List String) := .insert ∅ .read ["finance.*", "finance.ledger"]
  { RoleConfig.default with targets := .insert ∅ .tables reads }

/-- The spec of the small database. -/
def ledgerSpec : Spec :=
  .ofList [("postgres", .default),
    ("etl", { RoleConfig.default with ownedSchemas := ["finance"] }),
    ("analyst", ledgerAnalyst)]

/-- The small database before the plan. -/
def ledgerCatalog : Catalog :=
  (∅ : Catalog).addSuperuser "postgres"
    |>.addObject .tables "finance" (some "ledger") "etl"
    |>.addObject .tables "finance" (some "notes") "analyst"
    |>.addGrant "analyst" .tables "finance.archive" "SELECT"
    |>.addGrant "analyst" .tables "finance.ledger" "INSERT"
    |>.addDefaultGrant "analyst" .tables "intern" "finance" "SELECT"

/-- The plan for the small database. -/
def ledgerPlan : List Statement :=
  [.skipSuperuser "postgres",
    .grant "analyst" .tables ⟨"finance.\"ledger\"", "SELECT"⟩,
    .revoke "analyst" .tables ⟨"finance.\"archive\"", "SELECT"⟩,
    .grantDefault "analyst" .tables ⟨"etl", "finance", "SELECT"⟩,
    .revokeDefault "analyst" .tables ⟨"intern", "finance", "SELECT"⟩,
    .revoke "analyst" .tables ⟨"finance.\"ledger\"", "INSERT"⟩]

theorem plan_ledger : plan ledgerSpec ledgerCatalog = .ok ledgerPlan := by rfl

end GrantPlan
