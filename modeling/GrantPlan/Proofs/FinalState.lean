import GrantPlan.Proofs.Convergence
import GrantPlan.Proofs.Request
/-!
# The state that a plan leads to

What a database holds once a plan is carried out, in terms of the spec alone and of who owns what:
each role that the plan is about holds what its items ask for, at each level and on each kind, and
nothing else at that level and on that kind (`plan_final_state`). Everything that the spec does not
manage stays as it was.
-/

namespace GrantPlan

variable {spec : Spec} {catalog : Catalog} {statements : List Statement} {role : String}
  {config : RoleConfig}

theorem mem_held_after_plan_iff (hplan : plan spec catalog = .ok statements)
    (hconfig : (role, config) ∈ spec.roles) (hrole : catalog.isSuperuser role = false)
    {kind : ObjectKind} {access : Access} {p : Privilege} :
    p ∈ (catalog.applyAll statements).held role kind access ↔
      p.verb ∈ kind.verbs access ∧ ∃ name,
        AsksForObject spec catalog role kind (config.Counts kind access) name ∧
        p.object = name.render kind := by
  obtain ⟨wanted, hwanted, hin⟩ := exists_wantsIn hplan hconfig hrole kind access
  rw [Catalog.mem_held_iff, and_comm, and_congr_right_iff]
  intro hverb
  rw [hin.holds_applyAll_iff hplan (Scope.covers_onObject hverb)]
  exact (Scope.mem_privileges_iff hwanted).trans (and_iff_right hverb)

theorem mem_heldDefaults_after_plan_iff (hplan : plan spec catalog = .ok statements)
    (hconfig : (role, config) ∈ spec.roles) (hrole : catalog.isSuperuser role = false)
    {kind : ObjectKind} (hkind : kind ≠ .schemas) {access : Access} {p : DefaultPrivilege} :
    p ∈ (catalog.applyAll statements).heldDefaults role kind access ↔
      p.verb ∈ kind.verbs access ∧ AsksForSchema spec (config.Counts kind access) p.schema ∧
        p.grantor ∈ spec.authority.writersOf p.schema ∧ p.grantor ≠ role := by
  obtain ⟨wanted, hwanted, hin⟩ := exists_wantsIn hplan hconfig hrole kind access
  have hdefaults : kind.hasDefaults = true := ObjectKind.hasDefaults_iff.2 hkind
  rw [Catalog.mem_heldDefaults_iff, and_comm, and_congr_right_iff]
  intro hverb
  rw [hin.holds_applyAll_iff hplan (Scope.covers_onFuture hverb hdefaults)]
  refine (Scope.mem_defaults_iff hwanted).trans ?_
  rw [and_iff_right hdefaults]
  exact ⟨fun ⟨hschema, hwriter, hforeign, _⟩ => ⟨hschema, hwriter, hforeign⟩,
    fun ⟨hschema, hwriter, hforeign⟩ => ⟨hschema, hwriter, hforeign, hverb⟩⟩

theorem holds_applyAll_plan_of_not_manages (hplan : plan spec catalog = .ok statements)
    {e : Entitlement} (he : ¬ spec.Manages catalog e) :
    (catalog.applyAll statements).Holds e ↔ catalog.Holds e := by
  have hwants : ¬ spec.Wants catalog e := mt Spec.Wants.manages he
  rw [holds_applyAll_plan_iff hplan]
  tauto

/-- After a plan, each role of the spec that is no superuser holds what its items ask for: its verbs
on the objects asked for, and on what the other writers of the schemas asked for will create there.
Superusers, owners, and whatever the spec does not manage are as they were. -/
theorem plan_final_state (hplan : plan spec catalog = .ok statements) :
    (∀ role config kind access, (role, config) ∈ spec.roles → catalog.isSuperuser role = false →
      (∀ p, p ∈ (catalog.applyAll statements).held role kind access ↔
        p.verb ∈ kind.verbs access ∧ ∃ name,
          AsksForObject spec catalog role kind (config.Counts kind access) name ∧
          p.object = name.render kind) ∧
      (kind ≠ .schemas → ∀ p, p ∈ (catalog.applyAll statements).heldDefaults role kind access ↔
        p.verb ∈ kind.verbs access ∧ AsksForSchema spec (config.Counts kind access) p.schema ∧
          p.grantor ∈ spec.authority.writersOf p.schema ∧ p.grantor ≠ role)) ∧
    (catalog.applyAll statements).superusers = catalog.superusers ∧
    (catalog.applyAll statements).owners = catalog.owners ∧
    (∀ grant, ¬ spec.Manages catalog (.onObject grant) →
      (grant ∈ (catalog.applyAll statements).grants ↔ grant ∈ catalog.grants)) ∧
    (∀ grant, ¬ spec.Manages catalog (.onFuture grant) →
      (grant ∈ (catalog.applyAll statements).defaultGrants ↔ grant ∈ catalog.defaultGrants)) := by
  refine ⟨fun role config kind access hconfig hrole => ⟨fun p => ?_, fun hkind p => ?_⟩,
    Catalog.superusers_applyAll catalog statements, Catalog.owners_applyAll catalog statements,
    fun grant he => ?_, fun grant he => ?_⟩
  · exact mem_held_after_plan_iff hplan hconfig hrole
  · exact mem_heldDefaults_after_plan_iff hplan hconfig hrole hkind
  · exact holds_applyAll_plan_of_not_manages hplan he
  · exact holds_applyAll_plan_of_not_manages hplan he

/-- In the small database the analyst comes to read the ledger and what `etl` will add to it. -/
theorem plan_final_state_ledger :
    plan ledgerSpec ledgerCatalog = .ok ledgerPlan ∧
    ⟨"finance.\"ledger\"", "SELECT"⟩ ∈
      (ledgerCatalog.applyAll ledgerPlan).held "analyst" .tables .read ∧
    ⟨"etl", "finance", "SELECT"⟩ ∈
      (ledgerCatalog.applyAll ledgerPlan).heldDefaults "analyst" .tables .read ∧
    (ledgerCatalog.applyAll ledgerPlan).owners = ledgerCatalog.owners := by
  obtain ⟨hrole, -, howners, -, -⟩ := plan_final_state plan_ledger
  have hanalyst : ("analyst", ledgerAnalyst) ∈ ledgerSpec.roles := by decide
  obtain ⟨hheld, hdefaults⟩ := hrole "analyst" ledgerAnalyst .tables .read hanalyst (by decide)
  have hlisted : ledgerAnalyst.Counts .tables .read ("finance" ++ Target.contentsMark) :=
    .inl (by decide)
  have hschema : AsksForSchema ledgerSpec (ledgerAnalyst.Counts .tables .read) "finance" :=
    .contents hlisted (by decide)
  have howner : ledgerCatalog.owner? .tables ⟨"finance", some "ledger"⟩ = some "etl" := by decide
  have hobject : AsksForObject ledgerSpec ledgerCatalog "analyst" .tables
      (ledgerAnalyst.Counts .tables .read) ⟨"finance", some "ledger"⟩ :=
    .contents hschema howner (by decide)
  have hwriter : "etl" ∈ ledgerSpec.authority.writersOf "finance" := by decide
  exact ⟨plan_ledger, (hheld _).2 ⟨by decide, _, hobject, by decide⟩,
    (hdefaults (by decide) _).2 ⟨by decide, hschema, hwriter, by decide⟩, howners⟩

end GrantPlan
