import GrantPlan.Proofs.Plan
import Mathlib.Data.List.Perm.Subperm
/-!
# No shorter way

A plan contains nothing that could be left out. Whatever statements are carried out instead, if
nothing is left to change afterwards, then every change of the plan was among them
(`mem_of_nothing_left`): an entitlement that is missing has to be awarded at some point, and one
that is surplus has to be withdrawn.
-/

namespace GrantPlan

variable {spec : Spec} {catalog : Catalog} {statements others rest : List Statement}

/-- Statements that leave nothing to change bring about exactly what is wanted. -/
theorem holds_iff_wants_of_nothing_left (hrest : plan spec (catalog.applyAll others) = .ok rest)
    (hquiet : ∀ s ∈ rest, s.isChange = false) {e : Entitlement} (he : spec.Manages catalog e) :
    (catalog.applyAll others).Holds e ↔ spec.Wants catalog e := by
  have hsuperusers := Catalog.superusers_applyAll catalog others
  have howners := Catalog.owners_applyAll catalog others
  rw [(no_change_iff hrest).1 hquiet e ((Spec.manages_congr hsuperusers).2 he),
    Spec.wants_congr hsuperusers howners]

theorem mem_of_nothing_left (hplan : plan spec catalog = .ok statements)
    (hrest : plan spec (catalog.applyAll others) = .ok rest)
    (hquiet : ∀ s ∈ rest, s.isChange = false) {s : Statement} (hs : s ∈ statements)
    (hchange : s.isChange = true) : s ∈ others := by
  by_contra hmissing
  obtain ⟨e, rfl | rfl⟩ := Statement.exists_entitlement hchange
  · -- missing before and there afterwards
    obtain ⟨hwants, hheld⟩ := (award_mem_plan_iff hplan).1 hs
    have hafter := (holds_iff_wants_of_nothing_left hrest hquiet hwants.manages).2 hwants
    exact hheld ((Catalog.holds_applyAll_of_not_award hmissing).1 hafter).1
  · -- surplus before and gone afterwards
    obtain ⟨hmanages, hwants, hheld⟩ := (withdraw_mem_plan_iff hplan).1 hs
    have hafter := (Catalog.holds_applyAll_of_not_withdraw hmissing).2 (.inr hheld)
    exact hwants ((holds_iff_wants_of_nothing_left hrest hquiet hmanages).1 hafter)

/-- A plan repeats no statement, never works in both directions on one privilege, and is contained
in every list of statements that leaves nothing to change. So no such list is shorter. -/
theorem plan_minimal (hplan : plan spec catalog = .ok statements) :
    statements.Nodup ∧
    (∀ role kind privilege,
      ¬ (.grant role kind privilege ∈ statements ∧ .revoke role kind privilege ∈ statements)) ∧
    (∀ role kind privilege, ¬ (.grantDefault role kind privilege ∈ statements ∧
      .revokeDefault role kind privilege ∈ statements)) ∧
    ∀ others rest, plan spec (catalog.applyAll others) = .ok rest →
      (∀ s ∈ rest, s.isChange = false) →
        (∀ s ∈ statements, s.isChange = true → s ∈ others) ∧
        (statements.filter (·.isChange)).length ≤ others.length := by
  refine ⟨nodup_plan hplan, fun role kind privilege => ?_, fun role kind privilege => ?_, ?_⟩
  · exact not_award_and_withdraw hplan (.onObject ⟨role, kind, privilege⟩)
  · exact not_award_and_withdraw hplan (.onFuture ⟨role, kind, privilege⟩)
  · intro others rest hrest hquiet
    have hmem : ∀ s ∈ statements, s.isChange = true → s ∈ others := fun s hs hchange =>
      mem_of_nothing_left hplan hrest hquiet hs hchange
    have hsubset : statements.filter (·.isChange) ⊆ others := by
      intro s hs
      obtain ⟨hs, hchange⟩ := List.mem_filter.1 hs
      exact hmem s hs hchange
    have hsubperm := List.subperm_of_subset ((nodup_plan hplan).filter _) hsubset
    exact ⟨hmem, hsubperm.length_le⟩

/-- Another way to the same end, which does a few things twice and one thing too many. -/
def ledgerDetour : List Statement :=
  ledgerPlan.drop 3 ++ ledgerPlan.take 4 ++ [.revoke "etl" .types ⟨"finance.\"money\"", "USAGE"⟩]

theorem plan_minimal_ledger :
    plan ledgerSpec ledgerCatalog = .ok ledgerPlan ∧
    plan ledgerSpec (ledgerCatalog.applyAll ledgerDetour) = .ok [.skipSuperuser "postgres"] ∧
    ledgerPlan.Nodup ∧ (ledgerPlan.filter (·.isChange)).length ≤ ledgerDetour.length := by
  have hdetour : plan ledgerSpec (ledgerCatalog.applyAll ledgerDetour) =
      .ok [.skipSuperuser "postgres"] := by rfl
  obtain ⟨hnodup, -, -, hleast⟩ := plan_minimal plan_ledger
  exact ⟨plan_ledger, hdetour, hnodup, (hleast ledgerDetour _ hdetour (by decide)).2⟩

end GrantPlan
