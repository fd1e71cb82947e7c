import GrantPlan.Proofs.Plan
/-!
# Carrying out a plan

A plan can be carried out in part, in any order and with any repetition: planning again yields what
is still to be done, in the same order (`plan_after_part`), and nothing but notes once all of it is
done.

The reason is that no plan works in both directions on one entitlement. So an entitlement that is
wanted is held from the moment its award is carried out, and one that is not wanted is gone from
the moment it is withdrawn.
-/

namespace GrantPlan

variable {spec : Spec} {catalog : Catalog} {statements done : List Statement} {e : Entitlement}

/-! ## Entitlements under way -/

theorem holds_applyAll_of_wants (hplan : plan spec catalog = .ok statements)
    (hdone : done ⊆ statements) (hwants : spec.Wants catalog e) :
    (catalog.applyAll done).Holds e ↔ e.award ∈ done ∨ catalog.Holds e := by
  have hwithdraw : e.withdraw ∉ statements := fun hs =>
    ((withdraw_mem_plan_iff hplan).1 hs).2.1 hwants
  exact Catalog.holds_applyAll_of_not_withdraw fun hs => hwithdraw (hdone hs)

theorem holds_applyAll_of_not_wants (hplan : plan spec catalog = .ok statements)
    (hdone : done ⊆ statements) (hwants : ¬ spec.Wants catalog e) :
    (catalog.applyAll done).Holds e ↔ catalog.Holds e ∧ e.withdraw ∉ done := by
  have haward : e.award ∉ statements := fun hs => hwants ((award_mem_plan_iff hplan).1 hs).1
  exact Catalog.holds_applyAll_of_not_award fun hs => haward (hdone hs)

/-- After a plan, what is wanted is held, and what is not managed is as it was. -/
theorem holds_applyAll_plan_iff (hplan : plan spec catalog = .ok statements) :
    (catalog.applyAll statements).Holds e ↔
      spec.Wants catalog e ∨ catalog.Holds e ∧ ¬ spec.Manages catalog e := by
  by_cases hwants : spec.Wants catalog e
  · rw [holds_applyAll_of_wants hplan (List.Subset.refl _) hwants, award_mem_plan_iff hplan]
    have := hwants.manages
    tauto
  · rw [holds_applyAll_of_not_wants hplan (List.Subset.refl _) hwants, withdraw_mem_plan_iff hplan]
    tauto

/-- After a plan, each scope holds what is wanted in it. -/
theorem Spec.WantsIn.holds_applyAll_iff {scope : Scope} {wanted : Wanted}
    (h : spec.WantsIn catalog scope wanted) (hplan : plan spec catalog = .ok statements)
    (hcovers : scope.Covers e) : (catalog.applyAll statements).Holds e ↔ wanted.Asks e := by
  have hmanages := h.manages hcovers
  rw [holds_applyAll_plan_iff hplan, h.wants_iff hcovers]
  tauto

/-! ## Planning again -/

theorem plan_applyAll_of_subset (hplan : plan spec catalog = .ok statements)
    (hdone : done ⊆ statements) :
    plan spec (catalog.applyAll done) =
      .ok (statements.filter fun s => ¬ (s.isChange = true ∧ s ∈ done)) := by
  refine plan_eq_filter hplan (Catalog.superusers_applyAll catalog done)
    (Catalog.owners_applyAll catalog done) (fun role => by simp [Statement.isChange]) ?_ ?_
  · -- what was awarded is held, so its award drops out
    intro e hwants
    rw [holds_applyAll_of_wants hplan hdone hwants]
    simp
  · -- what was withdrawn is gone, so its withdrawal drops out
    intro e _ hwants
    rw [holds_applyAll_of_not_wants hplan hdone hwants]
    simp

/-- After any part of a plan the next plan is the rest of it, in the same order; after all of it
only the notes are left. -/
theorem plan_after_part (hplan : plan spec catalog = .ok statements) :
    (∀ done, done ⊆ statements → plan spec (catalog.applyAll done) =
      .ok (statements.filter fun s => ¬ (s.isChange = true ∧ s ∈ done))) ∧
    plan spec (catalog.applyAll statements) =
      .ok (statements.filter fun s => s.isChange = false) := by
  refine ⟨fun done hdone => plan_applyAll_of_subset hplan hdone, ?_⟩
  rw [plan_applyAll_of_subset hplan (List.Subset.refl statements)]
  -- every change is among what was carried out
  have hnotes : ∀ s ∈ statements,
      decide (¬ (s.isChange = true ∧ s ∈ statements)) = decide (s.isChange = false) := by
    intro s hs
    simp [hs]
  rw [List.filter_congr hnotes]

/-- The last revocation of the small database carried out twice, and ahead of the others. -/
theorem plan_after_part_ledger :
    plan ledgerSpec ledgerCatalog = .ok ledgerPlan ∧
    plan ledgerSpec (ledgerCatalog.applyAll (ledgerPlan.drop 4 ++ ledgerPlan.drop 5)) =
      .ok (ledgerPlan.take 4) ∧
    plan ledgerSpec (ledgerCatalog.applyAll ledgerPlan) = .ok [.skipSuperuser "postgres"] := by
  obtain ⟨hpart, hall⟩ := plan_after_part plan_ledger
  have hdone : ledgerPlan.drop 4 ++ ledgerPlan.drop 5 ⊆ ledgerPlan :=
    List.append_subset.2 ⟨List.drop_subset 4 _, List.drop_subset 5 _⟩
  exact ⟨plan_ledger, (hpart _ hdone).trans (by rfl), hall.trans (by rfl)⟩

end GrantPlan
