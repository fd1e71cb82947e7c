import GrantPlan.Proofs.Plan
/-!
# Settled databases

A scope is settled when the role holds in it exactly the privileges that are wanted there, and a
database is settled for a spec when all scopes of the roles that the spec decides on are. A plan
changes something just when some scope is not settled (`exists_change_iff`).
-/

namespace GrantPlan

variable {spec : Spec} {catalog : Catalog} {scope : Scope} {wanted : Wanted}
  {statements : List Statement}

/-! ## Scopes -/

theorem OrderedSet.diff_eq_nil_iff {α : Type} [Ord α] [DecidableEq α] {s t : OrderedSet α} :
    (s.diff t).toList = [] ↔ ∀ a ∈ s, a ∈ t := by
  simp [OrderedSet.diff, OrderedSet.filter]

/-- Each of two sets is part of the other just when they are equal. -/
theorem OrderedSet.diffs_eq_nil_iff {α : Type} [Ord α] [Std.TransOrd α] [DecidableEq α]
    {s t : OrderedSet α} : (s.diff t).toList = [] ∧ (t.diff s).toList = [] ↔ s = t := by
  rw [diff_eq_nil_iff, diff_eq_nil_iff]
  constructor
  · rintro ⟨hst, hts⟩
    exact OrderedSet.ext fun a => ⟨hst a, hts a⟩
  · rintro rfl
    exact ⟨fun _ h => h, fun _ h => h⟩

/-- A role holds in a scope what is wanted for it there, on objects and, where there are such, by
default. -/
structure Scope.IsSettled (scope : Scope) (catalog : Catalog) (wanted : Wanted) : Prop where
  held_eq : catalog.held scope.role scope.kind scope.access = wanted.privileges
  heldDefaults_eq : scope.kind.hasDefaults = true →
    catalog.heldDefaults scope.role scope.kind scope.access = wanted.defaults

/-- What is held by default matters only where there are such privileges at all. -/
theorem Scope.heldDefaults_eq_iff (hfits : wanted.FitsIn scope) :
    scope.heldDefaults catalog = wanted.defaults ↔
      (scope.kind.hasDefaults = true →
        catalog.heldDefaults scope.role scope.kind scope.access = wanted.defaults) := by
  unfold heldDefaults
  split
  next hkind => simp [hkind]
  next hkind =>
    have hnone : wanted.defaults = ∅ := OrderedSet.ext fun p =>
      iff_of_false (fun hp => hkind (hfits.hasDefaults p hp)) (OrderedSet.not_mem_empty p)
    simp [hkind, hnone]

/-- A scope makes no statement where it is settled. -/
theorem Scope.changes_eq_nil_iff (hfits : wanted.FitsIn scope) :
    scope.changes catalog wanted = [] ↔ scope.IsSettled catalog wanted := by
  simp only [changes, List.append_eq_nil_iff, List.map_eq_nil_iff]
  constructor
  · rintro ⟨⟨⟨hgrants, hrevokes⟩, hpromises⟩, hwithdrawals⟩
    have hheld : scope.held catalog = wanted.privileges :=
      OrderedSet.diffs_eq_nil_iff.1 ⟨hrevokes, hgrants⟩
    have hheldDefaults : scope.heldDefaults catalog = wanted.defaults :=
      OrderedSet.diffs_eq_nil_iff.1 ⟨hwithdrawals, hpromises⟩
    exact ⟨hheld, (heldDefaults_eq_iff hfits).1 hheldDefaults⟩
  · intro h
    obtain ⟨hrevokes, hgrants⟩ := OrderedSet.diffs_eq_nil_iff.2 h.held_eq
    obtain ⟨hwithdrawals, hpromises⟩ :=
      OrderedSet.diffs_eq_nil_iff.2 ((heldDefaults_eq_iff hfits).2 h.heldDefaults_eq)
    exact ⟨⟨⟨hgrants, hrevokes⟩, hpromises⟩, hwithdrawals⟩

/-- A scope that is not settled makes a change. -/
theorem Spec.WantsIn.exists_change_iff (h : spec.WantsIn catalog scope wanted) :
    (∃ s ∈ scope.changes catalog wanted, s.isChange = true) ↔ ¬ scope.IsSettled catalog wanted := by
  rw [← Scope.changes_eq_nil_iff h.fitsIn]
  constructor
  · rintro ⟨s, hs, -⟩ hnil
    rw [hnil] at hs
    exact List.not_mem_nil hs
  · intro hne
    obtain ⟨s, hs⟩ := List.exists_mem_of_ne_nil _ hne
    refine ⟨s, hs, ?_⟩
    obtain ⟨e, -, ⟨rfl, -, -⟩ | ⟨rfl, -, -⟩⟩ := (Scope.mem_changes_iff h.fitsIn).1 hs
    · exact e.isChange_award
    · exact e.isChange_withdraw

/-! ## Databases -/

/-- A plan holds a change just when some scope is not settled. -/
theorem exists_change_iff (hplan : plan spec catalog = .ok statements) :
    (∃ s ∈ statements, s.isChange = true) ↔
      ∃ scope wanted, spec.WantsIn catalog scope wanted ∧ ¬ scope.IsSettled catalog wanted := by
  simp only [mem_plan_iff hplan]
  constructor
  · rintro ⟨s, ⟨role, config, -, -, rfl⟩ | ⟨scope, wanted, h, hs⟩, hchange⟩
    · cases hchange
    · exact ⟨scope, wanted, h, h.exists_change_iff.1 ⟨s, hs, hchange⟩⟩
  · rintro ⟨scope, wanted, h, hsettled⟩
    obtain ⟨s, hs, hchange⟩ := h.exists_change_iff.2 hsettled
    exact ⟨s, .inr ⟨scope, wanted, h, hs⟩, hchange⟩

/-- Every role of a spec that is no superuser holds in every scope what is wanted for it there. -/
def Spec.IsSettled (spec : Spec) (catalog : Catalog) : Prop :=
  ∀ role config, (role, config) ∈ spec.roles → catalog.isSuperuser role = false →
    ∀ kind access, ∃ wanted,
      Scope.wanted spec.authority catalog ⟨role, kind, access⟩ (config.wantedAt kind access) =
        .ok wanted ∧
      Scope.IsSettled ⟨role, kind, access⟩ catalog wanted

/-- Where there is a plan, a database is settled unless some scope is not. -/
theorem Spec.isSettled_iff (hplan : plan spec catalog = .ok statements) : spec.IsSettled catalog ↔
      ¬ ∃ scope wanted, spec.WantsIn catalog scope wanted ∧ ¬ scope.IsSettled catalog wanted := by
  constructor
  · rintro h ⟨⟨role, kind, access⟩, wanted, ⟨config, hconfig, hrole, hwanted⟩, hnot⟩
    obtain ⟨wanted', hwanted', hsettled⟩ := h role config hconfig hrole kind access
    obtain rfl := Except.ok.inj (hwanted.symm.trans hwanted')
    exact hnot hsettled
  · intro h role config hconfig hrole kind access
    obtain ⟨wanted, hwanted, hwants⟩ := exists_wantsIn hplan hconfig hrole kind access
    refine ⟨wanted, hwanted, ?_⟩
    by_contra hnot
    exact h ⟨_, wanted, hwants, hnot⟩

end GrantPlan
