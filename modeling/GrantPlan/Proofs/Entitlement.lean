import GrantPlan.Catalog
/-!
# Entitlements

An entitlement is a privilege of a role, either on an object that exists or on future objects. Each
entitlement has one statement that awards it and one that withdraws it, and every statement other
than a note is one of these for exactly one entitlement. This makes carrying out statements a
matter of single entitlements:

* `holds_apply_iff` says what one statement does to one entitlement;
* `holds_applyAll_of_not_withdraw` and `holds_applyAll_of_not_award` say what a run of statements
  does to it, when the run does not work in both directions.
-/

namespace GrantPlan

/-- A privilege of a role. -/
inductive Entitlement
  /-- On an object that exists. -/
  | onObject (grant : Grant)
  /-- On whatever a grantor will create in a schema. -/
  | onFuture (grant : DefaultGrant)

namespace Entitlement

/-- The role that is entitled. -/
def role : Entitlement → String
  | onObject grant => grant.role
  | onFuture grant => grant.role

/-- The kind of the objects in question. -/
def kind : Entitlement → ObjectKind
  | onObject grant => grant.kind
  | onFuture grant => grant.kind

/-- What the role may do with the objects. -/
def verb : Entitlement → String
  | onObject grant => grant.privilege.verb
  | onFuture grant => grant.privilege.verb

/-- Whether entitlements of this form are managed for the kind in question. -/
def IsSupported : Entitlement → Prop
  | onObject _ => True
  | onFuture grant => grant.kind.hasDefaults = true

/-- The statement that gives the entitlement to its role. -/
def award : Entitlement → Statement
  | onObject grant => .grant grant.role grant.kind grant.privilege
  | onFuture grant => .grantDefault grant.role grant.kind grant.privilege

/-- The statement that takes the entitlement from its role. -/
def withdraw : Entitlement → Statement
  | onObject grant => .revoke grant.role grant.kind grant.privilege
  | onFuture grant => .revokeDefault grant.role grant.kind grant.privilege

/-- A statement awards one entitlement at most. -/
theorem award_inj {e e' : Entitlement} : e.award = e'.award ↔ e = e' := by
  rcases e with ⟨⟨role, kind, privilege⟩⟩ | ⟨⟨role, kind, privilege⟩⟩ <;>
    rcases e' with ⟨⟨role', kind', privilege'⟩⟩ | ⟨⟨role', kind', privilege'⟩⟩ <;> simp [award]

theorem withdraw_inj {e e' : Entitlement} : e.withdraw = e'.withdraw ↔ e = e' := by
  rcases e with ⟨⟨role, kind, privilege⟩⟩ | ⟨⟨role, kind, privilege⟩⟩ <;>
    rcases e' with ⟨⟨role', kind', privilege'⟩⟩ | ⟨⟨role', kind', privilege'⟩⟩ <;> simp [withdraw]

/-- No statement that awards an entitlement withdraws any. -/
theorem award_ne_withdraw (e e' : Entitlement) : e.award ≠ e'.withdraw := by
  cases e <;> cases e' <;> simp [award, withdraw]

/-- Awarding and withdrawing are changes, on behalf of the role that the entitlement is for. -/
@[simp] theorem isChange_award (e : Entitlement) : e.award.isChange = true := by cases e <;> rfl

@[simp] theorem isChange_withdraw (e : Entitlement) : e.withdraw.isChange = true := by
  cases e <;> rfl

@[simp] theorem role_award (e : Entitlement) : e.award.role = e.role := by cases e <;> rfl

@[simp] theorem role_withdraw (e : Entitlement) : e.withdraw.role = e.role := by cases e <;> rfl

end Entitlement

/-- A statement that is no note awards or withdraws some entitlement. -/
theorem Statement.exists_entitlement {s : Statement} (h : s.isChange = true) :
    ∃ e : Entitlement, s = e.award ∨ s = e.withdraw := by
  cases s with
  | grant role kind privilege => exact ⟨.onObject ⟨role, kind, privilege⟩, .inl rfl⟩
  | revoke role kind privilege => exact ⟨.onObject ⟨role, kind, privilege⟩, .inr rfl⟩
  | grantDefault role kind privilege => exact ⟨.onFuture ⟨role, kind, privilege⟩, .inl rfl⟩
  | revokeDefault role kind privilege => exact ⟨.onFuture ⟨role, kind, privilege⟩, .inr rfl⟩
  | skipSuperuser role => simp [isChange] at h

namespace Catalog

/-! ## What a catalog holds -/

/-- Whether a role has an entitlement. -/
def Holds (catalog : Catalog) : Entitlement → Prop
  | .onObject grant => grant ∈ catalog.grants
  | .onFuture grant => grant ∈ catalog.defaultGrants

/-- What a role holds at a level are its grants with the verbs of the level. -/
theorem mem_held_iff {catalog : Catalog} {role : String} {kind : ObjectKind} {access : Access}
    {privilege : Privilege} :
    privilege ∈ catalog.held role kind access ↔
      catalog.Holds (.onObject ⟨role, kind, privilege⟩) ∧ privilege.verb ∈ kind.verbs access := by
  simp only [held, OrderedSet.mem_ofList, List.mem_map, List.mem_filter, OrderedSet.mem_toList,
    Bool.and_eq_true, decide_eq_true_eq, List.contains_iff_mem]
  constructor
  · rintro ⟨grant, ⟨hmem, ⟨rfl, rfl⟩, hverb⟩, rfl⟩
    exact ⟨hmem, hverb⟩
  · rintro ⟨hmem, hverb⟩
    exact ⟨⟨role, kind, privilege⟩, ⟨hmem, ⟨rfl, rfl⟩, hverb⟩, rfl⟩

/-- On future objects as well, the verb decides at which level a privilege is held. -/
theorem mem_heldDefaults_iff {catalog : Catalog} {role : String} {kind : ObjectKind}
    {access : Access} {privilege : DefaultPrivilege} :
    privilege ∈ catalog.heldDefaults role kind access ↔
      catalog.Holds (.onFuture ⟨role, kind, privilege⟩) ∧ privilege.verb ∈ kind.verbs access := by
  simp only [heldDefaults, OrderedSet.mem_ofList, List.mem_map, List.mem_filter,
    OrderedSet.mem_toList, Bool.and_eq_true, decide_eq_true_eq, List.contains_iff_mem]
  constructor
  · rintro ⟨grant, ⟨hmem, ⟨rfl, rfl⟩, hverb⟩, rfl⟩
    exact ⟨hmem, hverb⟩
  · rintro ⟨hmem, hverb⟩
    exact ⟨⟨role, kind, privilege⟩, ⟨hmem, ⟨rfl, rfl⟩, hverb⟩, rfl⟩

/-! ## What statements leave alone -/

/-- No statement changes who owns what, or who is a superuser. -/
@[simp] theorem owners_apply (catalog : Catalog) (s : Statement) :
    (catalog.apply s).owners = catalog.owners := by cases s <;> rfl

@[simp] theorem superusers_apply (catalog : Catalog) (s : Statement) :
    (catalog.apply s).superusers = catalog.superusers := by cases s <;> rfl

/-- Nor does a run of statements. -/
@[simp] theorem owners_applyAll (catalog : Catalog) (statements : List Statement) :
    (catalog.applyAll statements).owners = catalog.owners := by
  induction statements generalizing catalog with
  | nil => rfl
  | cons s statements ih => exact (ih (catalog.apply s)).trans (owners_apply catalog s)

@[simp] theorem superusers_applyAll (catalog : Catalog) (statements : List Statement) :
    (catalog.applyAll statements).superusers = catalog.superusers := by
  induction statements generalizing catalog with
  | nil => rfl
  | cons s statements ih => exact (ih (catalog.apply s)).trans (superusers_apply catalog s)

/-! ## What statements change -/

/-- An entitlement comes with the statement that awards it, and goes only with the statement that
withdraws it. -/
theorem holds_apply_iff {catalog : Catalog} {s : Statement} {e : Entitlement} :
    (catalog.apply s).Holds e ↔ s = e.award ∨ catalog.Holds e ∧ s ≠ e.withdraw := by
  rcases e with ⟨⟨role, kind, privilege⟩⟩ | ⟨⟨role, kind, privilege⟩⟩ <;>
    cases s <;> simp [apply, Holds, Entitlement.award, Entitlement.withdraw] <;> grind

/-- A run that does not withdraw an entitlement leaves it as it was, or awards it. -/
theorem holds_applyAll_of_not_withdraw {catalog : Catalog} {statements : List Statement}
    {e : Entitlement} (h : e.withdraw ∉ statements) :
    (catalog.applyAll statements).Holds e ↔ e.award ∈ statements ∨ catalog.Holds e := by
  induction statements generalizing catalog with
  | nil => simp [applyAll]
  | cons s statements ih =>
    -- `s` can only award it, and the rest is the same case over the catalog after `s`
    obtain ⟨hs, hrest⟩ := not_or.1 (mt List.mem_cons.2 h)
    have hstep : (catalog.apply s).Holds e ↔ s = e.award ∨ catalog.Holds e := by
      rw [holds_apply_iff, and_iff_left (Ne.symm hs)]
    show ((catalog.apply s).applyAll statements).Holds e ↔ _
    rw [ih hrest, hstep, List.mem_cons, eq_comm, or_left_comm, or_assoc]

/-- A run that does not award an entitlement leaves it as it was, or withdraws it. -/
theorem holds_applyAll_of_not_award {catalog : Catalog} {statements : List Statement}
    {e : Entitlement} (h : e.award ∉ statements) :
    (catalog.applyAll statements).Holds e ↔ catalog.Holds e ∧ e.withdraw ∉ statements := by
  induction statements generalizing catalog with
  | nil => simp [applyAll]
  | cons s statements ih =>
    obtain ⟨hs, hrest⟩ := not_or.1 (mt List.mem_cons.2 h)
    have hstep : (catalog.apply s).Holds e ↔ catalog.Holds e ∧ s ≠ e.withdraw := by
      rw [holds_apply_iff, or_iff_right (Ne.symm hs)]
    show ((catalog.apply s).applyAll statements).Holds e ↔ _
    rw [ih hrest, hstep, List.mem_cons, not_or, and_assoc, ne_comm]

end Catalog

end GrantPlan
