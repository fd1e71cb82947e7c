import GrantPlan.Proofs.Plan
import GrantPlan.Proofs.Request
import GrantPlan.Proofs.Spelling
/-!
# Grants to owners

An owner needs no grant on what belongs to it. Named objects and the contents of schemas are looked
up in the catalog, and those of the role are left out. Of the personal schemas, only the one that is
called like the role is left out, whoever owns the others.

So a plan grants a role something of its own in one case only: the catalog has the role as the owner
of a personal schema that is called after another role (`own_grant_mem_plan_iff`).
-/

namespace GrantPlan

variable {spec : Spec} {catalog : Catalog} {statements : List Statement} {role : String}
  {kind : ObjectKind}

/-! ## What is wanted, by the rules of targets -/

theorem wants_onObject_iff (hplan : plan spec catalog = .ok statements) {p : Privilege} :
    spec.Wants catalog (.onObject ⟨role, kind, p⟩) ↔
      ∃ config access, (role, config) ∈ spec.roles ∧ catalog.isSuperuser role = false ∧
        p.verb ∈ kind.verbs access ∧ ∃ name,
          AsksForObject spec catalog role kind (config.Counts kind access) name ∧
          p.object = name.render kind := by
  constructor
  · intro ⟨⟨role', kind', access⟩, wanted, hin, hcovers, hasks⟩
    obtain rfl : role = role' := hcovers.role_eq
    obtain rfl : kind = kind' := hcovers.kind_eq
    obtain ⟨config, hconfig, hrole, hwanted⟩ := hin
    obtain ⟨hverb, hname⟩ := (Scope.mem_privileges_iff hwanted).1 hasks
    exact ⟨config, access, hconfig, hrole, hverb, hname⟩
  · intro ⟨config, access, hconfig, hrole, hverb, hname⟩
    obtain ⟨wanted, hwanted, hin⟩ := exists_wantsIn hplan hconfig hrole kind access
    refine ⟨⟨role, kind, access⟩, wanted, hin, Scope.covers_onObject hverb, ?_⟩
    exact (Scope.mem_privileges_iff hwanted).2 ⟨hverb, hname⟩

/-- No role is wanted to receive anything from itself. -/
theorem Spec.Wants.grantor_ne {p : DefaultPrivilege}
    (h : spec.Wants catalog (.onFuture ⟨role, kind, p⟩)) : p.grantor ≠ role := by
  obtain ⟨⟨role', kind', access⟩, wanted, ⟨config, -, -, hwanted⟩, hcovers, hasks⟩ := h
  obtain rfl : role = role' := hcovers.role_eq
  exact ((Scope.mem_defaults_iff hwanted).1 hasks).2.2.2.1

/-! ## Objects of one's own -/

/-- A role asks by the word for the personal schemas for one that is called after another role, and
that belongs to the role itself all the same. -/
structure Spec.AsksForOwn (spec : Spec) (catalog : Catalog) (role : String) (access : Access)
    (schema : String) : Prop where
  listed : ∃ config, (role, config) ∈ spec.roles ∧
    config.Counts .schemas access personalSchemasWord
  not_superuser : catalog.isSuperuser role = false
  personal : ∃ config, (schema, config) ∈ spec.roles ∧ config.hasPersonalSchema = true
  name_ne : schema ≠ role
  owned : catalog.owner? .schemas ⟨schema, none⟩ = some role

/-- What targets ask for is foreign, but for personal schemas. -/
theorem AsksForObject.eq_personal_of_owned {Listed : String → Prop} {name : ObjectName}
    (h : AsksForObject spec catalog role kind Listed name)
    (howner : catalog.owner? kind name = some role) :
    kind = .schemas ∧ Listed personalSchemasWord ∧ ∃ schema config, (schema, config) ∈ spec.roles ∧
      config.hasPersonalSchema = true ∧ schema ≠ role ∧ name = ⟨schema, none⟩ := by
  cases h with
  | contents hschema hrecorded hforeign =>
    rw [howner] at hrecorded
    exact absurd (Option.some.inj hrecorded).symm hforeign
  | itself hlisted hnames =>
    cases hnames with
    | named hword hcontents hrecorded hforeign =>
      rw [howner] at hrecorded
      exact absurd (Option.some.inj hrecorded).symm hforeign
    | personal hkind hitem hdeclared hflagged hforeign =>
      exact ⟨hkind, hitem ▸ hlisted, _, _, hdeclared, hflagged, hforeign, rfl⟩

/-- A plan grants a role a privilege on an object of its own just where the role asks for a personal
schema of its own that is called after another role, and does not hold the privilege yet. -/
theorem own_grant_mem_plan_iff (hplan : plan spec catalog = .ok statements) {p : Privilege} :
    (.grant role kind p ∈ statements ∧
      catalog.owner? kind (ObjectName.ofText p.object) = some role) ↔
    kind = .schemas ∧ (∃ access schema, spec.AsksForOwn catalog role access schema ∧
        p.verb ∈ kind.verbs access ∧ p.object = (ObjectName.mk schema none).render kind) ∧
      ¬ catalog.Holds (.onObject ⟨role, kind, p⟩) := by
  have haward : .grant role kind p ∈ statements ↔
      spec.Wants catalog (.onObject ⟨role, kind, p⟩) ∧
        ¬ catalog.Holds (.onObject ⟨role, kind, p⟩) :=
    award_mem_plan_iff hplan (e := .onObject ⟨role, kind, p⟩)
  rw [haward, wants_onObject_iff hplan]
  constructor
  · rintro ⟨⟨⟨config, access, hconfig, hrole, hverb, name, hasks, hobject⟩, hheld⟩, howner⟩
    rw [hobject, ObjectName.ofText_render] at howner
    obtain ⟨hkind, hlisted, schema, config', hdeclared, hflagged, hne, rfl⟩ :=
      hasks.eq_personal_of_owned howner
    subst hkind
    exact ⟨rfl, ⟨access, schema, ⟨⟨config, hconfig, hlisted⟩, hrole, ⟨config', hdeclared, hflagged⟩,
      hne, howner⟩, hverb, hobject⟩, hheld⟩
  · rintro ⟨rfl, ⟨access, schema, hown, hverb, hobject⟩, hheld⟩
    obtain ⟨config, hconfig, hlisted⟩ := hown.listed
    obtain ⟨config', hdeclared, hflagged⟩ := hown.personal
    have hasks : AsksForObject spec catalog role .schemas (config.Counts .schemas access)
        ⟨schema, none⟩ :=
      .itself hlisted (.personal rfl rfl hdeclared hflagged hown.name_ne)
    refine ⟨⟨⟨config, access, hconfig, hown.not_superuser, hverb, _, hasks, hobject⟩, hheld⟩, ?_⟩
    rw [hobject, ObjectName.ofText_render]
    exact hown.owned

/-- A plan grants no role a privilege on an object of its own, so long as each role that asks for a
personal schema of its own that is called after another role holds its verbs there already. No
default privilege comes from the role that receives it. -/
theorem owners_not_granted_iff (hplan : plan spec catalog = .ok statements) :
    ((∀ role kind p, .grant role kind p ∈ statements →
        catalog.owner? kind (ObjectName.ofText p.object) ≠ some role) ↔
      ∀ role access schema, spec.AsksForOwn catalog role access schema →
        ∀ verb ∈ ObjectKind.verbs .schemas access,
          ⟨role, .schemas, ⟨(ObjectName.mk schema none).render .schemas, verb⟩⟩ ∈ catalog.grants) ∧
    ∀ role kind p, .grantDefault role kind p ∈ statements → p.grantor ≠ role := by
  refine ⟨⟨fun h role access schema hown verb hverb => ?_, fun h role kind p hgrant howner => ?_⟩,
    fun role kind p hgrant => ?_⟩
  · by_contra hheld
    obtain ⟨hgrant, howner⟩ := (own_grant_mem_plan_iff hplan).2
      ⟨rfl, ⟨access, schema, hown, hverb, rfl⟩, hheld⟩
    exact h role .schemas _ hgrant howner
  · obtain ⟨rfl, ⟨access, schema, hown, hverb, hobject⟩, hheld⟩ :=
      (own_grant_mem_plan_iff hplan).1 ⟨hgrant, howner⟩
    apply hheld
    obtain ⟨object, verb⟩ := p
    obtain rfl : object = _ := hobject
    exact h role access schema hown verb hverb
  · have haward := award_mem_plan_iff hplan (e := .onFuture ⟨role, kind, p⟩)
    exact (haward.1 hgrant).1.grantor_ne

/-- The small database has no personal schemas, and the analyst gets nothing on its own notes. -/
theorem owners_not_granted_ledger :
    plan ledgerSpec ledgerCatalog = .ok ledgerPlan ∧
    (∀ role kind p, .grant role kind p ∈ ledgerPlan →
      ledgerCatalog.owner? kind (ObjectName.ofText p.object) ≠ some role) ∧
    ∀ role kind p, .grantDefault role kind p ∈ ledgerPlan → p.grantor ≠ role := by
  obtain ⟨howners, hdefaults⟩ := owners_not_granted_iff plan_ledger
  have hnone : ∀ entry ∈ ledgerSpec.roles, entry.2.hasPersonalSchema = false := by decide
  refine ⟨plan_ledger, howners.2 fun role access schema hown => ?_, hdefaults⟩
  obtain ⟨config, hdeclared, hflagged⟩ := hown.personal
  rw [hnone _ hdeclared] at hflagged
  cases hflagged

/-- What a spec says about a role that is to read all personal schemas. -/
def neighbour : RoleConfig :=
  { RoleConfig.default with
    targets := .insert ∅ .schemas (.insert ∅ .read [personalSchemasWord]) }

/-- A spec in which `alice` is to read all personal schemas, of which `bob` has one. -/
def neighbourSpec : Spec :=
  .ofList [("alice", neighbour), ("bob", { RoleConfig.default with hasPersonalSchema := true })]

/-- A database in which the schema `bob` belongs to `alice`. -/
def neighbourCatalog : Catalog := (∅ : Catalog).addObject .schemas "bob" none "alice"

/-- The owner of a personal schema of another role is granted a privilege on it. -/
theorem owner_granted_neighbour :
    plan neighbourSpec neighbourCatalog = .ok [.grant "alice" .schemas ⟨"bob", "USAGE"⟩] ∧
    neighbourCatalog.owner? .schemas (ObjectName.ofText "bob") = some "alice" := by
  exact ⟨by rfl, by decide⟩

end GrantPlan
