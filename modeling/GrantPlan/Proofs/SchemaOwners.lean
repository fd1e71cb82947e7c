import GrantPlan.Proofs.Recording
import GrantPlan.Proofs.Writers
/-!
# Owners of schemas

A role lays claim to the schemas that it lists as its own, and to a schema of its own name if it has
a personal schema (`ClaimsSchema`). A schema has one owner. Where several roles lay claim to it, the
one that stands last in the spec is the owner (`get?_schemaOwners_eq_some_iff`).

So a claim makes its role a writer of the schema, unless another role lays claim to the schema
further down (`claimant_writes`); then this role, or one still further down, is a writer. No other
entry of the spec counts.
-/

namespace GrantPlan

open OrderedMap

variable {spec : Spec} {before after rest : List (String × RoleConfig)} {role owner schema : String}
  {config : RoleConfig}

/-! ## Claims -/

/-- The schemas that a role lays claim to. -/
inductive ClaimsSchema (role : String) (config : RoleConfig) : String → Prop
  /-- Those that it lists, under their names without quotes. -/
  | listed {item : String} (listed : item ∈ config.ownedSchemas) :
      ClaimsSchema role config (Identifier.unquote item)
  /-- Its personal schema. -/
  | personal (flagged : config.hasPersonalSchema = true) : ClaimsSchema role config role

theorem mem_ownClaims_iff : schema ∈ ownClaims role config ↔ ClaimsSchema role config schema := by
  unfold ownClaims
  rw [List.mem_append, List.mem_map]
  constructor
  · rintro (⟨item, hitem, rfl⟩ | hpersonal)
    · exact .listed hitem
    · obtain ⟨hflagged, hschema⟩ := List.mem_ite_nil_right.1 hpersonal
      obtain rfl := List.mem_singleton.1 hschema
      exact .personal hflagged
  · intro h
    cases h with
    | listed hitem => exact .inl ⟨_, hitem, rfl⟩
    | personal hflagged => exact .inr (by simp [hflagged])

/-- The claims of roles in the order of the spec, each with its role. -/
def claimEntries (roles : List (String × RoleConfig)) : List (String × String) :=
  roles.flatMap fun (role, config) => (ownClaims role config).map fun schema => (schema, role)

theorem mem_claimEntries_iff :
    (schema, role) ∈ claimEntries rest ↔ ∃ config, (role, config) ∈ rest ∧
      ClaimsSchema role config schema := by
  simp only [claimEntries, List.mem_flatMap, List.mem_map, Prod.mk.injEq, ← mem_ownClaims_iff]
  constructor
  · rintro ⟨⟨role', config⟩, hmem, schema', hclaims, rfl, rfl⟩
    exact ⟨config, hmem, hclaims⟩
  · rintro ⟨config, hmem, hclaims⟩
    exact ⟨(role, config), hmem, schema, hclaims, rfl, rfl⟩

/-! ## The last claim counts -/

theorem schemaOwners_eq (spec : Spec) :
    spec.schemaOwners = insertMany ∅ (claimEntries spec.roles) := by
  simp only [Spec.schemaOwners, insertMany, claimEntries, List.foldl_flatMap, List.foldl_map]

/-- Claims from some place on decide on the owner, if there are any. -/
theorem get?_schemaOwners (h : spec.roles = before ++ rest) :
    spec.schemaOwners.get? schema =
      (lastValue? (claimEntries rest) schema).or (lastValue? (claimEntries before) schema) := by
  have hentries : claimEntries spec.roles = claimEntries before ++ claimEntries rest := by
    rw [h, claimEntries, List.flatMap_append]
    rfl
  rw [schemaOwners_eq, get?_insertMany, get?_empty, Option.or_none, hentries, lastValue?_append]

theorem lastValue?_claimEntries_eq_none_iff :
    lastValue? (claimEntries rest) schema = none ↔
      ∀ entry ∈ rest, ¬ ClaimsSchema entry.1 entry.2 schema := by
  rw [lastValue?_eq_none_iff]
  constructor
  · intro h entry hmem hclaims
    exact h (schema, entry.1) (mem_claimEntries_iff.2 ⟨entry.2, hmem, hclaims⟩) rfl
  · rintro h ⟨schema', role⟩ hmem rfl
    obtain ⟨config, hentry, hclaims⟩ := mem_claimEntries_iff.1 hmem
    exact h (role, config) hentry hclaims

/-- A claim is followed by the owner's, or is the owner's itself. -/
theorem exists_owner_of_claims (h : spec.roles = before ++ rest)
    (hclaims : ∃ entry ∈ rest, ClaimsSchema entry.1 entry.2 schema) :
    ∃ owner config, (owner, config) ∈ rest ∧ ClaimsSchema owner config schema ∧
      spec.schemaOwners.get? schema = some owner := by
  rw [get?_schemaOwners h]
  cases hlast : lastValue? (claimEntries rest) schema with
  | none =>
    obtain ⟨entry, hmem, hclaims⟩ := hclaims
    exact absurd hclaims (lastValue?_claimEntries_eq_none_iff.1 hlast entry hmem)
  | some owner =>
    obtain ⟨config, hentry, hclaims⟩ := mem_claimEntries_iff.1 (mem_of_lastValue?_eq_some hlast)
    exact ⟨owner, config, hentry, hclaims, rfl⟩

/-- A role that lays claim to a schema owns it just where no later role lays claim to it. -/
theorem get?_schemaOwners_eq_some_iff (h : spec.roles = before ++ (role, config) :: after)
    (hclaims : ClaimsSchema role config schema) :
    spec.schemaOwners.get? schema = some role ↔
      ∀ later ∈ after, ¬ ClaimsSchema later.1 later.2 schema := by
  constructor
  · intro howner later hlater hlaterClaims
    -- then the owner stands behind the role, and no name stands twice
    have hsplit : spec.roles = (before ++ [(role, config)]) ++ after := by simp [h]
    obtain ⟨owner, config', hmem, -, howner'⟩ :=
      exists_owner_of_claims hsplit ⟨later, hlater, hlaterClaims⟩
    obtain rfl := Option.some.inj (howner.symm.trans howner')
    have hnodup := spec.nodup_roles
    rw [h, List.map_append, List.map_cons] at hnodup
    have habsent := (List.nodup_cons.1 (List.nodup_append.1 hnodup).2.1).1
    exact habsent (List.mem_map.2 ⟨_, hmem, rfl⟩)
  · intro hlast
    obtain ⟨owner, config', hmem, hownerClaims, howner⟩ :=
      exists_owner_of_claims h ⟨(role, config), List.mem_cons_self, hclaims⟩
    rcases List.mem_cons.1 hmem with heq | hafter
    · rw [howner, (Prod.mk.inj heq).1]
    · exact absurd hownerClaims (hlast _ hafter)

/-! ## Whoever owns a schema is a writer -/

theorem mem_writersOf_of_owner (h : spec.schemaOwners.get? schema = some owner) :
    owner ∈ spec.authority.writersOf schema :=
  mem_writersOf_iff.2 (.inr (.inl h))

/-- A role that lays claim to a schema owns it just where no later role lays claim to it, and then
it is a writer of the schema. In any case there is an owner from this claim on, who is a writer. -/
theorem claimant_writes (h : spec.roles = before ++ (role, config) :: after)
    (hclaims : ClaimsSchema role config schema) :
    (spec.schemaOwners.get? schema = some role ↔
      ∀ later ∈ after, ¬ ClaimsSchema later.1 later.2 schema) ∧
    ((∀ later ∈ after, ¬ ClaimsSchema later.1 later.2 schema) →
      role ∈ spec.authority.writersOf schema) ∧
    ∃ owner config', (owner, config') ∈ (role, config) :: after ∧
      ClaimsSchema owner config' schema ∧ owner ∈ spec.authority.writersOf schema := by
  have howns := get?_schemaOwners_eq_some_iff h hclaims
  obtain ⟨owner, config', hmem, hownerClaims, howner⟩ :=
    exists_owner_of_claims h ⟨(role, config), List.mem_cons_self, hclaims⟩
  exact ⟨howns, fun hlast => mem_writersOf_of_owner (howns.2 hlast),
    owner, config', hmem, hownerClaims, mem_writersOf_of_owner howner⟩

/-- What a spec says about a role that owns some schemas. -/
def ownerOf (schemas : List String) : RoleConfig :=
  { RoleConfig.default with ownedSchemas := schemas }

/-- What a spec says about a role with a personal schema. -/
def personalOwner : RoleConfig := { RoleConfig.default with hasPersonalSchema := true }

/-- A spec in which `etl` lays claim to the schema of `svc` and to the personal schema of `alice`,
and `desk` to neither. -/
def rivalSpec : Spec :=
  .ofList
    [("alice", personalOwner), ("svc", ownerOf ["finance"]),
      ("etl", ownerOf ["\"finance\"", "alice"]), ("desk", ownerOf ["reports"])]

/-- No role behind `etl` lays claim to `finance`, and so `etl` owns it and is a writer. -/
theorem claimant_writes_rival :
    rivalSpec.roles = [("alice", personalOwner), ("svc", ownerOf ["finance"])] ++
      ("etl", ownerOf ["\"finance\"", "alice"]) :: [("desk", ownerOf ["reports"])] ∧
    ClaimsSchema "etl" (ownerOf ["\"finance\"", "alice"]) "finance" ∧
    rivalSpec.schemaOwners.get? "finance" = some "etl" ∧
    "etl" ∈ rivalSpec.authority.writersOf "finance" := by
  have hroles : rivalSpec.roles = [("alice", personalOwner), ("svc", ownerOf ["finance"])] ++
      ("etl", ownerOf ["\"finance\"", "alice"]) :: [("desk", ownerOf ["reports"])] := rfl
  have hclaims : ClaimsSchema "etl" (ownerOf ["\"finance\"", "alice"]) "finance" :=
    mem_ownClaims_iff.1 (by decide)
  have hlast : ∀ later ∈ [("desk", ownerOf ["reports"])],
      ¬ ClaimsSchema later.1 later.2 "finance" := by
    intro later hlater
    obtain rfl := List.mem_singleton.1 hlater
    rw [← mem_ownClaims_iff]
    decide
  obtain ⟨howns, hwrites, -⟩ := claimant_writes hroles hclaims
  exact ⟨hroles, hclaims, howns.2 hlast, hwrites hlast⟩

/-- By the claims of `etl`, `svc` and `alice` are no writers of what they lay claim to. -/
theorem claimants_not_writers :
    (("svc", ownerOf ["finance"]) ∈ rivalSpec.roles ∧
      ClaimsSchema "svc" (ownerOf ["finance"]) "finance" ∧
      ¬ "svc" ∈ rivalSpec.authority.writersOf "finance") ∧
    ("alice", personalOwner) ∈ rivalSpec.roles ∧ ClaimsSchema "alice" personalOwner "alice" ∧
      ¬ "alice" ∈ rivalSpec.authority.writersOf "alice" := by
  have hlisted : ClaimsSchema "svc" (ownerOf ["finance"]) "finance" :=
    mem_ownClaims_iff.1 (by decide)
  exact ⟨⟨by decide, hlisted, by decide⟩, by decide, .personal rfl, by decide⟩

end GrantPlan
