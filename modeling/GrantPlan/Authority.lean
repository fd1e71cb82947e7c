import GrantPlan.Identifier
import GrantPlan.Membership
/-!
# Authority

What a spec implies about schemas: who owns them and who can create objects in them. Whoever can
create objects in a schema has to pass privileges on them on to others, so the writers of a schema
are the grantors of default privileges there.

Writers are collected in a table, pass by pass: the owner of a schema, each role that may write it
together with all members of that role, and the superusers. A schema that is not in the table has
the superusers as its writers (`Authority.writersOf`).
-/

namespace GrantPlan

/-- The word that stands for every personal schema in a list of schemas. -/
def personalSchemasWord : String := "personal_schemas"

/-- The roles that a flag marks. -/
def Spec.flagged (spec : Spec) (flag : RoleConfig → Bool) : OrderedSet String :=
  .ofList ((spec.roles.filter fun (_, config) => flag config).map Prod.fst)

@[simp] theorem Spec.mem_flagged {spec : Spec} {flag : RoleConfig → Bool} {role : String} :
    role ∈ spec.flagged flag ↔ ∃ config, (role, config) ∈ spec.roles ∧ flag config = true := by
  simp [flagged]

/-- The personal schemas: each is named after its role. -/
def Spec.personalSchemas (spec : Spec) : OrderedSet String := spec.flagged (·.hasPersonalSchema)

/-- The roles declared to be superusers. -/
def Spec.superusers (spec : Spec) : OrderedSet String := spec.flagged (·.isSuperuser)

/-- The schemas that one role lays claim to: first those listed, then its personal schema. -/
def ownClaims (role : String) (config : RoleConfig) : List String :=
  config.ownedSchemas.map Identifier.unquote ++ if config.hasPersonalSchema then [role] else []

/-- The owner of each schema that some role lays claim to. The last claim counts. -/
def Spec.schemaOwners (spec : Spec) : OrderedMap String String :=
  spec.roles.foldl
    (fun owners (role, config) =>
      (ownClaims role config).foldl (fun owners schema => owners.insert schema role) owners)
    ∅

/-- The schemas that a role may write by its targets. -/
def writableSchemas (personalSchemas : OrderedSet String) (config : RoleConfig) :
    OrderedSet String :=
  let named := OrderedSet.ofList ((config.targetsAt .schemas .write).map Identifier.unquote)
  if personalSchemasWord ∈ named then named.erase personalSchemasWord ∪ personalSchemas else named

/-! ## Writers -/

/-- Writers by schema. -/
abbrev SchemaWriters := OrderedMap String (OrderedSet String)

/-- A role and its members as further writers of some schemas. A schema that has no writers yet
receives its first. -/
def admitWriters (writers : SchemaWriters) (schemas : List String) (role : String)
    (members : OrderedSet String) : SchemaWriters :=
  schemas.foldl
    (fun writers schema => writers.update schema ∅ fun known => known.insert role ∪ members)
    writers

/-- What the targets of one role add to the writers: the role and its members, in each schema that
the role may write. -/
def admitHolders (graph : Membership) (personalSchemas : OrderedSet String) (writers : SchemaWriters)
    (role : String) (config : RoleConfig) : SchemaWriters :=
  let schemas := writableSchemas personalSchemas config
  if schemas.isEmpty then writers
  else admitWriters writers schemas.toList role (graph.membersOf role)

/-- The first pass: each schema that has an owner, with the owner as its writer. -/
def Spec.ownersAsWriters (spec : Spec) : SchemaWriters :=
  spec.schemaOwners.mapValues fun owner => .ofList [owner]

/-- The second pass, over the roles: what their targets add to the owners. -/
def Spec.holdersAsWriters (spec : Spec) : SchemaWriters :=
  let graph := Membership.ofSpec spec
  let personal := spec.personalSchemas
  spec.roles.foldl (fun writers (role, config) => admitHolders graph personal writers role config)
    spec.ownersAsWriters

/-- The writers of each schema that a spec mentions. In the last pass the superusers join in every
schema that has come up. -/
def Spec.schemaWriters (spec : Spec) : SchemaWriters :=
  let superusers := spec.superusers
  spec.holdersAsWriters.mapValues (· ∪ superusers)

/-- What a spec as a whole implies about schemas. -/
structure Authority where
  personalSchemas : OrderedSet String
  superusers : OrderedSet String
  schemaWriters : SchemaWriters

/-- The authority that a spec lays down. -/
def Spec.authority (spec : Spec) : Authority :=
  ⟨spec.personalSchemas, spec.superusers, spec.schemaWriters⟩

/-- The roles that can create objects in a schema. Where a spec does not mention the schema, these
are the superusers. -/
def Authority.writersOf (authority : Authority) (schema : String) : OrderedSet String :=
  (authority.schemaWriters.get? schema).getD authority.superusers

end GrantPlan
