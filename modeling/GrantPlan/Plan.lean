import GrantPlan.Scope
/-!
# Plans

The plan of a database: the statements that bring a catalog in line with a spec. Roles come in the
order of the spec, kinds and access levels in their order of analysis. A superuser of the catalog
gets a note and nothing else. A mistake in the spec ends the planning: there are no partial plans.
-/

namespace GrantPlan

/-- Every kind with every access level, in the order of analysis. -/
def levels : List (ObjectKind × Access) :=
  ObjectKind.all.flatMap fun kind => Access.all.map fun access => (kind, access)

/-- The statements of one role. -/
def planRole (authority : Authority) (catalog : Catalog) (role : String) (config : RoleConfig) :
    Except PlanError (List Statement) :=
  if catalog.isSuperuser role then .ok [.skipSuperuser role]
  else do
    let parts ← levels.mapM fun (kind, access) =>
      Scope.plan authority catalog ⟨role, kind, access⟩ (config.wantedAt kind access)
    return parts.flatten

/-- The statements that bring a catalog in line with a spec. -/
def plan (spec : Spec) (catalog : Catalog) : Except PlanError (List Statement) := do
  let authority := spec.authority
  let parts ← spec.roles.mapM fun (role, config) => planRole authority catalog role config
  return parts.flatten

end GrantPlan
