import GrantPlan.Catalog
import GrantPlan.Target
/-!
# Scopes

A plan is made scope by scope: one role, one kind of object, one access level. In a scope, the
targets of the role are turned into the privileges it is to hold, and these are set against the
privileges it holds. Both are sets, and what is in one of them only becomes a statement.

Nothing is ever wanted for a role on an object of its own, and no role is its own grantor.
-/

namespace GrantPlan

/-- The part of a plan that is made at one go. -/
structure Scope where
  role : String
  kind : ObjectKind
  access : Access
deriving DecidableEq, Repr

/-- A mistake in a spec, with the scope that shows where it stands. -/
inductive PlanError
  /-- The word for the personal schemas stands under another kind than schemas. -/
  | misplacedPersonalSchemas (scope : Scope)
  /-- The catalog knows no object of this name, which is spelled canonically. -/
  | missingObject (scope : Scope) (object : String)
deriving DecidableEq, Repr

/-- The text of a mistake. -/
def PlanError.message : PlanError → String
  | misplacedPersonalSchemas scope =>
    "Unable to interpret reserved keyword 'personal_schemas' for rolename '" ++ scope.role ++
      "', object_kind '" ++ scope.kind.name ++ "', access '" ++ scope.access.name ++ "'"
  | missingObject scope object =>
    scope.kind.singular ++ " '" ++ object ++ "' requested for role \"" ++ scope.role ++ "\" (" ++
      scope.access.name ++ " access) does not exist"

/-- What targets ask for, before verbs come in: objects by canonical name, and schemas of which
everything is wanted. -/
structure Request where
  objects : OrderedSet String
  schemas : OrderedSet String

/-- The privileges that a role is to hold in a scope. -/
structure Wanted where
  privileges : OrderedSet Privilege
  defaults : OrderedSet DefaultPrivilege

namespace Scope

/-! ## From targets to privileges -/

/-- What one target asks for. -/
def request (authority : Authority) (catalog : Catalog) (scope : Scope) :
    Target → Except PlanError Request
  | .personalSchemas =>
    if scope.kind = .schemas then
      let foreign := authority.personalSchemas.erase scope.role
      .ok ⟨.ofList (foreign.toList.map Identifier.render), ∅⟩
    else .error (.misplacedPersonalSchemas scope)
  | .personalContents => .ok ⟨∅, authority.personalSchemas⟩
  | .contents schema => .ok ⟨∅, .ofList [schema]⟩
  | .named text =>
    let name := ObjectName.ofText text
    match catalog.owner? scope.kind name with
    | none => .error (.missingObject scope (name.render scope.kind))
    | some owner =>
      .ok ⟨if owner = scope.role then ∅ else .ofList [name.render scope.kind], ∅⟩

/-- The objects of a schema that belong to others, by canonical name. -/
def foreignObjects (catalog : Catalog) (scope : Scope) (schema : String) : List String :=
  ((catalog.objectsIn scope.kind schema).filter fun (_, owner) => owner ≠ scope.role).map
    fun (name, _) => name.render scope.kind

/-- What the items of a list of targets ask for together. The first mistake ends the reading. -/
def requests (authority : Authority) (catalog : Catalog) (scope : Scope) (items : List String) :
    Except PlanError Request := do
  let parts ← items.mapM fun item => scope.request authority catalog (Target.ofText item)
  let schemas := OrderedSet.ofList (parts.flatMap (·.schemas.toList))
  let objects := OrderedSet.ofList
    (parts.flatMap (·.objects.toList) ++ schemas.toList.flatMap (scope.foreignObjects catalog))
  return ⟨objects, schemas⟩

/-- The verbs of a scope. -/
def verbs (scope : Scope) : List String := scope.kind.verbs scope.access

/-- Each verb of the scope on each object asked for. -/
def wantedPrivileges (scope : Scope) (request : Request) : OrderedSet Privilege :=
  .ofList (request.objects.toList.flatMap fun object => scope.verbs.map fun verb => ⟨object, verb⟩)

/-- Each verb of the scope on what each other writer will create in each schema asked for. -/
def wantedDefaults (authority : Authority) (scope : Scope) (request : Request) :
    OrderedSet DefaultPrivilege :=
  if scope.kind.hasDefaults then
    .ofList (request.schemas.toList.flatMap fun schema =>
      ((authority.writersOf schema).erase scope.role).toList.flatMap fun writer =>
        scope.verbs.map fun verb => ⟨writer, schema, verb⟩)
  else ∅

/-- The privileges that the items of a list of targets ask for. -/
def wanted (authority : Authority) (catalog : Catalog) (scope : Scope) (items : List String) :
    Except PlanError Wanted := do
  let request ← scope.requests authority catalog items
  return ⟨scope.wantedPrivileges request, scope.wantedDefaults authority request⟩

/-! ## From privileges to statements -/

/-- The privileges on existing objects that the role holds. -/
def held (catalog : Catalog) (scope : Scope) : OrderedSet Privilege :=
  catalog.held scope.role scope.kind scope.access

/-- The privileges on future objects that the role is to receive, where these are managed. -/
def heldDefaults (catalog : Catalog) (scope : Scope) : OrderedSet DefaultPrivilege :=
  if scope.kind.hasDefaults then catalog.heldDefaults scope.role scope.kind scope.access else ∅

/-- The statements that lead from the privileges held to the privileges wanted: what is missing is
granted, then what is surplus is revoked, first on existing objects and then on future ones. -/
def changes (catalog : Catalog) (scope : Scope) (wanted : Wanted) : List Statement :=
  let held := scope.held catalog
  let heldDefaults := scope.heldDefaults catalog
  (wanted.privileges.diff held).toList.map (.grant scope.role scope.kind) ++
    (held.diff wanted.privileges).toList.map (.revoke scope.role scope.kind) ++
    (wanted.defaults.diff heldDefaults).toList.map (.grantDefault scope.role scope.kind) ++
    (heldDefaults.diff wanted.defaults).toList.map (.revokeDefault scope.role scope.kind)

/-- The statements of a scope. -/
def plan (authority : Authority) (catalog : Catalog) (scope : Scope) (items : List String) :
    Except PlanError (List Statement) := do
  let wanted ← scope.wanted authority catalog items
  return scope.changes catalog wanted

end Scope

end GrantPlan
