import GrantPlan.ObjectName
import GrantPlan.Ordered.Map
import GrantPlan.Privilege
import GrantPlan.Statement
/-!
# Catalogs

What a database holds: its superusers, the owner of each object, and the privileges that each role
has been granted, on objects that exist and on future ones. `Catalog.apply` says what a statement
does to it.

Object names are put into canonical spelling when a grant is recorded (`Catalog.addGrant`), so that
the privileges held compare with the privileges wanted.
-/

namespace GrantPlan

open Std

/-! ## What is recorded -/

/-- A database object: its kind and its name. -/
structure ObjectRef where
  kind : ObjectKind
  name : ObjectName
deriving DecidableEq, Repr

/-- A privilege that a role holds on an object of some kind. -/
structure Grant where
  role : String
  kind : ObjectKind
  privilege : Privilege
deriving DecidableEq, Repr

/-- A privilege that a role is to receive on future objects of some kind. -/
structure DefaultGrant where
  role : String
  kind : ObjectKind
  privilege : DefaultPrivilege
deriving DecidableEq, Repr

namespace ObjectRef

/-- By kind, then by name. -/
instance : Ord ObjectRef := ⟨compareLex (compareOn (·.kind)) (compareOn (·.name))⟩

instance : TransOrd ObjectRef :=
  inferInstanceAs (TransCmp (compareLex (compareOn ObjectRef.kind) (compareOn ObjectRef.name)))

instance : LawfulEqOrd ObjectRef where
  eq_of_compare {a b} h := by
    obtain ⟨hkind, hname⟩ := compareLex_eq_eq.1 h
    have := eq_of_compareOn hkind
    have := eq_of_compareOn hname
    cases a
    cases b
    simp_all

end ObjectRef

namespace Grant

/-- By role, then by kind, then by privilege. -/
instance : Ord Grant :=
  ⟨compareLex (compareOn (·.role)) (compareLex (compareOn (·.kind)) (compareOn (·.privilege)))⟩

instance : TransOrd Grant :=
  inferInstanceAs (TransCmp (compareLex (compareOn Grant.role)
    (compareLex (compareOn Grant.kind) (compareOn Grant.privilege))))

instance : LawfulEqOrd Grant where
  eq_of_compare {a b} h := by
    obtain ⟨hrole, hrest⟩ := compareLex_eq_eq.1 h
    obtain ⟨hkind, hprivilege⟩ := compareLex_eq_eq.1 hrest
    have := eq_of_compareOn hrole
    have := eq_of_compareOn hkind
    have := eq_of_compareOn hprivilege
    cases a
    cases b
    simp_all

end Grant

namespace DefaultGrant

/-- By role, then by kind, then by privilege. -/
instance : Ord DefaultGrant :=
  ⟨compareLex (compareOn (·.role)) (compareLex (compareOn (·.kind)) (compareOn (·.privilege)))⟩

instance : TransOrd DefaultGrant :=
  inferInstanceAs (TransCmp (compareLex (compareOn DefaultGrant.role)
    (compareLex (compareOn DefaultGrant.kind) (compareOn DefaultGrant.privilege))))

instance : LawfulEqOrd DefaultGrant where
  eq_of_compare {a b} h := by
    obtain ⟨hrole, hrest⟩ := compareLex_eq_eq.1 h
    obtain ⟨hkind, hprivilege⟩ := compareLex_eq_eq.1 hrest
    have := eq_of_compareOn hrole
    have := eq_of_compareOn hkind
    have := eq_of_compareOn hprivilege
    cases a
    cases b
    simp_all

end DefaultGrant

/-- The state of a database, as far as privileges are concerned. -/
structure Catalog where
  superusers : OrderedSet String
  owners : OrderedMap ObjectRef String
  grants : OrderedSet Grant
  defaultGrants : OrderedSet DefaultGrant
deriving DecidableEq

namespace Catalog

/-- The catalog of a database without objects. -/
def empty : Catalog := ⟨∅, ∅, ∅, ∅⟩

instance : EmptyCollection Catalog := ⟨empty⟩

instance : Inhabited Catalog := ⟨∅⟩

/-! ## Recording -/

/-- The catalog with `role` as a superuser. -/
def addSuperuser (catalog : Catalog) (role : String) : Catalog :=
  { catalog with superusers := catalog.superusers.insert role }

/-- The catalog with `owner` as the owner of an object, or of the schema itself where no object is
named. Either name may be quoted. -/
def addObject (catalog : Catalog) (kind : ObjectKind) (schema : String) (object? : Option String)
    (owner : String) : Catalog :=
  let name : ObjectName := ⟨Identifier.unquote schema, object?.map Identifier.unquote⟩
  { catalog with owners := catalog.owners.insert ⟨kind, name⟩ owner }

/-- The catalog with a verb granted to `role` on an object, whose name may be spelled in any way. -/
def addGrant (catalog : Catalog) (role : String) (kind : ObjectKind) (object verb : String) :
    Catalog :=
  let privilege : Privilege := ⟨ObjectName.canonical kind object, verb⟩
  { catalog with grants := catalog.grants.insert ⟨role, kind, privilege⟩ }

/-- The catalog with a verb that `role` is to receive on what `grantor` will create in a schema,
whose name may be quoted. -/
def addDefaultGrant (catalog : Catalog) (role : String) (kind : ObjectKind)
    (grantor schema verb : String) : Catalog :=
  let privilege : DefaultPrivilege := ⟨grantor, Identifier.unquote schema, verb⟩
  { catalog with defaultGrants := catalog.defaultGrants.insert ⟨role, kind, privilege⟩ }

/-! ## Carrying out statements -/

/-- The catalog after a statement. -/
def apply (catalog : Catalog) : Statement → Catalog
  | .grant role kind privilege =>
    { catalog with grants := catalog.grants.insert ⟨role, kind, privilege⟩ }
  | .revoke role kind privilege =>
    { catalog with grants := catalog.grants.erase ⟨role, kind, privilege⟩ }
  | .grantDefault role kind privilege =>
    { catalog with defaultGrants := catalog.defaultGrants.insert ⟨role, kind, privilege⟩ }
  | .revokeDefault role kind privilege =>
    { catalog with defaultGrants := catalog.defaultGrants.erase ⟨role, kind, privilege⟩ }
  | .skipSuperuser _ => catalog

/-- The catalog after statements, one after the other. -/
def applyAll (catalog : Catalog) (statements : List Statement) : Catalog :=
  statements.foldl apply catalog

/-! ## Looking things up -/

/-- Whether `role` is a superuser. -/
def isSuperuser (catalog : Catalog) (role : String) : Bool := role ∈ catalog.superusers

/-- The privileges on existing objects of a kind that `role` holds at an access level. -/
def held (catalog : Catalog) (role : String) (kind : ObjectKind) (access : Access) :
    OrderedSet Privilege :=
  let grants := catalog.grants.toList.filter fun grant =>
    grant.role = role && grant.kind = kind && (kind.verbs access).contains grant.privilege.verb
  .ofList (grants.map (·.privilege))

/-- The privileges on future objects of a kind that `role` is to receive at an access level. -/
def heldDefaults (catalog : Catalog) (role : String) (kind : ObjectKind) (access : Access) :
    OrderedSet DefaultPrivilege :=
  let grants := catalog.defaultGrants.toList.filter fun grant =>
    grant.role = role && grant.kind = kind && (kind.verbs access).contains grant.privilege.verb
  .ofList (grants.map (·.privilege))

/-- The owner of an object. -/
def owner? (catalog : Catalog) (kind : ObjectKind) (name : ObjectName) : Option String :=
  catalog.owners.get? ⟨kind, name⟩

/-- The objects of a kind that a schema holds, by name, each with its owner. For kind `schemas`
this is the schema itself. -/
def objectsIn (catalog : Catalog) (kind : ObjectKind) (schema : String) :
    List (ObjectName × String) :=
  catalog.owners.toList.filterMap fun (object, owner) =>
    if object.kind = kind && object.name.schema = schema then some (object.name, owner) else none

end Catalog

end GrantPlan
