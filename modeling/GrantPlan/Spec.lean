import GrantPlan.ObjectKind
import GrantPlan.Ordered.Map
/-!
# Specs

What the database is meant to look like: for each role its flags, the groups it belongs to, the
schemas it owns and the privileges it is to hold. Roles stand in the order of the document, each
under a name of its own.
-/

namespace GrantPlan

/-- The targets of a role, by kind and access level. -/
abbrev TargetLists := OrderedMap ObjectKind (OrderedMap Access (List String))

/-- What a spec says about one role. -/
structure RoleConfig where
  /-- Superusers may write anywhere, and nothing is planned for them. -/
  isSuperuser : Bool
  /-- The role owns a schema of its own name. -/
  hasPersonalSchema : Bool
  /-- The groups that the role belongs to. -/
  memberOf : List String
  /-- The schemas that the role owns, as written. -/
  ownedSchemas : List String
  /-- The targets that the role is to have access to, as written. -/
  targets : TargetLists
deriving DecidableEq

namespace RoleConfig

/-- What holds of a role of which a spec says nothing more than its name. -/
def default : RoleConfig := ⟨false, false, [], [], ∅⟩

instance : Inhabited RoleConfig := ⟨default⟩

/-- The targets listed under a kind and an access level. -/
def targetsAt (config : RoleConfig) (kind : ObjectKind) (access : Access) : List String :=
  ((config.targets.get? kind).bind (·.get? access)).getD []

/-- The targets that a role is to have access to at a level. Writing implies reading. -/
def wantedAt (config : RoleConfig) (kind : ObjectKind) : Access → List String
  | .read => config.targetsAt kind .read ++ config.targetsAt kind .write
  | .write => config.targetsAt kind .write

end RoleConfig

/-! ## Entries under distinct names -/

/-- Puts `config` under `role`: in the place of the entry of that name, or else at the end. -/
def declareEntry (role : String) (config : RoleConfig) :
    List (String × RoleConfig) → List (String × RoleConfig)
  | [] => [(role, config)]
  | e :: rest => if e.1 = role then (role, config) :: rest else e :: declareEntry role config rest

theorem mem_roles_declareEntry {role name : String} {config : RoleConfig}
    {es : List (String × RoleConfig)} :
    name ∈ (declareEntry role config es).map Prod.fst ↔ name = role ∨ name ∈ es.map Prod.fst := by
  induction es with
  | nil => simp [declareEntry]
  | cons e rest ih =>
    unfold declareEntry
    split
    · simp_all
    · simp only [List.map_cons, List.mem_cons, ih]
      grind

theorem nodup_roles_declareEntry {role : String} {config : RoleConfig}
    {es : List (String × RoleConfig)} (h : (es.map Prod.fst).Nodup) :
    ((declareEntry role config es).map Prod.fst).Nodup := by
  induction es with
  | nil => simp [declareEntry]
  | cons e rest ih =>
    obtain ⟨he, hrest⟩ := List.nodup_cons.1 h
    unfold declareEntry
    split
    · next hrole => exact List.nodup_cons.2 ⟨hrole ▸ he, hrest⟩
    · next hrole =>
      refine List.nodup_cons.2 ⟨fun hmem => ?_, ih hrest⟩
      rcases mem_roles_declareEntry.1 hmem with heq | hmem
      · exact hrole heq
      · exact he hmem

/-! ## Specs -/

/-- The roles of a database with what each is meant to be and to have. -/
structure Spec where
  /-- The roles in the order of the document. -/
  roles : List (String × RoleConfig)
  nodup_roles : (roles.map Prod.fst).Nodup

namespace Spec

/-- The spec that declares no role. -/
def empty : Spec := ⟨[], .nil⟩

instance : EmptyCollection Spec := ⟨empty⟩

instance : Inhabited Spec := ⟨∅⟩

/-- The spec with `config` for `role`. A role declared again keeps its place. -/
def declare (spec : Spec) (role : String) (config : RoleConfig) : Spec :=
  ⟨declareEntry role config spec.roles, nodup_roles_declareEntry spec.nodup_roles⟩

/-- The spec that declares roles one after the other. -/
def ofList (roles : List (String × RoleConfig)) : Spec :=
  roles.foldl (fun spec (role, config) => spec.declare role config) ∅

/-- How many roles are declared. -/
def size (spec : Spec) : Nat := spec.roles.length

end Spec

end GrantPlan
