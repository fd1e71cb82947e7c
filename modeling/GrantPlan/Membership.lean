import GrantPlan.Ordered.Map
import GrantPlan.Spec
/-!
# Membership

Who belongs to a group, directly or through other groups. Role names are numbered in the order in
which they are met (`RoleTable`), and the membership graph holds numbers only.

* `Membership.reach` collects what can be reached in one step or more, visiting no role twice;
  `Membership.membersOf` reads the result back as names. A group is a member of itself only where
  a chain of memberships leads back to it.
-/

namespace GrantPlan

/-! ## Numbered names -/

/-- The number of a role. -/
abbrev RoleId := Nat

/-- Role names by number and numbers by name. -/
structure RoleTable where
  /-- Each name stands at its number. -/
  names : List String
  /-- The number of each name. -/
  numbers : OrderedMap String RoleId
deriving DecidableEq

namespace RoleTable

/-- The table without names. -/
def empty : RoleTable := ⟨[], ∅⟩

/-- The number of a name that is in the table. -/
def id? (table : RoleTable) (name : String) : Option RoleId := table.numbers.get? name

/-- The name that has a number. -/
def name? (table : RoleTable) (id : RoleId) : Option String := table.names[id]?

/-- How many names are in the table. -/
def size (table : RoleTable) : Nat := table.names.length

/-- The number of a name, and the table with the name in it: a new name takes the next number. -/
def intern (table : RoleTable) (name : String) : RoleId × RoleTable :=
  match table.id? name with
  | some id => (id, table)
  | none => (table.size, ⟨table.names ++ [name], table.numbers.insert name table.size⟩)

end RoleTable

/-! ## The graph -/

/-- For each role by its number, the roles that name it as a group of theirs. -/
structure Membership where
  table : RoleTable
  direct : List (List RoleId)
deriving DecidableEq

namespace Membership

/-- The graph without roles. -/
def empty : Membership := ⟨.empty, []⟩

/-- The number of a role, and the graph with that role in it. Every number in the table gets a list
of direct members. -/
def node (graph : Membership) (name : String) : RoleId × Membership :=
  let (id, table) := graph.table.intern name
  (id, ⟨table, graph.direct.rightpad table.size []⟩)

/-- The graph in which `member` names `group` as a group of its. -/
def join (graph : Membership) (member : RoleId) (group : String) : Membership :=
  let (id, graph) := graph.node group
  { graph with direct := graph.direct.modify id (· ++ [member]) }

/-- The graph with a role and the groups that it names. -/
def enroll (graph : Membership) (role : String) (groups : List String) : Membership :=
  let (member, graph) := graph.node role
  groups.foldl (·.join member) graph

/-- The graph of a spec. -/
def ofSpec (spec : Spec) : Membership :=
  spec.roles.foldl (fun graph (role, config) => graph.enroll role config.memberOf) empty

/-- The direct members of a role. -/
def directOf (graph : Membership) (id : RoleId) : List RoleId := graph.direct[id]?.getD []

/-! ## Members through any number of groups -/

/-- The elements of `xs` that are in `found`. -/
def common (found xs : List RoleId) : List RoleId := xs.filter (· ∈ found)

/-- The elements of `xs` that are not in `found`. -/
def others (found xs : List RoleId) : List RoleId := xs.filter (· ∉ found)

theorem length_common_add_length_others (found xs : List RoleId) :
    (common found xs).length + (others found xs).length = xs.length := by
  unfold common others
  induction xs with
  | nil => rfl
  | cons x xs ih =>
    simp only [decide_not] at ih
    by_cases h : x ∈ found <;> simp [h] <;> omega

/-- What the roles in `frontier` lead to in one step or more, so long as `unvisited` holds every
role that is yet to be followed. Each round takes one role from the frontier, and what it leads to
moves from `unvisited` to the frontier. -/
def reach (next : RoleId → List RoleId) (frontier unvisited : List RoleId) : List RoleId :=
  match frontier with
  | [] => []
  | current :: rest =>
    let found := next current
    found ++ reach next (common found unvisited ++ rest) (others found unvisited)
termination_by frontier.length + unvisited.length
decreasing_by
  have := length_common_add_length_others (next current) unvisited
  simp only [List.length_append, List.length_cons]
  omega

/-- The direct and indirect members of a group. -/
def membersOf (graph : Membership) (group : String) : OrderedSet String :=
  match graph.table.id? group with
  | none => ∅
  | some start =>
    let ids := reach graph.directOf [start] (others [start] (List.range graph.table.size))
    .ofList (ids.filterMap graph.table.name?)

end Membership

end GrantPlan
