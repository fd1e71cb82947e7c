import GrantPlan.Proofs.Membership
import GrantPlan.Proofs.Traversal
import Mathlib.Data.Finset.Card
/-!
# Numbers as indexes

The numbers of roles are indexes: into the names of a table, into the lists of direct members of a
graph, and into the marks of a search. A table grows name by name, and a graph grows with its table.
Here a graph is built once more with a look at each index before it is used (`Checked.ofSpec`), which
ends where an index is out of range, or where the lists of direct members do not go with the table.

* `RoleTable.internAll_spec`, `RoleTable.size_internAll`, `RoleTable.name?_internAll` - what any
  number of names leave behind in a table;
* `Membership.checked_ofSpec` - the graph of a spec is built without a fault.
-/

namespace GrantPlan

/-! ## Names taken in one after the other -/

namespace RoleTable

variable {table : RoleTable} {name : String}

/-- The table with all names of a list in it. -/
def internAll (table : RoleTable) (names : List String) : RoleTable :=
  names.foldl (fun table name => (table.intern name).2) table

/-- Taking in a name adds this name to the table and no other. -/
theorem mem_names_intern (h : table.Agrees) {x : String} :
    x ∈ (table.intern name).2.names ↔ x ∈ table.names ∨ x = name := by
  unfold intern
  split
  next id hid =>
    -- a name that has a number is there already
    have hname : name ∈ table.names := List.mem_of_getElem? ((h name id).1 hid)
    refine (or_iff_left_of_imp ?_).symm
    rintro rfl
    exact hname
  next => rw [List.mem_append, List.mem_singleton]

/-- Whatever is taken in, the two sides of the table agree, numbers given out before keep their
names, and the names are the ones that have been taken in. -/
theorem internAll_spec (h : table.Agrees) (names : List String) :
    (table.internAll names).Agrees ∧ table.names <+: (table.internAll names).names ∧
      ∀ x, x ∈ (table.internAll names).names ↔ x ∈ table.names ∨ x ∈ names := by
  induction names generalizing table with
  | nil => exact ⟨h, List.prefix_rfl, fun x => by simp [internAll]⟩
  | cons name names ih =>
    obtain ⟨hfirst, hprefix, -⟩ := intern_spec h name
    obtain ⟨hagrees, hrest, hmem⟩ := ih hfirst
    refine ⟨hagrees, hprefix.trans hrest, fun x => ?_⟩
    show x ∈ ((table.intern name).2.internAll names).names ↔ _
    rw [hmem, mem_names_intern h, List.mem_cons, or_assoc]

/-- A table that starts out empty holds as many names as there are different ones. -/
theorem size_internAll (names : List String) :
    (empty.internAll names).size = names.toFinset.card := by
  obtain ⟨hagrees, -, hmem⟩ := internAll_spec agrees_empty names
  have hsame : (empty.internAll names).names.toFinset = names.toFinset := by
    ext x
    rw [List.mem_toFinset, hmem, List.mem_toFinset]
    exact or_iff_right List.not_mem_nil
  rw [← hsame, List.toFinset_card_of_nodup hagrees.nodup, size]

/-- A number that has been given out stands for its name ever after. -/
theorem name?_internAll (h : table.Agrees) (name : String) (later : List String) :
    ((table.intern name).2.internAll later).name? (table.intern name).1 = some name := by
  obtain ⟨hagrees, -, hname⟩ := intern_spec h name
  obtain ⟨-, hprefix, -⟩ := internAll_spec hagrees later
  exact name?_of_prefix hprefix hname

end RoleTable

/-! ## Looking at an index before it is used -/

/-- What can be wrong with the lists that numbers point into. -/
inductive IndexFault where
  /-- An index is not below the length of the list. -/
  | outOfRange (index length : Nat)
  /-- The lists of direct members do not go with the table. -/
  | uncovered
deriving DecidableEq

section Lists
variable {α : Type} {xs : List α} {i : Nat}

/-- The entry of a list at an index. -/
def fetch (xs : List α) (i : Nat) : Except IndexFault α :=
  match xs[i]? with
  | some a => .ok a
  | none => .error (.outOfRange i xs.length)

/-- A list with its entry at an index changed. -/
def amend (xs : List α) (i : Nat) (change : α → α) : Except IndexFault (List α) :=
  if i < xs.length then .ok (xs.modify i change) else .error (.outOfRange i xs.length)

/-- Fetching succeeds where there is an entry, and yields the entry. -/
theorem fetch_eq_ok_iff {a : α} : fetch xs i = .ok a ↔ xs[i]? = some a := by
  unfold fetch
  split <;> simp_all

theorem fetch_eq_ok (h : i < xs.length) : fetch xs i = .ok xs[i] :=
  fetch_eq_ok_iff.2 (List.getElem?_eq_getElem h)

/-- Amending succeeds within the list, and then does what `List.modify` does. -/
theorem amend_eq_ok_iff {change : α → α} {ys : List α} :
    amend xs i change = .ok ys ↔ i < xs.length ∧ xs.modify i change = ys := by
  unfold amend
  split <;> simp_all

end Lists

/-! ## Building a graph -/

namespace Membership

variable {graph : Membership} {member : String} {m : RoleId}

/-- The lists of direct members go with the table: there is one for each number in it, and the
numbers in them are numbers of the table. -/
def Covered (graph : Membership) : Prop :=
  graph.direct.length = graph.table.size ∧
    ∀ members ∈ graph.direct, ∀ m ∈ members, m < graph.table.size

instance (graph : Membership) : Decidable graph.Covered := inferInstanceAs (Decidable (_ ∧ _))

theorem WellFormed.covered (h : graph.WellFormed) : graph.Covered := by
  refine ⟨h.length_direct, fun members hmembers m hm => ?_⟩
  obtain ⟨id, hid⟩ := List.mem_iff_getElem?.1 hmembers
  refine h.direct_lt id m ?_
  rwa [directOf, hid]

namespace Checked

/-- A graph whose lists of direct members go with its table. -/
def covered (graph : Membership) : Except IndexFault Membership :=
  if graph.Covered then .ok graph else .error .uncovered

/-- The number of a role, and the graph with that role in it. -/
def node (graph : Membership) (name : String) : Except IndexFault (RoleId × Membership) := do
  let (id, graph) := graph.node name
  pure (id, ← covered graph)

/-- The graph in which `member` names `group` as a group of its. -/
def join (graph : Membership) (member : RoleId) (group : String) :
    Except IndexFault Membership := do
  let (id, graph) ← node graph group
  let direct ← amend graph.direct id (· ++ [member])
  covered { graph with direct }

/-- The graph with a role and the groups that it names. -/
def enroll (graph : Membership) (role : String) (groups : List String) :
    Except IndexFault Membership := do
  let (member, graph) ← node graph role
  groups.foldlM (fun graph group => join graph member group) graph

/-- The graph of a spec. -/
def ofSpec (spec : Spec) : Except IndexFault Membership :=
  spec.roles.foldlM (fun graph (role, config) => enroll graph role config.memberOf) empty

end Checked

theorem WellFormed.checked_covered (h : graph.WellFormed) :
    Checked.covered graph = .ok graph := if_pos h.covered

-- a table that has grown past the lists is found out
example : Checked.covered ⟨(RoleTable.empty.intern "etl").2, []⟩ = .error .uncovered := rfl

/-- Adding a node ends without a fault and gives what the unchecked step gives. -/
theorem WellFormed.checked_node (h : graph.WellFormed) (name : String) :
    Checked.node graph name = .ok (graph.node name) :=
  bind_eq_ok_iff.2 ⟨_, (wellFormed_node h name).checked_covered, rfl⟩

/-- So does joining a group, for a member that has a number. -/
theorem WellFormed.checked_join (h : graph.WellFormed) (hm : graph.table.name? m = some member)
    (group : String) : Checked.join graph m group = .ok (graph.join m group) := by
  obtain ⟨hid, -⟩ := List.getElem?_eq_some_iff.1 (name?_node h group)
  -- the number of the group falls into the lists, since there are as many as names
  have hlt : (graph.node group).1 < (graph.node group).2.direct.length :=
    Nat.lt_of_lt_of_eq hid (wellFormed_node h group).length_direct.symm
  have hamend : amend (graph.node group).2.direct (graph.node group).1 (· ++ [m]) =
      .ok (graph.join m group).direct := amend_eq_ok_iff.2 ⟨hlt, rfl⟩
  have hjoin := (adds_join h hm group).wellFormed
  exact bind_eq_ok_iff.2 ⟨_, h.checked_node group,
    bind_eq_ok_iff.2 ⟨_, hamend, hjoin.checked_covered⟩⟩

/-- So does one entry of the spec, which joins its groups one after the other. -/
theorem WellFormed.checked_enroll (h : graph.WellFormed) (role : String) (groups : List String) :
    Checked.enroll graph role groups = .ok (graph.enroll role groups) := by
  refine bind_eq_ok_iff.2 ⟨_, h.checked_node role, ?_⟩
  -- the role keeps its number while its groups are taken in
  refine foldlM_eq_ok_foldl (P := fun later : Membership =>
    later.WellFormed ∧ later.table.name? (graph.node role).1 = some role) ?_ ?_ groups
  · intro later group ⟨hlater, hrole⟩
    have hjoin := adds_join hlater hrole group
    exact ⟨hlater.checked_join hrole group, hjoin.wellFormed, hjoin.name? hrole⟩
  · exact ⟨wellFormed_node h role, name?_node h role⟩

/-- No index is out of range while the graph of a spec is built, and after each step the lists of
direct members go with the table. -/
theorem checked_ofSpec (spec : Spec) : Checked.ofSpec spec = .ok (ofSpec spec) := by
  refine foldlM_eq_ok_foldl (P := WellFormed) ?_ wellFormed_empty spec.roles
  intro later entry hlater
  obtain ⟨role, config⟩ := entry
  exact ⟨hlater.checked_enroll role config.memberOf,
    (adds_enroll hlater role config.memberOf).wellFormed⟩

end Membership

end GrantPlan
