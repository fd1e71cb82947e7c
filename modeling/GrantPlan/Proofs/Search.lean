import GrantPlan.Proofs.Indexing
/-!
# The search for members in place

`Membership.membersOf` keeps a frontier and the numbers not yet visited. Here the search is done in
place: with a mark for each number, the members found so far, and a stack of numbers that are still
to be followed, and with a look at each index before it is used (`Checked.membersOf`).

* `Search.Meets` - all that the numbers in a list of direct members do to a search;
* `Search.Consistent` - the invariant of its rounds: all numbers met have been followed but those on
  the stack;
* `WellFormed.checked_membersOf` - the search ends without a fault, with the members of the group;
* `numbers_in_range` - what holds of tables after any number of names and of the graph of any spec,
  so that no index is out of range.
-/

namespace GrantPlan

open Relation

namespace Membership

/-- A search for the members of a group. -/
structure Search where
  /-- A mark for each number that has been met. -/
  visited : List Bool
  /-- The members found so far. -/
  members : OrderedSet RoleId
  /-- The numbers that are still to be followed. -/
  stack : List RoleId

namespace Search

variable {graph : Membership} {search next : Search} {ms : List RoleId} {m x : RoleId}

/-- A member is found, which is to be followed if it has not been met before. -/
def meet (search : Search) (member : RoleId) : Except IndexFault Search := do
  let members := search.members.insert member
  if ← fetch search.visited member then
    pure { search with members }
  else
    pure ⟨← amend search.visited member fun _ => true, members, member :: search.stack⟩

/-- A role is followed: its direct members are met. -/
def follow (graph : Membership) (search : Search) (current : RoleId) :
    Except IndexFault Search := do
  (← fetch graph.direct current).foldlM meet search

/-! ## One round -/

/-- A number bears the mark of having been met. -/
def Met (search : Search) (x : RoleId) : Prop := search.visited[x]? = some true

/-- How many numbers are to be followed, now or once they are met. -/
def size (search : Search) : Nat := search.stack.length + search.visited.count false

/-- A later search has met the numbers of a list in addition. -/
structure Meets (search : Search) (ms : List RoleId) (next : Search) : Prop where
  length_visited : next.visited.length = search.visited.length
  met_iff : ∀ x, next.Met x ↔ search.Met x ∨ x ∈ ms
  mem_members_iff : ∀ x, x ∈ next.members ↔ x ∈ search.members ∨ x ∈ ms
  mem_stack_iff : ∀ x, x ∈ next.stack ↔ x ∈ search.stack ∨ x ∈ ms ∧ ¬ search.Met x
  size_eq : next.size = search.size

theorem Meets.refl (search : Search) : Meets search [] search :=
  ⟨rfl, fun x => by simp, fun x => by simp, fun x => by simp, rfl⟩

theorem Meets.trans {later : Search} {ms' : List RoleId} (h : Meets search ms next)
    (h' : Meets next ms' later) : Meets search (ms ++ ms') later := by
  refine ⟨h'.length_visited.trans h.length_visited, fun x => ?_, fun x => ?_, fun x => ?_,
    h'.size_eq.trans h.size_eq⟩
  · rw [h'.met_iff, h.met_iff, List.mem_append, or_assoc]
  · rw [h'.mem_members_iff, h.mem_members_iff, List.mem_append, or_assoc]
  · rw [h'.mem_stack_iff, h.mem_stack_iff, h.met_iff, List.mem_append]
    grind

theorem count_modify_true {marks : List Bool} (h : marks[m]? = some false) :
    (marks.modify m fun _ => true).count false + 1 = marks.count false := by
  obtain ⟨hm, hmark⟩ := List.getElem?_eq_some_iff.1 h
  have hpos : 0 < marks.count false := List.count_pos_iff.2 (List.mem_of_getElem? h)
  rw [← List.set_eq_modify, List.count_set hm, hmark]
  show marks.count false - 1 + 0 + 1 = marks.count false
  omega

theorem meets_of_meet (h : search.meet m = .ok next) : Meets search [m] next := by
  obtain ⟨met, hmet, h⟩ := bind_eq_ok_iff.1 h
  rw [fetch_eq_ok_iff] at hmet
  have hmembers : ∀ x, x ∈ search.members.insert m ↔ x ∈ search.members ∨ x ∈ [m] := by
    intro x
    rw [OrderedSet.mem_insert, List.mem_singleton, or_comm]
  cases met with
  | true =>
    -- nothing changes but that the number is a member
    obtain rfl := pure_eq_ok_iff.1 h
    refine ⟨rfl, fun x => ?_, hmembers, fun x => ?_, rfl⟩
    · rw [List.mem_singleton]
      refine (or_iff_left_of_imp ?_).symm
      rintro rfl
      exact hmet
    · rw [List.mem_singleton, or_iff_left]
      rintro ⟨rfl, hnot⟩
      exact hnot hmet
  | false =>
    obtain ⟨visited, hvisited, h⟩ := bind_eq_ok_iff.1 h
    obtain ⟨-, rfl⟩ := amend_eq_ok_iff.1 hvisited
    obtain rfl := pure_eq_ok_iff.1 h
    have hnot : ¬ search.Met m := fun hm => by
      rw [Met, hmet] at hm
      cases hm
    refine ⟨List.length_modify .., fun x => ?_, hmembers, fun x => ?_, ?_⟩
    · show (search.visited.modify m _)[x]? = some true ↔ search.visited[x]? = some true ∨ x ∈ [m]
      rw [List.getElem?_modify, List.mem_singleton]
      by_cases hx : m = x
      · subst hx
        simp [hmet]
      · simp [hx, Ne.symm hx]
    · rw [List.mem_cons, List.mem_singleton, or_comm]
      refine or_congr_right (and_iff_left_of_imp ?_).symm
      rintro rfl
      exact hnot
    · have hcount := count_modify_true hmet
      simp only [size, List.length_cons]
      omega

theorem meets_of_foldlM (h : ms.foldlM meet search = .ok next) : Meets search ms next := by
  induction ms generalizing search with
  | nil =>
    obtain rfl := pure_eq_ok_iff.1 h
    exact .refl search
  | cons m ms ih =>
    rw [List.foldlM_cons] at h
    obtain ⟨first, hfirst, h⟩ := bind_eq_ok_iff.1 h
    exact (meets_of_meet hfirst).trans (ih h)

theorem exists_meet (hm : m < search.visited.length) : ∃ next, search.meet m = .ok next := by
  have hamend : amend search.visited m (fun _ => true) =
      .ok (search.visited.modify m fun _ => true) := amend_eq_ok_iff.2 ⟨hm, rfl⟩
  rw [meet, fetch_eq_ok hm, hamend]
  cases search.visited[m] <;> exact ⟨_, rfl⟩

theorem exists_foldlM_meet (hms : ∀ m ∈ ms, m < search.visited.length) :
    ∃ next, ms.foldlM meet search = .ok next := by
  induction ms generalizing search with
  | nil => exact ⟨search, rfl⟩
  | cons m ms ih =>
    rw [List.forall_mem_cons] at hms
    obtain ⟨first, hfirst⟩ := exists_meet hms.1
    have hrest : ∀ m' ∈ ms, m' < first.visited.length := by
      rw [(meets_of_meet hfirst).length_visited]
      exact hms.2
    obtain ⟨next, hnext⟩ := ih hrest
    rw [List.foldlM_cons]
    exact ⟨next, bind_eq_ok_iff.2 ⟨first, hfirst, hnext⟩⟩

/-- To follow a number makes no new work: what it puts on the stack had no mark. -/
theorem size_of_follow {current : RoleId} (h : follow graph search current = .ok next) :
    next.size = search.size := by
  obtain ⟨members, -, hmeet⟩ := bind_eq_ok_iff.1 h
  exact (meets_of_foldlM hmeet).size_eq

/-! ## Rounds until nothing is left -/

/-- The members found once nothing is left to be followed. -/
def run (graph : Membership) : Search → Except IndexFault (OrderedSet RoleId)
  | ⟨_, members, []⟩ => .ok members
  | ⟨visited, members, current :: rest⟩ =>
    match _ : follow graph ⟨visited, members, rest⟩ current with
    | .error fault => .error fault
    | .ok next => run graph next
termination_by search => search.size
decreasing_by
  rw [size_of_follow ‹_›]
  simp [size]

/-- A search from `start` that has followed all numbers met but those on its stack. -/
structure Consistent (graph : Membership) (start : RoleId) (search : Search) : Prop where
  length_visited : search.visited.length = graph.table.size
  met_iff : ∀ x, search.Met x ↔ x = start ∨ x ∈ search.members
  met_of_mem_stack : ∀ x ∈ search.stack, search.Met x
  reached : ∀ x ∈ search.members, TransGen (fun a b => b ∈ graph.directOf a) start x
  followed : ∀ x, search.Met x → x ∈ search.stack ∨ ∀ y ∈ graph.directOf x, y ∈ search.members

section Rounds
variable {start current : RoleId} {visited : List Bool} {members : OrderedSet RoleId}
  {rest : List RoleId}

theorem run_of_follow (h : follow graph ⟨visited, members, rest⟩ current = .ok next) :
    run graph ⟨visited, members, current :: rest⟩ = run graph next := by
  rw [run]
  split
  next fault hfault =>
    rw [h] at hfault
    cases hfault
  next next' hnext => rw [Except.ok.inj (h.symm.trans hnext)]

theorem consistent_start (hstart : start < graph.table.size) :
    Consistent graph start
      ⟨(List.replicate graph.table.size false).modify start fun _ => true, ∅, [start]⟩ := by
  have hmet : ∀ x, ((List.replicate graph.table.size false).modify start fun _ => true)[x]? =
      some true ↔ x = start := by
    intro x
    rw [List.getElem?_modify, List.getElem?_replicate]
    grind
  refine ⟨by simp, fun x => ?_, fun x hx => ?_, fun x hx => ?_, fun x hx => ?_⟩
  · exact (hmet x).trans (or_iff_left (OrderedSet.not_mem_empty x)).symm
  · exact (hmet x).2 (List.mem_singleton.1 hx)
  · exact absurd hx (OrderedSet.not_mem_empty x)
  · exact .inl (List.mem_singleton.2 ((hmet x).1 hx))

/-- A round has no fault: what is on the stack has its list, and what is in the list its mark. -/
theorem Consistent.exists_follow (hgraph : graph.WellFormed)
    (h : Consistent graph start ⟨visited, members, current :: rest⟩) :
    ∃ next, follow graph ⟨visited, members, rest⟩ current = .ok next ∧
      Meets ⟨visited, members, rest⟩ (graph.directOf current) next := by
  have hmark : current < visited.length :=
    (List.getElem?_eq_some_iff.1 (h.met_of_mem_stack current List.mem_cons_self)).1
  have hcurrent : current < graph.direct.length := by
    rw [hgraph.length_direct, ← h.length_visited]
    exact hmark
  have hlist : fetch graph.direct current = .ok (graph.directOf current) := by
    rw [fetch_eq_ok hcurrent, directOf, List.getElem?_eq_getElem hcurrent]
    rfl
  obtain ⟨next, hnext⟩ : ∃ next, (graph.directOf current).foldlM meet
      ⟨visited, members, rest⟩ = .ok next := by
    refine exists_foldlM_meet fun m hm => ?_
    rw [h.length_visited]
    exact hgraph.direct_lt current m hm
  exact ⟨next, bind_eq_ok_iff.2 ⟨_, hlist, hnext⟩, meets_of_foldlM hnext⟩

/-- A round keeps the invariant. -/
theorem Consistent.of_meets (h : Consistent graph start ⟨visited, members, current :: rest⟩)
    (hnext : Meets ⟨visited, members, rest⟩ (graph.directOf current) next) :
    Consistent graph start next := by
  have hcurrent := h.met_of_mem_stack current List.mem_cons_self
  refine ⟨hnext.length_visited.trans h.length_visited, fun x => ?_, fun x hx => ?_,
    fun x hx => ?_, fun x hx => ?_⟩
  · rw [hnext.met_iff, hnext.mem_members_iff, ← or_assoc]
    exact or_congr_left (h.met_iff x)
  · rw [hnext.met_iff]
    rcases (hnext.mem_stack_iff x).1 hx with hx | ⟨hx, -⟩
    · exact .inl (h.met_of_mem_stack x (List.mem_cons_of_mem current hx))
    · exact .inr hx
  · rcases (hnext.mem_members_iff x).1 hx with hx | hx
    · exact h.reached x hx
    · -- one step behind the number that is followed
      rcases (h.met_iff current).1 hcurrent with rfl | hmember
      · exact .single hx
      · exact (h.reached current hmember).tail hx
  · rw [hnext.mem_stack_iff]
    by_cases hold : Met ⟨visited, members, rest⟩ x
    · rcases h.followed x hold with hstack | hdone
      · rcases List.mem_cons.1 hstack with rfl | hrest
        · exact .inr fun y hy => (hnext.mem_members_iff y).2 (.inr hy)
        · exact .inl (.inl hrest)
      · exact .inr fun y hy => (hnext.mem_members_iff y).2 (.inl (hdone y hy))
    · -- it has just been met, so it is on the stack
      exact .inl (.inr ⟨((hnext.met_iff x).1 hx).resolve_left hold, hold⟩)

/-- With nothing left to be followed, the members are what can be reached. -/
theorem Consistent.mem_members_iff (h : Consistent graph start ⟨visited, members, []⟩) :
    x ∈ members ↔ TransGen (fun a b => b ∈ graph.directOf a) start x := by
  have hdone : ∀ a, Met ⟨visited, members, []⟩ a → ∀ b ∈ graph.directOf a, b ∈ members :=
    fun a ha => (h.followed a ha).resolve_left List.not_mem_nil
  refine ⟨h.reached x, fun hchain => ?_⟩
  induction hchain with
  | single hstep => exact hdone start ((h.met_iff start).2 (.inl rfl)) _ hstep
  | tail _ hstep ih => exact hdone _ ((h.met_iff _).2 (.inr ih)) _ hstep

/-- A search ends, with no index out of range, and finds what can be reached in one step or more. -/
theorem exists_run (hgraph : graph.WellFormed) (h : Consistent graph start search) :
    ∃ members, run graph search = .ok members ∧
      ∀ x, x ∈ members ↔ TransGen (fun a b => b ∈ graph.directOf a) start x := by
  induction search using run.induct graph with
  | case1 visited members =>
    rw [run]
    exact ⟨members, rfl, fun x => h.mem_members_iff⟩
  | case2 visited members current rest fault hfault =>
    obtain ⟨next, hnext, -⟩ := h.exists_follow hgraph
    rw [hnext] at hfault
    cases hfault
  | case3 visited members current rest next hnext ih =>
    obtain ⟨next', hnext', hmeets⟩ := h.exists_follow hgraph
    obtain rfl := Except.ok.inj (hnext'.symm.trans hnext)
    rw [run_of_follow hnext]
    exact ih (h.of_meets hmeets)

end Rounds

end Search

/-! ## The members of a group -/

variable {graph : Membership}

/-- The direct and indirect members of a group. -/
def Checked.membersOf (graph : Membership) (group : String) :
    Except IndexFault (OrderedSet String) :=
  match graph.table.id? group with
  | none => .ok ∅
  | some start => do
    let visited ← amend (List.replicate graph.table.size false) start fun _ => true
    let members ← Search.run graph ⟨visited, ∅, [start]⟩
    let names ← members.toList.mapM (fetch graph.table.names)
    pure (.ofList names)

/-- The search in place ends, with no index out of range, and finds the members of the group. -/
theorem WellFormed.checked_membersOf (h : graph.WellFormed) (group : String) :
    Checked.membersOf graph group = .ok (graph.membersOf group) := by
  rw [Checked.membersOf, membersOf]
  cases hid : graph.table.id? group with
  | none => rfl
  | some start =>
    have hstart : start < graph.table.size :=
      (List.getElem?_eq_some_iff.1 ((h.agrees group start).1 hid)).1
    have hamend : amend (List.replicate graph.table.size false) start (fun _ => true) =
        .ok ((List.replicate graph.table.size false).modify start fun _ => true) :=
      amend_eq_ok_iff.2 ⟨by simpa using hstart, rfl⟩
    obtain ⟨members, hrun, hmem⟩ := Search.exists_run h (Search.consistent_start hstart)
    -- a member has a name, since something lists it
    have hlt : ∀ m ∈ members.toList, m < graph.table.names.length := by
      intro m hm
      obtain ⟨g, -, hstep⟩ := TransGen.tail'_iff.1 ((hmem m).1 hm)
      exact h.direct_lt g m hstep
    obtain ⟨names, hnames⟩ : ∃ names, members.toList.mapM (fetch graph.table.names) = .ok names :=
      exists_mapM_eq_ok_iff.2 fun m hm => ⟨_, fetch_eq_ok (hlt m hm)⟩
    refine bind_eq_ok_iff.2 ⟨_, hamend, bind_eq_ok_iff.2 ⟨_, hrun, bind_eq_ok_iff.2
      ⟨_, hnames, congrArg Except.ok (OrderedSet.ext fun name => ?_)⟩⟩⟩
    rw [OrderedSet.mem_ofList, mem_of_mapM_eq_ok hnames, OrderedSet.mem_ofList, List.mem_filterMap]
    refine exists_congr fun m => and_congr ?_ fetch_eq_ok_iff
    exact (hmem m).trans (mem_reach_iff h.direct_lt).symm

/-- However many names are taken in, a table has each of them once, the number of a name is the place
where it stands, there are as many numbers as different names, and a number that has been given out
stands for its name ever after. In the graph of a spec the lists of direct members go with the table,
so that no index is out of range, neither while the graph is built nor in a search for the members
of a group. -/
theorem numbers_in_range :
    (∀ calls : List String,
      let table := RoleTable.empty.internAll calls
      table.names.Nodup ∧
      (∀ name id, table.id? name = some id ↔ table.names[id]? = some name) ∧
      table.size = calls.toFinset.card ∧
      ∀ name later, ((table.intern name).2.internAll later).name? (table.intern name).1 = some name) ∧
    ∀ spec : Spec,
      (ofSpec spec).direct.length = (ofSpec spec).table.size ∧
      (∀ members ∈ (ofSpec spec).direct, ∀ m ∈ members, m < (ofSpec spec).table.size) ∧
      Checked.ofSpec spec = .ok (ofSpec spec) ∧
      ∀ group, Checked.membersOf (ofSpec spec) group = .ok ((ofSpec spec).membersOf group) := by
  constructor
  · intro calls table
    have hagrees : table.Agrees := (RoleTable.internAll_spec RoleTable.agrees_empty calls).1
    exact ⟨hagrees.nodup, hagrees, RoleTable.size_internAll calls, RoleTable.name?_internAll hagrees⟩
  · intro spec
    have hwell := wellFormed_ofSpec spec
    obtain ⟨hlength, hlt⟩ := hwell.covered
    exact ⟨hlength, hlt, checked_ofSpec spec, hwell.checked_membersOf⟩

/-- A spec in which `etl` belongs to `pipeline`, and this to `staff` and to itself. -/
def crewSpec : Spec :=
  .ofList
    [("etl", { RoleConfig.default with memberOf := ["pipeline"] }),
      ("pipeline", { RoleConfig.default with memberOf := ["staff", "pipeline"] })]

/-- The third number is that of `staff`, which is in no list and has one of its own. -/
theorem numbers_in_range_crew :
    [0, 1] ∈ (ofSpec crewSpec).direct ∧ 1 ∈ [0, 1] ∧ 1 < (ofSpec crewSpec).table.size := by
  have hlist : [0, 1] ∈ (ofSpec crewSpec).direct := by decide
  exact ⟨hlist, by decide, (numbers_in_range.2 crewSpec).2.1 [0, 1] hlist 1 (by decide)⟩

end Membership

end GrantPlan
