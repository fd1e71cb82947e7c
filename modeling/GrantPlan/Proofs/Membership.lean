import GrantPlan.Membership
import Mathlib.Data.List.Cycle
import Mathlib.Data.List.Nodup
import Mathlib.Logic.Relation
/-!
# Members of a group

Who belongs to a group, said without numbers and without a search: a chain of entries leads from the
member to the group, each of which names the next as one of its groups (`Spec.Joins`).

* `RoleTable.Agrees` - numbers and names determine each other;
* `WellFormed` - a table of this kind, and one list of known members for each name in it;
* `records_ofSpec_iff` - the graph of a spec records what the entries of the spec say;
* `mem_reach_iff` - the search finds what can be reached in one step or more;
* `mem_membersOf_iff` - the members found are the ones that chains lead from;
* `members_iff_chain` - the same with the chains and the cycles of entries spelled out.
-/

namespace GrantPlan

open Relation

/-- An entry of a spec names a group as one of those that its role belongs to. -/
def Spec.Joins (spec : Spec) (member group : String) : Prop :=
  ∃ config, (member, config) ∈ spec.roles ∧ group ∈ config.memberOf

/-! ## Numbered names -/

namespace RoleTable

variable {table : RoleTable} {name : String} {id : RoleId}

/-- The two sides of a table agree: the number of a name is the place where it stands. -/
def Agrees (table : RoleTable) : Prop :=
  ∀ name id, table.id? name = some id ↔ table.name? id = some name

theorem agrees_empty : empty.Agrees := fun name id => by simp [id?, name?, empty]

/-- No name stands in two places, since it has one number. -/
theorem Agrees.nodup (h : table.Agrees) : table.names.Nodup := by
  rw [List.nodup_iff_getElem?_ne_getElem?]
  intro i j hij hj heq
  have hnamej : table.name? j = some table.names[j] := List.getElem?_eq_getElem hj
  have hnamei : table.name? i = some table.names[j] := heq.trans hnamej
  have hsame : some i = some j := ((h _ i).2 hnamei).symm.trans ((h _ j).2 hnamej)
  exact hij.ne (Option.some.inj hsame)

/-- A longer table gives the numbers of a shorter one the same names. -/
theorem name?_of_prefix {later : RoleTable} (h : table.names <+: later.names)
    (hname : table.name? id = some name) : later.name? id = some name := by
  obtain ⟨hid, hname⟩ := List.getElem?_eq_some_iff.1 hname
  rw [← hname]
  exact List.prefix_iff_getElem?.1 h id hid

/-- One more entry is found behind those that a list had. -/
theorem getElem?_concat_eq_some_iff {α : Type} {xs : List α} {a b : α} {i : Nat} :
    (xs ++ [a])[i]? = some b ↔ xs[i]? = some b ∨ i = xs.length ∧ b = a := by
  rw [List.getElem?_append]
  split
  next h => simp [Nat.ne_of_lt h]
  next h =>
    rw [List.getElem?_singleton, List.getElem?_eq_none (Nat.le_of_not_lt h)]
    grind

/-- A new name takes the next number, and the two sides go on to agree. -/
theorem Agrees.concat (h : table.Agrees) (hnew : table.id? name = none) :
    Agrees ⟨table.names ++ [name], table.numbers.insert name table.size⟩ := by
  intro x id
  show (table.numbers.insert name table.size).get? x = some id ↔
    (table.names ++ [name])[id]? = some x
  rw [OrderedMap.get?_insert, getElem?_concat_eq_some_iff]
  show _ ↔ table.name? id = some x ∨ id = table.size ∧ x = name
  rw [← h]
  by_cases hx : x = name
  · -- it had no number before
    subst hx
    simp [hnew, eq_comm]
  · simp [hx, id?]

/-- A name that is taken in has a number, and the names before it keep theirs. -/
theorem intern_spec (h : table.Agrees) (name : String) :
    (table.intern name).2.Agrees ∧ table.names <+: (table.intern name).2.names ∧
      (table.intern name).2.name? (table.intern name).1 = some name := by
  unfold intern
  split
  next id hid => exact ⟨h, List.prefix_rfl, (h name id).1 hid⟩
  next hid => exact ⟨h.concat hid, List.prefix_append _ _, by simp [name?, size]⟩

end RoleTable

/-! ## The graph of a spec -/

namespace Membership

variable {graph : Membership} {member group : String} {m g : RoleId}

/-- Every number in a graph stands for a name, and no name has two numbers. -/
structure WellFormed (graph : Membership) : Prop where
  agrees : graph.table.Agrees
  length_direct : graph.direct.length = graph.table.size
  direct_lt : ∀ id, ∀ m ∈ graph.directOf id, m < graph.table.size

/-- Whether a graph has `member` among the direct members of `group`. -/
def Records (graph : Membership) (member group : String) : Prop :=
  ∃ m g, m ∈ graph.directOf g ∧ graph.table.name? m = some member ∧
    graph.table.name? g = some group

theorem wellFormed_empty : WellFormed .empty :=
  ⟨RoleTable.agrees_empty, rfl, fun id m hm => by simp [directOf, empty] at hm⟩

theorem not_records_empty : ¬ Records .empty member group := by
  intro ⟨m, g, hm, _⟩
  simp [directOf, empty] at hm

/-- Only a role that has a number has members. -/
theorem WellFormed.group_lt (h : graph.WellFormed) (hm : m ∈ graph.directOf g) :
    g < graph.table.size := by
  rw [← h.length_direct]
  by_contra hg
  rw [directOf, List.getElem?_eq_none (Nat.le_of_not_lt hg)] at hm
  simp at hm

/-! ### One step of building

A step may take in names and may record memberships. Names that have a number keep it, and what was
recorded stays recorded.
-/

/-- A later graph records what an earlier one does and `facts` besides. -/
structure Adds (graph later : Membership) (facts : String → String → Prop) : Prop where
  wellFormed : later.WellFormed
  names_prefix : graph.table.names <+: later.table.names
  records_iff : ∀ member group,
    later.Records member group ↔ graph.Records member group ∨ facts member group

theorem Adds.refl (h : graph.WellFormed) : Adds graph graph fun _ _ => False :=
  ⟨h, List.prefix_rfl, fun _ _ => by simp⟩

theorem Adds.trans {middle later : Membership} {facts facts' : String → String → Prop}
    (h : Adds graph middle facts) (h' : Adds middle later facts') :
    Adds graph later fun member group => facts member group ∨ facts' member group := by
  refine ⟨h'.wellFormed, h.names_prefix.trans h'.names_prefix, fun member group => ?_⟩
  rw [h'.records_iff, h.records_iff, or_assoc]

theorem Adds.congr {later : Membership} {facts facts' : String → String → Prop}
    (h : Adds graph later facts)
    (hfacts : ∀ member group, facts member group ↔ facts' member group) :
    Adds graph later facts' :=
  ⟨h.wellFormed, h.names_prefix, fun member group => by rw [h.records_iff, hfacts]⟩

theorem Adds.name? {later : Membership} {facts : String → String → Prop} {id : RoleId}
    {name : String} (h : Adds graph later facts) (hname : graph.table.name? id = some name) :
    later.table.name? id = some name :=
  RoleTable.name?_of_prefix h.names_prefix hname

theorem directOf_node (graph : Membership) (name : String) :
    (graph.node name).2.directOf = graph.directOf := by
  funext id
  show (graph.direct.rightpad _ [])[id]?.getD [] = graph.direct[id]?.getD []
  -- the lists that fill it up have no members
  rw [List.rightpad, List.getElem?_append, List.getElem?_replicate]
  grind

theorem wellFormed_node (h : graph.WellFormed) (name : String) :
    (graph.node name).2.WellFormed := by
  obtain ⟨hagrees, hprefix, -⟩ := RoleTable.intern_spec h.agrees name
  have hsize : graph.table.size ≤ (graph.table.intern name).2.size := hprefix.length_le
  refine ⟨hagrees, ?_, fun id m hm => ?_⟩
  · show (graph.direct.rightpad (graph.table.intern name).2.size []).length = _
    rw [List.length_rightpad, h.length_direct]
    exact Nat.max_eq_left hsize
  · rw [directOf_node] at hm
    exact Nat.lt_of_lt_of_le (h.direct_lt id m hm) hsize

theorem adds_node (h : graph.WellFormed) (name : String) :
    Adds graph (graph.node name).2 fun _ _ => False := by
  obtain ⟨-, hprefix, -⟩ := RoleTable.intern_spec h.agrees name
  have hsame : ∀ id, id < graph.table.size →
      (graph.node name).2.table.name? id = graph.table.name? id := by
    intro id hid
    unfold RoleTable.name?
    rw [List.getElem?_eq_getElem hid]
    exact List.prefix_iff_getElem?.1 hprefix id hid
  refine ⟨wellFormed_node h name, hprefix, fun member group => ?_⟩
  rw [or_false, Records, Records, directOf_node]
  refine exists_congr fun m => exists_congr fun g => and_congr_right fun hm => ?_
  rw [hsame m (h.direct_lt g m hm), hsame g (h.group_lt hm)]

theorem name?_node (h : graph.WellFormed) (name : String) :
    (graph.node name).2.table.name? (graph.node name).1 = some name :=
  (RoleTable.intern_spec h.agrees name).2.2

/-- The graph in which one more number stands among the direct members of another. -/
def attach (graph : Membership) (m g : RoleId) : Membership :=
  { graph with direct := graph.direct.modify g (· ++ [m]) }

theorem mem_directOf_attach_iff {x y : RoleId} (hg : g < graph.direct.length) :
    x ∈ (graph.attach m g).directOf y ↔ x ∈ graph.directOf y ∨ x = m ∧ y = g := by
  unfold attach directOf
  rw [List.getElem?_modify]
  by_cases hy : g = y
  · subst hy
    rw [List.getElem?_eq_getElem hg]
    simp
  · simp [hy, Ne.symm hy]

theorem adds_attach (h : graph.WellFormed) (hm : graph.table.name? m = some member)
    (hg : graph.table.name? g = some group) :
    Adds graph (graph.attach m g) fun x y => x = member ∧ y = group := by
  obtain ⟨hmlt, -⟩ := List.getElem?_eq_some_iff.1 hm
  obtain ⟨hglt, -⟩ := List.getElem?_eq_some_iff.1 hg
  have hmem : ∀ x y, x ∈ (graph.attach m g).directOf y ↔ x ∈ graph.directOf y ∨ x = m ∧ y = g :=
    fun x y => mem_directOf_attach_iff (Nat.lt_of_lt_of_eq hglt h.length_direct.symm)
  refine ⟨⟨h.agrees, ?_, fun id x hx => ?_⟩, List.prefix_rfl, fun member' group' => ?_⟩
  · exact (List.length_modify _ _ _).trans h.length_direct
  · rcases (hmem x id).1 hx with hx | ⟨rfl, -⟩
    · exact h.direct_lt id x hx
    · exact hmlt
  · -- numbers and names determine each other
    show (∃ x y, x ∈ (graph.attach m g).directOf y ∧ graph.table.name? x = some member' ∧
      graph.table.name? y = some group') ↔ _
    simp only [hmem]
    constructor
    · rintro ⟨x, y, hx | ⟨rfl, rfl⟩, hmember, hgroup⟩
      · exact .inl ⟨x, y, hx, hmember, hgroup⟩
      · exact .inr ⟨Option.some.inj (hmember.symm.trans hm),
          Option.some.inj (hgroup.symm.trans hg)⟩
    · rintro (⟨x, y, hx, hmember, hgroup⟩ | ⟨rfl, rfl⟩)
      · exact ⟨x, y, .inl hx, hmember, hgroup⟩
      · exact ⟨m, g, .inr ⟨rfl, rfl⟩, hm, hg⟩

theorem adds_join (h : graph.WellFormed) (hm : graph.table.name? m = some member)
    (group : String) :
    Adds graph (graph.join m group) fun x y => x = member ∧ y = group := by
  have hnode := adds_node h group
  have hattach := adds_attach hnode.wellFormed (hnode.name? hm) (name?_node h group)
  exact (hnode.trans hattach).congr fun x y => by rw [false_or]

/-! ### All entries -/

theorem adds_foldl_join (h : graph.WellFormed) (hm : graph.table.name? m = some member)
    (groups : List String) :
    Adds graph (groups.foldl (·.join m) graph) fun x y => x = member ∧ y ∈ groups := by
  induction groups generalizing graph with
  | nil => exact (Adds.refl h).congr fun x y => by simp
  | cons group groups ih =>
    have hfirst := adds_join h hm group
    have hrest := ih hfirst.wellFormed (hfirst.name? hm)
    refine (hfirst.trans hrest).congr fun x y => ?_
    rw [← and_or_left, List.mem_cons]

theorem adds_enroll (h : graph.WellFormed) (role : String) (groups : List String) :
    Adds graph (graph.enroll role groups) fun x y => x = role ∧ y ∈ groups := by
  have hnode := adds_node h role
  have hjoin := adds_foldl_join hnode.wellFormed (name?_node h role) groups
  exact (hnode.trans hjoin).congr fun x y => by rw [false_or]

theorem adds_foldl_enroll {entries : List (String × RoleConfig)} (h : graph.WellFormed) :
    Adds graph (entries.foldl (fun graph (role, config) => graph.enroll role config.memberOf) graph)
      fun x y => ∃ config, (x, config) ∈ entries ∧ y ∈ config.memberOf := by
  induction entries generalizing graph with
  | nil => exact (Adds.refl h).congr fun x y => by simp
  | cons entry entries ih =>
    obtain ⟨role, config⟩ := entry
    have hfirst := adds_enroll h role config.memberOf
    refine (hfirst.trans (ih hfirst.wellFormed)).congr fun x y => ?_
    simp only [List.mem_cons, Prod.mk.injEq, or_and_right, exists_or, and_assoc,
      exists_and_left, exists_eq_left]

theorem wellFormed_ofSpec (spec : Spec) : (ofSpec spec).WellFormed :=
  (adds_foldl_enroll wellFormed_empty).wellFormed

/-- The graph of a spec records what the entries of the spec say. -/
theorem records_ofSpec_iff {spec : Spec} :
    (ofSpec spec).Records member group ↔ spec.Joins member group := by
  rw [ofSpec, (adds_foldl_enroll wellFormed_empty).records_iff, or_iff_right not_records_empty,
    Spec.Joins]

/-! ## The search -/

section Search
variable {next : RoleId → List RoleId} {frontier unvisited : List RoleId} {x y : RoleId}

theorem mem_common_iff : x ∈ common frontier unvisited ↔ x ∈ unvisited ∧ x ∈ frontier := by
  simp [common]

theorem mem_others_iff : x ∈ others frontier unvisited ↔ x ∈ unvisited ∧ x ∉ frontier := by
  simp [others]

/-- Nothing is found but what a chain from the frontier leads to. -/
theorem exists_transGen_of_mem_reach (h : y ∈ reach next frontier unvisited) :
    ∃ x ∈ frontier, TransGen (fun a b => b ∈ next a) x y := by
  induction frontier, unvisited using reach.induct next with
  | case1 unvisited => simp [reach] at h
  | case2 unvisited current rest found ih =>
    rw [reach, List.mem_append] at h
    rcases h with h | h
    · exact ⟨current, List.mem_cons_self, .single h⟩
    · obtain ⟨x, hx, hchain⟩ := ih h
      rcases List.mem_append.1 hx with hx | hx
      · -- `x` itself is one step behind `current`
        exact ⟨current, List.mem_cons_self, .head (mem_common_iff.1 hx).2 hchain⟩
      · exact ⟨x, List.mem_cons_of_mem current hx, hchain⟩

/-- What the frontier leads to in one step is found. -/
theorem mem_reach_of_mem_frontier (hx : x ∈ frontier) (hy : y ∈ next x) :
    y ∈ reach next frontier unvisited := by
  induction frontier, unvisited using reach.induct next with
  | case1 unvisited => simp at hx
  | case2 unvisited current rest found ih =>
    rw [reach, List.mem_append]
    rcases List.mem_cons.1 hx with rfl | hx
    · exact .inl hy
    · exact .inr (ih (List.mem_append_right _ hx))

/-- Whatever is found for the first time is followed in its turn. -/
theorem mem_reach_of_mem_unvisited (hx : x ∈ unvisited) (hfound : x ∈ reach next frontier unvisited)
    (hy : y ∈ next x) : y ∈ reach next frontier unvisited := by
  induction frontier, unvisited using reach.induct next with
  | case1 unvisited => simp [reach] at hfound
  | case2 unvisited current rest found ih =>
    rw [reach, List.mem_append] at hfound ⊢
    by_cases hnow : x ∈ next current
    · -- it goes to the frontier
      have hfrontier : x ∈ common found unvisited ++ rest :=
        List.mem_append_left _ (mem_common_iff.2 ⟨hx, hnow⟩)
      exact .inr (mem_reach_of_mem_frontier hfrontier hy)
    · -- it is found later
      exact .inr (ih (mem_others_iff.2 ⟨hx, hnow⟩) (hfound.resolve_left hnow))

/-- A search from one number finds what can be reached from it in one step or more. -/
theorem mem_reach_iff {start size : RoleId} (hnext : ∀ a, ∀ b ∈ next a, b < size) :
    y ∈ reach next [start] (others [start] (List.range size)) ↔
      TransGen (fun a b => b ∈ next a) start y := by
  constructor
  · intro h
    obtain ⟨x, hx, hchain⟩ := exists_transGen_of_mem_reach h
    rwa [List.mem_singleton.1 hx] at hchain
  · intro h
    induction h with
    | single hstep => exact mem_reach_of_mem_frontier List.mem_cons_self hstep
    | @tail b c hchain hstep ih =>
      by_cases hb : b = start
      · exact mem_reach_of_mem_frontier (List.mem_singleton.2 hb) hstep
      · -- a number on the way is below the size, since something leads to it
        have hlt : b < size := by
          obtain ⟨a, -, ha⟩ := TransGen.tail'_iff.1 hchain
          exact hnext a b ha
        have hunvisited : b ∈ others [start] (List.range size) :=
          mem_others_iff.2 ⟨List.mem_range.2 hlt, by simpa using hb⟩
        exact mem_reach_of_mem_unvisited hunvisited ih hstep

end Search

/-! ## Members -/

theorem WellFormed.id_unique {name : String} {a b : RoleId} (h : graph.WellFormed)
    (ha : graph.table.name? a = some name) (hb : graph.table.name? b = some name) : a = b := by
  rw [← h.agrees] at ha hb
  exact Option.some.inj (ha.symm.trans hb)

/-- Chains of numbers and chains of names are the same. -/
theorem WellFormed.transGen_iff (h : graph.WellFormed) (hg : graph.table.name? g = some group) :
    (∃ m, TransGen (fun a b => b ∈ graph.directOf a) g m ∧ graph.table.name? m = some member) ↔
      TransGen graph.Records member group := by
  constructor
  · rintro ⟨m, hchain, hm⟩
    induction hchain generalizing member with
    | single hstep => exact .single ⟨_, _, hstep, hm, hg⟩
    | @tail b c hchain hstep ih =>
      have hb : b < graph.table.size := h.group_lt hstep
      have hname : graph.table.name? b = some graph.table.names[b] := List.getElem?_eq_getElem hb
      exact .head ⟨c, b, hstep, hm, hname⟩ (ih hname)
  · intro hchain
    induction hchain using TransGen.head_induction_on with
    | single hstep =>
      obtain ⟨m, g', hm, hmember, hgroup⟩ := hstep
      rw [h.id_unique hgroup hg] at hm
      exact ⟨m, .single hm, hmember⟩
    | head hstep hrest ih =>
      obtain ⟨b, hchain, hb⟩ := ih
      obtain ⟨m, b', hm, hmember, hb'⟩ := hstep
      rw [h.id_unique hb' hb] at hm
      exact ⟨m, hchain.tail hm, hmember⟩

/-- The members of a group are the roles that a chain of entries leads from. -/
theorem mem_membersOf_iff {spec : Spec} :
    member ∈ (ofSpec spec).membersOf group ↔ TransGen spec.Joins member group := by
  have hwell := wellFormed_ofSpec spec
  have hjoins : (ofSpec spec).Records = spec.Joins :=
    funext fun x => funext fun y => propext records_ofSpec_iff
  unfold membersOf
  split
  next hid =>
    -- no entry names the group
    have hnone : ∀ x, ¬ (ofSpec spec).Records x group := by
      rintro x ⟨m, g, -, -, hg⟩
      rw [(hwell.agrees group g).2 hg] at hid
      cases hid
    refine iff_of_false (OrderedSet.not_mem_empty member) fun hchain => ?_
    obtain ⟨x, -, hx⟩ := TransGen.tail'_iff.1 hchain
    exact hnone x (hjoins ▸ hx)
  next g hid =>
    have hg := (hwell.agrees group g).1 hid
    rw [OrderedSet.mem_ofList, List.mem_filterMap, ← hjoins, ← hwell.transGen_iff hg]
    refine exists_congr fun m => and_congr_left fun _ => ?_
    exact mem_reach_iff hwell.direct_lt

end Membership

/-! ## Chains and cycles of entries -/

variable {spec : Spec} {member group role : String}

/-- A chain leads from a member to a group: each of its names but the last is a role whose entry
names the next one as a group. -/
theorem Spec.exists_chain_iff :
    (∃ between, (member :: (between ++ [group])).IsChain spec.Joins) ↔
      TransGen spec.Joins member group := by
  constructor
  · intro ⟨between, hchain⟩
    induction between generalizing member with
    | nil => exact .single (List.isChain_pair.1 hchain)
    | cons name between ih =>
      rw [List.cons_append, List.isChain_cons_cons] at hchain
      exact .head hchain.1 (ih hchain.2)
  · intro h
    induction h using TransGen.head_induction_on with
    | single hjoins => exact ⟨[], List.isChain_pair.2 hjoins⟩
    | @head member name hjoins hrest ih =>
      obtain ⟨between, hchain⟩ := ih
      exact ⟨name :: between, hchain.cons_cons hjoins⟩

/-- A cycle can be entered at each of its names. -/
theorem Spec.exists_cycle_iff :
    (∃ cycle : Cycle String, role ∈ cycle ∧ cycle.Chain spec.Joins) ↔
      TransGen spec.Joins role role := by
  rw [← Spec.exists_chain_iff]
  constructor
  · intro ⟨cycle, hrole, hchain⟩
    obtain ⟨names, rfl⟩ := Quotient.exists_rep cycle
    obtain ⟨before, after, rfl⟩ := List.append_of_mem hrole
    have hrotate : ((before ++ role :: after : List String) : Cycle String) =
        (role :: (after ++ before) : List String) :=
      Cycle.coe_eq_coe.2 List.isRotated_append
    have hchain : ((role :: (after ++ before) : List String) : Cycle String).Chain spec.Joins :=
      hrotate ▸ hchain
    exact ⟨after ++ before, (Cycle.chain_coe_cons _ _ _).1 hchain⟩
  · intro ⟨between, hchain⟩
    exact ⟨(role :: between : List String), List.mem_cons_self, (Cycle.chain_coe_cons _ _ _).2 hchain⟩

/-- The search for the members of a group finds the names from which a chain of entries leads to the
group. So the group is among its own members just when it lies on a cycle of entries. It has members
just when an entry names it, whether or not it has an entry of its own. -/
theorem Membership.members_iff_chain (spec : Spec) (group : String) :
    (∀ member, member ∈ (ofSpec spec).membersOf group ↔
      ∃ between, (member :: (between ++ [group])).IsChain spec.Joins) ∧
    (group ∈ (ofSpec spec).membersOf group ↔
      ∃ cycle : Cycle String, group ∈ cycle ∧ cycle.Chain spec.Joins) ∧
    ((∃ member, member ∈ (ofSpec spec).membersOf group) ↔ ∃ member, spec.Joins member group) := by
  refine ⟨fun member => ?_, ?_, ?_⟩
  · rw [mem_membersOf_iff, Spec.exists_chain_iff]
  · rw [mem_membersOf_iff, Spec.exists_cycle_iff]
  · constructor
    · intro ⟨member, hmember⟩
      obtain ⟨last, -, hlast⟩ := TransGen.tail'_iff.1 (mem_membersOf_iff.1 hmember)
      exact ⟨last, hlast⟩
    · intro ⟨member, hjoins⟩
      exact ⟨member, mem_membersOf_iff.2 (.single hjoins)⟩

end GrantPlan
