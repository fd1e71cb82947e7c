import GrantPlan.Proofs.RoleShare
/-!
# The order of a plan

Every statement has a place in the plans for a spec: by its role, its kind, the access level that
its verb belongs to, the group of its form, and at last the names that it is about
(`Spec.compareStatements`). A plan lists its statements in this order (`plan_ordered`), so it is
determined by the set of its statements.

The access level is no part of a statement. It can be told from the verb, because no verb of a kind
belongs to two levels, and a plan grants and revokes no other verbs.
-/

namespace GrantPlan

open Std

/-! ## Places -/

/-- Where a statement that is no note stands among the statements about its role. -/
structure Statement.Place where
  kind : ObjectKind
  /-- The access level of the verb, if it has one. -/
  access? : Option Access
  /-- The number of the group: what is granted, what is revoked, what is granted on future objects,
  and what is revoked on future objects. -/
  group : Nat
  /-- The object and the verb, or the grantor, the schema and the verb. -/
  key : List String
deriving DecidableEq, Repr

/-- By kind, access level and group, then by the key from its first name to its last, names being
compared character by character. -/
instance : Ord Statement.Place :=
  ⟨compareLex (compareOn (·.kind)) (compareLex (compareOn (·.access?))
    (compareLex (compareOn (·.group)) (compareOn (·.key))))⟩

instance : TransOrd Statement.Place :=
  inferInstanceAs (TransCmp (compareLex (compareOn Statement.Place.kind)
    (compareLex (compareOn Statement.Place.access?)
      (compareLex (compareOn Statement.Place.group) (compareOn Statement.Place.key)))))

theorem Statement.Place.compare_eq (place place' : Place) :
    compare place place' = (compare place.kind place'.kind).then
      ((compare place.access? place'.access?).then
        ((compare place.group place'.group).then (compare place.key place'.key))) := rfl

/-- The names that a privilege is about. -/
def Privilege.key (p : Privilege) : List String := [p.object, p.verb]

/-- The names that a default privilege is about. -/
def DefaultPrivilege.key (p : DefaultPrivilege) : List String := [p.grantor, p.schema, p.verb]

theorem Privilege.compare_key (p p' : Privilege) : compare p.key p'.key = compare p p' := by
  show List.compareLex compare _ _ = (compare p.object p'.object).then (compare p.verb p'.verb)
  simp [key, List.compareLex_cons_cons, List.compareLex_nil_nil]

theorem DefaultPrivilege.compare_key (p p' : DefaultPrivilege) :
    compare p.key p'.key = compare p p' := by
  show List.compareLex compare _ _ = (compare p.grantor p'.grantor).then
    ((compare p.schema p'.schema).then (compare p.verb p'.verb))
  simp [key, List.compareLex_cons_cons, List.compareLex_nil_nil]

namespace Statement

/-- The place of a statement among the statements about its role. A note has none, and comes
first. -/
def place? : Statement → Option Place
  | grant _ kind p => some ⟨kind, kind.accessFor? p.verb, 0, p.key⟩
  | revoke _ kind p => some ⟨kind, kind.accessFor? p.verb, 1, p.key⟩
  | grantDefault _ kind p => some ⟨kind, kind.accessFor? p.verb, 2, p.key⟩
  | revokeDefault _ kind p => some ⟨kind, kind.accessFor? p.verb, 3, p.key⟩
  | skipSuperuser _ => none

/-- Whether a statement comes in front of another one about the same role. -/
def IsBefore (s t : Statement) : Prop := compare s.place? t.place? = .lt

end Statement

/-- The place of a role in a spec. -/
def Spec.position (spec : Spec) (role : String) : Nat := (spec.roles.map Prod.fst).idxOf role

/-- The order of statements in the plans for a spec. -/
def Spec.compareStatements (spec : Spec) : Statement → Statement → Ordering :=
  compareLex (compareOn fun s => spec.position s.role) (compareOn Statement.place?)

instance (spec : Spec) : TransCmp spec.compareStatements :=
  inferInstanceAs (TransCmp (compareLex (compareOn fun s : Statement => spec.position s.role)
    (compareOn Statement.place?)))

variable {spec : Spec} {authority : Authority} {catalog : Catalog} {role : String}
  {config : RoleConfig} {scope : Scope} {wanted : Wanted} {statements : List Statement}

theorem Spec.compareStatements_of_position_lt {s t : Statement}
    (h : spec.position s.role < spec.position t.role) : spec.compareStatements s t = .lt := by
  have hposition : compare (spec.position s.role) (spec.position t.role) = .lt :=
    Nat.compare_eq_lt.2 h
  simp [compareStatements, compareLex, compareOn, hposition]

theorem Spec.compareStatements_of_isBefore {s t : Statement} (hrole : s.role = t.role)
    (h : s.IsBefore t) : spec.compareStatements s t = .lt := by
  rw [Statement.IsBefore] at h
  simp [compareStatements, compareLex, compareOn, hrole, h]

/-! ## The order within a scope -/

namespace Entitlement

/-- The group of the statement that awards an entitlement. The one that withdraws it stands in the
next group. -/
def group : Entitlement → Nat
  | onObject _ => 0
  | onFuture _ => 2

/-- The names that an entitlement is about. -/
def key : Entitlement → List String
  | onObject grant => grant.privilege.key
  | onFuture grant => grant.privilege.key

end Entitlement

namespace Scope

/-- The verb of an entitlement tells the level of the scope that decides on it. -/
theorem Covers.accessFor?_verb {e : Entitlement} (h : scope.Covers e) :
    e.kind.accessFor? e.verb = some scope.access := by
  rw [ObjectKind.accessFor?_eq_some_iff, h.kind_eq]
  exact h.verb_mem

/-- The place of a statement of a scope, by its group and its key. -/
def place (scope : Scope) (group : Nat) (key : List String) : Statement.Place :=
  ⟨scope.kind, some scope.access, group, key⟩

/-- Whether a statement stands in a group of a scope. -/
def InGroup (scope : Scope) (group : Nat) (s : Statement) : Prop :=
  ∃ key, s.place? = some (scope.place group key)

theorem Covers.place?_award {e : Entitlement} (h : scope.Covers e) :
    e.award.place? = some (scope.place e.group e.key) := by
  rw [place, ← h.kind_eq, ← h.accessFor?_verb]
  cases e <;> rfl

theorem Covers.place?_withdraw {e : Entitlement} (h : scope.Covers e) :
    e.withdraw.place? = some (scope.place (e.group + 1) e.key) := by
  rw [place, ← h.kind_eq, ← h.accessFor?_verb]
  cases e <;> rfl

theorem isBefore_of_group_lt {group group' : Nat} {s t : Statement} (hs : scope.InGroup group s)
    (ht : scope.InGroup group' t) (h : group < group') : s.IsBefore t := by
  obtain ⟨key, hs⟩ := hs
  obtain ⟨key', ht⟩ := ht
  rw [Statement.IsBefore, hs, ht]
  show compare (scope.place group key) (scope.place group' key') = .lt
  simp [Statement.Place.compare_eq, place, Nat.compare_eq_lt.2 h]

/-- A group that lists a set is in the order of the set. -/
theorem pairwise_isBefore_map {α : Type} [Ord α] (set : OrderedSet α) {make : α → Statement}
    {group : Nat} {key : α → List String}
    (hplace : ∀ a ∈ set, (make a).place? = some (scope.place group (key a)))
    (hkey : ∀ a b, compare (key a) (key b) = compare a b) :
    (set.toList.map make).Pairwise Statement.IsBefore := by
  rw [List.pairwise_map]
  refine set.increasing.imp_of_mem fun {a b} ha hb hab => ?_
  rw [Statement.IsBefore, hplace a ha, hplace b hb]
  show compare (scope.place group (key a)) (scope.place group (key b)) = .lt
  simp [Statement.Place.compare_eq, place, hkey, hab]

/-- The statements of a scope come in order. -/
theorem pairwise_isBefore_changes (hfits : wanted.FitsIn scope) :
    (scope.changes catalog wanted).Pairwise Statement.IsBefore := by
  -- the places of the four groups, of which each lists a set of privileges with verbs of the scope
  have hgrants : ∀ p ∈ wanted.privileges.diff (scope.held catalog),
      (Statement.grant scope.role scope.kind p).place? = some (scope.place 0 p.key) := fun p hp =>
    (covers_onObject (hfits.verb_mem p (OrderedSet.mem_diff.1 hp).1)).place?_award
  have hrevokes : ∀ p ∈ (scope.held catalog).diff wanted.privileges,
      (Statement.revoke scope.role scope.kind p).place? = some (scope.place 1 p.key) := fun p hp =>
    (covers_onObject (mem_held_iff.1 (OrderedSet.mem_diff.1 hp).1).2).place?_withdraw
  have hdefaults : ∀ p ∈ wanted.defaults.diff (scope.heldDefaults catalog),
      (Statement.grantDefault scope.role scope.kind p).place? = some (scope.place 2 p.key) := by
    intro p hp
    have hwanted := (OrderedSet.mem_diff.1 hp).1
    exact (covers_onFuture (hfits.default_verb_mem p hwanted)
      (hfits.hasDefaults p hwanted)).place?_award
  have hundefaults : ∀ p ∈ (scope.heldDefaults catalog).diff wanted.defaults,
      (Statement.revokeDefault scope.role scope.kind p).place? = some (scope.place 3 p.key) := by
    intro p hp
    obtain ⟨hkind, -, hverb⟩ := mem_heldDefaults_iff.1 (OrderedSet.mem_diff.1 hp).1
    exact (covers_onFuture hverb hkind).place?_withdraw
  simp only [changes, List.pairwise_append, List.mem_append, List.mem_map, OrderedSet.mem_toList]
  refine ⟨⟨⟨pairwise_isBefore_map _ hgrants Privilege.compare_key,
    pairwise_isBefore_map _ hrevokes Privilege.compare_key, ?_⟩,
    pairwise_isBefore_map _ hdefaults DefaultPrivilege.compare_key, ?_⟩,
    pairwise_isBefore_map _ hundefaults DefaultPrivilege.compare_key, ?_⟩
  -- every group that is appended comes behind all groups in front of it
  · rintro _ ⟨p, hp, rfl⟩ _ ⟨q, hq, rfl⟩
    exact isBefore_of_group_lt ⟨_, hgrants p hp⟩ ⟨_, hrevokes q hq⟩ (by decide)
  · rintro _ (⟨p, hp, rfl⟩ | ⟨p, hp, rfl⟩) _ ⟨q, hq, rfl⟩
    · exact isBefore_of_group_lt ⟨_, hgrants p hp⟩ ⟨_, hdefaults q hq⟩ (by decide)
    · exact isBefore_of_group_lt ⟨_, hrevokes p hp⟩ ⟨_, hdefaults q hq⟩ (by decide)
  · rintro _ ((⟨p, hp, rfl⟩ | ⟨p, hp, rfl⟩) | ⟨p, hp, rfl⟩) _ ⟨q, hq, rfl⟩
    · exact isBefore_of_group_lt ⟨_, hgrants p hp⟩ ⟨_, hundefaults q hq⟩ (by decide)
    · exact isBefore_of_group_lt ⟨_, hrevokes p hp⟩ ⟨_, hundefaults q hq⟩ (by decide)
    · exact isBefore_of_group_lt ⟨_, hdefaults p hp⟩ ⟨_, hundefaults q hq⟩ (by decide)

/-- Every statement of a scope stands in some group. -/
theorem exists_inGroup_of_mem_changes (hfits : wanted.FitsIn scope) {s : Statement}
    (hs : s ∈ scope.changes catalog wanted) : ∃ group, scope.InGroup group s := by
  obtain ⟨e, hcovers, ⟨rfl, -⟩ | ⟨rfl, -⟩⟩ := (mem_changes_iff hfits).1 hs
  · exact ⟨e.group, e.key, hcovers.place?_award⟩
  · exact ⟨e.group + 1, e.key, hcovers.place?_withdraw⟩

/-- A scope that comes earlier in the order of analysis has its statements earlier. -/
theorem isBefore_of_level_lt {scope' : Scope} {group group' : Nat} {s t : Statement}
    (hs : scope.InGroup group s) (ht : scope'.InGroup group' t)
    (h : compareLex (compareOn Scope.kind) (compareOn Scope.access) scope scope' = .lt) :
    s.IsBefore t := by
  obtain ⟨key, hs⟩ := hs
  obtain ⟨key', ht⟩ := ht
  rw [Statement.IsBefore, hs, ht]
  show compare (scope.place group key) (scope'.place group' key') = .lt
  have haccess : compare (some scope.access) (some scope'.access) =
    compare scope.access scope'.access := rfl
  rw [Statement.Place.compare_eq, place, place, haccess]
  -- kind and level decide, so group and key are not looked at
  simp only [compareLex, compareOn, Ordering.then_eq_lt] at h ⊢
  grind

end Scope

/-! ## The order of a plan -/

/-- Kinds and access levels are worked through in their order. -/
theorem pairwise_levels (role : String) : levels.Pairwise fun level later =>
    compareLex (compareOn Scope.kind) (compareOn Scope.access) ⟨role, level.1, level.2⟩
      ⟨role, later.1, later.2⟩ = .lt := by
  show levels.Pairwise fun level later =>
    compareLex (compareOn Prod.fst) (compareOn Prod.snd) level later = .lt
  decide

/-- What is planned for one role comes in order. -/
theorem pairwise_isBefore_planRole
    (h : planRole authority catalog role config = .ok statements) :
    statements.Pairwise Statement.IsBefore := by
  cases hrole : catalog.isSuperuser role with
  | true =>
    obtain rfl := (planRole_superuser_eq_ok_iff hrole).1 h
    exact List.pairwise_singleton _ _
  | false =>
    obtain ⟨parts, hparts, rfl⟩ := (planRole_eq_ok_iff hrole).1 h
    refine pairwise_flatten_of_mapM_eq_ok hparts ?_ ((pairwise_levels role).imp ?_)
    · -- within a scope
      rintro ⟨kind, access⟩ - block hblock
      obtain ⟨wanted, hwanted, rfl⟩ := Scope.plan_eq_ok_iff.1 hblock
      exact Scope.pairwise_isBefore_changes (Scope.fitsIn_of_wanted hwanted)
    · -- from a scope to a later one
      rintro ⟨kind, access⟩ ⟨kind', access'⟩ hlevel block block' hblock hblock' s hs t ht
      obtain ⟨wanted, hwanted, rfl⟩ := Scope.plan_eq_ok_iff.1 hblock
      obtain ⟨wanted', hwanted', rfl⟩ := Scope.plan_eq_ok_iff.1 hblock'
      obtain ⟨group, hs⟩ := Scope.exists_inGroup_of_mem_changes (Scope.fitsIn_of_wanted hwanted) hs
      obtain ⟨group', ht⟩ :=
        Scope.exists_inGroup_of_mem_changes (Scope.fitsIn_of_wanted hwanted') ht
      exact Scope.isBefore_of_level_lt hs ht hlevel

/-- Each role stands in a spec in front of those that come later. -/
theorem Spec.pairwise_position (spec : Spec) :
    spec.roles.Pairwise fun entry later => spec.position entry.1 < spec.position later.1 := by
  have hpositions : (spec.roles.map Prod.fst).Pairwise fun role later =>
      spec.position role < spec.position later := by
    refine List.pairwise_iff_getElem.2 fun i j hi hj hij => ?_
    rw [position, position, spec.nodup_roles.idxOf_getElem, spec.nodup_roles.idxOf_getElem]
    exact hij
  rwa [List.pairwise_map] at hpositions

/-- The statements of a plan come in order. -/
theorem pairwise_compareStatements_plan (hplan : plan spec catalog = .ok statements) :
    statements.Pairwise (spec.compareStatements · · = .lt) := by
  obtain ⟨parts, hparts, rfl⟩ := plan_eq_ok_iff.1 hplan
  refine pairwise_flatten_of_mapM_eq_ok hparts ?_ (spec.pairwise_position.imp ?_)
  · -- within the share of a role
    rintro ⟨role, config⟩ - block hblock
    refine (pairwise_isBefore_planRole hblock).imp_of_mem fun hs ht hbefore => ?_
    refine Spec.compareStatements_of_isBefore ?_ hbefore
    rw [role_of_mem_planRole hblock hs, role_of_mem_planRole hblock ht]
  · -- from a role to a later one
    rintro ⟨role, config⟩ ⟨role', config'⟩ hposition block block' hblock hblock' s hs t ht
    refine Spec.compareStatements_of_position_lt ?_
    rw [role_of_mem_planRole hblock hs, role_of_mem_planRole hblock' ht]
    exact hposition

/-- A list in the order of the plans for a spec is determined by the set of its statements. -/
theorem Spec.eq_of_pairwise_compareStatements {others : List Statement}
    (h : statements.Pairwise (spec.compareStatements · · = .lt))
    (hothers : others.Pairwise (spec.compareStatements · · = .lt))
    (hmem : ∀ s, s ∈ others ↔ s ∈ statements) : others = statements := by
  -- both lists are increasing once statements are compared by their places in this spec
  let _ : Ord Statement := ⟨spec.compareStatements⟩
  have _ : TransOrd Statement := inferInstanceAs (TransCmp spec.compareStatements)
  exact eq_of_increasing_of_mem_iff hothers h hmem

/-! ## Notes and verbs -/

/-- The share of a superuser is a note. -/
theorem roleShare_superuser (hplan : plan spec catalog = .ok statements)
    (hconfig : (role, config) ∈ spec.roles) (hrole : catalog.isSuperuser role = true) :
    roleShare role statements = [.skipSuperuser role] :=
  (planRole_superuser_eq_ok_iff hrole).1 (planRole_eq_roleShare hplan hconfig)

/-- The roles with a note are the superusers. -/
theorem isSuperuser_iff_of_mem_plan (hplan : plan spec catalog = .ok statements) {s : Statement}
    (hs : s ∈ statements) : catalog.isSuperuser s.role = true ↔ s.isChange = false := by
  constructor
  · intro hrole
    obtain ⟨config, hconfig⟩ := role_mem_of_mem_plan hplan hs
    have hshare : s ∈ roleShare s.role statements := mem_roleShare.2 ⟨hs, rfl⟩
    rw [roleShare_superuser hplan hconfig hrole] at hshare
    rw [List.mem_singleton.1 hshare, Statement.isChange]
  · intro hnote
    rcases (mem_plan_iff hplan).1 hs with ⟨role, config, -, hrole, rfl⟩ | ⟨scope, wanted, h, hs⟩
    · exact hrole
    · -- what a scope changes is no note
      obtain ⟨e, -, ⟨rfl, -⟩ | ⟨rfl, -⟩⟩ := (Scope.mem_changes_iff h.fitsIn).1 hs
      · simp at hnote
      · simp at hnote

/-- Every verb that a plan grants or revokes belongs to an access level of its kind. -/
theorem exists_access_of_mem_plan (hplan : plan spec catalog = .ok statements) {e : Entitlement}
    (h : e.award ∈ statements ∨ e.withdraw ∈ statements) :
    ∃ access, e.kind.accessFor? e.verb = some access := by
  have hmanages : spec.Manages catalog e := by
    rcases h with haward | hwithdraw
    · exact ((award_mem_plan_iff hplan).1 haward).1.manages
    · exact ((withdraw_mem_plan_iff hplan).1 hwithdraw).1
  obtain ⟨access, hverb⟩ := hmanages.verb_mem
  exact ⟨access, ObjectKind.accessFor?_eq_some_iff.2 hverb⟩

/-- The statements of a plan increase in the order of the plans for its spec, so that no other list
in this order has the same statements. A plan is about roles of the spec, has nothing but a note for
each superuser and notes for no others, and changes nothing but verbs that are managed. -/
theorem plan_ordered (hplan : plan spec catalog = .ok statements) :
    statements.Pairwise (spec.compareStatements · · = .lt) ∧
    (∀ others : List Statement, others.Pairwise (spec.compareStatements · · = .lt) →
      (∀ s, s ∈ others ↔ s ∈ statements) → others = statements) ∧
    (∀ s ∈ statements, (∃ config, (s.role, config) ∈ spec.roles) ∧
      (catalog.isSuperuser s.role = true ↔ s.isChange = false)) ∧
    (∀ role config, (role, config) ∈ spec.roles → catalog.isSuperuser role = true →
      roleShare role statements = [.skipSuperuser role]) ∧
    ∀ e : Entitlement, e.award ∈ statements ∨ e.withdraw ∈ statements →
      ∃ access, e.kind.accessFor? e.verb = some access := by
  have hordered := pairwise_compareStatements_plan hplan
  refine ⟨hordered, fun others hothers hmem => ?_, fun s hs => ?_, ?_, ?_⟩
  · exact Spec.eq_of_pairwise_compareStatements hordered hothers hmem
  · exact ⟨role_mem_of_mem_plan hplan hs, isSuperuser_iff_of_mem_plan hplan hs⟩
  · exact fun role config hconfig hrole => roleShare_superuser hplan hconfig hrole
  · exact fun e he => exists_access_of_mem_plan hplan he

/-- In the small database the revocation of what the analyst may read comes in front of what it is
to read in the future, and the revocation of what it may write comes last. -/
theorem plan_ordered_ledger :
    plan ledgerSpec ledgerCatalog = .ok ledgerPlan ∧
    ledgerPlan.Pairwise (ledgerSpec.compareStatements · · = .lt) ∧
    roleShare "postgres" ledgerPlan = [.skipSuperuser "postgres"] ∧
    ∃ access, ObjectKind.accessFor? .tables "INSERT" = some access := by
  obtain ⟨hordered, -, -, hnotes, hverbs⟩ := plan_ordered plan_ledger
  have hpostgres : ("postgres", RoleConfig.default) ∈ ledgerSpec.roles := by decide
  refine ⟨plan_ledger, hordered, hnotes "postgres" _ hpostgres (by decide), ?_⟩
  exact hverbs (.onObject ⟨"analyst", .tables, "finance.\"ledger\"", "INSERT"⟩) (.inr (by decide))

end GrantPlan
