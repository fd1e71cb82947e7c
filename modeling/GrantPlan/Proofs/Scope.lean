import GrantPlan.Proofs.Entitlement
import GrantPlan.Proofs.Traversal
import GrantPlan.Scope
import Mathlib.Data.List.Nodup
/-!
# What a scope changes

A scope decides on the entitlements of one role on one kind of object by the verbs of one access
level (`Scope.Covers`). Since no verb belongs to two levels of a kind, no entitlement is decided on
in two scopes (`Scope.Covers.unique`).

The statements of a scope are the difference of two sets (`mem_changes_iff`): they award what is
wanted and not held, and withdraw what is held and not wanted.
-/

namespace GrantPlan

namespace Scope

/-- The entitlements that a scope decides on. -/
structure Covers (scope : Scope) (e : Entitlement) : Prop where
  role_eq : e.role = scope.role
  kind_eq : e.kind = scope.kind
  verb_mem : e.verb ∈ scope.verbs
  supported : e.IsSupported

theorem covers_onObject {scope : Scope} {p : Privilege} (hverb : p.verb ∈ scope.verbs) :
    scope.Covers (.onObject ⟨scope.role, scope.kind, p⟩) :=
  ⟨rfl, rfl, hverb, trivial⟩

theorem covers_onFuture {scope : Scope} {p : DefaultPrivilege} (hverb : p.verb ∈ scope.verbs)
    (hdefaults : scope.kind.hasDefaults = true) :
    scope.Covers (.onFuture ⟨scope.role, scope.kind, p⟩) :=
  ⟨rfl, rfl, hverb, hdefaults⟩

/-- No entitlement is decided on in two scopes. -/
theorem Covers.unique {scope scope' : Scope} {e : Entitlement} (h : scope.Covers e)
    (h' : scope'.Covers e) : scope = scope' := by
  obtain ⟨role, kind, access⟩ := scope
  obtain ⟨role', kind', access'⟩ := scope'
  obtain rfl : role = role' := h.role_eq.symm.trans h'.role_eq
  obtain rfl : kind = kind' := h.kind_eq.symm.trans h'.kind_eq
  -- the verb tells the level
  have hlevel : kind.accessFor? e.verb = some access :=
    ObjectKind.accessFor?_eq_some_iff.2 h.verb_mem
  have hlevel' : kind.accessFor? e.verb = some access' :=
    ObjectKind.accessFor?_eq_some_iff.2 h'.verb_mem
  obtain rfl : access = access' := Option.some.inj (hlevel.symm.trans hlevel')
  rfl

end Scope

/-- Whether the privilege of an entitlement is among the privileges wanted. -/
def Wanted.Asks (wanted : Wanted) : Entitlement → Prop
  | .onObject grant => grant.privilege ∈ wanted.privileges
  | .onFuture grant => grant.privilege ∈ wanted.defaults

/-- Only privileges that the scope can decide on are wanted. -/
structure Wanted.FitsIn (wanted : Wanted) (scope : Scope) : Prop where
  verb_mem : ∀ p ∈ wanted.privileges, p.verb ∈ scope.verbs
  default_verb_mem : ∀ p ∈ wanted.defaults, p.verb ∈ scope.verbs
  hasDefaults : ∀ p ∈ wanted.defaults, scope.kind.hasDefaults = true

namespace Scope

variable {authority : Authority} {catalog : Catalog} {scope : Scope} {items : List String}
  {request : Request} {wanted : Wanted}

/-! ## The privileges wanted -/

@[simp] theorem mem_wantedPrivileges {p : Privilege} :
    p ∈ scope.wantedPrivileges request ↔ p.object ∈ request.objects ∧ p.verb ∈ scope.verbs := by
  simp only [wantedPrivileges, OrderedSet.mem_ofList, List.mem_flatMap, OrderedSet.mem_toList,
    List.mem_map]
  constructor
  · rintro ⟨object, hobject, verb, hverb, rfl⟩
    exact ⟨hobject, hverb⟩
  · rintro ⟨hobject, hverb⟩
    exact ⟨p.object, hobject, p.verb, hverb, rfl⟩

@[simp] theorem mem_wantedDefaults {p : DefaultPrivilege} :
    p ∈ scope.wantedDefaults authority request ↔ scope.kind.hasDefaults = true ∧
      p.schema ∈ request.schemas ∧ p.grantor ∈ authority.writersOf p.schema ∧
      p.grantor ≠ scope.role ∧ p.verb ∈ scope.verbs := by
  unfold wantedDefaults
  split
  next hdefaults =>
    simp only [OrderedSet.mem_ofList, List.mem_flatMap, OrderedSet.mem_toList, List.mem_map,
      OrderedSet.mem_erase, hdefaults, true_and]
    constructor
    · rintro ⟨schema, hschema, grantor, ⟨hwriter, hforeign⟩, verb, hverb, rfl⟩
      exact ⟨hschema, hwriter, hforeign, hverb⟩
    · rintro ⟨hschema, hwriter, hforeign, hverb⟩
      exact ⟨p.schema, hschema, p.grantor, ⟨hwriter, hforeign⟩, p.verb, hverb, rfl⟩
  next hdefaults => simp [hdefaults]

theorem wanted_eq_ok_iff :
    scope.wanted authority catalog items = .ok wanted ↔
      ∃ request, scope.requests authority catalog items = .ok request ∧
        wanted = ⟨scope.wantedPrivileges request, scope.wantedDefaults authority request⟩ := by
  simp only [Scope.wanted, bind_eq_ok_iff, pure_eq_ok_iff, eq_comm (b := wanted)]

/-- A list of targets can be read when each of its items can. -/
theorem exists_wanted_iff :
    (∃ wanted, scope.wanted authority catalog items = .ok wanted) ↔
      ∀ item ∈ items, ∃ part, scope.request authority catalog (Target.ofText item) = .ok part := by
  simp only [Scope.wanted, requests, exists_bind_pure_eq_ok_iff, exists_mapM_eq_ok_iff]

theorem request_congr {catalog' : Catalog} (h : catalog'.owners = catalog.owners)
    (target : Target) :
    scope.request authority catalog' target = scope.request authority catalog target := by
  cases target <;> simp only [request, Catalog.owner?, h]

/-- What targets ask for depends on who owns what, and on nothing else in a catalog. -/
theorem wanted_congr {catalog' : Catalog} (h : catalog'.owners = catalog.owners) :
    scope.wanted authority catalog' items = scope.wanted authority catalog items := by
  have hforeign : scope.foreignObjects catalog' = scope.foreignObjects catalog := by
    funext schema
    simp only [foreignObjects, Catalog.objectsIn, h]
  simp only [Scope.wanted, requests, request_congr h, hforeign]

theorem fitsIn_of_wanted (h : scope.wanted authority catalog items = .ok wanted) :
    wanted.FitsIn scope := by
  obtain ⟨request, -, rfl⟩ := wanted_eq_ok_iff.1 h
  exact
    { verb_mem := fun p hp => (mem_wantedPrivileges.1 hp).2
      default_verb_mem := fun p hp => (mem_wantedDefaults.1 hp).2.2.2.2
      hasDefaults := fun p hp => (mem_wantedDefaults.1 hp).1 }

/-! ## The privileges held -/

theorem mem_held_iff {p : Privilege} :
    p ∈ scope.held catalog ↔
      catalog.Holds (.onObject ⟨scope.role, scope.kind, p⟩) ∧ p.verb ∈ scope.verbs :=
  Catalog.mem_held_iff

theorem mem_heldDefaults_iff {p : DefaultPrivilege} :
    p ∈ scope.heldDefaults catalog ↔ scope.kind.hasDefaults = true ∧
      catalog.Holds (.onFuture ⟨scope.role, scope.kind, p⟩) ∧ p.verb ∈ scope.verbs := by
  unfold heldDefaults
  split
  next hdefaults => simp only [Catalog.mem_heldDefaults_iff, verbs, hdefaults, true_and]
  next hdefaults => simp [hdefaults]

/-! ## The difference -/

/-- The statements of a scope award what is wanted and not held, and withdraw what is held and not
wanted. -/
theorem mem_changes_iff (hfits : wanted.FitsIn scope) {s : Statement} :
    s ∈ scope.changes catalog wanted ↔ ∃ e, scope.Covers e ∧
      (s = e.award ∧ wanted.Asks e ∧ ¬ catalog.Holds e ∨
        s = e.withdraw ∧ ¬ wanted.Asks e ∧ catalog.Holds e) := by
  simp only [changes, List.mem_append, List.mem_map, OrderedSet.mem_toList, OrderedSet.mem_diff,
    mem_held_iff, mem_heldDefaults_iff]
  constructor
  · -- the four parts of the list, in their order
    rintro (((⟨p, ⟨hwanted, hheld⟩, rfl⟩ | ⟨p, ⟨⟨hheld, hverb⟩, hwanted⟩, rfl⟩) |
      ⟨p, ⟨hwanted, hheld⟩, rfl⟩) | ⟨p, ⟨⟨hdefaults, hheld, hverb⟩, hwanted⟩, rfl⟩)
    · have hverb := hfits.verb_mem p hwanted
      exact ⟨_, covers_onObject hverb, .inl ⟨rfl, hwanted, fun h => hheld ⟨h, hverb⟩⟩⟩
    · exact ⟨_, covers_onObject hverb, .inr ⟨rfl, hwanted, hheld⟩⟩
    · have hverb := hfits.default_verb_mem p hwanted
      have hdefaults := hfits.hasDefaults p hwanted
      exact ⟨_, covers_onFuture hverb hdefaults,
        .inl ⟨rfl, hwanted, fun h => hheld ⟨hdefaults, h, hverb⟩⟩⟩
    · exact ⟨_, covers_onFuture hverb hdefaults, .inr ⟨rfl, hwanted, hheld⟩⟩
  · -- the form of the entitlement and the direction tell the part
    rintro ⟨e, hcovers, hcase⟩
    obtain ⟨role, kind, access⟩ := scope
    cases e with
    | onObject grant =>
      obtain ⟨_, _, p⟩ := grant
      obtain ⟨rfl, rfl, hverb, -⟩ := hcovers
      rcases hcase with ⟨rfl, hwanted, hheld⟩ | ⟨rfl, hwanted, hheld⟩
      · exact .inl (.inl (.inl ⟨p, ⟨hwanted, fun h => hheld h.1⟩, rfl⟩))
      · exact .inl (.inl (.inr ⟨p, ⟨⟨hheld, hverb⟩, hwanted⟩, rfl⟩))
    | onFuture grant =>
      obtain ⟨_, _, p⟩ := grant
      obtain ⟨rfl, rfl, hverb, hdefaults⟩ := hcovers
      rcases hcase with ⟨rfl, hwanted, hheld⟩ | ⟨rfl, hwanted, hheld⟩
      · exact .inl (.inr ⟨p, ⟨hwanted, fun h => hheld h.2.1⟩, rfl⟩)
      · exact .inr ⟨p, ⟨⟨hdefaults, hheld, hverb⟩, hwanted⟩, rfl⟩

theorem role_of_mem_changes (hfits : wanted.FitsIn scope) {s : Statement}
    (hs : s ∈ scope.changes catalog wanted) : s.role = scope.role := by
  obtain ⟨e, hcovers, ⟨rfl, -, -⟩ | ⟨rfl, -, -⟩⟩ := (mem_changes_iff hfits).1 hs
  · rw [Entitlement.role_award, hcovers.role_eq]
  · rw [Entitlement.role_withdraw, hcovers.role_eq]

/-- No statement belongs to two scopes. -/
theorem eq_of_mem_changes {scope' : Scope} {wanted' : Wanted} (hfits : wanted.FitsIn scope)
    (hfits' : wanted'.FitsIn scope') {s : Statement} (hs : s ∈ scope.changes catalog wanted)
    (hs' : s ∈ scope'.changes catalog wanted') : scope = scope' := by
  obtain ⟨e, hcovers, ⟨rfl, -, -⟩ | ⟨rfl, -, -⟩⟩ := (mem_changes_iff hfits).1 hs <;>
    obtain ⟨e', hcovers', ⟨heq, -, -⟩ | ⟨heq, -, -⟩⟩ := (mem_changes_iff hfits').1 hs'
  · exact hcovers.unique (Entitlement.award_inj.1 heq ▸ hcovers')
  · exact absurd heq (Entitlement.award_ne_withdraw e e')
  · exact absurd heq.symm (Entitlement.award_ne_withdraw e' e)
  · exact hcovers.unique (Entitlement.withdraw_inj.1 heq ▸ hcovers')

/-- Where a second catalog differs from the first only by the effect of statements that are not
kept, the statements of the scope are those that are kept. -/
theorem changes_eq_filter {catalog' : Catalog} {keep : Statement → Bool}
    (hfits : wanted.FitsIn scope)
    (haward : ∀ e, scope.Covers e → wanted.Asks e →
      (catalog'.Holds e ↔ keep e.award = false ∨ catalog.Holds e))
    (hwithdraw : ∀ e, scope.Covers e → ¬ wanted.Asks e →
      (catalog'.Holds e ↔ catalog.Holds e ∧ keep e.withdraw = true)) :
    scope.changes catalog' wanted = (scope.changes catalog wanted).filter keep := by
  have hgrants : ∀ p ∈ wanted.privileges, p ∈ scope.held catalog' ↔
      keep (.grant scope.role scope.kind p) = false ∨ p ∈ scope.held catalog := by
    intro p hwanted
    have hverb := hfits.verb_mem p hwanted
    simp only [mem_held_iff, hverb, and_true]
    exact haward _ (covers_onObject hverb) hwanted
  have hrevokes : ∀ p, ¬ p ∈ wanted.privileges → (p ∈ scope.held catalog' ↔
      p ∈ scope.held catalog ∧ keep (.revoke scope.role scope.kind p) = true) := by
    intro p hwanted
    by_cases hverb : p.verb ∈ scope.verbs
    · simp only [mem_held_iff, hverb, and_true]
      exact hwithdraw _ (covers_onObject hverb) hwanted
    · simp [mem_held_iff, hverb]
  have hdefaults : ∀ p ∈ wanted.defaults, p ∈ scope.heldDefaults catalog' ↔
      keep (.grantDefault scope.role scope.kind p) = false ∨ p ∈ scope.heldDefaults catalog := by
    intro p hwanted
    have hverb := hfits.default_verb_mem p hwanted
    have hkind := hfits.hasDefaults p hwanted
    simp only [mem_heldDefaults_iff, hverb, hkind, true_and, and_true]
    exact haward _ (covers_onFuture hverb hkind) hwanted
  have hundefaults : ∀ p, ¬ p ∈ wanted.defaults → (p ∈ scope.heldDefaults catalog' ↔
      p ∈ scope.heldDefaults catalog ∧ keep (.revokeDefault scope.role scope.kind p) = true) := by
    intro p hwanted
    by_cases hp : p.verb ∈ scope.verbs ∧ scope.kind.hasDefaults = true
    · obtain ⟨hverb, hkind⟩ := hp
      simp only [mem_heldDefaults_iff, hverb, hkind, true_and, and_true]
      exact hwithdraw _ (covers_onFuture hverb hkind) hwanted
    · -- what the scope does not decide on is held in neither catalog
      grind [mem_heldDefaults_iff]
  simp only [changes, List.filter_append, OrderedSet.map_diff_eq_filter_of_grown hgrants,
    OrderedSet.map_diff_eq_filter_of_shrunk hrevokes,
    OrderedSet.map_diff_eq_filter_of_grown hdefaults,
    OrderedSet.map_diff_eq_filter_of_shrunk hundefaults]

/-- No statement of a scope occurs twice. -/
theorem nodup_changes (scope : Scope) (catalog : Catalog) (wanted : Wanted) :
    (scope.changes catalog wanted).Nodup := by
  have hgrants := nodup_of_increasing (wanted.privileges.diff (scope.held catalog)).increasing
  have hrevokes := nodup_of_increasing ((scope.held catalog).diff wanted.privileges).increasing
  have hdefaults := nodup_of_increasing
    (wanted.defaults.diff (scope.heldDefaults catalog)).increasing
  have hundefaults := nodup_of_increasing
    ((scope.heldDefaults catalog).diff wanted.defaults).increasing
  simp only [changes, List.nodup_append, List.mem_append, List.mem_map]
  -- each part lists a set by a one-to-one function, and the parts differ in the form of statement
  refine ⟨⟨⟨hgrants.map ?_, hrevokes.map ?_, ?_⟩, hdefaults.map ?_, ?_⟩, hundefaults.map ?_, ?_⟩
  all_goals grind [Function.Injective]

end Scope

end GrantPlan
