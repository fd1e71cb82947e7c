import GrantPlan.Proofs.Plan
import GrantPlan.Proofs.Request
/-!
# When planning fails

The items of a spec stand in lists, one for each role, kind and access level, in the order of the
document (`Spec.listings`). An item fails where it is the word for the personal schemas under
another kind than schemas, or names an object that the catalog does not know (`Listing.Fails`).

* `plan_fails_iff` - planning fails just when an item fails whose role is no superuser, and the
  mistake that is reported is the one of the first such item;
* `mistake_located_iff` - what a role is to write it is to read as well, and reading comes first. So
  every mistake is reported at the level of reading, also where the item is listed for writing only.
-/

namespace GrantPlan

variable {spec : Spec} {authority : Authority} {catalog : Catalog} {role : String}
  {config : RoleConfig} {e : PlanError}

/-! ## Items in their places -/

/-- An item with the place where it is listed. -/
structure Listing where
  scope : Scope
  item : String
deriving DecidableEq, Repr

/-- All items of a spec: roles in the order of the document, kinds and levels in their order of
analysis, the items of a list in the order of the list. -/
def Spec.listings (spec : Spec) : List Listing :=
  spec.roles.flatMap fun (role, config) =>
    ObjectKind.all.flatMap fun kind =>
      Access.all.flatMap fun access =>
        (config.targetsAt kind access).map fun item => ⟨⟨role, kind, access⟩, item⟩

theorem Spec.mem_listings {listing : Listing} :
    listing ∈ spec.listings ↔ ∃ config, (listing.scope.role, config) ∈ spec.roles ∧
      listing.item ∈ config.targetsAt listing.scope.kind listing.scope.access := by
  obtain ⟨⟨role, kind, access⟩, item⟩ := listing
  have hkind : kind ∈ ObjectKind.all := by cases kind <;> decide
  have haccess : access ∈ Access.all := by cases access <;> decide
  simp only [listings, List.mem_flatMap, List.mem_map, Prod.exists]
  constructor
  · rintro ⟨role', config, hconfig, kind', -, access', -, item', hitem, heq⟩
    obtain ⟨⟨rfl, rfl, rfl⟩, rfl⟩ : (role' = role ∧ kind' = kind ∧ access' = access) ∧ item' = item := by
      simpa using heq
    exact ⟨config, hconfig, hitem⟩
  · rintro ⟨config, hconfig, hitem⟩
    exact ⟨role, config, hconfig, kind, hkind, access, haccess, item, hitem, rfl⟩

/-- Within a kind, what a role is to read is listed in front of what it is to write. -/
theorem Spec.pairwise_listings (spec : Spec) :
    spec.listings.Pairwise fun listing later => listing.scope.role = later.scope.role →
      listing.scope.kind = later.scope.kind →
      listing.scope.access.rank ≤ later.scope.access.rank := by
  have hroles : spec.roles.Pairwise fun entry entry' => entry.1 ≠ entry'.1 :=
    List.pairwise_map.1 spec.nodup_roles
  have hkinds : ObjectKind.all.Pairwise (· ≠ ·) := by decide
  have hlevels : Access.all.Pairwise (·.rank ≤ ·.rank) := by decide
  rw [listings, List.pairwise_flatMap]
  refine ⟨fun ⟨role, config⟩ _ => ?_, hroles.imp fun hne a ha b hb heq => absurd ?_ hne⟩
  · rw [List.pairwise_flatMap]
    refine ⟨fun kind _ => ?_, hkinds.imp fun hne a ha b hb _ heq => absurd ?_ hne⟩
    · rw [List.pairwise_flatMap]
      refine ⟨fun access _ => List.pairwise_map.2 ?_, hlevels.imp fun hle a ha b hb _ _ => ?_⟩
      · exact List.pairwise_of_forall fun _ _ _ _ => Nat.le_refl _
      · obtain ⟨_, _, rfl⟩ := List.mem_map.1 ha
        obtain ⟨_, _, rfl⟩ := List.mem_map.1 hb
        exact hle
    · simp only [List.mem_flatMap, List.mem_map] at ha hb
      obtain ⟨_, _, _, _, rfl⟩ := ha
      obtain ⟨_, _, _, _, rfl⟩ := hb
      exact heq
  · simp only [List.mem_flatMap, List.mem_map] at ha hb
    obtain ⟨_, _, _, _, _, _, rfl⟩ := ha
    obtain ⟨_, _, _, _, _, _, rfl⟩ := hb
    exact heq

/-- An item that is listed for writing has none that is listed for reading behind it. -/
theorem Spec.rank_le_of_split {before after : List Listing} {listing later : Listing}
    (h : spec.listings = before ++ listing :: after) (hlater : later ∈ listing :: after)
    (hrole : listing.scope.role = later.scope.role) (hkind : listing.scope.kind = later.scope.kind) :
    listing.scope.access.rank ≤ later.scope.access.rank := by
  rcases List.mem_cons.1 hlater with rfl | hafter
  · exact Nat.le_refl _
  · have hpairwise := spec.pairwise_listings
    rw [h, List.pairwise_append, List.pairwise_cons] at hpairwise
    exact hpairwise.2.1.1 later hafter hrole hkind

/-! ## Items that fail -/

/-- The mistake that an item makes in its place. -/
inductive Listing.Fails (catalog : Catalog) (listing : Listing) : PlanError → Prop
  /-- It is the word for the personal schemas, and the kind is another one. -/
  | misplaced (word : listing.item = personalSchemasWord) (kind_ne : listing.scope.kind ≠ .schemas) :
      Fails catalog listing (.misplacedPersonalSchemas listing.scope)
  /-- It names one object, which has no owner in the catalog. -/
  | missing (not_word : listing.item ≠ personalSchemasWord)
      (not_contents : ∀ text, listing.item ≠ text ++ Target.contentsMark)
      (unknown : catalog.owner? listing.scope.kind (ObjectName.ofText listing.item) = none) :
      Fails catalog listing
        (.missingObject listing.scope (ObjectName.canonical listing.scope.kind listing.item))

/-- The same item, under the same role and kind but at another level. -/
def Listing.atLevel (listing : Listing) (access : Access) : Listing :=
  { listing with scope.access := access }

/-- The place that a mistake shows. -/
def PlanError.scope : PlanError → Scope
  | misplacedPersonalSchemas scope => scope
  | missingObject scope _ => scope

theorem Listing.Fails.scope_eq {listing : Listing} (h : listing.Fails catalog e) :
    e.scope = listing.scope := by
  cases h <;> rfl

/-- The level of an item does not decide whether it fails. -/
theorem Listing.exists_fails_atLevel_iff {listing : Listing} (access : Access) :
    (∃ e, (listing.atLevel access).Fails catalog e) ↔ ∃ e, listing.Fails catalog e := by
  constructor
  · rintro ⟨_, ⟨hword, hkind⟩ | ⟨hword, hcontents, hunknown⟩⟩
    · exact ⟨_, .misplaced hword hkind⟩
    · exact ⟨_, .missing hword hcontents hunknown⟩
  · rintro ⟨_, ⟨hword, hkind⟩ | ⟨hword, hcontents, hunknown⟩⟩
    · exact ⟨_, .misplaced hword hkind⟩
    · exact ⟨_, .missing hword hcontents hunknown⟩

/-- The mistake that the reading of an item ends with, if it ends with one. -/
def Listing.mistake? (authority : Authority) (catalog : Catalog) (listing : Listing) :
    Option PlanError :=
  failure? (listing.scope.request authority catalog (Target.ofText listing.item))

theorem Listing.mistake?_eq_some_iff {listing : Listing} :
    listing.mistake? authority catalog = some e ↔ listing.Fails catalog e := by
  obtain ⟨scope, item⟩ := listing
  rw [mistake?, failure?_eq_some_iff]
  constructor
  · intro h
    obtain rfl | rfl | ⟨text, rfl, htext⟩ | ⟨hword, hcontents⟩ := Target.ofText_cases item
    · simp only [Target.ofText_personalSchemas, Scope.request] at h
      split at h
      next => cases h
      next hkind =>
        cases h
        exact .misplaced rfl hkind
    · simp [Target.ofText_personalContents, Scope.request] at h
    · simp [Target.ofText_contents htext, Scope.request] at h
    · simp only [Target.ofText_named hword hcontents, Scope.request] at h
      split at h
      next hunknown =>
        cases h
        exact .missing hword hcontents hunknown
      next => cases h
  · rintro (⟨hword, hkind⟩ | ⟨hword, hcontents, hunknown⟩)
    · obtain rfl : item = personalSchemasWord := hword
      simp only [Target.ofText_personalSchemas, Scope.request, if_neg hkind]
    · simp only [Target.ofText_named hword hcontents, Scope.request, hunknown]
      rfl

theorem Listing.mistake?_eq_none_iff {listing : Listing} :
    listing.mistake? authority catalog = none ↔ ¬ ∃ e, listing.Fails catalog e := by
  rw [Option.eq_none_iff_forall_ne_some, not_exists]
  exact forall_congr' fun e => not_congr mistake?_eq_some_iff

/-! ## The first item that fails -/

theorem Scope.failure?_plan (scope : Scope) (items : List String) :
    failure? (scope.plan authority catalog items) =
      items.findSome? fun item => Listing.mistake? authority catalog ⟨scope, item⟩ := by
  simp only [Scope.plan, Scope.wanted, Scope.requests, failure?_bind_pure, failure?_mapM,
    Listing.mistake?]

/-- Under one kind, items for reading and items for writing are worked through in this order, and as
if all of them were listed for reading. -/
theorem findSome?_wantedAt (role : String) (config : RoleConfig) (kind : ObjectKind) :
    (Access.all.findSome? fun access => (config.wantedAt kind access).findSome? fun item =>
        Listing.mistake? authority catalog ⟨⟨role, kind, access⟩, item⟩) =
      Access.all.findSome? fun access => (config.targetsAt kind access).findSome? fun item =>
        Listing.mistake? authority catalog ⟨⟨role, kind, .read⟩, item⟩ := by
  -- what has passed for reading passes once more for writing
  have hwrite : ∀ item, Listing.mistake? authority catalog ⟨⟨role, kind, .read⟩, item⟩ = none →
      Listing.mistake? authority catalog ⟨⟨role, kind, .write⟩, item⟩ = none := by
    intro item h
    rw [Listing.mistake?_eq_none_iff] at h ⊢
    exact mt (Listing.exists_fails_atLevel_iff .read).2 h
  simp only [Access.all, List.findSome?_cons, List.findSome?_nil, RoleConfig.wantedAt,
    List.findSome?_append]
  cases hread : (config.targetsAt kind .read).findSome? fun item =>
      Listing.mistake? authority catalog ⟨⟨role, kind, .read⟩, item⟩ with
  | some e => rfl
  | none =>
    cases hwritten : (config.targetsAt kind .write).findSome? fun item =>
        Listing.mistake? authority catalog ⟨⟨role, kind, .read⟩, item⟩ with
    | some e => rfl
    | none =>
      have hagain : ((config.targetsAt kind .write).findSome? fun item =>
          Listing.mistake? authority catalog ⟨⟨role, kind, .write⟩, item⟩) = none :=
        List.findSome?_eq_none_iff.2 fun item hitem =>
          hwrite item (List.findSome?_eq_none_iff.1 hwritten item hitem)
      simp [hagain]

/-- What an item contributes to the failure of planning: nothing if its role is a superuser, and
otherwise its mistake, as if it were listed for reading. -/
def Listing.obstacle? (spec : Spec) (catalog : Catalog) (listing : Listing) : Option PlanError :=
  if catalog.isSuperuser listing.scope.role then none
  else (listing.atLevel .read).mistake? spec.authority catalog

theorem Listing.obstacle?_eq_some_iff {listing : Listing} :
    listing.obstacle? spec catalog = some e ↔
      catalog.isSuperuser listing.scope.role = false ∧ (listing.atLevel .read).Fails catalog e := by
  rw [obstacle?, Option.ite_none_left_eq_some, mistake?_eq_some_iff, Bool.not_eq_true]

theorem Listing.obstacle?_eq_none_iff {listing : Listing} :
    listing.obstacle? spec catalog = none ↔
      (catalog.isSuperuser listing.scope.role = false → ¬ ∃ e, listing.Fails catalog e) := by
  rw [Option.eq_none_iff_forall_ne_some, ← exists_fails_atLevel_iff .read]
  simp only [ne_eq, obstacle?_eq_some_iff, not_and, not_exists]
  exact ⟨fun h hrole e => h e hrole, fun h e hrole => h hrole e⟩

theorem failure?_planRole (spec : Spec) (catalog : Catalog) (role : String) (config : RoleConfig) :
    failure? (planRole spec.authority catalog role config) =
      ObjectKind.all.findSome? fun kind => Access.all.findSome? fun access =>
        (config.targetsAt kind access).findSome? fun item =>
          Listing.obstacle? spec catalog ⟨⟨role, kind, access⟩, item⟩ := by
  unfold planRole
  cases hrole : catalog.isSuperuser role with
  | true =>
    symm
    simp [Listing.obstacle?, hrole, failure?]
  | false =>
    simp only [Bool.false_eq_true, if_false, failure?_bind_pure, failure?_mapM, levels,
      findSome?_flatMap, List.findSome?_map, Function.comp_def, Scope.failure?_plan,
      findSome?_wantedAt, Listing.obstacle?, Listing.atLevel, hrole]

/-- Planning fails as the first item that is an obstacle. -/
theorem failure?_plan (spec : Spec) (catalog : Catalog) :
    failure? (plan spec catalog) = spec.listings.findSome? (Listing.obstacle? spec catalog) := by
  simp only [plan, failure?_bind_pure, failure?_mapM, Spec.listings, findSome?_flatMap,
    List.findSome?_map, Function.comp_def]
  exact congrArg (spec.roles.findSome? ·)
    (funext fun entry => failure?_planRole spec catalog entry.1 entry.2)

/-- Planning fails with the mistake of the first item of a role that is no superuser that makes
one, at the level of reading. -/
theorem plan_eq_error_iff :
    plan spec catalog = .error e ↔ ∃ before listing after,
      spec.listings = before ++ listing :: after ∧
      (catalog.isSuperuser listing.scope.role = false ∧ (listing.atLevel .read).Fails catalog e) ∧
      ∀ earlier ∈ before, catalog.isSuperuser earlier.scope.role = false →
        ¬ ∃ e', earlier.Fails catalog e' := by
  rw [← failure?_eq_some_iff, failure?_plan, List.findSome?_eq_some_iff]
  simp only [Listing.obstacle?_eq_some_iff, Listing.obstacle?_eq_none_iff]

theorem exists_plan_eq_error_iff :
    (∃ e, plan spec catalog = .error e) ↔ ∃ listing ∈ spec.listings,
      catalog.isSuperuser listing.scope.role = false ∧ ∃ e, listing.Fails catalog e := by
  constructor
  · rintro ⟨e, h⟩
    obtain ⟨before, listing, after, heq, ⟨hrole, hfails⟩, -⟩ := plan_eq_error_iff.1 h
    have hmem : listing ∈ spec.listings := heq ▸ List.mem_append_right _ List.mem_cons_self
    exact ⟨listing, hmem, hrole, (listing.exists_fails_atLevel_iff .read).1 ⟨e, hfails⟩⟩
  · rintro ⟨listing, hmem, hrole, hfails⟩
    by_contra hnone
    simp only [← failure?_eq_some_iff, failure?_plan, ← Option.ne_none_iff_exists', not_not,
      List.findSome?_eq_none_iff] at hnone
    exact Listing.obstacle?_eq_none_iff.1 (hnone listing hmem) hrole hfails

/-- Planning fails just when some item fails that is listed for a role that is no superuser, under
whatever kind and level. The mistake that is reported is the one of the first such item, and shows
its role and its kind. -/
theorem plan_fails_iff (spec : Spec) (catalog : Catalog) :
    ((∃ e, plan spec catalog = .error e) ↔ ∃ role config kind access item,
      (role, config) ∈ spec.roles ∧ catalog.isSuperuser role = false ∧
        item ∈ config.targetsAt kind access ∧
        ∃ e, Listing.Fails catalog ⟨⟨role, kind, access⟩, item⟩ e) ∧
    ∀ e, plan spec catalog = .error e → ∃ before listing after,
      spec.listings = before ++ listing :: after ∧
      catalog.isSuperuser listing.scope.role = false ∧
      (∃ access, (listing.atLevel access).Fails catalog e) ∧
      ∀ earlier ∈ before, catalog.isSuperuser earlier.scope.role = false →
        ¬ ∃ e', earlier.Fails catalog e' := by
  constructor
  · rw [exists_plan_eq_error_iff]
    constructor
    · rintro ⟨⟨⟨role, kind, access⟩, item⟩, hmem, hrole, hfails⟩
      obtain ⟨config, hconfig, hitem⟩ := Spec.mem_listings.1 hmem
      exact ⟨role, config, kind, access, item, hconfig, hrole, hitem, hfails⟩
    · rintro ⟨role, config, kind, access, item, hconfig, hrole, hitem, hfails⟩
      exact ⟨_, Spec.mem_listings.2 ⟨config, hconfig, hitem⟩, hrole, hfails⟩
  · intro e h
    obtain ⟨before, listing, after, heq, ⟨hrole, hfails⟩, hearlier⟩ := plan_eq_error_iff.1 h
    exact ⟨before, listing, after, heq, hrole, ⟨.read, hfails⟩, hearlier⟩

/-- A spec with three items that fail: one of a superuser, and two that the analyst is to write. -/
def brokenSpec : Spec :=
  let sequences : OrderedMap Access (List String) := .insert ∅ .read [personalSchemasWord]
  let tables : OrderedMap Access (List String) :=
    .insert (.insert ∅ .read ["finance.ledger"]) .write ["finance.ghost", personalSchemasWord]
  .ofList [("postgres", { RoleConfig.default with targets := .insert ∅ .sequences sequences }),
    ("analyst", { RoleConfig.default with targets := .insert ∅ .tables tables })]

/-- What planning for the broken spec ends with. -/
def brokenMistake : PlanError := .missingObject ⟨"analyst", .tables, .read⟩ "finance.\"ghost\""

theorem plan_broken : plan brokenSpec ledgerCatalog = .error brokenMistake := by rfl

theorem plan_fails_broken :
    plan brokenSpec ledgerCatalog = .error brokenMistake ∧ ∃ before listing after,
      brokenSpec.listings = before ++ listing :: after ∧
      ledgerCatalog.isSuperuser listing.scope.role = false ∧
      (∃ access, (listing.atLevel access).Fails ledgerCatalog brokenMistake) ∧
      ∀ earlier ∈ before, ledgerCatalog.isSuperuser earlier.scope.role = false →
        ¬ ∃ e, earlier.Fails ledgerCatalog e := by
  obtain ⟨-, hfirst⟩ := plan_fails_iff brokenSpec ledgerCatalog
  exact ⟨plan_broken, hfirst brokenMistake plan_broken⟩

/-! ## Finding the item that a mistake comes from -/

/-- A mistake shows the level of reading, and the item that makes it is listed under its role and
kind for reading or for writing. So the list that the mistake shows contains such an item just when
some item of that list fails. -/
theorem mistake_located_iff (h : plan spec catalog = .error e) :
    e.scope.access = .read ∧
    (∃ listing ∈ spec.listings, (listing.atLevel .read).Fails catalog e) ∧
    ((∃ listing ∈ spec.listings, listing.Fails catalog e) ↔
      ∃ listing ∈ spec.listings, listing.scope = e.scope ∧ ∃ e', listing.Fails catalog e') := by
  obtain ⟨before, listing, after, heq, ⟨hrole, hfails⟩, hearlier⟩ := plan_eq_error_iff.1 h
  have hmem : listing ∈ spec.listings := heq ▸ List.mem_append_right _ List.mem_cons_self
  have hscope : e.scope = (listing.atLevel .read).scope := hfails.scope_eq
  refine ⟨by rw [hscope, Listing.atLevel], ⟨listing, hmem, hfails⟩, ?_, ?_⟩
  · rintro ⟨listing', hmem', hfails'⟩
    exact ⟨listing', hmem', hfails'.scope_eq.symm, e, hfails'⟩
  · rintro ⟨listing', hmem', hscope', hfails'⟩
    -- an item listed for writing would stand behind `listing'`, which fails and so comes first
    have hread : listing.scope.access = .read := by
      have hsame : listing'.scope = (listing.atLevel .read).scope := hscope'.trans hscope
      have hrole' : listing.scope.role = listing'.scope.role := by rw [hsame, Listing.atLevel]
      have hkind' : listing.scope.kind = listing'.scope.kind := by rw [hsame, Listing.atLevel]
      rw [heq] at hmem'
      rcases List.mem_append.1 hmem' with hbefore | hrest
      · exact absurd hfails' (hearlier listing' hbefore (hrole' ▸ hrole))
      · have hle := Spec.rank_le_of_split heq hrest hrole' hkind'
        rw [hsame] at hle
        cases hlevel : listing.scope.access with
        | read => rfl
        | write => simp [hlevel, Listing.atLevel, Access.rank] at hle
    have hself : listing.atLevel .read = listing := by rw [Listing.atLevel, ← hread]
    exact ⟨listing, hmem, hself ▸ hfails⟩

/-- The analyst is to write an object that is not there, and what it is to read is all there. -/
theorem mistake_located_broken :
    plan brokenSpec ledgerCatalog = .error brokenMistake ∧ brokenMistake.scope.access = .read ∧
    (∃ listing ∈ brokenSpec.listings,
      (listing.atLevel .read).Fails ledgerCatalog brokenMistake) ∧
    ((∃ listing ∈ brokenSpec.listings, listing.Fails ledgerCatalog brokenMistake) ↔
      ∃ listing ∈ brokenSpec.listings, listing.scope = brokenMistake.scope ∧
        ∃ e, listing.Fails ledgerCatalog e) :=
  ⟨plan_broken, mistake_located_iff plan_broken⟩

/-- A spec in which `etl` is to write a table, and is to read nothing. -/
def ghostSpec : Spec :=
  let tables : OrderedMap Access (List String) := .insert ∅ .write ["finance.ghost"]
  .ofList [("etl", { RoleConfig.default with targets := .insert ∅ .tables tables })]

/-- The mistake shows a list that the spec does not have. -/
theorem mistake_not_located :
    plan ghostSpec ∅ = .error (.missingObject ⟨"etl", .tables, .read⟩ "finance.\"ghost\"") ∧
    ¬ ∃ listing ∈ ghostSpec.listings, listing.scope = ⟨"etl", .tables, .read⟩ := by
  exact ⟨by rfl, by decide⟩

end GrantPlan
