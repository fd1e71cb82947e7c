import GrantPlan.Proofs.Request
import GrantPlan.Proofs.Spelling
/-!
# Creating objects

What becomes of a database when a role creates an object in a schema. The role owns the object, and
every role that has been promised a verb on what this role creates there receives it on the object.

* `owner?_create_eq_some_iff` - one owner more, and the others as before;
* `holds_create_onObject_iff` - the promises made good, and the other grants as before;
* `asksForObject_create_iff` - the object is asked for just where all of its schema is, except on
  behalf of the role that created it.
-/

namespace GrantPlan

/-- The creation of an object in a schema by a role. -/
structure Creation where
  kind : ObjectKind
  schema : String
  object : String
  creator : String
deriving DecidableEq, Repr

/-- The name of the object that is created. -/
def Creation.name (creation : Creation) : ObjectName := ⟨creation.schema, some creation.object⟩

namespace Catalog

/-- The promises that a creation makes good: those of its creator for its schema. -/
def promises (catalog : Catalog) (creation : Creation) : List DefaultGrant :=
  catalog.defaultGrants.toList.filter fun promise =>
    promise.kind = creation.kind && promise.privilege.grantor = creation.creator &&
      promise.privilege.schema = creation.schema

/-- The catalog with a promise made good on an object that is created. -/
def fulfil (creation : Creation) (catalog : Catalog) (promise : DefaultGrant) : Catalog :=
  let object := creation.name.render creation.kind
  catalog.addGrant promise.role creation.kind object promise.privilege.verb

/-- The catalog after a creation. -/
def create (catalog : Catalog) (creation : Creation) : Catalog :=
  let recorded :=
    catalog.addObject creation.kind creation.schema (some creation.object) creation.creator
  (catalog.promises creation).foldl (fulfil creation) recorded

end Catalog

/-- What is expected of a creation: its names hold no quoting, its object is new, and its creator is
one of the roles that can create objects in the schema. -/
structure Spec.Allows (spec : Spec) (catalog : Catalog) (creation : Creation) : Prop where
  kind_ne : creation.kind ≠ .schemas
  unquote_schema : Identifier.unquote creation.schema = creation.schema
  unquote_object : Identifier.unquote creation.object = creation.object
  new : catalog.owner? creation.kind creation.name = none
  writer : creation.creator ∈ spec.authority.writersOf creation.schema

/-- Catalogs that are one creation apart. -/
inductive Spec.Creates (spec : Spec) : Catalog → Catalog → Prop
  | create {catalog : Catalog} {creation : Creation} (allowed : spec.Allows catalog creation) :
      Creates spec catalog (catalog.create creation)

variable {spec : Spec} {catalog : Catalog} {creation : Creation} {role : String}
  {kind : ObjectKind} {name : ObjectName}

namespace Catalog

/-! ## Promises made good -/

theorem mem_promises_iff {promise : DefaultGrant} :
    promise ∈ catalog.promises creation ↔ catalog.Holds (.onFuture promise) ∧
      promise.kind = creation.kind ∧ promise.privilege.grantor = creation.creator ∧
      promise.privilege.schema = creation.schema := by
  simp only [promises, Holds, List.mem_filter, OrderedSet.mem_toList, Bool.and_eq_true,
    decide_eq_true_eq, and_assoc]

theorem foldl_fulfil_frame (promises : List DefaultGrant) :
    (promises.foldl (fulfil creation) catalog).superusers = catalog.superusers ∧
      (promises.foldl (fulfil creation) catalog).owners = catalog.owners ∧
      (promises.foldl (fulfil creation) catalog).defaultGrants = catalog.defaultGrants := by
  induction promises generalizing catalog with
  | nil => exact ⟨rfl, rfl, rfl⟩
  | cons promise promises ih => exact ih

theorem mem_grants_foldl_fulfil_iff {promises : List DefaultGrant} {grant : Grant} :
    grant ∈ (promises.foldl (fulfil creation) catalog).grants ↔
      grant ∈ catalog.grants ∨ ∃ promise ∈ promises, grant =
        ⟨promise.role, creation.kind,
          ⟨creation.name.render creation.kind, promise.privilege.verb⟩⟩ := by
  induction promises generalizing catalog with
  | nil => simp
  | cons promise promises ih =>
    rw [List.foldl_cons, ih, fulfil, addGrant, ObjectName.canonical_render]
    simp only [OrderedSet.mem_insert, List.mem_cons, exists_eq_or_imp, or_assoc, or_left_comm]

/-! ## The catalog after a creation -/

@[simp] theorem superusers_create : (catalog.create creation).superusers = catalog.superusers :=
  (foldl_fulfil_frame (catalog.promises creation)).1

@[simp] theorem defaultGrants_create :
    (catalog.create creation).defaultGrants = catalog.defaultGrants :=
  (foldl_fulfil_frame (catalog.promises creation)).2.2

theorem owners_create (hschema : Identifier.unquote creation.schema = creation.schema)
    (hobject : Identifier.unquote creation.object = creation.object) :
    (catalog.create creation).owners =
      catalog.owners.insert ⟨creation.kind, creation.name⟩ creation.creator := by
  refine (foldl_fulfil_frame (catalog.promises creation)).2.1.trans ?_
  rw [addObject, hschema, Option.map_some, hobject, Creation.name]

/-- A creation that is allowed adds one owner. -/
theorem owner?_create_eq_some_iff (hallowed : spec.Allows catalog creation) {owner : String} :
    (catalog.create creation).owner? kind name = some owner ↔
      catalog.owner? kind name = some owner ∨
        kind = creation.kind ∧ name = creation.name ∧ owner = creation.creator := by
  rw [owner?, owners_create hallowed.unquote_schema hallowed.unquote_object, OrderedMap.get?_insert]
  by_cases hname : kind = creation.kind ∧ name = creation.name
  · -- nothing was known by this name
    obtain ⟨rfl, rfl⟩ := hname
    simp [hallowed.new, eq_comm]
  · have href : ObjectRef.mk kind name ≠ ⟨creation.kind, creation.name⟩ := by simpa using hname
    rw [if_neg href, ← owner?]
    tauto

/-- A creation adds the grants that were promised, all of them on the object created. -/
theorem holds_create_onObject_iff {grant : Grant} :
    (catalog.create creation).Holds (.onObject grant) ↔
      catalog.Holds (.onObject grant) ∨ grant.kind = creation.kind ∧
        grant.privilege.object = creation.name.render creation.kind ∧
        catalog.Holds (.onFuture ⟨grant.role, creation.kind,
          ⟨creation.creator, creation.schema, grant.privilege.verb⟩⟩) := by
  refine mem_grants_foldl_fulfil_iff.trans (or_congr Iff.rfl ?_)
  simp only [mem_promises_iff]
  constructor
  · rintro ⟨⟨role, kind, grantor, schema, verb⟩, ⟨hpromised, rfl, rfl, rfl⟩, rfl⟩
    exact ⟨rfl, rfl, hpromised⟩
  · obtain ⟨role, kind, object, verb⟩ := grant
    rintro ⟨rfl, rfl, hpromised⟩
    exact ⟨_, ⟨hpromised, rfl, rfl, rfl⟩, rfl⟩

theorem holds_create_onFuture_iff {promise : DefaultGrant} :
    (catalog.create creation).Holds (.onFuture promise) ↔ catalog.Holds (.onFuture promise) := by
  rw [Holds, Holds, defaultGrants_create]

end Catalog

/-! ## What targets ask for after a creation -/

/-- An item that could be read before a creation names the same object afterwards. -/
theorem itemNames_create_iff (hallowed : spec.Allows catalog creation) {item : String}
    (hrecorded : item ≠ personalSchemasWord → (∀ text, item ≠ text ++ Target.contentsMark) →
      ∃ owner, catalog.owner? kind (ObjectName.ofText item) = some owner) :
    ItemNames spec (catalog.create creation) role kind item name ↔
      ItemNames spec catalog role kind item name := by
  constructor
  · intro h
    cases h with
    | named hword hcontents howner hforeign =>
      obtain howner | ⟨rfl, hname, -⟩ := (Catalog.owner?_create_eq_some_iff hallowed).1 howner
      · exact .named hword hcontents howner hforeign
      · -- a new object could not be named
        obtain ⟨owner, howner⟩ := hrecorded hword hcontents
        rw [hname, hallowed.new] at howner
        cases howner
    | personal hkind hitem hdeclared hflagged hforeign =>
      exact .personal hkind hitem hdeclared hflagged hforeign
  · intro h
    cases h with
    | named hword hcontents howner hforeign =>
      have howner' := (Catalog.owner?_create_eq_some_iff hallowed).2 (.inl howner)
      exact .named hword hcontents howner' hforeign
    | personal hkind hitem hdeclared hflagged hforeign =>
      exact .personal hkind hitem hdeclared hflagged hforeign

/-- Where every object that is listed by its name was there before, an object created is asked for
with its schema or not at all. -/
theorem asksForObject_create_iff (hallowed : spec.Allows catalog creation) {Listed : String → Prop}
    (hrecorded : ∀ item, Listed item → item ≠ personalSchemasWord →
      (∀ text, item ≠ text ++ Target.contentsMark) →
      ∃ owner, catalog.owner? kind (ObjectName.ofText item) = some owner) :
    AsksForObject spec (catalog.create creation) role kind Listed name ↔
      AsksForObject spec catalog role kind Listed name ∨
        kind = creation.kind ∧ name = creation.name ∧
          AsksForSchema spec Listed creation.schema ∧ creation.creator ≠ role := by
  constructor
  · intro h
    cases h with
    | contents hschema howner hforeign =>
      obtain howner | ⟨rfl, rfl, rfl⟩ := (Catalog.owner?_create_eq_some_iff hallowed).1 howner
      · exact .inl (.contents hschema howner hforeign)
      · exact .inr ⟨rfl, rfl, hschema, hforeign⟩
    | itself hlisted hnames =>
      rw [itemNames_create_iff hallowed (hrecorded _ hlisted)] at hnames
      exact .inl (.itself hlisted hnames)
  · rintro (h | ⟨rfl, rfl, hschema, hforeign⟩)
    · cases h with
      | contents hschema howner hforeign =>
        have howner' := (Catalog.owner?_create_eq_some_iff hallowed).2 (.inl howner)
        exact .contents hschema howner' hforeign
      | itself hlisted hnames =>
        rw [← itemNames_create_iff hallowed (hrecorded _ hlisted)] at hnames
        exact .itself hlisted hnames
    · have howner := (Catalog.owner?_create_eq_some_iff hallowed).2 (.inr ⟨rfl, rfl, rfl⟩)
      exact .contents hschema howner hforeign

namespace Scope

variable {authority : Authority} {scope : Scope} {items : List String}

/-- Targets that can be read can still be read after a creation. -/
theorem exists_wanted_create (hallowed : spec.Allows catalog creation)
    (h : ∃ wanted, scope.wanted authority catalog items = .ok wanted) :
    ∃ wanted, scope.wanted authority (catalog.create creation) items = .ok wanted := by
  rw [exists_wanted_iff] at h ⊢
  intro item hitem
  obtain ⟨part, hpart⟩ := h item hitem
  cases htarget : Target.ofText item with
  | named text =>
    rw [htarget, request_named_eq_ok_iff] at hpart
    obtain ⟨owner, howner, -⟩ := hpart
    have howner' := (Catalog.owner?_create_eq_some_iff hallowed).2 (.inl howner)
    exact ⟨_, request_named_eq_ok_iff.2 ⟨owner, howner', rfl⟩⟩
  | personalSchemas | personalContents | contents schema =>
    rw [htarget] at hpart
    exact ⟨part, hpart⟩

end Scope

end GrantPlan
