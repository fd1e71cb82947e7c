import GrantPlan.Proofs.Scope
/-!
# What targets ask for

The rules of targets, said without reference to how a list of them is worked through:

* `AsksForSchema` - the schemas of which everything is asked for, now and in the future;
* `AsksForObject` - the objects that exist and are asked for, by themselves or with their schema.

`mem_schemas_iff` and `mem_objects_iff` say that reading a list of targets yields just these.
-/

namespace GrantPlan

variable {spec : Spec} {catalog : Catalog} {role : String} {kind : ObjectKind} {name : ObjectName}

/-- The items that count at a level: what is to be written is to be read as well. -/
def RoleConfig.Counts (config : RoleConfig) (kind : ObjectKind) (access : Access) (item : String) :
    Prop :=
  item ∈ config.targetsAt kind access ∨ access = .read ∧ item ∈ config.targetsAt kind .write

theorem RoleConfig.mem_wantedAt_iff {config : RoleConfig} {kind : ObjectKind} {access : Access}
    {item : String} : item ∈ config.wantedAt kind access ↔ config.Counts kind access item := by
  cases access <;> simp [wantedAt, Counts]

/-- The schemas of which some items ask for everything. -/
inductive AsksForSchema (spec : Spec) (Listed : String → Prop) : String → Prop
  /-- By name, which is given in front of the mark and may be quoted. -/
  | contents {text : String} (listed : Listed (text ++ Target.contentsMark))
      (not_word : text ≠ personalSchemasWord) :
      AsksForSchema spec Listed (Identifier.unquote text)
  /-- By the word for the personal schemas in front of the mark. -/
  | personal {schema : String} {config : RoleConfig}
      (listed : Listed (personalSchemasWord ++ Target.contentsMark))
      (declared : (schema, config) ∈ spec.roles) (flagged : config.hasPersonalSchema = true) :
      AsksForSchema spec Listed schema

/-- The objects of a kind that one item asks for by themselves, on behalf of a role. Its own objects
are left out. -/
inductive ItemNames (spec : Spec) (catalog : Catalog) (role : String) (kind : ObjectKind)
    (item : String) : ObjectName → Prop
  /-- An object that the catalog knows by this name. -/
  | named {owner : String} (not_word : item ≠ personalSchemasWord)
      (not_contents : ∀ text, item ≠ text ++ Target.contentsMark)
      (recorded : catalog.owner? kind (ObjectName.ofText item) = some owner)
      (foreign : owner ≠ role) : ItemNames spec catalog role kind item (ObjectName.ofText item)
  /-- One of the personal schemas, by the word for all of them. -/
  | personal {schema : String} {config : RoleConfig} (kind_eq : kind = .schemas)
      (item_eq : item = personalSchemasWord) (declared : (schema, config) ∈ spec.roles)
      (flagged : config.hasPersonalSchema = true) (foreign : schema ≠ role) :
      ItemNames spec catalog role kind item ⟨schema, none⟩

/-- The objects of a kind that some items ask for on behalf of a role. -/
inductive AsksForObject (spec : Spec) (catalog : Catalog) (role : String) (kind : ObjectKind)
    (Listed : String → Prop) (name : ObjectName) : Prop
  /-- With everything else in its schema that belongs to others. -/
  | contents {owner : String} (schema : AsksForSchema spec Listed name.schema)
      (recorded : catalog.owner? kind name = some owner) (foreign : owner ≠ role)
  /-- By itself. -/
  | itself {item : String} (listed : Listed item) (names : ItemNames spec catalog role kind item name)

/-- What items ask for together is what one or another of them asks for. -/
theorem asksForSchema_iff_exists_item {Listed : String → Prop} {schema : String} :
    AsksForSchema spec Listed schema ↔ ∃ item, Listed item ∧ AsksForSchema spec (· = item) schema := by
  constructor
  · intro h
    cases h with
    | contents hlisted hword => exact ⟨_, hlisted, .contents rfl hword⟩
    | personal hlisted hdeclared hflagged => exact ⟨_, hlisted, .personal rfl hdeclared hflagged⟩
  · rintro ⟨item, hlisted, ⟨rfl, hword⟩ | ⟨rfl, hdeclared, hflagged⟩⟩
    · exact .contents hlisted hword
    · exact .personal hlisted hdeclared hflagged

theorem asksForObject_iff_exists_item {Listed : String → Prop} :
    AsksForObject spec catalog role kind Listed name ↔
      ∃ item, Listed item ∧ AsksForObject spec catalog role kind (· = item) name := by
  constructor
  · intro h
    cases h with
    | contents hschema howner hforeign =>
      obtain ⟨item, hlisted, hschema⟩ := asksForSchema_iff_exists_item.1 hschema
      exact ⟨item, hlisted, .contents hschema howner hforeign⟩
    | itself hlisted hnames => exact ⟨_, hlisted, .itself rfl hnames⟩
  · rintro ⟨item, hlisted, ⟨hschema, howner, hforeign⟩ | ⟨rfl, hnames⟩⟩
    · exact .contents (asksForSchema_iff_exists_item.2 ⟨item, hlisted, hschema⟩) howner hforeign
    · exact .itself hlisted hnames

/-! ## The forms of an item -/

namespace Target

/-- The mark is found behind a text when the item is this text with the mark behind it. -/
theorem contentsOf?_eq_some_iff {item : String} {cs : List Char} :
    contentsOf? item = some cs ↔ item = String.ofList cs ++ contentsMark := by
  rw [contentsOf?, List.isSuffixOf?_eq_some_iff_append_eq, ← String.toList_inj,
    String.toList_append, String.toList_ofList, eq_comm]

theorem contentsOf?_eq_none {item : String} (h : ∀ text, item ≠ text ++ contentsMark) :
    contentsOf? item = none :=
  Option.eq_none_iff_forall_ne_some.2 fun _ hcs => h _ (contentsOf?_eq_some_iff.1 hcs)

theorem ofText_personalSchemas : ofText personalSchemasWord = .personalSchemas := by
  simp [ofText]

theorem ofText_personalContents :
    ofText (personalSchemasWord ++ contentsMark) = .personalContents := by decide

/-- Any other text in front of the mark names a schema, of which everything is asked for. -/
theorem ofText_contents {text : String} (h : text ≠ personalSchemasWord) :
    ofText (text ++ contentsMark) = .contents (Identifier.unquote text) := by
  -- the words come first in the reading, and neither of them is meant
  have hword := append_contentsMark_ne_word text
  have hmark : text ++ contentsMark ≠ personalSchemasWord ++ contentsMark := by
    simpa using h
  have hcontents : contentsOf? (text ++ contentsMark) = some text.toList :=
    contentsOf?_eq_some_iff.2 (by simp)
  simp only [ofText, hword, hmark, hcontents, if_false, Identifier.unquote]

/-- An item that is no word and has no mark names an object. -/
theorem ofText_named {item : String} (hword : item ≠ personalSchemasWord)
    (hcontents : ∀ text, item ≠ text ++ contentsMark) : ofText item = .named item := by
  simp only [ofText, hword, hcontents, contentsOf?_eq_none hcontents, if_false]

/-- An item has one of four forms: a word for the personal schemas without or with the mark, a
schema with the mark, or a name. -/
theorem ofText_cases (item : String) :
    item = personalSchemasWord ∨ item = personalSchemasWord ++ contentsMark ∨
      (∃ text, item = text ++ contentsMark ∧ text ≠ personalSchemasWord) ∨
      item ≠ personalSchemasWord ∧ ∀ text, item ≠ text ++ contentsMark := by
  by_cases hword : item = personalSchemasWord
  · exact .inl hword
  by_cases hcontents : ∃ text, item = text ++ contentsMark
  · obtain ⟨text, rfl⟩ := hcontents
    by_cases htext : text = personalSchemasWord
    · exact .inr (.inl (by rw [htext]))
    · exact .inr (.inr (.inl ⟨text, rfl, htext⟩))
  · exact .inr (.inr (.inr ⟨hword, fun text heq => hcontents ⟨text, heq⟩⟩))

end Target

/-- The objects of a schema are those that have an owner and a name in the schema. -/
theorem Catalog.mem_objectsIn_iff {catalog : Catalog} {kind : ObjectKind} {schema : String}
    {entry : ObjectName × String} :
    entry ∈ catalog.objectsIn kind schema ↔
      entry.1.schema = schema ∧ catalog.owner? kind entry.1 = some entry.2 := by
  obtain ⟨name, owner⟩ := entry
  simp only [objectsIn, owner?, List.mem_filterMap, OrderedMap.get?_eq_some_iff]
  constructor
  · rintro ⟨⟨⟨kind', name'⟩, owner'⟩, hmem, hentry⟩
    simp only [Option.ite_none_right_eq_some, Bool.and_eq_true, decide_eq_true_eq,
      Option.some.injEq, Prod.mk.injEq] at hentry
    obtain ⟨⟨rfl, hschema⟩, rfl, rfl⟩ := hentry
    exact ⟨hschema, hmem⟩
  · rintro ⟨rfl, hmem⟩
    exact ⟨(⟨kind, name⟩, owner), hmem, by simp⟩

namespace Scope

variable {authority : Authority} {catalog : Catalog} {scope : Scope} {items : List String}
  {request part : Request} {spec : Spec}

/-! ## What one target yields -/

/-- The word for the personal schemas can be read for schemas only. The schema of the role itself is
left out. -/
theorem request_personalSchemas_eq_ok_iff :
    scope.request authority catalog .personalSchemas = .ok part ↔
      scope.kind = .schemas ∧
        ⟨.ofList ((authority.personalSchemas.erase scope.role).toList.map Identifier.render), ∅⟩ =
          part := by
  simp only [request]
  split
  next hkind => simp [hkind]
  next hkind => simp [hkind]

/-- A name can be read where the catalog knows the object. An object of the role itself is not asked
for. -/
theorem request_named_eq_ok_iff {text : String} :
    scope.request authority catalog (.named text) = .ok part ↔
      ∃ owner, catalog.owner? scope.kind (ObjectName.ofText text) = some owner ∧
        ⟨if owner = scope.role then ∅
          else .ofList [(ObjectName.ofText text).render scope.kind], ∅⟩ = part := by
  simp only [request]
  split
  next howner => simp [howner]
  next owner howner => simp [howner]

/-- What an item contributes to the schemas asked for. -/
theorem mem_schemas_of_request {item schema : String}
    (hpart : scope.request spec.authority catalog (.ofText item) = .ok part) :
    schema ∈ part.schemas ↔ AsksForSchema spec (· = item) schema := by
  constructor
  · -- of the four forms of an item, the two with a mark ask for schemas
    intro hmem
    obtain rfl | rfl | ⟨text, rfl, htext⟩ | ⟨hword, hcontents⟩ := Target.ofText_cases item
    · rw [Target.ofText_personalSchemas, request_personalSchemas_eq_ok_iff] at hpart
      obtain ⟨-, rfl⟩ := hpart
      exact absurd hmem (OrderedSet.not_mem_empty schema)
    · rw [Target.ofText_personalContents] at hpart
      obtain rfl := Except.ok.inj hpart
      obtain ⟨config, hdeclared, hflagged⟩ := Spec.mem_flagged.1 hmem
      exact .personal rfl hdeclared hflagged
    · rw [Target.ofText_contents htext] at hpart
      obtain rfl := Except.ok.inj hpart
      obtain rfl : schema = Identifier.unquote text := by simpa using hmem
      exact .contents rfl htext
    · rw [Target.ofText_named hword hcontents, request_named_eq_ok_iff] at hpart
      obtain ⟨owner, -, rfl⟩ := hpart
      exact absurd hmem (OrderedSet.not_mem_empty schema)
  · rintro (⟨rfl, htext⟩ | ⟨rfl, hdeclared, hflagged⟩)
    · rw [Target.ofText_contents htext] at hpart
      obtain rfl := Except.ok.inj hpart
      simp
    · rw [Target.ofText_personalContents] at hpart
      obtain rfl := Except.ok.inj hpart
      exact Spec.mem_flagged.2 ⟨_, hdeclared, hflagged⟩

/-- What an item contributes to the objects asked for. -/
theorem mem_objects_of_request {item object : String}
    (hpart : scope.request spec.authority catalog (.ofText item) = .ok part) :
    object ∈ part.objects ↔
      ∃ name, ItemNames spec catalog scope.role scope.kind item name ∧
        object = name.render scope.kind := by
  constructor
  · -- of the four forms of an item, the two without a mark ask for objects
    intro hmem
    obtain rfl | rfl | ⟨text, rfl, htext⟩ | ⟨hword, hcontents⟩ := Target.ofText_cases item
    · rw [Target.ofText_personalSchemas, request_personalSchemas_eq_ok_iff] at hpart
      obtain ⟨hkind, rfl⟩ := hpart
      obtain ⟨schema, hschema, rfl⟩ := List.mem_map.1 (OrderedSet.mem_ofList.1 hmem)
      obtain ⟨hpersonal, hforeign⟩ := OrderedSet.mem_erase.1 hschema
      obtain ⟨config, hdeclared, hflagged⟩ := Spec.mem_flagged.1 hpersonal
      exact ⟨⟨schema, none⟩, .personal hkind rfl hdeclared hflagged hforeign, rfl⟩
    · rw [Target.ofText_personalContents] at hpart
      obtain rfl := Except.ok.inj hpart
      exact absurd hmem (OrderedSet.not_mem_empty object)
    · rw [Target.ofText_contents htext] at hpart
      obtain rfl := Except.ok.inj hpart
      exact absurd hmem (OrderedSet.not_mem_empty object)
    · rw [Target.ofText_named hword hcontents, request_named_eq_ok_iff] at hpart
      obtain ⟨owner, howner, rfl⟩ := hpart
      by_cases hforeign : owner = scope.role
      · simp [hforeign] at hmem
      · simp only [hforeign, if_false, OrderedSet.mem_ofList, List.mem_singleton] at hmem
        exact ⟨_, .named hword hcontents howner hforeign, hmem⟩
  · rintro ⟨name, ⟨hword, hcontents, howner, hforeign⟩ |
      ⟨hkind, rfl, hdeclared, hflagged, hforeign⟩, rfl⟩
    · rw [Target.ofText_named hword hcontents, request_named_eq_ok_iff] at hpart
      obtain ⟨owner, howner', rfl⟩ := hpart
      obtain rfl := Option.some.inj (howner.symm.trans howner')
      simp [hforeign]
    · rw [Target.ofText_personalSchemas, request_personalSchemas_eq_ok_iff] at hpart
      obtain ⟨-, rfl⟩ := hpart
      have hpersonal := Spec.mem_flagged.2 ⟨_, hdeclared, hflagged⟩
      exact OrderedSet.mem_ofList.2
        (List.mem_map.2 ⟨_, OrderedSet.mem_erase.2 ⟨hpersonal, hforeign⟩, rfl⟩)

/-! ## What a list of targets yields -/

/-- The objects of others in a schema, each by its canonical name. -/
theorem mem_foreignObjects_iff {schema object : String} :
    object ∈ scope.foreignObjects catalog schema ↔
      ∃ name owner, name.schema = schema ∧ catalog.owner? scope.kind name = some owner ∧
        owner ≠ scope.role ∧ object = name.render scope.kind := by
  simp only [foreignObjects, List.mem_map, List.mem_filter, Catalog.mem_objectsIn_iff,
    decide_eq_true_eq]
  constructor
  · rintro ⟨⟨name, owner⟩, ⟨⟨hschema, howner⟩, hforeign⟩, rfl⟩
    exact ⟨name, owner, hschema, howner, hforeign, rfl⟩
  · rintro ⟨name, owner, hschema, howner, hforeign, rfl⟩
    exact ⟨(name, owner), ⟨⟨hschema, howner⟩, hforeign⟩, rfl⟩

/-- The schemas that a list of items yields are those asked for by the rules. -/
theorem mem_schemas_iff (h : scope.requests spec.authority catalog items = .ok request)
    {schema : String} : schema ∈ request.schemas ↔ AsksForSchema spec (· ∈ items) schema := by
  obtain ⟨parts, hparts, hrequest⟩ := bind_eq_ok_iff.1 h
  obtain rfl := pure_eq_ok_iff.1 hrequest
  simp only [OrderedSet.mem_ofList, List.mem_flatMap, mem_of_mapM_eq_ok hparts,
    OrderedSet.mem_toList]
  rw [asksForSchema_iff_exists_item]
  constructor
  · rintro ⟨part, ⟨item, hitem, hpart⟩, hmem⟩
    exact ⟨item, hitem, (mem_schemas_of_request hpart).1 hmem⟩
  · rintro ⟨item, hitem, hasks⟩
    obtain ⟨part, hpart⟩ := exists_mapM_eq_ok_iff.1 ⟨parts, hparts⟩ item hitem
    exact ⟨part, ⟨item, hitem, hpart⟩, (mem_schemas_of_request hpart).2 hasks⟩

/-- The objects that a list of items yields are those asked for by the rules, by canonical name. -/
theorem mem_objects_iff (h : scope.requests spec.authority catalog items = .ok request)
    {object : String} : object ∈ request.objects ↔
      ∃ name, AsksForObject spec catalog scope.role scope.kind (· ∈ items) name ∧
        object = name.render scope.kind := by
  have hschemas := @mem_schemas_iff catalog scope items request spec h
  obtain ⟨parts, hparts, hrequest⟩ := bind_eq_ok_iff.1 h
  obtain rfl := pure_eq_ok_iff.1 hrequest
  simp only [OrderedSet.mem_ofList, List.mem_append, List.mem_flatMap, OrderedSet.mem_toList,
    mem_of_mapM_eq_ok hparts, mem_foreignObjects_iff] at hschemas ⊢
  constructor
  · rintro (⟨part, ⟨item, hitem, hpart⟩, hmem⟩ |
      ⟨schema, hschema, name, owner, rfl, howner, hforeign, rfl⟩)
    · obtain ⟨name, hname, rfl⟩ := (mem_objects_of_request hpart).1 hmem
      exact ⟨name, .itself hitem hname, rfl⟩
    · exact ⟨name, .contents (hschemas.1 hschema) howner hforeign, rfl⟩
  · rintro ⟨name, ⟨hschema, howner, hforeign⟩ | ⟨hitem, hname⟩, rfl⟩
    · exact .inr ⟨name.schema, hschemas.2 hschema, name, _, rfl, howner, hforeign, rfl⟩
    · obtain ⟨part, hpart⟩ := exists_mapM_eq_ok_iff.1 ⟨parts, hparts⟩ _ hitem
      exact .inl ⟨part, ⟨_, hitem, hpart⟩, (mem_objects_of_request hpart).2 ⟨name, hname, rfl⟩⟩

/-! ## The privileges wanted, by the rules of targets -/

variable {config : RoleConfig} {wanted : Wanted}

/-- Each verb of the scope is wanted on each object asked for, and nothing else is. -/
theorem mem_privileges_of_items_iff
    (h : scope.wanted spec.authority catalog items = .ok wanted) {p : Privilege} :
    p ∈ wanted.privileges ↔ p.verb ∈ scope.verbs ∧
      ∃ name, AsksForObject spec catalog scope.role scope.kind (· ∈ items) name ∧
        p.object = name.render scope.kind := by
  obtain ⟨request, hrequest, rfl⟩ := wanted_eq_ok_iff.1 h
  simp only [mem_wantedPrivileges, mem_objects_iff hrequest, and_comm]

/-- The same for the items that count in a scope: what is to be written is to be read as well. -/
theorem mem_privileges_iff
    (h : scope.wanted spec.authority catalog (config.wantedAt scope.kind scope.access) = .ok wanted)
    {p : Privilege} : p ∈ wanted.privileges ↔ p.verb ∈ scope.verbs ∧
      ∃ name, AsksForObject spec catalog scope.role scope.kind
        (config.Counts scope.kind scope.access) name ∧ p.object = name.render scope.kind := by
  simp only [mem_privileges_of_items_iff h, RoleConfig.mem_wantedAt_iff]

/-- On future objects, each verb is wanted from every other writer of each schema asked for. -/
theorem mem_defaults_iff
    (h : scope.wanted spec.authority catalog (config.wantedAt scope.kind scope.access) = .ok wanted)
    {p : DefaultPrivilege} : p ∈ wanted.defaults ↔ scope.kind.hasDefaults = true ∧
      AsksForSchema spec (config.Counts scope.kind scope.access) p.schema ∧
      p.grantor ∈ spec.authority.writersOf p.schema ∧ p.grantor ≠ scope.role ∧
      p.verb ∈ scope.verbs := by
  obtain ⟨request, hrequest, rfl⟩ := wanted_eq_ok_iff.1 h
  simp only [mem_wantedDefaults, mem_schemas_iff hrequest, RoleConfig.mem_wantedAt_iff]

end Scope

end GrantPlan
