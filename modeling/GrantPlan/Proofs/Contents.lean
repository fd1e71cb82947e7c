import GrantPlan.Proofs.Request
import GrantPlan.Proofs.SchemaText
/-!
# Everything in a schema

One item can ask for everything in a schema, by the mark behind a text for the schema. The same can
be asked for object by object, with the text in front of each object (`Catalog.listing`). Either way
the objects of others in a schema are asked for, and it remains whether the schema is the same.

It is the same in every catalog just when the text has no white space around it, which would stay in
front of the mark, and no open quote, which would hide the dot in front of an object
(`contents_as_listed_iff`).
-/

namespace GrantPlan

variable {spec : Spec} {catalog : Catalog} {scope : Scope} {role : String} {kind : ObjectKind}
  {text schema : String} {name : ObjectName}

/-- The items that name each object in a schema, with a text for the schema in front. -/
def Catalog.listing (catalog : Catalog) (kind : ObjectKind) (text schema : String) : List String :=
  (catalog.objectsIn kind schema).filterMap fun (name, _) =>
    name.object?.map fun object => text ++ "." ++ ObjectName.renderObject kind object

/-! ## Items that name an object -/

/-- The last character of an object in canonical spelling is a quote or a parenthesis. -/
theorem ObjectName.getLast?_renderObject (kind : ObjectKind) (object : String) :
    (renderObject kind object).toList.getLast? = some '"' ∨
      (renderObject kind object).toList.getLast? = some ')' := by
  have hquote : (Identifier.quote (splitArguments kind object).1).toList.getLast? = some '"' := by
    rw [Identifier.quote, String.toList_ofList]
    exact List.getLast?_concat
  have hparts : renderObject kind object = Identifier.quote (splitArguments kind object).1 ++
      (splitArguments kind object).2 := rfl
  rw [hparts, String.toList_append, List.getLast?_append, hquote]
  cases hlast : (splitArguments kind object).2.toList.getLast? with
  | none => exact .inl rfl
  | some c =>
    obtain rfl := eq_of_getLast?_splitArguments hlast
    exact .inr rfl

/-- An item that is no word for the personal schemas, and has no mark for contents behind it. -/
structure Target.IsName (item : String) : Prop where
  not_word : item ≠ personalSchemasWord
  not_contents : ∀ text, item ≠ text ++ contentsMark

theorem Target.isName_append_renderObject (front : String) (kind : ObjectKind) (object : String) :
    IsName (front ++ ObjectName.renderObject kind object) := by
  have hlast := ObjectName.getLast?_renderObject kind object
  refine ⟨fun heq => ?_, ne_append_contentsMark ?_⟩
  · have hlast' := congrArg (fun s => s.toList.getLast?) heq
    rcases hlast with hlast | hlast <;> simp [hlast, personalSchemasWord] at hlast'
  · rcases hlast with hlast | hlast <;> simp [hlast]

/-! ## What is asked for -/

/-- By the mark, everything of others is asked for in the schema that the text is without its
quotes. -/
theorem asksForObject_contents_iff (hword : text ≠ personalSchemasWord) :
    AsksForObject spec catalog role kind (· ∈ [text ++ Target.contentsMark]) name ↔
      name.schema = Identifier.unquote text ∧
        ∃ owner, catalog.owner? kind name = some owner ∧ owner ≠ role := by
  simp only [List.mem_singleton]
  constructor
  · intro h
    cases h with
    | contents hasked howner hforeign =>
      generalize hschema : name.schema = asked at hasked
      cases hasked with
      | contents hitem _ =>
        obtain rfl := (String.append_left_inj _).1 hitem
        exact ⟨rfl, _, howner, hforeign⟩
      | personal hitem _ _ => exact absurd ((String.append_left_inj _).1 hitem).symm hword
    | itself hitem hnames =>
      cases hnames with
      | named _ hcontents _ _ => exact absurd hitem (hcontents text)
      | personal _ hitem' _ _ =>
        exact absurd (hitem.symm.trans hitem') (Target.append_contentsMark_ne_word text)
  · rintro ⟨hschema, owner, howner, hforeign⟩
    refine .contents ?_ howner hforeign
    rw [hschema]
    exact .contents rfl hword

/-- By items that are names, just the objects of others are asked for that the items name. -/
theorem asksForObject_names_iff {items : List String} (h : ∀ item ∈ items, Target.IsName item) :
    AsksForObject spec catalog role kind (· ∈ items) name ↔
      (∃ item ∈ items, ObjectName.ofText item = name) ∧
        ∃ owner, catalog.owner? kind name = some owner ∧ owner ≠ role := by
  constructor
  · intro hasks
    cases hasks with
    | contents hasked _ _ =>
      generalize name.schema = asked at hasked
      cases hasked with
      | contents hitem _ => exact absurd rfl ((h _ hitem).not_contents _)
      | personal hitem _ _ => exact absurd rfl ((h _ hitem).not_contents _)
    | itself hitem hnames =>
      cases hnames with
      | named _ _ howner hforeign => exact ⟨⟨_, hitem, rfl⟩, _, howner, hforeign⟩
      | personal _ hword _ _ => exact absurd hword (h _ hitem).not_word
  · rintro ⟨⟨item, hitem, rfl⟩, owner, howner, hforeign⟩
    exact .itself hitem (.named (h item hitem).not_word (h item hitem).not_contents howner hforeign)

namespace Scope

/-- The contents of a schema can be asked for in every catalog. -/
theorem exists_wanted_contents (spec : Spec) (catalog : Catalog) (scope : Scope)
    (hword : text ≠ personalSchemasWord) :
    ∃ wanted, scope.wanted spec.authority catalog [text ++ Target.contentsMark] = .ok wanted := by
  rw [exists_wanted_iff]
  intro item hitem
  obtain rfl := List.mem_singleton.1 hitem
  rw [Target.ofText_contents hword]
  exact ⟨_, rfl⟩

/-- Items that are names can be read when the catalog knows each of them. -/
theorem exists_wanted_names_iff {items : List String} (h : ∀ item ∈ items, Target.IsName item) :
    (∃ wanted, scope.wanted spec.authority catalog items = .ok wanted) ↔
      ∀ item ∈ items, ∃ owner, catalog.owner? scope.kind (ObjectName.ofText item) = some owner := by
  rw [exists_wanted_iff]
  refine forall₂_congr fun item hitem => ?_
  rw [Target.ofText_named (h item hitem).not_word (h item hitem).not_contents]
  simp only [request_named_eq_ok_iff]
  constructor
  · rintro ⟨part, owner, howner, -⟩
    exact ⟨owner, howner⟩
  · rintro ⟨owner, howner⟩
    exact ⟨_, owner, howner, rfl⟩

/-- Whether asking for the contents of a schema comes to the same as asking for each object in it,
with the same text for the schema. -/
def AsListed (spec : Spec) (catalog : Catalog) (scope : Scope) (text schema : String) : Prop :=
  ∃ wanted wanted',
    scope.wanted spec.authority catalog [text ++ Target.contentsMark] = .ok wanted ∧
    scope.wanted spec.authority catalog (catalog.listing scope.kind text schema) = .ok wanted' ∧
    wanted.privileges = wanted'.privileges

end Scope

/-! ## The items of a listing -/

/-- Whether each object in a schema has a name, as all but schemas have. -/
def Catalog.NamesAll (catalog : Catalog) (kind : ObjectKind) (schema : String) : Prop :=
  ∀ entry ∈ catalog.objectsIn kind schema, entry.1.object?.isSome = true

theorem Catalog.mem_listing_iff {item : String} :
    item ∈ catalog.listing kind text schema ↔
      ∃ object owner, catalog.owner? kind ⟨schema, some object⟩ = some owner ∧
        text ++ "." ++ ObjectName.renderObject kind object = item := by
  simp only [listing, List.mem_filterMap, mem_objectsIn_iff, Option.map_eq_some_iff]
  constructor
  · rintro ⟨⟨⟨schema', object?⟩, owner⟩, ⟨rfl, howner⟩, object, rfl, rfl⟩
    exact ⟨object, owner, howner, rfl⟩
  · rintro ⟨object, owner, howner, rfl⟩
    exact ⟨(⟨schema, some object⟩, owner), ⟨rfl, howner⟩, object, rfl, rfl⟩

theorem Catalog.isName_of_mem_listing :
    ∀ item ∈ catalog.listing kind text schema, Target.IsName item := by
  intro item hitem
  obtain ⟨object, -, -, rfl⟩ := mem_listing_iff.1 hitem
  exact Target.isName_append_renderObject _ kind object

/-- With each quote of the text closed, the items of a listing name the objects in the schema. -/
theorem Catalog.ofText_of_mem_listing (hname : ObjectName.ofText text = ⟨schema, none⟩)
    (hclosed : Even (text.toList.count '"')) :
    (∃ item ∈ catalog.listing kind text schema, ObjectName.ofText item = name) ↔
      ∃ object owner, catalog.owner? kind ⟨schema, some object⟩ = some owner ∧
        ⟨schema, some object⟩ = name := by
  have hread : ∀ object, ObjectName.ofText (text ++ "." ++ ObjectName.renderObject kind object) =
      ⟨schema, some object⟩ := by
    intro object
    rw [ObjectName.ofText_append_dot_of_ofText_eq hname hclosed, ObjectName.readPart_renderObject]
  simp only [mem_listing_iff]
  constructor
  · rintro ⟨item, ⟨object, owner, howner, rfl⟩, rfl⟩
    exact ⟨object, owner, howner, (hread object).symm⟩
  · rintro ⟨object, owner, howner, rfl⟩
    exact ⟨_, ⟨object, owner, howner, rfl⟩, hread object⟩

/-! ## The same schema -/

/-- Text without white space around it and without open quotes asks for the same either way. -/
theorem Scope.asListed_of_plain (hname : ObjectName.ofText text = ⟨schema, none⟩)
    (hword : text ≠ personalSchemasWord) (htrim : trimText text = text)
    (hclosed : Even (text.toList.count '"')) (hall : catalog.NamesAll scope.kind schema) :
    scope.AsListed spec catalog text schema := by
  have hunquote := (ObjectName.unquote_eq_schema_iff hname).2 htrim
  have hnames : ∀ item ∈ catalog.listing scope.kind text schema, Target.IsName item :=
    Catalog.isName_of_mem_listing
  have hrecorded : ∀ item ∈ catalog.listing scope.kind text schema,
      ∃ owner, catalog.owner? scope.kind (ObjectName.ofText item) = some owner := by
    intro item hitem
    obtain ⟨object, owner, howner, hread⟩ :=
      (Catalog.ofText_of_mem_listing hname hclosed).1 ⟨item, hitem, rfl⟩
    exact ⟨owner, hread ▸ howner⟩
  obtain ⟨wanted, hwanted⟩ := exists_wanted_contents spec catalog scope hword
  obtain ⟨wanted', hwanted'⟩ : ∃ wanted', scope.wanted spec.authority catalog
      (catalog.listing scope.kind text schema) = .ok wanted' :=
    (exists_wanted_names_iff hnames).2 hrecorded
  refine ⟨wanted, wanted', hwanted, hwanted', OrderedSet.ext fun p => ?_⟩
  rw [mem_privileges_of_items_iff hwanted, mem_privileges_of_items_iff hwanted']
  refine and_congr_right fun _ => exists_congr fun name => and_congr_left fun _ => ?_
  rw [asksForObject_contents_iff hword, asksForObject_names_iff hnames,
    Catalog.ofText_of_mem_listing hname hclosed, hunquote]
  refine and_congr_left ?_
  rintro ⟨owner, howner, -⟩
  constructor
  · intro hschema
    have hsome := hall (name, owner) (Catalog.mem_objectsIn_iff.2 ⟨hschema, howner⟩)
    obtain ⟨object, hobject⟩ := Option.isSome_iff_exists.1 hsome
    have heq : name = ⟨schema, some object⟩ := by
      cases name
      simp_all
    exact ⟨object, owner, heq ▸ howner, heq.symm⟩
  · rintro ⟨object, -, -, rfl⟩
    rfl

/-- A catalog with one table in a schema. -/
def Catalog.oneTable (schema : String) : Catalog :=
  (∅ : Catalog).addObject .tables (Identifier.quote schema) (some "ledger") "etl"

/-- A role that reads tables of others. -/
def tableReader : Scope := ⟨"analyst", .tables, .read⟩

theorem Catalog.owner?_oneTable_iff {owner : String} :
    (oneTable schema).owner? .tables name = some owner ↔
      name = ⟨schema, some "ledger"⟩ ∧ owner = "etl" := by
  have hledger : Identifier.unquote "ledger" = "ledger" := by decide
  have hempty : ∀ ref, (∅ : Catalog).owners.get? ref = none := OrderedMap.get?_empty
  rw [oneTable, addObject, owner?, Identifier.unquote_quote, Option.map_some, hledger,
    OrderedMap.get?_insert, hempty]
  simp [eq_comm]

theorem Catalog.namesAll_oneTable (schema : String) :
    (oneTable schema).NamesAll .tables schema := by
  intro entry hentry
  obtain ⟨-, howner⟩ := mem_objectsIn_iff.1 hentry
  rw [(owner?_oneTable_iff.1 howner).1]
  rfl

/-- One table is enough to tell the two ways apart. -/
theorem Scope.plain_of_asListed (hname : ObjectName.ofText text = ⟨schema, none⟩)
    (hword : text ≠ personalSchemasWord)
    (h : tableReader.AsListed spec (Catalog.oneTable schema) text schema) :
    trimText text = text ∧ Even (text.toList.count '"') := by
  obtain ⟨wanted, wanted', hwanted, hwanted', heq⟩ := h
  have hnames : ∀ item ∈ (Catalog.oneTable schema).listing .tables text schema,
      Target.IsName item := Catalog.isName_of_mem_listing
  have howner : (Catalog.oneTable schema).owner? .tables ⟨schema, some "ledger"⟩ = some "etl" :=
    Catalog.owner?_oneTable_iff.2 ⟨rfl, rfl⟩
  have hlisted : text ++ "." ++ ObjectName.renderObject .tables "ledger" ∈
      (Catalog.oneTable schema).listing .tables text schema :=
    Catalog.mem_listing_iff.2 ⟨"ledger", "etl", howner, rfl⟩
  obtain ⟨owner, hrecorded⟩ := (exists_wanted_names_iff hnames).1 ⟨wanted', hwanted'⟩ _ hlisted
  have hitem := (Catalog.owner?_oneTable_iff.1 hrecorded).1
  constructor
  · -- the table is asked for by its own item, and so it has to be by the mark
    have hverb : "SELECT" ∈ tableReader.verbs := by decide
    have hasked : ⟨(ObjectName.mk schema (some "ledger")).render tableReader.kind, "SELECT"⟩ ∈
        wanted'.privileges := by
      refine (mem_privileges_of_items_iff hwanted').2 ⟨hverb, ⟨schema, some "ledger"⟩, ?_, rfl⟩
      exact (asksForObject_names_iff hnames).2 ⟨⟨_, hlisted, hitem⟩, "etl", howner, by decide⟩
    rw [← heq, mem_privileges_of_items_iff hwanted] at hasked
    obtain ⟨-, name, hname', hrender⟩ := hasked
    have hledger : ⟨schema, some "ledger"⟩ = name := ObjectName.render_inj.1 hrender
    subst hledger
    obtain ⟨hschema, -⟩ := (asksForObject_contents_iff hword).1 hname'
    exact (ObjectName.unquote_eq_schema_iff hname).1 hschema.symm
  · by_contra hopen
    have hnone := ObjectName.object?_ofText_of_open hname hopen
      (t := ObjectName.renderObject .tables "ledger") (by decide)
    rw [hitem] at hnone
    cases hnone

/-- The texts for a schema that name it in front of the mark as they do in front of its objects,
whatever there is in the catalog: those without white space around them and without open quotes. -/
theorem contents_as_listed_iff (hname : ObjectName.ofText text = ⟨schema, none⟩)
    (hword : text ≠ personalSchemasWord) :
    (∀ (spec : Spec) (catalog : Catalog) (scope : Scope), scope.kind ≠ .schemas →
      catalog.NamesAll scope.kind schema → scope.AsListed spec catalog text schema) ↔
    trimText text = text ∧ Even (text.toList.count '"') := by
  constructor
  · intro h
    exact Scope.plain_of_asListed hname hword
      (h ∅ (Catalog.oneTable schema) tableReader (by decide) (Catalog.namesAll_oneTable schema))
  · rintro ⟨htrim, hclosed⟩ spec catalog scope - hall
    exact Scope.asListed_of_plain hname hword htrim hclosed hall

/-- Between quotes, a schema may have a dot in it. -/
theorem contents_as_listed_quoted :
    ObjectName.ofText "\"my.schema\"" = ⟨"my.schema", none⟩ ∧
    "\"my.schema\"" ≠ personalSchemasWord ∧
    (Catalog.oneTable "my.schema").NamesAll .tables "my.schema" ∧
    tableReader.AsListed ∅ (Catalog.oneTable "my.schema") "\"my.schema\"" "my.schema" := by
  have hname : ObjectName.ofText "\"my.schema\"" = ⟨"my.schema", none⟩ := by decide
  have hword : "\"my.schema\"" ≠ personalSchemasWord := by decide
  have hall := Catalog.namesAll_oneTable "my.schema"
  have hplain := (contents_as_listed_iff hname hword).2 ⟨by decide, by decide⟩
  exact ⟨hname, hword, hall, hplain ∅ _ tableReader (by decide) hall⟩

/-- With a space in front, the table is asked for by its own item only. Behind an open quote, it is
asked for by the mark, and the listing cannot be read. -/
theorem contents_not_as_listed :
    (ObjectName.ofText " finance" = ⟨"finance", none⟩ ∧
      (Catalog.oneTable "finance").NamesAll .tables "finance" ∧
      ¬ tableReader.AsListed ∅ (Catalog.oneTable "finance") " finance" "finance") ∧
    ObjectName.ofText "fin\"ance" = ⟨"fin\"ance", none⟩ ∧
    (Catalog.oneTable "fin\"ance").NamesAll .tables "fin\"ance" ∧
    ¬ tableReader.AsListed ∅ (Catalog.oneTable "fin\"ance") "fin\"ance" "fin\"ance" := by
  refine ⟨⟨by decide, Catalog.namesAll_oneTable _, ?_⟩, by decide, Catalog.namesAll_oneTable _, ?_⟩
  · rintro ⟨wanted, wanted', hwanted, hwanted', heq⟩
    obtain rfl := Except.ok.inj hwanted
    obtain rfl := Except.ok.inj hwanted'
    revert heq
    decide
  · rintro ⟨wanted, wanted', hwanted, hwanted', heq⟩
    cases hwanted'

end GrantPlan
