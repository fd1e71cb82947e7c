import GrantPlan.Proofs.Request
import GrantPlan.Proofs.SchemaText
import GrantPlan.Proofs.Writers
/-!
# Whoever may create objects

The items under which a role lists the schemas it may write are read twice. One reading makes the
role and its members writers of the schemas (`OpensSchema`). The other one asks for the privilege to
create objects there on behalf of the role (`ItemCreates`), and takes more texts for the name of a
schema.

Whether an item that asks for the privilege opens the schema as well is a matter of its text alone
(`Target.OpensAsAsked`). Where it does, no role comes to create objects in a schema by it without
being counted as a writer, and its members with it; any other item fails in this for some spec and
some catalog (`writers_of_creatable`).
-/

namespace GrantPlan

open Relation

variable {spec : Spec} {catalog : Catalog} {role schema item text : String} {config : RoleConfig}

/-- Whether an item lets a role create objects in a schema: by itself it asks for `CREATE` there. -/
def ItemCreates (spec : Spec) (catalog : Catalog) (role item schema : String) : Prop :=
  ∃ wanted, Scope.wanted spec.authority catalog ⟨role, .schemas, .write⟩ [item] = .ok wanted ∧
    ⟨(ObjectName.mk schema none).render .schemas, "CREATE"⟩ ∈ wanted.privileges

/-- An item that is the word for the personal schemas, or else has no mark for contents behind it
and, if it names a schema, has no white space around it and is not the word between quotes. -/
def Target.OpensAsAsked (item : String) : Prop :=
  item = personalSchemasWord ∨
    (∀ text, item ≠ text ++ contentsMark) ∧
      ((ObjectName.ofText item).object? = none →
        trimText item = item ∧ Identifier.unquote item ≠ personalSchemasWord)

/-! ## By the rules of targets -/

/-- The privilege is asked for where the schema is. -/
theorem mem_create_iff {items : List String} {wanted : Wanted}
    (h : Scope.wanted spec.authority catalog ⟨role, .schemas, .write⟩ items = .ok wanted) :
    ⟨(ObjectName.mk schema none).render .schemas, "CREATE"⟩ ∈ wanted.privileges ↔
      AsksForObject spec catalog role .schemas (· ∈ items) ⟨schema, none⟩ := by
  have hverb : "CREATE" ∈ ObjectKind.verbs .schemas .write := by decide
  rw [Scope.mem_privileges_of_items_iff h]
  constructor
  · intro ⟨_, name, hasks, hrender⟩
    have hname : ⟨schema, none⟩ = name := ObjectName.render_inj.1 hrender
    rwa [hname]
  · exact fun hasks => ⟨hverb, _, hasks, rfl⟩

/-- An item that asks for a schema can be read. -/
theorem exists_wanted_of_asks
    (h : AsksForObject spec catalog role .schemas (· = item) ⟨schema, none⟩) :
    ∃ wanted, Scope.wanted spec.authority catalog ⟨role, .schemas, .write⟩ [item] = .ok wanted := by
  rw [Scope.exists_wanted_iff]
  intro item' hitem'
  obtain rfl := List.mem_singleton.1 hitem'
  cases h with
  | contents hschema _ _ =>
    generalize (ObjectName.mk schema none).schema = asked at hschema
    cases hschema with
    | contents hitem hword =>
      rw [← hitem, Target.ofText_contents hword]
      exact ⟨_, rfl⟩
    | personal hitem _ _ =>
      rw [← hitem, Target.ofText_personalContents]
      exact ⟨_, rfl⟩
  | itself hitem hnames =>
    subst hitem
    generalize ObjectName.mk schema none = name at hnames
    cases hnames with
    | named hword hcontents howner _ =>
      rw [Target.ofText_named hword hcontents]
      exact ⟨_, Scope.request_named_eq_ok_iff.2 ⟨_, howner, rfl⟩⟩
    | personal hkind hitem _ _ _ =>
      rw [hitem, Target.ofText_personalSchemas]
      exact ⟨_, Scope.request_personalSchemas_eq_ok_iff.2 ⟨rfl, rfl⟩⟩

/-- An item lets a role create objects in just the schemas that it asks for, by any of the rules. -/
theorem itemCreates_iff :
    ItemCreates spec catalog role item schema ↔
      AsksForObject spec catalog role .schemas (· = item) ⟨schema, none⟩ := by
  have hlisted : (· ∈ [item]) = (· = item) := by
    funext item'
    rw [List.mem_singleton]
  rw [← hlisted]
  constructor
  · intro ⟨wanted, hwanted, hcreate⟩
    exact (mem_create_iff hwanted).1 hcreate
  · intro hasks
    obtain ⟨wanted, hwanted⟩ := exists_wanted_of_asks (hlisted ▸ hasks)
    exact ⟨wanted, hwanted, (mem_create_iff hwanted).2 hasks⟩

/-- A role comes to create objects in a schema by one or another of its items. -/
theorem mem_create_iff_exists_item {wanted : Wanted}
    (h : Scope.wanted spec.authority catalog ⟨role, .schemas, .write⟩
      (config.wantedAt .schemas .write) = .ok wanted) :
    ⟨(ObjectName.mk schema none).render .schemas, "CREATE"⟩ ∈ wanted.privileges ↔
      ∃ item ∈ config.targetsAt .schemas .write, ItemCreates spec catalog role item schema := by
  rw [mem_create_iff h, asksForObject_iff_exists_item]
  exact exists_congr fun item => and_congr_right fun _ => itemCreates_iff.symm

/-! ## Items that open what they ask for -/

/-- Where it opens what it asks for, an item opens each schema in which it lets a role create. -/
theorem opensSchema_of_itemCreates (h : ItemCreates spec catalog role item schema)
    (hitem : Target.OpensAsAsked item) : OpensSchema spec item schema := by
  cases itemCreates_iff.1 h with
  | contents hschema _ _ =>
    -- with a mark behind it, an item is neither the word nor without mark
    exfalso
    have hmark : ∃ text, item = text ++ Target.contentsMark := by
      cases hschema with
      | contents hmark _ => exact ⟨_, hmark.symm⟩
      | personal hmark _ _ => exact ⟨_, hmark.symm⟩
    obtain ⟨text, rfl⟩ := hmark
    rcases hitem with hword | ⟨hcontents, -⟩
    · exact Target.append_contentsMark_ne_word text hword
    · exact hcontents text rfl
  | itself heq hnames =>
    subst heq
    generalize hname : ObjectName.mk schema none = name at hnames
    cases hnames with
    | named hword _ _ _ =>
      obtain ⟨-, hplain⟩ := hitem.resolve_left hword
      obtain ⟨htrim, hunquote⟩ := hplain (by rw [← hname])
      have heq := (ObjectName.unquote_eq_schema_iff hname.symm).2 htrim
      rw [← heq]
      exact .named hunquote
    | personal _ hword hdeclared hflagged _ =>
      obtain rfl := (ObjectName.mk.inj hname).1
      refine .personal ?_ hdeclared hflagged
      rw [hword]
      decide

/-- So the role and its members are writers there. -/
theorem mem_writersOf_of_itemCreates (hconfig : (role, config) ∈ spec.roles)
    (hlisted : item ∈ config.targetsAt .schemas .write)
    (hcreates : ItemCreates spec catalog role item schema) (hitem : Target.OpensAsAsked item) :
    ∀ member, ReflTransGen spec.Joins member role → member ∈ spec.authority.writersOf schema := by
  intro member hmember
  have hopens := opensSchema_of_itemCreates hcreates hitem
  exact mem_writersOf_iff.2 (.inr (.inr ⟨role, config, hconfig, ⟨item, hlisted, hopens⟩, hmember⟩))

/-! ## Items that do not -/

/-- What the spec says about `etl`: the schemas, or sorts of schemas, that it may write. -/
def pipelineWriter (items : List String) : RoleConfig :=
  { RoleConfig.default with targets := .insert ∅ .schemas (.insert ∅ .write items) }

/-- A spec in which `loader` belongs to `etl`. -/
def pipelineSpec (items : List String) : Spec :=
  .ofList
    [("etl", pipelineWriter items), ("loader", { RoleConfig.default with memberOf := ["etl"] })]

/-- Where a spec has no owners and no superusers, `etl` is a writer by its one item only. -/
theorem mem_writersOf_pipelineSpec_iff :
    "etl" ∈ (pipelineSpec [item]).authority.writersOf schema ↔
      Identifier.unquote item = schema ∧ schema ≠ personalSchemasWord := by
  have hentries : ∀ role config, (role, config) ∈ (pipelineSpec [item]).roles →
      config.isSuperuser = false ∧ config.hasPersonalSchema = false ∧
        ∀ item' ∈ config.targetsAt .schemas .write, item' = item := by
    intro role config hconfig
    have hroles : (role, config) ∈ [("etl", pipelineWriter [item]),
        ("loader", { RoleConfig.default with memberOf := ["etl"] })] := hconfig
    rcases List.mem_cons.1 hroles with heq | hroles
    · obtain rfl := (Prod.mk.inj heq).2
      exact ⟨rfl, rfl, fun item' hitem' => List.mem_singleton.1 hitem'⟩
    · obtain rfl := (Prod.mk.inj (List.mem_singleton.1 hroles)).2
      exact ⟨rfl, rfl, fun item' hitem' => absurd hitem' List.not_mem_nil⟩
  have howners : (pipelineSpec [item]).schemaOwners.get? schema = none := rfl
  rw [mem_writersOf_iff, howners]
  constructor
  · rintro (⟨config, hconfig, hsuper⟩ | howner | ⟨role, config, hconfig, hopens, -⟩)
    · rw [(hentries _ config hconfig).1] at hsuper
      cases hsuper
    · cases howner
    · obtain ⟨item', hitem', hopens⟩ := hopens
      obtain rfl := (hentries role config hconfig).2.2 item' hitem'
      rcases opensSchema_iff.1 hopens with hnamed | ⟨-, config', hconfig', hflagged⟩
      · exact hnamed
      · rw [(hentries _ config' hconfig').2.1] at hflagged
        cases hflagged
  · intro hnamed
    refine .inr (.inr ⟨"etl", pipelineWriter [item], List.mem_cons_self, ?_, .refl⟩)
    exact ⟨item, List.mem_cons_self, opensSchema_iff.2 (.inl hnamed)⟩

/-- A catalog with one schema of another role. -/
def Catalog.oneSchema (schema : String) : Catalog :=
  (∅ : Catalog).addObject .schemas (Identifier.quote schema) none "dba"

theorem Catalog.owner?_oneSchema (schema : String) :
    (oneSchema schema).owner? .schemas ⟨schema, none⟩ = some "dba" := by
  rw [oneSchema, addObject, owner?, Identifier.unquote_quote, Option.map_none,
    OrderedMap.get?_insert, if_pos rfl]

/-- In some spec and for some catalog, a role that lists the item and no other comes to create objects
in a schema, and is not counted as a writer of it. -/
def Target.Miscounted (item : String) : Prop :=
  ∃ spec catalog role config schema, (role, config) ∈ spec.roles ∧
    catalog.isSuperuser role = false ∧ config.targetsAt .schemas .write = [item] ∧
    ItemCreates spec catalog role item schema ∧ ¬ role ∈ spec.authority.writersOf schema

/-- With one item and one schema, it remains to see that the item asks for the schema, and does so
in another spelling than the one that is opened. -/
theorem miscounted_of_asks (schema : String)
    (hasks : AsksForObject (pipelineSpec [item]) (.oneSchema schema) "etl" .schemas (· = item)
      ⟨schema, none⟩)
    (hother : Identifier.unquote item = schema → schema = personalSchemasWord) :
    Target.Miscounted item := by
  refine ⟨pipelineSpec [item], .oneSchema schema, "etl", pipelineWriter [item], schema,
    List.mem_cons_self, rfl, rfl, itemCreates_iff.2 hasks, ?_⟩
  rw [mem_writersOf_pipelineSpec_iff]
  exact fun h => h.2 (hother h.1)

/-- The mark stays behind the name of the schema that is opened. -/
theorem miscounted_contents (hword : text ≠ personalSchemasWord) :
    Target.Miscounted (text ++ Target.contentsMark) := by
  have hmark : '"' ∉ Target.contentsMark.toList := by decide
  apply miscounted_of_asks (Identifier.unquote text)
  · exact .contents (.contents rfl hword) (Catalog.owner?_oneSchema _) (by decide)
  · intro heq
    rw [Identifier.unquote_append hmark] at heq
    have hlength := congrArg (fun s => s.toList.length) heq
    simp [Target.contentsMark] at hlength

/-- A spec with a personal schema, in which `etl` lists the contents of all such schemas. -/
def personalContentsSpec : Spec :=
  .ofList
    [("alice", { RoleConfig.default with hasPersonalSchema := true }),
      ("etl", pipelineWriter [personalSchemasWord ++ Target.contentsMark])]

/-- With the mark, the word is no word for the personal schemas any more. -/
theorem miscounted_personalContents :
    Target.Miscounted (personalSchemasWord ++ Target.contentsMark) :=
  ⟨personalContentsSpec, .oneSchema "alice", "etl",
    pipelineWriter [personalSchemasWord ++ Target.contentsMark], "alice",
    by decide, by decide, by decide, ⟨_, rfl, by decide⟩, by decide⟩

/-- White space stays around the name of the schema that is opened, and the word between quotes opens
the personal schemas. -/
theorem miscounted_named (hword : item ≠ personalSchemasWord)
    (hcontents : ∀ text, item ≠ text ++ Target.contentsMark)
    (hname : (ObjectName.ofText item).object? = none)
    (hplain : ¬ (trimText item = item ∧ Identifier.unquote item ≠ personalSchemasWord)) :
    Target.Miscounted item := by
  have heq : ObjectName.ofText item = ⟨(ObjectName.ofText item).schema, none⟩ := by
    rw [← hname]
  have howner : (Catalog.oneSchema (ObjectName.ofText item).schema).owner? .schemas
      (ObjectName.ofText item) = some "dba" := by
    rw [heq]
    exact Catalog.owner?_oneSchema _
  apply miscounted_of_asks (ObjectName.ofText item).schema
  · rw [← heq]
    exact .itself rfl (.named hword hcontents howner (by decide))
  · intro hunquote
    by_contra hschema
    exact hplain ⟨(ObjectName.unquote_eq_schema_iff heq).1 hunquote, hunquote ▸ hschema⟩

/-! ## Which items are counted -/

/-- Every item fails for some spec and some catalog but those that open what they ask for. -/
theorem miscounted_of_not_opensAsAsked (h : ¬ Target.OpensAsAsked item) : Target.Miscounted item := by
  obtain rfl | rfl | ⟨text, rfl, hword⟩ | ⟨hword, hcontents⟩ := Target.ofText_cases item
  · exact absurd (.inl rfl) h
  · exact miscounted_personalContents
  · exact miscounted_contents hword
  · obtain ⟨hname, hplain⟩ := Classical.not_imp.1 fun hplain => h (.inr ⟨hcontents, hplain⟩)
    exact miscounted_named hword hcontents hname hplain

/-- Whoever is to create objects in a schema comes to do so by one of its items. It is a writer of the
schema together with all its members, as soon as one such item opens what it asks for. These are just
the items by which no role goes uncounted, whatever the spec and the catalog. -/
theorem writers_of_creatable {wanted : Wanted} (hconfig : (role, config) ∈ spec.roles)
    (hwanted : Scope.wanted spec.authority catalog ⟨role, .schemas, .write⟩
      (config.wantedAt .schemas .write) = .ok wanted)
    (hcreate : ⟨(ObjectName.mk schema none).render .schemas, "CREATE"⟩ ∈ wanted.privileges) :
    (∃ item ∈ config.targetsAt .schemas .write, ItemCreates spec catalog role item schema) ∧
    (∀ item ∈ config.targetsAt .schemas .write, ItemCreates spec catalog role item schema →
      Target.OpensAsAsked item → ∀ member, ReflTransGen spec.Joins member role →
        member ∈ spec.authority.writersOf schema) ∧
    ∀ item, Target.Miscounted item ↔ ¬ Target.OpensAsAsked item := by
  refine ⟨(mem_create_iff_exists_item hwanted).1 hcreate, ?_, fun item => ?_⟩
  · intro item hlisted hcreates hitem
    exact mem_writersOf_of_itemCreates hconfig hlisted hcreates hitem
  · constructor
    · rintro ⟨spec, catalog, role, config, schema, hconfig, -, htargets, hcreates, hwriter⟩ hitem
      have hlisted : item ∈ config.targetsAt .schemas .write := by
        rw [htargets]
        exact List.mem_singleton_self item
      exact hwriter (mem_writersOf_of_itemCreates hconfig hlisted hcreates hitem role .refl)
    · exact miscounted_of_not_opensAsAsked

/-- A database with schemas of another role, one of them called like the word for the personal
schemas. -/
def pipelineCatalog : Catalog :=
  (∅ : Catalog).addObject .schemas "finance" none "dba"
    |>.addObject .schemas "hr" none "dba"
    |>.addObject .schemas "personal_schemas" none "dba"

/-- A schema by its name between quotes, and another one with white space in front. -/
def quotedAndPadded : List String := ["\"finance\"", " hr"]

/-- By the first item `etl` comes to create objects in `finance`, and `loader` is a writer there. What
the second item does makes no difference to this. -/
theorem writers_of_creatable_pipeline :
    ("etl", pipelineWriter quotedAndPadded) ∈ (pipelineSpec quotedAndPadded).roles ∧
    (∃ wanted, Scope.wanted (pipelineSpec quotedAndPadded).authority pipelineCatalog
        ⟨"etl", .schemas, .write⟩ ((pipelineWriter quotedAndPadded).wantedAt .schemas .write) =
          .ok wanted ∧
      ⟨(ObjectName.mk "finance" none).render .schemas, "CREATE"⟩ ∈ wanted.privileges) ∧
    ItemCreates (pipelineSpec quotedAndPadded) pipelineCatalog "etl" "\"finance\"" "finance" ∧
    Target.OpensAsAsked "\"finance\"" ∧ Target.Miscounted " hr" ∧
    "loader" ∈ (pipelineSpec quotedAndPadded).authority.writersOf "finance" := by
  have hconfig : ("etl", pipelineWriter quotedAndPadded) ∈ (pipelineSpec quotedAndPadded).roles := by
    decide
  obtain ⟨wanted, hwanted, hcreate⟩ : ∃ wanted, Scope.wanted
      (pipelineSpec quotedAndPadded).authority pipelineCatalog ⟨"etl", .schemas, .write⟩
        ((pipelineWriter quotedAndPadded).wantedAt .schemas .write) = .ok wanted ∧
      ⟨(ObjectName.mk "finance" none).render .schemas, "CREATE"⟩ ∈ wanted.privileges :=
    ⟨_, rfl, by decide⟩
  have hlisted : "\"finance\"" ∈ (pipelineWriter quotedAndPadded).targetsAt .schemas .write := by
    decide
  have hcreates : ItemCreates (pipelineSpec quotedAndPadded) pipelineCatalog "etl" "\"finance\""
      "finance" := ⟨_, rfl, by decide⟩
  have hquoted : Target.OpensAsAsked "\"finance\"" :=
    .inr ⟨Target.ne_append_contentsMark (by decide), fun _ => by decide⟩
  have hpadded : ¬ Target.OpensAsAsked " hr" := by
    rintro (hword | ⟨-, hplain⟩)
    · revert hword
      decide
    · exact absurd (hplain (by decide)).1 (by decide)
  have hjoins : (pipelineSpec quotedAndPadded).Joins "loader" "etl" :=
    ⟨{ RoleConfig.default with memberOf := ["etl"] }, by decide, by decide⟩
  obtain ⟨-, hwriters, hmiscounted⟩ := writers_of_creatable hconfig hwanted hcreate
  exact ⟨hconfig, ⟨wanted, hwanted, hcreate⟩, hcreates, hquoted, (hmiscounted " hr").2 hpadded,
    hwriters _ hlisted hcreates hquoted "loader" (.single hjoins)⟩

/-- By its one item `etl` comes to create objects in a schema, and is not counted as a writer of
it. -/
def CreatesUncounted (item schema : String) : Prop :=
  ("etl", pipelineWriter [item]) ∈ (pipelineSpec [item]).roles ∧
    pipelineCatalog.isSuperuser "etl" = false ∧
    (∃ wanted, Scope.wanted (pipelineSpec [item]).authority pipelineCatalog
      ⟨"etl", .schemas, .write⟩ ((pipelineWriter [item]).wantedAt .schemas .write) = .ok wanted ∧
        ⟨(ObjectName.mk schema none).render .schemas, "CREATE"⟩ ∈ wanted.privileges) ∧
    ¬ "etl" ∈ (pipelineSpec [item]).authority.writersOf schema

/-- White space around the name, the mark for the contents, and the word between quotes. -/
theorem not_writer_of_creatable :
    CreatesUncounted " finance" "finance" ∧ CreatesUncounted "finance.*" "finance" ∧
      CreatesUncounted "\"personal_schemas\"" "personal_schemas" := by
  refine ⟨?_, ?_, ?_⟩
  · exact ⟨by decide, by decide, ⟨_, rfl, by decide⟩, by decide⟩
  · exact ⟨by decide, by decide, ⟨_, rfl, by decide⟩, by decide⟩
  · exact ⟨by decide, by decide, ⟨_, rfl, by decide⟩, by decide⟩

end GrantPlan
