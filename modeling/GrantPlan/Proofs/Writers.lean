import GrantPlan.Authority
import GrantPlan.Proofs.Membership
/-!
# Writers of schemas

Who can create objects in a schema. The writers of all schemas are collected in three passes: over
the owners, over the roles with what each may write, and over the schemas that have come up so far,
which the superusers join. A pass writes into the table that the one before has left, so schemas may
come up late and sets of writers grow.

What the passes leave is said without them: the writers of a schema are the superusers, its owner,
and the roles whose items open it for writing, with their members (`mem_writersOf_iff`). This holds
of the schemas in the table and of all others (`writersOf_by_entries`).
-/

namespace GrantPlan

open Relation

variable {spec : Spec} {role writer schema item : String} {config : RoleConfig}

/-! ## Schemas that items open -/

/-- The schemas that an item opens for writing to the role that lists it. -/
inductive OpensSchema (spec : Spec) (item : String) : String → Prop
  /-- The schema that the item names. -/
  | named (not_word : Identifier.unquote item ≠ personalSchemasWord) :
      OpensSchema spec item (Identifier.unquote item)
  /-- Every personal schema, by the word for them. -/
  | personal {schema : String} {config : RoleConfig}
      (word : Identifier.unquote item = personalSchemasWord)
      (declared : (schema, config) ∈ spec.roles) (flagged : config.hasPersonalSchema = true) :
      OpensSchema spec item schema

theorem opensSchema_iff :
    OpensSchema spec item schema ↔
      Identifier.unquote item = schema ∧ schema ≠ personalSchemasWord ∨
        Identifier.unquote item = personalSchemasWord ∧
          ∃ config, (schema, config) ∈ spec.roles ∧ config.hasPersonalSchema = true := by
  constructor
  · intro h
    cases h with
    | named not_word => exact .inl ⟨rfl, not_word⟩
    | personal word declared flagged => exact .inr ⟨word, _, declared, flagged⟩
  · rintro (⟨rfl, not_word⟩ | ⟨word, config, declared, flagged⟩)
    · exact .named not_word
    · exact .personal word declared flagged

theorem mem_writableSchemas_iff :
    schema ∈ writableSchemas spec.personalSchemas config ↔
      ∃ item ∈ config.targetsAt .schemas .write, OpensSchema spec item schema := by
  have hnamed : ∀ name, name ∈ (OrderedSet.ofList
      ((config.targetsAt .schemas .write).map Identifier.unquote)) ↔
      ∃ item ∈ config.targetsAt .schemas .write, Identifier.unquote item = name := by
    intro name
    rw [OrderedSet.mem_ofList, List.mem_map]
  unfold writableSchemas
  dsimp only
  constructor
  · intro h
    split at h
    next hword =>
      -- the word stands for the personal schemas, and not for a schema that is called like it
      rcases OrderedSet.mem_union.1 h with h | h
      · obtain ⟨h, hne⟩ := OrderedSet.mem_erase.1 h
        obtain ⟨item, hitem, rfl⟩ := (hnamed schema).1 h
        exact ⟨item, hitem, .named hne⟩
      · obtain ⟨item, hitem, hword⟩ := (hnamed _).1 hword
        obtain ⟨config', hdeclared, hflagged⟩ := Spec.mem_flagged.1 h
        exact ⟨item, hitem, .personal hword hdeclared hflagged⟩
    next hword =>
      obtain ⟨item, hitem, rfl⟩ := (hnamed schema).1 h
      exact ⟨item, hitem, .named fun heq => hword ((hnamed _).2 ⟨item, hitem, heq⟩)⟩
  · intro h
    obtain ⟨item, hitem, hopens⟩ := h
    cases hopens with
    | named hne =>
      have hmem := (hnamed _).2 ⟨item, hitem, rfl⟩
      split
      · exact OrderedSet.mem_union.2 (.inl (OrderedSet.mem_erase.2 ⟨hmem, hne⟩))
      · exact hmem
    | personal hword hdeclared hflagged =>
      rw [if_pos ((hnamed _).2 ⟨item, hitem, hword⟩)]
      exact OrderedSet.mem_union.2 (.inr (Spec.mem_flagged.2 ⟨_, hdeclared, hflagged⟩))

/-! ## The passes over the roles

A step may bring in schemas and may add writers to the schemas that are there.
-/

section Passes
variable {table later : SchemaWriters}

/-- The writers that a table has for a schema. A schema that is not in the table has none. -/
def SchemaWriters.writersIn (table : SchemaWriters) (schema : String) : OrderedSet String :=
  (table.get? schema).getD ∅

/-- A later table has the writers that an earlier one has and `facts` besides. The schemas in it are
those of the earlier table and those that `facts` gives a writer. -/
structure Admits (table later : SchemaWriters) (facts : String → String → Prop) : Prop where
  mem_keys_iff : ∀ schema, schema ∈ later.keys ↔ schema ∈ table.keys ∨ ∃ writer, facts schema writer
  mem_writersIn_iff : ∀ schema writer,
    writer ∈ later.writersIn schema ↔ writer ∈ table.writersIn schema ∨ facts schema writer

theorem Admits.refl (table : SchemaWriters) : Admits table table fun _ _ => False :=
  ⟨fun _ => by simp, fun _ _ => by simp⟩

theorem Admits.trans {middle : SchemaWriters} {facts facts' : String → String → Prop}
    (h : Admits table middle facts) (h' : Admits middle later facts') :
    Admits table later fun schema writer => facts schema writer ∨ facts' schema writer := by
  constructor
  · intro schema
    rw [h'.mem_keys_iff, h.mem_keys_iff, or_assoc, ← exists_or]
  · intro schema writer
    rw [h'.mem_writersIn_iff, h.mem_writersIn_iff, or_assoc]

theorem Admits.congr {facts facts' : String → String → Prop} (h : Admits table later facts)
    (hfacts : ∀ schema writer, facts schema writer ↔ facts' schema writer) :
    Admits table later facts' :=
  ⟨fun schema => by simp only [h.mem_keys_iff, hfacts],
    fun schema writer => by rw [h.mem_writersIn_iff, hfacts]⟩

/-- One schema receives a role and its members. -/
theorem admits_update (table : SchemaWriters) (schema role : String) (members : OrderedSet String) :
    Admits table (table.update schema ∅ fun known => known.insert role ∪ members)
      fun schema' writer => schema' = schema ∧ (writer = role ∨ writer ∈ members) := by
  constructor
  · intro schema'
    rw [OrderedMap.mem_keys_iff, OrderedMap.mem_keys_iff, OrderedMap.get?_update]
    by_cases hschema : schema' = schema
    · -- the role is a writer there in any case
      rw [if_pos hschema]
      exact iff_of_true ⟨_, rfl⟩ (.inr ⟨role, hschema, .inl rfl⟩)
    · rw [if_neg hschema]
      exact (or_iff_left fun ⟨_, heq, _⟩ => hschema heq).symm
  · intro schema' writer
    unfold SchemaWriters.writersIn
    rw [OrderedMap.get?_update]
    by_cases hschema : schema' = schema
    · rw [if_pos hschema, Option.getD_some, OrderedSet.mem_union, OrderedSet.mem_insert,
        and_iff_right hschema, or_right_comm, or_comm]
    · rw [if_neg hschema]
      exact (or_iff_left fun h => hschema h.1).symm

/-- Each of some schemas receives a role and its members. -/
theorem admits_admitWriters (table : SchemaWriters) (schemas : List String) (role : String)
    (members : OrderedSet String) :
    Admits table (admitWriters table schemas role members)
      fun schema writer => schema ∈ schemas ∧ (writer = role ∨ writer ∈ members) := by
  unfold admitWriters
  induction schemas generalizing table with
  | nil => exact (Admits.refl table).congr fun schema writer => by simp
  | cons schema schemas ih =>
    refine ((admits_update table schema role members).trans (ih _)).congr fun schema' writer => ?_
    rw [← or_and_right, List.mem_cons]

/-- The targets of one role bring in the role and its members, in each schema that an item opens. -/
theorem admits_admitHolders (spec : Spec) (table : SchemaWriters) (role : String) (config : RoleConfig) :
    Admits table (admitHolders (.ofSpec spec) spec.personalSchemas table role config)
      fun schema writer => (∃ item ∈ config.targetsAt .schemas .write, OpensSchema spec item schema) ∧
        ReflTransGen spec.Joins writer role := by
  have hholders : ∀ writer, writer = role ∨ writer ∈ (Membership.ofSpec spec).membersOf role ↔
      ReflTransGen spec.Joins writer role := by
    intro writer
    rw [Membership.mem_membersOf_iff, reflTransGen_iff_eq_or_transGen, eq_comm]
  simp only [← mem_writableSchemas_iff, ← hholders]
  unfold admitHolders
  dsimp only
  split
  next hempty =>
    -- a role that may write nothing is passed over
    have hnone : ∀ schema, ¬ schema ∈ writableSchemas spec.personalSchemas config := by
      intro schema hschema
      exact List.ne_nil_of_mem hschema (List.isEmpty_iff.1 hempty)
    exact (Admits.refl table).congr fun schema writer =>
      iff_of_false not_false fun h => hnone schema h.1
  next => exact admits_admitWriters table _ role _

/-- The pass over some entries brings in what each of them opens, whatever the order. -/
theorem admits_foldl_admitHolders (spec : Spec) (table : SchemaWriters)
    (entries : List (String × RoleConfig)) :
    Admits table (entries.foldl
        (fun table (role, config) =>
          admitHolders (.ofSpec spec) spec.personalSchemas table role config) table)
      fun schema writer => ∃ role config, (role, config) ∈ entries ∧
        (∃ item ∈ config.targetsAt .schemas .write, OpensSchema spec item schema) ∧
        ReflTransGen spec.Joins writer role := by
  induction entries generalizing table with
  | nil => exact (Admits.refl table).congr fun schema writer => by simp
  | cons entry entries ih =>
    obtain ⟨role, config⟩ := entry
    refine ((admits_admitHolders spec table role config).trans (ih _)).congr fun schema writer => ?_
    simp only [List.mem_cons, Prod.mk.injEq, or_and_right, exists_or, and_assoc, exists_and_left,
      exists_eq_left]

end Passes

/-! ## The writers of a schema -/

/-- A spec mentions a schema where it gives the schema an owner, or an item opens the schema. -/
def Spec.Mentions (spec : Spec) (schema : String) : Prop :=
  (∃ owner, spec.schemaOwners.get? schema = some owner) ∨
    ∃ role config, (role, config) ∈ spec.roles ∧
      ∃ item ∈ config.targetsAt .schemas .write, OpensSchema spec item schema

/-- Before the pass over the roles, each owned schema has its owner. -/
theorem mem_ownersAsWriters_iff :
    writer ∈ spec.ownersAsWriters.writersIn schema ↔ spec.schemaOwners.get? schema = some writer := by
  rw [SchemaWriters.writersIn, Spec.ownersAsWriters, OrderedMap.get?_mapValues]
  cases spec.schemaOwners.get? schema with
  | none => simp
  | some owner => simp [eq_comm]

/-- After the pass over the roles, the owner is joined by whom the targets bring in. -/
theorem mem_holdersAsWriters_iff :
    writer ∈ spec.holdersAsWriters.writersIn schema ↔
      spec.schemaOwners.get? schema = some writer ∨
        ∃ role config, (role, config) ∈ spec.roles ∧
          (∃ item ∈ config.targetsAt .schemas .write, OpensSchema spec item schema) ∧
          ReflTransGen spec.Joins writer role := by
  have hpass := admits_foldl_admitHolders spec spec.ownersAsWriters spec.roles
  rw [← mem_ownersAsWriters_iff]
  exact hpass.mem_writersIn_iff schema writer

/-- The schemas that have come up by then are those that the spec mentions. -/
theorem mem_keys_holdersAsWriters_iff :
    schema ∈ spec.holdersAsWriters.keys ↔ spec.Mentions schema := by
  have hpass := admits_foldl_admitHolders spec spec.ownersAsWriters spec.roles
  have howned : schema ∈ spec.ownersAsWriters.keys ↔
      ∃ owner, spec.schemaOwners.get? schema = some owner := by
    rw [OrderedMap.mem_keys_iff, Spec.ownersAsWriters, OrderedMap.get?_mapValues]
    simp
  rw [Spec.Mentions, ← howned]
  refine (hpass.mem_keys_iff schema).trans (or_congr_right ?_)
  constructor
  · rintro ⟨writer, role, config, hconfig, hopens, -⟩
    exact ⟨role, config, hconfig, hopens⟩
  · rintro ⟨role, config, hconfig, hopens⟩
    exact ⟨role, role, config, hconfig, hopens, .refl⟩

/-- The last pass leaves the same schemas in the table, each with the superusers besides. -/
theorem get?_schemaWriters (spec : Spec) (schema : String) :
    spec.schemaWriters.get? schema =
      (spec.holdersAsWriters.get? schema).map (· ∪ spec.superusers) :=
  OrderedMap.get?_mapValues _ _ _

/-- The writers of a schema are the superusers, its owner, and the roles whose items open it, with
all their members. It makes no difference whether the spec mentions the schema. -/
theorem mem_writersOf_iff :
    writer ∈ spec.authority.writersOf schema ↔
      (∃ config, (writer, config) ∈ spec.roles ∧ config.isSuperuser = true) ∨
      spec.schemaOwners.get? schema = some writer ∨
      ∃ role config, (role, config) ∈ spec.roles ∧
        (∃ item ∈ config.targetsAt .schemas .write, OpensSchema spec item schema) ∧
        ReflTransGen spec.Joins writer role := by
  have hsuperuser : writer ∈ spec.superusers ↔
      ∃ config, (writer, config) ∈ spec.roles ∧ config.isSuperuser = true := Spec.mem_flagged
  rw [← hsuperuser, ← mem_holdersAsWriters_iff]
  show writer ∈ (spec.schemaWriters.get? schema).getD spec.superusers ↔ _
  rw [get?_schemaWriters, SchemaWriters.writersIn]
  cases spec.holdersAsWriters.get? schema with
  | none => simp
  | some writers => simp [or_comm]

/-- A table entry is for a schema that the spec mentions, and holds all its writers. -/
theorem get?_schemaWriters_eq_some_iff {writers : OrderedSet String} :
    spec.schemaWriters.get? schema = some writers ↔
      spec.Mentions schema ∧ writers = spec.authority.writersOf schema := by
  rw [← mem_keys_holdersAsWriters_iff, OrderedMap.mem_keys_iff]
  show _ ↔ _ ∧ writers = (spec.schemaWriters.get? schema).getD spec.superusers
  rw [get?_schemaWriters]
  cases spec.holdersAsWriters.get? schema with
  | none => simp
  | some writers => simp [eq_comm]

/-- The writers of a schema by what the entries of the spec say, whatever the passes came upon first:
the superusers, the owner, and each role that lists the schema for writing, by its name or by the word
for the personal schemas, with whoever a chain of entries makes a member of it. The passes leave the
schemas in the table that the spec mentions, and the superusers stand in under any other. -/
theorem writersOf_by_entries (spec : Spec) (schema : String) :
    (∀ writer, writer ∈ spec.authority.writersOf schema ↔
      (∃ config, (writer, config) ∈ spec.roles ∧ config.isSuperuser = true) ∨
      spec.schemaOwners.get? schema = some writer ∨
      ∃ role config item, (role, config) ∈ spec.roles ∧ item ∈ config.targetsAt .schemas .write ∧
        (Identifier.unquote item = schema ∧ schema ≠ personalSchemasWord ∨
          Identifier.unquote item = personalSchemasWord ∧
            ∃ config', (schema, config') ∈ spec.roles ∧ config'.hasPersonalSchema = true) ∧
        (writer = role ∨ ∃ between, (writer :: (between ++ [role])).IsChain spec.Joins)) ∧
    ∀ writers, spec.schemaWriters.get? schema = some writers ↔
      spec.Mentions schema ∧ writers = spec.authority.writersOf schema := by
  constructor
  · intro writer
    rw [mem_writersOf_iff]
    refine or_congr_right (or_congr_right ?_)
    simp only [← opensSchema_iff, Spec.exists_chain_iff]
    constructor
    · rintro ⟨role, config, hconfig, ⟨item, hitem, hopens⟩, hmember⟩
      rw [reflTransGen_iff_eq_or_transGen, eq_comm] at hmember
      exact ⟨role, config, item, hconfig, hitem, hopens, hmember⟩
    · rintro ⟨role, config, item, hconfig, hitem, hopens, hmember⟩
      rw [eq_comm, ← reflTransGen_iff_eq_or_transGen] at hmember
      exact ⟨role, config, hconfig, ⟨item, hitem, hopens⟩, hmember⟩
  · exact fun writers => get?_schemaWriters_eq_some_iff

end GrantPlan
