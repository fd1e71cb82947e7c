import GrantPlan.Catalog.Document
import GrantPlan.Proofs.JsonText
import GrantPlan.Proofs.Traversal
/-!
# Catalog documents are read back

A document that is written and read again is the same document, record by record and in order
(`CatalogDocument.ofText_render`): no name is lost, shortened or folded, whatever characters it is
made of. What becomes of the names after that is for the catalog to say that the document builds up.
-/

namespace GrantPlan

/-! ## Kinds -/

/-- A kind is found under its name. -/
@[simp] theorem ObjectKind.ofName?_name (kind : ObjectKind) : ofName? kind.name = some kind := by
  cases kind <;> decide

namespace Json

variable {α : Type}

/-! ## Texts that a reader understands -/

/-- A text of which a reader of values makes `x`. -/
def Tells (read : Json → Except DocumentError α) (text : String) (x : α) : Prop :=
  ∃ value, Spells text value ∧ read value = .ok x

@[simp] theorem readText_string (s : String) : readText (.string (some s)) = .ok s := rfl

@[simp] theorem readKind_name (kind : ObjectKind) :
    readKind (.string (some kind.name)) = .ok kind := by
  rw [readKind, kindOfWord, ObjectKind.ofName?_name]

@[simp] theorem readOptionalText_string (s : String) :
    readOptionalText (.string (some s)) = .ok (some s) := rfl

/-- A quoted text tells the text that it quotes. -/
theorem tells_quoted (s : String) : Tells readText (quoted s) s :=
  ⟨.string (some s), spells_quoted s, rfl⟩

/-- A list is understood when each of its items is. -/
theorem tells_listText {read : Json → Except DocumentError α} {text : α → String}
    (h : ∀ x, Tells read (text x) x) (level : Nat) (xs : List α) :
    Tells (readList read) (listText level (xs.map text)) xs := by
  choose value hspells hread using h
  have hlist := spells_listText level (xs.map fun x => ⟨text x, value x, hspells x⟩)
  rw [List.map_map, List.map_map] at hlist
  refine ⟨.array (xs.map value), hlist, ?_⟩
  have hitems : List.Forall₂ (fun value x => read value = .ok x) (xs.map value) xs := by
    rw [List.forall₂_map_left_iff, List.forall₂_same]
    exact fun x _ => hread x
  exact mapM_eq_ok_iff.2 hitems

/-! ## Records -/

@[simp] theorem fill_none {field : String} {value : α} :
    fill field none (.ok value) = .ok (some value) := rfl

/-- A field that has a value is not missed. -/
@[simp] theorem required_some {field : String} {value : α} :
    required field (some value) = .ok value := rfl

/-- A field that is a string. -/
def stringMember (field : String × String) : Member := ⟨⟨_, _, spells_quoted field.2⟩, field.1⟩

/-- A record whose fields are strings is understood by a reader that makes `x` of their values. -/
theorem tells_recordText {read : Json → Except DocumentError α} {x : α} (field : String × String)
    (fields : List (String × String))
    (hread : read (.object ((field :: fields).map fun f => (some f.1, .string (some f.2)))) =
      .ok x) :
    Tells read (CatalogDocument.recordText ((field :: fields).map fun f => (f.1, quoted f.2)))
      x := by
  have hobject := spells_objectText 2 (stringMember field) (fields.map stringMember)
  rw [← List.map_cons, List.map_map, List.map_map] at hobject
  exact ⟨_, hobject, hread⟩

end Json

/-- An object record is a record of strings, and has one less where it is about a schema. -/
theorem ObjectRecord.tells_objectText (r : ObjectRecord) :
    Json.Tells reader.read (CatalogDocument.objectText r) r := by
  obtain ⟨kind, schema, name?, owner⟩ := r
  cases name? with
  | none =>
    refine Json.tells_recordText ("kind", kind.name) [("schema", schema), ("owner", owner)] ?_
    simp [Json.RecordReader.read, Json.RecordReader.takeMembers, reader, bind, Except.bind, pure,
      Except.pure]
  | some name =>
    refine Json.tells_recordText ("kind", kind.name)
      [("schema", schema), ("name", name), ("owner", owner)] ?_
    simp [Json.RecordReader.read, Json.RecordReader.takeMembers, reader, bind, Except.bind, pure,
      Except.pure]

/-- The text of a record of a grant tells the record. -/
theorem GrantRecord.tells_grantText (r : GrantRecord) :
    Json.Tells reader.read (CatalogDocument.grantText r) r := by
  obtain ⟨role, kind, object, verb⟩ := r
  refine Json.tells_recordText ("role", role)
    [("kind", kind.name), ("object", object), ("privilege", verb)] ?_
  simp [Json.RecordReader.read, Json.RecordReader.takeMembers, reader, bind, Except.bind, pure,
    Except.pure]

/-- The text of a record of a default grant tells the record. -/
theorem DefaultGrantRecord.tells_defaultGrantText (r : DefaultGrantRecord) :
    Json.Tells reader.read (CatalogDocument.defaultGrantText r) r := by
  obtain ⟨role, kind, grantor, schema, verb⟩ := r
  refine Json.tells_recordText ("role", role)
    [("kind", kind.name), ("grantor", grantor), ("schema", schema), ("privilege", verb)] ?_
  simp [Json.RecordReader.read, Json.RecordReader.takeMembers, reader, bind, Except.bind, pure,
    Except.pure]

/-! ## Documents -/

namespace CatalogDocument

/-- The text of a document tells the document: each list is read back record by record. -/
theorem tells_render (document : CatalogDocument) :
    Json.Tells reader.read document.render document := by
  obtain ⟨superusers, objects, grants, defaultGrants⟩ := document
  obtain ⟨a, ha, hsuperusers⟩ := Json.tells_listText Json.tells_quoted 1 superusers
  obtain ⟨b, hb, hobjects⟩ := Json.tells_listText ObjectRecord.tells_objectText 1 objects
  obtain ⟨c, hc, hgrants⟩ := Json.tells_listText GrantRecord.tells_grantText 1 grants
  obtain ⟨d, hd, hdefaultGrants⟩ :=
    Json.tells_listText DefaultGrantRecord.tells_defaultGrantText 1 defaultGrants
  have hobject := Json.spells_objectText 0 ⟨⟨_, a, ha⟩, "superusers"⟩
    [⟨⟨_, b, hb⟩, "objects"⟩, ⟨⟨_, c, hc⟩, "grants"⟩, ⟨⟨_, d, hd⟩, "default_grants"⟩]
  refine ⟨_, hobject, ?_⟩
  simp [Json.RecordReader.read, Json.RecordReader.takeMembers, Json.Member.read, reader,
    hsuperusers, hobjects, hgrants, hdefaultGrants, bind, Except.bind, pure, Except.pure]

/-- A document is read back from its text. -/
theorem ofText_render (document : CatalogDocument) : ofText document.render = .ok document := by
  obtain ⟨value, hspells, hread⟩ := document.tells_render
  simp only [ofText, hspells.ofText_eq, hread]
  rfl

end CatalogDocument

end GrantPlan
