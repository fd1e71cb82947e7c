import GrantPlan.Catalog
import GrantPlan.DocumentError
import GrantPlan.Json
import GrantPlan.Json.Text
/-!
# Catalog documents

A catalog as a list of records, and as JSON text. `Catalog.document` lists a catalog in order,
`Catalog.ofDocument` records one record after the other, and the two lists that a document has for
grants hold canonical names once it comes from a catalog.
-/

namespace GrantPlan

/-! ## Records -/

/-- An object and its owner; a record without a name is about the schema itself. -/
structure ObjectRecord where
  kind : ObjectKind
  schema : String
  name? : Option String
  owner : String
deriving DecidableEq, Repr

/-- A verb that a role holds on an object. -/
structure GrantRecord where
  role : String
  kind : ObjectKind
  object : String
  verb : String
deriving DecidableEq, Repr

/-- A verb that a role is to receive on what a grantor will create in a schema. -/
structure DefaultGrantRecord where
  role : String
  kind : ObjectKind
  grantor : String
  schema : String
  verb : String
deriving DecidableEq, Repr

/-- A catalog as records. -/
structure CatalogDocument where
  superusers : List String
  objects : List ObjectRecord
  grants : List GrantRecord
  defaultGrants : List DefaultGrantRecord
deriving DecidableEq, Repr

namespace Catalog

/-- The catalog that the records of a document build up, one after the other. -/
def ofDocument (document : CatalogDocument) : Catalog :=
  let catalog := document.superusers.foldl addSuperuser ∅
  let catalog := document.objects.foldl
    (fun catalog r => catalog.addObject r.kind r.schema r.name? r.owner) catalog
  let catalog := document.grants.foldl
    (fun catalog r => catalog.addGrant r.role r.kind r.object r.verb) catalog
  document.defaultGrants.foldl
    (fun catalog r => catalog.addDefaultGrant r.role r.kind r.grantor r.schema r.verb) catalog

/-- The records of a catalog, in order. -/
def document (catalog : Catalog) : CatalogDocument where
  superusers := catalog.superusers.toList
  objects := catalog.owners.toList.map fun (object, owner) =>
    ⟨object.kind, object.name.schema, object.name.object?, owner⟩
  grants := catalog.grants.toList.map fun grant =>
    ⟨grant.role, grant.kind, grant.privilege.object, grant.privilege.verb⟩
  defaultGrants := catalog.defaultGrants.toList.map fun grant =>
    ⟨grant.role, grant.kind, grant.privilege.grantor, grant.privilege.schema,
      grant.privilege.verb⟩

end Catalog

/-! ## Reading values -/

namespace Json

/-- The text of a string. -/
def readText : Json → Except DocumentError String
  | string (some text) => .ok text
  | _ => .error .malformed

/-- The text of a string, or nothing. -/
def readOptionalText : Json → Except DocumentError (Option String)
  | null => .ok none
  | value => value.readText.map some

/-- The kind that a word names. -/
def kindOfWord (word : String) : Except DocumentError ObjectKind :=
  match ObjectKind.ofName? word with
  | some kind => .ok kind
  | none => .error (.unknownVariant word (ObjectKind.all.map ObjectKind.name))

/-- A kind: its word, or an object in which nothing stands under that word. -/
def readKind : Json → Except DocumentError ObjectKind
  | string (some word) => kindOfWord word
  | object ((some word, value) :: rest) => do
    let kind ← kindOfWord word
    match value, rest with
    | null, [] => .ok kind
    | _, _ => .error .malformed
  | _ => .error .malformed

/-- The values of an array. -/
def readList {α : Type} (read : Json → Except DocumentError α) :
    Json → Except DocumentError (List α)
  | array items => items.mapM read
  | _ => .error .malformed

/-! ## Reading records -/

/-- Fills a field of a draft, which must be open still. -/
def fill {α : Type} (field : String) (current : Option α) (value : Except DocumentError α) :
    Except DocumentError (Option α) :=
  match current with
  | some _ => .error (.duplicateField field)
  | none => value.map some

/-- The value of a field that has to be there. -/
def required {α : Type} (field : String) : Option α → Except DocumentError α
  | some value => .ok value
  | none => .error (.missingField field)

/-- How a record is read: a draft `δ` takes in one field after the other and makes a record `ρ` in
the end. -/
structure RecordReader (δ ρ : Type) where
  /-- The fields in the order in which an array gives them. -/
  fields : List String
  draft : δ
  take : δ → String → Json → Except DocumentError δ
  finish : δ → Except DocumentError ρ

namespace RecordReader

variable {δ ρ : Type}

/-- Takes in the members of an object. -/
def takeMembers (reader : RecordReader δ ρ) (draft : δ) (members : List (Option String × Json)) :
    Except DocumentError δ :=
  members.foldlM
    (fun draft (key, value) =>
      match key with
      | some field => reader.take draft field value
      | none => .error .malformed)
    draft

/-- Reads a record: an object, or an array of its fields in order. An array says nothing about the
names of fields that are missing. -/
def read (reader : RecordReader δ ρ) : Json → Except DocumentError ρ
  | object members => do reader.finish (← reader.takeMembers reader.draft members)
  | array items => do
    let named := reader.fields.zip items
    let draft ← named.foldlM (fun draft (field, value) => reader.take draft field value) reader.draft
    if items.length ≤ reader.fields.length then
      (reader.finish draft).mapError fun _ => .malformed
    else .error .malformed
  | _ => .error .malformed

end RecordReader

end Json

/-! ## Reading catalog documents -/

namespace ObjectRecord

/-- An object record of which some fields are known. -/
structure Draft where
  kind? : Option ObjectKind
  schema? : Option String
  name? : Option (Option String)
  owner? : Option String

/-- How an object record is read. Fields that it does not know do not count. -/
def reader : Json.RecordReader Draft ObjectRecord where
  fields := ["kind", "schema", "name", "owner"]
  draft := ⟨none, none, none, none⟩
  take draft field value :=
    match field with
    | "kind" => do return { draft with kind? := ← Json.fill field draft.kind? value.readKind }
    | "schema" => do return { draft with schema? := ← Json.fill field draft.schema? value.readText }
    | "name" => do return { draft with name? := ← Json.fill field draft.name? value.readOptionalText }
    | "owner" => do return { draft with owner? := ← Json.fill field draft.owner? value.readText }
    | _ => .ok draft
  finish draft := do
    let kind ← Json.required "kind" draft.kind?
    let schema ← Json.required "schema" draft.schema?
    let owner ← Json.required "owner" draft.owner?
    return ⟨kind, schema, draft.name?.getD none, owner⟩

end ObjectRecord

namespace GrantRecord

/-- A grant record of which some fields are known. -/
structure Draft where
  role? : Option String
  kind? : Option ObjectKind
  object? : Option String
  verb? : Option String

/-- How a grant record is read. Fields that it does not know do not count. -/
def reader : Json.RecordReader Draft GrantRecord where
  fields := ["role", "kind", "object", "privilege"]
  draft := ⟨none, none, none, none⟩
  take draft field value :=
    match field with
    | "role" => do return { draft with role? := ← Json.fill field draft.role? value.readText }
    | "kind" => do return { draft with kind? := ← Json.fill field draft.kind? value.readKind }
    | "object" => do return { draft with object? := ← Json.fill field draft.object? value.readText }
    | "privilege" => do return { draft with verb? := ← Json.fill field draft.verb? value.readText }
    | _ => .ok draft
  finish draft := do
    let role ← Json.required "role" draft.role?
    let kind ← Json.required "kind" draft.kind?
    let object ← Json.required "object" draft.object?
    let verb ← Json.required "privilege" draft.verb?
    return ⟨role, kind, object, verb⟩

end GrantRecord

namespace DefaultGrantRecord

/-- A default grant record of which some fields are known. -/
structure Draft where
  role? : Option String
  kind? : Option ObjectKind
  grantor? : Option String
  schema? : Option String
  verb? : Option String

/-- How a default grant record is read. Fields that it does not know do not count. -/
def reader : Json.RecordReader Draft DefaultGrantRecord where
  fields := ["role", "kind", "grantor", "schema", "privilege"]
  draft := ⟨none, none, none, none, none⟩
  take draft field value :=
    match field with
    | "role" => do return { draft with role? := ← Json.fill field draft.role? value.readText }
    | "kind" => do return { draft with kind? := ← Json.fill field draft.kind? value.readKind }
    | "grantor" => do
      return { draft with grantor? := ← Json.fill field draft.grantor? value.readText }
    | "schema" => do return { draft with schema? := ← Json.fill field draft.schema? value.readText }
    | "privilege" => do return { draft with verb? := ← Json.fill field draft.verb? value.readText }
    | _ => .ok draft
  finish draft := do
    let role ← Json.required "role" draft.role?
    let kind ← Json.required "kind" draft.kind?
    let grantor ← Json.required "grantor" draft.grantor?
    let schema ← Json.required "schema" draft.schema?
    let verb ← Json.required "privilege" draft.verb?
    return ⟨role, kind, grantor, schema, verb⟩

end DefaultGrantRecord

namespace CatalogDocument

/-- A catalog document of which some fields are known. -/
structure Draft where
  superusers? : Option (List String)
  objects? : Option (List ObjectRecord)
  grants? : Option (List GrantRecord)
  defaultGrants? : Option (List DefaultGrantRecord)

/-- The fields of a catalog document. -/
def fields : List String := ["superusers", "objects", "grants", "default_grants"]

/-- How a catalog document is read. A list that is left out is empty, and a field that is not known
is refused. -/
def reader : Json.RecordReader Draft CatalogDocument where
  fields := fields
  draft := ⟨none, none, none, none⟩
  take draft field value :=
    match field with
    | "superusers" => do
      let list ← Json.fill field draft.superusers? (value.readList Json.readText)
      return { draft with superusers? := list }
    | "objects" => do
      let list ← Json.fill field draft.objects? (value.readList ObjectRecord.reader.read)
      return { draft with objects? := list }
    | "grants" => do
      let list ← Json.fill field draft.grants? (value.readList GrantRecord.reader.read)
      return { draft with grants? := list }
    | "default_grants" => do
      let list ← Json.fill field draft.defaultGrants? (value.readList DefaultGrantRecord.reader.read)
      return { draft with defaultGrants? := list }
    | _ => .error (.unknownField field fields)
  finish draft := .ok
    ⟨draft.superusers?.getD [], draft.objects?.getD [], draft.grants?.getD [],
      draft.defaultGrants?.getD []⟩

/-- The document that a text spells out. -/
def ofText (s : String) : Except DocumentError CatalogDocument := do
  let (value, ended) := Json.ofText s
  let document ← reader.read value
  if ended then .ok document else .error .malformed

/-! ## Writing catalog documents -/

/-- A record as JSON text, inside a list that is a field of a document. -/
def recordText (members : List (String × String)) : String := Json.objectText 2 members

/-- The JSON text of an object record. -/
def objectText (r : ObjectRecord) : String :=
  recordText <|
    [("kind", Json.quoted r.kind.name), ("schema", Json.quoted r.schema)] ++
      (r.name?.toList.map fun name => ("name", Json.quoted name)) ++
      [("owner", Json.quoted r.owner)]

/-- The JSON text of a grant record. -/
def grantText (r : GrantRecord) : String :=
  recordText
    [("role", Json.quoted r.role), ("kind", Json.quoted r.kind.name),
      ("object", Json.quoted r.object), ("privilege", Json.quoted r.verb)]

/-- The JSON text of a default grant record. -/
def defaultGrantText (r : DefaultGrantRecord) : String :=
  recordText
    [("role", Json.quoted r.role), ("kind", Json.quoted r.kind.name),
      ("grantor", Json.quoted r.grantor), ("schema", Json.quoted r.schema),
      ("privilege", Json.quoted r.verb)]

/-- The JSON text of a document. -/
def render (document : CatalogDocument) : String :=
  Json.objectText 0
    [("superusers", Json.listText 1 (document.superusers.map Json.quoted)),
      ("objects", Json.listText 1 (document.objects.map objectText)),
      ("grants", Json.listText 1 (document.grants.map grantText)),
      ("default_grants", Json.listText 1 (document.defaultGrants.map defaultGrantText))]

end CatalogDocument

namespace Catalog

/-- The catalog that a JSON text describes. -/
def ofText (s : String) : Except DocumentError Catalog :=
  (CatalogDocument.ofText s).map ofDocument

/-- The JSON text of a catalog. -/
def render (catalog : Catalog) : String := catalog.document.render

end Catalog

end GrantPlan
