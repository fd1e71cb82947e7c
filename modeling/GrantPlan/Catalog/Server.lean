import GrantPlan.Catalog.Document
import GrantPlan.Catalog.Query
/-!
# Catalogs from a server

A catalog as a database server reports it. The server answers each query with rows of cells, and a
cell may be null. The rows of a query are first read as a whole and then taken in one by one, before
the next query is asked; the first fault ends the session (`CatalogServer.load`).

The server sends the names of objects without quotes.
-/

namespace GrantPlan

/-! ## Rows -/

/-- What a server reports of an object. -/
structure ObjectRow where
  kind : Option String
  schema : Option String
  name : Option String
  owner : Option String
deriving DecidableEq, Repr

/-- What a server reports of a privilege on an object. -/
structure GrantRow where
  kind : Option String
  schema : Option String
  name : Option String
  grantee : Option String
  verb : Option String
deriving DecidableEq, Repr

/-- What a server reports of a privilege on future objects. -/
structure DefaultGrantRow where
  kind : Option String
  grantor : Option String
  schema : Option String
  grantee : Option String
  verb : Option String
deriving DecidableEq, Repr

/-- A server, by its answers: a message where it refuses to answer, and rows otherwise. -/
structure CatalogServer where
  connection : Except String Unit
  superusers : Except String (List (Option String))
  objects : Except String (List ObjectRow)
  grants : Except String (List GrantRow)
  defaultGrants : Except String (List DefaultGrantRow)

/-- Why a catalog cannot be read from a server. -/
inductive ServerError
  /-- There is no connection to the server. -/
  | noConnection
  /-- The answer to a query cannot be had, or cannot be read. -/
  | unreadable (query : CatalogQuery) (reason : String)
  /-- A row is about a kind of object that is not managed. -/
  | unknownKind (word : String)
deriving DecidableEq, Repr

/-- The text of a fault. -/
def ServerError.message : ServerError → String
  | noConnection => "failed to connect"
  | unreadable query reason => "failed to read " ++ query.subject ++ ": " ++ reason
  | unknownKind word => "unknown object kind '" ++ word ++ "'"

/-! ## From rows to records -/

namespace CatalogServer

/-- The cell that tells the kind of an object, next to what the other cells tell. -/
structure Labelled (α : Type) where
  kind : String
  /-- What the row tells about an object of a kind. -/
  record : ObjectKind → α

/-- A row about an object, of which only the name may be null. -/
def readObject? (row : ObjectRow) : Option (Labelled ObjectRecord) := do
  let schema ← row.schema
  let owner ← row.owner
  return ⟨← row.kind, fun kind => ⟨kind, schema, row.name, owner⟩⟩

/-- A row about a privilege on an object, of which only the name may be null. The record names the
object by its canonical spelling. -/
def readGrant? (row : GrantRow) : Option (Labelled GrantRecord) := do
  let schema ← row.schema
  let grantee ← row.grantee
  let verb ← row.verb
  return ⟨← row.kind, fun kind =>
    ⟨grantee, kind, (ObjectName.mk schema row.name).render kind, verb⟩⟩

/-- A row about a privilege on future objects, of which nothing may be null. -/
def readDefaultGrant? (row : DefaultGrantRow) : Option (Labelled DefaultGrantRecord) := do
  let grantor ← row.grantor
  let schema ← row.schema
  let grantee ← row.grantee
  let verb ← row.verb
  return ⟨← row.kind, fun kind => ⟨grantee, kind, grantor, schema, verb⟩⟩

/-- The record of a row, once its kind is known. -/
def record {α : Type} (row : Labelled α) : Except ServerError α :=
  match ObjectKind.ofName? row.kind with
  | some kind => .ok (row.record kind)
  | none => .error (.unknownKind row.kind)

/-! ## Sessions -/

/-- What is reported of a null cell that must hold something. -/
def nullNote : String := "Unexpected null for non-null column"

/-- A session with a server, and the queries it has been asked. -/
abbrev Session := ExceptT ServerError (StateM (List CatalogQuery))

/-- Asks a query and reads the rows of the answer. -/
def ask {ρ α : Type} (query : CatalogQuery) (answer : Except String (List ρ))
    (read? : ρ → Option α) : Session (List α) := do
  modify (· ++ [query])
  match answer with
  | .error message => throw (.unreadable query message)
  | .ok rows =>
    match rows.mapM read? with
    | some rows => return rows
    | none => throw (.unreadable query nullNote)

/-- Asks a query about objects of several kinds and takes in its rows. -/
def askRecords {ρ α : Type} (query : CatalogQuery) (answer : Except String (List ρ))
    (read? : ρ → Option (Labelled α)) : Session (List α) := do
  let rows ← ask query answer read?
  rows.mapM fun row => record row

/-- Asks everything there is to know about a catalog. -/
def records (server : CatalogServer) : Session CatalogDocument := do
  match server.connection with
  | .error _ => throw .noConnection
  | .ok () =>
    let superusers ← ask .superusers server.superusers id
    let objects ← askRecords .objects server.objects readObject?
    let grants ← askRecords .grants server.grants readGrant?
    let defaultGrants ← askRecords .defaultGrants server.defaultGrants readDefaultGrant?
    return ⟨superusers, objects, grants, defaultGrants⟩

/-- The catalog of a server, and the queries it took to read it. -/
def load (server : CatalogServer) : Except ServerError Catalog × List CatalogQuery :=
  let (document, asked) := server.records.run.run []
  (document.map Catalog.ofDocument, asked)

end CatalogServer

end GrantPlan
