/-!
# Object kinds, access levels and verbs

The five kinds of database objects whose privileges are managed, the two access levels that a
spec asks for, and the privilege verbs that each level stands for on each kind. A verb belongs to
at most one level of a kind (`accessFor?_eq_some_iff`), so a held privilege can be sorted back into
the level it was granted for.
-/

namespace GrantPlan

open Std

/-- A kind of database object whose privileges are managed. -/
inductive ObjectKind
  | schemas
  | tables
  | sequences
  | functions
  | types
deriving DecidableEq, Repr

/-- The access level that a spec asks for. -/
inductive Access
  | read
  | write
deriving DecidableEq, Repr

namespace Access

/-- Every level, in the order of analysis. -/
def all : List Access := [.read, .write]

/-- The word for a level in spec documents and messages. -/
def name : Access → String
  | .read => "read"
  | .write => "write"

/-- The level that a word names. -/
def ofName? (s : String) : Option Access := all.find? (·.name = s)

/-- The place of a level in the order of analysis. -/
def rank : Access → Nat
  | .read => 0
  | .write => 1

instance : Ord Access := ⟨compareOn rank⟩

instance : TransOrd Access := inferInstanceAs (TransCmp (compareOn rank))

instance : LawfulEqOrd Access where
  eq_of_compare {a b} := by cases a <;> cases b <;> decide

end Access

namespace ObjectKind

/-- Every kind, in the order of analysis. -/
def all : List ObjectKind := [.schemas, .tables, .sequences, .functions, .types]

/-- The plural word for a kind, as spec and catalog documents spell it. -/
def name : ObjectKind → String
  | .schemas => "schemas"
  | .tables => "tables"
  | .sequences => "sequences"
  | .functions => "functions"
  | .types => "types"

/-- The kind that a plural word names. -/
def ofName? (s : String) : Option ObjectKind := all.find? (·.name = s)

/-- The singular word for a kind, as messages spell it. -/
def singular : ObjectKind → String
  | .schemas => "schema"
  | .tables => "table"
  | .sequences => "sequence"
  | .functions => "function"
  | .types => "type"

/-- The keyword in front of one object of a kind. -/
def keyword : ObjectKind → String
  | .schemas => "SCHEMA"
  | .tables => "TABLE"
  | .sequences => "SEQUENCE"
  | .functions => "FUNCTION"
  | .types => "TYPE"

/-- The keyword for all future objects of a kind. -/
def pluralKeyword : ObjectKind → String
  | .schemas => "SCHEMAS"
  | .tables => "TABLES"
  | .sequences => "SEQUENCES"
  | .functions => "FUNCTIONS"
  | .types => "TYPES"

/-- Whether privileges on future objects of a kind are managed. Schemas stand in no schema, so
there is nothing such a privilege could be tied to. -/
def hasDefaults : ObjectKind → Bool
  | .schemas => false
  | _ => true

theorem hasDefaults_iff {kind : ObjectKind} : kind.hasDefaults = true ↔ kind ≠ .schemas := by
  cases kind <;> simp [hasDefaults]

/-- The place of a kind in the order of analysis. -/
def rank : ObjectKind → Nat
  | .schemas => 0
  | .tables => 1
  | .sequences => 2
  | .functions => 3
  | .types => 4

instance : Ord ObjectKind := ⟨compareOn rank⟩

instance : TransOrd ObjectKind := inferInstanceAs (TransCmp (compareOn rank))

instance : LawfulEqOrd ObjectKind where
  eq_of_compare {a b} := by cases a <;> cases b <;> decide

/-- The verbs that an access level stands for on a kind. -/
def verbs : ObjectKind → Access → List String
  | .schemas, .read => ["USAGE"]
  | .schemas, .write => ["CREATE"]
  | .tables, .read => ["SELECT"]
  | .tables, .write => ["INSERT", "UPDATE", "DELETE", "TRUNCATE", "REFERENCES", "TRIGGER"]
  | .sequences, .read => ["SELECT"]
  | .sequences, .write => ["USAGE", "UPDATE"]
  | .functions, .read => ["EXECUTE"]
  | .functions, .write => []
  | .types, .read => ["USAGE"]
  | .types, .write => []

/-- The access level that a verb belongs to on a kind. -/
def accessFor? (kind : ObjectKind) (verb : String) : Option Access :=
  Access.all.find? fun access => (kind.verbs access).contains verb

/-- No verb of a kind belongs to both levels. -/
theorem not_mem_verbs_write {kind : ObjectKind} {verb : String} (h : verb ∈ kind.verbs .read) :
    ¬ verb ∈ kind.verbs .write := by
  have disjoint : ∀ v ∈ kind.verbs .read, ¬ v ∈ kind.verbs .write := by cases kind <;> decide
  exact disjoint verb h

theorem accessFor?_eq_some_iff {kind : ObjectKind} {verb : String} {access : Access} :
    kind.accessFor? verb = some access ↔ verb ∈ kind.verbs access := by
  have h := @not_mem_verbs_write kind verb
  cases access <;> simp [accessFor?, Access.all, List.find?_cons] <;> grind

end ObjectKind

end GrantPlan
