import GrantPlan.Identifier
import GrantPlan.ObjectKind
import GrantPlan.Ordered.Set
import GrantPlan.Text.Blank
/-!
# Names of database objects

A name is a schema, or an object in a schema. Every spelling of a name is read by `ofText`, and
`render` gives each name one canonical spelling, so that names from different places compare equal
exactly when they denote the same object.
-/

namespace GrantPlan

open Std

/-- A schema, or an object in a schema, both without quotes. -/
structure ObjectName where
  schema : String
  /-- The object in the schema; `none` for the schema itself. -/
  object? : Option String
deriving DecidableEq, Repr

namespace ObjectName

/-- Schemas alphabetically, each schema in front of its objects. -/
instance : Ord ObjectName := ⟨compareLex (compareOn (·.schema)) (compareOn (·.object?))⟩

instance : TransOrd ObjectName :=
  inferInstanceAs (TransCmp (compareLex (compareOn ObjectName.schema) (compareOn ObjectName.object?)))

instance : LawfulEqOrd ObjectName where
  eq_of_compare {a b} h := by
    obtain ⟨hschema, hobject⟩ := compareLex_eq_eq.1 h
    have := eq_of_compareOn hschema
    have := eq_of_compareOn hobject
    cases a
    cases b
    simp_all

/-! ## Reading -/

/-- The parts on either side of the first dot that stands outside quotes; `quoted` says whether
the text begins inside quotes. -/
def splitAtDot? (quoted : Bool) : List Char → Option (List Char × List Char)
  | [] => none
  | c :: rest =>
    if c = '.' && !quoted then some ([], rest)
    else (splitAtDot? (quoted ^^ (c = '"')) rest).map fun (front, back) => (c :: front, back)

/-- One part of a written name: white space around it does not count, and quotes are taken off. -/
def readPart (cs : List Char) : String :=
  String.ofList (Identifier.unquoteChars (trimBlanks cs))

/-- The name that a text spells. A text without a dot outside quotes names a schema. -/
def ofText (s : String) : ObjectName :=
  match splitAtDot? false s.toList with
  | some (schema, object) => ⟨readPart schema, some (readPart object)⟩
  | none => ⟨readPart s.toList, none⟩

/-! ## Writing -/

/-- The name of an object and the argument list that follows it. Only functions have one: from the
first opening parenthesis on, provided that the text ends with a closing one. -/
def splitArguments (kind : ObjectKind) (object : String) : String × String :=
  let cs := object.toList
  if kind = .functions && cs.contains '(' && cs.getLast? = some ')' then
    (String.ofList (cs.takeWhile (· ≠ '(')), String.ofList (cs.dropWhile (· ≠ '(')))
  else (object, "")

/-- The spelling of an object: its name between quotes, and its argument list as it is. -/
def renderObject (kind : ObjectKind) (object : String) : String :=
  let (name, arguments) := splitArguments kind object
  Identifier.quote name ++ arguments

/-- The canonical spelling of a name. -/
def render (kind : ObjectKind) (name : ObjectName) : String :=
  match name.object? with
  | none => Identifier.render name.schema
  | some object => Identifier.render name.schema ++ "." ++ renderObject kind object

/-- The canonical spelling of the name that a text spells. -/
def canonical (kind : ObjectKind) (text : String) : String := (ofText text).render kind

end ObjectName

end GrantPlan
