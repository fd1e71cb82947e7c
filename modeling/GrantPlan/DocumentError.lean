/-!
# Faults of documents

Why a document is refused. Documents are read from front to back, and the first fault met is the
one reported.
-/

namespace GrantPlan

/-- Why a document is refused. -/
inductive DocumentError
  /-- The text does not follow the document's format, or a value is not of the expected sort. -/
  | malformed
  /-- A flag is spelled in a way that says neither yes nor no. -/
  | notFlag (text : String)
  /-- A flag is a number other than 0 and 1. -/
  | notFlagNumber (value : Int)
  /-- A word is none of those that may stand in its place. -/
  | unknownVariant (word : String) (expected : List String)
  /-- A field is none of those that may stand in its place. -/
  | unknownField (field : String) (expected : List String)
  | missingField (field : String)
  | duplicateField (field : String)
deriving DecidableEq, Repr

namespace DocumentError

/-- A word as messages show it. -/
def ticked (word : String) : String := "`" ++ word ++ "`"

/-- The words that would do, as messages list them. -/
def expectation : List String → String
  | [a, b] => "expected " ++ ticked a ++ " or " ++ ticked b
  | [a] => "expected " ++ ticked a
  | words => "expected one of " ++ ", ".intercalate (words.map ticked)

/-- The text of a fault. What is wrong with the form of a document is not put into words. -/
def message? : DocumentError → Option String
  | malformed => none
  | notFlag text => some ("expected a boolean, got '" ++ text ++ "'")
  | notFlagNumber value => some ("expected a boolean, got integer " ++ toString value)
  | unknownVariant word expected =>
    some ("unknown variant " ++ ticked word ++ ", " ++ expectation expected)
  | unknownField field expected =>
    some ("unknown field " ++ ticked field ++ ", " ++ expectation expected)
  | missingField field => some ("missing field " ++ ticked field)
  | duplicateField field => some ("duplicate field " ++ ticked field)

end DocumentError

end GrantPlan
