import GrantPlan.Authority
/-!
# Targets

What one item of a list of targets asks for: one named object, everything in a schema, or, by a
reserved word, the personal schemas or everything in them.
-/

namespace GrantPlan

/-- What an item of a list of targets asks for. -/
inductive Target
  /-- Every personal schema itself. -/
  | personalSchemas
  /-- Everything in every personal schema. -/
  | personalContents
  /-- Everything in a schema, whose name is given without quotes. -/
  | contents (schema : String)
  /-- The object that a text names. -/
  | named (text : String)
deriving DecidableEq, Repr

namespace Target

/-- What stands behind the name of a schema to ask for everything in it. -/
def contentsMark : String := ".*"

/-- A text has the mark behind it only if it ends like the mark. -/
theorem ne_append_contentsMark {item : String} (h : item.toList.getLast? ≠ some '*')
    (text : String) : item ≠ text ++ contentsMark := by
  intro heq
  apply h
  rw [heq, String.toList_append, List.getLast?_append]
  rfl

/-- Nothing with the mark behind it is the word for the personal schemas. -/
theorem append_contentsMark_ne_word (text : String) : text ++ contentsMark ≠ personalSchemasWord :=
  (ne_append_contentsMark (by decide) text).symm

/-- The schema of which an item asks for everything, as written. -/
def contentsOf? (item : String) : Option (List Char) :=
  contentsMark.toList.isSuffixOf? item.toList

/-- What an item asks for. -/
def ofText (item : String) : Target :=
  if item = personalSchemasWord then personalSchemas
  else if item = personalSchemasWord ++ contentsMark then personalContents
  else
    match contentsOf? item with
    | some schema => contents (String.ofList (Identifier.unquoteChars schema))
    | none => named item

end Target

end GrantPlan
