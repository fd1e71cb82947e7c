/-!
# YAML tokens

The marks and scalars that a YAML text is made of. The start and the end of a block collection are
tokens too, although no character stands for them: they follow from the indentation.
-/

namespace GrantPlan.Yaml

/-- How a scalar is written. Only a plain scalar can denote something other than its text. -/
inductive ScalarStyle
  | plain
  | quoted
  | block
deriving DecidableEq, Repr

/-- The characters of a tag. Escapes spell out octets, and `none` stands for octets that encode no
character. -/
abbrev TagText := List (Option Char)

namespace TagText

/-- The characters of a text. -/
def ofString (s : String) : TagText := s.toList.map some

/-- The text that the characters make up, if all of them are characters. -/
def text? (tag : TagText) : Option String := (tag.mapM id).map String.ofList

/-- Whether a tag has a meaning in this document only: it begins with an exclamation mark. -/
def isLocal (tag : TagText) : Bool := tag.head? = some (some '!')

/-- What is left of a tag that holds the character that ends texts. -/
def untilNul (tag : TagText) : TagText := tag.takeWhile (· ≠ some '\x00')

end TagText

/-- A token of a YAML text. -/
inductive Token
  | version (major minor : Nat)
  /-- Tags that begin with `handle` stand for tags that begin with `start`. -/
  | tagHandle (handle : String) (start : TagText)
  | documentStart
  | documentEnd
  | blockSequenceStart
  | blockMappingStart
  | blockEnd
  | flowSequenceStart
  | flowSequenceEnd
  | flowMappingStart
  | flowMappingEnd
  | blockEntry
  | flowEntry
  | key
  | value
  | alias (name : String)
  | anchor (name : String)
  | tag (handle : String) (suffix : TagText)
  | scalar (style : ScalarStyle) (text : String)
  | streamEnd
deriving DecidableEq, Repr

end GrantPlan.Yaml
