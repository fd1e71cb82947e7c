import GrantPlan.Yaml.Folding
import GrantPlan.Yaml.Token
/-!
# Tags and directives

How tags are written at nodes, and the directives in front of a document: the version of the
language, and handles that abbreviate tags.
-/

namespace GrantPlan.Yaml

/-! ## Tags -/

/-- A character of a tag. Between angle brackets and in directives (`wide`) commas and square
brackets belong to it too. -/
def isTagChar (wide : Bool) (c : Char) : Bool :=
  isWordChar c || ";/?:@&=+$.!~*'()%".toList.contains c || (wide && (c = ',' || c = '[' || c = ']'))

/-- The octet that a percent sign and two hexadecimal digits give, and what follows. -/
def readOctet : List Char → Option (Nat × List Char)
  | '%' :: a :: b :: rest => do return (16 * (← hexDigit? a) + (← hexDigit? b), rest)
  | _ => none

/-- How many octets there are in a sequence that begins with this one, and what the first
contributes to the code point. -/
def leadingOctet? (octet : Nat) : Option (Nat × Nat) :=
  if octet < 0x80 then some (1, octet)
  else if 0xC0 ≤ octet && octet < 0xE0 then some (2, octet - 0xC0)
  else if 0xE0 ≤ octet && octet < 0xF0 then some (3, octet - 0xE0)
  else if 0xF0 ≤ octet && octet < 0xF8 then some (4, octet - 0xF0)
  else none

/-- Reads `n` octets that go on a sequence. -/
def readFurtherOctets : Nat → Nat → List Char → Option (Nat × List Char)
  | 0, code, cs => some (code, cs)
  | n + 1, code, cs => do
    let (octet, cs) ← readOctet cs
    if 0x80 ≤ octet && octet < 0xC0 then readFurtherOctets n (code * 64 + (octet - 0x80)) cs
    else none

/-- The character that a sequence of `width` octets with this code point encodes. A sequence that is
longer than it needs to be, or whose code point is no character's, encodes none. -/
def encodedChar? (width code : Nat) : Option Char :=
  if code.isValidChar && (Char.ofNat code).utf8Size = width then some (Char.ofNat code) else none

/-- The character that an escaped sequence of octets encodes, and what follows. -/
def readEscapedChar (cs : List Char) : Option (Option Char × List Char) := do
  let (octet, cs) ← readOctet cs
  let (width, code) ← leadingOctet? octet
  let (code, cs) ← readFurtherOctets (width - 1) code cs
  return (encodedChar? width code, cs)

/-- What the characters of a tag stand for. -/
def unescapeTag : Nat → List Char → Option TagText
  | _, [] => some []
  | 0, _ => none
  | fuel + 1, c :: rest =>
    if c = '%' then do
      let (e, rest) ← readEscapedChar (c :: rest)
      return e :: (← unescapeTag fuel rest)
    else do return some c :: (← unescapeTag fuel rest)

/-- Reads the characters of a tag. There must be at least one, unless `start`, which stands in
front of them, is there already. An escaped NUL ends what they stand for. -/
def readTagText (wide : Bool) (start : List Char) (cursor : Cursor) :
    Option (TagText × Cursor) := do
  let (cs, cursor) := cursor.takeWhile (isTagChar wide)
  if start.isEmpty && cs.isEmpty then none
  else
    let text := (start.drop 1).map some ++ (← unescapeTag cs.length cs)
    return (TagText.untilNul text, cursor)

/-- Reads a handle: an exclamation mark, and up to a further one a word. The second mark may be
missing, and what is read is then not a handle but the start of a tag. -/
def readHandle (cursor : Cursor) : Option (List Char × Cursor) :=
  if cursor.rest.head? = some '!' then
    let (word, cursor) := (cursor.skip 1).takeWhile isWordChar
    if cursor.rest.head? = some '!' then some ('!' :: word ++ ['!'], cursor.skip 1)
    else some ('!' :: word, cursor)
  else none

/-- Whether what `readHandle` has read is a handle between two marks. -/
def isClosedHandle (handle : List Char) : Bool :=
  1 < handle.length && handle.getLast? = some '!'

/-- Reads a tag between angle brackets, from behind the mark. -/
def readVerbatimTag (cursor : Cursor) : Option (Token × Cursor) := do
  let (text, cursor) ← readTagText true [] (cursor.skip 1)
  if cursor.rest.head? = some '>' then return (.tag "" text, cursor.skip 1)
  else none

/-- Reads a tag with a handle, or without. The single mark is a tag of its own. -/
def readShortTag (cursor : Cursor) : Option (Token × Cursor) := do
  let (handle, cursor) ← readHandle cursor
  if isClosedHandle handle then
    let (text, cursor) ← readTagText false [] cursor
    return (.tag (String.ofList handle) text, cursor)
  else
    let (text, cursor) ← readTagText false handle cursor
    if text.isEmpty then return (.tag "" (.ofString "!"), cursor)
    else return (.tag "!" text, cursor)

/-- Reads the tag at a place. White space has to follow, or in a flow collection a comma. -/
def readTag (flow : Bool) (cursor : Cursor) : Option (Token × Cursor) := do
  let (token, cursor) ←
    if cursor.rest.take 2 = ['!', '<'] then readVerbatimTag (cursor.skip 1)
    else readShortTag cursor
  if atGap cursor.rest || (flow && cursor.rest.head? = some ',') then return (token, cursor)
  else none

/-! ## Directives -/

/-- Reads a number of at most nine digits. -/
def readVersionNumber (cursor : Cursor) : Option (Nat × Cursor) :=
  let (digits, cursor) := cursor.takeWhile Char.isDigit
  if 1 ≤ digits.length && digits.length ≤ 9 then
    some (digits.foldl (fun n c => 10 * n + (c.toNat - '0'.toNat)) 0, cursor)
  else none

/-- Reads the value of a version directive. -/
def readVersion (cursor : Cursor) : Option (Token × Cursor) := do
  let (major, cursor) ← readVersionNumber cursor.skipWhite
  if cursor.rest.head? = some '.' then
    let (minor, cursor) ← readVersionNumber (cursor.skip 1)
    return (.version major minor, cursor)
  else none

/-- Reads the value of a handle directive. -/
def readTagHandle (cursor : Cursor) : Option (Token × Cursor) := do
  let (handle, cursor) ← readHandle cursor.skipWhite
  if (isClosedHandle handle || handle = ['!']) && cursor.rest.head?.any isWhite then
    let (start, cursor) ← readTagText true [] cursor.skipWhite
    if atGap cursor.rest then
      return (.tagHandle (String.ofList handle) start, cursor)
    else none
  else none

/-- Reads the directive at a place, up to the beginning of the next line. -/
def readDirective (cursor : Cursor) : Option (Token × Cursor) := do
  let (name, cursor) := (cursor.skip 1).takeWhile isWordChar
  let (token, cursor) ←
    if !atGap cursor.rest then none
    else if name = "YAML".toList then readVersion cursor
    else if name = "TAG".toList then readTagHandle cursor
    else none
  return (token, (← cursor.endOfLine?).nextLine)

end GrantPlan.Yaml
