/-!
# YAML text

The characters of YAML by their roles, and the place in a text that has been reached. Before
anything else is read, every way to end a line is made one character (`unifyBreaks`), so that a
line break is a single character everywhere.
-/

namespace GrantPlan.Yaml

/-! ## Characters -/

/-- Whether a character may stand in a YAML text at all. -/
def isAllowed (c : Char) : Bool :=
  let n := c.toNat
  n = 0x9 || n = 0xA || n = 0xD || (0x20 ≤ n && n ≤ 0x7E) || n = 0x85 ||
    (0xA0 ≤ n && n ≤ 0xFFFD) || 0x10000 ≤ n

/-- The character that may stand in front of a text as a mark of its encoding. -/
def byteOrderMark : Char := '\ufeff'

/-- A blank or a tab. -/
def isWhite (c : Char) : Bool := c = ' ' || c = '\t'

/-- A line break. The line and paragraph separators are breaks that are kept as they are. -/
def isBreak (c : Char) : Bool := c = '\n' || c = '\u2028' || c = '\u2029'

/-- A character of an anchor's name, a tag's handle or a directive's name. -/
def isWordChar (c : Char) : Bool := c.isAlphanum || c = '_' || c = '-'

/-- A character that separates or encloses the entries of a flow collection. -/
def isFlowMark (c : Char) : Bool := c = ',' || c = '[' || c = ']' || c = '\x7b' || c = '\x7d'

/-- Whether a text ends here, or goes on with white space or a line break. -/
def atGap : List Char → Bool
  | [] => true
  | c :: _ => isWhite c || isBreak c

/-- Whether a line that begins here marks the start or the end of a document. -/
def isDocumentMark : List Char → Bool
  | '-' :: '-' :: '-' :: rest => atGap rest
  | '.' :: '.' :: '.' :: rest => atGap rest
  | _ => false

/-! ## Texts -/

/-- How many octets characters take up. -/
def octets (cs : List Char) : Nat := cs.foldl (fun n c => n + c.utf8Size) 0

/-- How many octets of a text are taken at a time. -/
def pieceSize : Nat := 16384

/-- The pieces in which a text is taken: as many characters as there is room for. The characters in
`piece`, back to front, are in the first piece already, which has `room` for some octets more. -/
def pieces (room : Nat) (piece : List Char) : List Char → List (List Char)
  | [] => [piece.reverse]
  | c :: rest =>
    if c.utf8Size ≤ room then pieces (room - c.utf8Size) (c :: piece) rest
    else piece.reverse :: pieces (pieceSize - c.utf8Size) [c] rest

/-- The text with one character for each line break. -/
def unifyBreaks : List Char → List Char
  | [] => []
  | '\r' :: '\n' :: rest => '\n' :: unifyBreaks rest
  | c :: rest => (if c = '\r' || c = '\u0085' then '\n' else c) :: unifyBreaks rest

/-! ## Places -/

/-- What is left of a text, and the line and column at which it begins. -/
structure Cursor where
  rest : List Char
  line : Nat
  column : Nat
deriving Repr

namespace Cursor

/-- The place `n` characters further on in the same line. -/
def skip (cursor : Cursor) (n : Nat) : Cursor :=
  { cursor with rest := cursor.rest.drop n, column := cursor.column + n }

/-- The characters up to the first one that `p` refuses, and the place of that one. They must not
hold a line break. -/
def takeWhile (cursor : Cursor) (p : Char → Bool) : List Char × Cursor :=
  let front := cursor.rest.takeWhile p
  (front, cursor.skip front.length)

/-- The place behind all white space in the same line. -/
def skipWhite (cursor : Cursor) : Cursor := (cursor.takeWhile isWhite).2

/-- The place of the next line break. -/
def skipLine (cursor : Cursor) : Cursor := (cursor.takeWhile fun c => !isBreak c).2

/-- The place where a line ends that holds nothing more than white space and a comment. -/
def endOfLine? (cursor : Cursor) : Option Cursor :=
  let cursor := cursor.skipWhite
  let cursor := if cursor.rest.head? = some '#' then cursor.skipLine else cursor
  match cursor.rest with
  | [] => some cursor
  | c :: _ => if isBreak c then some cursor else none

/-- The beginning of the next line, from the end of a line. -/
def nextLine (cursor : Cursor) : Cursor :=
  match cursor.rest with
  | [] => cursor
  | _ :: rest => ⟨rest, cursor.line + 1, 0⟩

end Cursor

end GrantPlan.Yaml
