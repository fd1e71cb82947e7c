import GrantPlan.Yaml.Block
import GrantPlan.Yaml.Tag
/-!
# The tokens of a text

`Yaml.tokens` lists the tokens of a text. What a scalar, an anchor or a flow collection is shows
only when a colon follows it: then it is a key, and a key token, and possibly the start of a block
mapping, belong in front of it. A token that may still turn out to be a key is therefore kept back
(`Lexer.queue`) until that is settled. A key ends at most 1024 octets after its beginning and in the
same line.

Where a text is not well formed, the list ends with the last token that stands before the fault and
is not kept back there. A character that must not stand in a text is a fault of the whole piece in
which it is taken.
-/

namespace GrantPlan.Yaml

/-- A token that may turn out to be the beginning of a key. -/
structure KeyStart where
  /-- The number of the token, counted from the beginning of the text. -/
  number : Nat
  /-- The token stands at the indentation of its block, so nothing but a key can stand there. -/
  required : Bool
  line : Nat
  column : Nat
  octets : Nat
deriving Repr

/-- How far the tokens of a text have been read. -/
structure Lexer where
  cursor : Cursor
  /-- The octets of this line that have been read since a token first began or ended in it. -/
  octets : Nat
  /-- The text goes on behind what is left, but not with characters that may stand in it. -/
  broken : Bool
  /-- The column of the innermost block collection, -1 outside all of them. -/
  indent : Int
  /-- The columns of the block collections further out. -/
  outer : List Int
  /-- What may turn out to be a key, innermost first: one place for the block context and one for
  each open flow collection. -/
  keyStarts : List (Option KeyStart)
  /-- Whether a key may begin at the next token. -/
  keyAllowed : Bool
  /-- The tokens that are kept back. -/
  queue : List Token
  /-- How many tokens have been given out. -/
  taken : Nat
deriving Repr

namespace Lexer

/-- Whether the place is inside a flow collection. -/
def inFlow (lexer : Lexer) : Bool := 1 < lexer.keyStarts.length

/-- The column of the place. -/
def column (lexer : Lexer) : Nat := lexer.cursor.column

/-- What `octets` is at a place further on. -/
def octetsAt (lexer : Lexer) (cursor : Cursor) : Nat :=
  if lexer.cursor.line = cursor.line then
    lexer.octets + Yaml.octets (lexer.cursor.rest.take (cursor.column - lexer.column))
  else 0

/-- The lexer at a place further on. -/
def moveTo (lexer : Lexer) (cursor : Cursor) : Lexer :=
  { lexer with cursor, octets := lexer.octetsAt cursor }

/-- Appends a token. -/
def push (lexer : Lexer) (token : Token) : Lexer :=
  { lexer with queue := lexer.queue ++ [token] }

/-- Appends a token that `n` characters stand for. -/
def pushMark (lexer : Lexer) (token : Token) (n : Nat) : Lexer :=
  { lexer.push token with cursor := lexer.cursor.skip n }

/-- Puts a token in front of the one with a given number. -/
def insertAt (lexer : Lexer) (number : Nat) (token : Token) : Lexer :=
  { lexer with queue := lexer.queue.insertIdx (number - lexer.taken) token }

/-! ## Keys -/

/-- The innermost token that may turn out to be a key. -/
def keyStart? (lexer : Lexer) : Option KeyStart := lexer.keyStarts.head?.join

/-- Says what may turn out to be a key innermost. -/
def setKeyStart (lexer : Lexer) (start? : Option KeyStart) : Lexer :=
  { lexer with keyStarts := start? :: lexer.keyStarts.tail }

/-- The innermost token is no key after all, which a required key must not turn out to be. -/
def dropKeyStart (lexer : Lexer) : Option Lexer :=
  if lexer.keyStart?.any (·.required) then none else some (lexer.setKeyStart none)

/-- Notes that the next token may turn out to be a key, where one may begin. -/
def noteKeyStart (lexer : Lexer) : Option Lexer :=
  if lexer.keyAllowed then do
    let required := !lexer.inFlow && lexer.indent = lexer.column
    let number := lexer.taken + lexer.queue.length
    let lexer ← lexer.dropKeyStart
    let start : KeyStart := ⟨number, required, lexer.cursor.line, lexer.column, lexer.octets⟩
    return lexer.setKeyStart (some start)
  else some lexer

/-- Whether a key that begins at `start` cannot go on up to this place. -/
def isStale (lexer : Lexer) (start : KeyStart) : Bool :=
  start.line < lexer.cursor.line || start.octets + 1024 < lexer.octets

/-- What is too far back is no key after all. -/
def dropStaleKeys (lexer : Lexer) : Option Lexer :=
  let stale := lexer.keyStarts.filterMap fun start? => start?.filter lexer.isStale
  if stale.any (·.required) then none
  else some { lexer with
    keyStarts := lexer.keyStarts.map fun start? => start?.filter fun start => !lexer.isStale start }

/-! ## Indentation -/

/-- Opens a block collection at a column that lies further in than the innermost block, with
`token` appended or put in front of the token with the given number. -/
def openBlock (lexer : Lexer) (column : Nat) (number? : Option Nat) (token : Token) : Lexer :=
  if !lexer.inFlow && lexer.indent < column then
    let lexer := { lexer with indent := column, outer := lexer.indent :: lexer.outer }
    match number? with
    | some number => lexer.insertAt number token
    | none => lexer.push token
  else lexer

/-- How many tokens end the blocks that lie further in than `column`, and what remains open. -/
def closedBlocks (column : Int) (indent : Int) : List Int → Nat × Int × List Int
  | [] => (0, indent, [])
  | next :: outer =>
    if column < indent then
      let (n, indent, outer) := closedBlocks column next outer
      (n + 1, indent, outer)
    else (0, indent, next :: outer)

/-- Closes the block collections that lie further in than `column`. -/
def closeBlocks (lexer : Lexer) (column : Int) : Lexer :=
  if lexer.inFlow then lexer
  else
    let (n, indent, outer) := closedBlocks column lexer.indent lexer.outer
    { lexer with queue := lexer.queue ++ List.replicate n .blockEnd, indent, outer }

/-! ## White space and comments -/

/-- Skips what stands in front of the next token. Tabs may stand there only where no block key can
begin, and a new line may begin with a block key. A byte order mark may begin any line. -/
def skipSpace (inFlow : Bool) (keyAllowed inComment : Bool) (line column : Nat) :
    List Char → Bool × Cursor
  | [] => (keyAllowed, ⟨[], line, column⟩)
  | c :: rest =>
    if isBreak c then skipSpace inFlow (keyAllowed || !inFlow) false (line + 1) 0 rest
    else if inComment || c = ' ' || c = '#' || (c = '\t' && (inFlow || !keyAllowed)) ||
        (column = 0 && c = byteOrderMark) then
      skipSpace inFlow keyAllowed (inComment || c = '#') line (column + 1) rest
    else (keyAllowed, ⟨c :: rest, line, column⟩)

/-! ## Single tokens -/

/-- Reads the mark that begins or ends a document. -/
def documentMark (lexer : Lexer) (token : Token) : Option Lexer := do
  let lexer ← (lexer.closeBlocks (-1)).dropKeyStart
  return { lexer.pushMark token 3 with keyAllowed := false }

/-- Reads a directive. -/
def directive (lexer : Lexer) : Option Lexer := do
  let lexer ← (lexer.closeBlocks (-1)).dropKeyStart
  let (token, cursor) ← readDirective lexer.cursor
  return { lexer.push token with cursor, keyAllowed := false }

/-- Ends the text, and with it the line. -/
def finish (lexer : Lexer) : Option Lexer := do
  let lexer ← (lexer.closeBlocks (-1)).dropKeyStart
  return { lexer.push .streamEnd with
    cursor := ⟨[], lexer.cursor.line + 1, 0⟩, keyAllowed := false }

/-- Reads the mark that begins a flow collection, which may itself begin a key. -/
def flowStart (lexer : Lexer) (token : Token) : Option Lexer := do
  let lexer ← lexer.noteKeyStart
  return { lexer.pushMark token 1 with keyStarts := none :: lexer.keyStarts, keyAllowed := true }

/-- Reads the mark that ends a flow collection. -/
def flowEnd (lexer : Lexer) (token : Token) : Option Lexer := do
  let lexer ← lexer.dropKeyStart
  let keyStarts := if lexer.inFlow then lexer.keyStarts.tail else lexer.keyStarts
  return { lexer.pushMark token 1 with keyStarts, keyAllowed := false }

/-- Reads a comma. -/
def flowEntry (lexer : Lexer) : Option Lexer := do
  let lexer ← lexer.dropKeyStart
  return { lexer.pushMark .flowEntry 1 with keyAllowed := true }

/-- Reads the dash in front of an entry of a block sequence. -/
def blockEntry (lexer : Lexer) : Option Lexer :=
  if lexer.inFlow || lexer.keyAllowed then do
    let lexer ← (lexer.openBlock lexer.column none .blockSequenceStart).dropKeyStart
    return { lexer.pushMark .blockEntry 1 with keyAllowed := true }
  else none

/-- Reads the question mark in front of a key. -/
def keyMark (lexer : Lexer) : Option Lexer :=
  if lexer.inFlow || lexer.keyAllowed then do
    let lexer ← (lexer.openBlock lexer.column none .blockMappingStart).dropKeyStart
    return { lexer.pushMark .key 1 with keyAllowed := !lexer.inFlow }
  else none

/-- Reads the colon in front of a value. If it settles that a token begins a key, that is noted in
front of the token. -/
def valueMark (lexer : Lexer) : Option Lexer :=
  match lexer.keyStart? with
  | some start =>
    let lexer := (lexer.insertAt start.number .key).openBlock start.column (some start.number)
      .blockMappingStart
    some { (lexer.setKeyStart none).pushMark .value 1 with keyAllowed := false }
  | none =>
    if lexer.inFlow || lexer.keyAllowed then
      let lexer := lexer.openBlock lexer.column none .blockMappingStart
      some { lexer.pushMark .value 1 with keyAllowed := !lexer.inFlow }
    else none

/-- Reads the name of an anchor or an alias. -/
def anchorName (lexer : Lexer) (token : String → Token) : Option Lexer := do
  let lexer ← lexer.noteKeyStart
  let (name, cursor) := (lexer.cursor.skip 1).takeWhile isWordChar
  let ends := atGap cursor.rest || cursor.rest.head?.any "?:,]\x7d%@`".toList.contains
  if !name.isEmpty && ends then
    return { lexer.push (token (String.ofList name)) with cursor, keyAllowed := false }
  else none

/-- Reads a tag. -/
def tag (lexer : Lexer) : Option Lexer := do
  let lexer ← lexer.noteKeyStart
  let (token, cursor) ← readTag lexer.inFlow lexer.cursor
  return { lexer.push token with cursor, keyAllowed := false }

/-- Reads a block scalar. -/
def blockScalar (lexer : Lexer) (literal : Bool) : Option Lexer := do
  let lexer ← lexer.dropKeyStart
  let (text, cursor) ← readBlock literal lexer.indent (lexer.cursor.skip 1)
  return { lexer.push (.scalar .block (String.ofList text)) with cursor, keyAllowed := true }

/-- Reads a quoted scalar. -/
def quotedScalar (lexer : Lexer) (double : Bool) : Option Lexer := do
  let lexer ← lexer.noteKeyStart
  let start := lexer.cursor.skip 1
  let (text, cursor) ← readQuoted double .empty start.line start.column start.rest
  return { lexer.push (.scalar .quoted (String.ofList text)) with cursor, keyAllowed := false }

/-- Reads a plain scalar. After one that ends with its line, a key may begin. -/
def plainScalar (lexer : Lexer) : Option Lexer := do
  let lexer ← lexer.noteKeyStart
  let start := lexer.cursor
  let (f, cursor) ←
    readPlain lexer.inFlow (lexer.indent + 1) .empty start.line start.column start.rest
  return { lexer.push (.scalar .plain (String.ofList f.text.reverse)) with
    cursor, keyAllowed := f.lineEnded }

/-- Whether a plain scalar may begin with these characters. -/
def startsPlain (inFlow : Bool) (c : Char) (rest : List Char) : Bool :=
  let nextIsWhite := rest.head?.any isWhite
  !(atGap [c] || "-?:,[]\x7b\x7d#&*!|>'\"%@`".toList.contains c) || (c = '-' && !nextIsWhite) ||
    (!inFlow && (c = '?' || c = ':') && !atGap rest)

/-- Reads the token that begins with a character. -/
def token (lexer : Lexer) (c : Char) (rest : List Char) : Option Lexer :=
  let inFlow := lexer.inFlow
  let text := c :: rest
  if lexer.column = 0 && c = '%' then lexer.directive
  else if lexer.column = 0 && isDocumentMark text then
    lexer.documentMark (if c = '-' then .documentStart else .documentEnd)
  else if c = '[' then lexer.flowStart .flowSequenceStart
  else if c = '\x7b' then lexer.flowStart .flowMappingStart
  else if c = ']' then lexer.flowEnd .flowSequenceEnd
  else if c = '\x7d' then lexer.flowEnd .flowMappingEnd
  else if c = ',' then lexer.flowEntry
  else if c = '-' && atGap rest then lexer.blockEntry
  else if c = '?' && (inFlow || atGap rest) then lexer.keyMark
  else if c = ':' && (inFlow || atGap rest) then lexer.valueMark
  else if c = '*' then lexer.anchorName .alias
  else if c = '&' then lexer.anchorName .anchor
  else if c = '!' then lexer.tag
  else if c = '|' && !inFlow then lexer.blockScalar true
  else if c = '>' && !inFlow then lexer.blockScalar false
  else if c = '\'' then lexer.quotedScalar false
  else if c = '"' then lexer.quotedScalar true
  else if startsPlain inFlow c rest then lexer.plainScalar
  else none

/-- Whether fewer than `n` characters are left although the text goes on. -/
def breaksOff (lexer : Lexer) (n : Nat) : Bool :=
  lexer.broken && (lexer.cursor.rest.take n).length < n

/-- Reads up to and with the next token that characters stand for. Which token it is shows in its
first four characters, and that it is over in the one behind it. -/
def advance (lexer : Lexer) : Option Lexer := do
  let start := lexer.cursor
  let (keyAllowed, cursor) :=
    skipSpace lexer.inFlow lexer.keyAllowed false start.line start.column start.rest
  let lexer ← ({ lexer with keyAllowed }.moveTo cursor).dropStaleKeys
  let lexer := lexer.closeBlocks lexer.column
  if lexer.breaksOff 4 then none
  else
    let next ←
      match cursor.rest with
      | [] => lexer.finish
      | c :: rest => lexer.token c rest
    if next.breaksOff 1 then none
    else return { next with octets := lexer.octetsAt next.cursor }

/-- The tokens from here on. A token is given out once it is settled whether it begins a key. -/
def run : Nat → Lexer → List Token
  | 0, _ => []
  | fuel + 1, lexer =>
    match lexer.queue with
    | [] =>
      match lexer.advance with
      | none => []
      | some lexer => run fuel lexer
    | token :: queue =>
      match lexer.dropStaleKeys with
      | none => []
      | some lexer =>
        if lexer.keyStarts.any fun start? => start?.any (·.number = lexer.taken) then
          match lexer.advance with
          | none => []
          | some lexer => run fuel lexer
        else if token = .streamEnd then [token]
        else token :: run fuel { lexer with queue, taken := lexer.taken + 1 }

/-- The beginning of a text, which goes on behind what is given here if it is `broken`. -/
def start (text : List Char) (broken : Bool) : Lexer :=
  { cursor := ⟨text, 0, 0⟩
    octets := 0
    broken
    indent := -1
    outer := []
    keyStarts := [none]
    keyAllowed := true
    queue := []
    taken := 0 }

end Lexer

/-- The tokens of a text, as far as it is well formed. -/
def tokens (text : List Char) : List Token :=
  let pieces := pieces pieceSize [] text
  let sound := pieces.takeWhile (·.all isAllowed)
  let front := sound.flatten
  (Lexer.start (unifyBreaks front) (sound.length < pieces.length)).run (16 * (front.length + 2))

end GrantPlan.Yaml
