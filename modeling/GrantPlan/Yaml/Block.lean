import GrantPlan.Yaml.Text
/-!
# Block scalars

A block scalar is read line by line. The lines that belong to it are indented by a number of
columns that the header gives or that follows from the first lines (`blockWidth?`); literal scalars
keep their line breaks, folded ones read a single break between two lines that are not indented
further as a blank.
-/

namespace GrantPlan.Yaml

/-! ## Lines -/

/-- A line of a text, with the break that ends it unless the text ends first. -/
structure Line where
  chars : List Char
  break? : Option Char
deriving Repr

/-- The lines of a text. The last one has no break. -/
def Line.split : List Char → List Line
  | [] => [⟨[], none⟩]
  | c :: rest =>
    if isBreak c then ⟨[], some c⟩ :: split rest
    else
      match split rest with
      | [] => [⟨[c], none⟩]
      | line :: lines => { line with chars := c :: line.chars } :: lines

/-- The text of lines. -/
def Line.unsplit (lines : List Line) : List Char :=
  lines.flatMap fun line => line.chars ++ line.break?.toList

/-- How many columns of blanks a line begins with, counted up to `width?` where that is known. -/
def Line.indentation (line : Line) (width? : Option Nat) : Nat :=
  let blanks := (line.chars.takeWhile (· = ' ')).length
  (width?.map (min blanks)).getD blanks

/-! ## Headers -/

/-- What becomes of the line breaks at the end of a block scalar. -/
inductive Chomping
  | strip
  | clip
  | keep
deriving DecidableEq, Repr

/-- What the header of a block scalar says. -/
structure BlockHeader where
  chomping : Chomping
  /-- By how many columns the lines are indented further than what encloses the scalar. -/
  increment? : Option Nat
deriving Repr

/-- The chomping that a character asks for. -/
def chomping? (c : Char) : Option Chomping :=
  if c = '+' then some .keep else if c = '-' then some .strip else none

/-- The header at a place, and the place behind it. Chomping and increment may come in any order,
and an increment is one digit that is not zero. -/
def BlockHeader.read (cursor : Cursor) : Option (BlockHeader × Cursor) :=
  let increment? (cursor : Cursor) : Option (Option Nat × Cursor) :=
    match cursor.rest with
    | c :: _ =>
      if c = '0' then none
      else if c.isDigit then some (some (c.toNat - '0'.toNat), cursor.skip 1)
      else some (none, cursor)
    | [] => some (none, cursor)
  match cursor.rest.head?.bind chomping? with
  | some chomping => do
    let (increment?, cursor) ← increment? (cursor.skip 1)
    return (⟨chomping, increment?⟩, cursor)
  | none => do
    let (increment?, cursor) ← increment? cursor
    match if increment?.isSome then cursor.rest.head?.bind chomping? else none with
    | some chomping => return (⟨chomping, increment?⟩, cursor.skip 1)
    | none => return (⟨.clip, increment?⟩, cursor)

/-! ## Contents -/

/-- The indentation of the most indented of the blank lines in front and the first line that is not
blank. There is none when a tab stands where the indentation ends. -/
def leadingIndentation? : List Line → Option Nat
  | [] => some 0
  | line :: lines =>
    let blanks := line.indentation none
    match line.chars.drop blanks, line.break? with
    | '\t' :: _, _ => none
    | [], some _ => (leadingIndentation? lines).map (max blanks)
    | _, _ => some blanks

/-- The indentation of the lines of a block scalar that stands in a block indented to column
`indent` (-1 outside all blocks). -/
def blockWidth? (indent : Int) (increment? : Option Nat) (lines : List Line) : Option Nat :=
  match increment? with
  | some increment => some (indent.toNat + increment)
  | none => (leadingIndentation? lines).map fun widest => max (max widest (indent + 1).toNat) 1

/-- The text of a block scalar so far, back to front, the break of its last line, and the breaks of
the blank lines since. -/
structure BlockText where
  text : List Char
  break? : Option Char
  blanks : List Char
  /-- The last line begins with white space, so its break is not folded. -/
  indented : Bool
deriving Repr

namespace BlockText

/-- No text yet. -/
def empty : BlockText := ⟨[], none, [], false⟩

/-- The text that goes on with a line. -/
def pushLine (t : BlockText) (literal : Bool) (chars : List Char) (break? : Option Char) :
    BlockText :=
  let indented := chars.head?.any isWhite
  let folds := !literal && t.break? = some '\n' && !t.indented && !indented
  let text :=
    if folds then (if t.blanks.isEmpty then ' ' :: t.text else t.blanks ++ t.text)
    else t.blanks ++ (t.break?.toList ++ t.text)
  ⟨chars.reverse ++ text, break?, [], indented⟩

/-- The text with the line breaks at its end that chomping leaves. -/
def finish (t : BlockText) : Chomping → List Char
  | .strip => t.text.reverse
  | .clip => (t.break?.toList ++ t.text).reverse
  | .keep => (t.blanks ++ (t.break?.toList ++ t.text)).reverse

end BlockText

/-- Reads the lines of a block scalar up to the first that is indented less, and the place where
that one goes on. -/
def readBlockLines (literal : Bool) (width : Nat) (t : BlockText) (number : Nat) :
    List Line → Option (BlockText × Cursor)
  | [] => some (t, ⟨[], number, 0⟩)
  | line :: lines =>
    let blanks := line.indentation (some width)
    let chars := line.chars.drop blanks
    if chars.head? = some '\t' && blanks < width then none
    else
      match chars, line.break? with
      | [], some c => readBlockLines literal width { t with blanks := c :: t.blanks } (number + 1) lines
      | [], none => some (t, ⟨[], number, blanks⟩)
      | chars, break? =>
        if blanks = width then
          let t := t.pushLine literal chars break?
          if break?.isSome then readBlockLines literal width t (number + 1) lines
          else some (t, ⟨[], number, blanks + chars.length⟩)
        else some (t, ⟨chars ++ (break?.toList ++ Line.unsplit lines), number, blanks⟩)

/-- Reads a block scalar from behind its indicator. -/
def readBlock (literal : Bool) (indent : Int) (cursor : Cursor) :
    Option (List Char × Cursor) := do
  let (header, cursor) ← BlockHeader.read cursor
  let cursor := (← cursor.endOfLine?).nextLine
  let lines := Line.split cursor.rest
  let width ← blockWidth? indent header.increment? lines
  let (t, cursor) ← readBlockLines literal width .empty cursor.line lines
  return (t.finish header.chomping, cursor)

end GrantPlan.Yaml
