import GrantPlan.Yaml.Text
/-!
# Scalars over several lines

In plain and quoted scalars a single line break reads as a blank, and further ones as themselves.
White space around breaks does not count. Whether white space counts at all is open until more
text follows, so it is kept apart until then (`Folded.settle`).
-/

namespace GrantPlan.Yaml

/-- What line breaks in a row contribute to a scalar. -/
def foldBreaks : List Char → List Char
  | ['\n'] => [' ']
  | '\n' :: more => more
  | breaks => breaks

/-- The text of a scalar so far, and the white space and line breaks behind it. All three are kept
back to front. -/
structure Folded where
  text : List Char
  spaces : List Char
  breaks : List Char
  /-- A backslash has ended the line, so that its break does not count. -/
  escaped : Bool
deriving Repr

namespace Folded

/-- No text yet. -/
def empty : Folded := ⟨[], [], [], false⟩

/-- Whether a line has ended since the text. -/
def lineEnded (f : Folded) : Bool := f.escaped || !f.breaks.isEmpty

/-- Whether white space or a line break stands behind the text. -/
def inGap (f : Folded) : Bool := f.lineEnded || !f.spaces.isEmpty

/-- The text with what stands behind it, back to front. -/
def settle (f : Folded) : List Char :=
  if f.escaped then f.breaks ++ f.text
  else if f.breaks.isEmpty then f.spaces ++ f.text
  else (foldBreaks f.breaks.reverse).reverse ++ f.text

/-- The text that goes on with a character. -/
def push (f : Folded) (c : Char) : Folded := ⟨c :: f.settle, [], [], false⟩

/-- The text with one more white space character behind it. -/
def pushWhite (f : Folded) (c : Char) : Folded :=
  if f.lineEnded then f else { f with spaces := c :: f.spaces }

/-- The text with one more line break behind it. -/
def pushBreak (f : Folded) (c : Char) : Folded := { f with spaces := [], breaks := c :: f.breaks }

/-- The text with a line break behind it that does not count. -/
def pushEscapedBreak (f : Folded) : Folded := ⟨f.settle, [], [], true⟩

end Folded

/-! ## Plain scalars -/

/-- Reads a plain scalar up to the place where it ends. In block context it ends at a line that is
indented by less than `indent` columns, in flow context at a mark of the collection. -/
def readPlain (flow : Bool) (indent : Int) (f : Folded) (line column : Nat) :
    List Char → Option (Folded × Cursor)
  | [] => some (f, ⟨[], line, column⟩)
  | c :: rest =>
    if isBreak c then readPlain flow indent (f.pushBreak c) (line + 1) 0 rest
    else if isWhite c then
      if f.lineEnded && c = '\t' && column < indent then none
      else readPlain flow indent (f.pushWhite c) line (column + 1) rest
    else
      let here : Cursor := ⟨c :: rest, line, column⟩
      let newLineEnds := (!flow && column < indent) || (column = 0 && isDocumentMark here.rest)
      if f.inGap && (newLineEnds || c = '#') then some (f, here)
      else if flow && c = ':' && (rest.head?.any fun d => isFlowMark d || d = '?') then none
      else if c = ':' && atGap rest then some (f, here)
      else if flow && isFlowMark c then some (f, here)
      else readPlain flow indent (f.push c) line (column + 1) rest

/-! ## Quoted scalars -/

/-- What a backslash and the character behind it stand for. -/
inductive Escape
  | char (c : Char)
  /-- The code point that the next `digits` hexadecimal digits give. -/
  | codePoint (digits : Nat)
deriving Repr

/-- What a backslash in front of a character stands for. -/
def escape? : Char → Option Escape
  | '0' => some (.char '\x00')
  | 'a' => some (.char '\x07')
  | 'b' => some (.char '\x08')
  | 't' => some (.char '\t')
  | '\t' => some (.char '\t')
  | 'n' => some (.char '\n')
  | 'v' => some (.char '\x0b')
  | 'f' => some (.char '\x0c')
  | 'r' => some (.char '\r')
  | 'e' => some (.char '\x1b')
  | ' ' => some (.char ' ')
  | '"' => some (.char '"')
  | '/' => some (.char '/')
  | '\\' => some (.char '\\')
  | 'N' => some (.char '\u0085')
  | '_' => some (.char '\u00a0')
  | 'L' => some (.char '\u2028')
  | 'P' => some (.char '\u2029')
  | 'x' => some (.codePoint 2)
  | 'u' => some (.codePoint 4)
  | 'U' => some (.codePoint 8)
  | _ => none

/-- The value of a hexadecimal digit. -/
def hexDigit? (c : Char) : Option Nat :=
  if c.isDigit then some (c.toNat - '0'.toNat)
  else if 'a' ≤ c ∧ c ≤ 'f' then some (c.toNat - 'a'.toNat + 10)
  else if 'A' ≤ c ∧ c ≤ 'F' then some (c.toNat - 'A'.toNat + 10)
  else none

/-- The character whose code point the first `n` characters give as hexadecimal digits. -/
def hexChar? (n : Nat) (cs : List Char) : Option Char := do
  let digits := cs.take n
  let code ← digits.foldlM (fun code c => (hexDigit? c).map (16 * code + ·)) 0
  if digits.length = n && code.isValidChar then some (Char.ofNat code) else none

/-- Reads a quoted scalar up to and with the quote that closes it. With double quotes backslashes
are escapes; with single quotes a quote written twice stands for one. -/
def readQuoted (double : Bool) (f : Folded) (line column : Nat) (cs : List Char) :
    Option (List Char × Cursor) :=
  match cs with
  | [] => none
  | c :: rest =>
    if column = 0 && isDocumentMark (c :: rest) then none
    else if isBreak c then readQuoted double (f.pushBreak c) (line + 1) 0 rest
    else if isWhite c then readQuoted double (f.pushWhite c) line (column + 1) rest
    else if double then
      if c = '"' then some (f.settle.reverse, ⟨rest, line, column + 1⟩)
      else if c = '\\' then
        match rest with
        | [] => none
        | mark :: rest =>
          if isBreak mark then readQuoted double f.pushEscapedBreak (line + 1) 0 rest
          else
            match escape? mark with
            | none => none
            | some (.char e) => readQuoted double (f.push e) line (column + 2) rest
            | some (.codePoint n) =>
              match hexChar? n rest with
              | none => none
              | some e => readQuoted double (f.push e) line (column + 2 + n) (rest.drop n)
      else readQuoted double (f.push c) line (column + 1) rest
    else if c = '\'' then
      match rest with
      | '\'' :: rest => readQuoted double (f.push '\'') line (column + 2) rest
      | rest => some (f.settle.reverse, ⟨rest, line, column + 1⟩)
    else readQuoted double (f.push c) line (column + 1) rest
termination_by cs.length
decreasing_by all_goals simp_all <;> omega

end GrantPlan.Yaml
