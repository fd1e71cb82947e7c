/-!
# JSON values

A JSON text is read into a value that goes as far as the text is well formed: where it stops being
JSON stands `Json.broken`, and everything that encloses that place ends in `broken` as well. So a
reader that goes through a value from front to back meets a fault of form exactly where a reader of
the text would, after whatever stands in front of it.
-/

namespace GrantPlan

/-- A JSON value, as far as its text is well formed. The value of a number is not kept. -/
inductive Json
  | null
  | bool (value : Bool)
  | number
  /-- A string, which denotes no text when it holds half of a surrogate pair. -/
  | string (text? : Option String)
  | array (items : List Json)
  | object (members : List (Option String × Json))
  /-- The text is not JSON from here on. -/
  | broken

namespace Json

/-! ## Strings -/

/-- What one character or escape of a string contributes. -/
inductive Piece
  | char (c : Char)
  /-- A UTF-16 code unit. -/
  | codeUnit (n : Nat)

/-- The value of a hexadecimal digit. -/
def hexDigit? (c : Char) : Option Nat :=
  if c.isDigit then some (c.toNat - '0'.toNat)
  else if 'a' ≤ c ∧ c ≤ 'f' then some (c.toNat - 'a'.toNat + 10)
  else if 'A' ≤ c ∧ c ≤ 'F' then some (c.toNat - 'A'.toNat + 10)
  else none

/-- The number that hexadecimal digits denote. -/
def hexNumber? (digits : List Char) : Option Nat :=
  digits.foldlM (fun n c => (hexDigit? c).map (16 * n + ·)) 0

/-- The character that a backslash in front of a letter or mark stands for. -/
def escaped? : Char → Option Char
  | '"' => some '"'
  | '\\' => some '\\'
  | '/' => some '/'
  | 'b' => some '\x08'
  | 'f' => some '\x0c'
  | 'n' => some '\n'
  | 'r' => some '\r'
  | 't' => some '\t'
  | _ => none

/-- The pieces of a string behind its opening quote, and what follows the closing one. -/
def readPieces : List Char → Option (List Piece × List Char)
  | [] => none
  | '"' :: rest => some ([], rest)
  | '\\' :: 'u' :: a :: b :: c :: d :: rest => do
    let n ← hexNumber? [a, b, c, d]
    let (pieces, rest) ← readPieces rest
    return (.codeUnit n :: pieces, rest)
  | '\\' :: mark :: rest => do
    let c ← escaped? mark
    let (pieces, rest) ← readPieces rest
    return (.char c :: pieces, rest)
  | c :: rest => do
    let (pieces, rest) ← if c < ' ' then none else readPieces rest
    return (.char c :: pieces, rest)

/-- Whether a code unit begins a surrogate pair. -/
def isHighSurrogate (n : Nat) : Bool := 0xD800 ≤ n && n < 0xDC00

/-- Whether a code unit ends a surrogate pair. -/
def isLowSurrogate (n : Nat) : Bool := 0xDC00 ≤ n && n < 0xE000

/-- The text that pieces make up. Two surrogates in a row make one character, and a surrogate
without its partner makes none. -/
def assemble : List Piece → Option (List Char)
  | [] => some []
  | .char c :: rest => (assemble rest).map (c :: ·)
  | .codeUnit high :: .codeUnit low :: rest =>
    if isHighSurrogate high then
      if isLowSurrogate low then
        let n := 0x10000 + (high - 0xD800) * 0x400 + (low - 0xDC00)
        (assemble rest).map (Char.ofNat n :: ·)
      else none
    else if isLowSurrogate high then none
    else (assemble (.codeUnit low :: rest)).map (Char.ofNat high :: ·)
  | .codeUnit n :: rest =>
    if isHighSurrogate n || isLowSurrogate n then none
    else (assemble rest).map (Char.ofNat n :: ·)

/-- The text of a string behind its opening quote, and what follows the closing one. -/
def readString (cs : List Char) : Option (Option String × List Char) :=
  (readPieces cs).map fun (pieces, rest) => ((assemble pieces).map String.ofList, rest)

/-! ## Numbers -/

/-- What follows one or more digits. -/
def skipDigits : List Char → Option (List Char)
  | [] => none
  | c :: rest => if c.isDigit then some (rest.dropWhile Char.isDigit) else none

/-- What follows the whole part of a number, which has no needless zero in front. -/
def skipWhole : List Char → Option (List Char)
  | '0' :: c :: rest => if c.isDigit then none else some (c :: rest)
  | cs => skipDigits cs

/-- What follows the fraction of a number, if it has one. -/
def skipFraction : List Char → Option (List Char)
  | '.' :: rest => skipDigits rest
  | cs => some cs

/-- What follows the exponent of a number, if it has one. -/
def skipExponent : List Char → Option (List Char)
  | [] => some []
  | c :: rest =>
    if c = 'e' || c = 'E' then
      match rest with
      | '+' :: digits => skipDigits digits
      | '-' :: digits => skipDigits digits
      | digits => skipDigits digits
    else some (c :: rest)

/-- What follows a number. -/
def skipNumber (cs : List Char) : Option (List Char) := do
  let cs ← skipWhole (if cs.head? = some '-' then cs.tail else cs)
  skipExponent (← skipFraction cs)

/-! ## Values -/

/-- Whether a character may stand between the marks of a text. -/
def isSpace (c : Char) : Bool := c = ' ' || c = '\n' || c = '\t' || c = '\r'

/-- A text without the space in front. -/
def skipSpace (cs : List Char) : List Char := cs.dropWhile isSpace

/-- A value that a fixed word denotes. -/
def readWord (word : String) (value : Json) (cs : List Char) : Json × Option (List Char) :=
  match word.toList.isPrefixOf? cs with
  | some rest => (value, some rest)
  | none => (broken, none)

mutual

/-- The value at the front of a text, and what follows it unless the value is broken. The first
argument bounds the nesting. -/
def readValue : Nat → List Char → Json × Option (List Char)
  | 0, _ => (broken, none)
  | fuel + 1, cs =>
    match skipSpace cs with
    | [] => (broken, none)
    | c :: rest =>
      if c = '"' then
        match readString rest with
        | some (text?, rest) => (string text?, some rest)
        | none => (broken, none)
      else if c = '[' then
        match skipSpace rest with
        | ']' :: rest => (array [], some rest)
        | rest =>
          let (items, rest) := readItems fuel rest
          (array items, rest)
      else if c = '\x7b' then
        match skipSpace rest with
        | '\x7d' :: rest => (object [], some rest)
        | rest =>
          let (members, rest) := readMembers fuel rest
          (object members, rest)
      else if c = 'n' then readWord "null" null (c :: rest)
      else if c = 't' then readWord "true" (bool true) (c :: rest)
      else if c = 'f' then readWord "false" (bool false) (c :: rest)
      else
        match skipNumber (c :: rest) with
        | some rest => (number, some rest)
        | none => (broken, none)

/-- One or more items of an array up to the bracket that closes it. -/
def readItems : Nat → List Char → List Json × Option (List Char)
  | 0, _ => ([broken], none)
  | fuel + 1, cs =>
    match readValue fuel cs with
    | (item, none) => ([item, broken], none)
    | (item, some rest) =>
      match skipSpace rest with
      | ',' :: rest =>
        let (items, rest) := readItems fuel rest
        (item :: items, rest)
      | ']' :: rest => ([item], some rest)
      | _ => ([item, broken], none)

/-- One or more members of an object up to the brace that closes it. -/
def readMembers : Nat → List Char → List (Option String × Json) × Option (List Char)
  | 0, _ => ([(none, broken)], none)
  | fuel + 1, cs =>
    match skipSpace cs with
    | '"' :: rest =>
      match readString rest with
      | none => ([(none, broken)], none)
      | some (key, rest) =>
        match skipSpace rest with
        | ':' :: rest =>
          match readValue fuel rest with
          | (value, none) => ([(key, value), (none, broken)], none)
          | (value, some rest) =>
            match skipSpace rest with
            | ',' :: rest =>
              let (members, rest) := readMembers fuel rest
              ((key, value) :: members, rest)
            | '\x7d' :: rest => ([(key, value)], some rest)
            | _ => ([(key, value), (none, broken)], none)
        | _ => ([(key, broken), (none, broken)], none)
    | _ => ([(none, broken)], none)

end

/-- The value of a text, and whether nothing but space follows it. -/
def ofText (s : String) : Json × Bool :=
  let cs := s.toList
  match readValue (2 * cs.length + 2) cs with
  | (value, none) => (value, false)
  | (value, some rest) => (value, (skipSpace rest).isEmpty)

end Json

end GrantPlan
