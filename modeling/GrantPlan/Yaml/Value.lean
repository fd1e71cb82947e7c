import GrantPlan.Yaml.Folding
/-!
# What plain scalars denote

A plain scalar denotes nothing, a truth value, an integer, a number that is no integer, or its own
text. Which one, is decided by its spelling alone.
-/

namespace GrantPlan.Yaml

/-- What a plain scalar denotes. -/
inductive Value
  | null
  | bool (value : Bool)
  | int (value : Int)
  /-- A number with a fraction or an exponent, an infinity, or no number at all. -/
  | float
  | text
deriving DecidableEq, Repr

namespace Value

/-- Whether a text spells nothing. -/
def isNull (s : String) : Bool := ["~", "null", "Null", "NULL"].contains s

/-- The truth value that a text spells. -/
def bool? (s : String) : Option Bool :=
  if ["true", "True", "TRUE"].contains s then some true
  else if ["false", "False", "FALSE"].contains s then some false
  else none

/-! ## Integers -/

/-- The value of a digit in a base up to 16. -/
def digit? (base : Nat) (c : Char) : Option Nat := (hexDigit? c).filter (· < base)

/-- The number that one or more digits denote. -/
def natural? (base : Nat) (digits : List Char) : Option Nat :=
  if digits.isEmpty then none
  else digits.foldlM (fun n c => (digit? base c).map (base * n + ·)) 0

/-- The magnitude that a text without a sign denotes: hexadecimal, octal or binary behind a mark,
and else decimal without needless zeros in front. -/
def magnitude? : List Char → Option Nat
  | '0' :: 'x' :: digits => natural? 16 digits
  | '0' :: 'o' :: digits => natural? 8 digits
  | '0' :: 'b' :: digits => natural? 2 digits
  | ['0'] => some 0
  | '0' :: _ => none
  | digits => natural? 10 digits

/-- The integer that a text spells, if 128 bits hold it, with a sign or without one. -/
def int? (s : String) : Option Int :=
  match s.toList with
  | '-' :: rest => ((magnitude? rest).filter (· ≤ Nat.pow 2 127)).map fun n => -(n : Int)
  | '+' :: rest => ((magnitude? rest).filter (· < Nat.pow 2 128)).map Int.ofNat
  | cs => ((magnitude? cs).filter (· < Nat.pow 2 128)).map Int.ofNat

/-! ## Other numbers -/

/-- A decimal number: the digits of its mantissa and the power of ten by which they count. -/
structure Decimal where
  digits : List Char
  exponent : Int
deriving Repr

/-- The exponent behind a mantissa; there is none at the end of a text. -/
def exponent? : List Char → Option Int
  | [] => some 0
  | c :: rest =>
    if c = 'e' || c = 'E' then
      match rest with
      | '-' :: digits => (natural? 10 digits).map fun n => -(n : Int)
      | '+' :: digits => (natural? 10 digits).map Int.ofNat
      | digits => (natural? 10 digits).map Int.ofNat
    else none

/-- The decimal number that a text without a sign spells: digits with at most one point among them,
and possibly an exponent. -/
def Decimal.read (cs : List Char) : Option Decimal := do
  let whole := cs.takeWhile Char.isDigit
  let rest := cs.dropWhile Char.isDigit
  let (fraction, rest) :=
    match rest with
    | '.' :: rest => (rest.takeWhile Char.isDigit, rest.dropWhile Char.isDigit)
    | rest => ([], rest)
  let exponent ← exponent? rest
  if whole.isEmpty && fraction.isEmpty then none
  else return ⟨whole ++ fraction, exponent - fraction.length⟩

/-- Whether a number in binary floating point with 53 bits and exponents up to 1023 is nearest to
this one: below the middle between the greatest of them and the next power of two. -/
def Decimal.isFinite (d : Decimal) : Bool :=
  let digits := d.digits.dropWhile (· = '0')
  let places := digits.length + d.exponent
  if digits.isEmpty || places < 309 then true
  else if 309 < places then false
  else
    let n := (natural? 10 digits).getD 0
    let bound := (Nat.pow 2 54 - 1) * Nat.pow 2 970
    if 0 ≤ d.exponent then n * Nat.pow 10 d.exponent.toNat < bound
    else n < bound * Nat.pow 10 (-d.exponent).toNat

/-- Whether a text without a sign spells an infinity. -/
def isInfinity (s : String) : Bool := [".inf", ".Inf", ".INF"].contains s

/-- Whether a text spells what is not a number. -/
def isNotNumber (s : String) : Bool := [".nan", ".NaN", ".NAN"].contains s

/-- A text without the sign in front of it. -/
def unsigned (cs : List Char) : List Char :=
  match cs with
  | '+' :: rest => rest
  | '-' :: rest => rest
  | cs => cs

/-- Whether a text spells a number that is within the reach of floating point. -/
def isFloat (s : String) : Bool :=
  let cs := unsigned s.toList
  isInfinity (String.ofList cs) || isNotNumber s || (Decimal.read cs).any Decimal.isFinite

/-- Whether a text consists of digits, with a zero in front that needs not be there. -/
def hasNeedlessZero (s : String) : Bool :=
  match unsigned s.toList with
  | '0' :: c :: rest => (c :: rest).all Char.isDigit
  | _ => false

/-! ## Values -/

/-- What a plain scalar denotes. -/
def ofPlain (s : String) : Value :=
  if s.isEmpty || isNull s then null
  else
    match bool? s with
    | some b => bool b
    | none =>
      match int? s with
      | some n => int n
      | none => if !hasNeedlessZero s && isFloat s then float else text

end Value

end GrantPlan.Yaml
