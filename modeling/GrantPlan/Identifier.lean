import GrantPlan.Identifier.Keyword
/-!
# Identifiers

An identifier is written bare or between double quotes, with a quote inside it written twice.

* `unquote` reads either spelling, and `unquote_quote` says that it undoes `quote`;
* `render` writes an identifier bare only where PostgreSQL would read the bare text as itself.
-/

namespace GrantPlan.Identifier

/-! ## Quoted spelling -/

/-- The text with every double quote written twice. -/
def doubled : List Char → List Char
  | [] => []
  | c :: rest => if c = '"' then '"' :: '"' :: doubled rest else c :: doubled rest

/-- Reads the text behind an opening quote up to the quote that closes it, a quote written twice
standing for one; what follows the closing quote is kept as written. There is no reading when no
quote closes the text. -/
def closeQuoted? : List Char → Option (List Char)
  | [] => none
  | '"' :: '"' :: rest => (closeQuoted? rest).map ('"' :: ·)
  | c :: rest => if c = '"' then some rest else (closeQuoted? rest).map (c :: ·)

/-- The identifier that a spelling stands for. A text whose opening quote is never closed stands
for itself. -/
def unquoteChars : List Char → List Char
  | [] => []
  | c :: rest => if c = '"' then (closeQuoted? rest).getD (c :: rest) else c :: rest

/-- The identifier that a spelling stands for. -/
def unquote (s : String) : String := String.ofList (unquoteChars s.toList)

/-- The spelling of an identifier between quotes. -/
def quote (s : String) : String := String.ofList ('"' :: doubled s.toList ++ ['"'])

/-- A closing quote ends the reading, so long as what follows does not begin with another. -/
theorem closeQuoted?_doubled (cs : List Char) {rest : List Char} (h : rest.head? ≠ some '"') :
    closeQuoted? (doubled cs ++ '"' :: rest) = some (cs ++ rest) := by
  induction cs with
  | nil =>
    cases rest with
    | nil => rfl
    | cons c rest =>
      have hc : c ≠ '"' := fun e => h (by simp [e])
      simp [doubled, closeQuoted?, hc]
  | cons c cs ih => by_cases hc : c = '"' <;> simp [doubled, closeQuoted?, hc, ih]

theorem unquoteChars_of_head_ne {cs : List Char} (h : cs.head? ≠ some '"') :
    unquoteChars cs = cs := by
  cases cs with
  | nil => rfl
  | cons c rest =>
    have hc : c ≠ '"' := fun e => h (by simp [e])
    simp [unquoteChars, hc]

@[simp] theorem unquote_quote (s : String) : unquote (quote s) = s := by
  have h : closeQuoted? (doubled s.toList ++ ['"']) = some s.toList := by
    simpa using @closeQuoted?_doubled s.toList [] (by simp)
  simp [unquote, quote, unquoteChars, h]

/-! ## Bare spelling -/

/-- A letter that folding to lower case leaves alone, or an underscore. -/
def isBareStart (c : Char) : Bool := c.isLower || c = '_'

/-- A character that may follow in a bare identifier. -/
def isBareRest (c : Char) : Bool := isBareStart c || c.isDigit || c = '$'

/-- Whether a text has the form of an identifier that the server reads without folding. -/
def isBare (s : String) : Bool :=
  match s.toList with
  | [] => false
  | c :: rest => isBareStart c && rest.all isBareRest

/-- An identifier bare where that is safe, and quoted otherwise. -/
def render (s : String) : String := if isBare s && !isReserved s then s else quote s

end GrantPlan.Identifier
