/-!
# JSON text

How JSON is written: strings with the escapes they need and no others, and lists and objects laid
out over lines, each level two blanks further in.
-/

namespace GrantPlan.Json

/-- The spelling of a character inside a string. -/
def escape (c : Char) : List Char :=
  if c = '"' then ['\\', '"']
  else if c = '\\' then ['\\', '\\']
  else if c = '\n' then ['\\', 'n']
  else if c = '\r' then ['\\', 'r']
  else if c = '\t' then ['\\', 't']
  else if c = '\x08' then ['\\', 'b']
  else if c = '\x0c' then ['\\', 'f']
  else if c < ' ' then ['\\', 'u', '0', '0', Nat.digitChar (c.toNat / 16), Nat.digitChar (c.toNat % 16)]
  else [c]

/-- A string between quotes. -/
def quoted (s : String) : String := String.ofList ('"' :: s.toList.flatMap escape ++ ['"'])

/-- The indentation of a level. -/
def indentation (level : Nat) : String := "".pushn ' ' (2 * level)

/-- Items between brackets: each on a line of its own one level further in, or nothing at all
between the brackets. -/
def block (opening closing : String) (level : Nat) (items : List String) : String :=
  if items.isEmpty then opening ++ closing
  else
    let lines := items.map (indentation (level + 1) ++ ·)
    opening ++ "\n" ++ ",\n".intercalate lines ++ "\n" ++ indentation level ++ closing

/-- A list of values that are written already. -/
def listText (level : Nat) (items : List String) : String := block "[" "]" level items

/-- An object of values that are written already. -/
def objectText (level : Nat) (members : List (String × String)) : String :=
  block "\x7b" "\x7d" level (members.map fun (key, value) => quoted key ++ ": " ++ value)

end GrantPlan.Json
