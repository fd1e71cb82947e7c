/-!
# White space

The characters with Unicode property `White_Space`, and text without such characters at its ends.
-/

namespace GrantPlan

/-- The code points with property `White_Space`, as inclusive ranges in increasing order. -/
def blankRanges : List (Nat × Nat) :=
  [(0x9, 0xD), (0x20, 0x20), (0x85, 0x85), (0xA0, 0xA0), (0x1680, 0x1680), (0x2000, 0x200A),
    (0x2028, 0x2029), (0x202F, 0x202F), (0x205F, 0x205F), (0x3000, 0x3000)]

/-- Whether a character is white space. -/
def isBlank (c : Char) : Bool := blankRanges.any fun r => r.1 ≤ c.toNat && c.toNat ≤ r.2

/-- The part of a text between its first and its last character that is not white space. -/
def trimBlanks (cs : List Char) : List Char :=
  ((cs.dropWhile isBlank).reverse.dropWhile isBlank).reverse

/-- A text without the white space at its ends. -/
def trimText (s : String) : String := String.ofList (trimBlanks s.toList)

end GrantPlan
