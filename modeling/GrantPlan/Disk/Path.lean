/-!
# Paths

A path is a text in which slashes stand between names. Where it is taken apart, names that lead
nowhere, which are the empty one and the single dot, count for nothing except at the front.
-/

namespace GrantPlan.Path

/-- The names of a path, with an empty one in front of a leading slash and behind a final one. -/
def names (path : String) : List String := (path.toList.splitOn '/').map String.ofList

/-- Whether a name leads nowhere. -/
def isIdle (name : String) : Bool := name = "" || name = "."

/-- The path whose first name is `first`, with the names of `back` behind it, last one first. Idle
names at the end are left out. -/
def textOf (first : String) (back : List String) : String :=
  match back.dropWhile isIdle with
  | [] => if first = "" then "/" else first
  | back => "/".intercalate (first :: back.reverse)

/-- The directories around a path, from the innermost to the outermost; `back` holds its names
behind the first one, last one first. A relative path ends up in the working directory, whose path
is empty. -/
def around (first : String) : List String → List String
  | [] => if first = "" then [] else [""]
  | name :: back =>
    if isIdle name then around first back else textOf first back :: around first back

/-- The directories around a path, from the innermost to the outermost. -/
def ancestors (path : String) : List String :=
  match names path with
  | [] => []
  | first :: rest => around first rest.reverse

/-- The path of a file in a directory. -/
def join (directory file : String) : String :=
  if directory = "" || directory.toList.getLast? = some '/' then directory ++ file
  else directory ++ "/" ++ file

end GrantPlan.Path
