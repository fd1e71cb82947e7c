import GrantPlan.Statement
/-!
# Scripts

A plan as one SQL script: its statements in order, each on a line of its own.
-/

namespace GrantPlan

/-- A text without the line feeds at its end. -/
def dropFinalNewlines (cs : List Char) : List Char := (cs.reverse.dropWhile (· = '\n')).reverse

/-- The script of a plan, without a final line break. -/
def script (statements : List Statement) : String :=
  let text := statements.flatMap fun statement => statement.sql.toList ++ ['\n']
  String.ofList (dropFinalNewlines text)

/-- The script as the contents of a file: text that is not empty ends in a line break. -/
def scriptFile (statements : List Statement) : String :=
  let text := script statements
  if text.isEmpty then "" else text ++ "\n"

end GrantPlan
