import GrantPlan.Statement
/-!
# Reports

A plan as a short Markdown text: how many changes each role is in for, and which superusers were
left alone.
-/

namespace GrantPlan

/-- How many changes of each form a plan makes for one role. -/
structure ChangeCounts where
  grants : Nat
  revokes : Nat
  defaultGrants : Nat
  defaultRevokes : Nat
deriving DecidableEq, Repr

namespace ChangeCounts

/-- No change at all. -/
def zero : ChangeCounts := ⟨0, 0, 0, 0⟩

/-- The counts with one more statement taken in. -/
def count (counts : ChangeCounts) : Statement → ChangeCounts
  | .grant .. => { counts with grants := counts.grants + 1 }
  | .revoke .. => { counts with revokes := counts.revokes + 1 }
  | .grantDefault .. => { counts with defaultGrants := counts.defaultGrants + 1 }
  | .revokeDefault .. => { counts with defaultRevokes := counts.defaultRevokes + 1 }
  | .skipSuperuser _ => counts

end ChangeCounts

/-- What a report lists: counts by role in the order of each role's first change, and the
superusers noted. -/
structure Tally where
  changes : List (String × ChangeCounts)
  superusers : List String
deriving DecidableEq, Repr

namespace Tally

/-- Nothing listed yet. -/
def empty : Tally := ⟨[], []⟩

/-- Counts a statement under its role, which is listed last if it is new. -/
def countUnder (statement : Statement) : List (String × ChangeCounts) → List (String × ChangeCounts)
  | [] => [(statement.role, ChangeCounts.zero.count statement)]
  | (role, counts) :: rest =>
    if role = statement.role then (role, counts.count statement) :: rest
    else (role, counts) :: countUnder statement rest

/-- The tally with one more statement taken in. -/
def add (tally : Tally) (statement : Statement) : Tally :=
  if statement.isChange then { tally with changes := countUnder statement tally.changes }
  else { tally with superusers := tally.superusers ++ [statement.role] }

/-- The tally of a plan. -/
def ofStatements (statements : List Statement) : Tally := statements.foldl add empty

/-- One row of the table of changes. -/
def row (entry : String × ChangeCounts) : String :=
  "| " ++ entry.1 ++ " | " ++ toString entry.2.grants ++ " | " ++ toString entry.2.revokes ++
    " | " ++ toString entry.2.defaultGrants ++ " | " ++ toString entry.2.defaultRevokes ++ " |"

/-- The part of a report about changes, by lines. -/
def changeLines (changes : List (String × ChangeCounts)) : List String :=
  if changes.isEmpty then ["No privilege changes required."]
  else
    ["## Changes", "", "| Role | Grants | Revokes | Default grants | Default revokes |",
      "|------|--------|---------|----------------|-----------------|"] ++ changes.map row

/-- The part of a report about superusers, by lines. -/
def superuserLines (superusers : List String) : List String :=
  if superusers.isEmpty then []
  else ["", "## Skipped superusers", ""] ++ superusers.map ("- " ++ ·)

/-- The text of a tally: every line ends in a line break. -/
def render (tally : Tally) : String :=
  let lines := ["# privsync Plan Report", ""] ++ changeLines tally.changes ++
    superuserLines tally.superusers
  String.join (lines.map (· ++ "\n"))

end Tally

/-- The report of a plan. -/
def report (statements : List Statement) : String := (Tally.ofStatements statements).render

end GrantPlan
