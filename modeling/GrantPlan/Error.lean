import GrantPlan.Catalog.Server
import GrantPlan.Disk
import GrantPlan.DocumentError
import GrantPlan.Output
import GrantPlan.Scope
/-!
# Errors

Everything that can keep a plan from being made and delivered.
-/

namespace GrantPlan

/-- Why there is no plan, or why it was not delivered. -/
inductive Error
  /-- There is a mistake in the spec. -/
  | plan (mistake : PlanError)
  /-- The spec document is refused. -/
  | invalidSpec (cause : DocumentError)
  /-- The catalog document is refused. -/
  | invalidCatalog (cause : DocumentError)
  /-- A file cannot be read or written. -/
  | disk (cause : DiskError)
  /-- The stem of the output files does not do. -/
  | invalidStem (cause : StemError)
  /-- The catalog cannot be read from a server. -/
  | server (cause : ServerError)
  /-- The program does not know how to talk to servers. -/
  | serverUnsupported
deriving DecidableEq, Repr

namespace Error

/-- Whether the spec is to blame, and not what surrounds it. -/
def isAuthoring : Error → Bool
  | plan _ => true
  | _ => false

/-- What is refused, and why, so far as it is put into words. -/
def refusal (subject : String) (cause : DocumentError) : String :=
  match cause.message? with
  | some text => subject ++ ": " ++ text
  | none => subject

/-- The text of an error. -/
def message : Error → String
  | plan mistake => mistake.message
  | invalidSpec cause => refusal "invalid spec" cause
  | invalidCatalog cause => refusal "invalid snapshot" cause
  | disk cause => cause.message
  | invalidStem cause => "invalid output name: " ++ cause.message
  | server cause => "database error: " ++ cause.message
  | serverUnsupported =>
    "database error: --db-url requires privsync to be built with the `db` feature"

end Error

end GrantPlan
