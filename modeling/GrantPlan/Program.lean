import GrantPlan.CommandLine
import GrantPlan.Error
import GrantPlan.Plan
import GrantPlan.Spec.Document
/-!
# The program

One run: it reads a spec and a catalog from a disk, plans, and either prints the script of the plan
or writes output files. The spec is read and checked before the catalog is looked at, and nothing is
printed or written unless there is a plan.

The exit status is 0 if nothing has to be changed, 1 if something has, and 2 if there is no plan or
it could not be delivered.
-/

namespace GrantPlan

/-- How a run ends. -/
inductive Outcome
  /-- Help was asked for. -/
  | helped
  /-- The arguments were refused. -/
  | misused (cause : UsageError)
  | failed (cause : Error)
  /-- A plan was made and delivered, with `printed` as the text printed. -/
  | planned (statements : List Statement) (printed : String)
deriving DecidableEq, Repr

namespace Outcome

/-- The exit status of a run. -/
def exitStatus : Outcome → Nat
  | helped => 0
  | misused _ => 2
  | failed _ => 2
  | planned statements _ => if statements.any (·.isChange) then 1 else 0

/-- What a run prints. -/
def printed : Outcome → String
  | helped => CommandLine.helpText
  | planned _ printed => printed
  | _ => ""

/-- What a run complains about. -/
def complaint? : Outcome → Option String
  | misused cause => some ("error: " ++ cause.message)
  | failed cause => some ("Error: " ++ cause.message)
  | _ => none

end Outcome

namespace Program

variable {m : Type → Type} [Monad m]

/-- The text of a file. -/
def readText (disk : Disk m) (path : String) : ExceptT Error m String :=
  (Disk.concerning path (disk.readText path)).adapt Error.disk

/-- The spec that a file holds. -/
def readSpec (disk : Disk m) (path : String) : ExceptT Error m Spec := do
  let text ← readText disk path
  ExceptT.mk (pure ((Spec.ofText text).mapError Error.invalidSpec))

/-- The catalog that a file holds. -/
def readCatalog (disk : Disk m) (path : String) : ExceptT Error m Catalog := do
  let text ← readText disk path
  ExceptT.mk (pure ((Catalog.ofText text).mapError Error.invalidCatalog))

/-- The catalog that a source holds. No server can be asked. -/
def readSource (disk : Disk m) : CatalogSource → ExceptT Error m Catalog
  | .file path => readCatalog disk path
  | .server _ => throw .serverUnsupported

/-- Writes the output files of a plan. -/
def writePlan (disk : Disk m) (directory stem : String) (statements : List Statement) :
    ExceptT Error m Unit := do
  ExceptT.mk (pure ((checkStem stem).mapError Error.invalidStem))
  let files := outputFiles directory stem statements
  (disk.writeFiles directory files).adapt Error.disk

/-- Makes a plan and delivers it. The result is the plan and the text to print. -/
def perform (disk : Disk m) (options : Options) : ExceptT Error m (List Statement × String) := do
  let spec ← readSpec disk options.spec
  let catalog ← readSource disk options.catalog
  let statements ← ExceptT.mk (pure ((plan spec catalog).mapError Error.plan))
  match options.outputDirectory? with
  | some directory =>
    writePlan disk directory options.stem statements
    return (statements, "")
  | none => return (statements, scriptFile statements)

/-- Runs the program with some arguments. -/
def run (disk : Disk m) (arguments : List String) : m Outcome :=
  match CommandLine.read arguments with
  | .error .help => pure .helped
  | .error (.misuse cause) => pure (.misused cause)
  | .ok options => do
    match ← (perform disk options).run with
    | .ok (statements, printed) => return .planned statements printed
    | .error cause => return .failed cause

end Program

end GrantPlan
