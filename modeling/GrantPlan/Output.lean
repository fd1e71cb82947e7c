import GrantPlan.Disk
import GrantPlan.Disk.Path
import GrantPlan.Report
import GrantPlan.Script
import GrantPlan.Text.Blank
/-!
# Output files

A plan goes to disk as two files, a script and a report, whose names begin with a stem of the
user's choice. The stem is checked before anything is written.
-/

namespace GrantPlan

/-- Why a stem does not do. -/
inductive StemError
  /-- There is nothing but white space. -/
  | blank
  /-- The stem would lead to another directory. -/
  | notPlain (stem : String)
deriving DecidableEq, Repr

/-- The text of a fault. -/
def StemError.message : StemError → String
  | blank => "output name must not be empty"
  | notPlain stem => "'" ++ stem ++ "' must be a plain file stem without path segments"

/-- Checks the stem of output files. -/
def checkStem (stem : String) : Except StemError Unit :=
  if (trimBlanks stem.toList).isEmpty then .error .blank
  else if stem = ".." || stem.toList.contains '/' || stem.toList.contains '\\' then
    .error (.notPlain stem)
  else .ok ()

/-- A file to be written. -/
structure OutputFile where
  path : String
  text : String
deriving DecidableEq, Repr

/-- The files of a plan, in the order in which they are written. -/
def outputFiles (directory stem : String) (statements : List Statement) : List OutputFile :=
  [⟨Path.join directory (stem ++ ".sql"), scriptFile statements⟩,
    ⟨Path.join directory (stem ++ "_report.md"), report statements⟩]

/-- Writes files into a directory, which is made first. The first fault ends the writing. -/
def Disk.writeFiles {m : Type → Type} [Monad m] (disk : Disk m) (directory : String)
    (files : List OutputFile) : ExceptT DiskError m Unit := do
  Disk.concerning directory (disk.makeDirectories directory)
  files.forM fun file => Disk.concerning file.path (disk.writeText file.path file.text)

end GrantPlan
