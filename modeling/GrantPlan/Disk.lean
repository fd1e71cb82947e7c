/-!
# Disks

What the program needs of a disk: to read a text, to make a directory, and to write a text. A `Disk`
offers these as actions of some monad, each of which may fail with a `DiskFault`. `DiskTree.disk` is
a disk whose contents are a value.
-/

namespace GrantPlan

/-- Why a disk refuses. -/
inductive DiskFault
  /-- There is nothing under the path. -/
  | missing
  /-- There is something under the path already. -/
  | taken
  /-- The path leads through something that is no directory. -/
  | notDirectory
  /-- A directory stands where a file is needed. -/
  | isDirectory
  /-- The path, or a name in it, exceeds what the disk admits. -/
  | nameTooLong
  /-- The path holds the character that ends names. -/
  | nulInName
  /-- The file holds bytes that are not UTF-8. -/
  | notText
  /-- Any other fault, as the system words it. -/
  | other (text : String)
deriving DecidableEq, Repr

namespace DiskFault

/-- The words of the system, with the number it gives to a fault. -/
def systemText (words : String) (number : Nat) : String :=
  words ++ " (os error " ++ toString number ++ ")"

/-- The text of a fault. -/
def message : DiskFault → String
  | missing => systemText "No such file or directory" 2
  | taken => systemText "File exists" 17
  | notDirectory => systemText "Not a directory" 20
  | isDirectory => systemText "Is a directory" 21
  | nameTooLong => systemText "File name too long" 36
  | nulInName => "file name contained an unexpected NUL byte"
  | notText => "stream did not contain valid UTF-8"
  | other text => text

end DiskFault

/-- A disk, by what can be done with it. Paths are relative to a working directory unless they
begin with a slash. -/
structure Disk (m : Type → Type) where
  /-- The text of a file. -/
  readText (path : String) : m (Except DiskFault String)
  /-- Makes a directory, and those around it that are missing. A directory that is there already
  does. -/
  makeDirectories (path : String) : m (Except DiskFault Unit)
  /-- Makes a text the contents of a file. -/
  writeText (path : String) (text : String) : m (Except DiskFault Unit)

/-- A fault of a disk, with the path that it concerns. -/
structure DiskError where
  path : String
  fault : DiskFault
deriving DecidableEq, Repr

/-- The text of a fault. -/
def DiskError.message (error : DiskError) : String :=
  "failed to access " ++ error.path ++ ": " ++ error.fault.message

/-- An action on a disk whose faults are reported with a path. -/
def Disk.concerning {m : Type → Type} [Monad m] {α : Type} (path : String)
    (action : m (Except DiskFault α)) : ExceptT DiskError m α :=
  ExceptT.mk do return (← action).mapError (DiskError.mk path)

end GrantPlan
