import GrantPlan.Program
/-!
# The executable

Runs the program on the disk of the system.
-/

namespace GrantPlan

/-- The fault that a number of the system stands for. -/
def faultOfCode (code : UInt32) (words : String) : DiskFault :=
  match code with
  | 2 => .missing
  | 17 => .taken
  | 20 => .notDirectory
  | 21 => .isDirectory
  | 36 => .nameTooLong
  | _ => .other (DiskFault.systemText words code.toNat)

/-- The fault that the system reports. -/
def faultOfSystem : IO.Error → DiskFault
  | .alreadyExists _ code words => faultOfCode code words
  | .otherError code words => faultOfCode code words
  | .resourceBusy code words => faultOfCode code words
  | .resourceVanished code words => faultOfCode code words
  | .unsupportedOperation code words => faultOfCode code words
  | .hardwareFault code words => faultOfCode code words
  | .unsatisfiedConstraints code words => faultOfCode code words
  | .illegalOperation code words => faultOfCode code words
  | .protocolError code words => faultOfCode code words
  | .timeExpired code words => faultOfCode code words
  | .interrupted _ code words => faultOfCode code words
  | .noFileOrDirectory _ code words => faultOfCode code words
  | .invalidArgument _ code words => faultOfCode code words
  | .permissionDenied _ code words => faultOfCode code words
  | .resourceExhausted _ code words => faultOfCode code words
  | .inappropriateType _ code words => faultOfCode code words
  | .noSuchThing _ code words => faultOfCode code words
  | .unexpectedEof => .other "unexpected end of file"
  | .userError words => .other words

/-- Carries out an action, with its fault as a value. -/
def attempt {α : Type} (action : IO α) : IO (Except DiskFault α) := do
  match ← action.toBaseIO with
  | .ok value => return .ok value
  | .error error => return .error (faultOfSystem error)

/-- The disk of the system. -/
def systemDisk : Disk IO where
  readText path := do
    match ← attempt (IO.FS.readBinFile path) with
    | .error fault => return .error fault
    | .ok contents =>
      match String.fromUTF8? contents with
      | some text => return .ok text
      | none => return .error .notText
  makeDirectories path := do
    match ← attempt (IO.FS.createDir path) with
    | .ok () => return .ok ()
    | .error fault =>
      -- Only what is missing can be made up for, but a directory that is there will do.
      match fault, ← attempt (IO.FS.createDirAll path) with
      | _, .ok () => return .ok ()
      | .missing, .error deeper => return .error deeper
      | _, .error _ => return .error fault
  writeText path text := attempt (IO.FS.writeFile path text)

end GrantPlan

/-- Runs the program on the arguments given to it. -/
def main (arguments : List String) : IO UInt32 := do
  let outcome ← GrantPlan.Program.run GrantPlan.systemDisk arguments
  IO.print outcome.printed
  if let some complaint := outcome.complaint? then IO.eprintln complaint
  return outcome.exitStatus.toUInt32
