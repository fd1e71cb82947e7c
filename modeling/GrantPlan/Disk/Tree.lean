import GrantPlan.Disk
import GrantPlan.Disk.Path
import GrantPlan.Ordered.Map
/-!
# Disks as values

`DiskTree` is a tree of directories and files with a working directory in it, and `DiskTree.disk`
offers it as a disk. Paths are followed name by name: each name but the last has to lead to a
directory, `..` leads one directory up, and the root is its own parent.
-/

namespace GrantPlan

/-- A place in a tree, by the names that lead there from the root. -/
abbrev Place := List String

/-- What stands at a place. -/
inductive DiskEntry
  | directory
  | file (contents : ByteArray)

/-- A tree of directories and files. The root is a directory without being listed. -/
structure DiskTree where
  entries : OrderedMap Place DiskEntry
  workingDirectory : Place

namespace DiskTree

/-- The tree that holds nothing but a working directory in the root. -/
def empty : DiskTree :=
  let place := ["work"]
  ⟨OrderedMap.insert ∅ place .directory, place⟩

/-- What stands at a place. -/
def entry? (tree : DiskTree) (place : Place) : Option DiskEntry :=
  if place = [] then some .directory else tree.entries.get? place

/-- The tree with something put at a place. -/
def put (tree : DiskTree) (place : Place) (entry : DiskEntry) : DiskTree :=
  { tree with entries := tree.entries.insert place entry }

/-! ## Following paths -/

/-- How many bytes a name may have. -/
def nameLimit : Nat := 255

/-- How many bytes a path must stay below. -/
def pathLimit : Nat := 4096

/-- The place that a name leads to from a directory, whether or not anything stands there. -/
def nextPlace (tree : DiskTree) (here : Place) (name : String) : Except DiskFault Place :=
  match tree.entry? here with
  | none => .error .missing
  | some (.file _) => .error .notDirectory
  | some .directory =>
    if Path.isIdle name then .ok here
    else if name = ".." then .ok here.dropLast
    else if nameLimit < name.utf8ByteSize then .error .nameTooLong
    else .ok (here ++ [name])

/-- The place that names lead to. Something has to stand there. -/
def follow (tree : DiskTree) (here : Place) (names : List String) : Except DiskFault Place :=
  names.foldlM
    (fun here name => do
      let place ← tree.nextPlace here name
      if (tree.entry? place).isSome then .ok place else .error .missing)
    here

/-- The place where a path begins, and its names. -/
def start (tree : DiskTree) (path : String) : Except DiskFault (Place × List String) :=
  if path.toList.contains '\x00' then .error .nulInName
  else if path = "" then .error .missing
  else if pathLimit ≤ path.utf8ByteSize then .error .nameTooLong
  else
    match Path.names path with
    | "" :: rest => .ok ([], rest)
    | names => .ok (tree.workingDirectory, names)

/-- What stands under a path, and where. -/
def locate (tree : DiskTree) (path : String) : Except DiskFault (Place × DiskEntry) := do
  let (here, names) ← tree.start path
  let place ← tree.follow here names
  match tree.entry? place with
  | some entry => return (place, entry)
  | none => .error .missing

/-- The place that a path leads to, where something may stand or not, and the last name on the way.
Only the last name may lead to nothing. -/
def target (tree : DiskTree) (path : String) : Except DiskFault (Place × Option String) := do
  let (here, names) ← tree.start path
  match names.reverse.dropWhile (· = "") with
  | [] => return (here, none)
  | last :: back =>
    let directory ← tree.follow here back.reverse
    return (← tree.nextPlace directory last, some last)

/-! ## Reading, making, writing -/

/-- The text of a file. -/
def readText (tree : DiskTree) (path : String) : Except DiskFault String := do
  match ← tree.locate path with
  | (_, .directory) => .error .isDirectory
  | (_, .file contents) =>
    match String.fromUTF8? contents with
    | some text => return text
    | none => .error .notText

/-- Whether there is a directory under a path. -/
def isDirectory (tree : DiskTree) (path : String) : Bool :=
  match tree.locate path with
  | .ok (_, .directory) => true
  | _ => false

/-- The tree with a directory made in a directory that is there. -/
def makeDirectory (tree : DiskTree) (path : String) : Except DiskFault DiskTree := do
  let (place, last?) ← tree.target path
  match last? with
  | some name =>
    if name = "." || name = ".." || (tree.entry? place).isSome then .error .taken
    else return tree.put place .directory
  | none => .error .taken

/-- Makes a directory in one that is there; a directory that is there already does. -/
def ensureDirectory (tree : DiskTree) (path : String) : Except DiskFault Unit × DiskTree :=
  match tree.makeDirectory path with
  | .ok tree => (.ok (), tree)
  | .error fault => (if tree.isDirectory path then .ok () else .error fault, tree)

/-- Makes a directory, and the directories around it, innermost first, so far as they are missing.
What has been made stays, also if a later step fails. -/
def makeDirectoriesIn (tree : DiskTree) (path : String) :
    List String → Except DiskFault Unit × DiskTree
  | [] => if path = "" then (.ok (), tree) else tree.ensureDirectory path
  | parent :: further =>
    match tree.makeDirectory path with
    | .error .missing =>
      match tree.makeDirectoriesIn parent further with
      | (.ok (), tree) => tree.ensureDirectory path
      | failure => failure
    | _ => tree.ensureDirectory path

/-- Makes a directory, and those around it that are missing. -/
def makeDirectories (tree : DiskTree) (path : String) : Except DiskFault Unit × DiskTree :=
  tree.makeDirectoriesIn path (Path.ancestors path)

/-- The tree with a text as the contents of a file. -/
def writeText (tree : DiskTree) (path text : String) : Except DiskFault DiskTree := do
  let (place, _) ← tree.target path
  match tree.entry? place with
  | some .directory => .error .isDirectory
  | _ =>
    if path.toList.getLast? = some '/' then .error .isDirectory
    else return tree.put place (.file text.toUTF8)

/-- The tree as a disk. -/
def disk : Disk (StateM DiskTree) where
  readText path := do return (← get).readText path
  makeDirectories path := modifyGet (·.makeDirectories path)
  writeText path text := modifyGet fun tree =>
    match tree.writeText path text with
    | .ok tree => (.ok (), tree)
    | .error fault => (.error fault, tree)

end DiskTree

end GrantPlan
