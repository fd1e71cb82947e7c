/-!
# The command line

What a run of the program is asked to do, read from its arguments one after the other. Arguments
that begin with two hyphens are options, up to an argument of two hyphens alone; an option that
takes a value finds it behind an equals sign, or else in the next argument, which must not look like
an option. The first misuse ends the reading, and so does a request for help.
-/

namespace GrantPlan

/-- An option that takes a value. -/
inductive ValueOption
  | snapshot
  | databaseUrl
  | outputDirectory
  | stem
deriving DecidableEq, Repr

namespace ValueOption

/-- Every option that takes a value. -/
def all : List ValueOption := [.snapshot, .databaseUrl, .outputDirectory, .stem]

/-- The word for an option, which two hyphens precede. -/
def word : ValueOption → String
  | snapshot => "snapshot"
  | databaseUrl => "db-url"
  | outputDirectory => "output-dir"
  | stem => "name"

/-- The option that a word stands for. Options have no short forms. -/
def ofWord? (s : String) : Option ValueOption := all.find? (·.word = s)

/-- Whether the value of an option is a path. -/
def isPath : ValueOption → Bool
  | snapshot => true
  | outputDirectory => true
  | _ => false

end ValueOption

/-- Why arguments are refused. -/
inductive UsageError
  | unknownOption (argument : String)
  | missingValue (option : ValueOption)
  | needlessValue (argument : String)
  | repeatedOption (word : String)
  | emptyPath
  | surplusArgument (argument : String)
  | missingSpec
  | missingCatalog
  | twoCatalogs
deriving DecidableEq, Repr

/-- The text of a misuse. -/
def UsageError.message : UsageError → String
  | unknownOption argument => "unexpected argument '" ++ argument ++ "' found"
  | missingValue option => "a value is required for '--" ++ option.word ++ "' but none was supplied"
  | needlessValue argument => "unexpected value in '" ++ argument ++ "'"
  | repeatedOption word => "the argument '--" ++ word ++ "' cannot be used multiple times"
  | emptyPath => "a path must not be empty"
  | surplusArgument argument => "unexpected argument '" ++ argument ++ "' found"
  | missingSpec => "the spec was not provided"
  | missingCatalog => "either --snapshot or --db-url is required"
  | twoCatalogs => "the argument '--snapshot' cannot be used with '--db-url'"

/-- What ends the reading of arguments before its time. -/
inductive Interruption
  | help
  | misuse (cause : UsageError)
deriving DecidableEq, Repr

/-- Where the catalog comes from. -/
inductive CatalogSource
  | file (path : String)
  | server (url : String)
deriving DecidableEq, Repr

/-- What the program is asked to do. -/
structure Options where
  /-- The path of the spec. -/
  spec : String
  catalog : CatalogSource
  /-- Where to write output files; `none` to print the script instead. -/
  outputDirectory? : Option String
  /-- How the names of output files begin. -/
  stem : String
  verbose : Bool
deriving DecidableEq, Repr

/-- The stem of output files if no other is asked for. -/
def Options.defaultStem : String := "privileges"

namespace CommandLine

/-! ## Single arguments -/

/-- What an argument looks like. -/
inductive Shape
  /-- The two hyphens behind which there are no more options. -/
  | endOfOptions
  /-- An option, with the value behind its equals sign. -/
  | option (word : String) (value? : Option String)
  /-- A request for help by a single letter. -/
  | helpLetter
  /-- Other single letters, none of which is known. -/
  | letters
  /-- Anything else. -/
  | plain
deriving DecidableEq, Repr

/-- The word of an option, and what stands behind its equals sign. -/
def splitAtEquals (cs : List Char) : String × Option String :=
  match cs.dropWhile (· ≠ '=') with
  | [] => (String.ofList cs, none)
  | _ :: value => (String.ofList (cs.takeWhile (· ≠ '=')), some (String.ofList value))

/-- What an argument looks like. A single hyphen is nothing special. -/
def shape (argument : String) : Shape :=
  match argument.toList with
  | ['-', '-'] => .endOfOptions
  | '-' :: '-' :: cs =>
    let (word, value?) := splitAtEquals cs
    .option word value?
  | '-' :: 'h' :: _ => .helpLetter
  | '-' :: _ :: _ => .letters
  | _ => .plain

/-! ## All arguments -/

/-- What the arguments read so far say. -/
structure Draft where
  spec? : Option String
  values : List (ValueOption × String)
  verbose : Bool

namespace Draft

/-- Nothing said so far. -/
def empty : Draft := ⟨none, [], false⟩

/-- The value given to an option. -/
def value? (draft : Draft) (option : ValueOption) : Option String :=
  (draft.values.find? (·.1 = option)).map Prod.snd

/-- Takes in the value of an option. -/
def giveValue (draft : Draft) (option : ValueOption) (value : String) :
    Except Interruption Draft :=
  if (draft.value? option).isSome then .error (.misuse (.repeatedOption option.word))
  else if option.isPath && value.isEmpty then .error (.misuse .emptyPath)
  else .ok { draft with values := draft.values ++ [(option, value)] }

/-- Takes in the option for more diagnostics. -/
def giveVerbose (draft : Draft) : Except Interruption Draft :=
  if draft.verbose then .error (.misuse (.repeatedOption "verbose"))
  else .ok { draft with verbose := true }

/-- Takes in an argument that belongs to no option. -/
def giveSpec (draft : Draft) (argument : String) : Except Interruption Draft :=
  if draft.spec?.isSome then .error (.misuse (.surplusArgument argument))
  else if argument.isEmpty then .error (.misuse .emptyPath)
  else .ok { draft with spec? := some argument }

/-- What the arguments ask for, once all of them are read. -/
def finish (draft : Draft) : Except Interruption Options :=
  let options (spec : String) (catalog : CatalogSource) : Options :=
    ⟨spec, catalog, draft.value? .outputDirectory,
      (draft.value? .stem).getD Options.defaultStem, draft.verbose⟩
  match draft.value? .snapshot, draft.value? .databaseUrl, draft.spec? with
  | some _, some _, _ => .error (.misuse .twoCatalogs)
  | _, _, none => .error (.misuse .missingSpec)
  | none, none, _ => .error (.misuse .missingCatalog)
  | some path, none, some spec => .ok (options spec (.file path))
  | none, some url, some spec => .ok (options spec (.server url))

end Draft

/-- Takes in arguments one after the other. -/
def readFrom (draft : Draft) : List String → Except Interruption Draft
  | [] => .ok draft
  | argument :: rest =>
    match shape argument with
    | .endOfOptions => rest.foldlM Draft.giveSpec draft
    | .helpLetter => .error .help
    | .letters => .error (.misuse (.unknownOption argument))
    | .plain => do readFrom (← draft.giveSpec argument) rest
    | .option "help" none => .error .help
    | .option "help" (some _) => .error (.misuse (.needlessValue argument))
    | .option "verbose" none => do readFrom (← draft.giveVerbose) rest
    | .option "verbose" (some _) => .error (.misuse (.needlessValue argument))
    | .option word (some value) =>
      match ValueOption.ofWord? word with
      | some option => do readFrom (← draft.giveValue option value) rest
      | none => .error (.misuse (.unknownOption argument))
    | .option word none =>
      match ValueOption.ofWord? word with
      | none => .error (.misuse (.unknownOption argument))
      | some option =>
        match rest with
        | [] => .error (.misuse (.missingValue option))
        | value :: further =>
          if shape value = .plain then do readFrom (← draft.giveValue option value) further
          else .error (.misuse (.missingValue option))
termination_by arguments => arguments.length

/-- What arguments ask for. -/
def read (arguments : List String) : Except Interruption Options := do
  (← readFrom .empty arguments).finish

/-- What is printed on request. -/
def helpText : String := String.join (List.map (· ++ "\n")
  [ "Plan the GRANT/REVOKE statements that make a PostgreSQL database match a privilege spec",
    "",
    "Usage: privsync [OPTIONS] <SPEC>",
    "",
    "Arguments:",
    "  <SPEC>  Role and privilege spec (YAML)",
    "",
    "Options:",
    "      --snapshot <SNAPSHOT>      " ++
      "Catalog snapshot (JSON) describing current ownership and grants",
    "      --db-url <DB_URL>          " ++
      "Introspect a live `PostgreSQL` database (requires the `db` feature)",
    "      --output-dir <OUTPUT_DIR>  " ++
      "Write `<name>.sql` and `<name>_report.md` here instead of printing the script",
    "      --name <NAME>              " ++
      "File stem for files written to --output-dir [default: privileges]",
    "      --verbose                  Print debug diagnostics to stderr",
    "  -h, --help                     Print help" ])

end CommandLine

end GrantPlan
