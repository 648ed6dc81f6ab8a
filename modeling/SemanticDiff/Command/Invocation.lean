import SemanticDiff.Command.Usage

/-!
# Invocations

The commands that can be given, with their arguments: comparing two files,
comparing two directories, and listing the rules of the catalog.
-/

namespace SemanticDiff.Command

/-- Where a report goes and what it looks like. -/
structure Output where
  format : String
  append : Option String
deriving DecidableEq, Repr

/-- What is to be done. -/
inductive Task where
  | diff (before after : String) (path : Option String) (revision : String) (output : Output)
  | tree (before after : String) (revision : String) (output : Output)
  | catalog (rule : Option String)
deriving DecidableEq, Repr

/-- A command with its arguments. -/
structure Invocation where
  config : Option String
  task : Task
deriving DecidableEq, Repr

/-! ## What the commands take -/

/-- Options that may stand before and after the name of a command. -/
def commonChoices : List Choice :=
  [{ slot := .config, long := "config", short := some 'c', action := .value false },
    { slot := .verbose, long := "verbose", short := some 'v', action := .count },
    { slot := .help, long := "help", short := some 'h', action := .help }]

/-- Options of commands that write a report. -/
def reportChoices : List Choice :=
  [{ slot := .revision, long := "revision", short := some 'r', action := .value true },
    { slot := .format, long := "format", short := some 'f', action := .value true },
    { slot := .append, long := "append", short := none, action := .value false }]

/-- What stands before the name of a command. -/
def outerSpec : Spec where
  choices :=
    commonChoices ++
      [{ slot := .version, long := "version", short := some 'V', action := .version }]
  positionals := []
  subcommands := ["diff", "tree", "catalog", "help"]

/-- The two sides of a comparison. -/
def sides : List Positional :=
  [{ slot := .before, mayBeEmpty := false, required := true },
    { slot := .after, mayBeEmpty := false, required := true }]

/-- What the comparison of two files takes. -/
def diffSpec : Spec where
  choices :=
    commonChoices ++ reportChoices ++
      [{ slot := .path, long := "path", short := some 'p', action := .value true }]
  positionals := sides
  subcommands := []

/-- What the comparison of two directories takes. -/
def treeSpec : Spec where
  choices :=
    commonChoices ++ reportChoices ++
      [{ slot := .noProgress, long := "no-progress", short := none, action := .flag }]
  positionals := sides
  subcommands := []

/-- What the list of rules takes. -/
def catalogSpec : Spec where
  choices := commonChoices
  positionals := [{ slot := .rule, mayBeEmpty := true, required := false }]
  subcommands := []

/-! ## Reading -/

/-- The arguments of a command. -/
abbrev Arguments := List (Slot × String)

namespace Arguments

/-- Where the report goes. -/
def output (arguments : Arguments) : Output where
  format := (arguments.lookup .format).getD "pretty"
  append := arguments.lookup .append

/-- The revision that events carry. -/
def revision (arguments : Arguments) : String :=
  (arguments.lookup .revision).getD "working"

/-- The sides of a comparison. -/
def sides (arguments : Arguments) : String × String :=
  ((arguments.lookup .before).getD "", (arguments.lookup .after).getD "")

end Arguments

/-- Whether help is there for a list of names. -/
def hasHelp (names : List String) : Bool :=
  match names with
  | [] => true
  | [name] => outerSpec.subcommands.contains name
  | ["help", name] => outerSpec.subcommands.contains name
  | _ => false

/-- Read the words after the name of a command. -/
def readTask (name : String) (words : List String) :
    Except UsageError (Arguments × Task) := do
  if name = "diff" then
    let arguments ← readAll diffSpec words
    let (before, after) := Arguments.sides arguments
    return (arguments,
      .diff before after (arguments.lookup .path) (Arguments.revision arguments)
        (Arguments.output arguments))
  else if name = "tree" then
    let arguments ← readAll treeSpec words
    let (before, after) := Arguments.sides arguments
    return (arguments,
      .tree before after (Arguments.revision arguments) (Arguments.output arguments))
  else if name = "catalog" then
    let arguments ← readAll catalogSpec words
    return (arguments, .catalog (arguments.lookup .rule))
  else .error (if hasHelp words then .help else .unknownSubcommand)

/-- Read a command line.  An option after the name of the command goes before the
same option in front of it. -/
def Invocation.read (words : List String) : Except UsageError Invocation := do
  let (outer, command) ← readWords outerSpec { free := [] } words
  match command with
  | some (name, words) =>
      let (arguments, task) ← readTask name words
      let outer ← outer.settle
      return { config := (arguments.lookup .config).or (outer.values.lookup .config), task }
  | none =>
      let outer ← outer.settle
      .error (if outer.explicit then .missingSubcommand else .helpForNothing)

end SemanticDiff.Command
