import SemanticDiff.Command.Invocation
import SemanticDiff.Engine.Trees
import SemanticDiff.Report.Listing
import SemanticDiff.Settings.Reading

/-!
# Carrying out commands

A command reads files, prints a report and may append events to a file.  All of
this happens on a disk that is handed to it, so the outcome is a value: what was
printed, how the command ended, and the disk afterwards.
-/

namespace SemanticDiff.Command

open SemanticDiff.Files (Disk Entry FileError Component)

/-- What came of a command. -/
structure Outcome where
  stdout : String
  stderr : String
  exit : Nat
  /-- The error that ended the command, if one did. -/
  failure : Option String
  disk : Disk

namespace Outcome

/-- The exit code of success. -/
def success : Nat := 0

/-- The exit code if some file could not be compared. -/
def failed : Nat := 1

/-- The exit code if nothing could be done. -/
def error : Nat := 2

/-- A command that only printed something. -/
def printed (disk : Disk) (stdout : String) (exit : Nat) : Outcome where
  stdout := stdout
  stderr := ""
  exit := exit
  failure := none
  disk := disk

/-- A command that was refused. -/
def refused (disk : Disk) (message : String) : Outcome where
  stdout := ""
  stderr := "Error: " ++ message ++ "\n"
  exit := error
  failure := none
  disk := disk

/-- A command that an error ended after something was printed. -/
def broken (disk : Disk) (stdout message : String) : Outcome where
  stdout := stdout
  stderr := ""
  exit := error
  failure := some message
  disk := disk

end Outcome

/-! ## Settings -/

/-- Names under which settings are looked for in the working directory. -/
def settingsNames : List String := ["svcs.yaml", ".svcs.yaml"]

/-- Where the settings of a user are kept below the home directory. -/
def userSettingsPath (home : String) : String :=
  home ++ "/.config/svcs/svcs.yaml"

/-- The path of the settings: the one that was given, or the first one found. -/
def settingsPath? (disk : Disk) (home given : Option String) : Option String :=
  match given with
  | some path => some path
  | none =>
      (settingsNames ++ (home.map userSettingsPath).toList).find? fun path => disk.hasPath path

/-- Read the settings at a path. -/
def readSettings (disk : Disk) (path : String) : Except String Settings :=
  match disk.readText path with
  | .error error => .error ("failed to read config " ++ path ++ ": " ++ error.message)
  | .ok text =>
      match Settings.read? text with
      | none => .error ("invalid config " ++ path ++ ": not a mapping of settings")
      | some settings => .ok settings

/-- The settings of a command, checked. -/
def loadSettings (disk : Disk) (home given : Option String) : Except String Settings := do
  let settings ←
    match settingsPath? disk home given with
    | some path => readSettings disk path
    | none => .ok {}
  match settings.validate with
  | .ok _ => return settings
  | .error error => .error error.message

/-- The engine of a command. -/
def loadEngine (disk : Disk) (home given : Option String) : Except String Engine := do
  let settings ← loadSettings disk home given
  (Engine.ofSettings settings).mapError DiffError.message

/-! ## Reports -/

/-- Refuse a form that reports do not have. -/
def readFormat (name : String) : Except String Report.Format :=
  match Report.Format.ofName? name with
  | some format => .ok format
  | none =>
      .error
        ("invalid format " ++ Text.quoted name ++ ", must be 'pretty', 'json', or 'jsonl'")

/-- Print a report, and append its events to a file if one is named. -/
def emit (disk : Disk) (format : Report.Format) (append : Option String)
    (diffs : List FileDiff) : Outcome :=
  let stdout := Report.render format false diffs
  let exit := if diffs.any FileDiff.isFailed then Outcome.failed else Outcome.success
  match append with
  | none => .printed disk stdout exit
  | some path =>
      match disk.appendText path (Report.lines diffs) with
      | .ok disk => .printed disk stdout exit
      | .error error =>
          .broken disk stdout ("failed to open " ++ path ++ ": " ++ error.message)

/-- Whether a path stands for a side that does not exist. -/
def isAbsent (path : String) : Bool :=
  Files.Path.components path == [.root, .name "dev", .name "null"]

/-- The text of one side; a side that does not exist has none. -/
def readSide (disk : Disk) (path : String) : Except FileError (Option String) :=
  if isAbsent path || !disk.hasPath path then .ok none else (disk.readText path).map some

/-- Carry on with what was computed, or refuse the command. -/
def orRefuse {α : Type} (disk : Disk) (result : Except String α) (next : α → Outcome) :
    Outcome :=
  match result with
  | .ok value => next value
  | .error message => .refused disk message

/-- Compare two files. -/
def runDiff (disk : Disk) (home config : Option String) (before after : String)
    (path : Option String) (revision : String) (output : Output) : Outcome :=
  orRefuse disk (readFormat output.format) fun format =>
  orRefuse disk (loadEngine disk home config) fun engine =>
    match [before, after].find? fun side => !isAbsent side && !disk.hasPath side with
    | some side => .refused disk ("no such file: " ++ side)
    | none =>
        match readSide disk before, readSide disk after with
        | .error error, _ =>
            .broken disk "" ("failed to read " ++ before ++ ": " ++ error.message)
        | _, .error error =>
            .broken disk "" ("failed to read " ++ after ++ ": " ++ error.message)
        | .ok none, .ok none => .refused disk "neither side exists"
        | .ok old, .ok new =>
            let named := path.getD (if new.isSome then after else before)
            let diff := engine.diffChange { path := named, before := old, after := new, revision }
            match diff.result with
            | .error error =>
                if error.isUnitError then emit disk format output.append [diff]
                else .refused disk error.message
            | .ok _ => emit disk format output.append [diff]

/-- Compare two directories. -/
def runTree (disk : Disk) (home config : Option String) (before after revision : String)
    (output : Output) : Outcome :=
  orRefuse disk (readFormat output.format) fun format =>
    match [before, after].find? fun side => !disk.hasDirectory side with
    | some side => .refused disk ("not a directory: " ++ side)
    | none =>
        orRefuse disk (loadEngine disk home config) fun engine =>
          let collected :=
            engine.collectChanges (disk.find before).toOption (disk.find after).toOption revision
          if collected.changes.isEmpty && collected.unreadable.isEmpty then
            { stdout := "", stderr := "Warning: no changed source files\n"
              exit := Outcome.success, failure := none, disk }
          else emit disk format output.append (engine.diffTrees collected)

/-! ## The catalog -/

/-- The lines of a rule. -/
def ruleLines (index : Nat) (rule : Catalog.Rule) (disabled : List EventType)
    (withReads : Bool) : String :=
  let kinds := ", ".intercalate (rule.kinds.map Outline.NodeKind.name)
  let reads := ", ".intercalate (rule.reads.map Feature.name)
  "  " ++ Report.padLeft 2 (toString (index + 1)) ++ ". " ++ Report.padRight 22 rule.name ++
    " " ++ Report.padRight 8 rule.scope.name ++ " " ++ kinds ++ "\n" ++
    (if withReads then "      reads: " ++ reads ++ "\n" else "") ++
    String.join (rule.emits.map fun type =>
      "        " ++ type.name ++ (if disabled.contains type then " (disabled)" else "") ++ "\n")

/-- The lines of all rules. -/
def catalogLines (disabled : List EventType) : String :=
  "Classifier rules (in execution order):\n\n" ++
    String.join (Catalog.numberedRules.map fun numbered =>
      ruleLines numbered.1 numbered.2 disabled false) ++
    s!"\n{Catalog.rules.length} rules, {EventType.all.length} event types\n"

/-- List the rules, or one of them. -/
def runCatalog (disk : Disk) (home config : Option String) (rule : Option String) : Outcome :=
  orRefuse disk (loadSettings disk home config) fun settings =>
    match rule with
    | none => .printed disk (catalogLines settings.disabled) Outcome.success
    | some name =>
        match Catalog.find? name with
        | some (index, rule) =>
            .printed disk (ruleLines index rule settings.disabled true) Outcome.success
        | none => .refused disk ("unknown rule " ++ Text.quoted name)

/-- Carry out a command.  The home directory is named if there is one. -/
def run (disk : Disk) (home : Option String) (invocation : Invocation) : Outcome :=
  match invocation.task with
  | .diff before after path revision output =>
      runDiff disk home invocation.config before after path revision output
  | .tree before after revision output =>
      runTree disk home invocation.config before after revision output
  | .catalog rule => runCatalog disk home invocation.config rule

end SemanticDiff.Command
