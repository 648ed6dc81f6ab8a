import SemanticDiff.Catalog.Classify
import SemanticDiff.Files.Disk
import SemanticDiff.Settings.Basic

/-!
# Diffs

An engine compares two texts of one file and reports the events between them.  A
file that did not exist before has only additions, and one that exists no more has
no events at all.
-/

namespace SemanticDiff

open SemanticDiff.Feature (Mismatch)
open SemanticDiff.Files (FileError)
open SemanticDiff.Outline (SourceUnit UnitError)

/-- Why there are no events for a file. -/
inductive DiffError where
  | unit (error : UnitError)
  | vocabulary (error : Mismatch)
  | unsupported (path : String)
  | settings (error : SettingsError)
  | file (error : FileError)
deriving DecidableEq, Repr

namespace DiffError

/-- The text of an error. -/
def message : DiffError → String
  | unit error => error.message
  | vocabulary error => error.message
  | unsupported path => "no language adapter for " ++ path
  | settings error => "invalid configuration: " ++ error.message
  | file error => "IO error: " ++ error.message

/-- Whether a text was the cause, so that other files can be reported. -/
def isUnitError : DiffError → Bool
  | unit _ => true
  | _ => false

end DiffError

/-- Settings that have been checked, with the globs of excluded paths. -/
structure Engine where
  settings : Settings
  exclusions : List Glob

namespace Engine

/-- The extensions of files that can be parsed. -/
def parsedExtensions : List String := ["py", "pyi"]

/-- An engine with settings of its own.  The catalog is checked against all
features that are extracted. -/
def ofSettings (settings : Settings) : Except DiffError Engine := do
  let exclusions ← settings.validate.mapError DiffError.settings
  (Catalog.validate Feature.extracted).mapError DiffError.vocabulary
  return { settings, exclusions }

/-- The engine with default settings. -/
def default : Engine where
  settings := {}
  exclusions := []

/-- Whether a path is passed over. -/
def isExcluded (engine : Engine) (path : String) : Bool :=
  engine.exclusions.any fun glob => glob.isMatch path

/-- Whether a path is that of a source file. -/
def supports (engine : Engine) (path : String) : Bool :=
  let extension := (Files.Path.extension? path).getD ""
  engine.settings.handles extension && parsedExtensions.contains extension

/-- Turn findings into events, drop those that are disabled and number the rest. -/
def finish (engine : Engine) (path revision : String) (findings : List Finding) : List Event :=
  let events := assemble path revision findings
  if engine.settings.disabledEvents.isEmpty then events
  else
    (events.filter fun event => engine.settings.isEnabled event.type).mapIdx
      fun order event => { event with order }

/-- The events between two units. -/
def diffUnits (engine : Engine) (before after : SourceUnit) : Except Mismatch (List Event) := do
  let findings ← Catalog.classifyAll (Catalog.contexts before after)
  return engine.finish after.path after.revision findings

/-- The contexts of a unit that did not exist before. -/
def addedContexts (after : SourceUnit) : List Catalog.Context :=
  after.nodes.map fun node =>
    { key := node.key, kind := node.kind, before := none, after := some (.ofNode after node) }

/-- The events of a unit that did not exist before. -/
def addedUnit (engine : Engine) (after : SourceUnit) : Except Mismatch (List Event) := do
  let findings ← Catalog.classifyAll (addedContexts after)
  return engine.finish after.path after.revision findings

/-- Read a text into a unit. -/
def readUnit (path revision text : String) : Except DiffError SourceUnit :=
  (SourceUnit.read path revision text).mapError DiffError.unit

/-- The events between two texts of a file, either of which may be missing. -/
def diff (engine : Engine) (path : String) (before after : Option String)
    (revision : String) : Except DiffError (List Event) :=
  if before.isNone && after.isNone then .ok []
  else if !engine.supports path then .error (.unsupported path)
  else if engine.isExcluded path then .ok []
  else
    match before, after with
    | some before, some after => do
        let before ← readUnit path revision before
        let after ← readUnit path revision after
        (engine.diffUnits before after).mapError DiffError.vocabulary
    | none, some after => do
        let after ← readUnit path revision after
        (engine.addedUnit after).mapError DiffError.vocabulary
    | _, none => .ok []

end Engine

end SemanticDiff
