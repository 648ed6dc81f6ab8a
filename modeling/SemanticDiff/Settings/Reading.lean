import SemanticDiff.Settings.Basic
import SemanticDiff.Text.Blank
import SemanticDiff.Yaml.Node

/-!
# Reading settings

Settings are written as a YAML mapping.  Names that are not known are passed over,
and a name that is known may occur only once.
-/

namespace SemanticDiff.Settings

open SemanticDiff.Yaml (Node)

/-- The text of a scalar. -/
def text? : Node → Option String
  | .scalar _ text => some text
  | _ => none

/-- The texts of a sequence; a place where nothing is written counts as one. -/
def texts? : Node → Option (List String)
  | .sequence items => items.mapM text?
  | .scalar true "" => some []
  | _ => none

/-- The settings written so far. -/
structure Entries where
  version : Option String := none
  disabledEvents : Option (List String) := none
  excludedPaths : Option (List String) := none
  extensions : Option (List String) := none

namespace Entries

/-- Set what has not been set before. -/
def setNew {α : Type} (old : Option α) (new : Option α) : Option (Option α) :=
  match old, new with
  | none, some value => some (some value)
  | _, _ => none

/-- Add an entry. -/
def add (entries : Entries) (entry : Node × Node) : Option Entries := do
  let name ← text? entry.1
  if name = "version" then
    return { entries with version := ← setNew entries.version (text? entry.2) }
  else if name = "disabled_events" then
    return { entries with
      disabledEvents := ← setNew entries.disabledEvents (texts? entry.2) }
  else if name = "excluded_paths" then
    return { entries with excludedPaths := ← setNew entries.excludedPaths (texts? entry.2) }
  else if name = "extensions" then
    return { entries with extensions := ← setNew entries.extensions (texts? entry.2) }
  else return entries

/-- The settings, with defaults for all that is not written. -/
def toSettings (entries : Entries) : Settings :=
  let default : Settings := {}
  { version := entries.version.getD default.version
    disabledEvents := entries.disabledEvents.getD default.disabledEvents
    excludedPaths := entries.excludedPaths.getD default.excludedPaths
    extensions := entries.extensions.getD default.extensions }

end Entries

/-- The settings of a document. -/
def ofNode? : Node → Option Settings
  | .mapping entries => (entries.foldlM Entries.add {}).map Entries.toSettings
  | .scalar true "" => some {}
  | _ => none

/-- Read settings; none if the text does not hold any.  A blank text holds the
default ones. -/
def read? (text : String) : Option Settings :=
  if Text.isBlank text then some {}
  else
    match Yaml.document? text with
    | none => none
    | some none => some {}
    | some (some node) => ofNode? node

end SemanticDiff.Settings
