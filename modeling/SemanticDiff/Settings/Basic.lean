import SemanticDiff.Event.Type
import SemanticDiff.Glob.Parse
import SemanticDiff.Text.Quoted

/-!
# Settings

What a reader can choose: event types that are not reported, paths that are passed
over, and the extensions of source files.
-/

namespace SemanticDiff

/-- The choices of a reader. -/
structure Settings where
  version : String := ""
  /-- Names of event types that are not reported. -/
  disabledEvents : List String := []
  /-- Globs of paths that are passed over. -/
  excludedPaths : List String := []
  /-- Extensions of source files, without the point before them. -/
  extensions : List String := ["py", "pyi"]
deriving DecidableEq, Repr

/-- What is wrong with settings. -/
inductive SettingsError where
  | unknownEvent (name : String)
  | badPattern (pattern : String) (fault : Glob.Fault)
  | dottedExtension
deriving DecidableEq, Repr

namespace SettingsError

/-- The text of an error. -/
def message : SettingsError → String
  | unknownEvent name => "unknown event type " ++ Text.quoted name ++ " in disabled_events"
  | badPattern pattern fault =>
      "invalid excluded_paths pattern " ++ Text.quoted pattern ++ ": error parsing glob '" ++
        pattern ++ "': " ++ fault.message
  | dottedExtension => "extensions must be given without a leading dot"

end SettingsError

namespace Settings

/-- The event types that are not reported; names of no event type are passed
over. -/
def disabled (settings : Settings) : List EventType :=
  settings.disabledEvents.filterMap EventType.ofName?

/-- Whether events of a type are reported. -/
def isEnabled (settings : Settings) (type : EventType) : Bool :=
  !settings.disabledEvents.any (· == type.name)

/-- Whether files with an extension are source files. -/
def handles (settings : Settings) (extension : String) : Bool :=
  settings.extensions.any (· == extension)

/-- The globs of the paths that are passed over. -/
def exclusions (settings : Settings) : Except SettingsError (List Glob) :=
  settings.excludedPaths.mapM fun pattern =>
    (Glob.parse pattern).mapError (SettingsError.badPattern pattern)

/-- Check settings and give the globs of the paths that are passed over. -/
def validate (settings : Settings) : Except SettingsError (List Glob) := do
  match settings.disabledEvents.find? fun name => (EventType.ofName? name).isNone with
  | some name => throw (.unknownEvent name)
  | none => pure ()
  let globs ← settings.exclusions
  if settings.extensions.any fun extension => extension.isEmpty || extension.startsWith "." then
    throw .dottedExtension
  return globs

end Settings

end SemanticDiff
