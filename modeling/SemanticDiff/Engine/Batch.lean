import SemanticDiff.Engine.Basic

/-!
# Batches

Many files are compared one by one.  A file that fails is reported as such and
keeps no other file from being compared.
-/

namespace SemanticDiff

/-- The texts of one file before and after a change. -/
structure FileChange where
  path : String
  before : Option String
  after : Option String
  revision : String
deriving DecidableEq, Repr

/-- What came of comparing one file. -/
structure FileDiff where
  path : String
  result : Except DiffError (List Event)

namespace FileDiff

/-- The events; none if the file failed. -/
def events (diff : FileDiff) : List Event :=
  match diff.result with
  | .ok events => events
  | .error _ => []

/-- The error, if the file failed. -/
def error? (diff : FileDiff) : Option DiffError :=
  match diff.result with
  | .ok _ => none
  | .error error => some error

/-- Whether the file failed. -/
def isFailed (diff : FileDiff) : Bool :=
  diff.error?.isSome

end FileDiff

namespace Engine

/-- Compare one file. -/
def diffChange (engine : Engine) (change : FileChange) : FileDiff where
  path := change.path
  result := engine.diff change.path change.before change.after change.revision

/-- Compare many files, in their order. -/
def diffBatch (engine : Engine) (changes : List FileChange) : List FileDiff :=
  changes.map engine.diffChange

end Engine

end SemanticDiff
