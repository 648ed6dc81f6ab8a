import SemanticDiff.Engine.Batch

/-!
# Comparing directories

Two directories are compared file by file.  A source file that stands in either of
them is a change if its texts differ, and is reported as unreadable if one of its
sides cannot be read.
-/

namespace SemanticDiff

open SemanticDiff.Files (Entry FileError)

/-- What differs between two directories. -/
structure TreeChanges where
  changes : List FileChange
  unreadable : List FileDiff

/-- What is found about one file of two directories. -/
inductive Comparison where
  | same
  | changed (change : FileChange)
  | unreadable (diff : FileDiff)

namespace Engine

/-- Whether a directory is searched; hidden ones and those of installed packages
are not. -/
def entersDirectory (name : String) : Bool :=
  !(name.startsWith "." || name == "__pycache__" || name == "venv")

/-- The path that a list of names spells. -/
def joined (names : List String) : String :=
  "/".intercalate names

/-- The path under which a file is reported; backslashes are shown as slashes. -/
def reportedPath (names : List String) : String :=
  String.ofList ((joined names).toList.map fun c => if c = '\\' then '/' else c)

/-- The source files of a directory; a missing one has none. -/
def sourceFiles (engine : Engine) (tree : Option Entry) : List (List String) :=
  match tree with
  | some entry =>
      (entry.filesBelow entersDirectory).filter fun names => engine.supports (joined names)
  | none => []

/-- The source files of two directories, ordered name by name and each listed
once. -/
def allSourceFiles (engine : Engine) (before after : Option Entry) : List (List String) :=
  ((engine.sourceFiles before ++ engine.sourceFiles after).mergeSort
    fun first second => !decide (second < first)).eraseReps

/-- The text of a file below a directory; a missing file has none. -/
def readSide (tree : Option Entry) (names : List String) :
    Except FileError (Option String) :=
  match tree.bind fun entry => entry.get? names with
  | some entry => entry.text.map some
  | none => .ok none

/-- Compare one file of two directories. -/
def compareFile (before after : Option Entry) (revision : String) (names : List String) :
    Comparison :=
  let path := reportedPath names
  let sides := do
    let old ← readSide before names
    let new ← readSide after names
    return (old, new)
  match sides with
  | .error error => .unreadable { path, result := .error (.file error) }
  | .ok (old, new) =>
      if old = new then .same else .changed { path, before := old, after := new, revision }

/-- Compare two directories. -/
def collectChanges (engine : Engine) (before after : Option Entry) (revision : String) :
    TreeChanges :=
  let comparisons := (engine.allSourceFiles before after).map (compareFile before after revision)
  { changes := comparisons.filterMap fun
      | .changed change => some change
      | _ => none
    unreadable := comparisons.filterMap fun
      | .unreadable diff => some diff
      | _ => none }

/-- The diffs of two directories, ordered by path. -/
def diffTrees (engine : Engine) (collected : TreeChanges) : List FileDiff :=
  (engine.diffBatch collected.changes ++ collected.unreadable).mergeSort
    fun first second => first.path ≤ second.path

end Engine

end SemanticDiff
