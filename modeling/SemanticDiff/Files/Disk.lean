import SemanticDiff.Files.Path

/-!
# Disks

A disk is a tree of directories and files together with the directory in which a
program runs.  Paths are followed name by name, as they are written.
-/

namespace SemanticDiff.Files

/-- Why a file could not be read. -/
inductive FileError where
  | notFound
  | notDirectory
  | isDirectory
  | notText
deriving DecidableEq, Repr

namespace FileError

/-- The text of an error. -/
def message : FileError → String
  | notFound => "No such file or directory (os error 2)"
  | notDirectory => "Not a directory (os error 20)"
  | isDirectory => "Is a directory (os error 21)"
  | notText => "stream did not contain valid UTF-8"

end FileError

/-- What stands under a name in a directory. -/
inductive Entry where
  | file (content : ByteArray)
  | directory (entries : List (String × Entry))
  /-- A device that is always empty and takes whatever is written to it. -/
  | nullDevice

namespace Entry

/-- The empty directory. -/
def empty : Entry :=
  .directory []

/-- The entry under a name. -/
def child? (name : String) : Entry → Option Entry
  | .directory entries => entries.lookup name
  | _ => none

/-- The entry that a list of names leads to. -/
def get? (entry : Entry) : List String → Option Entry
  | [] => some entry
  | name :: names => (entry.child? name).bind fun child => child.get? names

/-- Put an entry under a name, in the place of one that stood there. -/
def setChild (parent : Entry) (name : String) (child : Entry) : Entry :=
  match parent with
  | .directory entries =>
      if entries.any fun entry => entry.1 == name then
        .directory (entries.map fun entry => if entry.1 == name then (name, child) else entry)
      else .directory (entries ++ [(name, child)])
  | other => other

/-- Put an entry where a list of names leads to; directories on the way are made
if they are missing. -/
def set (entry : Entry) (names : List String) (new : Entry) : Entry :=
  match names with
  | [] => new
  | name :: names =>
      entry.setChild name (((entry.child? name).getD empty).set names new)

/-- The content of a file as a text. -/
def text : Entry → Except FileError String
  | .file content =>
      match String.fromUTF8? content with
      | some text => .ok text
      | none => .error .notText
  | .directory _ => .error .isDirectory
  | .nullDevice => .ok ""

mutual

/-- The names that lead to files through an entry under a name. -/
def filesAt (enters : String → Bool) (name : String) : Entry → List (List String)
  | .file _ => [[name]]
  | .directory entries =>
      if enters name then (filesAmong enters entries).map (name :: ·) else []
  | .nullDevice => []
termination_by structural entry => entry

/-- The names that lead to files among some entries. -/
def filesAmong (enters : String → Bool) : List (String × Entry) → List (List String)
  | [] => []
  | entry :: entries => filesOf enters entry ++ filesAmong enters entries
termination_by structural entries => entries

/-- The names that lead to files through one entry. -/
def filesOf (enters : String → Bool) : String × Entry → List (List String)
  | (name, entry) => filesAt enters name entry
termination_by structural entry => entry

end

/-- The names that lead to files below a directory, where some directories are
not entered. -/
def filesBelow (enters : String → Bool) : Entry → List (List String)
  | .directory entries => filesAmong enters entries
  | _ => []

end Entry

/-- A tree of files, and where in it a program runs. -/
structure Disk where
  root : Entry
  workingDirectory : List String

namespace Disk

/-- Follow one piece of a path from a directory. -/
def step (disk : Disk) (names : List String) (piece : List Char) :
    Except FileError (List String) :=
  match disk.root.get? names with
  | none => .error .notFound
  | some (.directory _) =>
      .ok <|
        match piece with
        | [] => names
        | ['.'] => names
        | ['.', '.'] => names.dropLast
        | _ => names ++ [String.ofList piece]
  | some _ => .error .notDirectory

/-- The names that a path leads to; the last of them may be missing. -/
def locate (disk : Disk) (path : String) : Except FileError (List String) :=
  match path.toList with
  | [] => .error .notFound
  | c :: rest =>
      (Path.pieces '/' (c :: rest)).foldlM disk.step
        (if c = '/' then [] else disk.workingDirectory)

/-- The entry that a path leads to. -/
def find (disk : Disk) (path : String) : Except FileError Entry := do
  let names ← disk.locate path
  match disk.root.get? names with
  | some entry => return entry
  | none => .error .notFound

/-- Whether a path leads anywhere. -/
def hasPath (disk : Disk) (path : String) : Bool :=
  match disk.find path with
  | .ok _ => true
  | .error _ => false

/-- Whether a path leads to a directory. -/
def hasDirectory (disk : Disk) (path : String) : Bool :=
  match disk.find path with
  | .ok (.directory _) => true
  | _ => false

/-- The text of the file at a path. -/
def readText (disk : Disk) (path : String) : Except FileError String := do
  (← disk.find path).text

/-- A path without the slashes at its end, unless it has nothing else. -/
def withoutFinalSlashes (path : String) : String :=
  match path.toList.reverse.dropWhile (· == '/') with
  | [] => path
  | reversed => String.ofList reversed.reverse

/-- Append a text to the file at a path, which is made if it is missing.  A path
with a slash at its end can only name a directory. -/
def appendText (disk : Disk) (path text : String) : Except FileError Disk := do
  let names ← disk.locate (withoutFinalSlashes path)
  if path.toList.getLast? = some '/' then .error .isDirectory
  match disk.root.get? names with
  | some (.file content) =>
      return { disk with root := disk.root.set names (.file (content ++ text.toUTF8)) }
  | some (.directory _) => .error .isDirectory
  | some .nullDevice => return disk
  | none =>
      match disk.root.get? names.dropLast with
      | some (.directory _) =>
          return { disk with root := disk.root.set names (.file text.toUTF8) }
      | some _ => .error .notDirectory
      | none => .error .notFound

end Disk

end SemanticDiff.Files
