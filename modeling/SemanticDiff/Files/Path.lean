/-!
# Paths

A path is a text whose components are parted by slashes.  Empty components and
those that stand for the current directory are passed over, except at the
beginning of a relative path.
-/

namespace SemanticDiff.Files

/-- A component of a path. -/
inductive Component where
  | root
  | here
  | up
  | name (text : String)
deriving DecidableEq, Repr

namespace Component

/-- The text of a component that is a name. -/
def name? : Component → Option String
  | .name text => some text
  | _ => none

end Component

namespace Path

/-- Cut a text at every occurrence of a character. -/
def pieces (separator : Char) : List Char → List (List Char)
  | [] => [[]]
  | c :: rest =>
      if c = separator then [] :: pieces separator rest
      else
        match pieces separator rest with
        | [] => [[c]]
        | piece :: others => (c :: piece) :: others

/-- The component that a piece of a path stands for. -/
def component? (piece : List Char) : Option Component :=
  match piece with
  | [] => none
  | ['.'] => none
  | ['.', '.'] => some .up
  | _ => some (.name (String.ofList piece))

/-- The components of a path. -/
def components (path : String) : List Component :=
  match pieces '/' path.toList with
  | [] => []
  | first :: rest =>
      let others := rest.filterMap component?
      match first with
      | [] => if rest.isEmpty then others else .root :: others
      | ['.'] => .here :: others
      | _ => (component? first).toList ++ others

/-- The last component, if it is a name. -/
def fileName? (path : String) : Option String :=
  (components path).getLast?.bind Component.name?

/-- Cut a name at its last point.  A point at the beginning cuts nothing, and
the result then has no second part. -/
def splitName (name : String) : String × Option String :=
  let reversed := name.toList.reverse
  let after := reversed.takeWhile (· != '.')
  match reversed.drop after.length with
  | _ :: before =>
      if before.isEmpty then (name, none)
      else (String.ofList before.reverse, some (String.ofList after.reverse))
  | [] => (name, none)

/-- What follows the last point of the file name. -/
def extension? (path : String) : Option String :=
  (fileName? path).bind fun name => (splitName name).2

/-- The names of a path, the last of them without its extension, joined by
points.  A last name of which only points are left may be no name any more. -/
def dottedName (path : String) : String :=
  let names := (components path).filterMap Component.name?
  match fileName? path with
  | some name =>
      let stem := (component? (splitName name).1.toList).bind Component.name?
      ".".intercalate (names.dropLast ++ stem.toList)
  | none => ".".intercalate names

end Path

end SemanticDiff.Files
