import SemanticDiff.Files.Path
import SemanticDiff.Outline.Nesting
import SemanticDiff.Source.Parse

/-!
# Units

A unit is one file at one revision: its syntax tree and the outline of its
definitions.  A text has a unit if it is valid source and no two of its
definitions have the same key.
-/

namespace SemanticDiff.Outline

open SemanticDiff.Source (Tree)

/-- Why a text has no unit. -/
inductive UnitError where
  /-- The text is not valid source. -/
  | invalid (path : String) (line column : Nat)
  /-- Two definitions have the same key. -/
  | duplicateKey (path : String) (key : Key) (firstLine line : Nat)
deriving DecidableEq, Repr

namespace UnitError

/-- The text of an error. -/
def message : UnitError → String
  | invalid path line column => s!"{path}:{line}:{column}: syntax error"
  | duplicateKey path key firstLine line =>
      s!"{path}:{line}: duplicate definition of `" ++ key.text ++
        s!"` (first defined on line {firstLine})"

end UnitError

/-- The outline of a syntax tree.  A tree whose definitions lead outside the table of
their nodes is that of no text. -/
def ofTree (path : String) (tree : Tree) : Except UnitError Node :=
  match nest (definitionsIn [] [] tree) with
  | .ok nodes => .ok (.mk .module (Files.Path.dottedName path) .module tree.span nodes)
  | .error (.repeated key firstLine line) => .error (.duplicateKey path key firstLine line)
  | .error .outside => .error (.invalid path 1 1)

/-- One file at one revision. -/
structure SourceUnit where
  path : String
  revision : String
  tree : Tree
  root : Node

namespace SourceUnit

/-- Read a text into a unit. -/
def read (path revision text : String) : Except UnitError SourceUnit :=
  match Source.parse text with
  | .error error => .error (.invalid path error.line error.column)
  | .ok tree => do
      let root ← ofTree path tree
      return { path, revision, tree, root }

/-- All nodes of the unit, the module first. -/
def nodes (unit : SourceUnit) : List Node :=
  Node.walk [unit.root]

/-- The node of a key. -/
def find? (unit : SourceUnit) (key : String) : Option Node :=
  unit.nodes.find? fun node => node.key.text == key

end SourceUnit

end SemanticDiff.Outline
