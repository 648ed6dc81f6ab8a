/-!
# Qualified keys

A definition is identified by the names of the definitions around it and its
own, joined by points.  The module itself has a key that no definition can have.
-/

namespace SemanticDiff.Outline

/-- The identity of a module, class or function within its file. -/
structure Key where
  text : String
deriving DecidableEq, Repr

namespace Key

/-- The key of the module. -/
def module : Key where
  text := "<module>"

/-- Whether a key is that of the module. -/
def isModule (key : Key) : Bool :=
  key.text == "<module>"

/-- The key of a definition directly inside another one. -/
def child (key : Key) (name : String) : Key where
  text := if key.isModule then name else key.text ++ "." ++ name

/-- The key that a path of names leads to. -/
def descend (key : Key) (names : List String) : Key :=
  names.foldl child key

end Key

end SemanticDiff.Outline
