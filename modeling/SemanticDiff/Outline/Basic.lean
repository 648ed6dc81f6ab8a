import SemanticDiff.Outline.Key
import SemanticDiff.Source.Span

/-!
# Outlines

An outline is the nesting of the definitions of a file, with the module at its
root.
-/

namespace SemanticDiff.Outline

open SemanticDiff.Source (Span)

/-- What a node of an outline is. -/
inductive NodeKind where
  | module
  | classDef
  | functionDef
deriving DecidableEq, Repr

namespace NodeKind

/-- The name of a kind. -/
def name : NodeKind → String
  | .module => "module"
  | .classDef => "class"
  | .functionDef => "function"

/-- All kinds. -/
def all : List NodeKind :=
  [.module, .classDef, .functionDef]

/-- The kind of a name. -/
def ofName? (text : String) : Option NodeKind :=
  all.find? fun kind => kind.name == text

end NodeKind

/-- A module, class or function with the definitions directly inside it. -/
inductive Node where
  | mk (key : Key) (name : String) (kind : NodeKind) (span : Span) (children : List Node)
deriving Repr

namespace Node

/-- The key of the node. -/
def key : Node → Key
  | mk key _ _ _ _ => key

/-- The name of the node. -/
def name : Node → String
  | mk _ name _ _ _ => name

/-- The kind of the node. -/
def kind : Node → NodeKind
  | mk _ _ kind _ _ => kind

/-- Where the definition stands, decorators excluded. -/
def span : Node → Span
  | mk _ _ _ span _ => span

/-- The definitions directly inside the node, in source order. -/
def children : Node → List Node
  | mk _ _ _ _ children => children

/-- The same node with other nodes directly inside it. -/
def withChildren (change : List Node → List Node) : Node → Node
  | mk key name kind span children => mk key name kind span (change children)

mutual

/-- The number of nodes in an outline. -/
def size : Node → Nat
  | mk _ _ _ _ children => sizeAll children + 1

/-- The number of nodes in a run of outlines. -/
def sizeAll : List Node → Nat
  | [] => 0
  | node :: nodes => size node + sizeAll nodes

end

theorem sizeAll_append (first second : List Node) :
    sizeAll (first ++ second) = sizeAll first + sizeAll second := by
  induction first with
  | nil => simp [sizeAll]
  | cons node nodes ih => simp [sizeAll, ih, Nat.add_assoc]

theorem size_eq (node : Node) : node.size = sizeAll node.children + 1 := by
  cases node
  rw [size, children]

/-- The nodes that are met in a walk.  The node on top of the stack comes next, and
the nodes directly inside it are put on the stack in its place. -/
def walk : List Node → List Node
  | [] => []
  | node :: stack => node :: walk (node.children ++ stack)
termination_by stack => sizeAll stack
decreasing_by
  rw [sizeAll_append, sizeAll, size_eq]
  omega

end Node

end SemanticDiff.Outline
