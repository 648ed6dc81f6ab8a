import SemanticDiff.Outline.Build

/-!
# Outlines by descent

The definitions of a syntax tree can also be read off from the root down, each with those
inside it, and the nodes of an outline be listed node by node.  A walk over a stack
meets the nodes in this order.
-/

namespace SemanticDiff.Outline

open SemanticDiff.Source (Tree)

/-! ## The order of nodes -/

namespace Node

mutual

/-- The node and all nodes below it; a node stands before those inside it. -/
def preorder : Node → List Node
  | mk key name kind span children =>
      mk key name kind span children :: preorderAll children

/-- All nodes of a run of outlines. -/
def preorderAll : List Node → List Node
  | [] => []
  | node :: nodes => preorder node ++ preorderAll nodes

end

theorem preorder_eq (node : Node) : node.preorder = node :: preorderAll node.children := by
  cases node
  rw [preorder, children]

theorem preorderAll_append (first second : List Node) :
    preorderAll (first ++ second) = preorderAll first ++ preorderAll second := by
  induction first with
  | nil => rfl
  | cons node nodes ih =>
      rw [List.cons_append, preorderAll, preorderAll, ih, List.append_assoc]

/-- A walk meets a node before those inside it. -/
theorem walk_eq_preorderAll (stack : List Node) : walk stack = preorderAll stack := by
  fun_induction walk stack with
  | case1 => rfl
  | case2 node stack ih =>
      rw [ih, preorderAll_append, preorderAll, preorder_eq, List.cons_append]

end Node

/-- The nodes of a unit are those of its outline. -/
theorem SourceUnit.nodes_eq_preorder (unit : SourceUnit) : unit.nodes = unit.root.preorder := by
  rw [nodes, Node.walk_eq_preorderAll, Node.preorderAll, Node.preorderAll, List.append_nil]

/-! ## The nesting of definitions -/

mutual

/-- The outermost definitions of a tree, each with those inside it. -/
def definitionsOf (parent : Key) : Tree → List Node
  | .node label _ span _ children =>
      match definitionKind? label with
      | some kind =>
          let name := definitionName children
          let key := parent.child name
          [.mk key name kind span (definitionsOfAll key children)]
      | none => definitionsOfAll parent children

/-- The outermost definitions of a run of trees. -/
def definitionsOfAll (parent : Key) : List Tree → List Node
  | [] => []
  | tree :: trees => definitionsOf parent tree ++ definitionsOfAll parent trees

end

end SemanticDiff.Outline
