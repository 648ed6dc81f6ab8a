import SemanticDiff.Source.Tree

/-!
# Targets

What stands on the left of an assignment is read as an expression first.  Once
the assignment is recognised, the expression is turned into a target: names,
attributes and subscripts stay as they are, displays become patterns, and
anything else is refused.
-/

namespace SemanticDiff.Source.Tree

/-- Whether a starred expression of this form can be a target. -/
def isPlainTarget (tree : Tree) : Bool :=
  tree.is .identifier || tree.is .attribute || tree.is .subscript

mutual

/-- Whether an expression begins with something that a star can stand before: a
name, an attribute or a subscript. -/
def beginsPlain : Tree → Bool
  | node label _ _ _ children =>
      match label with
      | .construct .identifier => true
      | .construct .attribute => true
      | .construct .subscript => true
      | .construct .call => firstBeginsPlain children
      | .construct .binaryOperator => firstBeginsPlain children
      | .construct .comparisonOperator => firstBeginsPlain children
      | .construct .booleanOperator => firstBeginsPlain children
      | .construct .conditionalExpression => firstBeginsPlain children
      | .construct .asPattern => firstBeginsPlain children
      | _ => false

/-- Whether the first of some trees begins so. -/
def firstBeginsPlain : List Tree → Bool
  | [] => false
  | tree :: _ => beginsPlain tree

end

mutual

/-- Turn an expression into a target. -/
def toTarget? : Tree → Option Tree
  | node label field span text children =>
      match label with
      | .construct .identifier => some (node label field span text children)
      | .construct .attribute => some (node label field span text children)
      | .construct .subscript => some (node label field span text children)
      | .construct .listSplat =>
          if children.any isPlainTarget then
            some (node (.construct .listSplatPattern) field span text children)
          else none
      | .construct .tuple =>
          (toTargets? children).map (node (.construct .tuplePattern) field span text)
      | .construct .parenthesizedExpression =>
          (toTargets? children).map (node (.construct .tuplePattern) field span text)
      | .construct .list =>
          (toTargets? children).map (node (.construct .listPattern) field span text)
      | .construct .comment => some (node label field span text children)
      | .construct .lineContinuation => some (node label field span text children)
      | .literal _ => some (node label field span text children)
      | .construct _ => none

/-- Turn every expression of a run into a target; tokens and comments stay. -/
def toTargets? : List Tree → Option (List Tree)
  | [] => some []
  | tree :: trees => do
      let target ← toTarget? tree
      let targets ← toTargets? trees
      pure (target :: targets)

end

end SemanticDiff.Source.Tree
