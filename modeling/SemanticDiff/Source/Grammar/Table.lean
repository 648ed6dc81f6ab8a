import SemanticDiff.Source.Grammar.Statement

/-!
# The grammar

Every symbol with its rule.
-/

namespace SemanticDiff.Source.Grammar

/-- The rule of every symbol. -/
def rule : Symbol → Rule
  | .expression => expression
  | .aliased => aliased
  | .disjunction => wordOperator "or" (sym .conjunction)
  | .conjunction => wordOperator "and" (sym .inversion)
  | .inversion => inversion
  | .comparison => comparison
  | .bitOr => binary ["|"] .bitAnd
  | .bitAnd => binary ["&"] .bitXor
  | .bitXor => binary ["^"] .shift
  | .shift => binary ["<<", ">>"] .sum
  | .sum => binary ["+", "-"] .product
  | .product => binary ["*", "@", "/", "%", "//"] .unary
  | .unary => unary
  | .power => power
  | .primary => primaryChain
  | .atom => atom
  | .lambda => lambda
  | .yield => yieldExpression
  | .group => .scope (.wrapBy groupKind (bracketed "(" ")" element))
  | .list => .scope (.wrapBy listKind (bracketed "[" "]" element))
  | .braces => braces
  | .strings => strings
  | .string => string
  | .interpolation => Rule.node .interpolation interpolationBody
  | .formatExpression => Rule.node .formatExpression interpolationBody
  | .callArguments => callArguments
  | .argumentList => argumentList
  | .expressions => expressions
  | .target => target
  | .targetList => targetList
  | .type => typeRule
  | .typeParameters => typeParameters
  | .casePattern => casePattern
  | .simplePattern => simplePattern
  | .statements => statements
  | .statement => statement
  | .simpleStatements => simpleStatements
  | .simpleStatement => simpleStatement
  | .suite => suite
  | .rightHandSide => rightHandSide
  | .elifTail => elifTail
  | .elseTail => elseTail
  | .exceptTail => exceptTail
  | .exceptGroupTail => exceptGroupTail
  | .afterHandlers => afterHandlers
  | .functionDefinition => functionDefinition
  | .classDefinition => classDefinition

end SemanticDiff.Source.Grammar
