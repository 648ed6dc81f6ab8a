import SemanticDiff.Source.Grammar.Expression

/-!
# Annotations

An annotation is an expression, except that a plain name with brackets after it
is a generic type whose arguments are annotations again.  A generic type is not
an expression, so what follows it (`|`, `.`, `:`) joins annotations.
-/

namespace SemanticDiff.Source.Grammar

open Rule

/-- Words that are not plain names in an annotation. -/
def annotationWords : List String :=
  expressionWords ++ ["print", "exec", "async", "await", "match"]

/-- Arguments of a generic type, or the type parameters of a definition. -/
def typeParameters : Rule :=
  node .typeParameter (chain
    [op "[", .gap .value, .within .free true (items (sym .type)), .gap .free, op "]"])

/-- A starred name, a generic type, or an expression. -/
def annotationBase : Rule :=
  oneOf
    [node .splatType (chain [.operator ["*", "**"] none, .gap .join, anyName]),
      .branch (chain [.name annotationWords, .follow, op "["])
        (node .genericType (chain [.name annotationWords, .follow, sym .typeParameters]))
        (sym .expression)]

/-- An annotation without a bound after it. -/
def unboundedType : Rule :=
  .scope (chain
    [node .type annotationBase,
      .many (.alt
        (grow .type (grow .unionType (chain
          [.follow, op "|", .gap .value, node .type annotationBase])))
        (grow .type (grow .memberType (chain
          [.follow, op ".", .gap .join, anyName]))))])

/-- An annotation, with a bound after a colon where there is one. -/
def typeRule : Rule :=
  .scope (chain
    [unboundedType,
      opt (grow .type (grow .constrainedType (chain
        [.follow, op ":", .gap .value, sym .type])))])

end SemanticDiff.Source.Grammar
