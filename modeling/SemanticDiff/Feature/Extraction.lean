import SemanticDiff.Feature.Facts
import SemanticDiff.Feature.Snapshot
import SemanticDiff.Outline.Build

/-!
# Feature extraction

The features of a node of an outline are read off its definition in the syntax
tree, which is found again by its place.
-/

namespace SemanticDiff.Feature

open SemanticDiff.Source (Tree Kind Span)
open SemanticDiff.Outline (Node NodeKind SourceUnit)

/-! ## Finding a definition -/

/-- A node of a syntax tree with the node around it. -/
structure Located where
  tree : Tree
  parent : Option Tree

/-- Whether a node reaches over a range of bytes. -/
def spans (range : Span) (tree : Tree) : Bool :=
  range.endByte ≤ tree.span.endByte && range.startByte < tree.span.endByte &&
    tree.span.startByte ≤ range.startByte

mutual

/-- The smallest node of a kind that fills a range of bytes exactly. -/
def locate (kind : Kind) (range : Span) (parent : Option Tree) : Tree → Option Located
  | .node label field span text children =>
      (locateAmong kind range (.node label field span text children) children).or
        (if label = .construct kind && span.startByte = range.startByte &&
            span.endByte = range.endByte then
          some { tree := .node label field span text children, parent }
        else none)

/-- The smallest such node inside the first tree of a run that reaches over the
range. -/
def locateAmong (kind : Kind) (range : Span) (parent : Tree) : List Tree → Option Located
  | [] => none
  | tree :: trees =>
      if spans range tree then locate kind range (some parent) tree
      else locateAmong kind range parent trees

end

/-! ## Headers -/

/-- The names of the decorators that stand before a definition; arguments of a
decorator do not belong to its name. -/
def namesOfDecorators (located : Located) : List String :=
  match located.parent with
  | some parent =>
      if parent.is .decoratedDefinition then
        (parent.namedChildren.filter (·.is .decorator)).filterMap fun decorator =>
          decorator.namedChildren.head?.map fun expression =>
            render
              (if expression.is .call then (expression.childWith? .callee).getD expression
              else expression)
      else []
  | none => []

/-- The items of a list in parentheses. -/
def listedItems (list : Tree) : List Tree :=
  list.namedChildren.filter fun item => !item.is .comment

/-- The text of the items of a list. -/
def renderItems (list : Tree) : String :=
  ", ".intercalate ((listedItems list).map render)

/-- What the head of a definition says. -/
structure Header where
  decorators : Tally := SortedMap.empty
  defaultParameters : Nat := 0
  annotated : Bool := false
  async : Bool := false
  signature : String := ""
  bases : String := ""

/-- Whether a parameter has a default value. -/
def hasDefault (parameter : Tree) : Bool :=
  parameter.is .defaultParameter || parameter.is .typedDefaultParameter

/-- Whether a parameter is annotated. -/
def isAnnotated (parameter : Tree) : Bool :=
  parameter.is .typedParameter || parameter.is .typedDefaultParameter

/-- The head of a function. -/
def functionHeader (located : Located) : Header :=
  let definition := located.tree
  let parameters := definition.childWith? .parameters
  let items := (parameters.map listedItems).getD []
  let result := definition.childWith? .returnType
  { decorators := Tally.ofNames (namesOfDecorators located)
    defaultParameters := (items.filter hasDefault).length
    annotated := items.any isAnnotated || result.isSome
    async := definition.children.any (·.isLiteral "async")
    signature :=
      "(" ++ (parameters.map renderItems).getD "" ++ ")" ++
        (result.map fun type => " -> " ++ render type).getD "" }

/-- The head of a class. -/
def classHeader (located : Located) : Header :=
  { decorators := Tally.ofNames (namesOfDecorators located)
    bases := ((located.tree.childWith? .superclasses).map renderItems).getD "" }

/-- The facts of the part of a definition that plays a role and stands outside
its body. -/
def headFacts (definition : Tree) (role : Source.Field) : Facts :=
  ((definition.childWith? role).map fun part => factsOfAll part.children).getD .zero

/-- The facts of the body of a definition. -/
def bodyFacts (definition : Tree) : Facts :=
  ((definition.childWith? .body).map scopeFacts).getD .zero

/-! ## Values -/

/-- The values of all features. -/
def values (header : Header) (facts : Facts) : List (Feature × Value) :=
  [(.controlFlow, .count facts.controlFlow),
    (.returns, .count facts.returns),
    (.yields, .count facts.yields),
    (.exceptionHandlers, .count facts.handlers),
    (.complexity,
      .count (facts.controlFlow + facts.returns + facts.yields + facts.handlers)),
    (.handlerTypes, .tally facts.handlerTypes),
    (.lambdas, .count facts.lambdas),
    (.comprehensions, .count facts.comprehensions),
    (.functionalMarkers, .count (facts.lambdas + facts.comprehensions)),
    (.typeAnnotations, .flag (header.annotated || facts.annotated)),
    (.decorators, .count header.decorators.total),
    (.decoratorNames, .tally header.decorators),
    (.defaultParameters, .count header.defaultParameters),
    (.starredExpressions, .count facts.starred),
    (.slices, .count facts.slices),
    (.nestedClasses, .count facts.nestedClasses),
    (.nestedFunctions, .count facts.nestedFunctions),
    (.stringLiterals, .count facts.strings),
    (.numericLiterals, .count facts.numbers),
    (.booleanLiterals, .count facts.booleans),
    (.noneLiterals, .count facts.nones),
    (.assertions, .count facts.assertions),
    (.scopeDeclarations, .count facts.scopeDeclarations),
    (.async, .flag header.async),
    (.imports, .tally facts.imports),
    (.signature, .text header.signature),
    (.baseClasses, .text header.bases)]

/-- The head and the facts of a node of an outline.  A definition that is not in
the tree has none. -/
def measure (tree : Tree) (node : Node) : Header × Facts :=
  match node.kind with
  | .module => ({}, scopeFacts tree)
  | .functionDef =>
      match locate .functionDefinition node.span none tree with
      | some located =>
          (functionHeader located,
            (headFacts located.tree .parameters).add (bodyFacts located.tree))
      | none => ({}, .zero)
  | .classDef =>
      match locate .classDefinition node.span none tree with
      | some located =>
          (classHeader located,
            (headFacts located.tree .superclasses).add (bodyFacts located.tree))
      | none => ({}, .zero)

/-- The features that are extracted. -/
def extracted : List Feature :=
  Feature.all

/-- The snapshot of a node of a unit. -/
def extract (unit : SourceUnit) (node : Node) : Snapshot :=
  let (header, facts) := measure unit.tree node
  (Snapshot.zero extracted).setAll (values header facts)

end SemanticDiff.Feature
