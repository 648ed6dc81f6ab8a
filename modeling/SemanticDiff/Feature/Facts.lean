import SemanticDiff.Feature.Basic
import SemanticDiff.Feature.Rendering

/-!
# Facts about a scope

What is counted while walking the body of a module, class or function.  Nested
definitions are counted but not entered; annotations and comments are passed
over.  The facts of a run of trees are the sum of the facts of its trees.
-/

namespace SemanticDiff.Feature

open SemanticDiff.Source (Tree Kind Label Field)

/-- What was found in a stretch of source. -/
structure Facts where
  controlFlow : Nat := 0
  returns : Nat := 0
  yields : Nat := 0
  handlers : Nat := 0
  handlerTypes : Tally := SortedMap.empty
  lambdas : Nat := 0
  comprehensions : Nat := 0
  annotated : Bool := false
  starred : Nat := 0
  slices : Nat := 0
  nestedClasses : Nat := 0
  nestedFunctions : Nat := 0
  strings : Nat := 0
  numbers : Nat := 0
  booleans : Nat := 0
  nones : Nat := 0
  assertions : Nat := 0
  scopeDeclarations : Nat := 0
  imports : Tally := SortedMap.empty

namespace Facts

/-- Nothing found. -/
def zero : Facts := {}

/-- The facts of two stretches together. -/
def add (first second : Facts) : Facts where
  controlFlow := first.controlFlow + second.controlFlow
  returns := first.returns + second.returns
  yields := first.yields + second.yields
  handlers := first.handlers + second.handlers
  handlerTypes := first.handlerTypes.add second.handlerTypes
  lambdas := first.lambdas + second.lambdas
  comprehensions := first.comprehensions + second.comprehensions
  annotated := first.annotated || second.annotated
  starred := first.starred + second.starred
  slices := first.slices + second.slices
  nestedClasses := first.nestedClasses + second.nestedClasses
  nestedFunctions := first.nestedFunctions + second.nestedFunctions
  strings := first.strings + second.strings
  numbers := first.numbers + second.numbers
  booleans := first.booleans + second.booleans
  nones := first.nones + second.nones
  assertions := first.assertions + second.assertions
  scopeDeclarations := first.scopeDeclarations + second.scopeDeclarations
  imports := first.imports.add second.imports

end Facts

/-! ## Caught exceptions -/

mutual

/-- Take off parentheses. -/
def unwrap : Tree → Tree
  | .node label field span text children =>
      if label = .construct .parenthesizedExpression then
        (unwrapFirst children).getD (.node label field span text children)
      else .node label field span text children

/-- The first construct of a run, without parentheses. -/
def unwrapFirst : List Tree → Option Tree
  | [] => none
  | tree :: trees => if tree.isNamed then some (unwrap tree) else unwrapFirst trees

end

/-- The name that stands for a handler of everything. -/
def bareHandler : String :=
  "<bare>"

/-- The names of the exceptions that a handler catches. -/
def caughtTypes (children : List Tree) : List String :=
  let first := (children.filter Tree.isNamed).find? fun child =>
    !(child.is .block || child.is .comment)
  match first with
  | none => [bareHandler]
  | some expression =>
      let expression :=
        if expression.is .asPattern then expression.namedChildren.headD expression
        else expression
      let caught := unwrap expression
      if caught.is .tuple then
        (caught.namedChildren.filter fun child => !child.is .comment).map render
      else [render caught]

/-! ## Imports -/

/-- The modules that an `import` statement names. -/
def importedModules (children : List Tree) : List String :=
  (children.filter Tree.isNamed).filterMap fun child =>
    if child.is .dottedName then some (render child)
    else if child.is .aliasedImport then (child.childWith? .name).map render
    else none

/-- The module that a `from` import names. -/
def importedFrom (children : List Tree) : List String :=
  ((children.find? fun child => child.field == some .moduleName).map render).toList

/-- Modules whose import marks a scope as annotated. -/
def typingModules : List String :=
  ["typing", "typing_extensions"]

/-- Whether a module is one of the typing modules or lies below one. -/
def isTypingModule (module : String) : Bool :=
  typingModules.any fun typing =>
    module == typing || (typing ++ ".").toList.isPrefixOf module.toList

/-- The facts of importing modules. -/
def importFacts (modules : List String) : Facts :=
  { annotated := modules.any isTypingModule, imports := Tally.ofNames modules }

/-! ## The walk -/

/-- What a construct counts for by itself. -/
def ownFacts (kind : Kind) (children : List Tree) : Facts :=
  match kind with
  | .ifStatement | .elifClause | .forStatement | .whileStatement | .tryStatement
  | .withStatement | .matchStatement => { controlFlow := 1 }
  | .returnStatement => { returns := 1 }
  | .yield => { yields := 1 }
  | .exceptClause | .exceptGroupClause =>
      { handlers := 1, handlerTypes := Tally.ofNames (caughtTypes children) }
  | .lambda => { lambdas := 1 }
  | .listComprehension | .dictionaryComprehension | .setComprehension
  | .generatorExpression => { comprehensions := 1 }
  | .listSplat | .dictionarySplat | .listSplatPattern | .dictionarySplatPattern =>
      { starred := 1 }
  | .slice => { slices := 1 }
  | .string => { strings := 1 }
  | .integer | .float => { numbers := 1 }
  | .true | .false => { booleans := 1 }
  | .none => { nones := 1 }
  | .assertStatement => { assertions := 1 }
  | .globalStatement | .nonlocalStatement => { scopeDeclarations := 1 }
  | .assignment =>
      { annotated := children.any fun child => child.field == some .declaredType }
  | .importStatement => importFacts (importedModules children)
  | .importFromStatement => importFacts (importedFrom children)
  | .futureImportStatement => importFacts ["__future__"]
  | _ => {}

/-- What a nested definition counts for. -/
def nestedFacts (label : Label) : Facts :=
  match label with
  | .construct .functionDefinition => { nestedFunctions := 1 }
  | .construct .classDefinition => { nestedClasses := 1 }
  | _ => {}

mutual

/-- The facts of a tree. -/
def factsOf : Tree → Facts
  | .node label _ _ _ children =>
      match label with
      | .literal _ => .zero
      | .construct .functionDefinition => nestedFacts label
      | .construct .classDefinition => nestedFacts label
      | .construct .decoratedDefinition =>
          ((children.find? fun child => child.field == some .definition).map
            fun definition => nestedFacts definition.label).getD .zero
      | .construct .type => .zero
      | .construct .comment => .zero
      | .construct kind => (ownFacts kind children).add (factsOfAll children)

/-- The facts of a run of trees. -/
def factsOfAll : List Tree → Facts
  | [] => .zero
  | tree :: trees => (factsOf tree).add (factsOfAll trees)

end

/-- Whether a statement is nothing but a string literal. -/
def isDocstring (statement : Tree) : Bool :=
  statement.is .expressionStatement &&
    match statement.namedChildren with
    | [value] => value.is .string
    | _ => false

/-- The children of a body without the docstring that begins it. -/
def withoutDocstring : List Tree → List Tree
  | [] => []
  | tree :: trees =>
      if !tree.isNamed || tree.is .comment then tree :: withoutDocstring trees
      else if isDocstring tree then trees
      else tree :: trees

/-- The facts of a body. -/
def scopeFacts (body : Tree) : Facts :=
  factsOfAll (withoutDocstring body.children)

end SemanticDiff.Feature
