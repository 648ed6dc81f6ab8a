import SemanticDiff.Source.Rule

/-!
# Symbols of the grammar

The symbols that rules refer to by name, and the small rules that all parts of
the grammar share.
-/

namespace SemanticDiff.Source

/-- The symbols of the grammar. -/
inductive Symbol where
  -- expressions, from the loosest to the tightest binding
  | expression | aliased | disjunction | conjunction | inversion | comparison
  | bitOr | bitAnd | bitXor | shift | sum | product | unary | power | primary | atom
  -- parts of expressions
  | lambda | yield | group | list | braces | strings | string | interpolation
  | formatExpression | callArguments | argumentList | expressions | target | targetList
  | type | typeParameters
  -- case patterns
  | casePattern | simplePattern
  -- statements
  | statements | statement | simpleStatements | simpleStatement | suite
  | rightHandSide | elifTail | elseTail | exceptTail | exceptGroupTail
  | afterHandlers | functionDefinition | classDefinition
deriving DecidableEq, Repr

namespace Grammar

open Rule

/-- A rule of the grammar. -/
abbrev Rule := Source.Rule Symbol

/-- The rule of a symbol. -/
abbrev sym (symbol : Symbol) : Rule :=
  .call symbol

/-- Further items, each after a comma; none begins with one of the words. -/
def moreItemsBefore (words : List String) (item : Rule) : Rule :=
  .many (chain [.follow, op ",", .resume, onWord words .fail item])

/-- Further items, each after a comma. -/
def moreItems (item : Rule) : Rule :=
  moreItemsBefore [] item

/-- A comma after the last item. -/
def trailingComma : Rule :=
  opt (chain [.follow, op ","])

/-- One or more items parted by commas, with an optional comma at the end. -/
def items (item : Rule) : Rule :=
  chain [item, moreItems item, trailingComma]

/-- Items as above, where one of the words after a comma begins what follows. -/
def itemsBefore (words : List String) (item : Rule) : Rule :=
  chain [item, moreItemsBefore words item, trailingComma]

/-- One or more items parted by commas; an item follows every comma. -/
def strictItems (item : Rule) : Rule :=
  chain [item, .many (chain [.follow, op ",", .gap .value, item])]

/-- Words that are not names where an expression begins. -/
def expressionWords : List String :=
  ["not", "lambda", "True", "False", "None"]

/-- Words that can only go on with an expression. -/
def infixWords : List String :=
  ["and", "or", "in", "is", "if", "as"]

/-- A name where an expression begins. -/
def expressionName : Rule :=
  .name expressionWords

/-- Any word as a name. -/
def anyName : Rule :=
  .name []

/-- Names joined by points; the first one is none of the words. -/
def dottedName (reserved : List String) : Rule :=
  node .dottedName (chain
    [.name reserved, .many (chain [.follow, op ".", .gap .join, anyName])])

/-- Whether one of the trees is the literal token. -/
def hasLiteral (text : String) (trees : List Tree) : Bool :=
  trees.any (·.isLiteral text)

/-- Whether one of the trees is a construct of the kind. -/
def hasKind (kind : Kind) (trees : List Tree) : Bool :=
  trees.any (·.is kind)

end Grammar

end SemanticDiff.Source
