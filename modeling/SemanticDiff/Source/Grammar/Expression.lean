import SemanticDiff.Source.Grammar.Symbol

/-!
# Expressions

Expressions bind from loose to tight: conditional, `as`, `or`, `and`, `not`,
comparison, `|`, `&`, `^`, shifts, sums, products, signs, powers, and at last
calls, subscripts and attributes.  What a bracket holds decides what the bracket
is: a tuple, a comprehension, a dictionary and so on.
-/

namespace SemanticDiff.Source.Grammar

open Rule

/-! ## Operators -/

/-- A conditional expression, or anything that binds tighter. -/
def expression : Rule :=
  .scope (chain
    [sym .aliased,
      opt (.conditional (grow .conditionalExpression (chain
        [.follow, keyword "if", .gap .value, .within .join true (sym .expression),
          .gap .join, keyword "else", .gap .value, sym .expression])))])

/-- An expression bound to a name by `as`. -/
def aliased : Rule :=
  .scope (chain
    [sym .disjunction,
      .many (grow .asPattern (chain
        [.follow, keyword "as", .gap .value, node .asPatternTarget (sym .disjunction)]))])

/-- Operands joined by a word operator, growing to the left. -/
def wordOperator (operator : String) (operand : Rule) : Rule :=
  .scope (chain
    [operand,
      .many (grow .booleanOperator (chain
        [.follow, keyword operator, .gap .value, operand]))])

/-- A negation, a lambda, a named expression or a comparison. -/
def inversion : Rule :=
  onWord ["lambda"] (sym .lambda)
    (onWord ["not"]
      (node .notOperator (chain [keyword "not", .gap .value, sym .inversion]))
      (.alt
        (node .namedExpression (chain
          [expressionName, .follow, op ":=", .gap .value, sym .disjunction]))
        (sym .comparison)))

/-- A comparison operator.  The two words of `not in` and of `is not` form one
token. -/
def comparisonOperator : Rule :=
  oneOf
    [.operator ["<", "<=", "==", "!=", ">=", ">", "<>"] none,
      keyword "in",
      .scope (.wrap (.literal "not in") (chain [keyword "not", .gap .join, keyword "in"])),
      .scope (.wrap (.literal "is not") (chain [keyword "is", .gap .join, keyword "not"])),
      keyword "is"]

/-- One comparison, however many operands it chains. -/
def comparison : Rule :=
  let tail := chain [.follow, comparisonOperator, .gap .value, sym .bitOr]
  .scope (chain
    [sym .bitOr, opt (grow .comparisonOperator (chain [tail, .many tail]))])

/-- Operands joined by symbol operators of one strength, growing to the left. -/
def binary (operators : List String) (operand : Symbol) : Rule :=
  .scope (chain
    [sym operand,
      .many (grow .binaryOperator (chain
        [.follow, .operator operators none, .gap .value, sym operand]))])

/-- A sign, an awaited value, or a power. -/
def unary : Rule :=
  .alt
    (node .unaryOperator (chain
      [.operator ["+", "-", "~"] none, .gap .value, sym .unary]))
    (onWord ["await"]
      (.alt
        (node .await (chain
          [keyword "await", .resume, onWord infixWords .fail (sym .unary)]))
        (sym .power))
      (sym .power))

/-- A power; the exponent may carry a sign and another power. -/
def power : Rule :=
  .scope (chain
    [sym .primary,
      opt (grow .binaryOperator (chain
        [.follow, op "**", .gap .value, sym .unary]))])

/-! ## Calls, subscripts and attributes -/

/-- The part of a slice after its first colon. -/
def sliceRest : Rule :=
  chain
    [opt (chain [.gap .free, sym .expression]),
      opt (chain [.gap .free, op ":", opt (chain [.gap .free, sym .expression])])]

/-- An expression or a slice between subscript brackets. -/
def subscriptItem : Rule :=
  .alt
    (node .slice (chain [op ":", sliceRest]))
    (.scope (chain
      [sym .expression, opt (grow .slice (chain [.follow, op ":", sliceRest]))]))

/-- A value with the attributes, subscripts and arguments after it. -/
def primaryChain : Rule :=
  .scope (chain
    [sym .atom,
      .many (oneOf
        [grow .attribute (chain [.follow, op ".", .gap .join, anyName]),
          grow .subscript (chain
            [.follow, op "[", .gap .value, .within .free true (items subscriptItem),
              .gap .free, op "]"]),
          grow .call (chain [.role .callee, .follow, sym .callArguments])])])

/-! ## Arguments -/

/-- A named argument. -/
def keywordArgument : Rule :=
  node .keywordArgument (chain
    [expressionName, .follow, op "=", .gap .value, sym .expression])

/-- An unpacked sequence. -/
def listSplat : Rule :=
  node .listSplat (chain [op "*", .gap .value, sym .expression])

/-- An unpacked mapping. -/
def dictionarySplat : Rule :=
  node .dictionarySplat (chain [op "**", .gap .value, sym .expression])

/-- An argument of a call. -/
def argument : Rule :=
  oneOf [dictionarySplat, listSplat, keywordArgument, sym .expression]

/-! ## Comprehensions -/

/-- A loop of a comprehension.  A conditional expression is not read here, since
its `if` would begin a condition. -/
def forInClause : Rule :=
  node .forInClause (chain
    [opt (chain [keyword "async", .gap .join]), keyword "for", .gap .value,
      .within .join true (sym .targetList), .gap .join, keyword "in", .gap .value,
      .within .free false (itemsBefore ["if", "for", "async"] (sym .expression))])

/-- A condition of a comprehension. -/
def ifClause : Rule :=
  node .ifClause (chain
    [keyword "if", .gap .value, .within .free false (sym .expression)])

/-- The loops and conditions of a comprehension. -/
def comprehensionClauses : Rule :=
  chain
    [.follow, forInClause, .many (chain [.follow, .alt forInClause ifClause])]

/-! ## Brackets -/

/-- Whether a tree can be read as an expression and not only as an item between
brackets.  After a star, an expression begins with a target. -/
def isExpression (tree : Tree) : Bool :=
  if tree.is .listSplat then tree.children.any Tree.beginsPlain
  else !(tree.is .yield || tree.is .keywordArgument || tree.is .dictionarySplat)

/-- Only an expression can be the body of a comprehension. -/
def comprehensionBody (trees : List Tree) : Bool :=
  !hasKind .forInClause trees || trees.all isExpression

/-- The arguments of a call: a list, or one generator. -/
def callArguments : Rule :=
  .scope (.wrapBy
    (fun trees =>
      some (if hasKind .forInClause trees then .generatorExpression else .argumentList))
    (.within .free true (chain
      [op "(", .gap .free,
        opt (chain [argument, .alt comprehensionClauses (moreItems argument)]),
        trailingComma, .gap .free, op ")", .check comprehensionBody])))

/-- Arguments in parentheses, without generators. -/
def argumentList : Rule :=
  node .argumentList (.within .free true (chain
    [op "(", .gap .free, opt (chain [argument, moreItems argument]), trailingComma,
      .gap .free, op ")"]))

/-- An item of a list, tuple or set. -/
def element : Rule :=
  onWord ["yield"] (sym .yield) (.alt listSplat (sym .expression))

/-- Items between brackets, or a comprehension. -/
def bracketed (opening closing : String) (item : Rule) : Rule :=
  .within .free true (chain
    [op opening, .gap .free,
      opt (chain
        [item, .alt comprehensionClauses (chain [moreItems item, trailingComma])]),
      .gap .free, op closing, .check comprehensionBody])

/-- What parentheses hold: a generator, a tuple, or one expression. -/
def groupKind (trees : List Tree) : Option Kind :=
  some
    (if hasKind .forInClause trees then .generatorExpression
    else if hasLiteral "," trees || trees.all (fun tree => tree.isLayout || !tree.isNamed) then
      .tuple
    else .parenthesizedExpression)

/-- What square brackets hold: a list or a comprehension. -/
def listKind (trees : List Tree) : Option Kind :=
  some (if hasKind .forInClause trees then .listComprehension else .list)

/-- Whether a tree is an entry of a dictionary. -/
def isDictionaryEntry (tree : Tree) : Bool :=
  tree.is .pair || tree.is .dictionarySplat

/-- Whether a tree is something between braces: not a bracket, a comma, a
comment or a clause. -/
def isEntry (tree : Tree) : Bool :=
  tree.isNamed && !tree.isLayout && !tree.is .forInClause && !tree.is .ifClause

/-- What braces hold: a dictionary or a set, or a comprehension of one. -/
def bracesKind (trees : List Tree) : Option Kind :=
  let entries := trees.filter isEntry
  let dictionary := entries.all isDictionaryEntry
  some
    (if hasKind .forInClause trees then
      if dictionary then .dictionaryComprehension else .setComprehension
    else if dictionary then .dictionary else .set)

/-- Braces hold entries of a dictionary only, or items of a set only. -/
def consistentBraces (trees : List Tree) : Bool :=
  let entries := trees.filter isEntry
  (entries.all isDictionaryEntry || !entries.any isDictionaryEntry) && comprehensionBody trees

/-- An entry of a dictionary or an item of a set. -/
def entry : Rule :=
  .alt dictionarySplat
    (.scope (chain
      [element,
        opt (grow .pair (chain
          [.check (fun trees => trees.all isExpression), .follow, op ":", .gap .value,
            sym .expression]))]))

/-- A dictionary or a set. -/
def braces : Rule :=
  .scope (.wrapBy bracesKind (.within .free true (chain
    [op "\x7b", .gap .free,
      .alt
        (chain [entry, .alt comprehensionClauses (chain [moreItems entry, trailingComma])])
        trailingComma,
      .gap .free, op "\x7d", .check consistentBraces])))

/-! ## Strings -/

/-- One literal, or several in a row. -/
def strings : Rule :=
  let next := chain [.resume, sym .string]
  .scope (chain
    [sym .string, opt (grow .concatenatedString (chain [next, .many next]))])

/-- A string literal. -/
def string : Rule :=
  .literal (chain
    [.openQuote, .many (.alt .quotedText (sym .interpolation)), .closeQuote])

/-- The conversion, the specifier and the expression between the braces of a
formatted string. -/
def interpolationBody : Rule :=
  .within .free true (chain
    [.exactly "\x7b", .gap .value, onWord ["yield"] (sym .yield) (sym .expressions),
      opt (chain [.gap .free, op "="]),
      opt (chain [.gap .free, .conversion]),
      opt (chain
        [.gap .free,
          node .formatSpecifier (chain
            [.exactly ":", .many (.alt .formatText (sym .formatExpression))])]),
      .gap .free, .exactly "\x7d"])

/-! ## Lambdas -/

/-- A parameter written with stars: the star and its target. -/
def splatParameter (star : String) (kind : Kind) (between : Gap) : Rule :=
  node kind (chain
    [op star, .gap between, sym .primary,
      .check (fun trees => trees.any Tree.isPlainTarget)])

/-- Parameters in parentheses inside a parameter list. -/
def tupleParameter : Rule :=
  .scope (chain [sym .group, .targets])

/-- A default value for the parameter in scope. -/
def defaultTail (before : Gap) : Rule :=
  grow .defaultParameter (chain
    [.role .name, .gap before, op "=", .gap .value, sym .expression])

/-- A parameter without annotation. -/
def lambdaParameter : Rule :=
  oneOf
    [.scope (chain [.alt anyName tupleParameter, opt (defaultTail .join)]),
      splatParameter "**" .dictionarySplatPattern .join,
      splatParameter "*" .listSplatPattern .join,
      node .keywordSeparator (op "*"),
      node .positionalSeparator (op "/")]

/-- A lambda; its parameters carry no annotations. -/
def lambda : Rule :=
  node .lambda (chain
    [keyword "lambda", .gap .join,
      opt (chain
        [node .lambdaParameters (.within .join true (chain
          [lambdaParameter, .many (chain [.gap .join, op ",", .gap .join, lambdaParameter]),
            opt (chain [.gap .join, op ","])])),
          .gap .join]),
      op ":", .gap .value, sym .expression])

/-! ## Atoms -/

/-- A starred value outside brackets; only a name, an attribute or a subscript,
or a call of one, can follow the star. -/
def starred : Rule :=
  node .listSplat (chain
    [op "*", .gap .value, sym .primary,
      .check (fun trees =>
        trees.any (fun tree => tree.isPlainTarget || tree.is .call))])

/-- The smallest expressions. -/
def atom : Rule :=
  oneOf
    [sym .strings,
      .word "True" (some .true),
      .word "False" (some .false),
      .word "None" (some .none),
      expressionName,
      .number,
      .operator ["..."] (some .ellipsis),
      sym .group,
      sym .list,
      sym .braces,
      starred]

/-! ## Lists of expressions and targets -/

/-- The kind of a run of items: a list if a comma parts or ends them. -/
def listedAs (kind : Kind) (trees : List Tree) : Option Kind :=
  if hasLiteral "," trees then some kind else none

/-- One expression, or a list of them up to one of the words. -/
def expressionsBefore (words : List String) : Rule :=
  .scope (.wrapBy (listedAs .expressionList) (itemsBefore words (sym .expression)))

/-- One expression, or a list of them. -/
def expressions : Rule :=
  expressionsBefore []

/-- A target of an assignment or a loop. -/
def target : Rule :=
  .scope (chain [sym .primary, .targets])

/-- The targets of a loop: one, or a list of them up to the word `in`. -/
def targetList : Rule :=
  .scope (.wrapBy (listedAs .patternList) (itemsBefore ["in"] (sym .target)))

/-- A `yield` with its value. -/
def yieldExpression : Rule :=
  node .yield (chain
    [keyword "yield",
      .branch (chain [.resume, keyword "from"])
        (chain [.resume, keyword "from", .gap .value, sym .expression])
        (opt (chain [.resume, sym .expressions]))])

end SemanticDiff.Source.Grammar
