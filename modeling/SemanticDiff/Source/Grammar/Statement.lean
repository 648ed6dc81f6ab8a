import SemanticDiff.Source.Grammar.TypeExpression
import SemanticDiff.Source.Grammar.CasePattern

/-!
# Statements

Simple statements share a line; compound statements have a block.  A word such
as `match` or `print` begins a statement of its own only if the rest of the
statement can be read so; otherwise it is a name.
-/

namespace SemanticDiff.Source.Grammar

open Rule

/-! ## Assignments and expression statements -/

/-- The operators of augmented assignments. -/
def augmentedOperators : List String :=
  ["+=", "-=", "*=", "/=", "@=", "//=", "%=", "**=", ">>=", "<<=", "&=", "^=", "|="]

/-- What makes an assignment of the expressions in scope. -/
def assignmentTail : Rule :=
  oneOf
    [grow .assignment (chain
      [.targets, .follow, op "=", .gap .value, sym .rightHandSide]),
      grow .assignment (chain
        [.targets, .follow, op ":", .gap .value, inRole .declaredType (sym .type),
          opt (chain [.follow, op "=", .gap .value, sym .rightHandSide])]),
      grow .augmentedAssignment (chain
        [.targets, .follow, .operator augmentedOperators none, .gap .value,
          sym .rightHandSide])]

/-- The right side of an assignment, which may be an assignment again. -/
def rightHandSide : Rule :=
  onWord ["yield"] (sym .yield)
    (.scope (chain
      [items (sym .expression),
        .alt assignmentTail (.wrapBy (listedAs .expressionList) .empty)]))

/-- Expressions as a statement, or an assignment. -/
def expressionStatement : Rule :=
  node .expressionStatement
    (onWord ["yield"] (sym .yield)
      (.scope (chain [items (sym .expression), opt assignmentTail])))

/-! ## Imports -/

/-- A module or a name, with another name for it. -/
def importItem : Rule :=
  .scope (chain
    [dottedName [],
      opt (grow .aliasedImport (chain
        [.role .name, .follow, keyword "as", .gap .join, anyName]))])

/-- The names after `import`, with or without parentheses. -/
def importNames : Rule :=
  .alt
    (chain
      [op "(", .gap .join, .within .free true (items importItem), .gap .free, op ")"])
    (items importItem)

/-- Points that count the packages to go up, and a module below. -/
def relativeImport : Rule :=
  node .relativeImport (chain
    [node .importPrefix (chain
      [.exactly ".", .many (chain [.gap .join, .exactly "."])]),
      opt (chain [.gap .join, dottedName ["import"]])])

/-- An import of names from a module. -/
def importFrom : Rule :=
  .branch (chain [keyword "from", .gap .join, keyword "__future__"])
    (node .futureImportStatement (chain
      [keyword "from", .gap .join, keyword "__future__", .gap .join, keyword "import",
        .gap .join, importNames]))
    (node .importFromStatement (chain
      [keyword "from", .gap .join,
        inRole .moduleName (.within .join true (.alt relativeImport (dottedName []))),
        .gap .join, keyword "import", .gap .join,
        .alt (node .wildcardImport (op "*")) importNames]))

/-! ## Other simple statements -/

/-- The end of a simple statement. -/
def statementEnd : Rule :=
  chain [.gap .line, .alt (op ";") .lineEnd]

/-- A rule that reaches the end of its statement. -/
def wholeStatement (rule : Rule) : Rule :=
  chain [rule, .branch statementEnd .empty .fail]

/-- A `print` statement that names its file. -/
def printTo : Rule :=
  node .printStatement (chain
    [keyword "print", .resume, node .chevron (chain [op ">>", .gap .value, sym .expression]),
      moreItems (sym .expression), trailingComma])

/-- A `print` statement. -/
def printStatement : Rule :=
  node .printStatement (chain
    [keyword "print", .resume, onWord infixWords .fail (items (sym .expression))])

/-- An `exec` statement. -/
def execStatement : Rule :=
  node .execStatement (chain
    [keyword "exec", .resume, .alt (sym .string) (.name ("not" :: infixWords)),
      opt (chain [.follow, keyword "in", .gap .value, strictItems (sym .expression)])])

/-- A `type` statement. -/
def typeAliasStatement : Rule :=
  node .typeAliasStatement (chain
    [keyword "type", .resume, .within .join true (sym .type), .gap .join, op "=",
      .gap .value, sym .type])

/-- A statement of one keyword. -/
def keywordStatement (kind : Kind) (word : String) : Rule :=
  node kind (keyword word)

/-- A statement that declares names. -/
def declaration (kind : Kind) (word : String) : Rule :=
  node kind (chain
    [keyword word, .gap .join, anyName,
      .many (chain [.follow, op ",", .gap .join, anyName])])

/-- A `raise` statement. -/
def raiseStatement : Rule :=
  node .raiseStatement (chain
    [keyword "raise",
      .branch (chain [.resume, keyword "from"]) .empty
        (opt (chain [.resume, expressionsBefore ["from"]])),
      opt (chain [.follow, keyword "from", .gap .value, sym .expression])])

/-- Choose a rule by the word that comes next. -/
def byWord (choices : List (String × Rule)) (otherwise : Rule) : Rule :=
  choices.foldr (fun choice rest => onWord [choice.1] choice.2 rest) otherwise

/-- A simple statement. -/
def simpleStatement : Rule :=
  byWord
    [("import", node .importStatement (chain
        [keyword "import", .gap .join, items importItem])),
      ("from", importFrom),
      ("assert", node .assertStatement (chain
        [keyword "assert", .gap .value, strictItems (sym .expression)])),
      ("return", node .returnStatement (chain
        [keyword "return", opt (chain [.resume, sym .expressions])])),
      ("del", node .deleteStatement (chain
        [keyword "del", .gap .value, sym .expressions])),
      ("raise", raiseStatement),
      ("pass", keywordStatement .passStatement "pass"),
      ("break", keywordStatement .breakStatement "break"),
      ("continue", keywordStatement .continueStatement "continue"),
      ("global", declaration .globalStatement "global"),
      ("nonlocal", declaration .nonlocalStatement "nonlocal"),
      ("print", oneOf [printTo, wholeStatement expressionStatement, printStatement]),
      ("exec", .alt execStatement expressionStatement),
      ("type", .alt (wholeStatement typeAliasStatement) expressionStatement)]
    expressionStatement

/-- Simple statements that share a line. -/
def simpleStatements : Rule :=
  .within .line true (chain
    [sym .simpleStatement,
      .many (chain [.gap .line, op ";", .gap .line, sym .simpleStatement]),
      opt (chain [.gap .line, op ";"]),
      .gap .line, .lineEnd])

/-! ## Blocks -/

/-- The statements of a block or a module. -/
def statements : Rule :=
  chain [.many (chain [.gap .statement, sym .statement]), .gap .statement]

/-- The body of a compound statement: an indented block, statements in the same
line, or nothing at all. -/
def suite : Rule :=
  chain
    [.gap .line,
      .branch .indent
        (chain
          [.indent, .gap .statement,
            inRole .body (node .block (chain [sym .statements, .dedent]))])
        (.branch .lineEnd
          (inRole .body .emptyBlock)
          (inRole .body (node .block (sym .simpleStatements))))]

/-- A colon and the body after it. -/
def body : Rule :=
  chain [.gap .join, op ":", sym .suite]

/-- The head of a compound statement holds an expression and ends in a colon. -/
def heading (rule : Rule) : Rule :=
  .within .join true rule

/-! ## Compound statements -/

/-- A clause that follows the block before it, if its word comes next; `no` is
read otherwise. -/
def clause (word : String) (yes no : Rule) : Rule :=
  .branch (chain [.gap .statement, keyword word]) (chain [.gap .statement, yes]) no

/-- A condition with its block. -/
def conditionClause (kind : Kind) (word : String) : Rule :=
  node kind (chain [keyword word, .gap .value, heading (sym .expression), body])

/-- An `if` statement. -/
def ifStatement : Rule :=
  node .ifStatement (chain
    [keyword "if", .gap .value, heading (sym .expression), body, sym .elifTail])

/-- Further conditions, then an `else`. -/
def elifTail : Rule :=
  clause "elif" (chain [conditionClause .elifClause "elif", sym .elifTail]) (sym .elseTail)

/-- An `else` with its block, if there is one. -/
def elseTail : Rule :=
  clause "else" (node .elseClause (chain [keyword "else", body])) .empty

/-- A `for` statement, `async` or not. -/
def forStatement : Rule :=
  node .forStatement (chain
    [opt (chain [keyword "async", .resume]), keyword "for", .gap .value,
      heading (sym .targetList), .gap .join, keyword "in", .gap .value,
      heading (sym .expressions), body, sym .elseTail])

/-- A `while` statement. -/
def whileStatement : Rule :=
  node .whileStatement (chain
    [keyword "while", .gap .value, heading (sym .expression), body, sym .elseTail])

/-- The clause that ends a `try` statement. -/
def finallyTail (otherwise : Rule) : Rule :=
  clause "finally" (node .finallyClause (chain [keyword "finally", body])) otherwise

/-- An exception handler. -/
def exceptClause : Rule :=
  node .exceptClause (chain
    [keyword "except",
      opt (chain
        [.gap .value, heading (chain
          [sym .expression,
            opt (chain
              [.gap .join, .alt (keyword "as") (op ","), .gap .value, sym .expression])])]),
      body])

/-- A handler of exception groups. -/
def exceptGroupClause : Rule :=
  node .exceptGroupClause (chain
    [.exactly "except*", .gap .value,
      heading (chain
        [sym .expression,
          opt (chain [.gap .join, keyword "as", .gap .value, sym .expression])]),
      body])

/-- What may follow the handlers. -/
def afterHandlers : Rule :=
  chain [sym .elseTail, finallyTail .empty]

/-- Further handlers. -/
def exceptTail : Rule :=
  clause "except" (chain [exceptClause, sym .exceptTail]) (sym .afterHandlers)

/-- Further handlers of exception groups. -/
def exceptGroupTail : Rule :=
  .branch (chain [.gap .statement, .exactly "except*"])
    (chain [.gap .statement, exceptGroupClause, sym .exceptGroupTail])
    (sym .afterHandlers)

/-- A `try` statement: handlers of one sort, or only a `finally`. -/
def tryStatement : Rule :=
  node .tryStatement (chain
    [keyword "try", body,
      .branch (chain [.gap .statement, .exactly "except*"])
        (chain [.gap .statement, exceptGroupClause, sym .exceptGroupTail])
        (clause "except" (chain [exceptClause, sym .exceptTail]) (finallyTail .fail))])

/-- A context manager. -/
def withItem : Rule :=
  node .withItem (sym .expression)

/-- A `with` statement; its items may stand in parentheses. -/
def withStatement : Rule :=
  node .withStatement (chain
    [opt (chain [keyword "async", .resume]), keyword "with", .gap .value,
      .alt
        (chain
          [node .withClause (chain
            [op "(", .gap .value, .within .free true (items withItem), .gap .free, op ")"]),
            .gap .join, op ":"])
        (chain [node .withClause (heading (items withItem)), .gap .join, op ":"]),
      sym .suite])

/-- A clause of a `match` statement. -/
def caseClause : Rule :=
  node .caseClause (chain
    [keyword "case", .gap .value,
      heading (chain
        [itemsBefore ["if"] (sym .casePattern),
          opt (chain
            [.gap .join,
              node .ifClause (chain [keyword "if", .gap .value, sym .expression])])]),
      body])

/-- A `match` statement. -/
def matchStatement : Rule :=
  node .matchStatement (chain
    [keyword "match", .gap .line, heading (items (sym .expression)), .gap .join, op ":",
      .gap .line,
      .branch .indent
        (chain
          [.indent,
            inRole .body (node .block (chain
              [.many (chain [.gap .statement, caseClause]), .gap .statement, .dedent]))])
        (chain [.lineEnd, inRole .body .emptyBlock])])

/-! ## Definitions -/

/-- A parameter with an annotation, and a default value if it has one. -/
def typedTail : Rule :=
  .wrapBy
    (fun trees =>
      some (if hasLiteral "=" trees then .typedDefaultParameter else .typedParameter))
    (chain
      [.gap .free, op ":", .gap .value, sym .type,
        opt (chain [.gap .free, op "=", .gap .value, sym .expression])])

/-- A starred parameter, with an annotation if it has one. -/
def typedSplat (star : String) (kind : Kind) (between : Gap) : Rule :=
  .scope (chain
    [splatParameter star kind between,
      opt (grow .typedParameter (chain [.gap .free, op ":", .gap .value, sym .type]))])

/-- A parameter of a function. -/
def parameter : Rule :=
  oneOf
    [.scope (chain [anyName, opt (.alt typedTail (defaultTail .free))]),
      .scope (chain [tupleParameter, opt (defaultTail .free)]),
      typedSplat "**" .dictionarySplatPattern .join,
      typedSplat "*" .listSplatPattern .free,
      node .keywordSeparator (op "*"),
      node .positionalSeparator (op "/")]

/-- The parameters of a function. -/
def parameters : Rule :=
  node .parameters (.within .free true (chain
    [op "(", .gap .free, opt (items parameter), .gap .free, op ")"]))

/-- A function. -/
def functionDefinition : Rule :=
  node .functionDefinition (chain
    [opt (chain [keyword "async", .resume]), keyword "def", .gap .join,
      inRole .name anyName,
      opt (chain [.gap .join, sym .typeParameters]),
      .gap .join, inRole .parameters parameters,
      opt (chain
        [.gap .join, op "->", .gap .value,
          inRole .returnType (heading unboundedType)]),
      body])

/-- A class. -/
def classDefinition : Rule :=
  node .classDefinition (chain
    [keyword "class", .gap .join, inRole .name anyName,
      opt (chain [.gap .join, sym .typeParameters]),
      opt (chain [.gap .join, inRole .superclasses (sym .argumentList)]),
      body])

/-- A decorator, which takes a line of its own. -/
def decorator : Rule :=
  node .decorator (chain
    [op "@", .gap .value, .within .line true (sym .expression), .gap .line, .lineEnd])

/-- A definition with its decorators. -/
def decoratedDefinition : Rule :=
  node .decoratedDefinition (chain
    [decorator, .many (chain [.gap .join, decorator]), .gap .join,
      inRole .definition (.alt (sym .classDefinition) (sym .functionDefinition))])

/-- A statement, or the simple statements of a line. -/
def statement : Rule :=
  .within .line true
    (byWord
      [("if", ifStatement),
        ("for", forStatement),
        ("while", whileStatement),
        ("try", tryStatement),
        ("with", withStatement),
        ("def", sym .functionDefinition),
        ("class", sym .classDefinition),
        ("async", oneOf
          [sym .functionDefinition, forStatement, withStatement, sym .simpleStatements]),
        ("match", .alt matchStatement (sym .simpleStatements))]
      (.branch (op "@") decoratedDefinition (sym .simpleStatements)))

end SemanticDiff.Source.Grammar
