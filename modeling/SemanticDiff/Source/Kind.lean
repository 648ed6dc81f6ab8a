/-!
# Constructs of Python source

The names of the constructs that a syntax tree of Python source is built from,
and the roles a construct can play inside the one around it.
-/

namespace SemanticDiff.Source

/-- The constructs of the language. -/
inductive Kind where
  | module | block | comment | lineContinuation
  -- simple statements
  | expressionStatement | importStatement | importFromStatement | futureImportStatement
  | importPrefix | relativeImport | aliasedImport | wildcardImport | dottedName
  | printStatement | chevron | assertStatement | returnStatement | deleteStatement
  | raiseStatement | passStatement | breakStatement | continueStatement
  | globalStatement | nonlocalStatement | execStatement | typeAliasStatement
  | assignment | augmentedAssignment
  -- compound statements
  | ifStatement | elifClause | elseClause | forStatement | whileStatement
  | tryStatement | exceptClause | exceptGroupClause | finallyClause
  | withStatement | withClause | withItem
  | matchStatement | caseClause
  | functionDefinition | classDefinition | decoratedDefinition | decorator
  -- parameters and arguments
  | parameters | lambdaParameters | defaultParameter | typedParameter
  | typedDefaultParameter | keywordSeparator | positionalSeparator
  | argumentList | keywordArgument
  -- annotations
  | type | typeParameter | splatType | genericType | unionType | constrainedType
  | memberType
  -- targets
  | patternList | tuplePattern | listPattern | listSplatPattern
  | dictionarySplatPattern
  -- case patterns
  | casePattern | unionPattern | dictPattern | keywordPattern | splatPattern
  | classPattern | complexPattern
  -- expressions
  | identifier | integer | float | true | false | none | ellipsis
  | string | stringStart | stringContent | stringEnd | concatenatedString
  | interpolation | typeConversion | formatSpecifier | formatExpression
  | namedExpression | asPattern | asPatternTarget | lambda | conditionalExpression
  | notOperator | booleanOperator | comparisonOperator | binaryOperator
  | unaryOperator | await | attribute | subscript | slice | call | yield
  | parenthesizedExpression | tuple | list | set | dictionary | pair
  | listComprehension | setComprehension | dictionaryComprehension
  | generatorExpression | forInClause | ifClause
  | expressionList | listSplat | dictionarySplat
deriving DecidableEq, Repr

/-- The role of a construct in the one around it.  Only the roles that are
looked up later are recorded. -/
inductive Field where
  | name | parameters | returnType | superclasses | body | definition
  | callee | moduleName | declaredType
deriving DecidableEq, Repr

end SemanticDiff.Source
