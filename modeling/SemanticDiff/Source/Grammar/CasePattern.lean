import SemanticDiff.Source.Grammar.Expression

/-!
# Case patterns

The patterns of a `case` clause.
-/

namespace SemanticDiff.Source.Grammar

open Rule

/-- Words that are not names where a pattern begins. -/
def patternWords : List String :=
  ["True", "False", "None", "_"]

/-- Patterns between brackets. -/
def patternsBetween (opening closing : String) (item : Rule) : Rule :=
  .within .free true (chain
    [op opening, .gap .free, opt (items item), .gap .free, op closing])

/-- A number with an optional sign. -/
def signedNumber : Rule :=
  chain [opt (chain [op "-", .gap .join]), .number]

/-- A sum of two numbers. -/
def complexPattern : Rule :=
  node .complexPattern (chain
    [signedNumber, .follow, .operator ["+", "-"] none, .gap .join, .number])

/-- A starred name. -/
def splatPattern : Rule :=
  node .splatPattern (chain
    [.operator ["*", "**"] none, .gap .join, .alt (keyword "_") anyName])

/-- A dotted name, with patterns in parentheses if it is a class. -/
def classPattern : Rule :=
  .scope (chain
    [dottedName patternWords,
      opt (grow .classPattern (chain
        [.follow, patternsBetween "(" ")" (sym .casePattern)]))])

/-- A key with its pattern. -/
def keyPattern : Rule :=
  chain [sym .simplePattern, .gap .join, op ":", .gap .value, sym .casePattern]

/-- A pattern that is not an alternative of several. -/
def singlePattern : Rule :=
  oneOf
    [complexPattern,
      signedNumber,
      sym .strings,
      .word "True" (some .true),
      .word "False" (some .false),
      .word "None" (some .none),
      keyword "_",
      classPattern,
      splatPattern,
      node .listPattern (patternsBetween "[" "]" (sym .casePattern)),
      node .tuplePattern (patternsBetween "(" ")" (sym .casePattern)),
      node .dictPattern (patternsBetween "\x7b" "\x7d" (.alt splatPattern keyPattern))]

/-- A pattern, or alternatives of several. -/
def simplePattern : Rule :=
  let next := chain [.follow, op "|", .gap .value, singlePattern]
  .scope (chain [singlePattern, opt (grow .unionPattern (chain [next, .many next]))])

/-- A pattern of a `case` clause, with the names bound to it. -/
def casePattern : Rule :=
  .scope (chain
    [node .casePattern
      (.alt
        (node .keywordPattern (chain
          [.name patternWords, .follow, op "=", .gap .value, sym .simplePattern]))
        (sym .simplePattern)),
      .many (grow .casePattern (grow .asPattern (chain
        [.follow, keyword "as", .gap .join, anyName])))])

end SemanticDiff.Source.Grammar
