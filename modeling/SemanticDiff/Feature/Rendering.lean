import SemanticDiff.Source.Tree
import SemanticDiff.Text.Alphanumeric

/-!
# Rendering of source fragments

Signatures, base classes, decorators and caught exceptions are shown as text
that does not depend on how the source is laid out.  A fragment is cut into the
tokens that matter, and these are set with canonical spacing: a space between
two words, around infix operators and arrows, and after commas and colons.
-/

namespace SemanticDiff.Feature

open SemanticDiff.Source (Tree Kind Label)
open SemanticDiff.Text (isWordChar)

/-- A token of a fragment: its text, whether it is a construct of its own, and
the construct directly around it. -/
structure Token where
  text : String
  named : Bool
  parent : Option Kind
deriving DecidableEq, Repr

/-- The construct that a label names. -/
def kindOf? : Label → Option Kind
  | .construct kind => some kind
  | .literal _ => none

/-- A comma that only ends a list: nothing or a closing bracket follows it.  In a
tuple every comma counts. -/
def isTrailingComma (around : Label) (tree : Tree) (next : Option Tree) : Bool :=
  tree.isLiteral "," &&
    next.all (fun next =>
      next.isLiteral ")" || next.isLiteral "]" || next.isLiteral "\x7d") &&
    around != .construct .tuple && around != .construct .tuplePattern

mutual

/-- The tokens of a tree that matter.  A string literal is one token; comments,
continued lines and trailing commas are left out. -/
def tokens (parent : Option Kind) : Tree → List Token
  | .node label _ _ text children =>
      if label = .construct .comment || label = .construct .lineContinuation then []
      else if children.isEmpty || label = .construct .string then
        [{ text, named := (kindOf? label).isSome, parent }]
      else tokensAll label children

/-- The tokens of the children of a node. -/
def tokensAll (around : Label) : List Tree → List Token
  | [] => []
  | tree :: trees =>
      if isTrailingComma around tree trees.head? then tokensAll around trees
      else tokens (kindOf? around) tree ++ tokensAll around trees

end

namespace Token

/-- Constructs whose literal tokens are infix operators. -/
def operatorParents : List Kind :=
  [.binaryOperator, .comparisonOperator, .booleanOperator, .conditionalExpression]

/-- Whether the token is an infix operator, an arrow, or the sign before the
default value of an annotated parameter. -/
def isOperator (token : Token) : Bool :=
  !token.named &&
    (token.text == "->" ||
      (token.text == "=" && token.parent == some .typedDefaultParameter) ||
      token.parent.any operatorParents.contains)

/-- Whether the token closes a bracket. -/
def isClosing (token : Token) : Bool :=
  [")", "]", "\x7d"].contains token.text

/-- Whether a space follows the token. -/
def opensSpace (token : Token) : Bool :=
  !token.named &&
    (token.isOperator || token.text == "," ||
      (token.text == ":" && token.parent != some .slice))

/-- Set a token after a text.  The text is held backwards, so that its last
character is at hand. -/
def set (out : List Char) (token : Token) : List Char :=
  let joins := out.head?.any isWordChar && token.text.toList.head?.any isWordChar
  let out := if token.isClosing && out.head? == some ' ' then out.tail else out
  let out :=
    if (token.isOperator || joins) && !out.isEmpty && out.head? != some ' ' then ' ' :: out
    else out
  let out := token.text.toList.reverse ++ out
  if token.opensSpace then ' ' :: out else out

end Token

/-- Set tokens one after the other; no space is left at the end. -/
def setTokens (run : List Token) : String :=
  String.ofList ((run.foldl Token.set []).dropWhile (· == ' ')).reverse

/-- The text of a fragment, whatever its layout. -/
def render (tree : Tree) : String :=
  setTokens (tokens none tree)

end SemanticDiff.Feature
