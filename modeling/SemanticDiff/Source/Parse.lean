import SemanticDiff.Source.Grammar.Table

/-!
# Parsing

A source text either has a syntax tree, or it has an error at the furthest place
that its reading could reach.
-/

namespace SemanticDiff.Source

/-- Where a text stops being valid source: a line and a byte column, both counted
from one. -/
structure SyntaxError where
  line : Nat
  column : Nat
deriving DecidableEq, Repr

namespace SyntaxError

/-- The place of a byte offset, counted on from a line and a column. -/
def locate (line column : Nat) : Nat → List Char → SyntaxError
  | _, [] => { line, column }
  | offset, c :: rest =>
      if offset = 0 then { line, column }
      else if c = '\n' then locate (line + 1) 1 (offset - c.utf8Size) rest
      else locate line (column + c.utf8Size) (offset - c.utf8Size) rest

/-- The place of a byte offset in a text. -/
def ofOffset (text : String) (offset : Nat) : SyntaxError :=
  locate 1 1 offset text.toList

end SyntaxError

/-- How deep a text of this length may have to be read. -/
def readingDepth (length : Nat) : Nat :=
  256 * (length + 4)

/-- Read the statements of a text up to its end. -/
def readModule (text : String) : Rule.Outcome :=
  Rule.run Grammar.rule (readingDepth text.length)
    (.seq (.call .statements) .textEnd) { follow := .line, conditional := true } []
    { cursor := Cursor.start text, indents := [], quotes := [], inFormat := false, reach := 0 }

/-- The tree of a whole text.  It begins with the first token or comment and
reaches to the end of the text. -/
def parse (text : String) : Except SyntaxError Tree :=
  match readModule text with
  | .read trees state =>
      let children := trees.reverse
      let finish := state.cursor.spanTo state.cursor
      let start := (children.head?.map Tree.span).getD finish
      .ok (Tree.node (.construct .module) none (start.cover finish) "" children)
  | .refused reach => .error (SyntaxError.ofOffset text reach)

end SemanticDiff.Source
