import SemanticDiff.Source.Kind
import SemanticDiff.Source.Span

/-!
# Syntax trees

A syntax tree keeps every token of the text.  A node is either a construct of
the grammar or a literal token that stands for itself.  Tokens, and string
literals as a whole, carry their text; white space is not part of the tree.
-/

namespace SemanticDiff.Source

/-- What a node is: a construct, or a literal token such as a bracket or a
keyword. -/
inductive Label where
  | construct (kind : Kind)
  | literal (text : String)
deriving DecidableEq, Repr

/-- A node with its role in the node around it, its place in the text, its text
where it is a token, and its children in source order. -/
inductive Tree where
  | node (label : Label) (field : Option Field) (span : Span) (text : String)
      (children : List Tree)
deriving Repr

namespace Tree

/-- What the node is. -/
def label : Tree → Label
  | node label _ _ _ _ => label

/-- The role of the node in the node around it. -/
def field : Tree → Option Field
  | node _ field _ _ _ => field

/-- Where the node stands in the text. -/
def span : Tree → Span
  | node _ _ span _ _ => span

/-- The text of a token or a string literal; empty for other nodes. -/
def text : Tree → String
  | node _ _ _ text _ => text

/-- The children in source order, tokens and comments included. -/
def children : Tree → List Tree
  | node _ _ _ _ children => children

/-- A node without children. -/
def leaf (label : Label) (span : Span) (text : String) : Tree :=
  node label none span text []

/-- Whether the node is a construct of the given kind. -/
def is (kind : Kind) (tree : Tree) : Bool :=
  tree.label == .construct kind

/-- Whether the node is the given literal token. -/
def isLiteral (text : String) (tree : Tree) : Bool :=
  tree.label == .literal text

/-- Whether the node is a construct rather than a literal token. -/
def isNamed (tree : Tree) : Bool :=
  match tree.label with
  | .construct _ => true
  | .literal _ => false

/-- Whether the node is layout: a comment or a line continuation. -/
def isLayout (tree : Tree) : Bool :=
  tree.is .comment || tree.is .lineContinuation

/-- The children that are constructs, comments included. -/
def namedChildren (tree : Tree) : List Tree :=
  tree.children.filter isNamed

/-- The first child that plays the given role. -/
def childWith? (role : Field) (tree : Tree) : Option Tree :=
  tree.children.find? fun child => child.field == some role

/-- The same node in another role. -/
def withField (role : Field) : Tree → Tree
  | node label _ span text children => node label (some role) span text children

/-- The span of a run of trees; a run without trees is the empty span at
`here`. -/
def spanOf (here : Span) (trees : List Tree) : Span :=
  match trees.head?, trees.getLast? with
  | some first, some last => first.span.cover last.span
  | _, _ => here

end Tree

end SemanticDiff.Source
