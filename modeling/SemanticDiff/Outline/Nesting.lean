import SemanticDiff.Outline.Basic
import SemanticDiff.Source.Tree

/-!
# Nesting

The definitions of a syntax tree are found one by one, wherever they stand.  Put in the
order in which they begin, they fill a table, in which a definition comes after the one
around it.  Then the table is emptied from its end: every node is handed to the node
around it, until only the outermost ones are left.
-/

namespace SemanticDiff.Outline

open SemanticDiff.Source (Tree Label Span)

/-! ## Definitions -/

/-- The kind of node that a definition makes. -/
def definitionKind? : Label → Option NodeKind
  | .construct .functionDefinition => some .functionDef
  | .construct .classDefinition => some .classDef
  | _ => none

/-- The name of a definition. -/
def definitionName (children : List Tree) : String :=
  ((children.find? fun child => child.field == some .name).map Tree.text).getD ""

/-- A definition that was found in a syntax tree.  Its address tells it apart from all
other nodes: its position among its siblings, then that of the node around it, and so
on up to the root. -/
structure Definition where
  address : List Nat
  /-- The nodes around the definition, the innermost first. -/
  around : List Tree
  name : String
  kind : NodeKind
  span : Span

mutual

/-- The definitions of a tree at an address.  What has no name is none. -/
def definitionsIn (address : List Nat) (around : List Tree) : Tree → List Definition
  | .node label field span text children =>
      let inside :=
        definitionsAmong address (.node label field span text children :: around) 0 children
      match definitionKind? label with
      | some kind =>
          let name := definitionName children
          if name = "" then inside else { address, around, name, kind, span } :: inside
      | none => inside

/-- The definitions of siblings, counted on from a position. -/
def definitionsAmong (address : List Nat) (around : List Tree) (position : Nat) :
    List Tree → List Definition
  | [] => []
  | tree :: trees =>
      definitionsIn (position :: address) around tree ++
        definitionsAmong address around (position + 1) trees

end

/-- The address of the innermost definition among the nodes around an address. -/
def enclosing? : (address : List Nat) → (around : List Tree) → Option (List Nat)
  | _ :: address, tree :: around =>
      if (definitionKind? tree.label).isSome then some address else enclosing? address around
  | _, _ => none

namespace Definition

/-- A definition comes before those that begin later, and of those that begin with it
before those that end earlier. -/
def precedes (first second : Definition) : Bool :=
  if first.span.startByte = second.span.startByte then
    second.span.endByte ≤ first.span.endByte
  else first.span.startByte < second.span.startByte

/-- Put a definition before the first one that it precedes. -/
def insertInto (definition : Definition) : List Definition → List Definition
  | [] => [definition]
  | other :: others =>
      if definition.precedes other then definition :: other :: others
      else other :: insertInto definition others

/-- Put definitions in order; of two that precede each other the earlier one stays
first. -/
def arrange : List Definition → List Definition
  | [] => []
  | definition :: definitions => definition.insertInto (arrange definitions)

end Definition

/-! ## The table -/

/-- A node that nothing was handed to yet, with the position of the node around it. -/
structure Row where
  node : Node
  parent : Option Nat

/-- Why definitions cannot be nested. -/
inductive NestingError where
  /-- Two definitions have the same key. -/
  | repeated (key : Key) (firstLine line : Nat)
  /-- A position lies outside the table. -/
  | outside
deriving DecidableEq, Repr

/-- The position of the definition at an address. -/
def positionOf (definitions : List Definition) (address : List Nat) : Option Nat :=
  definitions.findIdx? fun definition => definition.address = address

/-- The key of the node at a position of the table, or that of the module. -/
def keyAt? (table : List Row) : Option Nat → Option Key
  | some position => table[position]?.map fun row => row.node.key
  | none => some .module

/-- The next row of a table. -/
def row? (definitions : List Definition) (table : List Row) (definition : Definition) :
    Option Row :=
  let parent := (enclosing? definition.address definition.around).bind (positionOf definitions)
  (keyAt? table parent).map fun key =>
    { node :=
        .mk (key.child definition.name) definition.name definition.kind definition.span []
      parent }

/-- Enter definitions one after the other into a table.  No two of them may have the
same key. -/
def fill (definitions : List Definition) (table : List Row) :
    List Definition → Except NestingError (List Row)
  | [] => .ok table
  | definition :: rest =>
      match row? definitions table definition with
      | none => .error .outside
      | some row =>
          match table.find? fun earlier => earlier.node.key = row.node.key with
          | some earlier =>
              .error (.repeated row.node.key earlier.node.span.startLine row.node.span.startLine)
          | none => fill definitions (table ++ [row]) rest

/-- Hand the last of some nodes to the node around it, or to the outermost ones, and go
on with the others.  What was handed to a node is there in reverse order. -/
def handOver (outermost nodes : List Node) :
    (parents : List (Option Nat)) → Except NestingError (List Node)
  | [] => .ok outermost.reverse
  | parent :: parents =>
      match nodes.getLast? with
      | none => .ok outermost.reverse
      | some last =>
          let node := last.withChildren List.reverse
          match parent with
          | none => handOver (outermost ++ [node]) nodes.dropLast parents
          | some position =>
              if position < nodes.dropLast.length then
                handOver outermost
                  (nodes.dropLast.modify position (Node.withChildren (· ++ [node]))) parents
              else .error .outside

/-- Nest definitions that were found in any order. -/
def nest (found : List Definition) : Except NestingError (List Node) := do
  let definitions := Definition.arrange found
  let table ← fill definitions [] definitions
  handOver [] (table.map Row.node) (table.map Row.parent).reverse

end SemanticDiff.Outline
