import SemanticDiff.Event.Basic
import SemanticDiff.Feature.Extraction
import SemanticDiff.Outline.Pairing

/-!
# Contexts of classification

What a rule sees: a node that exists before, after, or on both sides, with its
place and its features on each side.
-/

namespace SemanticDiff.Catalog

open SemanticDiff.Feature (Snapshot)
open SemanticDiff.Outline (Key Node NodeKind Pair SourceUnit)
open SemanticDiff.Source (Span)

/-- On which sides a node exists. -/
inductive Scope where
  | added
  | removed
  | changed
deriving DecidableEq, Repr

namespace Scope

/-- The name of a scope. -/
def name : Scope → String
  | .added => "added"
  | .removed => "removed"
  | .changed => "changed"

end Scope

/-- A node on one side. -/
structure Side where
  span : Span
  features : Snapshot

namespace Side

/-- A node of a unit. -/
def ofNode (unit : SourceUnit) (node : Node) : Side where
  span := node.span
  features := Feature.extract unit node

end Side

/-- A node on both sides, as far as it exists. -/
structure Context where
  key : Key
  kind : NodeKind
  before : Option Side
  after : Option Side

namespace Context

/-- On which sides the node exists. -/
def scope (context : Context) : Scope :=
  match context.before, context.after with
  | some _, some _ => .changed
  | none, _ => .added
  | some _, none => .removed

/-- The features on both sides, if the node exists on both. -/
def snapshots? (context : Context) : Option (Snapshot × Snapshot) :=
  match context.before, context.after with
  | some before, some after => some (before.features, after.features)
  | _, _ => none

/-- The contexts of a pair of nodes.  A node that changed its kind is one node
removed and another one added. -/
def ofPair (before after : SourceUnit) : Pair Node → List Context
  | .matched key old new =>
      if old.kind = new.kind then
        [{ key, kind := new.kind, before := some (.ofNode before old),
           after := some (.ofNode after new) }]
      else
        [{ key, kind := old.kind, before := some (.ofNode before old), after := none },
          { key, kind := new.kind, before := none, after := some (.ofNode after new) }]
  | .removed key old =>
      [{ key, kind := old.kind, before := some (.ofNode before old), after := none }]
  | .added key new =>
      [{ key, kind := new.kind, before := none, after := some (.ofNode after new) }]

end Context

/-- The contexts of two units, in the order of their keys. -/
def contexts (before after : SourceUnit) : List Context :=
  (Outline.matchUnits before after).flatMap (Context.ofPair before after)

end SemanticDiff.Catalog
