import SemanticDiff.Collection.SortedMap
import SemanticDiff.Outline.Build

/-!
# Pairing

Two collections of keyed items are joined by their keys.  Every key of either
side gives one pair, in the order of the keys.
-/

namespace SemanticDiff.Outline

/-- The items of one key on the two sides; at least one side has an item. -/
inductive Pair (α : Type) where
  | added (key : Key) (after : α)
  | removed (key : Key) (before : α)
  | matched (key : Key) (before after : α)
deriving DecidableEq, Repr

namespace Pair

variable {α : Type}

/-- The key of a pair. -/
def key : Pair α → Key
  | added key _ => key
  | removed key _ => key
  | matched key _ _ => key

/-- The item before. -/
def before? : Pair α → Option α
  | added _ _ => none
  | removed _ before => some before
  | matched _ before _ => some before

/-- The item after. -/
def after? : Pair α → Option α
  | added _ after => some after
  | removed _ _ => none
  | matched _ _ after => some after

/-- The pair of a key with the items of its two sides. -/
def ofSides? (key : Key) : Option α → Option α → Option (Pair α)
  | some before, some after => some (matched key before after)
  | some before, none => some (removed key before)
  | none, some after => some (added key after)
  | none, none => none

end Pair

variable {α : Type}

/-- The two sides of every key; of items with one key the last one stays. -/
def sides (before after : List (Key × α)) : SortedMap (Option α × Option α) :=
  let withBefore := before.foldl
    (fun map item =>
      map.insert item.1.text (some item.2, ((map.get? item.1.text).getD (none, none)).2))
    SortedMap.empty
  after.foldl
    (fun map item =>
      map.insert item.1.text (((map.get? item.1.text).getD (none, none)).1, some item.2))
    withBefore

/-- Join two collections by their keys. -/
def pairByKey (before after : List (Key × α)) : List (Pair α) :=
  (sides before after).entries.filterMap fun entry =>
    Pair.ofSides? { text := entry.1 } entry.2.1 entry.2.2

/-- Join the nodes of two units. -/
def matchUnits (before after : SourceUnit) : List (Pair Node) :=
  pairByKey (before.nodes.map fun node => (node.key, node))
    (after.nodes.map fun node => (node.key, node))

end SemanticDiff.Outline
