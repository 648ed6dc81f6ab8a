import SemanticDiff.Collection.SortedMap
import SemanticDiff.Event.Type
import SemanticDiff.Outline.Basic

/-!
# Events

A draft is a change as a rule reports it: its type and its details.  An event is
a draft tied to the file, the revision, the node and the rule it came from, with
its position among the events of the file.
-/

namespace SemanticDiff

open SemanticDiff.Outline (Key NodeKind)

/-- A value among the details of an event. -/
inductive Detail where
  | flag (set : Bool)
  | int (number : Int)
  | text (text : String)
deriving DecidableEq, Repr

/-- The details of an event, by name. -/
abbrev Details := SortedMap Detail

/-- A change as a rule reports it. -/
structure Draft where
  type : EventType
  details : Details
deriving DecidableEq

namespace Draft

/-- A draft without details. -/
def ofType (type : EventType) : Draft where
  type := type
  details := SortedMap.empty

/-- Add a detail. -/
def withDetail (draft : Draft) (name : String) (detail : Detail) : Draft where
  type := draft.type
  details := draft.details.insert name detail

/-- A change from one value to another. -/
def transition (type : EventType) (before after : Detail) : Draft :=
  ((ofType type).withDetail "from" before).withDetail "to" after

end Draft

/-- A change of one node of one file. -/
structure Event where
  type : EventType
  key : Key
  path : String
  kind : NodeKind
  details : Details
  revision : String
  rule : String
  order : Nat
deriving DecidableEq

end SemanticDiff
