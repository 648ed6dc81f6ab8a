import SemanticDiff.Event.Basic
import SemanticDiff.Json.Basic
import SemanticDiff.Json.Reading

/-!
# Events as JSON

An event is written as a record with one field for each of its parts, always in
the same order.  It is read from a record with these fields in any order, or from
a list of the parts.
-/

namespace SemanticDiff

open SemanticDiff.Json (Reader ReadError)
open SemanticDiff.Outline (Key NodeKind)

namespace Detail

/-- A detail as JSON. -/
def toJson : Detail → Json
  | .flag set => .flag set
  | .int number => .int number
  | .text content => .text content

/-- The depth to which brackets may nest below a detail. -/
def depthLimit : Nat := 125

/-- Read a detail. -/
def read : Reader Detail := fun chars =>
  match Json.skipBlanks chars with
  | [] => .error .truncated
  | c :: rest =>
      let number (negative : Bool) (chars : List Char) :
          Except ReadError (Detail × List Char) := do
        match ← Json.readNumber negative chars with
        | (.int value, rest) =>
            if value < Json.Number.signedLimit then return (.int value, rest)
            else .error .unexpected
        | (.real, _) => .error .unexpected
      if c = '"' then (Json.readText rest).map fun result => (.text result.1, result.2)
      else if c = 't' then
        (Json.readWord ['r', 'u', 'e'] rest).map fun rest => (.flag true, rest)
      else if c = 'f' then
        (Json.readWord ['a', 'l', 's', 'e'] rest).map fun rest => (.flag false, rest)
      else if c = '-' then number true rest
      else if c.isDigit then number false (c :: rest)
      else do
        let _ ← Json.skip (.full depthLimit) (c :: rest)
        .error .unexpected

end Detail

namespace Details

/-- Details as JSON. -/
def toJson (details : Details) : Json :=
  .record (details.entries.map fun entry => (entry.1, entry.2.toJson))

/-- Read details; of details with one name the last one stays. -/
def read : Reader Details := fun chars =>
  match Json.skipBlanks chars with
  | '\x7b' :: rest =>
      Json.readFields
        (fun (details : Details) name chars => do
          let chars ← Json.readColon chars
          let (detail, rest) ← Detail.read chars
          return (details.insert name detail, rest))
        (rest.length + 1) true SortedMap.empty rest
  | other => .error (Json.mismatchAt other)

end Details

namespace Event

/-- An event as JSON. -/
def toJson (event : Event) : Json :=
  .record
    [("event_type", .text event.type.name),
      ("qualified_key", .text event.key.text),
      ("file_path", .text event.path),
      ("node_kind", .text event.kind.name),
      ("details", event.details.toJson),
      ("revision_id", .text event.revision),
      ("rule", .text event.rule),
      ("order", .int event.order)]

/-- An event on one line. -/
def line (event : Event) : String :=
  event.toJson.compact

/-- The parts of an event that have been read so far. -/
structure Parts where
  type : Option EventType := none
  key : Option String := none
  path : Option String := none
  kind : Option NodeKind := none
  details : Option Details := none
  revision : Option String := none
  rule : Option String := none
  order : Option Nat := none

namespace Parts

/-- The event, once all parts are there. -/
def event? (parts : Parts) : Option Event := do
  return {
    type := ← parts.type
    key := { text := ← parts.key }
    path := ← parts.path
    kind := ← parts.kind
    details := ← parts.details
    revision := ← parts.revision
    rule := ← parts.rule
    order := ← parts.order }

/-- Read the part of a name.  Fields of other names are stepped over. -/
def readPart (parts : Parts) (name : String) : Reader Parts := fun chars =>
  if name = "event_type" then
    Json.readNew parts.type (Json.readNamed EventType.ofName?)
      (fun value => { parts with type := some value }) chars
  else if name = "qualified_key" then
    Json.readNew parts.key Json.readString (fun value => { parts with key := some value }) chars
  else if name = "file_path" then
    Json.readNew parts.path Json.readString (fun value => { parts with path := some value }) chars
  else if name = "node_kind" then
    Json.readNew parts.kind (Json.readNamed NodeKind.ofName?)
      (fun value => { parts with kind := some value }) chars
  else if name = "details" then
    Json.readNew parts.details Details.read
      (fun value => { parts with details := some value }) chars
  else if name = "revision_id" then
    Json.readNew parts.revision Json.readString
      (fun value => { parts with revision := some value }) chars
  else if name = "rule" then
    Json.readNew parts.rule Json.readString (fun value => { parts with rule := some value }) chars
  else if name = "order" then
    Json.readNew parts.order Json.readNatural
      (fun value => { parts with order := some value }) chars
  else Json.skipField parts chars

end Parts

/-- Read the parts of an event from a list, after its opening bracket. -/
def readListed : Reader Event := fun chars => do
  let (type, chars) ← Json.readNamed EventType.ofName? (← Json.nextItem true chars)
  let (key, chars) ← Json.readString (← Json.nextItem false chars)
  let (path, chars) ← Json.readString (← Json.nextItem false chars)
  let (kind, chars) ← Json.readNamed NodeKind.ofName? (← Json.nextItem false chars)
  let (details, chars) ← Details.read (← Json.nextItem false chars)
  let (revision, chars) ← Json.readString (← Json.nextItem false chars)
  let (rule, chars) ← Json.readString (← Json.nextItem false chars)
  let (order, chars) ← Json.readNatural (← Json.nextItem false chars)
  let rest ← Json.endList chars
  return ({ type, key := { text := key }, path, kind, details, revision, rule, order }, rest)

/-- Read an event. -/
def reader : Reader Event :=
  Json.readRecord {} Parts.readPart Parts.event? readListed

/-- Read an event from a text that holds nothing else. -/
def read (text : String) : Except ReadError Event :=
  Json.readWhole reader text

end Event

end SemanticDiff
