import SemanticDiff.Event.Codec
import SemanticDiff.Text.Quoted

/-!
# Event logs

Events are appended to a log as they arise, either as they are or as lines of
text.
-/

namespace SemanticDiff

/-- A text with one event on every line, and the number of events in it. -/
structure LineLog where
  text : String
  written : Nat

namespace LineLog

/-- The log without events. -/
def empty : LineLog where
  text := ""
  written := 0

/-- Append one event. -/
def push (log : LineLog) (event : Event) : LineLog where
  text := log.text ++ event.line ++ "\n"
  written := log.written + 1

/-- Append events in their order. -/
def append (log : LineLog) (events : List Event) : LineLog :=
  events.foldl push log

end LineLog

/-- Events kept as they are. -/
structure EventLog where
  events : List Event

namespace EventLog

/-- The log without events. -/
def empty : EventLog where
  events := []

/-- Append events in their order. -/
def append (log : EventLog) (events : List Event) : EventLog where
  events := log.events ++ events

end EventLog

namespace Detail

/-- A detail as it is shown to a reader. -/
def shown : Detail → String
  | .flag set => if set then "true" else "false"
  | .int number => String.ofList (Json.digits number)
  | .text content => Text.quoted content

end Detail

namespace Details

/-- Details as they are shown to a reader: `name=value`, parted by blanks. -/
def shown (details : Details) : String :=
  " ".intercalate (details.entries.map fun entry => entry.1 ++ "=" ++ entry.2.shown)

end Details

end SemanticDiff
