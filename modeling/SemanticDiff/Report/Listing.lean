import SemanticDiff.Report.Structured

/-!
# Listings

A report for a reader at a terminal, with colours if they are wanted.
-/

namespace SemanticDiff.Report

/-- How a piece of text is shown. -/
inductive Style where
  | title
  | path
  | faint
  | strong
  | gain
  | loss
  | shift

namespace Style

/-- The numbers that select a style at a terminal. -/
def codes : Style → String
  | title => "1;36"
  | path => "34"
  | faint => "2"
  | strong => "1"
  | gain => "32"
  | loss => "31"
  | shift => "33"

end Style

/-- The sequence that ends a style. -/
def resetCode : String := "\x1b[0m"

/-- A text in a style, if colours are wanted.  Where the text itself ends a style,
its own style begins again. -/
def styled (colours : Bool) (style : Style) (text : String) : String :=
  if colours then
    let code := "\x1b[" ++ style.codes ++ "m"
    code ++ text.replace resetCode (resetCode ++ code) ++ resetCode
  else text

/-- Fill a text up to a width with blanks after it. -/
def padRight (width : Nat) (text : String) : String :=
  text ++ String.ofList (List.replicate (width - text.length) ' ')

/-- Fill a text up to a width with blanks before it. -/
def padLeft (width : Nat) (text : String) : String :=
  String.ofList (List.replicate (width - text.length) ' ') ++ text

/-- Whether an event type is about something new, something gone, or something
that changed. -/
def tone (type : EventType) : Style :=
  let name := type.name
  if name.endsWith "_added" || name.endsWith "_introduced" || name.endsWith "_adopted" ||
      name == "function_made_async" then .gain
  else if name.endsWith "_removed" || name == "function_made_sync" then .loss
  else .shift

/-- The line of an event. -/
def eventLine (colours : Bool) (event : Event) : String :=
  "    " ++ styled colours (tone event.type) (padRight 32 event.type.name) ++ " " ++
    styled colours .strong event.key.text ++
    (if event.details.entries.isEmpty then ""
    else "  " ++ styled colours .faint event.details.shown) ++ "\n"

/-- The lines of a file. -/
def fileLines (colours : Bool) (diff : FileDiff) : String :=
  let path := styled colours .path diff.path
  (match diff.result with
    | .ok [] => "  " ++ path ++ "  " ++ styled colours .faint "no semantic changes" ++ "\n"
    | .ok events =>
        "  " ++ path ++ " (" ++ toString events.length ++ "):\n" ++
          String.join (events.map (eventLine colours))
    | .error error =>
        "  " ++ path ++ "  " ++ styled colours .loss "ERROR" ++ " " ++ error.message ++ "\n") ++
    "\n"

/-- The line with the totals. -/
def totalLine (colours : Bool) (diffs : List FileDiff) : String :=
  let failed := (diffs.filter FileDiff.isFailed).length
  let events := (diffs.flatMap FileDiff.events).length
  let noun := if events = 1 then "event" else "events"
  "  " ++
    styled colours .faint (s!"{diffs.length} file(s), {events} " ++ noun) ++
    (if failed > 0 then "  " ++ styled colours .loss s!"{failed} failed" else "") ++ "\n"

/-- The report for a reader. -/
def listing (colours : Bool) (diffs : List FileDiff) : String :=
  "\n  " ++ styled colours .title "svcs" ++ " v" ++ version ++ "\n\n" ++
    String.join (diffs.map (fileLines colours)) ++ totalLine colours diffs

/-- The forms of a report. -/
inductive Format where
  | listing
  | document
  | lines
deriving DecidableEq, Repr

namespace Format

/-- The form of a name. -/
def ofName? (name : String) : Option Format :=
  if name = "pretty" then some .listing
  else if name = "json" then some .document
  else if name = "jsonl" then some .lines
  else none

end Format

/-- A report in one of its forms. -/
def render (format : Format) (colours : Bool) (diffs : List FileDiff) : String :=
  match format with
  | .listing => Report.listing colours diffs
  | .document => Report.document diffs
  | .lines => Report.lines diffs

end SemanticDiff.Report
