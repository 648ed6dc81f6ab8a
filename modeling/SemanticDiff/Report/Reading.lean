import SemanticDiff.Report.Structured

/-!
# Reading reports

A report that was written as one document is read back like an event: from records
with their fields in any order, or from lists of the parts.  An entry of a file need
not mention an error.
-/

namespace SemanticDiff.Report

open SemanticDiff.Json (Reader ReadError)

namespace FileEntry

/-- The parts of an entry that have been read so far. -/
structure Parts where
  file : Option String := none
  error : Option (Option String) := none
  events : Option (List Event) := none

namespace Parts

/-- The entry, once all parts are there that cannot be left out. -/
def entry? (parts : Parts) : Option FileEntry := do
  return {
    file := ← parts.file
    error := parts.error.getD none
    events := ← parts.events }

/-- Read the part of a name.  Fields of other names are stepped over. -/
def readPart (parts : Parts) (name : String) : Reader Parts := fun chars =>
  if name = "file" then
    Json.readNew parts.file Json.readString (fun value => { parts with file := some value }) chars
  else if name = "error" then
    Json.readNew parts.error (Json.readOptional Json.readString)
      (fun value => { parts with error := some value }) chars
  else if name = "events" then
    Json.readNew parts.events (Json.readList Event.reader)
      (fun value => { parts with events := some value }) chars
  else Json.skipField parts chars

end Parts

/-- Read the parts of an entry from a list, after its opening bracket. -/
def readListed : Reader FileEntry := fun chars => do
  let (file, chars) ← Json.readString (← Json.nextItem true chars)
  let (error, chars) ← Json.readOptional Json.readString (← Json.nextItem false chars)
  let (events, chars) ← Json.readList Event.reader (← Json.nextItem false chars)
  let rest ← Json.endList chars
  return ({ file, error, events }, rest)

/-- Read an entry. -/
def reader : Reader FileEntry :=
  Json.readRecord {} Parts.readPart Parts.entry? readListed

end FileEntry

namespace Summary

/-- The parts of a report that have been read so far. -/
structure Parts where
  version : Option String := none
  filesDiffed : Option Nat := none
  filesFailed : Option Nat := none
  eventCount : Option Nat := none
  files : Option (List FileEntry) := none

namespace Parts

/-- The report, once all parts are there. -/
def summary? (parts : Parts) : Option Summary := do
  return {
    version := ← parts.version
    filesDiffed := ← parts.filesDiffed
    filesFailed := ← parts.filesFailed
    eventCount := ← parts.eventCount
    files := ← parts.files }

/-- Read the part of a name.  Fields of other names are stepped over. -/
def readPart (parts : Parts) (name : String) : Reader Parts := fun chars =>
  if name = "version" then
    Json.readNew parts.version Json.readString
      (fun value => { parts with version := some value }) chars
  else if name = "files_diffed" then
    Json.readNew parts.filesDiffed Json.readNatural
      (fun value => { parts with filesDiffed := some value }) chars
  else if name = "files_failed" then
    Json.readNew parts.filesFailed Json.readNatural
      (fun value => { parts with filesFailed := some value }) chars
  else if name = "event_count" then
    Json.readNew parts.eventCount Json.readNatural
      (fun value => { parts with eventCount := some value }) chars
  else if name = "files" then
    Json.readNew parts.files (Json.readList FileEntry.reader)
      (fun value => { parts with files := some value }) chars
  else Json.skipField parts chars

end Parts

/-- Read the parts of a report from a list, after its opening bracket. -/
def readListed : Reader Summary := fun chars => do
  let (version, chars) ← Json.readString (← Json.nextItem true chars)
  let (filesDiffed, chars) ← Json.readNatural (← Json.nextItem false chars)
  let (filesFailed, chars) ← Json.readNatural (← Json.nextItem false chars)
  let (eventCount, chars) ← Json.readNatural (← Json.nextItem false chars)
  let (files, chars) ← Json.readList FileEntry.reader (← Json.nextItem false chars)
  let rest ← Json.endList chars
  return ({ version, filesDiffed, filesFailed, eventCount, files }, rest)

/-- Read a report. -/
def reader : Reader Summary :=
  Json.readRecord {} Parts.readPart Parts.summary? readListed

/-- Read a report from a text that holds nothing else. -/
def read (text : String) : Except ReadError Summary :=
  Json.readWhole reader text

end Summary

end SemanticDiff.Report
