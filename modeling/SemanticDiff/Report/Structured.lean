import SemanticDiff.Engine.Batch
import SemanticDiff.Event.Log

/-!
# Structured reports

A report as one JSON document with its totals and an entry for every file, or as
lines with one event each.
-/

namespace SemanticDiff.Report

/-- The version that reports carry. -/
def version : String := "0.1.0"

/-- What a report says about one file. -/
structure FileEntry where
  file : String
  error : Option String
  events : List Event
deriving DecidableEq

/-- A report with its totals. -/
structure Summary where
  version : String
  filesDiffed : Nat
  filesFailed : Nat
  eventCount : Nat
  files : List FileEntry
deriving DecidableEq

namespace FileEntry

/-- The entry of a file. -/
def ofDiff (diff : FileDiff) : FileEntry where
  file := diff.path
  error := diff.error?.map DiffError.message
  events := diff.events

/-- The entry as JSON; an error is mentioned only if there is one. -/
def toJson (entry : FileEntry) : Json :=
  .record
    ([("file", .text entry.file)] ++
      (entry.error.map fun error => ("error", Json.text error)).toList ++
      [("events", .list (entry.events.map Event.toJson))])

end FileEntry

namespace Summary

/-- The report on some files. -/
def ofDiffs (diffs : List FileDiff) : Summary :=
  let files := diffs.map FileEntry.ofDiff
  { version := Report.version
    filesDiffed := diffs.length
    filesFailed := (files.filter fun file => file.error.isSome).length
    eventCount := (files.flatMap fun file => file.events).length
    files }

/-- The report as JSON. -/
def toJson (summary : Summary) : Json :=
  .record
    [("version", .text summary.version),
      ("files_diffed", .int summary.filesDiffed),
      ("files_failed", .int summary.filesFailed),
      ("event_count", .int summary.eventCount),
      ("files", .list (summary.files.map FileEntry.toJson))]

end Summary

/-- The report as one document. -/
def document (diffs : List FileDiff) : String :=
  (Summary.ofDiffs diffs).toJson.indented ++ "\n"

/-- All events of a batch, one on every line. -/
def lines (diffs : List FileDiff) : String :=
  (diffs.foldl (fun log diff => log.append diff.events) LineLog.empty).text

end SemanticDiff.Report
