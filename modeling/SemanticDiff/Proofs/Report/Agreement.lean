import Mathlib.Data.List.Forall2
import SemanticDiff.Proofs.Command.Reported
import SemanticDiff.Proofs.Event.Persistence
import SemanticDiff.Report.Reading

/-!
# The forms of a report tell the same

A report that was written as a document is read back as it was.  The lines of the
same report are the events of that document, the listing ends with its totals, and
the exit code says whether it counts a failure.
-/

namespace SemanticDiff.Report

open SemanticDiff.Json (Gathers Recovers Spacing spaced)
open SemanticDiff.Files (Disk)
open SemanticDiff.Command (Outcome emit emit_none emit_of_appendText_eq_error
  emit_of_appendText_eq_ok)

variable {spacing : Spacing} {level : Nat}

/-! ## Reading documents -/

namespace FileEntry

/-- The fields of an entry are read one after the other, and then it is complete. -/
theorem exists_gathers_readPart {entry : FileEntry}
    (fit : ∀ event ∈ entry.events, event.FitsWords) :
    ∃ fields parts, entry.toJson = .record fields ∧
      Gathers spacing (level + 1) Parts.readPart {} fields parts ∧
      parts.entry? = some entry := by
  have file : Recovers Json.readString entry.file
      (spaced spacing (level + 1) (.text entry.file)) :=
    Json.recovers_readString entry.file
  have events : Recovers (Json.readList Event.reader) entry.events
      (spaced spacing (level + 1) (.list (entry.events.map Event.toJson))) :=
    Json.recovers_readList fun event member => Event.recovers_reader (fit event member)
  rcases entry with ⟨path, error, listed⟩
  cases error with
  | none =>
      refine ⟨_, { file := some path, events := some listed }, rfl, ?_, rfl⟩
      apply Gathers.next_new file
      · intro chars
        simp only [Parts.readPart, if_true]
        rfl
      apply Gathers.next_new events
      · intro chars
        simp only [Parts.readPart, String.reduceEq, if_true, if_false]
        rfl
      exact .done _
  | some message =>
      refine ⟨_, { file := some path, error := some (some message), events := some listed }, rfl,
        ?_, rfl⟩
      apply Gathers.next_new file
      · intro chars
        simp only [Parts.readPart, if_true]
        rfl
      apply Gathers.next_new (Json.recovers_readOptional message)
      · intro chars
        simp only [Parts.readPart, String.reduceEq, if_true, if_false]
        rfl
      apply Gathers.next_new events
      · intro chars
        simp only [Parts.readPart, String.reduceEq, if_true, if_false]
        rfl
      exact .done _

/-- An entry is read back. -/
theorem recovers_reader {entry : FileEntry} (fit : ∀ event ∈ entry.events, event.FitsWords) :
    Recovers reader entry (spaced spacing level entry.toJson) := by
  obtain ⟨fields, parts, written, gathers, complete⟩ := exists_gathers_readPart fit
  rw [written]
  exact gathers.recovers_readRecord complete readListed

end FileEntry

namespace Summary

/-- The numbers of a report are those of 64 bits. -/
structure FitsWords (summary : Summary) : Prop where
  filesDiffed : summary.filesDiffed < Json.Number.unsignedLimit
  filesFailed : summary.filesFailed < Json.Number.unsignedLimit
  eventCount : summary.eventCount < Json.Number.unsignedLimit
  events : ∀ entry ∈ summary.files, ∀ event ∈ entry.events, event.FitsWords

/-- The fields of a report are read one after the other, and then it is complete. -/
theorem exists_gathers_readPart {summary : Summary} (fits : summary.FitsWords) :
    ∃ fields parts, summary.toJson = .record fields ∧
      Gathers spacing (level + 1) Parts.readPart {} fields parts ∧
      parts.summary? = some summary := by
  refine ⟨_, ?parts, rfl, ?gathers, ?complete⟩
  case gathers =>
    apply Gathers.next_new (Json.recovers_readString _)
    · intro chars
      simp only [Parts.readPart, if_true]
      rfl
    apply Gathers.next_new (Json.recovers_readNatural fits.filesDiffed)
    · intro chars
      simp only [Parts.readPart, String.reduceEq, if_true, if_false]
      rfl
    apply Gathers.next_new (Json.recovers_readNatural fits.filesFailed)
    · intro chars
      simp only [Parts.readPart, String.reduceEq, if_true, if_false]
      rfl
    apply Gathers.next_new (Json.recovers_readNatural fits.eventCount)
    · intro chars
      simp only [Parts.readPart, String.reduceEq, if_true, if_false]
      rfl
    apply Gathers.next_new (Json.recovers_readList fun entry member =>
      FileEntry.recovers_reader (fits.events entry member))
    · intro chars
      simp only [Parts.readPart, String.reduceEq, if_true, if_false]
      rfl
    exact .done _
  case complete => rfl

/-- A report is read back. -/
theorem recovers_reader {summary : Summary} (fits : summary.FitsWords) :
    Recovers reader summary (spaced spacing level summary.toJson) := by
  obtain ⟨fields, parts, written, gathers, complete⟩ := exists_gathers_readPart fits
  rw [written]
  exact gathers.recovers_readRecord complete readListed

/-- A report is read back from several lines, with a line break after them. -/
theorem read_indented {summary : Summary} (fits : summary.FitsWords) :
    read (summary.toJson.indented ++ "\n") = .ok summary := by
  have recovers : Recovers reader summary (spaced .lines 0 summary.toJson) := recovers_reader fits
  rw [← Json.indentedChars_eq_spaced] at recovers
  have ends : Json.AreBlanks ['\n'] := by simp [Json.AreBlanks, Json.isBlank]
  have made := recovers.readWhole ends
  rwa [String.ofList_append] at made

end Summary

/-! ## Totals -/

/-- What an entry has to say about a file. -/
structure FileEntry.Tells (diff : FileDiff) (entry : FileEntry) : Prop where
  file : entry.file = diff.path
  error : entry.error = diff.error?.map DiffError.message
  error_isSome : entry.error.isSome = diff.isFailed
  events : entry.events = diff.events

theorem FileEntry.tells_ofDiff (diff : FileDiff) : FileEntry.Tells diff (FileEntry.ofDiff diff) where
  file := rfl
  error := rfl
  error_isSome := Option.isSome_map
  events := rfl

theorem flatMap_events_ofDiffs (diffs : List FileDiff) :
    (Summary.ofDiffs diffs).files.flatMap FileEntry.events = diffs.flatMap FileDiff.events :=
  List.flatMap_map ..

theorem eventCount_ofDiffs (diffs : List FileDiff) :
    (Summary.ofDiffs diffs).eventCount = (diffs.flatMap FileDiff.events).length :=
  congrArg List.length (flatMap_events_ofDiffs diffs)

theorem filesFailed_ofDiffs (diffs : List FileDiff) :
    (Summary.ofDiffs diffs).filesFailed = (diffs.filter FileDiff.isFailed).length := by
  have same : (fun entry : FileEntry => entry.error.isSome) ∘ FileEntry.ofDiff =
      FileDiff.isFailed :=
    funext fun diff => (FileEntry.tells_ofDiff diff).error_isSome
  rw [Summary.ofDiffs, List.filter_map, List.length_map, same]

/-- The line with the totals of a report. -/
def totals (colours : Bool) (summary : Summary) : String :=
  let noun := if summary.eventCount = 1 then "event" else "events"
  "  " ++
    styled colours .faint (s!"{summary.filesDiffed} file(s), {summary.eventCount} " ++ noun) ++
    (if summary.filesFailed > 0 then "  " ++ styled colours .loss s!"{summary.filesFailed} failed"
    else "")

theorem totalLine_eq_totals (colours : Bool) (diffs : List FileDiff) :
    totalLine colours diffs = totals colours (Summary.ofDiffs diffs) ++ "\n" := by
  rw [totalLine, totals, filesFailed_ofDiffs, eventCount_ofDiffs]
  rfl

example : totals false ⟨version, 3, 1, 2, []⟩ = "  3 file(s), 2 events  1 failed" := by decide

/-- The totals stand on a line of their own at the end of a listing. -/
theorem exists_listing_eq (colours : Bool) (diffs : List FileDiff) :
    ∃ above, listing colours diffs =
      above ++ "\n" ++ totals colours (Summary.ofDiffs diffs) ++ "\n" := by
  let title := "\n  " ++ styled colours .title "svcs" ++ " v" ++ version
  have ends : ∃ above, title ++ "\n\n" ++ String.join (diffs.map (fileLines colours)) =
      above ++ "\n" := by
    rcases List.eq_nil_or_concat diffs with rfl | ⟨earlier, last, rfl⟩
    · refine ⟨title ++ "\n", ?_⟩
      have twice : "\n\n" = "\n" ++ "\n" := by decide
      rw [List.map_nil, String.join_nil, String.append_empty, twice]
      exact String.append_assoc.symm
    · obtain ⟨body, lines⟩ : ∃ body, fileLines colours last = body ++ "\n" := ⟨_, rfl⟩
      refine ⟨title ++ "\n\n" ++ String.join (earlier.map (fileLines colours)) ++ body, ?_⟩
      rw [List.concat_eq_append, List.map_append, List.map_singleton, lines]
      simp [String.append_assoc]
  obtain ⟨above, whole⟩ := ends
  refine ⟨above, ?_⟩
  rw [listing, totalLine_eq_totals, ← String.append_assoc, ← whole]

/-! ## Agreement -/

/-- The exit code and the report count failures alike. -/
theorem any_isFailed_iff (diffs : List FileDiff) :
    diffs.any FileDiff.isFailed = true ↔ 0 < (Summary.ofDiffs diffs).filesFailed := by
  rw [filesFailed_ofDiffs, List.length_pos_iff, List.any_eq_true]
  simp [List.filter_eq_nil_iff]

/-- What becomes of printing a report and appending its events to a file: it fails only
where the file cannot be opened, and else the exit code tells whether a file failed. -/
structure IsEmitted (diffs : List FileDiff) (disk : Disk) (format : Format)
    (append : Option String) (outcome : Outcome) : Prop where
  stdout : outcome.stdout = render format false diffs
  failure : outcome.failure = none ↔
    ∀ path ∈ append, ∃ after, disk.appendText path (lines diffs) = .ok after
  exit : outcome.failure = none →
    outcome.exit = if 0 < (Summary.ofDiffs diffs).filesFailed then 1 else 0

theorem isEmitted_emit (disk : Disk) (format : Format) (append : Option String)
    (diffs : List FileDiff) :
    IsEmitted diffs disk format append (emit disk format append diffs) := by
  have code : (if diffs.any FileDiff.isFailed then Outcome.failed else Outcome.success) =
      if 0 < (Summary.ofDiffs diffs).filesFailed then 1 else 0 :=
    if_congr (any_isFailed_iff diffs) rfl rfl
  cases append with
  | none => exact ⟨rfl, by simp [emit_none, Outcome.printed], fun _ => code⟩
  | some path =>
      cases opened : disk.appendText path (lines diffs) with
      | ok after =>
          rw [emit_of_appendText_eq_ok format diffs opened]
          exact ⟨rfl, by simp [Outcome.printed, opened], fun _ => code⟩
      | error error =>
          rw [emit_of_appendText_eq_error format diffs opened]
          exact ⟨rfl, by simp [Outcome.broken, opened], by simp [Outcome.broken]⟩

/-- The forms of a report on some files tell the same. -/
structure FormsAgree (diffs : List FileDiff) : Prop where
  /-- The document is read back as the report. -/
  read_document : Summary.read (document diffs) = .ok (Summary.ofDiffs diffs)
  /-- The report has an entry for every file, in their order. -/
  tells : List.Forall₂ FileEntry.Tells diffs (Summary.ofDiffs diffs).files
  filesDiffed : (Summary.ofDiffs diffs).filesDiffed = diffs.length
  filesFailed : (Summary.ofDiffs diffs).filesFailed = (diffs.filter FileDiff.isFailed).length
  eventCount : (Summary.ofDiffs diffs).eventCount =
    (diffs.map fun diff => diff.events.length).sum
  /-- The lines are the events of the entries, one after the other. -/
  read_lines : (linesOf (lines diffs)).mapM Event.read =
    .ok ((Summary.ofDiffs diffs).files.flatMap FileEntry.events)
  /-- The listing ends with the totals of the report. -/
  listing : ∀ colours, ∃ above, Report.listing colours diffs =
    above ++ "\n" ++ totals colours (Summary.ofDiffs diffs) ++ "\n"
  /-- The exit code tells whether the report counts a failure. -/
  emit : ∀ disk format append,
    IsEmitted diffs disk format append (Command.emit disk format append diffs)

/-- The lines of a report are those of a log to which the events of one file after the
other were appended. -/
theorem lines_eq_text (diffs : List FileDiff) :
    lines diffs = ((diffs.map FileDiff.events).foldl LineLog.append LineLog.empty).text := by
  rw [lines, List.foldl_map]

/-- The forms of a report agree on any files, as long as the numbers in them are those of
64 bits. -/
theorem formsAgree (diffs : List FileDiff)
    (fewFiles : diffs.length < Json.Number.unsignedLimit)
    (fewEvents : (diffs.flatMap FileDiff.events).length < Json.Number.unsignedLimit)
    (fit : ∀ diff ∈ diffs, ∀ event ∈ diff.events, event.FitsWords) : FormsAgree diffs where
  read_document := by
    apply Summary.read_indented
    exact {
      filesDiffed := fewFiles
      filesFailed := by
        rw [filesFailed_ofDiffs]
        exact Nat.lt_of_le_of_lt (List.length_filter_le ..) fewFiles
      eventCount := by rwa [eventCount_ofDiffs]
      events := by
        intro entry member
        obtain ⟨diff, listed, rfl⟩ := List.mem_map.1 member
        exact fit diff listed }
  tells :=
    List.forall₂_map_right_iff.2 <|
      List.forall₂_same.2 fun diff _ => FileEntry.tells_ofDiff diff
  filesDiffed := rfl
  filesFailed := filesFailed_ofDiffs diffs
  eventCount := by rw [eventCount_ofDiffs, List.length_flatMap]
  read_lines := by
    have each : ∀ event ∈ (diffs.map FileDiff.events).flatten, event.FitsWords := by
      intro event member
      obtain ⟨diff, listed, here⟩ := List.mem_flatMap.1 member
      exact fit diff listed event here
    rw [lines_eq_text, LineLog.linesOf_text, mapM_read_line each, flatMap_events_ofDiffs]
    rfl
  listing := fun colours => exists_listing_eq colours diffs
  emit := fun disk format append => isEmitted_emit disk format append diffs

/-- Files of which one failed, one has events and one has not changed. -/
def mixedDiffs : List FileDiff :=
  [{ path := "broken\n.py", result := .error (.unsupported "broken\n.py") },
    { path := "\"é.py", result := .ok [Event.awkward, Event.awkward] },
    { path := "", result := .ok [] }]

theorem formsAgree_mixedDiffs :
    (Summary.ofDiffs mixedDiffs).filesFailed = 1 ∧ (Summary.ofDiffs mixedDiffs).eventCount = 2 ∧
      FormsAgree mixedDiffs := by
  have fits : Event.awkward.FitsWords := ⟨by decide, by decide +kernel⟩
  have fit : ∀ diff ∈ mixedDiffs, ∀ event ∈ diff.events, event.FitsWords := by
    simp [mixedDiffs, FileDiff.events, fits]
  exact ⟨rfl, rfl, formsAgree mixedDiffs (by decide) (by decide) fit⟩

end SemanticDiff.Report
