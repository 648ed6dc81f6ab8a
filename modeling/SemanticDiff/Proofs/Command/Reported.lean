import SemanticDiff.Command.Run

/-!
# What commands report

A comparison is refused for one of a few reasons, or it reports on some files.  The
command then does no more than to print that report and to append its events: what it
leaves behind depends on the report alone.
-/

namespace SemanticDiff.Command

open SemanticDiff.Files (Disk FileError)

/-- Why a comparison is refused. -/
inductive Refusal where
  /-- Reports do not have this form. -/
  | format
  /-- The settings cannot be read or are not valid. -/
  | settings
  /-- A side that is named is not there, or neither of the sides exists. -/
  | missingSide
  /-- A side cannot be read as a text. -/
  | unreadable
  /-- The file is of no kind that can be compared. -/
  | unsupported
deriving DecidableEq, Repr

/-- What the comparison of two files reports. -/
def diffReport (disk : Disk) (home config : Option String) (before after : String)
    (path : Option String) (revision : String) (output : Output) :
    Except Refusal (List FileDiff) := do
  let _ ← (readFormat output.format).mapError fun _ => .format
  let engine ← (loadEngine disk home config).mapError fun _ => .settings
  if [before, after].any fun side => !isAbsent side && !disk.hasPath side then
    .error .missingSide
  let old ← (readSide disk before).mapError fun _ => .unreadable
  let new ← (readSide disk after).mapError fun _ => .unreadable
  if old.isNone && new.isNone then .error .missingSide
  let named := path.getD (if new.isSome then after else before)
  let diff := engine.diffChange { path := named, before := old, after := new, revision }
  if diff.error?.any fun error => !error.isUnitError then .error .unsupported
  return [diff]

/-- What the comparison of two directories reports. -/
def treeReport (disk : Disk) (home config : Option String) (before after revision : String)
    (output : Output) : Except Refusal (List FileDiff) := do
  let _ ← (readFormat output.format).mapError fun _ => .format
  if [before, after].any fun side => !disk.hasDirectory side then .error .missingSide
  let engine ← (loadEngine disk home config).mapError fun _ => .settings
  return engine.diffTrees <|
    engine.collectChanges (disk.find before).toOption (disk.find after).toOption revision

/-! ## Reports that are printed -/

section Emit

variable {disk : Disk} (format : Report.Format) (diffs : List FileDiff)

/-- A report is only printed if no file is named. -/
theorem emit_none : emit disk format none diffs =
    .printed disk (Report.render format false diffs)
      (if diffs.any FileDiff.isFailed then Outcome.failed else Outcome.success) :=
  rfl

/-- A report is printed as well if its events are appended. -/
theorem emit_of_appendText_eq_ok {path : String} {after : Disk}
    (appended : disk.appendText path (Report.lines diffs) = .ok after) :
    emit disk format (some path) diffs =
      .printed after (Report.render format false diffs)
        (if diffs.any FileDiff.isFailed then Outcome.failed else Outcome.success) := by
  simp only [emit, appended]

/-- A report is printed even if its events cannot be appended. -/
theorem emit_of_appendText_eq_error {path : String} {error : FileError}
    (refused : disk.appendText path (Report.lines diffs) = .error error) :
    emit disk format (some path) diffs =
      .broken disk (Report.render format false diffs)
        ("failed to open " ++ path ++ ": " ++ error.message) := by
  simp only [emit, refused]

end Emit

/-! ## What commands come to -/

/-- How a command ends by what it reports: a refusal and a report on no files leave the
disk as it was. -/
inductive Ends (disk : Disk) (output : Output) : Except Refusal (List FileDiff) → Outcome → Prop
    where
  | refused {refusal : Refusal} {outcome : Outcome} :
      outcome.exit = Outcome.error → outcome.stdout = "" → outcome.disk = disk →
      Ends disk output (.error refusal) outcome
  | unchanged {outcome : Outcome} :
      outcome.exit = Outcome.success → outcome.stdout = "" → outcome.disk = disk →
      Ends disk output (.ok []) outcome
  | reported {format : Report.Format} {diffs : List FileDiff} :
      readFormat output.format = .ok format → diffs ≠ [] →
      Ends disk output (.ok diffs) (emit disk format output.append diffs)

theorem Ends.ofRefused {disk : Disk} {output : Output} {refusal : Refusal} (message : String) :
    Ends disk output (.error refusal) (.refused disk message) :=
  .refused rfl rfl rfl

theorem Ends.ofBroken {disk : Disk} {output : Output} {refusal : Refusal} (message : String) :
    Ends disk output (.error refusal) (.broken disk "" message) :=
  .refused rfl rfl rfl

/-- A comparison that was made is reported, unless its file is of no kind that can be
compared. -/
theorem ends_compared (disk : Disk) {format : Report.Format} {output : Output} (diff : FileDiff)
    (form : readFormat output.format = .ok format) :
    Ends disk output
      (do
        if diff.error?.any fun error => !error.isUnitError then .error .unsupported
        return [diff])
      (match diff.result with
      | .error error =>
          if error.isUnitError then emit disk format output.append [diff]
          else .refused disk error.message
      | .ok _ => emit disk format output.append [diff]) := by
  rcases diff with ⟨path, result⟩
  have reported : Ends disk output (.ok [⟨path, result⟩])
      (emit disk format output.append [⟨path, result⟩]) :=
    .reported form (List.cons_ne_nil _ _)
  cases result with
  | ok events => exact reported
  | error error =>
      cases ofUnit : error.isUnitError with
      | true => simpa [FileDiff.error?, ofUnit, pure, Except.pure] using reported
      | false => simpa [FileDiff.error?, ofUnit] using .ofRefused _

/-- What is needed for a report is there, or the command is refused. -/
theorem ends_orRefuse {α : Type} {disk : Disk} {output : Output} {result : Except String α}
    {refusal : Refusal} {report : α → Except Refusal (List FileDiff)} {next : α → Outcome}
    (goesOn : ∀ value, result = .ok value → Ends disk output (report value) (next value)) :
    Ends disk output (result.mapError (fun _ => refusal) >>= report)
      (orRefuse disk result next) := by
  cases result with
  | error message => exact .ofRefused message
  | ok value => exact goesOn value rfl

/-- The comparison of two files ends by its report. -/
theorem ends_runDiff (disk : Disk) (home config : Option String) (before after : String)
    (path : Option String) (revision : String) (output : Output) :
    Ends disk output (diffReport disk home config before after path revision output)
      (runDiff disk home config before after path revision output) := by
  unfold diffReport runDiff
  rw [← List.isSome_find?]
  refine ends_orRefuse fun format form => ends_orRefuse fun engine _ => ?_
  cases [before, after].find? fun side => !isAbsent side && !disk.hasPath side with
  | some side => exact .ofRefused _
  | none =>
      cases readSide disk before with
      | error error => exact .ofBroken _
      | ok old =>
          cases readSide disk after with
          | error error => cases old <;> exact .ofBroken _
          | ok new =>
              have compared := ends_compared disk
                (engine.diffChange
                  { path := path.getD (if new.isSome then after else before), before := old,
                    after := new, revision }) form
              cases old with
              | none =>
                  cases new with
                  | none => exact .ofRefused _
                  | some new => exact compared
              | some old => cases new <;> exact compared

theorem diffTrees_eq_nil_iff (engine : Engine) (collected : TreeChanges) :
    engine.diffTrees collected = [] ↔
      (collected.changes.isEmpty && collected.unreadable.isEmpty) = true := by
  rw [← List.length_eq_zero_iff, Engine.diffTrees, List.length_mergeSort, Engine.diffBatch]
  simp

/-- The comparison of two directories ends by its report. -/
theorem ends_runTree (disk : Disk) (home config : Option String)
    (before after revision : String) (output : Output) :
    Ends disk output (treeReport disk home config before after revision output)
      (runTree disk home config before after revision output) := by
  unfold treeReport runTree
  rw [← List.isSome_find?]
  refine ends_orRefuse fun format form => ?_
  cases [before, after].find? fun side => !disk.hasDirectory side with
  | some side => exact .ofRefused _
  | none =>
      refine ends_orRefuse fun engine _ => ?_
      let collected :=
        engine.collectChanges (disk.find before).toOption (disk.find after).toOption revision
      change Ends disk output (.ok (engine.diffTrees collected))
        (if (collected.changes.isEmpty && collected.unreadable.isEmpty) = true then _
        else emit disk format output.append (engine.diffTrees collected))
      by_cases nothing : engine.diffTrees collected = []
      · rw [if_pos ((diffTrees_eq_nil_iff ..).1 nothing), nothing]
        exact .unchanged rfl rfl rfl
      · rw [if_neg (mt (diffTrees_eq_nil_iff ..).2 nothing)]
        exact .reported form nothing

end SemanticDiff.Command
