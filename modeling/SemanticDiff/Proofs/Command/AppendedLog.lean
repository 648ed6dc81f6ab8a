import SemanticDiff.Main
import SemanticDiff.Proofs.Command.Reported
import SemanticDiff.Proofs.Files.Append
import SemanticDiff.Proofs.Report.Agreement

/-!
# The file that events are appended to

Commands that are run one after the other can append their events to one file.  The
file then begins with what it held before the first of them, and goes on with the
events of all commands that were carried out, as lines and in their order.  A command
that ends with an error adds nothing.
-/

namespace SemanticDiff.Command

open SemanticDiff.Files (Disk FileError)

/-! ## Lines of events -/

/-- Events as lines of text, in bytes. -/
def encoded (events : List Event) : ByteArray :=
  (String.join (events.map fun event => event.line ++ "\n")).toUTF8

theorem encoded_nil : encoded [] = .empty :=
  rfl

theorem encoded_append (first second : List Event) :
    encoded (first ++ second) = encoded first ++ encoded second := by
  rw [encoded, List.map_append, String.join_append]
  exact String.toByteArray_append

/-- The lines of a report are those of the events of its files. -/
theorem toUTF8_lines (diffs : List FileDiff) :
    (Report.lines diffs).toUTF8 = encoded (diffs.flatMap FileDiff.events) := by
  have text : Report.lines diffs =
      String.join ((diffs.flatMap FileDiff.events).map fun event => event.line ++ "\n") := by
    apply String.toList_inj.1
    rw [Report.lines_eq_text, LineLog.foldl_append, (LineLog.append_eq _ _).1]
    simp [LineLog.empty, List.flatMap_def, Function.comp_def]
  rw [text, encoded]

/-! ## One run -/

theorem ofName?_of_readFormat {name : String} {format : Report.Format}
    (form : readFormat name = .ok format) : Report.Format.ofName? name = some format := by
  unfold readFormat at form
  split at form
  · rw [← Except.ok.inj form]
    assumption
  · cases form

/-- One run of the program: a command, and what it finds on the machine. -/
structure Run where
  disk : Disk
  home : Option String
  invocation : Invocation

/-- Where the report of a comparison goes. -/
def Task.output? : Task → Option Output
  | .diff _ _ _ _ output => some output
  | .tree _ _ _ output => some output
  | .catalog _ => none

/-- Only a comparison appends to a file. -/
theorem exists_output_of_appendPath? {invocation : Invocation} {path : String}
    (named : Program.appendPath? invocation = some path) :
    ∃ output, invocation.task.output? = some output ∧ output.append = some path := by
  rcases invocation with ⟨config, task⟩
  cases task with
  | diff before after own revision output => exact ⟨output, rfl, named⟩
  | tree before after revision output => exact ⟨output, rfl, named⟩
  | catalog rule => cases named

namespace Run

/-- What came of a run. -/
def outcome (run : Run) : Outcome :=
  Command.run run.disk run.home run.invocation

/-- What a run reports. -/
def report (run : Run) : Except Refusal (List FileDiff) :=
  match run.invocation.task with
  | .diff before after path revision output =>
      diffReport run.disk run.home run.invocation.config before after path revision output
  | .tree before after revision output =>
      treeReport run.disk run.home run.invocation.config before after revision output
  | .catalog _ => .ok []

/-- The events of the files that did not fail, in the order of the report. -/
def events (run : Run) : List Event :=
  match run.report with
  | .ok diffs => diffs.flatMap FileDiff.events
  | .error _ => []

/-- The file to which a run appends can be reached and written if there is anything to
report. -/
def CanAppend (run : Run) : Prop :=
  ∀ diffs, run.report = .ok diffs → diffs ≠ [] →
    ∀ path ∈ Program.appendPath? run.invocation,
      ∃ after, run.disk.appendText path (Report.lines diffs) = .ok after

/-- Two files or two directories are compared, and events are appended to a file.  Its
path need not lead anywhere, but if it does, it leads to these names. -/
def AppendsTo (names : List String) (run : Run) : Prop :=
  ∃ path, Program.appendPath? run.invocation = some path ∧
    ∀ found, run.disk.locate (Disk.withoutFinalSlashes path) = .ok found → found = names

theorem ends {run : Run} {output : Output} (compares : run.invocation.task.output? = some output) :
    Ends run.disk output run.report run.outcome := by
  rcases run with ⟨disk, home, config, task⟩
  cases task with
  | diff before after path revision own =>
      obtain rfl := Option.some.inj compares
      exact ends_runDiff disk home config before after path revision own
  | tree before after revision own =>
      obtain rfl := Option.some.inj compares
      exact ends_runTree disk home config before after revision own
  | catalog rule => cases compares

/-- What one run does to the file that it appends to. -/
structure Logs (names : List String) (run : Run) : Prop where
  /-- It is carried out, with a file that failed or without one, or it ends with an error. -/
  exit : run.outcome.exit = 0 ∨ run.outcome.exit = 1 ∨ run.outcome.exit = 2
  /-- It ends with an error if it is refused or if the file cannot be opened, and in no
  other case. -/
  exit_eq_two : run.outcome.exit = 2 ↔ (∃ refusal, run.report = .error refusal) ∨ ¬ run.CanAppend
  /-- A run that ends with an error leaves the disk as it was. -/
  unchanged : run.outcome.exit = 2 → run.outcome.disk = run.disk
  /-- A run that is carried out appends its events. -/
  appended : run.outcome.exit ≠ 2 →
    run.outcome.disk.contentAt names = run.disk.contentAt names ++ encoded run.events
  /-- The report is what is printed. -/
  printed : ∀ diffs, run.report = .ok diffs → diffs ≠ [] →
    ∃ output format, run.invocation.task.output? = some output ∧
      Report.Format.ofName? output.format = some format ∧
      run.outcome.stdout = Report.render format false diffs
  /-- Where the events go, there is no device after the run if there was none before. -/
  plain : run.outcome.disk.root.get? names ≠ some .nullDevice

/-- Either kind of quiet ending leaves the file as it was. -/
theorem logs_of_disk_eq {names : List String} {run : Run}
    (plain : run.disk.root.get? names ≠ some .nullDevice) (same : run.outcome.disk = run.disk)
    (exit : run.outcome.exit = 0 ∧ run.report = .ok [] ∨
      run.outcome.exit = 2 ∧ ∃ refusal, run.report = .error refusal) : run.Logs names where
  exit := by
    rcases exit with ⟨exit, -⟩ | ⟨exit, -⟩
    · exact Or.inl exit
    · exact Or.inr (Or.inr exit)
  exit_eq_two := by
    rcases exit with ⟨exit, report⟩ | ⟨exit, refused⟩
    · simp [exit, report, CanAppend]
    · simp [exit, refused]
  unchanged := fun _ => same
  appended := by
    rcases exit with ⟨-, report⟩ | ⟨exit, -⟩
    · intro _
      have nothing : run.events = [] := by simp [events, report]
      rw [same, nothing, encoded_nil, ByteArray.append_empty]
    · exact fun other => absurd exit other
  printed := by
    intro diffs reported nonempty
    rcases exit with ⟨-, report⟩ | ⟨-, refusal, report⟩
    · exact absurd (Except.ok.inj (reported.symm.trans report)) nonempty
    · cases reported.symm.trans report
  plain := by rwa [same]

/-- A report whose events cannot be appended is printed, but changes nothing. -/
theorem logs_of_broken {names : List String} {run : Run} {output : Output}
    {format : Report.Format} {diffs : List FileDiff} {message : String}
    (plain : run.disk.root.get? names ≠ some .nullDevice)
    (compares : run.invocation.task.output? = some output)
    (form : Report.Format.ofName? output.format = some format)
    (report : run.report = .ok diffs) (closed : ¬ run.CanAppend)
    (came : run.outcome = .broken run.disk (Report.render format false diffs) message) :
    run.Logs names where
  exit := by
    rw [came]
    exact Or.inr (Or.inr rfl)
  exit_eq_two := by
    rw [came]
    exact iff_of_true rfl (Or.inr closed)
  unchanged := by
    rw [came]
    exact fun _ => rfl
  appended := by
    rw [came]
    exact fun other => absurd rfl other
  printed := by
    intro own same _
    obtain rfl := Except.ok.inj (same.symm.trans report)
    rw [came]
    exact ⟨output, format, compares, form, rfl⟩
  plain := by rwa [came]

/-- A report whose events are appended is printed, and its events are in the file. -/
theorem logs_of_printed {names : List String} {run : Run} {output : Output}
    {format : Report.Format} {diffs : List FileDiff} {after : Disk}
    (compares : run.invocation.task.output? = some output)
    (form : Report.Format.ofName? output.format = some format)
    (report : run.report = .ok diffs) (opened : run.CanAppend)
    (written : after.root.get? names =
      some (.file (run.disk.contentAt names ++ (Report.lines diffs).toUTF8)))
    (came : run.outcome = .printed after (Report.render format false diffs)
      (if diffs.any FileDiff.isFailed then Outcome.failed else Outcome.success)) :
    run.Logs names := by
  have exit : run.outcome.exit = 0 ∨ run.outcome.exit = 1 := by
    rw [came, Outcome.printed]
    dsimp only
    split
    · exact Or.inr rfl
    · exact Or.inl rfl
  have noError : run.outcome.exit ≠ 2 := by omega
  exact {
    exit := by omega
    exit_eq_two := iff_of_false noError (by simp [report, opened])
    unchanged := fun error => absurd error noError
    appended := by
      intro _
      rw [came, Outcome.printed, Disk.contentAt_of_get? written, toUTF8_lines, events, report]
    printed := by
      intro own same _
      obtain rfl := Except.ok.inj (same.symm.trans report)
      rw [came]
      exact ⟨output, format, compares, form, rfl⟩
    plain := by
      rw [came, Outcome.printed, written]
      simp }

/-- Every run that appends to a file keeps it as a log. -/
theorem logs {names : List String} {run : Run} (appends : run.AppendsTo names)
    (plain : run.disk.root.get? names ≠ some .nullDevice) : run.Logs names := by
  obtain ⟨path, named, located⟩ := appends
  obtain ⟨output, compares, appendPath⟩ := exists_output_of_appendPath? named
  have ends := run.ends compares
  generalize reported : run.report = report at ends
  generalize came : run.outcome = outcome at ends
  cases ends with
  | refused exit _ same =>
      exact logs_of_disk_eq plain (by rw [came, same])
        (Or.inr ⟨by rw [came, exit]; rfl, _, reported⟩)
  | unchanged exit _ same =>
      exact logs_of_disk_eq plain (by rw [came, same]) (Or.inl ⟨by rw [came, exit]; rfl, reported⟩)
  | @reported format diffs form nonempty =>
      rw [appendPath] at came
      have form := ofName?_of_readFormat form
      cases opened : run.disk.appendText path (Report.lines diffs) with
      | ok after =>
          rw [emit_of_appendText_eq_ok format diffs opened] at came
          obtain ⟨found, leads, -⟩ := Disk.appendText_eq_ok opened
          obtain rfl := located found leads
          refine logs_of_printed compares form reported ?_
            (Disk.get?_appendText leads plain opened) came
          intro own same _ other there
          obtain rfl := Except.ok.inj (reported.symm.trans same)
          obtain rfl := Option.some.inj (named.symm.trans there)
          exact ⟨after, opened⟩
      | error error =>
          rw [emit_of_appendText_eq_error format diffs opened] at came
          refine logs_of_broken plain compares form reported ?_ came
          intro canAppend
          obtain ⟨after, written⟩ := canAppend diffs reported nonempty path named
          cases opened.symm.trans written

end Run

/-! ## Runs one after the other -/

/-- Runs that append to the file under some names, from one disk to another.  Between two
runs anything may change but what stands under these names. -/
inductive Runs (names : List String) : Disk → List Run → Disk → Prop where
  | done (disk : Disk) : Runs names disk [] disk
  | next {disk last : Disk} {run : Run} {runs : List Run} :
      run.AppendsTo names → run.disk.root.get? names = disk.root.get? names →
      Runs names run.outcome.disk runs last → Runs names disk (run :: runs) last

/-- Whether a run is carried out, with a file that failed or without one. -/
def Run.isCarriedOut (run : Run) : Bool :=
  run.outcome.exit == Outcome.success || run.outcome.exit == Outcome.failed

/-- A run is carried out unless it ends with an error. -/
theorem Run.Logs.isCarriedOut_iff {names : List String} {run : Run} (logs : run.Logs names) :
    run.isCarriedOut = true ↔ run.outcome.exit ≠ 2 := by
  have exit := logs.exit
  simp only [isCarriedOut, Outcome.success, Outcome.failed, Bool.or_eq_true, beq_iff_eq]
  omega

/-- One run adds its events to the file if it is carried out, and else nothing. -/
theorem Run.Logs.contentAt_eq {names : List String} {run : Run} (logs : run.Logs names) :
    run.outcome.disk.contentAt names =
      run.disk.contentAt names ++ encoded (if run.isCarriedOut then run.events else []) := by
  by_cases error : run.outcome.exit = 2
  · rw [if_neg (mt logs.isCarriedOut_iff.1 (not_not.2 error)), logs.unchanged error,
      encoded_nil, ByteArray.append_empty]
  · rw [if_pos (logs.isCarriedOut_iff.2 error), logs.appended error]

/-- After runs that append to it, a file holds what it held before them and the events of
all runs that were carried out, as lines and in their order.  Each run adds either its own
events or, if it ends with an error, nothing. -/
theorem Runs.contentAt_last {names : List String} {disk last : Disk} {runs : List Run}
    (sequence : Runs names disk runs last)
    (plain : disk.root.get? names ≠ some .nullDevice) :
    last.contentAt names = disk.contentAt names ++
        encoded ((runs.filter Run.isCarriedOut).flatMap Run.events) ∧
      ∀ run ∈ runs, run.Logs names := by
  induction sequence with
  | done disk =>
      refine ⟨?_, List.forall_mem_nil _⟩
      rw [List.filter_nil, List.flatMap_nil, encoded_nil, ByteArray.append_empty]
  | @next disk last run runs appends same sequence ih =>
      have logs := Run.logs appends (by rwa [same])
      obtain ⟨content, others⟩ := ih logs.plain
      have start : run.disk.contentAt names = disk.contentAt names := by
        rw [Disk.contentAt, same, Disk.contentAt]
      refine ⟨?_, List.forall_mem_cons.2 ⟨logs, others⟩⟩
      rw [content, logs.contentAt_eq, start, ByteArray.append_assoc, ← encoded_append]
      congr 2
      cases carried : run.isCarriedOut with
      | true => rw [List.filter_cons_of_pos carried, List.flatMap_cons, if_pos rfl]
      | false =>
          rw [List.filter_cons_of_neg (by simp [carried]), if_neg (by simp), List.nil_append]

/-- Three source files, the last of which cannot be parsed, and a file with a line. -/
def smallDisk : Disk where
  root := .directory [("a.py", .file "x = 1\n".toUTF8), ("b.py", .file "x = lambda: 1\n".toUTF8),
    ("c.py", .file "def f(:\n".toUTF8), ("log", .file "first\n".toUTF8)]
  workingDirectory := []

/-- On any disk a path of one name below the root leads to that name, if anywhere. -/
theorem located_log (disk : Disk) :
    ∀ found, disk.locate (Disk.withoutFinalSlashes "/log") = .ok found → found = ["log"] := by
  have path : (Disk.withoutFinalSlashes "/log").toList = ['/', 'l', 'o', 'g'] := by decide
  have pieces : Files.Path.pieces '/' ['/', 'l', 'o', 'g'] = [[], ['l', 'o', 'g']] := by decide
  intro found located
  simp only [Disk.locate, path, pieces] at located
  rcases disk with ⟨root, workingDirectory⟩
  cases root with
  | directory entries => exact (Except.ok.inj located).symm
  | file _ | nullDevice => cases located

/-- A file gets a lambda, a directory is missing, and a file can no longer be parsed. -/
theorem Runs.contentAt_last_three :
    let output : Output := ⟨"json", some "/log"⟩
    let first : Run := ⟨smallDisk, none, ⟨none, .diff "/a.py" "/b.py" none "r1" output⟩⟩
    let second : Run := ⟨first.outcome.disk, none, ⟨none, .tree "/" "/old" "r2" output⟩⟩
    let third : Run := ⟨second.outcome.disk, none, ⟨none, .diff "/b.py" "/c.py" none "r3" output⟩⟩
    Runs ["log"] smallDisk [first, second, third] third.outcome.disk ∧
      [first, second, third].map (fun run => run.outcome.exit) = [0, 2, 1] ∧
      third.outcome.disk.contentAt ["log"] =
        "first\n".toUTF8 ++ encoded (first.events ++ third.events) := by
  intro output first second third
  have exits : [first, second, third].map (fun run => run.outcome.exit) = [0, 2, 1] := by
    decide +kernel
  have sequence : Runs ["log"] smallDisk [first, second, third] third.outcome.disk :=
    .next ⟨"/log", rfl, located_log _⟩ rfl <|
      .next ⟨"/log", rfl, located_log _⟩ rfl <|
        .next ⟨"/log", rfl, located_log _⟩ rfl (.done _)
  have plain : smallDisk.root.get? ["log"] ≠ some .nullDevice := by rintro ⟨⟩
  have kept := (Runs.contentAt_last sequence plain).1
  have codes : first.outcome.exit = 0 ∧ second.outcome.exit = 2 ∧ third.outcome.exit = 1 := by
    simpa using exits
  have carried : [first, second, third].filter Run.isCarriedOut = [first, third] := by
    simp [Run.isCarriedOut, codes, Outcome.success, Outcome.failed]
  have start : smallDisk.contentAt ["log"] = "first\n".toUTF8 := rfl
  rw [carried, start] at kept
  refine ⟨sequence, exits, ?_⟩
  simpa only [List.flatMap_cons, List.flatMap_nil, List.append_nil] using kept

end SemanticDiff.Command
