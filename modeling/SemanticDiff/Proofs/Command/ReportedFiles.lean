import SemanticDiff.Proofs.Command.Reported
import SemanticDiff.Proofs.Engine.Comparison

/-!
# The files that a comparison reports

The report on two directories is sorted by path.  Where no name of a source file has a
backslash, different files have different paths, and every path leads to the file below
one of the two directories.  A backslash is shown as a slash, so two files whose names
differ in nothing else are reported under one path.
-/

namespace SemanticDiff

open SemanticDiff.Files (Entry IsFileName)

namespace Engine

section

variable {engine : Engine} {before after : Option Entry}

/-- The report has the paths of what was listed. -/
theorem map_path_diffTrees_perm (engine : Engine) (collected : TreeChanges) :
    ((engine.diffTrees collected).map FileDiff.path).Perm
      (collected.changes.map FileChange.path ++ collected.unreadable.map FileDiff.path) := by
  have own : (collected.changes.map engine.diffChange).map FileDiff.path =
      collected.changes.map FileChange.path := by
    rw [List.map_map]
    rfl
  rw [← own, ← List.map_append]
  exact (List.mergeSort_perm _ _).map _

/-- The report is sorted by path. -/
theorem pairwise_diffTrees (collected : TreeChanges) :
    (engine.diffTrees collected).Pairwise fun first second => first.path ≤ second.path := by
  have sorted := @List.pairwise_mergeSort FileDiff
    (fun first second => decide (first.path ≤ second.path))
    (by simpa using fun _ _ _ => String.le_trans) (by simpa using fun _ _ => String.le_total _ _)
    (engine.diffBatch collected.changes ++ collected.unreadable)
  exact sorted.imp of_decide_eq_true

/-- A file that is compared has names by which files can be called. -/
theorem IsCompared.isFileName (beforeTree : ∀ entry ∈ before, entry.IsTree)
    (afterTree : ∀ entry ∈ after, entry.IsTree) {names : List String}
    (compared : engine.IsCompared before after names) :
    names ≠ [] ∧ ∀ name ∈ names, IsFileName name := by
  have nonempty {tree : Option Entry} (source : engine.IsSource tree names) : names ≠ [] := by
    obtain ⟨name, last, -⟩ := source.named
    rintro rfl
    cases last
  rcases compared with source | source
  · exact ⟨nonempty source, (source.regular.choose_spec.isTree beforeTree).2⟩
  · exact ⟨nonempty source, (source.regular.choose_spec.isTree afterTree).2⟩

/-- Items that agree with others, one by one, have the same views. -/
theorem map_eq_map_of_forall₂ {α β γ : Type} {view : α → γ} {view' : β → γ} {items : List α}
    {others : List β} (agree : List.Forall₂ (fun item other => view' other = view item) items others) :
    others.map view' = items.map view := by
  induction agree with
  | nil => rfl
  | cons same _ ih => rw [List.map_cons, List.map_cons, same, ih]

/-- What is reported are the files that are changed or unreadable. -/
theorem Partitions.map_path {collected : TreeChanges} {changed unreadable : List (List String)}
    {revision : String}
    (partition : Partitions engine before after revision collected changed unreadable) :
    collected.changes.map FileChange.path ++ collected.unreadable.map FileDiff.path =
      (changed ++ unreadable).map reportedPath := by
  rw [List.map_append, map_eq_map_of_forall₂ (partition.changes.imp fun _ _ => And.left),
    map_eq_map_of_forall₂ (partition.failures.imp fun _ _ => And.left)]

/-- Each file is listed once. -/
theorem Partitions.nodup {collected : TreeChanges} {changed unreadable : List (List String)}
    {revision : String}
    (partition : Partitions engine before after revision collected changed unreadable) :
    (changed ++ unreadable).Nodup :=
  List.nodup_append.2 ⟨partition.changedOrdered.imp Precedes.ne,
    partition.unreadableOrdered.imp Precedes.ne,
    fun _ isChanged _ isUnreadable same =>
      partition.separate _ isChanged (same ▸ isUnreadable)⟩

/-- Where no name has a backslash the report increases by path, and each path is that of a
file that is compared. -/
theorem pairwise_diffTrees_of_plain (beforeTree : ∀ entry ∈ before, entry.IsTree)
    (afterTree : ∀ entry ∈ after, entry.IsTree)
    (plain : ∀ names, engine.IsCompared before after names →
      ∀ name ∈ names, '\\' ∉ name.toList)
    (revision : String) :
    let diffs := engine.diffTrees (engine.collectChanges before after revision)
    (diffs.Pairwise fun first second => Text.bytesOf first.path < Text.bytesOf second.path) ∧
      ∀ diff ∈ diffs, ∃ names, engine.IsCompared before after names ∧ diff.path = joined names := by
  obtain ⟨changed, unreadable, partition⟩ :=
    exists_partitions engine beforeTree afterTree revision
  let collected := engine.collectChanges before after revision
  let listed := changed ++ unreadable
  have compared : ∀ names ∈ listed, engine.IsCompared before after names := fun names member =>
    partition.compared names (List.mem_append.1 member)
  have paths : ((engine.diffTrees collected).map FileDiff.path).Perm (listed.map joined) := by
    have shown : listed.map reportedPath = listed.map joined := List.map_congr_left
      fun names member => Files.reportedPath_eq_joined (plain names (compared names member))
    rw [← shown, ← partition.map_path]
    exact map_path_diffTrees_perm engine collected
  have distinct : (listed.map joined).Nodup := by
    refine List.Nodup.map_on (fun names member names' member' same => ?_) partition.nodup
    obtain ⟨nonempty, named⟩ := (compared names member).isFileName beforeTree afterTree
    obtain ⟨nonempty', named'⟩ := (compared names' member').isFileName beforeTree afterTree
    exact Files.eq_of_joined_eq nonempty nonempty' named named' same
  constructor
  · have different := List.pairwise_map.1 (paths.nodup_iff.2 distinct)
    refine ((pairwise_diffTrees collected).and different).imp ?_
    rintro first second ⟨atMost, unequal⟩
    rw [Text.bytesOf_lt_iff]
    exact Std.lt_of_le_of_ne atMost unequal
  · intro diff member
    obtain ⟨names, nameMem, same⟩ := List.mem_map.1 (paths.subset (List.mem_map_of_mem member))
    exact ⟨names, compared names nameMem, same.symm⟩

end

end Engine

namespace Command

open SemanticDiff.Files (Disk)

/-- The comparison of two directories that are found makes a report. -/
theorem treeReport_eq {disk : Disk} {home config : Option String} {before after : String}
    {output : Output} {format : Report.Format} {engine : Engine} {old new : Entry}
    (form : readFormat output.format = .ok format)
    (loaded : loadEngine disk home config = .ok engine)
    (foundOld : disk.find before = .ok old) (foundNew : disk.find after = .ok new)
    (isOld : disk.hasDirectory before = true) (isNew : disk.hasDirectory after = true)
    (revision : String) :
    treeReport disk home config before after revision output =
      .ok (engine.diffTrees (engine.collectChanges (some old) (some new) revision)) := by
  simp [treeReport, form, loaded, foundOld, foundNew, isOld, isNew, Except.mapError,
    Except.toOption, bind, Except.bind, pure, Except.pure]

/-- Where no settings are found the engine is the default one. -/
theorem loadEngine_eq_default {disk : Disk} {home config : Option String}
    (nowhere : settingsPath? disk home config = none) :
    loadEngine disk home config = .ok Engine.default := by
  have undotted : (({} : Settings).extensions.any fun extension =>
      extension.isEmpty || extension.startsWith ".") = false := by
    decide +kernel
  have valid : ({} : Settings).validate = .ok [] := by
    rw [Settings.validate, undotted]
    rfl
  have made : Engine.ofSettings {} = .ok Engine.default := by
    rw [Engine.ofSettings, valid]
    rfl
  have loaded : loadSettings disk home config = .ok {} := by
    rw [loadSettings, nowhere]
    simp [valid, bind, Except.bind, pure, Except.pure]
  rw [loadEngine, loaded]
  simp [made, bind, Except.bind, Except.mapError]

/-- Where no name of a file that is compared has a backslash, the report on two directories
names each file once, in the order of the paths, and every path leads to a file below one
of the directories. -/
theorem treeReport_names_files {disk : Disk} {home config : Option String}
    {before after : String} {output : Output} {format : Report.Format} {engine : Engine}
    {old new : List (String × Entry)} (form : readFormat output.format = .ok format)
    (loaded : loadEngine disk home config = .ok engine)
    (foundOld : disk.find before = .ok (.directory old))
    (foundNew : disk.find after = .ok (.directory new))
    (oldTree : (Entry.directory old).IsTree) (newTree : (Entry.directory new).IsTree)
    (plain : ∀ names,
      engine.IsCompared (some (.directory old)) (some (.directory new)) names →
        ∀ name ∈ names, '\\' ∉ name.toList)
    (revision : String) :
    ∃ diffs, treeReport disk home config before after revision output = .ok diffs ∧
      Ends disk output (.ok diffs) (runTree disk home config before after revision output) ∧
      (diffs.Pairwise fun first second => Text.bytesOf first.path < Text.bytesOf second.path) ∧
      ∀ diff ∈ diffs, ∃ side ∈ [before, after], ∃ content,
        disk.find (side ++ "/" ++ diff.path) = .ok (.file content) := by
  have isOld : disk.hasDirectory before = true := by rw [Disk.hasDirectory, foundOld]
  have isNew : disk.hasDirectory after = true := by rw [Disk.hasDirectory, foundNew]
  have isOldTree : ∀ entry ∈ some (Entry.directory old), entry.IsTree := by
    rintro entry ⟨⟩
    exact oldTree
  have isNewTree : ∀ entry ∈ some (Entry.directory new), entry.IsTree := by
    rintro entry ⟨⟩
    exact newTree
  have reported := treeReport_eq form loaded foundOld foundNew isOld isNew revision
  obtain ⟨increasing, files⟩ :=
    Engine.pairwise_diffTrees_of_plain isOldTree isNewTree plain revision
  refine ⟨_, reported, reported ▸ ends_runTree disk home config before after revision output,
    increasing, fun diff member => ?_⟩
  obtain ⟨names, compared, path⟩ := files diff member
  obtain ⟨nonempty, -⟩ := compared.isFileName isOldTree isNewTree
  rw [path]
  rcases compared with source | source
  · obtain ⟨content, entry, ⟨⟩, reaches⟩ := source.regular
    exact ⟨before, by simp, content,
      Files.Disk.find_append_joined foundOld oldTree reaches nonempty⟩
  · obtain ⟨content, entry, ⟨⟩, reaches⟩ := source.regular
    exact ⟨after, by simp, content,
      Files.Disk.find_append_joined foundNew newTree reaches nonempty⟩

/-- The report on two directories with a changed file, an unreadable one in a directory
and a hidden one whose name has a backslash. -/
theorem treeReport_names_files_sorted :
    ∃ (disk : Disk) (old new : List (String × Entry)),
      readFormat "json" = .ok .document ∧ loadEngine disk none none = .ok Engine.default ∧
      disk.find "before" = .ok (.directory old) ∧ disk.find "after" = .ok (.directory new) ∧
      (Entry.directory old).IsTree ∧ (Entry.directory new).IsTree ∧
      (∀ names,
        Engine.default.IsCompared (some (.directory old)) (some (.directory new)) names →
          ∀ name ∈ names, '\\' ∉ name.toList) ∧
      ∃ diffs, treeReport disk none none "before" "after" "r2" ⟨"json", none⟩ = .ok diffs ∧
        Ends disk ⟨"json", none⟩ (.ok diffs)
          (runTree disk none none "before" "after" "r2" ⟨"json", none⟩) ∧
        (diffs.Pairwise fun first second =>
          Text.bytesOf first.path < Text.bytesOf second.path) ∧
        ∀ diff ∈ diffs, ∃ side ∈ ["before", "after"], ∃ content,
          disk.find (side ++ "/" ++ diff.path) = .ok (.file content) := by
  let old : List (String × Entry) :=
    [("a.py", .file "a = 1\n".toUTF8), ("x", .directory [("y.py", .file ⟨#[255]⟩)])]
  let new : List (String × Entry) :=
    [("a.py", .file "a = 2\n".toUTF8), (".x", .directory [("y\\z.py", .file "".toUTF8)])]
  let disk : Disk := ⟨.directory [("before", .directory old), ("after", .directory new)], []⟩
  have oldTree : (Entry.directory old).IsTree := by
    refine .directory (by decide +kernel) (by decide +kernel) ?_
    simp only [old, List.forall_mem_cons]
    exact ⟨.file _, .directory (by decide) (by decide)
      (List.forall_mem_singleton.2 (.file _)), nofun⟩
  have newTree : (Entry.directory new).IsTree := by
    refine .directory (by decide +kernel) (by decide +kernel) ?_
    simp only [new, List.forall_mem_cons]
    exact ⟨.file _, .directory (by decide) (by decide)
      (List.forall_mem_singleton.2 (.file _)), nofun⟩
  have plain : ∀ names,
      Engine.default.IsCompared (some (.directory old)) (some (.directory new)) names →
        ∀ name ∈ names, '\\' ∉ name.toList := by
    intro names compared
    have listed : Engine.default.allSourceFiles (some (.directory old)) (some (.directory new)) =
        [["a.py"], ["x", "y.py"]] :=
      Engine.allSourceFiles_eq (by decide +kernel) (by decide +kernel) (by decide +kernel)
    have member := (Engine.mem_allSourceFiles_iff (by rintro entry ⟨⟩; exact oldTree)
      (by rintro entry ⟨⟩; exact newTree)).2 compared
    rw [listed] at member
    have free : ∀ names ∈ [["a.py"], ["x", "y.py"]], ∀ name ∈ names, '\\' ∉ name.toList := by
      decide +kernel
    exact free names member
  have loaded : loadEngine disk none none = .ok Engine.default :=
    loadEngine_eq_default (by decide +kernel)
  exact ⟨disk, old, new, rfl, loaded, rfl, rfl, oldTree, newTree, plain,
    treeReport_names_files rfl loaded rfl rfl oldTree newTree plain "r2"⟩

/-- Two files whose names differ in a backslash and a slash are reported under one path. -/
theorem treeReport_repeats_path :
    ∃ (disk : Disk) (old new : List (String × Entry)) (diffs : List FileDiff),
      disk.find "before" = .ok (.directory old) ∧ (Entry.directory old).IsTree ∧
      disk.find "after" = .ok (.directory new) ∧ (Entry.directory new).IsTree ∧
      treeReport disk none none "before" "after" "r2" ⟨"json", none⟩ = .ok diffs ∧
      diffs.map FileDiff.path = ["x/y.py", "x/y.py"] ∧
      ¬diffs.Pairwise fun first second =>
        Text.bytesOf first.path < Text.bytesOf second.path := by
  let new : List (String × Entry) :=
    [("x\\y.py", .file "a = 1\n".toUTF8), ("x", .directory [("y.py", .file "b = 1\n".toUTF8)])]
  let disk : Disk := ⟨.directory [("before", .directory []), ("after", .directory new)], []⟩
  let collected :=
    Engine.default.collectChanges (some (.directory [])) (some (.directory new)) "r2"
  let diffs := Engine.default.diffTrees collected
  have newTree : (Entry.directory new).IsTree := by
    refine .directory (by decide +kernel) (by decide +kernel) ?_
    simp only [new, List.forall_mem_cons]
    exact ⟨.file _, .directory (by decide) (by decide)
      (List.forall_mem_singleton.2 (.file _)), nofun⟩
  have listed : Engine.default.allSourceFiles (some (.directory [])) (some (.directory new)) =
      [["x", "y.py"], ["x\\y.py"]] :=
    Engine.allSourceFiles_eq (by decide +kernel) (by decide +kernel) (by decide +kernel)
  have changes : collected.changes.map FileChange.path = List.replicate 2 "x/y.py" := by
    rw [Engine.collectChanges_changes, listed]
    decide +kernel
  have unreadable : collected.unreadable.map FileDiff.path = [] := by
    rw [Engine.collectChanges_unreadable, listed]
    decide +kernel
  have paths : diffs.map FileDiff.path = ["x/y.py", "x/y.py"] := by
    have permuted := Engine.map_path_diffTrees_perm .default collected
    rw [changes, unreadable, List.append_nil] at permuted
    exact List.perm_replicate.1 permuted
  refine ⟨disk, [], new, diffs, rfl, .directory (by decide) (by decide) nofun, rfl, newTree,
    treeReport_eq rfl (loadEngine_eq_default (by decide +kernel)) rfl rfl (by decide +kernel)
      (by decide +kernel) "r2", paths, fun increasing => ?_⟩
  have strict : (diffs.map FileDiff.path).Pairwise fun first second =>
      Text.bytesOf first < Text.bytesOf second := List.pairwise_map.2 increasing
  rw [paths] at strict
  exact List.lt_irrefl _ ((List.pairwise_cons.1 strict).1 _ List.mem_cons_self)

end Command

end SemanticDiff
