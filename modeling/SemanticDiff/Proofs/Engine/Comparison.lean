import Mathlib.Data.List.Forall2
import SemanticDiff.Proofs.Collection.Repeats
import SemanticDiff.Proofs.Files.Names
import SemanticDiff.Proofs.Text.ByteOrder

/-!
# The comparison of two directories

Of two directories the source files that stand in either of them are compared, name by
name in order.  Each of them is the same on both sides, or changed, or unreadable, and the
comparison lists it accordingly.
-/

namespace SemanticDiff

/-- The change that was found. -/
def Comparison.change? : Comparison → Option FileChange
  | .changed change => some change
  | _ => none

/-- The diff that was found for an unreadable file. -/
def Comparison.failure? : Comparison → Option FileDiff
  | .unreadable diff => some diff
  | _ => none

/-- A file that is changed is not unreadable. -/
theorem Comparison.failure?_eq_none {comparison : Comparison}
    (changed : comparison.change?.isSome = true) : comparison.failure? = none := by
  cases comparison with
  | changed change => rfl
  | same => cases changed
  | unreadable diff => cases changed

namespace Engine

open SemanticDiff.Files (Entry IsFileName)
open SemanticDiff.Files.Entry (IsTree)

/-! ## What is compared -/

/-- Names lead to what stands below a tree, if there is a tree. -/
def Stands (tree : Option Entry) (names : List String) (own : Entry) : Prop :=
  ∃ entry, tree = some entry ∧ entry.Reaches names own

/-- A directory is passed over by its name. -/
def IsSkipped (name : String) : Prop :=
  name = "venv" ∨ name = "__pycache__" ∨ ∃ rest, name = "." ++ rest

/-- A name ends by an extension of files that are compared. -/
def IsSourceName (engine : Engine) (name : String) : Prop :=
  ∃ stem extension, stem ≠ "" ∧ name = stem ++ "." ++ extension ∧
    extension ∈ engine.settings.extensions ∧ extension ∈ parsedExtensions

/-- Names lead to a source file that is compared. -/
structure IsSource (engine : Engine) (tree : Option Entry) (names : List String) : Prop where
  regular : ∃ content, Stands tree names (.file content)
  named : ∃ name, names.getLast? = some name ∧ engine.IsSourceName name
  searched : ∀ directory ∈ names.dropLast, ¬IsSkipped directory

/-- One side of a file is a text or is missing. -/
def HasSide (tree : Option Entry) (names : List String) : Option String → Prop
  | some text => Stands tree names (.file text.toUTF8)
  | none => ∀ own, ¬Stands tree names own

/-- One side of a file is there, but it is no text. -/
def HasFault (tree : Option Entry) (names : List String) : Prop :=
  ∃ own, Stands tree names own ∧ ∀ text : String, own ≠ .file text.toUTF8

/-- A file has the same text on both sides. -/
def AreSame (before after : Option Entry) (names : List String) : Prop :=
  ∃ text, HasSide before names (some text) ∧ HasSide after names (some text)

/-- All sides of a file that exist can be read, and they differ. -/
def Differ (before after : Option Entry) (names : List String) : Prop :=
  ∃ old new, HasSide before names old ∧ HasSide after names new ∧ old ≠ new

/-- Names lead to a file that is compared: a source file on one of the sides. -/
def IsCompared (engine : Engine) (before after : Option Entry) (names : List String) : Prop :=
  engine.IsSource before names ∨ engine.IsSource after names

/-- Names come before others, by the bytes of the first name in which they differ. -/
def Precedes (first second : List String) : Prop :=
  first.map Text.bytesOf < second.map Text.bytesOf

instance (first second : List String) : Decidable (Precedes first second) :=
  inferInstanceAs (Decidable (first.map Text.bytesOf < second.map Text.bytesOf))

/-- What is listed of two directories: some of the files that are compared are changed and
some are unreadable, each of them once and in order, and the others are the same. -/
structure Partitions (engine : Engine) (before after : Option Entry) (revision : String)
    (collected : TreeChanges) (changed unreadable : List (List String)) : Prop where
  changes : List.Forall₂ (fun names change => change.path = reportedPath names ∧
    HasSide before names change.before ∧ HasSide after names change.after ∧
    change.before ≠ change.after ∧ change.revision = revision) changed collected.changes
  failures : List.Forall₂ (fun names diff => diff.path = reportedPath names ∧
    ∃ error, diff.result = .error (.file error)) unreadable collected.unreadable
  changedOrdered : changed.Pairwise Precedes
  unreadableOrdered : unreadable.Pairwise Precedes
  compared : ∀ names, names ∈ changed ∨ names ∈ unreadable → engine.IsCompared before after names
  separate : ∀ names ∈ changed, names ∉ unreadable
  changed_iff : ∀ names, engine.IsCompared before after names →
    (names ∈ changed ↔ Differ before after names)
  unreadable_iff : ∀ names, engine.IsCompared before after names →
    (names ∈ unreadable ↔ HasFault before names ∨ HasFault after names)
  same_iff : ∀ names, engine.IsCompared before after names →
    (names ∉ changed ∧ names ∉ unreadable ↔ AreSame before after names)

/-! ## One side -/

section

variable {tree : Option Entry} {names : List String}

theorem entersDirectory_iff {name : String} : entersDirectory name = true ↔ ¬IsSkipped name := by
  have hidden : name.startsWith "." = true ↔ ∃ rest, name = "." ++ rest := by
    rw [String.startsWith_string_iff]
    constructor
    · rintro ⟨rest, parts⟩
      exact ⟨String.ofList rest, String.toList_inj.1 (by simpa using parts.symm)⟩
    · rintro ⟨rest, rfl⟩
      exact ⟨rest.toList, String.toList_append.symm⟩
  simp only [entersDirectory, IsSkipped, ← hidden]
  simp
  tauto

/-- A name is that of a source file by what follows its last point. -/
theorem isSourceName_iff {engine : Engine} {name : String} :
    engine.IsSourceName name ↔ ∃ extension, (Files.Path.splitName name).2 = some extension ∧
      extension ∈ engine.settings.extensions ∧ extension ∈ parsedExtensions := by
  have free : ∀ extension ∈ parsedExtensions, '.' ∉ extension.toList := by decide
  constructor
  · rintro ⟨stem, extension, nonempty, rfl, handled, parsed⟩
    rw [Files.Path.splitName_append nonempty (free extension parsed)]
    exact ⟨extension, rfl, handled, parsed⟩
  · rintro ⟨extension, split, handled, parsed⟩
    obtain ⟨stem, nonempty, same⟩ := Files.Path.eq_append_of_splitName split
    exact ⟨stem, extension, nonempty, same, handled, parsed⟩

/-- The path of a file is that of a source file by the name of the file. -/
theorem supports_joined_iff {engine : Engine} (named : ∀ name ∈ names, IsFileName name) :
    engine.supports (joined names) = true ↔
      ∃ name, names.getLast? = some name ∧ engine.IsSourceName name := by
  have extension : Files.Path.extension? (joined names) =
      names.getLast?.bind fun name => (Files.Path.splitName name).2 := by
    rw [Files.Path.extension?, Files.fileName?_joined named]
  have empty : "" ∉ parsedExtensions := by decide
  simp only [supports, extension, isSourceName_iff, Settings.handles, Bool.and_eq_true,
    List.any_beq', List.contains_iff_mem]
  cases names.getLast? with
  | none => simp [empty]
  | some name => cases split : (Files.Path.splitName name).2 <;> simp [split, empty]

/-- Following names comes to what stands there. -/
theorem get?_eq_some_iff (isTree : ∀ entry ∈ tree, entry.IsTree) {own : Entry} :
    (tree.bind fun entry => entry.get? names) = some own ↔ Stands tree names own := by
  cases tree with
  | none => simp [Stands]
  | some entry => simp [Stands, (isTree entry rfl).get?_eq_some_iff]

/-- Names lead to one entry at most. -/
theorem Stands.unique (isTree : ∀ entry ∈ tree, entry.IsTree) {own other : Entry}
    (first : Stands tree names own) (second : Stands tree names other) : own = other := by
  obtain ⟨entry, rfl, reaches⟩ := first
  obtain ⟨_, same, otherReaches⟩ := second
  cases same
  exact (isTree entry rfl).eq_of_reaches reaches otherReaches

/-- What stands below a tree is a file or a directory. -/
theorem Stands.isTree (isTree : ∀ entry ∈ tree, entry.IsTree) {own : Entry}
    (stands : Stands tree names own) : own.IsTree ∧ ∀ name ∈ names, IsFileName name := by
  obtain ⟨entry, rfl, reaches⟩ := stands
  exact (isTree entry rfl).of_reaches reaches

/-- The text of a file is that of its bytes. -/
theorem text_eq_ok_iff {own : Entry} (ownTree : own.IsTree) {text : String} :
    own.text = .ok text ↔ own = .file text.toUTF8 := by
  cases ownTree with
  | directory => exact iff_of_false nofun nofun
  | file content =>
      have decoded : String.fromUTF8? content = some text ↔ content = text.toUTF8 := by
        unfold String.fromUTF8?
        split
        · rw [Option.some.injEq, ← String.toByteArray_inj]
          rfl
        · rename_i invalid
          refine iff_of_false nofun ?_
          rintro rfl
          exact invalid text.isValidUTF8
      rw [Entry.file.injEq, ← decoded, Entry.text]
      cases String.fromUTF8? content <;> simp

/-- A side is read as what it is. -/
theorem readSide_eq_ok_iff (isTree : ∀ entry ∈ tree, entry.IsTree) {side : Option String} :
    readSide tree names = .ok side ↔ HasSide tree names side := by
  unfold readSide
  cases found : tree.bind fun entry => entry.get? names with
  | none =>
      have absent : ∀ own, ¬Stands tree names own := fun own stands =>
        nomatch found.symm.trans ((get?_eq_some_iff isTree).2 stands)
      cases side with
      | none => exact iff_of_true rfl absent
      | some text => exact iff_of_false nofun (absent _)
  | some own =>
      have stands := (get?_eq_some_iff isTree).1 found
      have read := @text_eq_ok_iff own (stands.isTree isTree).1
      cases side with
      | none =>
          refine iff_of_false ?_ fun absent => absent own stands
          dsimp only
          cases own.text <;> exact nofun
      | some text =>
          have only : Stands tree names (.file text.toUTF8) ↔ own = .file text.toUTF8 :=
            ⟨fun other => stands.unique isTree other, fun same => same ▸ stands⟩
          rw [HasSide, only, ← read]
          dsimp only
          cases own.text <;> simp [Except.map]

/-- A side is not read if it is there and is no text. -/
theorem readSide_eq_error_iff (isTree : ∀ entry ∈ tree, entry.IsTree) :
    (∃ error, readSide tree names = .error error) ↔ HasFault tree names := by
  constructor
  · rintro ⟨error, refused⟩
    have noSide {side : Option String} : ¬HasSide tree names side := fun has =>
      nomatch refused.symm.trans ((readSide_eq_ok_iff isTree).2 has)
    obtain ⟨own, stands⟩ : ∃ own, Stands tree names own := by
      by_contra absent
      exact @noSide none (not_exists.1 absent)
    refine ⟨own, stands, ?_⟩
    rintro text rfl
    exact @noSide (some text) stands
  · rintro ⟨own, stands, noText⟩
    cases read : readSide tree names with
    | error error => exact ⟨error, rfl⟩
    | ok side =>
        have has := (readSide_eq_ok_iff isTree).1 read
        cases side with
        | none => exact absurd stands (has own)
        | some text => exact absurd (stands.unique isTree has) (noText text)

end

/-! ## The files in order -/

section

variable {engine : Engine} {tree before after : Option Entry} {names : List String}

/-- The source files of a tree are listed. -/
theorem mem_sourceFiles_iff (isTree : ∀ entry ∈ tree, entry.IsTree) :
    names ∈ engine.sourceFiles tree ↔ engine.IsSource tree names := by
  cases tree with
  | none =>
      refine iff_of_false List.not_mem_nil ?_
      rintro ⟨⟨content, entry, missing, -⟩, -, -⟩
      cases missing
  | some entry =>
      have regular : (∃ content, Stands (some entry) names (.file content)) ↔
          ∃ content, entry.Reaches names (.file content) := by
        simp [Stands]
      rw [sourceFiles, List.mem_filter, Entry.mem_filesBelow_iff]
      simp only [entersDirectory_iff]
      constructor
      · rintro ⟨⟨-, file, searched⟩, supported⟩
        have named := (isTree entry rfl).of_reaches file.choose_spec
        exact ⟨regular.2 file, (supports_joined_iff named.2).1 supported, searched⟩
      · rintro ⟨file, ⟨name, last, source⟩, searched⟩
        have reaches := regular.1 file
        have named := (isTree entry rfl).of_reaches reaches.choose_spec
        have nonempty : names ≠ [] := by
          rintro rfl
          cases last
        exact ⟨⟨nonempty, reaches, searched⟩,
          (supports_joined_iff named.2).2 ⟨name, last, source⟩⟩

/-- The source files of two directories are listed once each and in order. -/
theorem pairwise_allSourceFiles :
    (engine.allSourceFiles before after).Pairwise Precedes ∧
      ∀ names, names ∈ engine.allSourceFiles before after ↔
        names ∈ engine.sourceFiles before ∨ names ∈ engine.sourceFiles after := by
  let listed := engine.sourceFiles before ++ engine.sourceFiles after
  have ordered : (listed.mergeSort fun first second => !decide (second < first)).Pairwise
      fun first second => first = second ∨ first < second := by
    refine (List.pairwise_mergeSort ?_ ?_ listed).imp fun {first second} notAfter => ?_
    · simp only [Bool.not_eq_true', decide_eq_false_iff_not, List.not_lt]
      exact fun _ _ _ => List.le_trans
    · simp only [Bool.or_eq_true, Bool.not_eq_true', decide_eq_false_iff_not, List.not_lt]
      exact fun _ _ => List.le_total _ _
    · rw [Bool.not_eq_true', decide_eq_false_iff_not] at notAfter
      rcases Std.lt_trichotomy first second with less | same | greater
      · exact Or.inr less
      · exact Or.inl same
      · exact absurd greater notAfter
  have transitive (first second third : List String) :
      first < second → second < third → first < third := List.lt_trans
  obtain ⟨increasing, members⟩ := eraseReps_spec transitive ordered
  refine ⟨increasing.imp Text.map_bytesOf_lt_iff.2, fun names => (members names).trans ?_⟩
  rw [List.mem_mergeSort, List.mem_append]

/-- The files that are listed are those that are compared. -/
theorem mem_allSourceFiles_iff (beforeTree : ∀ entry ∈ before, entry.IsTree)
    (afterTree : ∀ entry ∈ after, entry.IsTree) :
    names ∈ engine.allSourceFiles before after ↔ engine.IsCompared before after names := by
  rw [pairwise_allSourceFiles.2, mem_sourceFiles_iff beforeTree, mem_sourceFiles_iff afterTree]
  rfl

theorem Precedes.ne {first second : List String} (precedes : Precedes first second) :
    first ≠ second := by
  rintro rfl
  exact List.lt_irrefl _ precedes

/-- There is one list of the source files of two directories in order. -/
theorem allSourceFiles_eq {listed : List (List String)} (ordered : listed.Pairwise Precedes)
    (found : ∀ names ∈ listed, names ∈ engine.sourceFiles before ++ engine.sourceFiles after)
    (complete : ∀ names ∈ engine.sourceFiles before ++ engine.sourceFiles after, names ∈ listed) :
    engine.allSourceFiles before after = listed := by
  obtain ⟨increasing, members⟩ := @pairwise_allSourceFiles engine before after
  have permuted : (engine.allSourceFiles before after).Perm listed := by
    rw [List.perm_ext_iff_of_nodup (increasing.imp Precedes.ne)
      (ordered.imp Precedes.ne)]
    intro names
    rw [members, ← List.mem_append]
    exact ⟨complete names, found names⟩
  exact permuted.eq_of_pairwise
    (fun _ _ _ _ first second => absurd second (List.lt_asymm first)) increasing ordered

end

/-! ## One file -/

section

variable {engine : Engine} {tree before after : Option Entry} {names : List String}
  {revision : String}

/-- A side is one text, or it is missing. -/
theorem HasSide.eq (isTree : ∀ entry ∈ tree, entry.IsTree) {first second : Option String}
    (has : HasSide tree names first) (has' : HasSide tree names second) : first = second :=
  Except.ok.inj
    (((readSide_eq_ok_iff isTree).2 has).symm.trans ((readSide_eq_ok_iff isTree).2 has'))

/-- A side that is no text has none. -/
theorem HasSide.not_hasFault (isTree : ∀ entry ∈ tree, entry.IsTree) {side : Option String}
    (has : HasSide tree names side) : ¬HasFault tree names := by
  intro fault
  obtain ⟨error, refused⟩ := (readSide_eq_error_iff isTree).2 fault
  exact nomatch refused.symm.trans ((readSide_eq_ok_iff isTree).2 has)

/-- What can be found about a file. -/
theorem compareFile_cases (beforeTree : ∀ entry ∈ before, entry.IsTree)
    (afterTree : ∀ entry ∈ after, entry.IsTree) (revision : String) (names : List String) :
    (∃ side, compareFile before after revision names = .same ∧
      HasSide before names side ∧ HasSide after names side) ∨
    (∃ old new, compareFile before after revision names =
        .changed { path := reportedPath names, before := old, after := new, revision } ∧
      HasSide before names old ∧ HasSide after names new ∧ old ≠ new) ∨
    ∃ error, compareFile before after revision names =
        .unreadable { path := reportedPath names, result := .error (.file error) } ∧
      (HasFault before names ∨ HasFault after names) := by
  cases readOld : readSide before names with
  | error error =>
      refine Or.inr (Or.inr ⟨error, ?_, Or.inl ((readSide_eq_error_iff beforeTree).1 ⟨_, readOld⟩)⟩)
      rw [compareFile, readOld]
      rfl
  | ok old =>
      have hasOld := (readSide_eq_ok_iff beforeTree).1 readOld
      cases readNew : readSide after names with
      | error error =>
          refine Or.inr (Or.inr ⟨error, ?_, Or.inr ((readSide_eq_error_iff afterTree).1 ⟨_, readNew⟩)⟩)
          rw [compareFile, readOld, readNew]
          rfl
      | ok new =>
          have hasNew := (readSide_eq_ok_iff afterTree).1 readNew
          have compared : compareFile before after revision names =
              if old = new then .same
              else .changed { path := reportedPath names, before := old, after := new, revision } := by
            rw [compareFile, readOld, readNew]
            rfl
          by_cases same : old = new
          · subst new
            exact Or.inl ⟨old, by rw [compared, if_pos rfl], hasOld, hasNew⟩
          · exact Or.inr (Or.inl ⟨old, new, by rw [compared, if_neg same], hasOld, hasNew, same⟩)

/-- A file that is compared is not missing on both sides. -/
theorem IsCompared.exists_stands (compared : engine.IsCompared before after names) :
    ∃ own, Stands before names own ∨ Stands after names own := by
  rcases compared with source | source
  · obtain ⟨content, stands⟩ := source.regular
    exact ⟨_, Or.inl stands⟩
  · obtain ⟨content, stands⟩ := source.regular
    exact ⟨_, Or.inr stands⟩

/-- A change has the sides of its file. -/
theorem of_change?_eq_some (beforeTree : ∀ entry ∈ before, entry.IsTree)
    (afterTree : ∀ entry ∈ after, entry.IsTree) {change : FileChange}
    (found : (compareFile before after revision names).change? = some change) :
    change.path = reportedPath names ∧ HasSide before names change.before ∧
      HasSide after names change.after ∧ change.before ≠ change.after ∧
      change.revision = revision := by
  rcases compareFile_cases beforeTree afterTree revision names with
    ⟨side, same, -⟩ | ⟨old, new, changed, hasOld, hasNew, different⟩ | ⟨error, refused, -⟩
  · rw [same] at found
    cases found
  · rw [changed] at found
    cases found
    exact ⟨rfl, hasOld, hasNew, different, rfl⟩
  · rw [refused] at found
    cases found

/-- A failure says why its file cannot be read. -/
theorem of_failure?_eq_some (beforeTree : ∀ entry ∈ before, entry.IsTree)
    (afterTree : ∀ entry ∈ after, entry.IsTree) {diff : FileDiff}
    (found : (compareFile before after revision names).failure? = some diff) :
    diff.path = reportedPath names ∧ ∃ error, diff.result = .error (.file error) := by
  rcases compareFile_cases beforeTree afterTree revision names with
    ⟨side, same, -⟩ | ⟨old, new, changed, -⟩ | ⟨error, refused, -⟩
  · rw [same] at found
    cases found
  · rw [changed] at found
    cases found
  · rw [refused] at found
    cases found
    exact ⟨rfl, error, rfl⟩

/-- A change is found for the files that differ. -/
theorem isSome_change?_iff (beforeTree : ∀ entry ∈ before, entry.IsTree)
    (afterTree : ∀ entry ∈ after, entry.IsTree) :
    (compareFile before after revision names).change?.isSome = true ↔
      Differ before after names := by
  rcases compareFile_cases beforeTree afterTree revision names with
    ⟨side, found, hasOld, hasNew⟩ | ⟨old, new, found, hasOld, hasNew, different⟩ |
      ⟨error, found, fault⟩
  · rw [found]
    refine iff_of_false nofun ?_
    rintro ⟨old, new, hasOld', hasNew', different⟩
    exact different ((hasOld'.eq beforeTree hasOld).trans (hasNew.eq afterTree hasNew'))
  · rw [found]
    exact iff_of_true rfl ⟨old, new, hasOld, hasNew, different⟩
  · rw [found]
    refine iff_of_false nofun ?_
    rintro ⟨old, new, hasOld, hasNew, -⟩
    exact fault.elim (hasOld.not_hasFault beforeTree) (hasNew.not_hasFault afterTree)

/-- A failure is found for the files that cannot be read. -/
theorem isSome_failure?_iff (beforeTree : ∀ entry ∈ before, entry.IsTree)
    (afterTree : ∀ entry ∈ after, entry.IsTree) :
    (compareFile before after revision names).failure?.isSome = true ↔
      HasFault before names ∨ HasFault after names := by
  have readable {old new : Option String} (hasOld : HasSide before names old)
      (hasNew : HasSide after names new) : ¬(HasFault before names ∨ HasFault after names) :=
    not_or.2 ⟨hasOld.not_hasFault beforeTree, hasNew.not_hasFault afterTree⟩
  rcases compareFile_cases beforeTree afterTree revision names with
    ⟨side, found, hasOld, hasNew⟩ | ⟨old, new, found, hasOld, hasNew, -⟩ | ⟨error, found, fault⟩
  · rw [found]
    exact iff_of_false nofun (readable hasOld hasNew)
  · rw [found]
    exact iff_of_false nofun (readable hasOld hasNew)
  · rw [found]
    exact iff_of_true rfl fault

/-- A file that is compared is the same if it does not differ and can be read. -/
theorem areSame_iff (beforeTree : ∀ entry ∈ before, entry.IsTree)
    (afterTree : ∀ entry ∈ after, entry.IsTree) (compared : engine.IsCompared before after names) :
    AreSame before after names ↔
      ¬Differ before after names ∧ ¬(HasFault before names ∨ HasFault after names) := by
  constructor
  · rintro ⟨text, hasOld, hasNew⟩
    refine ⟨?_, not_or.2 ⟨hasOld.not_hasFault beforeTree, hasNew.not_hasFault afterTree⟩⟩
    rintro ⟨old, new, hasOld', hasNew', different⟩
    exact different ((hasOld'.eq beforeTree hasOld).trans (hasNew.eq afterTree hasNew'))
  · rintro ⟨alike, readable⟩
    rcases compareFile_cases beforeTree afterTree "" names with
      ⟨side, -, hasOld, hasNew⟩ | ⟨old, new, -, hasOld, hasNew, different⟩ | ⟨error, -, fault⟩
    · cases side with
      | some text => exact ⟨text, hasOld, hasNew⟩
      | none =>
          obtain ⟨own, stands⟩ := compared.exists_stands
          exact absurd stands (not_or.2 ⟨hasOld own, hasNew own⟩)
    · exact absurd ⟨old, new, hasOld, hasNew, different⟩ alike
    · exact absurd fault readable

/-! ## What is listed -/

theorem collectChanges_changes : (engine.collectChanges before after revision).changes =
    (engine.allSourceFiles before after).filterMap fun names =>
      (compareFile before after revision names).change? :=
  List.filterMap_map

theorem collectChanges_unreadable : (engine.collectChanges before after revision).unreadable =
    (engine.allSourceFiles before after).filterMap fun names =>
      (compareFile before after revision names).failure? :=
  List.filterMap_map

/-- What is found for some items stands in the order of these items. -/
theorem forall₂_filterMap {α β : Type} (find : α → Option β) (items : List α) :
    List.Forall₂ (fun item found => find item = some found)
      (items.filter fun item => (find item).isSome) (items.filterMap find) := by
  induction items with
  | nil => exact .nil
  | cons item items ih =>
      cases found : find item with
      | none => simpa [found] using ih
      | some result => simpa [found] using ih

/-- The source files of two directories are partitioned into the changed ones, those that
cannot be read and those that are the same. -/
theorem exists_partitions (engine : Engine) {before after : Option Entry}
    (beforeTree : ∀ entry ∈ before, entry.IsTree) (afterTree : ∀ entry ∈ after, entry.IsTree)
    (revision : String) :
    ∃ changed unreadable, Partitions engine before after revision
      (engine.collectChanges before after revision) changed unreadable := by
  let listed := engine.allSourceFiles before after
  have ordered : listed.Pairwise Precedes := pairwise_allSourceFiles.1
  have mem_listed_iff (names : List String) :
      names ∈ listed ↔ engine.IsCompared before after names :=
    mem_allSourceFiles_iff beforeTree afterTree
  let compare := compareFile before after revision
  refine ⟨listed.filter fun names => (compare names).change?.isSome,
    listed.filter fun names => (compare names).failure?.isSome, ?_, ?_, ordered.filter _,
    ordered.filter _, ?_, ?_, ?_, ?_, ?_⟩
  · rw [collectChanges_changes]
    exact (forall₂_filterMap (fun names => (compare names).change?) listed).imp
      fun names change found => of_change?_eq_some beforeTree afterTree found
  · rw [collectChanges_unreadable]
    exact (forall₂_filterMap (fun names => (compare names).failure?) listed).imp
      fun names diff found => of_failure?_eq_some beforeTree afterTree found
  · intro names member
    exact (mem_listed_iff names).1 (member.elim List.mem_of_mem_filter List.mem_of_mem_filter)
  · intro names changed failed
    have failure := Comparison.failure?_eq_none (List.mem_filter.1 changed).2
    exact Option.not_isSome_iff_eq_none.2 failure (List.mem_filter.1 failed).2
  · intro names compared
    rw [List.mem_filter, isSome_change?_iff beforeTree afterTree,
      and_iff_right ((mem_listed_iff names).2 compared)]
  · intro names compared
    rw [List.mem_filter, isSome_failure?_iff beforeTree afterTree,
      and_iff_right ((mem_listed_iff names).2 compared)]
  · intro names compared
    rw [areSame_iff beforeTree afterTree compared, List.mem_filter, List.mem_filter,
      isSome_change?_iff beforeTree afterTree, isSome_failure?_iff beforeTree afterTree,
      and_iff_right ((mem_listed_iff names).2 compared),
      and_iff_right ((mem_listed_iff names).2 compared)]

/-- Of two directories a changed file, a file of one side, a file that is no text and one
that stands opposite a directory are listed, and neither a file that is the same nor one in
a hidden directory. -/
theorem exists_partitions_listed :
    ∃ before after : Entry,
      (∀ entry ∈ some before, entry.IsTree) ∧ (∀ entry ∈ some after, entry.IsTree) ∧
      (∃ changed unreadable, Partitions default (some before) (some after) "r2"
        (default.collectChanges (some before) (some after) "r2") changed unreadable) ∧
      (default.collectChanges (some before) (some after) "r2").changes.map FileChange.path =
        ["a/x.py", "b.py"] ∧
      (default.collectChanges (some before) (some after) "r2").unreadable.map FileDiff.path =
        ["a.py", "bad.py"] := by
  let text (content : String) : Entry := .file content.toUTF8
  let before : Entry := .directory
    [("b.py", text "y = 1\n"), ("a.py", text "x = 1\n"), ("same.py", text "pass\n"),
      (".git", .directory [("hook.py", text "pass\n")]), ("bad.py", .file ⟨#[255]⟩)]
  let after : Entry := .directory
    [("a.py", .directory []), ("a", .directory [("x.py", text "pass\n")]),
      ("b.py", text "y = 2\n"), ("same.py", text "pass\n")]
  have beforeTree : ∀ entry ∈ some before, entry.IsTree := by
    rintro entry ⟨⟩
    refine .directory (by decide +kernel) (by decide +kernel) ?_
    simp only [List.forall_mem_cons]
    exact ⟨.file _, .file _, .file _, .directory (by decide) (by decide)
      (List.forall_mem_singleton.2 (.file _)), .file _, nofun⟩
  have afterTree : ∀ entry ∈ some after, entry.IsTree := by
    rintro entry ⟨⟩
    refine .directory (by decide +kernel) (by decide +kernel) ?_
    simp only [List.forall_mem_cons]
    exact ⟨.directory (by decide) (by decide) nofun, .directory (by decide) (by decide)
      (List.forall_mem_singleton.2 (.file _)), .file _, .file _, nofun⟩
  have listed : default.allSourceFiles (some before) (some after) =
      [["a", "x.py"], ["a.py"], ["b.py"], ["bad.py"], ["same.py"]] :=
    allSourceFiles_eq (by decide +kernel) (by decide +kernel) (by decide +kernel)
  refine ⟨before, after, beforeTree, afterTree,
    exists_partitions default beforeTree afterTree "r2", ?_, ?_⟩
  · rw [collectChanges_changes, listed]
    decide +kernel
  · rw [collectChanges_unreadable, listed]
    decide +kernel

end

end Engine

end SemanticDiff
