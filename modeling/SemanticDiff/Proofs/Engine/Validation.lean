import SemanticDiff.Proofs.Catalog.Blocks
import SemanticDiff.Proofs.Engine.Events
import SemanticDiff.Proofs.Engine.Inventory

/-!
# What the check of the catalog promises

The catalog is checked against a vocabulary once.  If it passes, no rule fails on
snapshots over that vocabulary, however they were written, so a diff of an engine
fails for its path or its texts only.  If it does not pass, the feature it names is
the first declared one that is missing.
-/

namespace SemanticDiff.Feature.Snapshot

/-- The snapshots that writing makes of the zero snapshot over a vocabulary.  A
value that is refused changes nothing. -/
inductive Written (vocabulary : List Feature) : Snapshot → Prop where
  | zero : Written vocabulary (Snapshot.zero vocabulary)
  | set {snapshot changed : Snapshot} {feature : Feature} {value : Value} :
      Written vocabulary snapshot → snapshot.set feature value = .ok changed →
      Written vocabulary changed

variable {vocabulary : List Feature} {snapshot : Snapshot}

/-- Writing keeps every feature of the vocabulary in its shape. -/
theorem Written.holds {feature : Feature} (written : Written vocabulary snapshot)
    (member : feature ∈ vocabulary) : snapshot.Holds feature := by
  induction written with
  | zero => exact holds_zero member
  | set _ made ih => exact ih.of_set made

theorem Written.setAll (written : Written vocabulary snapshot)
    (values : List (Feature × Value)) : Written vocabulary (snapshot.setAll values) :=
  setAll_induction Written.set written values

end SemanticDiff.Feature.Snapshot

namespace SemanticDiff.Catalog

open SemanticDiff.Feature (Mismatch Snapshot)
open SemanticDiff.Outline (Node SourceUnit)

/-! ## Contexts over a vocabulary -/

/-- The snapshot of every side that exists is one over the vocabulary. -/
def Context.IsOver (vocabulary : List Feature) (context : Context) : Prop :=
  ∀ side : Side, context.before = some side ∨ context.after = some side →
    side.features.Written vocabulary

theorem Side.written_ofNode (unit : SourceUnit) (node : Node) :
    (Side.ofNode unit node).features.Written Feature.extracted := by
  rw [Side.features_ofNode, Feature.extract_eq]
  exact Snapshot.Written.zero.setAll _

theorem Context.isOver_added (after : SourceUnit) (new : Node) :
    (added after new).IsOver Feature.extracted := by
  rintro side (found | found)
  · cases found
  · rw [← Option.some.inj found]
    exact Side.written_ofNode after new

theorem Context.isOver_of_mem_contexts {before after : SourceUnit} (beforeRead : before.IsRead)
    (afterRead : after.IsRead) {context : Context} (member : context ∈ contexts before after) :
    context.IsOver Feature.extracted := by
  rcases (mem_contexts_iff beforeRead afterRead).1 member with
    ⟨old, -, new, -, -, rfl⟩ | ⟨old, -, -, rfl⟩ | ⟨new, -, -, rfl⟩
  · rintro side (found | found)
    · rw [← Option.some.inj found]
      exact Side.written_ofNode before old
    · rw [← Option.some.inj found]
      exact Side.written_ofNode after new
  · rintro side (found | found)
    · rw [← Option.some.inj found]
      exact Side.written_ofNode before old
    · cases found
  · exact isOver_added after new

/-! ## Checks -/

variable {vocabulary : List Feature}

theorem validate_eq_ok_iff :
    validate vocabulary = .ok () ↔ ∀ feature ∈ allReads, feature ∈ vocabulary := by
  rw [validate]
  cases missing : allReads.find? fun feature => !vocabulary.contains feature with
  | none => simpa using missing
  | some feature =>
      have absent := List.find?_some missing
      have listed := List.mem_of_find?_eq_some missing
      simp only [reduceCtorEq, false_iff, not_forall]
      exact ⟨feature, listed, by simpa using absent⟩

/-- The check names the first declared feature that the vocabulary lacks. -/
theorem validate_eq_error_iff {mismatch : Mismatch} :
    validate vocabulary = .error mismatch ↔
      ∃ earlier feature later, allReads = earlier ++ feature :: later ∧
        (∀ other ∈ earlier, other ∈ vocabulary) ∧ feature ∉ vocabulary ∧
        mismatch = ⟨feature, feature.kind, none⟩ := by
  have first (feature : Feature) :
      (allReads.find? fun feature => !vocabulary.contains feature) = some feature ↔
        feature ∉ vocabulary ∧ ∃ earlier later, allReads = earlier ++ feature :: later ∧
          ∀ other ∈ earlier, other ∈ vocabulary := by
    simp [List.find?_eq_some_iff_append]
  rw [validate]
  constructor
  · intro failed
    split at failed
    · rename_i feature missing
      cases failed
      obtain ⟨absent, earlier, later, split, present⟩ := (first feature).1 missing
      exact ⟨earlier, feature, later, split, present, absent, rfl⟩
    · cases failed
  · rintro ⟨earlier, feature, later, split, present, absent, rfl⟩
    rw [(first feature).2 ⟨absent, earlier, later, split, present⟩]

/-! ## Rules on a checked vocabulary -/

/-- A rule of a checked catalog does not fail. -/
theorem exists_classify_of_validate (valid : validate vocabulary = .ok ()) {context : Context}
    (isOver : context.IsOver vocabulary) {rule : Rule} (member : rule ∈ rules) :
    ∃ drafts, rule.classify context = .ok drafts := by
  obtain ⟨drafts, made, -⟩ := honoursContract_of_mem_rules rule member context fun feature read =>
    fun side present => (isOver side present).holds
      (validate_eq_ok_iff.1 valid feature (List.mem_flatMap.2 ⟨rule, member, read⟩))
  exact ⟨drafts, made⟩

theorem exists_classifyWith_of_validate (valid : validate vocabulary = .ok ()) {context : Context}
    (isOver : context.IsOver vocabulary) {numbered : List (Nat × Rule)}
    (listed : ∀ entry ∈ numbered, entry.2 ∈ rules) :
    ∃ findings, classifyWith context numbered = .ok findings := by
  induction numbered with
  | nil => exact ⟨[], rfl⟩
  | cons entry others ih =>
      rcases List.forall_mem_cons.1 listed with ⟨own, otherListed⟩
      obtain ⟨drafts, made⟩ := exists_classify_of_validate valid isOver own
      obtain ⟨rest, restMade⟩ := ih otherListed
      rw [classifyWith, restMade, findingsOf, made]
      split
      · exact ⟨_, rfl⟩
      · exact ⟨_, rfl⟩

theorem exists_classifyAll_of_validate (valid : validate vocabulary = .ok ())
    {contexts : List Context} (covered : ∀ context ∈ contexts, context.IsOver vocabulary) :
    ∃ findings, classifyAll contexts = .ok findings := by
  induction contexts with
  | nil => exact ⟨[], rfl⟩
  | cons context others ih =>
      rcases List.forall_mem_cons.1 covered with ⟨own, otherOver⟩
      obtain ⟨first, firstMade⟩ := exists_classifyWith_of_validate valid own fun entry =>
        mem_rules_of_mem_numberedRules
      obtain ⟨rest, restMade⟩ := ih otherOver
      rw [classifyAll, classify, firstMade, restMade]
      exact ⟨_, rfl⟩

end SemanticDiff.Catalog

namespace SemanticDiff.Engine

open SemanticDiff.Catalog (Context rules validate)
open SemanticDiff.Feature (Snapshot)
open SemanticDiff.Outline (SourceUnit)

/-! ## Diffs of a checked engine -/

/-- An engine is made only if the catalog passes the check. -/
theorem validate_of_ofSettings {settings : Settings} {engine : Engine}
    (made : ofSettings settings = .ok engine) : validate Feature.extracted = .ok () := by
  cases valid : validate Feature.extracted with
  | ok => rfl
  | error mismatch =>
      rw [ofSettings, valid] at made
      cases checked : settings.validate with
      | ok globs =>
          rw [checked] at made
          cases made
      | error =>
          rw [checked] at made
          cases made

/-- What goes on after a text was read fails for the text or afterwards. -/
theorem of_readUnit_bind_eq_error {path revision text : String} {error : DiffError}
    {next : SourceUnit → Except DiffError (List Event)}
    (failed : (readUnit path revision text >>= next) = .error error) :
    (∃ fault, SourceUnit.read path revision text = .error fault ∧ error = .unit fault) ∨
      ∃ unit, unit.IsRead ∧ next unit = .error error := by
  rw [readUnit] at failed
  cases made : SourceUnit.read path revision text with
  | error fault =>
      rw [made] at failed
      cases failed
      exact Or.inl ⟨fault, rfl, rfl⟩
  | ok unit =>
      rw [made] at failed
      exact Or.inr ⟨unit, SourceUnit.isRead_of_read made, failed⟩

theorem exists_diffUnits_of_validate (valid : validate Feature.extracted = .ok ())
    (engine : Engine) {before after : SourceUnit} (beforeRead : before.IsRead)
    (afterRead : after.IsRead) : ∃ events, engine.diffUnits before after = .ok events := by
  obtain ⟨findings, made⟩ := Catalog.exists_classifyAll_of_validate valid fun context =>
    Context.isOver_of_mem_contexts beforeRead afterRead
  exact ⟨_, engine.diffUnits_eq made⟩

theorem exists_addedUnit_of_validate (valid : validate Feature.extracted = .ok ())
    (engine : Engine) (after : SourceUnit) : ∃ events, engine.addedUnit after = .ok events := by
  have covered : ∀ context ∈ addedContexts after, context.IsOver Feature.extracted := by
    intro context member
    rcases mem_addedContexts_iff.1 member with ⟨new, -, rfl⟩
    exact Context.isOver_added after new
  obtain ⟨findings, made⟩ := Catalog.exists_classifyAll_of_validate valid covered
  rw [addedUnit, made]
  exact ⟨_, rfl⟩

/-- The path is not that of a source file, or one of the texts has no unit. -/
def IsRefusal (path revision : String) (before after : Option String) (error : DiffError) : Prop :=
  error = .unsupported path ∨
    ∃ text fault, (before = some text ∨ after = some text) ∧
      SourceUnit.read path revision text = .error fault ∧ error = .unit fault

theorem isRefusal_of_diff_eq_error (valid : validate Feature.extracted = .ok ()) {engine : Engine}
    {path revision : String} {before after : Option String} {error : DiffError}
    (failed : engine.diff path before after revision = .error error) :
    IsRefusal path revision before after error := by
  unfold diff at failed
  split at failed
  · cases failed
  split at failed
  · exact Or.inl (Except.error.inj failed).symm
  split at failed
  · cases failed
  right
  cases after with
  | none => cases before <;> cases failed
  | some new =>
      cases before with
      | none =>
          rcases of_readUnit_bind_eq_error failed with ⟨fault, unread, rfl⟩ | ⟨after, -, late⟩
          · exact ⟨new, fault, Or.inr rfl, unread, rfl⟩
          · obtain ⟨events, made⟩ := exists_addedUnit_of_validate valid engine after
            rw [made] at late
            cases late
      | some old =>
          rcases of_readUnit_bind_eq_error failed with
            ⟨fault, unread, rfl⟩ | ⟨before, beforeRead, later⟩
          · exact ⟨old, fault, Or.inl rfl, unread, rfl⟩
          rcases of_readUnit_bind_eq_error later with
            ⟨fault, unread, rfl⟩ | ⟨after, afterRead, late⟩
          · exact ⟨new, fault, Or.inr rfl, unread, rfl⟩
          · obtain ⟨events, made⟩ := exists_diffUnits_of_validate valid engine beforeRead afterRead
            rw [made] at late
            cases late

/-- The check of the catalog is sound.  If a vocabulary passes it, then no rule
fails on snapshots over the vocabulary, neither by itself nor in a classification.
If it does not pass, the feature that is named is the first one, in the order of
the catalog and of the declarations, that is missing.  So a checked engine refuses
a diff only for its path or its texts. -/
theorem validate_sound (vocabulary : List Feature) :
    (validate vocabulary = .ok () → ∀ context : Context, context.IsOver vocabulary →
      (∀ rule ∈ rules, ∃ drafts, rule.classify context = .ok drafts) ∧
        ∃ findings, Catalog.classify context = .ok findings) ∧
    (∀ mismatch, validate vocabulary = .error mismatch ↔
      ∃ earlier feature later,
        rules.flatMap Catalog.Rule.reads = earlier ++ feature :: later ∧
        (∀ other ∈ earlier, other ∈ vocabulary) ∧ feature ∉ vocabulary ∧
        mismatch = ⟨feature, feature.kind, none⟩) ∧
    ∀ settings engine, ofSettings settings = .ok engine →
      ∀ path before after revision error,
        engine.diff path before after revision = .error error →
        IsRefusal path revision before after error := by
  refine ⟨fun valid context isOver => ⟨?_, ?_⟩, fun mismatch => Catalog.validate_eq_error_iff, ?_⟩
  · intro rule member
    exact Catalog.exists_classify_of_validate valid isOver member
  · exact Catalog.exists_classifyWith_of_validate valid isOver fun entry =>
      Catalog.mem_rules_of_mem_numberedRules
  · intro settings engine made path before after revision error failed
    exact isRefusal_of_diff_eq_error (validate_of_ofSettings made) failed

/-- A vocabulary without caught exceptions lacks what is read where both sides have
handlers, and the check says so.  With all features the comparison of two such sides
succeeds, and an engine refuses only a text that is not valid. -/
theorem validate_sound_handlers :
    validate (Feature.extracted.erase .handlerTypes) = .error ⟨.handlerTypes, .tally, none⟩ ∧
    (∃ handlers, (Snapshot.zero Feature.extracted).set .exceptionHandlers (.count 2) =
        .ok handlers ∧
      ∃ findings, Catalog.classify
        { key := .module, kind := .module, before := some ⟨⟨0, 0, 1, 1⟩, handlers⟩,
          after := some ⟨⟨0, 0, 1, 1⟩, handlers⟩ } = .ok findings) ∧
    ofSettings {} = .ok default ∧ ∃ error,
      default.diff "m.py" none (some "def f(:") "r1" = .error error ∧
      IsRefusal "m.py" "r1" none (some "def f(:") error := by
  have plain : (({} : Settings).extensions.any fun extension =>
      extension.isEmpty || extension.startsWith ".") = false := by
    decide +kernel
  have built : ofSettings {} = .ok default := by
    rw [ofSettings, Settings.validate, plain]
    rfl
  refine ⟨((validate_sound _).2.1 _).2 ?_, ⟨_, rfl, ?_⟩, built, ?_⟩
  · refine ⟨[.signature, .decoratorNames, .exceptionHandlers, .exceptionHandlers], .handlerTypes,
      _, rfl, by decide +kernel, by decide +kernel, rfl⟩
  · refine ((validate_sound Feature.extracted).1 rfl _ ?_).2
    have written : (Snapshot.zero Feature.extracted).set .exceptionHandlers (.count 2) = .ok _ :=
      rfl
    rintro side (found | found) <;> cases found <;> exact Snapshot.Written.zero.set written
  · cases failed : default.diff "m.py" none (some "def f(:") "r1" with
    | error error => exact ⟨error, rfl, (validate_sound []).2.2 {} default built _ _ _ _ _ failed⟩
    | ok events =>
        have refused : (default.diff "m.py" none (some "def f(:") "r1").isOk = false := by
          decide +kernel
        rw [failed] at refused
        cases refused

end SemanticDiff.Engine
