import SemanticDiff.Engine.Basic
import SemanticDiff.Proofs.Catalog.Findings
import SemanticDiff.Proofs.Collection.Result
import SemanticDiff.Proofs.Event.Assembly

/-!
# The events of a comparison

A comparison of two units that were read always succeeds.  Its events tell what
the rules report about the contexts of the two units, each change once.
-/

namespace SemanticDiff

open SemanticDiff.Catalog (Context Finds contexts classifyAll numberedRules)
open SemanticDiff.Outline (Key Node NodeKind SourceUnit)

/-- The events tell what is reported about some contexts, each change once. -/
structure Tells (events : List Event) (contexts : List Context) : Prop where
  sound : ∀ event ∈ events, ∃ context ∈ contexts,
    event.key = context.key ∧ event.kind = context.kind ∧ context.Reports event.draft
  complete : ∀ context ∈ contexts, ∀ draft, context.Reports draft → ∃ event ∈ events,
    event.key = context.key ∧ event.kind = context.kind ∧ event.draft = draft
  distinct : (events.map Event.change).Nodup

/-- Findings are told without loss, if what is reported about a key also tells
the kind of its node. -/
theorem exists_tells_assemble {contexts : List Context}
    (holds : ∀ context ∈ contexts, ∀ feature, context.Holds feature)
    (unambiguous : ∀ first ∈ contexts, ∀ second ∈ contexts, first.key = second.key →
      ∀ draft, first.Reports draft → second.Reports draft → first.kind = second.kind) :
    ∃ findings, classifyAll contexts = .ok findings ∧
      ∀ path revision, Tells (assemble path revision findings) contexts := by
  obtain ⟨findings, made, found⟩ := Catalog.exists_classifyAll holds
  refine ⟨findings, made, ?_⟩
  intro path revision
  have sound : ∀ event ∈ assemble path revision findings, ∃ context ∈ contexts,
      event.key = context.key ∧ event.kind = context.kind ∧ context.Reports event.draft := by
    intro event member
    obtain ⟨finding, findingMem, key, kind, draft⟩ := exists_finding_of_mem_assemble member
    rcases (found finding).1 findingMem with ⟨context, contextMem, entry, entryMem, finds⟩
    obtain ⟨findingKey, findingKind, reports⟩ := Catalog.reports_of_finds entryMem finds
    rw [key, kind, draft]
    exact ⟨context, contextMem, findingKey, findingKind, reports⟩
  refine ⟨sound, ?_, nodup_assemble path revision findings⟩
  intro context contextMem draft reports
  obtain ⟨entry, entryMem, finding, finds, key, kind, rfl⟩ :=
    Catalog.exists_finds_of_reports reports
  obtain ⟨event, eventMem, change⟩ := List.mem_map.1 (@change_mem_assemble path revision _ finding
    ((found finding).2 ⟨context, contextMem, entry, entryMem, finds⟩))
  obtain ⟨eventKey, eventDraft⟩ := Prod.mk.inj change
  -- The event may stand for another finding of the same change.
  obtain ⟨other, otherMem, otherKey, otherKind, otherReports⟩ := sound event eventMem
  rw [key] at eventKey
  rw [eventDraft] at otherReports
  have sameKind := unambiguous other otherMem context contextMem (otherKey.symm.trans eventKey)
    finding.draft otherReports reports
  exact ⟨event, eventMem, eventKey, otherKind.trans sameKind, eventDraft⟩

namespace Engine

variable {before after : SourceUnit}

theorem finish_nil (engine : Engine) (path revision : String) :
    engine.finish path revision [] = [] := by
  simp [finish, assemble, Finding.keepFirst]

theorem finish_default (path revision : String) (findings : List Finding) :
    default.finish path revision findings = assemble path revision findings := by
  simp [finish, default]

theorem diffUnits_eq (engine : Engine) {findings : List Finding}
    (made : classifyAll (contexts before after) = .ok findings) :
    engine.diffUnits before after = .ok (engine.finish after.path after.revision findings) := by
  rw [diffUnits, made]
  rfl

/-- The comparison of two units succeeds, and its events tell what is reported
about their contexts. -/
theorem exists_diffUnits (beforeRead : before.IsRead) (afterRead : after.IsRead) :
    ∃ events, default.diffUnits before after = .ok events ∧
      Tells events (contexts before after) := by
  obtain ⟨findings, made, tells⟩ := exists_tells_assemble
    (fun context member => Catalog.holds_of_mem_contexts beforeRead afterRead member)
    (fun first firstMem second secondMem sameKey draft =>
      Catalog.kind_eq_of_reports beforeRead afterRead firstMem secondMem sameKey)
  refine ⟨_, default.diffUnits_eq made, ?_⟩
  rw [finish_default]
  exact tells after.path after.revision

/-- Units without reports have no events, whatever the settings. -/
theorem diffUnits_eq_nil (engine : Engine) (beforeRead : before.IsRead) (afterRead : after.IsRead)
    (silent : ∀ context ∈ contexts before after, ∀ draft, ¬ context.Reports draft) :
    engine.diffUnits before after = .ok [] := by
  have none := (Catalog.classifyAll_eq_nil_iff fun context member =>
    Catalog.holds_of_mem_contexts beforeRead afterRead member).2 silent
  rw [engine.diffUnits_eq none, finish_nil]

/-- There are no events exactly when nothing is reported. -/
theorem diffUnits_default_eq_nil_iff (beforeRead : before.IsRead) (afterRead : after.IsRead) :
    default.diffUnits before after = .ok [] ↔
      ∀ context ∈ contexts before after, ∀ draft, ¬ context.Reports draft := by
  constructor
  · intro none context member draft reports
    obtain ⟨events, made, tells⟩ := exists_diffUnits beforeRead afterRead
    rw [none] at made
    cases made
    obtain ⟨event, eventMem, -⟩ := tells.complete context member draft reports
    simp at eventMem
  · exact diffUnits_eq_nil default beforeRead afterRead

/-! ## Texts -/

theorem exists_read (path revision text : String)
    (readable : (SourceUnit.read path revision text).isOk = true) :
    ∃ unit, SourceUnit.read path revision text = .ok unit := by
  cases made : SourceUnit.read path revision text with
  | error => simp [made, Except.isOk, Except.toBool] at readable
  | ok unit => exact ⟨unit, rfl⟩

theorem readUnit_eq_ok_iff {path revision text : String} {unit : SourceUnit} :
    readUnit path revision text = .ok unit ↔ SourceUnit.read path revision text = .ok unit := by
  rw [readUnit, mapError_eq_ok_iff]

/-- The comparison of two texts that can be read is that of their units. -/
theorem diff_eq_diffUnits (engine : Engine) {path revision old new : String}
    (supported : engine.supports path = true) (included : engine.isExcluded path = false)
    (oldRead : SourceUnit.read path revision old = .ok before)
    (newRead : SourceUnit.read path revision new = .ok after) :
    engine.diff path (some old) (some new) revision =
      (engine.diffUnits before after).mapError DiffError.vocabulary := by
  have oldUnit := readUnit_eq_ok_iff.2 oldRead
  have newUnit := readUnit_eq_ok_iff.2 newRead
  simp only [diff, Option.isNone_some, Bool.and_self, Bool.false_eq_true, if_false, supported,
    included, Bool.not_true, oldUnit, newUnit]
  rfl

/-- A path that is passed over has no events. -/
theorem diff_eq_nil_of_isExcluded (engine : Engine) {path revision : String}
    {old new : Option String} (supported : engine.supports path = true)
    (excluded : engine.isExcluded path = true) : engine.diff path old new revision = .ok [] := by
  unfold diff
  split
  · rfl
  · rw [if_neg (by simp [supported])]

theorem isExcluded_default (path : String) : default.isExcluded path = false :=
  rfl

/-- A diff of two texts succeeds exactly when their path is that of a source file
and both can be read. -/
theorem diff_default_eq_ok_iff {path revision old new : String} {events : List Event} :
    default.diff path (some old) (some new) revision = .ok events ↔
      default.supports path = true ∧ ∃ before after,
        SourceUnit.read path revision old = .ok before ∧
        SourceUnit.read path revision new = .ok after ∧
        default.diffUnits before after = .ok events := by
  constructor
  · intro made
    simp only [diff, Option.isNone_some, Bool.and_self, Bool.false_eq_true, if_false,
      isExcluded_default] at made
    split at made
    · cases made
    · rename_i supported
      refine ⟨by simpa using supported, ?_⟩
      cases oldUnit : readUnit path revision old with
      | error =>
          rw [oldUnit] at made
          cases made
      | ok before =>
          rw [oldUnit] at made
          cases newUnit : readUnit path revision new with
          | error =>
              rw [newUnit] at made
              cases made
          | ok after =>
              rw [newUnit] at made
              exact ⟨before, after, readUnit_eq_ok_iff.1 oldUnit, readUnit_eq_ok_iff.1 newUnit,
                mapError_eq_ok_iff.1 made⟩
  · rintro ⟨supported, before, after, oldRead, newRead, made⟩
    rw [default.diff_eq_diffUnits supported (isExcluded_default path) oldRead newRead, made]
    rfl

end Engine

end SemanticDiff
