import Mathlib.Data.Finset.Dedup
import Mathlib.Data.Finset.Insert
import SemanticDiff.Proofs.Engine.Events
import SemanticDiff.Proofs.Event.Order
import SemanticDiff.Proofs.Event.Persistence

/-!
# Event types that are not reported

An engine drops events of disabled types when all events have been put together.  It
could as well have dropped the findings before: findings of different types never stand
for each other, and what is left keeps its order.  So disabled types leave no other
trace, and of the names that disable them only the set matters.
-/

namespace SemanticDiff

open SemanticDiff.Catalog (contexts)
open SemanticDiff.Outline (SourceUnit)

/-! ## Names -/

theorem EventType.ofName?_eq_some_iff {text : String} {type : EventType} :
    ofName? text = some type ↔ type.name = text := by
  constructor
  · intro found
    rw [ofName?] at found
    have named := List.find?_some found
    exact eq_of_beq named
  · rintro rfl
    exact ofName?_name type

namespace Settings

theorem mem_disabled_iff {settings : Settings} {type : EventType} :
    type ∈ settings.disabled ↔ type.name ∈ settings.disabledEvents := by
  simp only [disabled, List.mem_filterMap, EventType.ofName?_eq_some_iff]
  constructor
  · rintro ⟨name, member, rfl⟩
    exact member
  · intro member
    exact ⟨type.name, member, rfl⟩

/-- A type is reported exactly if it is not disabled. -/
theorem isEnabled_eq (settings : Settings) (type : EventType) :
    settings.isEnabled type = decide (type ∉ settings.disabled) := by
  rw [Bool.eq_iff_iff, decide_eq_true_iff, mem_disabled_iff, isEnabled]
  simp only [Bool.not_eq_true', List.any_eq_false, beq_iff_eq]
  exact List.forall_mem_ne'

end Settings

/-! ## Findings that pass a test -/

namespace Finding

/-- If the test looks at nothing but the change, only findings that pass it stand for
findings that pass it. -/
theorem filter_keepFirst {test : Finding → Bool}
    (respects : ∀ first second : Finding, first.change = second.change → test first = test second)
    (seen findings : List Finding) :
    (keepFirst seen findings).filter test = keepFirst (seen.filter test) (findings.filter test) := by
  induction findings generalizing seen with
  | nil => rfl
  | cons first rest ih =>
      by_cases passes : test first = true
      · have sameSeen : (seen.filter test).any (sameReport first) = seen.any (sameReport first) := by
          rw [List.any_filter]
          apply List.any_congr rfl
          intro earlier
          by_cases same : sameReport first earlier = true
          · rw [← respects first earlier (sameReport_iff.1 same), passes, Bool.true_and]
          · rw [Bool.eq_false_of_not_eq_true same, Bool.and_false]
        rw [List.filter_cons_of_pos passes, keepFirst, keepFirst, sameSeen]
        split
        · exact ih seen
        · rw [List.filter_cons_of_pos passes, ih, List.filter_cons_of_pos passes]
      · rw [List.filter_cons_of_neg passes, keepFirst]
        split
        · exact ih seen
        · rw [List.filter_cons_of_neg passes, ih, List.filter_cons_of_neg passes]

end Finding

/-- Findings become events before or after a choice among their types. -/
theorem filter_mapIdx_toEvent (path revision : String) (enabled : EventType → Bool)
    (findings : List Finding) :
    (((findings.mapIdx fun order finding => finding.toEvent path revision order).filter
        fun event => enabled event.type).mapIdx fun order event => { event with order }) =
      (findings.filter fun finding => enabled finding.draft.type).mapIdx fun order finding =>
        finding.toEvent path revision order := by
  have kept : findings.filter (fun finding => enabled finding.draft.type) =
      (findings.zipIdx.filter fun entry => enabled entry.1.draft.type).map Prod.fst := by
    conv_lhs => rw [← List.zipIdx_map_fst 0 findings, List.filter_map]
    rfl
  rw [kept, @List.mapIdx_eq_zipIdx_map _ _ findings, List.filter_map]
  apply List.ext_getElem
  · simp [Function.comp_def, Finding.toEvent]
  · intro order _ _
    simp [Function.comp_def, Finding.toEvent]

/-- A choice among the types can be made before the findings are put together. -/
theorem mapIdx_filter_assemble (path revision : String) (enabled : EventType → Bool)
    (findings : List Finding) :
    (((assemble path revision findings).filter fun event => enabled event.type).mapIdx
        fun order event => { event with order }) =
      assemble path revision (findings.filter fun finding => enabled finding.draft.type) := by
  have respects (first second : Finding) (same : first.change = second.change) :
      enabled first.draft.type = enabled second.draft.type := by
    rw [(Prod.mk.inj same).2]
  rw [assemble, filter_mapIdx_toEvent, Finding.filter_keepFirst respects,
    filter_mergeSort Finding.precedes_trans Finding.precedes_total]
  rfl

/-- The events of other types, numbered anew. -/
def Event.without (types : Finset EventType) (events : List Event) : List Event :=
  (events.filter fun event => event.type ∉ types).mapIdx fun order event => { event with order }

namespace Engine

variable {engine : Engine}

theorem finish_eq_assemble (engine : Engine) (path revision : String) (findings : List Finding) :
    engine.finish path revision findings = assemble path revision
      (findings.filter fun finding => engine.settings.isEnabled finding.draft.type) := by
  rw [finish]
  split
  · rename_i none
    have enabled (type : EventType) : engine.settings.isEnabled type = true := by
      rw [Settings.isEnabled, List.isEmpty_iff.1 none]
      rfl
    simp only [enabled, List.filter_true]
  · exact mapIdx_filter_assemble path revision engine.settings.isEnabled findings

/-! ## Comparisons -/

section

variable {types : Finset EventType}

/-- What an engine makes of findings is what the default engine makes of them, without
the disabled types. -/
theorem finish_eq_without (disables : engine.settings.disabled.toFinset = types)
    (path revision : String) (findings : List Finding) :
    engine.finish path revision findings =
      Event.without types (default.finish path revision findings) := by
  have enabled (type : EventType) :
      engine.settings.isEnabled type = decide (type ∉ types) := by
    rw [Settings.isEnabled_eq, ← disables]
    simp only [List.mem_toFinset]
  rw [finish_eq_assemble, finish_default, Event.without, ← mapIdx_filter_assemble]
  simp only [enabled]

theorem diffUnits_eq_without (disables : engine.settings.disabled.toFinset = types)
    (before after : SourceUnit) :
    engine.diffUnits before after = (default.diffUnits before after).map (Event.without types) := by
  rw [diffUnits, diffUnits]
  cases Catalog.classifyAll (contexts before after) with
  | error => rfl
  | ok findings =>
      exact congrArg Except.ok (finish_eq_without disables after.path after.revision findings)

theorem addedUnit_eq_without (disables : engine.settings.disabled.toFinset = types)
    (after : SourceUnit) :
    engine.addedUnit after = (default.addedUnit after).map (Event.without types) := by
  rw [addedUnit, addedUnit]
  cases Catalog.classifyAll (addedContexts after) with
  | error => rfl
  | ok findings =>
      exact congrArg Except.ok (finish_eq_without disables after.path after.revision findings)

theorem handles_default (extension : String) :
    default.settings.handles extension = parsedExtensions.contains extension := by
  rw [Settings.handles, List.contains_eq_any_beq]
  exact List.any_congr rfl fun other => BEq.comm

/-- The default engine takes every file that another engine takes. -/
theorem supports_default_of_supports {path : String} (supported : engine.supports path = true) :
    default.supports path = true := by
  rw [supports, Bool.and_eq_true] at supported
  rw [supports, handles_default, supported.2, Bool.and_true]

theorem map_bind {ε α β γ : Type} (result : Except ε α) (next : α → Except ε β) (view : β → γ) :
    (result >>= next).map view = result >>= fun value => (next value).map view := by
  cases result <;> rfl

theorem map_mapError {ε ε' α β : Type} (result : Except ε α) (change : ε → ε') (view : α → β) :
    (result.map view).mapError change = (result.mapError change).map view := by
  cases result <;> rfl

/-- An engine has the results of the default engine, without the disabled types. -/
theorem diff_eq_without (disables : engine.settings.disabled.toFinset = types) {path : String}
    (supported : engine.supports path = true) (included : engine.isExcluded path = false)
    (before after : Option String) (revision : String) :
    engine.diff path before after revision =
      (default.diff path before after revision).map (Event.without types) := by
  simp only [diff, supported, supports_default_of_supports supported, included,
    isExcluded_default, Bool.not_true, Bool.false_eq_true, if_false]
  cases after with
  | none => cases before <;> rfl
  | some new =>
      simp only [Option.isNone_some, Bool.and_false, Bool.false_eq_true, if_false]
      cases before with
      | none => simp only [map_bind, addedUnit_eq_without disables, map_mapError]
      | some old => simp only [map_bind, diffUnits_eq_without disables, map_mapError]

end

/-- Findings of disabled types could have been left out from the beginning.  So an engine
has the results of the default engine without the types that it disables, however these
are listed, and among them the events of two texts that can be read. -/
theorem events_without_disabled :
    (∀ (engine : Engine) (path revision : String) (findings : List Finding),
      engine.finish path revision findings = assemble path revision
        (findings.filter fun finding => engine.settings.isEnabled finding.draft.type)) ∧
    ∀ (engine : Engine) (types : Finset EventType), engine.settings.disabled.toFinset = types →
      ∀ path, engine.supports path = true → engine.isExcluded path = false → ∀ revision,
        (∀ before after, engine.diff path before after revision =
          (default.diff path before after revision).map (Event.without types)) ∧
        ∀ old new before after, SourceUnit.read path revision old = .ok before →
          SourceUnit.read path revision new = .ok after →
            ∃ events, default.diff path (some old) (some new) revision = .ok events ∧
              engine.diff path (some old) (some new) revision =
                .ok (Event.without types events) := by
  refine ⟨finish_eq_assemble, ?_⟩
  intro engine types disables path supported included revision
  have same := diff_eq_without disables supported included
  refine ⟨fun before after => same before after revision, ?_⟩
  intro old new before after oldRead newRead
  obtain ⟨events, made, -⟩ := exists_diffUnits (SourceUnit.isRead_of_read oldRead)
    (SourceUnit.isRead_of_read newRead)
  have found := diff_default_eq_ok_iff.2
    ⟨supports_default_of_supports supported, before, after, oldRead, newRead, made⟩
  refine ⟨events, found, ?_⟩
  rw [same, found]
  rfl

/-- Two ways to disable the same types, one with a name in it twice. -/
theorem events_without_disabled_repeated :
    let types : Finset EventType := {.nodeAdded, .nodeRemoved}
    let first : Engine := ⟨{ disabledEvents := ["node_removed", "node_added", "node_removed"] }, []⟩
    let second : Engine := ⟨{ disabledEvents := ["node_added", "node_removed"] }, []⟩
    let old := "def f(): pass\n"
    let new := "def g(): pass\n"
    ∃ events, default.diff "m.py" (some old) (some new) "r1" = .ok events ∧
      first.diff "m.py" (some old) (some new) "r1" = .ok (Event.without types events) ∧
      second.diff "m.py" (some old) (some new) "r1" = .ok (Event.without types events) := by
  intro types first second old new
  obtain ⟨before, oldMade⟩ := exists_read "m.py" "r1" old (by decide +kernel)
  obtain ⟨after, newMade⟩ := exists_read "m.py" "r1" new (by decide +kernel)
  obtain ⟨-, ofFirst⟩ := events_without_disabled.2 first types (by decide +kernel) "m.py"
    (by decide +kernel) rfl "r1"
  obtain ⟨same, -⟩ := events_without_disabled.2 second types (by decide +kernel) "m.py"
    (by decide +kernel) rfl "r1"
  obtain ⟨events, made, firstMade⟩ := ofFirst old new before after oldMade newMade
  refine ⟨events, made, firstMade, ?_⟩
  rw [same, made]
  rfl

end Engine

end SemanticDiff
