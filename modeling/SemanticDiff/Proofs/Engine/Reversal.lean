import SemanticDiff.Proofs.Catalog.Reversal
import SemanticDiff.Proofs.Engine.Events

/-!
# Diffs in reverse

The diff from a second text back to a first one succeeds exactly when the diff
from the first text to the second one does, and it tells the mirror image of every
event, once.
-/

namespace SemanticDiff

open SemanticDiff.Catalog (contexts)
open SemanticDiff.Outline (Key NodeKind SourceUnit)

/-- What an event tells, wherever and in which order it is told. -/
structure Report where
  key : Key
  kind : NodeKind
  type : EventType
  details : Details
deriving DecidableEq

/-- What an event tells. -/
def Event.report (event : Event) : Report where
  key := event.key
  kind := event.kind
  type := event.type
  details := event.details

namespace Report

/-- The report that undoes a report. -/
def mirror (report : Report) : Report where
  key := report.key
  kind := report.kind
  type := report.type.mirror
  details := Details.mirror report.details

@[simp]
theorem mirror_mirror (report : Report) : report.mirror.mirror = report := by
  simp [mirror]

/-- What changed about the node. -/
def change (report : Report) : Key × Draft :=
  (report.key, ⟨report.type, report.details⟩)

end Report

theorem Event.change_report (event : Event) : event.report.change = event.change :=
  rfl

/-- An event with a given node and draft makes the report of these. -/
theorem Event.report_eq_iff {event : Event} {report : Report} :
    event.report = report ↔
      event.key = report.key ∧ event.kind = report.kind ∧
        event.draft = ⟨report.type, report.details⟩ := by
  cases report
  simp [Event.report, Event.draft]

namespace Tells

variable {before after : SourceUnit} {forward backward : List Event}

theorem nodup_reports {contexts : List Catalog.Context} {events : List Event}
    (tells : Tells events contexts) : (events.map Event.report).Nodup := by
  have distinct := tells.distinct
  rw [show Event.change = Report.change ∘ Event.report from funext Event.change_report,
    ← List.map_map] at distinct
  exact distinct.of_map _

/-- What is told about two units is undone by what is told about them in reverse. -/
theorem mirror_mem (beforeRead : before.IsRead) (afterRead : after.IsRead)
    (tellsForward : Tells forward (contexts before after))
    (tellsBackward : Tells backward (contexts after before)) {report : Report}
    (member : report ∈ forward.map Event.report) :
    report.mirror ∈ backward.map Event.report := by
  rcases List.mem_map.1 member with ⟨event, eventMem, rfl⟩
  obtain ⟨context, contextMem, key, kind, reports⟩ := tellsForward.sound event eventMem
  obtain ⟨swapped, swappedMem, swappedKey, swappedKind, undoes⟩ :=
    Catalog.exists_context_swap beforeRead afterRead contextMem
  obtain ⟨told, toldMem, toldKey, toldKind, toldDraft⟩ :=
    tellsBackward.complete swapped swappedMem event.draft.mirror (undoes event.draft reports)
  refine List.mem_map.2 ⟨told, toldMem, Event.report_eq_iff.2 ⟨?_, ?_, toldDraft⟩⟩
  · exact toldKey.trans (swappedKey.trans key.symm)
  · exact toldKind.trans (swappedKind.trans kind.symm)

/-- The reports of the two directions are mirror images, each told once. -/
theorem perm_mirror (tellsForward : Tells forward (contexts before after))
    (beforeRead : before.IsRead) (afterRead : after.IsRead)
    (tellsBackward : Tells backward (contexts after before)) :
    (backward.map Event.report).Perm ((forward.map Event.report).map Report.mirror) := by
  have injective : Function.Injective Report.mirror := Function.Involutive.injective Report.mirror_mirror
  refine (List.perm_ext_iff_of_nodup tellsBackward.nodup_reports
    (tellsForward.nodup_reports.map injective)).2 ?_
  intro report
  constructor
  · intro member
    exact List.mem_map.2 ⟨report.mirror, mirror_mem afterRead beforeRead tellsBackward tellsForward
      member, report.mirror_mirror⟩
  · intro member
    rcases List.mem_map.1 member with ⟨original, originalMem, rfl⟩
    exact mirror_mem beforeRead afterRead tellsForward tellsBackward originalMem

end Tells

namespace Engine

theorem exists_diff_swap {path revision first second : String} {events : List Event}
    (made : default.diff path (some first) (some second) revision = .ok events) :
    ∃ reversed, default.diff path (some second) (some first) revision = .ok reversed := by
  rcases diff_default_eq_ok_iff.1 made with ⟨supported, before, after, firstMade, secondMade, -⟩
  obtain ⟨reversed, reversedMade, -⟩ := exists_diffUnits (SourceUnit.isRead_of_read secondMade)
    (SourceUnit.isRead_of_read firstMade)
  exact ⟨reversed, diff_default_eq_ok_iff.2
    ⟨supported, after, before, secondMade, firstMade, reversedMade⟩⟩

/-- What the two directions tell are mirror images, each told once. -/
theorem perm_mirror_of_diff {path revision first second : String} {forward backward : List Event}
    (forwardMade : default.diff path (some first) (some second) revision = .ok forward)
    (backwardMade : default.diff path (some second) (some first) revision = .ok backward) :
    (backward.map Event.report).Perm ((forward.map Event.report).map Report.mirror) := by
  obtain ⟨-, before, after, firstMade, secondMade, forwardUnits⟩ :=
    diff_default_eq_ok_iff.1 forwardMade
  obtain ⟨-, after', before', secondMade', firstMade', backwardUnits⟩ :=
    diff_default_eq_ok_iff.1 backwardMade
  rw [firstMade] at firstMade'
  rw [secondMade] at secondMade'
  cases firstMade'
  cases secondMade'
  have beforeRead := SourceUnit.isRead_of_read firstMade
  have afterRead := SourceUnit.isRead_of_read secondMade
  obtain ⟨events, eventsMade, tellsForward⟩ := exists_diffUnits beforeRead afterRead
  obtain ⟨reversed, reversedMade, tellsBackward⟩ := exists_diffUnits afterRead beforeRead
  rw [forwardUnits] at eventsMade
  rw [backwardUnits] at reversedMade
  cases eventsMade
  cases reversedMade
  exact tellsForward.perm_mirror beforeRead afterRead tellsBackward

/-- A diff in reverse succeeds as the diff does, and tells the mirror image. -/
theorem diff_swap (path revision first second : String) :
    ((∃ events, default.diff path (some first) (some second) revision = .ok events) ↔
      ∃ events, default.diff path (some second) (some first) revision = .ok events) ∧
    ∀ forward backward : List Event,
      default.diff path (some first) (some second) revision = .ok forward →
      default.diff path (some second) (some first) revision = .ok backward →
      { report | report ∈ backward.map Event.report } =
          Set.image Report.mirror { report | report ∈ forward.map Event.report } ∧
        backward.length = forward.length := by
  refine ⟨⟨?_, ?_⟩, ?_⟩
  · rintro ⟨events, made⟩
    exact exists_diff_swap made
  · rintro ⟨events, made⟩
    exact exists_diff_swap made
  · intro forward backward forwardMade backwardMade
    have mirrored := perm_mirror_of_diff forwardMade backwardMade
    constructor
    · ext report
      rw [Set.mem_ofPred_eq, mirrored.mem_iff, List.mem_map]
      rfl
    · simpa using mirrored.length_eq

/-- A function that disappears is removed, and added in reverse. -/
theorem diff_swap_removal :
    ∃ forward backward : List Event,
      default.diff "m.py" (some "def f(): pass\n") (some "") "r1" = .ok forward ∧
      default.diff "m.py" (some "") (some "def f(): pass\n") "r1" = .ok backward ∧
      forward.map Event.type = [.nodeRemoved] ∧
      { report | report ∈ backward.map Event.report } =
        Set.image Report.mirror { report | report ∈ forward.map Event.report } ∧
      backward.length = forward.length := by
  have types : (default.diff "m.py" (some "def f(): pass\n") (some "") "r1").toOption.map
      (·.map Event.type) = some [.nodeRemoved] := by decide +kernel
  obtain ⟨forward, forwardMade, forwardTypes⟩ := exists_ok_of_map_eq_some types
  have swap := diff_swap "m.py" "r1" "def f(): pass\n" ""
  rcases swap.1.1 ⟨forward, forwardMade⟩ with ⟨backward, backwardMade⟩
  rcases swap.2 forward backward forwardMade backwardMade with ⟨mirrored, sameLength⟩
  exact ⟨forward, backward, forwardMade, backwardMade, forwardTypes, mirrored, sameLength⟩

end Engine

end SemanticDiff
