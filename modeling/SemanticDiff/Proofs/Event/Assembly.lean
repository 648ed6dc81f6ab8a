import Mathlib.Data.List.Nodup
import SemanticDiff.Event.Assembly

/-!
# Nothing is lost in assembly

The events of a file tell the same changes of the same nodes as its findings, and
no change twice.
-/

namespace SemanticDiff

open SemanticDiff.Outline (Key)

namespace Finding

/-- The node and what changed about it. -/
def change (finding : Finding) : Key × Draft :=
  (finding.key, finding.draft)

theorem sameReport_iff {first second : Finding} :
    sameReport first second = true ↔ first.change = second.change := by
  simp [sameReport, change]

theorem any_sameReport_iff {seen : List Finding} {finding : Finding} :
    seen.any (sameReport finding) = true ↔ finding.change ∈ seen.map change := by
  simp only [List.any_eq_true, sameReport_iff, List.mem_map]
  constructor
  · rintro ⟨earlier, member, same⟩
    exact ⟨earlier, member, same.symm⟩
  · rintro ⟨earlier, member, same⟩
    exact ⟨earlier, member, same.symm⟩

theorem mem_of_mem_keepFirst {seen findings : List Finding} {finding : Finding}
    (member : finding ∈ keepFirst seen findings) : finding ∈ findings := by
  induction findings generalizing seen with
  | nil => simp [keepFirst] at member
  | cons first rest ih =>
      rw [keepFirst] at member
      split at member
      · exact List.mem_cons_of_mem _ (ih member)
      · rcases List.mem_cons.1 member with rfl | later
        · exact List.mem_cons_self
        · exact List.mem_cons_of_mem _ (ih later)

/-- A change that was not seen before is kept. -/
theorem change_mem_keepFirst {seen findings : List Finding} {finding : Finding}
    (member : finding ∈ findings) (new : finding.change ∉ seen.map change) :
    finding.change ∈ (keepFirst seen findings).map change := by
  induction findings generalizing seen with
  | nil => simp at member
  | cons first rest ih =>
      rw [keepFirst]
      split
      · rename_i repeated
        rcases List.mem_cons.1 member with rfl | later
        · exact absurd (any_sameReport_iff.1 repeated) new
        · exact ih later new
      · rw [List.map_cons, List.mem_cons]
        by_cases same : finding.change = first.change
        · exact Or.inl same
        · right
          rcases List.mem_cons.1 member with rfl | later
          · exact absurd rfl same
          · apply ih later
            rw [List.map_cons, List.mem_cons]
            exact not_or.2 ⟨same, new⟩

/-- No change is kept twice, and none that was seen before. -/
theorem nodup_keepFirst (seen findings : List Finding) :
    ((keepFirst seen findings).map change).Nodup ∧
      ∀ finding ∈ keepFirst seen findings, finding.change ∉ seen.map change := by
  induction findings generalizing seen with
  | nil => simp [keepFirst]
  | cons first rest ih =>
      rw [keepFirst]
      split
      · exact ih seen
      · rename_i new
        rw [any_sameReport_iff] at new
        obtain ⟨distinct, fresh⟩ := ih (first :: seen)
        simp only [List.map_cons, List.mem_cons, not_or] at fresh
        constructor
        · rw [List.map_cons, List.nodup_cons, List.mem_map]
          refine ⟨?_, distinct⟩
          rintro ⟨later, member, same⟩
          exact (fresh later member).1 same
        · intro finding member
          rcases List.mem_cons.1 member with rfl | later
          · exact new
          · exact (fresh finding later).2

end Finding

namespace Event

/-- What changed about the node. -/
def draft (event : Event) : Draft where
  type := event.type
  details := event.details

/-- The node and what changed about it. -/
def change (event : Event) : Key × Draft :=
  (event.key, event.draft)

end Event

/-- Every event comes from a finding. -/
theorem exists_finding_of_mem_assemble {path revision : String} {findings : List Finding}
    {event : Event} (member : event ∈ assemble path revision findings) :
    ∃ finding ∈ findings, event.key = finding.key ∧ event.kind = finding.kind ∧
      event.draft = finding.draft := by
  rcases List.mem_mapIdx.1 member with ⟨order, bound, rfl⟩
  exact ⟨_, List.mem_mergeSort.1 (Finding.mem_of_mem_keepFirst (List.getElem_mem bound)),
    rfl, rfl, rfl⟩

theorem map_change_toEvent (path revision : String) (findings : List Finding) :
    (findings.mapIdx fun order finding => finding.toEvent path revision order).map Event.change =
      findings.map Finding.change := by
  apply List.ext_getElem
  · simp
  · intro order _ _
    simp only [List.getElem_map, List.getElem_mapIdx]
    rfl

theorem map_change_assemble (path revision : String) (findings : List Finding) :
    (assemble path revision findings).map Event.change =
      (Finding.keepFirst [] (findings.mergeSort Finding.precedes)).map Finding.change := by
  rw [assemble, map_change_toEvent]

/-- The change of every finding is told. -/
theorem change_mem_assemble {path revision : String} {findings : List Finding}
    {finding : Finding} (member : finding ∈ findings) :
    finding.change ∈ (assemble path revision findings).map Event.change := by
  rw [map_change_assemble]
  exact Finding.change_mem_keepFirst (List.mem_mergeSort.2 member) (by simp)

/-- No change is told twice. -/
theorem nodup_assemble (path revision : String) (findings : List Finding) :
    ((assemble path revision findings).map Event.change).Nodup := by
  rw [map_change_assemble]
  exact (Finding.nodup_keepFirst [] _).1

end SemanticDiff
