import Mathlib.Data.List.FinRange
import Mathlib.Logic.Equiv.Defs
import SemanticDiff.Proofs.Collection.SortedMap
import SemanticDiff.Proofs.Event.Order

/-!
# Findings in another order

Findings may be made in any order, as long as those of one rule about one key follow
each other as before.  Sorting forgets all other differences, so that the events are
the same.
-/

namespace SemanticDiff

/-- The events depend only on how the findings of one rule about one key follow each
other. -/
theorem assemble_eq_of_filter_tied_eq (path revision : String) {first second : List Finding}
    (ties : ∀ finding, first.filter (tied Finding.precedes finding) =
      second.filter (tied Finding.precedes finding)) :
    assemble path revision first = assemble path revision second := by
  have sorted := List.pairwise_mergeSort Finding.precedes_trans Finding.precedes_total first
  rw [assemble, assemble]
  congr 2
  symm
  apply mergeSort_eq_of_filter_tied_eq Finding.precedes_trans Finding.precedes_total sorted
  intro finding
  rw [filter_tied_mergeSort Finding.precedes_trans Finding.precedes_total, ties]

namespace Finding

/-- The findings are about one key, and one rule made them. -/
def SameSource (first second : Finding) : Prop :=
  first.key = second.key ∧ first.ruleIndex = second.ruleIndex

instance (first second : Finding) : Decidable (SameSource first second) :=
  inferInstanceAs (Decidable (first.key = second.key ∧ first.ruleIndex = second.ruleIndex))

/-- Every finding of the one list has its place in the other one, and findings of one
rule about one key have kept their order. -/
def Interleaves (first second : List Finding) : Prop :=
  ∃ place : Fin first.length ≃ Fin second.length,
    (∀ i, second.get (place i) = first.get i) ∧
    ∀ i j, i < j → SameSource (first.get i) (first.get j) → place i < place j

/-- The places of the findings of a list that pass a test. -/
def places (test : Finding → Bool) (findings : List Finding) : List (Fin findings.length) :=
  (List.finRange findings.length).filter fun i => test (findings.get i)

theorem mem_places_iff {test : Finding → Bool} {findings : List Finding}
    {i : Fin findings.length} : i ∈ places test findings ↔ test (findings.get i) = true := by
  simp [places]

theorem pairwise_places (test : Finding → Bool) (findings : List Finding) :
    (places test findings).Pairwise (· < ·) :=
  (List.pairwise_lt_finRange findings.length).filter _

theorem filter_eq_map_places (test : Finding → Bool) (findings : List Finding) :
    findings.filter test = (places test findings).map findings.get := by
  conv_lhs => rw [← List.map_get_finRange findings, List.filter_map]
  rfl

theorem Interleaves.filter_tied_eq {first second : List Finding}
    (interleaves : Interleaves first second) (finding : Finding) :
    first.filter (tied precedes finding) = second.filter (tied precedes finding) := by
  rcases interleaves with ⟨place, same, ordered⟩
  have moved : (places (tied precedes finding) first).map place =
      places (tied precedes finding) second := by
    refine SortedMap.eq_of_increasing (· < ·) (fun i => lt_irrefl i) lt_trans ?_
      (pairwise_places _ second) ?_
    · apply List.pairwise_map.2
      apply (pairwise_places _ first).imp_of_mem
      intro i j iMem jMem less
      obtain ⟨iKey, iRule⟩ := tied_precedes_iff.1 (mem_places_iff.1 iMem)
      obtain ⟨jKey, jRule⟩ := tied_precedes_iff.1 (mem_places_iff.1 jMem)
      exact ordered i j less ⟨iKey.symm.trans jKey, iRule.symm.trans jRule⟩
    · intro j
      rw [mem_places_iff, List.mem_map]
      constructor
      · rintro ⟨i, iMem, rfl⟩
        rw [same]
        exact mem_places_iff.1 iMem
      · intro passes
        refine ⟨place.symm j, mem_places_iff.2 ?_, place.apply_symm_apply j⟩
        rw [← same, place.apply_symm_apply]
        exact passes
  rw [filter_eq_map_places, filter_eq_map_places, ← moved, List.map_map]
  apply List.map_congr_left
  intro i _
  exact (same i).symm

end Finding

end SemanticDiff
