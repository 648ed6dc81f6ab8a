import Mathlib.Data.List.Basic

/-!
# Repeats in a list that is in order

In a list that is in order, equal items stand next to each other.  So the list without
repeats of neighbours has all items of the list, and it increases strictly.
-/

namespace SemanticDiff

variable {α : Type} [BEq α] [LawfulBEq α] {before : α → α → Prop}

/-- Taking repeats out of the rest of a list, with the last item that was kept and those
that were kept before it. -/
theorem eraseReps_loop_spec (transitive : ∀ a b c, before a b → before b c → before a c)
    {last : α} {items kept : List α}
    (increasing : (last :: kept).Pairwise fun later earlier => before earlier later)
    (ordered : (last :: items).Pairwise fun first second => first = second ∨ before first second) :
    (List.eraseRepsBy.loop (· == ·) last items kept).Pairwise before ∧
      ∀ item, item ∈ List.eraseRepsBy.loop (· == ·) last items kept ↔
        item ∈ last :: kept ∨ item ∈ items := by
  induction items generalizing last kept with
  | nil =>
      simp only [List.eraseRepsBy.loop, List.mem_reverse, List.not_mem_nil, or_false,
        implies_true, and_true]
      exact List.pairwise_reverse.2 increasing
  | cons next items ih =>
      rcases List.pairwise_cons.1 ordered with ⟨least, rest⟩
      simp only [List.eraseRepsBy.loop]
      cases repeated : last == next with
      | true =>
          obtain rfl := beq_iff_eq.1 repeated
          obtain ⟨pairwise, members⟩ := ih increasing rest
          refine ⟨pairwise, fun item => ?_⟩
          rw [members]
          simp only [List.mem_cons]
          tauto
      | false =>
          have less : before last next :=
            (least next List.mem_cons_self).resolve_left (beq_eq_false_iff_ne.1 repeated)
          have further : (next :: last :: kept).Pairwise fun later earlier =>
              before earlier later := by
            refine List.pairwise_cons.2 ⟨fun item member => ?_, increasing⟩
            rcases List.mem_cons.1 member with rfl | earlier
            · exact less
            · exact transitive _ _ _ ((List.pairwise_cons.1 increasing).1 item earlier) less
          obtain ⟨pairwise, members⟩ := ih further rest
          refine ⟨pairwise, fun item => ?_⟩
          rw [members]
          simp only [List.mem_cons]
          tauto

/-- Without its repeats a list that is in order has the same items, and they increase
strictly. -/
theorem eraseReps_spec (transitive : ∀ a b c, before a b → before b c → before a c)
    {items : List α}
    (ordered : items.Pairwise fun first second => first = second ∨ before first second) :
    items.eraseReps.Pairwise before ∧ ∀ item, item ∈ items.eraseReps ↔ item ∈ items := by
  cases items with
  | nil => exact ⟨List.Pairwise.nil, fun item => Iff.rfl⟩
  | cons first rest =>
      have alone : [first].Pairwise fun later earlier => before earlier later :=
        List.pairwise_singleton _ _
      obtain ⟨pairwise, members⟩ := eraseReps_loop_spec transitive alone ordered
      refine ⟨pairwise, fun item => (members item).trans ?_⟩
      rw [List.mem_singleton, List.mem_cons]

end SemanticDiff
