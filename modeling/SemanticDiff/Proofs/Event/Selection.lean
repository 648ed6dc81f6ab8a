import Mathlib.Data.List.FinRange
import SemanticDiff.Proofs.Event.Order
import SemanticDiff.Proofs.Text.ByteOrder

/-!
# Which findings become events

Several rules may report the same change, and one rule may report it several times.
The findings are told apart by their positions in the list.  Of all findings with the
same change the one of the earliest rule is told, and of the findings of that rule the
one that comes first.
-/

namespace SemanticDiff

open SemanticDiff.Text (bytesOf bytesOf_lt_iff)

namespace Finding

/-! ## Keeping the first of several -/

/-- Of items that stand in their order those are kept whose change was not seen before,
neither earlier nor among them. -/
theorem exists_sublist_keepFirst {ι : Type} (finding : ι → Finding) {before : ι → ι → Prop}
    (asymmetric : ∀ a b, before a b → ¬before b a) {items : List ι}
    (arranged : items.Pairwise before) (seen : List Finding) :
    ∃ chosen : List ι, chosen.Sublist items ∧
      keepFirst seen (items.map finding) = chosen.map finding ∧
      ∀ item ∈ items, item ∈ chosen ↔ (finding item).change ∉ seen.map change ∧
        ∀ other ∈ items, before other item → (finding other).change ≠ (finding item).change := by
  have irreflexive (item : ι) : ¬before item item := fun less => asymmetric item item less less
  induction items generalizing seen with
  | nil => exact ⟨[], List.Sublist.slnil, rfl, by simp⟩
  | cons first rest ih =>
      rcases List.pairwise_cons.1 arranged with ⟨least, restArranged⟩
      have absent : first ∉ rest := fun later => irreflexive first (least first later)
      rw [List.map_cons, keepFirst]
      split
      · rename_i repeated
        rw [any_sameReport_iff] at repeated
        obtain ⟨chosen, sublist, kept, members⟩ := ih restArranged seen
        refine ⟨chosen, sublist.cons first, kept, ?_⟩
        intro item member
        rcases List.mem_cons.1 member with rfl | later
        · refine iff_of_false (fun inside => absent (sublist.subset inside)) ?_
          rintro ⟨new, -⟩
          exact new repeated
        · rw [members item later, List.forall_mem_cons]
          refine and_congr_right fun new => (and_iff_right ?_).symm
          intro _ same
          exact new (same ▸ repeated)
      · rename_i new
        rw [any_sameReport_iff] at new
        obtain ⟨chosen, sublist, kept, members⟩ := ih restArranged (finding first :: seen)
        refine ⟨first :: chosen, sublist.cons_cons first, by rw [kept, List.map_cons], ?_⟩
        intro item member
        rcases List.mem_cons.1 member with rfl | later
        · refine iff_of_true List.mem_cons_self ⟨new, ?_⟩
          rw [List.forall_mem_cons]
          refine ⟨fun less => absurd less (irreflexive item), ?_⟩
          intro other otherLater less
          exact absurd less (asymmetric item other (least other otherLater))
        · have other : item ≠ first := fun same => absent (same ▸ later)
          rw [List.mem_cons, or_iff_right other, members item later, List.forall_mem_cons,
            List.map_cons, List.mem_cons, not_or]
          constructor
          · rintro ⟨⟨differs, notSeen⟩, alone⟩
            exact ⟨notSeen, fun _ => Ne.symm differs, alone⟩
          · rintro ⟨notSeen, differs, alone⟩
            exact ⟨⟨Ne.symm (differs (least item later)), notSeen⟩, alone⟩

/-! ## Findings by their positions -/

section

variable {findings : List Finding}

/-- The order of the findings: by the bytes of their keys, of one key by their rules, and
of one rule as they were found. -/
def ComesBefore (findings : List Finding) (i j : Fin findings.length) : Prop :=
  bytesOf (findings.get i).key.text < bytesOf (findings.get j).key.text ∨
    (findings.get i).key = (findings.get j).key ∧
      ((findings.get i).ruleIndex < (findings.get j).ruleIndex ∨
        (findings.get i).ruleIndex = (findings.get j).ruleIndex ∧ i < j)

/-- No earlier rule reports the change, and its own rule has not reported it before. -/
def ReportsFirst (findings : List Finding) (i : Fin findings.length) : Prop :=
  ∀ j, (findings.get j).change = (findings.get i).change →
    (findings.get i).ruleIndex < (findings.get j).ruleIndex ∨
      (findings.get i).ruleIndex = (findings.get j).ruleIndex ∧ i ≤ j

theorem ComesBefore.asymm {i j : Fin findings.length} (less : ComesBefore findings i j) :
    ¬ComesBefore findings j i := by
  rw [ComesBefore, bytesOf_lt_iff] at less ⊢
  rcases less with less | ⟨same, less⟩
  · rintro (greater | ⟨same, -⟩)
    · exact String.lt_irrefl _ (String.lt_trans less greater)
    · exact String.lt_irrefl _ (same ▸ less)
  · rintro (greater | ⟨-, greater⟩)
    · exact String.lt_irrefl _ (same ▸ greater)
    · omega

/-- The positions of the findings in the order of their findings. -/
theorem exists_perm_pairwise_comesBefore (findings : List Finding) :
    ∃ sorted : List (Fin findings.length), sorted.Perm (List.finRange findings.length) ∧
      sorted.Pairwise (ComesBefore findings) ∧
      findings.mergeSort Finding.precedes = sorted.map findings.get := by
  let before (i j : Fin findings.length) : Bool := (findings.get i).precedes (findings.get j)
  have transitive (i j k) : before i j = true → before j k = true → before i k = true :=
    Finding.precedes_trans _ _ _
  have total (i j) : (before i j || before j i) = true := Finding.precedes_total _ _
  refine ⟨(List.finRange findings.length).mergeSort before, List.mergeSort_perm _ _, ?_, ?_⟩
  · rw [List.pairwise_iff_forall_sublist]
    intro i j sublist
    have precedes : before i j = true :=
      List.pairwise_iff_forall_sublist.1 (List.pairwise_mergeSort transitive total _) sublist
    rw [Finding.precedes_iff] at precedes
    rw [ComesBefore, bytesOf_lt_iff]
    rcases precedes with less | ⟨same, le⟩
    · exact Or.inl less
    refine Or.inr ⟨same, ?_⟩
    rcases Nat.lt_or_eq_of_le le with less | sameRule
    · exact Or.inl less
    · -- Findings of one rule about one key have kept their order.
      have ties : [i, j].Sublist (List.finRange findings.length) := by
        have kept := sublist.filter (tied before i)
        rw [filter_tied_mergeSort transitive total] at kept
        have selfTied : tied before i i = true := Finding.tied_precedes_iff.2 ⟨rfl, rfl⟩
        have bothTied : tied before i j = true := Finding.tied_precedes_iff.2 ⟨same, sameRule⟩
        rw [List.filter_cons_of_pos selfTied, List.filter_cons_of_pos bothTied,
          List.filter_nil] at kept
        exact kept.trans List.filter_sublist
      exact Or.inr ⟨sameRule,
        List.pairwise_iff_forall_sublist.1 (List.pairwise_lt_finRange _) ties⟩
  · have sameOrder : ∀ i ∈ List.finRange findings.length, ∀ j ∈ List.finRange findings.length,
        before i j = (findings.get i).precedes (findings.get j) := fun _ _ _ _ => rfl
    rw [List.map_mergeSort sameOrder, List.map_get_finRange]

/-- A finding reports its change first if no finding with that change comes before it. -/
theorem reportsFirst_iff {i : Fin findings.length} :
    ReportsFirst findings i ↔
      ∀ j, ComesBefore findings j i →
        (findings.get j).change ≠ (findings.get i).change := by
  constructor
  · intro first j less same
    have sameKey : (findings.get j).key = (findings.get i).key := congrArg Prod.fst same
    rw [ComesBefore, sameKey] at less
    rcases less with less | ⟨-, less⟩
    · exact List.lt_irrefl _ less
    · rcases first j same with greater | ⟨sameRule, le⟩ <;> omega
  · intro first j same
    have sameKey : (findings.get j).key = (findings.get i).key := congrArg Prod.fst same
    by_contra later
    refine first j (Or.inr ⟨sameKey, ?_⟩) same
    omega

/-- Among the findings with one change only one reports it first. -/
theorem ReportsFirst.eq {i j : Fin findings.length} (first : ReportsFirst findings i)
    (first' : ReportsFirst findings j)
    (same : (findings.get i).change = (findings.get j).change) : i = j := by
  rcases first j same.symm with less | ⟨sameRule, le⟩ <;>
    rcases first' i same with less' | ⟨sameRule', le'⟩ <;>
    omega

end

end Finding

/-- The events are the findings in their order, as far as they report their change first:
every change is told by one of them. -/
theorem exists_assemble_eq_mapIdx (path revision : String) (findings : List Finding) :
    ∃ sorted chosen : List (Fin findings.length),
      sorted.Perm (List.finRange findings.length) ∧
      sorted.Pairwise (Finding.ComesBefore findings) ∧
      chosen.Sublist sorted ∧
      (∀ i, i ∈ chosen ↔ Finding.ReportsFirst findings i) ∧
      (∀ i, ∃! j, j ∈ chosen ∧ (findings.get j).change = (findings.get i).change) ∧
      assemble path revision findings = chosen.mapIdx fun order i =>
        { type := (findings.get i).draft.type
          key := (findings.get i).key
          path := path
          kind := (findings.get i).kind
          details := (findings.get i).draft.details
          revision := revision
          rule := (findings.get i).rule
          order := order } := by
  obtain ⟨sorted, perm, arranged, sortedEq⟩ := Finding.exists_perm_pairwise_comesBefore findings
  obtain ⟨chosen, sublist, kept, members⟩ :=
    Finding.exists_sublist_keepFirst findings.get (fun _ _ => Finding.ComesBefore.asymm) arranged []
  have all (i) : i ∈ sorted := perm.mem_iff.2 (List.mem_finRange i)
  have first (i) : i ∈ chosen ↔ Finding.ReportsFirst findings i := by
    rw [members i (all i), Finding.reportsFirst_iff]
    simp [all]
  refine ⟨sorted, chosen, perm, arranged, sublist, first, ?_, ?_⟩
  · intro i
    have told : (findings.get i).change ∈ (chosen.map findings.get).map Finding.change := by
      rw [← kept, ← sortedEq]
      exact Finding.change_mem_keepFirst (List.mem_mergeSort.2 (List.get_mem findings i)) (by simp)
    rw [List.map_map] at told
    rcases List.mem_map.1 told with ⟨j, inside, same⟩
    refine ⟨j, ⟨inside, same⟩, ?_⟩
    rintro k ⟨inside', same'⟩
    exact ((first k).1 inside').eq ((first j).1 inside) (same'.trans same.symm)
  · rw [assemble, sortedEq, kept]
    apply List.ext_getElem
    · simp
    · intro order _ _
      simp only [List.getElem_mapIdx, List.getElem_map]
      rfl

end SemanticDiff
