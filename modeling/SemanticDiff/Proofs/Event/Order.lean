import SemanticDiff.Proofs.Event.Assembly

/-!
# The order of events

Findings are sorted by key and by the position of their rule, and findings that
agree in both keep their order.  So findings that are already arranged in this way
become events one by one, in the order in which they stand.
-/

namespace SemanticDiff

/-! ## Stable sorting -/

section

variable {α : Type} {before : α → α → Bool}

/-- Whether two items may stand in either order. -/
def tied (before : α → α → Bool) (first second : α) : Bool :=
  before first second && before second first

/-- An arrangement is determined by the order of the items that are tied. -/
theorem eq_of_filter_tied_eq (reflexive : ∀ item, before item item = true) {first second : List α}
    (firstSorted : first.Pairwise fun a b => before a b = true)
    (secondSorted : second.Pairwise fun a b => before a b = true)
    (ties : ∀ item, first.filter (tied before item) = second.filter (tied before item)) :
    first = second := by
  have self (item : α) : tied before item item = true := by simp [tied, reflexive item]
  induction first generalizing second with
  | nil =>
      cases second with
      | nil => rfl
      | cons item rest => simpa [self] using ties item
  | cons item rest ih =>
      cases second with
      | nil => simpa [self] using ties item
      | cons other others =>
          have itemMem : item ∈ other :: others := by
            apply List.mem_of_mem_filter
            rw [← ties item]
            exact List.mem_filter.2 ⟨List.mem_cons_self, self item⟩
          have otherMem : other ∈ item :: rest := by
            apply List.mem_of_mem_filter
            rw [ties other]
            exact List.mem_filter.2 ⟨List.mem_cons_self, self other⟩
          -- Each of the two heads stands before everything in the other list.
          have heads : tied before item other = true := by
            have least {item : α} {items : List α} {member : α}
                (sorted : (item :: items).Pairwise fun a b => before a b = true)
                (inside : member ∈ item :: items) : before item member = true := by
              rcases List.mem_cons.1 inside with rfl | later
              · exact reflexive _
              · exact (List.pairwise_cons.1 sorted).1 member later
            rw [tied, least firstSorted otherMem, least secondSorted itemMem]
            rfl
          have own := ties item
          rw [List.filter_cons_of_pos (self item), List.filter_cons_of_pos heads] at own
          obtain ⟨rfl, -⟩ := List.cons.inj own
          congr 1
          apply ih (List.pairwise_cons.1 firstSorted).2 (List.pairwise_cons.1 secondSorted).2
          intro member
          have all := ties member
          rw [List.filter_cons, List.filter_cons] at all
          split at all
          · exact (List.cons.inj all).2
          · exact all

/-- Sorting leaves items that are tied in their order. -/
theorem filter_tied_mergeSort
    (transitive : ∀ a b c, before a b = true → before b c = true → before a c = true)
    (total : ∀ a b, (before a b || before b a) = true) (items : List α) (item : α) :
    (items.mergeSort before).filter (tied before item) = items.filter (tied before item) := by
  have sorted : (items.filter (tied before item)).Pairwise fun a b => before a b = true := by
    apply List.pairwise_of_forall_mem_list
    intro a aMem b bMem
    have aTied := (List.mem_filter.1 aMem).2
    have bTied := (List.mem_filter.1 bMem).2
    rw [tied, Bool.and_eq_true] at aTied bTied
    exact transitive a item b aTied.2 bTied.1
  have kept := (List.sublist_mergeSort transitive total sorted List.filter_sublist).filter
    (tied before item)
  rw [List.filter_filter] at kept
  simp only [Bool.and_self] at kept
  exact (kept.eq_of_length_le
    (Nat.le_of_eq ((List.mergeSort_perm items before).filter _).length_eq)).symm

/-- A list that is arranged, with tied items in the order of another list, is the
other list sorted. -/
theorem mergeSort_eq_of_filter_tied_eq
    (transitive : ∀ a b c, before a b = true → before b c = true → before a c = true)
    (total : ∀ a b, (before a b || before b a) = true) {items arranged : List α}
    (sorted : arranged.Pairwise fun a b => before a b = true)
    (ties : ∀ item, arranged.filter (tied before item) = items.filter (tied before item)) :
    items.mergeSort before = arranged := by
  have reflexive (item : α) : before item item = true := by simpa using total item item
  apply eq_of_filter_tied_eq reflexive (List.pairwise_mergeSort transitive total items) sorted
  intro item
  rw [filter_tied_mergeSort transitive total, ties]

/-- Sorting and leaving items out can be done in either order. -/
theorem filter_mergeSort
    (transitive : ∀ a b c, before a b = true → before b c = true → before a c = true)
    (total : ∀ a b, (before a b || before b a) = true) (items : List α) (test : α → Bool) :
    (items.mergeSort before).filter test = (items.filter test).mergeSort before := by
  symm
  apply mergeSort_eq_of_filter_tied_eq transitive total
  · exact (List.pairwise_mergeSort transitive total items).filter test
  · intro item
    rw [List.filter_comm, filter_tied_mergeSort transitive total, List.filter_comm]

end

/-! ## Findings in order -/

/-- Keys are told apart by their texts. -/
theorem Outline.Key.text_inj {first second : Outline.Key} :
    first.text = second.text ↔ first = second := by
  cases first
  cases second
  simp

namespace Finding

theorem precedes_iff {first second : Finding} :
    first.precedes second = true ↔
      first.key.text < second.key.text ∨
        first.key = second.key ∧ first.ruleIndex ≤ second.ruleIndex := by
  simp only [precedes, Outline.Key.text_inj]
  by_cases same : first.key = second.key
  · simp [same]
  · simp [same]

theorem precedes_trans (first second third : Finding) (left : first.precedes second = true)
    (right : second.precedes third = true) : first.precedes third = true := by
  rw [precedes_iff] at left right ⊢
  rcases left with less | ⟨same, le⟩
  · rcases right with less' | ⟨same', -⟩
    · exact Or.inl (String.lt_trans less less')
    · exact Or.inl (same' ▸ less)
  · rcases right with less' | ⟨same', le'⟩
    · exact Or.inl (same ▸ less')
    · exact Or.inr ⟨same.trans same', Nat.le_trans le le'⟩

theorem precedes_total (first second : Finding) :
    (first.precedes second || second.precedes first) = true := by
  rw [Bool.or_eq_true, precedes_iff, precedes_iff]
  rcases Std.lt_trichotomy first.key.text second.key.text with less | same | greater
  · exact Or.inl (Or.inl less)
  · have sameKey := Outline.Key.text_inj.1 same
    rcases Nat.le_total first.ruleIndex second.ruleIndex with le | ge
    · exact Or.inl (Or.inr ⟨sameKey, le⟩)
    · exact Or.inr (Or.inr ⟨sameKey.symm, ge⟩)
  · exact Or.inr (Or.inl greater)

/-- Findings are tied if they come from one rule and are about one key. -/
theorem tied_precedes_iff {first second : Finding} :
    tied precedes first second = true ↔
      first.key = second.key ∧ first.ruleIndex = second.ruleIndex := by
  rw [tied, Bool.and_eq_true, precedes_iff, precedes_iff]
  constructor
  · rintro ⟨less | ⟨same, le⟩, greater | ⟨same', ge⟩⟩
    · exact absurd (String.lt_trans less greater) (String.lt_irrefl _)
    · exact absurd (same' ▸ less) (String.lt_irrefl _)
    · exact absurd (same ▸ greater) (String.lt_irrefl _)
    · exact ⟨same, Nat.le_antisymm le ge⟩
  · rintro ⟨same, sameIndex⟩
    exact ⟨Or.inr ⟨same, Nat.le_of_eq sameIndex⟩, Or.inr ⟨same.symm, Nat.le_of_eq sameIndex.symm⟩⟩

/-- Where no change is told twice, every finding is kept. -/
theorem keepFirst_eq_self {seen findings : List Finding} (distinct : (findings.map change).Nodup)
    (new : ∀ finding ∈ findings, finding.change ∉ seen.map change) :
    keepFirst seen findings = findings := by
  induction findings generalizing seen with
  | nil => rfl
  | cons first rest ih =>
      rcases List.forall_mem_cons.1 new with ⟨firstNew, restNew⟩
      rcases List.nodup_cons.1 distinct with ⟨alone, restDistinct⟩
      rw [keepFirst, if_neg (mt any_sameReport_iff.1 firstNew), ih restDistinct]
      intro finding member
      rw [List.map_cons, List.mem_cons]
      rintro (same | older)
      · exact alone (same ▸ List.mem_map.2 ⟨finding, member, rfl⟩)
      · exact restNew finding member older

end Finding

/-- Findings that are arranged, none of them twice, become events one by one. -/
theorem assemble_eq_of_arranged (path revision : String) {findings arranged : List Finding}
    (sorted : arranged.Pairwise fun a b => a.precedes b = true)
    (ties : ∀ finding, arranged.filter (tied Finding.precedes finding) =
      findings.filter (tied Finding.precedes finding))
    (distinct : (arranged.map Finding.change).Nodup) :
    assemble path revision findings =
      arranged.mapIdx fun order finding => finding.toEvent path revision order := by
  rw [assemble, mergeSort_eq_of_filter_tied_eq Finding.precedes_trans Finding.precedes_total sorted
    ties, Finding.keepFirst_eq_self distinct (by simp)]

end SemanticDiff
