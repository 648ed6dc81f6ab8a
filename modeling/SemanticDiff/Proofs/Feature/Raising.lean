import SemanticDiff.Proofs.Feature.Bounds

/-!
# Raising cells

As long as there is room in the words, the cells of a walk can be raised one after the
other, and in the end each word says how often its cell was raised.  For a node of an
outline each cell is raised as often as the snapshot of the node says.
-/

namespace SemanticDiff.Feature

open SemanticDiff.Source (Tree Field)
open SemanticDiff.Outline (Node SourceUnit)

/-! ## Words -/

theorem exists_addWords? {first second : UInt32}
    (fits : first.toNat + second.toNat < UInt32.size) :
    ∃ sum, addWords? first second = some sum ∧ sum.toNat = first.toNat + second.toNat := by
  refine ⟨first + second, if_pos fits, ?_⟩
  rw [UInt32.toNat_add]
  exact Nat.mod_eq_of_lt fits

/-- Words whose sum fits in a word can be added. -/
theorem exists_sumWords? {words : List UInt32}
    (fits : (words.map UInt32.toNat).sum < UInt32.size) :
    ∃ sum, sumWords? words = some sum ∧ sum.toNat = (words.map UInt32.toNat).sum := by
  have added (start : UInt32) (fits : start.toNat + (words.map UInt32.toNat).sum < UInt32.size) :
      ∃ sum, words.foldlM addWords? start = some sum ∧
        sum.toNat = start.toNat + (words.map UInt32.toNat).sum := by
    induction words generalizing start with
    | nil => exact ⟨start, rfl, rfl⟩
    | cons word words ih =>
        rw [List.map_cons, List.sum_cons, ← Nat.add_assoc] at fits ⊢
        obtain ⟨next, made, nextEq⟩ := @exists_addWords? start word (by omega)
        rw [← nextEq] at fits ⊢
        rw [List.foldlM_cons, made]
        exact ih (by omega) next fits
  simpa [sumWords?] using added 0 (by simpa using fits)

namespace Counters

variable {counters : Counters} {amount : Cell → Nat}

/-! ## Raising -/

/-- The words are the amounts of the cells, and a tally has the names with an amount. -/
structure Holds (counters : Counters) (amount : Cell → Nat) : Prop where
  counts : ∀ feature, (counters.counts feature).toNat = amount (.counter feature)
  tallies : ∀ feature name, ((counters.tallies feature).get? name).map UInt32.toNat =
    if amount (.entry feature name) = 0 then none else some (amount (.entry feature name))

theorem holds_zero : zero.Holds fun _ => 0 where
  counts _ := rfl
  tallies _ _ := rfl

theorem Holds.toNat_getD (holds : counters.Holds amount) (feature : Feature) (name : String) :
    (((counters.tallies feature).get? name).getD 0).toNat = amount (.entry feature name) := by
  have reads := holds.tallies feature name
  cases found : (counters.tallies feature).get? name with
  | none =>
      rw [found] at reads
      by_contra different
      rw [if_neg fun none => different none.symm] at reads
      cases reads
  | some word =>
      rw [found, Option.map_some] at reads
      split at reads
      · cases reads
      · exact Option.some.inj reads

/-- As long as there is room in its word, a cell can be raised, and no other one changes. -/
theorem Holds.exists_raise? (holds : counters.Holds amount) {cell : Cell}
    (fits : amount cell + 1 < UInt32.size) :
    ∃ raised, counters.raise? cell = some raised ∧
      raised.Holds fun other => amount other + if cell = other then 1 else 0 := by
  cases cell with
  | counter feature =>
      obtain ⟨word, made, wordEq⟩ := @exists_addWords? (counters.counts feature) 1
        (by rw [holds.counts]; exact fits)
      refine ⟨counters.setCount feature word, by rw [raise?, made]; rfl, fun other => ?_,
        fun other name => holds.tallies other name⟩
      rw [setCount]
      by_cases same : other = feature
      · subst other
        simp only [if_true]
        rw [wordEq, holds.counts]
        rfl
      · simp [same, Ne.symm same, holds.counts]
  | entry feature name =>
      have reads := holds.toNat_getD feature name
      obtain ⟨word, made, wordEq⟩ := @exists_addWords?
        (((counters.tallies feature).get? name).getD 0) 1 (by rw [reads]; exact fits)
      refine ⟨counters.setTally feature ((counters.tallies feature).insert name word), ?_,
        fun other => holds.counts other, fun other otherName => ?_⟩
      · simp only [raise?, made, Option.map_some]
      · rw [setTally]
        by_cases same : other = feature
        · subst other
          by_cases sameName : otherName = name
          · subst otherName
            simp [wordEq, reads]
          · simp [sameName, Ne.symm sameName, holds.tallies]
        · simp [same, Ne.symm same, holds.tallies]

/-- As long as there is room in all words, cells can be raised one after the other. -/
theorem Holds.exists_raiseAll? (holds : counters.Holds amount) {cells : List Cell}
    (fits : ∀ cell, amount cell + cells.count cell < UInt32.size) :
    ∃ raised, counters.raiseAll? cells = some raised ∧
      raised.Holds fun cell => amount cell + cells.count cell := by
  induction cells generalizing counters amount with
  | nil => exact ⟨counters, rfl, holds⟩
  | cons cell cells ih =>
      obtain ⟨next, made, nextHolds⟩ := @Holds.exists_raise? _ _ holds cell (by
        have own := fits cell
        rw [List.count_cons_self] at own
        omega)
      have counted (other : Cell) : amount other + (if cell = other then 1 else 0) +
          cells.count other = amount other + (cell :: cells).count other := by
        rw [List.count_cons]
        simp only [beq_iff_eq]
        omega
      obtain ⟨raised, rest, raisedHolds⟩ := ih nextHolds fun other => by
        rw [counted]
        exact fits other
      refine ⟨raised, ?_, ?_⟩
      · rw [raiseAll?, List.foldlM_cons, made]
        exact rest
      · simpa only [counted] using raisedHolds

end Counters

/-! ## Steps of a walk -/

/-- The facts of all steps together. -/
def together (steps : List Facts) : Facts :=
  steps.foldr Facts.add .zero

theorem together_cons (facts : Facts) (steps : List Facts) :
    together (facts :: steps) = facts.add (together steps) :=
  rfl

theorem together_append (first second : List Facts) :
    together (first ++ second) = (together first).add (together second) := by
  induction first with
  | nil => exact (Facts.zero_add _).symm
  | cons facts first ih =>
      rw [List.cons_append, together_cons, ih, together_cons, Facts.add_assoc]

mutual

/-- The steps of the walk over a tree find its facts. -/
theorem together_stepsOf : (tree : Tree) → together (stepsOf tree) = factsOf tree
  | .node (.literal _) _ _ _ _ => rfl
  | .node (.construct kind) field span text children => by
      have inside := together_stepsOfAll children
      cases kind with
      | functionDefinition | classDefinition => exact Facts.add_zero _
      | decoratedDefinition =>
          rw [stepsOf, factsOf]
          cases children.find? fun child => child.field == some .definition with
          | none => rfl
          | some definition => exact Facts.add_zero _
      | type | comment => rfl
      | _ => exact congrArg (Facts.add _) inside

theorem together_stepsOfAll : (trees : List Tree) →
    together (stepsOfAll trees) = factsOfAll trees
  | [] => rfl
  | tree :: trees => by
      rw [stepsOfAll, together_append, together_stepsOf tree, together_stepsOfAll trees, factsOfAll]

end

theorem together_headSteps (definition : Tree) (role : Field) :
    together (headSteps definition role) = headFacts definition role := by
  rw [headSteps, headFacts]
  cases definition.childWith? role with
  | none => rfl
  | some part => exact together_stepsOfAll part.children

theorem together_bodySteps (definition : Tree) :
    together (bodySteps definition) = bodyFacts definition := by
  rw [bodySteps, bodyFacts]
  cases definition.childWith? .body with
  | none => rfl
  | some body => exact together_stepsOfAll _

/-- The walk over a node measures it step by step. -/
theorem measure_eq_measureSteps (tree : Tree) (node : Node) :
    measure tree node = ((measureSteps tree node).1, together (measureSteps tree node).2) := by
  cases kind : node.kind with
  | module => simp only [measure, measureSteps, kind, scopeFacts, scopeSteps, together_stepsOfAll]
  | functionDef =>
      simp only [measure, measureSteps, kind]
      cases locate .functionDefinition node.span none tree with
      | none => rfl
      | some located =>
          simp only [together_append, together_headSteps, together_bodySteps]
  | classDef =>
      simp only [measure, measureSteps, kind]
      cases locate .classDefinition node.span none tree with
      | none => rfl
      | some located =>
          simp only [together_append, together_headSteps, together_bodySteps]

/-! ## What is raised -/

/-- Whether a cell is not raised but made of others. -/
def Cell.isSummed : Cell → Bool
  | .counter feature => Feature.isSummed feature
  | .entry _ _ => false

theorem feature_of_mem_cellsOfValue {feature : Feature} {value : Value} {cell : Cell}
    (member : cell ∈ cellsOfValue feature value) : cell.feature = feature := by
  cases value with
  | count number =>
      rw [cellsOfValue] at member
      split at member
      · cases member
      · rw [List.eq_of_mem_replicate member, Cell.feature]
  | tally names =>
      obtain ⟨entry, -, inside⟩ := List.mem_flatMap.1 member
      rw [List.eq_of_mem_replicate inside, Cell.feature]
  | flag | text => cases member

/-- For a tally each name is raised as often as it was counted. -/
theorem count_entries (feature : Feature) (name : String) {entries : List (String × Nat)}
    (increasing : IncreasingKeys entries) :
    (entries.flatMap fun entry => List.replicate entry.2 (Cell.entry feature entry.1)).count
        (.entry feature name) =
      ((entries.find? fun entry => entry.1 == name).map (·.2)).getD 0 := by
  induction entries with
  | nil => rfl
  | cons first rest ih =>
      rcases List.pairwise_cons.1 increasing with ⟨smallest, restIncreasing⟩
      rw [List.flatMap_cons, List.count_append, ih restIncreasing, List.count_replicate]
      by_cases same : first.1 = name
      · have absent : (rest.find? fun entry => entry.1 == name) = none := by
          rw [List.find?_eq_none]
          intro entry member
          simpa [same] using (String.ne_of_lt (smallest entry member)).symm
        simp [same, absent]
      · simp [same]

/-- For a value its feature is raised as the value says, unless it is a sum. -/
theorem count_cellsOfValue (value : Value) (cell : Cell) :
    (cellsOfValue cell.feature value).count cell =
      if cell.isSummed then 0 else value.amount cell := by
  cases cell with
  | counter feature =>
      cases value with
      | count number =>
          cases summed : isSummed feature <;>
            simp [cellsOfValue, Cell.isSummed, Cell.feature, Value.amount, summed]
      | tally names =>
          have absent : Cell.counter feature ∉ cellsOfValue feature (.tally names) := by
            simp [cellsOfValue, List.mem_replicate]
          simp [Cell.feature, Value.amount, List.count_eq_zero_of_not_mem absent]
      | flag | text => simp [cellsOfValue, Value.amount]
  | entry feature name =>
      cases value with
      | count number =>
          have absent : Cell.entry feature name ∉ cellsOfValue feature (.count number) := by
            rw [cellsOfValue]
            split <;> simp [List.mem_replicate]
          simp [Cell.feature, Value.amount, List.count_eq_zero_of_not_mem absent]
      | tally names => exact count_entries feature name names.increasing
      | flag | text => simp [cellsOfValue, Value.amount]

/-- For the values of distinct features each feature is raised as its value says. -/
theorem count_cellsOf {entries : List (Feature × Value)} (distinct : (entries.map Prod.fst).Nodup)
    {cell : Cell} {value : Value} (member : (cell.feature, value) ∈ entries) :
    (cellsOf entries).count cell = if cell.isSummed then 0 else value.amount cell := by
  induction entries with
  | nil => cases member
  | cons entry rest ih =>
      rcases List.nodup_cons.1 distinct with ⟨new, restDistinct⟩
      rw [cellsOf, List.flatMap_cons, List.count_append]
      rcases List.mem_cons.1 member with rfl | later
      · have absent : (cellsOf rest).count cell = 0 := by
          rw [List.count_eq_zero]
          intro inside
          obtain ⟨other, otherMem, raised⟩ := List.mem_flatMap.1 inside
          exact new (List.mem_map.2 ⟨other, otherMem, (feature_of_mem_cellsOfValue raised).symm⟩)
        rw [← cellsOf, absent, count_cellsOfValue, Nat.add_zero]
      · have absent : (cellsOfValue entry.1 entry.2).count cell = 0 := by
          rw [List.count_eq_zero]
          intro raised
          exact new (List.mem_map.2 ⟨_, later, feature_of_mem_cellsOfValue raised⟩)
        rw [← cellsOf, absent, ih restDistinct later, Nat.zero_add]

/-- The value of a feature. -/
def valueOf (header : Header) (facts : Facts) (feature : Feature) : Value :=
  (((values header facts).find? fun entry => entry.1 == feature).map (·.2)).getD (.flag false)

theorem valueOf_mem_values (header : Header) (facts : Facts) (feature : Feature) :
    (feature, valueOf header facts feature) ∈ values header facts := by
  rw [valueOf]
  cases found : (values header facts).find? fun entry => entry.1 == feature with
  | none =>
      obtain ⟨value, member⟩ := exists_mem_values header facts feature
      exact absurd (beq_self_eq_true feature) (List.find?_eq_none.1 found _ member)
  | some entry =>
      have same : entry.1 = feature := by simpa using List.find?_some found
      rw [← same]
      exact List.mem_of_find?_eq_some found

section

variable {cell : Cell}

theorem amount_valueOf_zero (cell : Cell) : (valueOf {} .zero cell.feature).amount cell = 0 := by
  cases cell with
  | counter feature => cases feature <;> rfl
  | entry feature name => cases feature <;> rfl

theorem amount_valueOf_add (raised : cell.isSummed = false) (first second : Facts) :
    (valueOf {} (first.add second) cell.feature).amount cell =
      (valueOf {} first cell.feature).amount cell +
        (valueOf {} second cell.feature).amount cell := by
  cases cell with
  | counter feature => cases feature <;> first | rfl | cases raised
  | entry feature name => cases feature <;> first | rfl | exact Tally.numberOf_add _ _ name

/-- What the head says and what the walk finds are different things. -/
theorem amount_valueOf_head (cell : Cell) (header : Header) (facts : Facts) :
    (valueOf header facts cell.feature).amount cell =
      (valueOf header .zero cell.feature).amount cell +
        (valueOf {} facts cell.feature).amount cell := by
  cases cell with
  | counter feature =>
      cases feature <;> first | rfl | exact (Nat.zero_add _).symm
  | entry feature name => cases feature <;> first | rfl | exact (Nat.zero_add _).symm

theorem count_cellsOf_values (header : Header) (facts : Facts) (cell : Cell) :
    (cellsOf (values header facts)).count cell =
      if cell.isSummed then 0 else (valueOf header facts cell.feature).amount cell := by
  refine count_cellsOf ?_ (valueOf_mem_values header facts cell.feature)
  rw [map_fst_values]
  decide

theorem count_flatMap_steps (raised : cell.isSummed = false) (steps : List Facts) :
    (steps.flatMap fun facts => cellsOf (values {} facts)).count cell =
      (valueOf {} (together steps) cell.feature).amount cell := by
  induction steps with
  | nil => exact (amount_valueOf_zero cell).symm
  | cons facts steps ih =>
      rw [List.flatMap_cons, List.count_append, ih, count_cellsOf_values, raised,
        if_neg Bool.false_ne_true, together_cons, amount_valueOf_add raised]

/-- For a node each cell is raised as often as the snapshot says, unless it is a sum. -/
theorem count_raised (unit : SourceUnit) (node : Node) (raised : cell.isSummed = false) :
    (Feature.raised unit.tree node).count cell = (extract unit node).amount cell := by
  rw [amount_extract (valueOf_mem_values _ _ _), measure_eq_measureSteps, amount_valueOf_head cell,
    Feature.raised, List.count_append, count_flatMap_steps raised, count_cellsOf_values, raised,
    if_neg Bool.false_ne_true]

theorem count_raised_of_isSummed (tree : Tree) (node : Node) (summed : cell.isSummed = true) :
    (Feature.raised tree node).count cell = 0 := by
  have none (header : Header) (facts : Facts) : (cellsOf (values header facts)).count cell = 0 := by
    rw [count_cellsOf_values, if_pos summed]
  rw [Feature.raised, List.count_append, none, Nat.zero_add, List.count_eq_zero]
  intro inside
  obtain ⟨facts, -, found⟩ := List.mem_flatMap.1 inside
  exact List.count_eq_zero.1 (none {} facts) found

end

end SemanticDiff.Feature
