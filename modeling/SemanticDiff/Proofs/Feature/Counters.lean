import SemanticDiff.Proofs.Feature.Conservation
import SemanticDiff.Proofs.Feature.Raising

/-!
# Words are wide enough

As long as the tree has fewer nodes than there are words, no word is too narrow for what is
counted: every counter and every entry of a tally can be raised, the sums fit, and all of
them are the numbers of the snapshot.  The summands of the complexity count nodes of the
tree, and no node is counted by two of them.
-/

namespace SemanticDiff.Feature

open SemanticDiff.Source (Tree Kind Label HoldsHandlers)
open SemanticDiff.Source.Tree
open SemanticDiff.Outline (Node SourceUnit)

/-! ## Places -/

mutual

/-- Every node of a tree has one place. -/
theorem length_placesOf (around : List Ancestor) (before : List Tree) : (tree : Tree) →
    (placesOf around before tree).length = tree.size
  | .node label field span text children => by
      rw [placesOf, List.length_cons, length_placesOfAll _ _ children, size, Nat.add_comm]

theorem length_placesOfAll (around : List Ancestor) (before : List Tree) : (trees : List Tree) →
    (placesOfAll around before trees).length = sizeAll trees
  | [] => rfl
  | tree :: trees => by
      rw [placesOfAll, List.length_append, length_placesOf _ _ tree, length_placesOfAll _ _ trees,
        sizeAll]

end

/-- No construct is counted for two features. -/
theorem eq_of_mem_countedKinds {first second : Feature} {kind : Kind}
    (inFirst : kind ∈ countedKinds first) (inSecond : kind ∈ countedKinds second) :
    first = second := by
  have apart : ∀ first ∈ Feature.all, ∀ kind ∈ countedKinds first, ∀ second ∈ Feature.all,
      kind ∈ countedKinds second → first = second := by
    decide +kernel
  exact apart first (Feature.mem_all first) kind inFirst second (Feature.mem_all second) inSecond

theorem eq_of_counts {place : Place} {first second : Feature}
    (countsFirst : place.counts first = true) (countsSecond : place.counts second = true) :
    first = second := by
  rw [Place.counts, Bool.and_eq_true, List.any_eq_true] at countsFirst countsSecond
  obtain ⟨⟨kind, inFirst, is⟩, -⟩ := countsFirst
  obtain ⟨⟨other, inSecond, isOther⟩, -⟩ := countsSecond
  rw [Tree.is, beq_iff_eq] at is isOther
  rw [is, Label.construct.injEq] at isOther
  exact eq_of_mem_countedKinds inFirst (isOther ▸ inSecond)

/-- Places that pass either of two tests are counted for one of them. -/
theorem countP_or {first second : Place → Bool}
    (apart : ∀ place, first place = true → second place = false) (places : List Place) :
    places.countP (fun place => first place || second place) =
      places.countP first + places.countP second := by
  induction places with
  | nil => rfl
  | cons place places ih =>
      rw [List.countP_cons, ih, List.countP_cons, List.countP_cons]
      cases inFirst : first place <;> cases inSecond : second place <;> grind

/-- A place is counted for one of some features at most, so the counts of the features add
up. -/
theorem sum_countP_counts {features : List Feature} (distinct : features.Nodup)
    (test : Place → Bool) (places : List Place) :
    (features.map fun feature => places.countP fun place =>
        place.counts feature && test place).sum =
      places.countP fun place =>
        features.any (fun feature => place.counts feature) && test place := by
  induction features with
  | nil => simp
  | cons feature features ih =>
      rcases List.nodup_cons.1 distinct with ⟨new, restDistinct⟩
      rw [List.map_cons, List.sum_cons, ih restDistinct, ← countP_or]
      · simp only [List.any_cons, Bool.and_or_distrib_right]
      · intro place own
        rw [Bool.and_eq_true] at own
        have others : features.any (fun feature => place.counts feature) = false := by
          rw [List.any_eq_false]
          intro other member counts
          exact new (eq_of_counts own.1 counts ▸ member)
        rw [others, Bool.false_and]

/-! ## Exact words -/

/-- The words of a node are its exact numbers, and none is greater than the number of nodes
of the tree. -/
structure IsExact (unit : SourceUnit) (node : Node) (words : Counters) : Prop where
  counts : ∀ feature, feature.kind = .count →
    (words.counts feature).toNat = (extract unit node).countOf feature
  tallies : ∀ feature, feature.kind = .tally →
    (words.tallies feature).map UInt32.toNat = (extract unit node).tallyOf feature
  counts_le : ∀ feature, feature.kind = .count → (words.counts feature).toNat ≤ unit.tree.size
  tallies_le : ∀ feature, feature.kind = .tally →
    ∀ word ∈ (words.tallies feature).values, word.toNat ≤ unit.tree.size
  complexity : (words.counts .complexity).toNat =
    (complexitySummands.map fun feature => (words.counts feature).toNat).sum
  functionalMarkers : (words.counts .functionalMarkers).toNat =
    (markerSummands.map fun feature => (words.counts feature).toNat).sum
  decorators : (words.counts .decorators).toNat =
    ((words.tallies .decoratorNames).values.map UInt32.toNat).sum
  /-- The complexity is how many nodes one of the summands counts. -/
  union : (words.counts .complexity).toNat = (placesIn unit).countP fun place =>
    complexitySummands.any (fun feature => place.counts feature) && place.belongsTo node
  /-- Each summand counts nodes of the tree. -/
  summands : ∀ feature ∈ complexitySummands, (words.counts feature).toNat =
    (placesIn unit).countP fun place => place.counts feature && place.belongsTo node
  /-- No node is counted by two of the summands. -/
  disjoint : ∀ first ∈ complexitySummands, ∀ second ∈ complexitySummands, first ≠ second →
    ∀ place ∈ placesIn unit, place.counts first = true → place.counts second = false
  /-- There is one place for each node of the tree. -/
  nodes : (placesIn unit).length = unit.tree.size

section

variable {unit : SourceUnit} {node : Node} {counters : Counters}

/-- What is counted in the walk over a node. -/
def walked (unit : SourceUnit) (node : Node) (cell : Cell) : Nat :=
  if cell.isSummed then 0 else (extract unit node).amount cell

/-- The walk over a node counts in words what there is to count. -/
theorem exists_raiseAll?_raised (obeys : unit.tree.Obeys HoldsHandlers)
    (small : unit.tree.size < 2 ^ 32) (node : Node) :
    ∃ counters, Counters.zero.raiseAll? (raised unit.tree node) = some counters ∧
      counters.Holds (walked unit node) := by
  have counted (cell : Cell) : 0 + (raised unit.tree node).count cell = walked unit node cell := by
    rw [Nat.zero_add, walked]
    cases summed : cell.isSummed with
    | true => exact count_raised_of_isSummed unit.tree node summed
    | false => exact count_raised unit node summed
  obtain ⟨counters, made, holds⟩ := @Counters.Holds.exists_raiseAll? _ _ Counters.holds_zero
    (raised unit.tree node) fun cell => by
      have bounded := amount_extract_le obeys node cell
      rw [counted, walked]
      split
      · decide
      · exact Nat.lt_of_le_of_lt bounded small
  refine ⟨counters, made, ?_⟩
  simpa only [counted] using holds

/-- A tally that holds what was counted is that of the snapshot. -/
theorem map_toNat_tallies (holds : counters.Holds (walked unit node)) {feature : Feature}
    (positive : ((extract unit node).tallyOf feature).IsPositive) :
    (counters.tallies feature).map UInt32.toNat = (extract unit node).tallyOf feature := by
  apply SortedMap.ext_get?
  intro name
  rw [SortedMap.get?_map, holds.tallies]
  have reads : walked unit node (.entry feature name) =
      (((extract unit node).tallyOf feature).get? name).getD 0 := rfl
  rw [reads]
  cases found : ((extract unit node).tallyOf feature).get? name with
  | none => rfl
  | some number =>
      have counted := positive name number found
      exact if_neg (Nat.ne_of_gt counted)

/-- A word that is raised holds the count of the snapshot. -/
theorem toNat_counts (holds : counters.Holds (walked unit node)) {feature : Feature}
    (raised : isSummed feature = false) :
    (counters.counts feature).toNat = (extract unit node).countOf feature := by
  rw [holds.counts, walked, Cell.isSummed, raised]
  rfl

theorem sum_complexitySummands (holds : counters.Holds (walked unit node)) :
    ((complexitySummands.map counters.counts).map UInt32.toNat).sum =
      (extract unit node).countOf .complexity := by
  simp only [complexitySummands, List.map_cons, List.map_nil, List.sum_cons, List.sum_nil]
  rw [toNat_counts holds rfl, toNat_counts holds rfl, toNat_counts holds rfl,
    toNat_counts holds rfl, countOf_complexity]
  omega

theorem sum_markerSummands (holds : counters.Holds (walked unit node)) :
    ((markerSummands.map counters.counts).map UInt32.toNat).sum =
      (extract unit node).countOf .functionalMarkers := by
  simp only [markerSummands, List.map_cons, List.map_nil, List.sum_cons, List.sum_nil]
  rw [toNat_counts holds rfl, toNat_counts holds rfl, countOf_functionalMarkers]
  omega

theorem sum_decoratorNames (holds : counters.Holds (walked unit node))
    (positive : ((extract unit node).tallyOf .decoratorNames).IsPositive) :
    ((counters.tallies .decoratorNames).values.map UInt32.toNat).sum =
      (extract unit node).countOf .decorators := by
  rw [← SortedMap.values_map, map_toNat_tallies holds positive, countOf_decorators]

/-- What a node counts for a feature are the places that belong to it. -/
theorem countOf_eq_countP (isRead : unit.IsRead) (member : node ∈ unit.nodes) {feature : Feature}
    (counted : countedKinds feature ≠ []) :
    (extract unit node).countOf feature =
      (placesIn unit).countP fun place => place.counts feature && place.belongsTo node := by
  have own := amount_placesIn isRead counted fun key => decide (node.key = key)
  simp only [decide_eq_true_eq, @eq_comm _ node.key] at own
  rw [sum_of_key isRead member] at own
  rw [← own, amount]
  apply List.countP_congr
  intro place inside
  rw [Bool.and_eq_true, Bool.and_eq_true, belongsTo_iff isRead inside member, decide_eq_true_iff,
    @eq_comm _ node.key]

theorem counts_setSums {complexity markers decorators : UInt32} {feature : Feature}
    (raised : isSummed feature = false) :
    (counters.setSums complexity markers decorators).counts feature =
      counters.counts feature := by
  cases feature <;> first | rfl | cases raised

/-- The sums fit in words as well. -/
theorem exists_extractWords?_eq (obeys : unit.tree.Obeys HoldsHandlers)
    (small : unit.tree.size < 2 ^ 32)
    (positive : ∀ feature, feature.kind = .tally →
      ((extract unit node).tallyOf feature).IsPositive) :
    ∃ (counters : Counters) (complexity markers decorators : UInt32),
      extractWords? unit node = some (counters.setSums complexity markers decorators) ∧
      counters.Holds (walked unit node) ∧
      complexity.toNat = (extract unit node).countOf .complexity ∧
      markers.toNat = (extract unit node).countOf .functionalMarkers ∧
      decorators.toNat = (extract unit node).countOf .decorators := by
  obtain ⟨counters, raisedAll, holds⟩ := exists_raiseAll?_raised obeys small node
  have fits (feature : Feature) : (extract unit node).countOf feature < UInt32.size :=
    Nat.lt_of_le_of_lt (amount_extract_le obeys node (.counter feature)) small
  have decoratorSum := sum_decoratorNames holds (positive .decoratorNames rfl)
  obtain ⟨complexity, complexityMade, complexityEq⟩ := exists_sumWords? (by
    rw [sum_complexitySummands holds]
    exact fits .complexity)
  obtain ⟨markers, markersMade, markersEq⟩ := exists_sumWords? (by
    rw [sum_markerSummands holds]
    exact fits .functionalMarkers)
  obtain ⟨decorators, decoratorsMade, decoratorsEq⟩ := exists_sumWords? (by
    rw [decoratorSum]
    exact fits .decorators)
  refine ⟨counters, complexity, markers, decorators, ?_, holds,
    complexityEq.trans (sum_complexitySummands holds), markersEq.trans (sum_markerSummands holds),
    decoratorsEq.trans decoratorSum⟩
  simp only [extractWords?, raisedAll, complexityMade, markersMade, decoratorsMade,
    Option.bind_eq_bind, Option.bind_some, Option.pure_def]

/-- The words of a node of a unit are exact, if its tree has fewer nodes than there are
words. -/
theorem exists_exact_words {path revision text : String}
    (made : SourceUnit.read path revision text = .ok unit) (small : unit.tree.size < 2 ^ 32)
    (member : node ∈ unit.nodes) :
    ∃ words, extractWords? unit node = some words ∧ IsExact unit node words := by
  have isRead := SourceUnit.isRead_of_read made
  have obeys := Source.obeys_holdsHandlers_of_parse (SourceUnit.read_eq_ok_iff.1 made).2.2.1
  have positive (feature : Feature) (shape : feature.kind = .tally) :
      ((extract unit node).tallyOf feature).IsPositive :=
    isPositive_tallyOf (suits_measure isRead member) shape
  obtain ⟨counters, complexity, markers, decorators, extracts, holds, complexityEq, markersEq,
    decoratorsEq⟩ := exists_extractWords?_eq obeys small positive
  have raised {feature : Feature} (plain : isSummed feature = false) :
      ((counters.setSums complexity markers decorators).counts feature).toNat =
        (extract unit node).countOf feature := by
    rw [counts_setSums plain, toNat_counts holds plain]
  have counts (feature : Feature) (shape : feature.kind = .count) :
      ((counters.setSums complexity markers decorators).counts feature).toNat =
        (extract unit node).countOf feature := by
    cases feature with
    | complexity => exact complexityEq
    | functionalMarkers => exact markersEq
    | decorators => exact decoratorsEq
    | _ => exact raised rfl
  have tallies (feature : Feature) (shape : feature.kind = .tally) :
      (counters.tallies feature).map UInt32.toNat = (extract unit node).tallyOf feature :=
    map_toNat_tallies holds (positive feature shape)
  have summands (feature : Feature) (summand : feature ∈ complexitySummands) :
      ((counters.setSums complexity markers decorators).counts feature).toNat =
        (placesIn unit).countP fun place => place.counts feature && place.belongsTo node := by
    have counted : ∀ feature ∈ complexitySummands,
        isSummed feature = false ∧ countedKinds feature ≠ [] := by
      decide
    obtain ⟨plain, kinds⟩ := counted feature summand
    rw [raised plain]
    exact countOf_eq_countP isRead member kinds
  have sums : complexity.toNat = (complexitySummands.map fun feature =>
      ((counters.setSums complexity markers decorators).counts feature).toNat).sum :=
    complexityEq.trans (sum_complexitySummands holds).symm
  refine ⟨_, extracts, ?_⟩
  constructor
  case counts => exact counts
  case tallies => exact tallies
  case counts_le =>
    intro feature shape
    rw [counts feature shape]
    exact amount_extract_le obeys node (.counter feature)
  case tallies_le =>
    intro feature shape word inside
    obtain ⟨⟨name, _⟩, entry, rfl⟩ := List.mem_map.1 inside
    have found : (counters.tallies feature).get? name = some _ := SortedMap.mem_entries_iff.1 entry
    have bounded := amount_extract_le obeys node (.entry feature name)
    rwa [Snapshot.amount, ← tallies feature shape, Tally.numberOf, SortedMap.get?_map,
      found] at bounded
  case complexity => exact sums
  case functionalMarkers => exact markersEq.trans (sum_markerSummands holds).symm
  case decorators => exact decoratorsEq.trans (sum_decoratorNames holds (positive _ rfl)).symm
  case union =>
    rw [← sum_countP_counts (by decide)]
    exact sums.trans (congrArg List.sum (List.map_congr_left summands))
  case summands => exact summands
  case disjoint =>
    intro first _ second _ different place _ countsFirst
    rw [← Bool.not_eq_true]
    exact fun countsSecond => different (eq_of_counts countsFirst countsSecond)
  case nodes => exact length_placesOf [] [] unit.tree

end

/-- A module with a handler, and a function with a decorator. -/
theorem exists_exact_words_of_handler : ∃ unit,
    SourceUnit.read "m.py" "r1" "try: a\nexcept (B, C): 1\n@d\ndef f(): return\n" = .ok unit ∧
      unit.tree.size < 2 ^ 32 ∧
      (unit.nodes.map fun node => (extractWords? unit node).map fun words =>
        (words.counts .complexity, words.counts .decorators)) = [some (2, 0), some (1, 1)] ∧
      ∀ node ∈ unit.nodes,
        ∃ words, extractWords? unit node = some words ∧ IsExact unit node words := by
  have seen : ((SourceUnit.read "m.py" "r1"
      "try: a\nexcept (B, C): 1\n@d\ndef f(): return\n").toOption.map fun unit =>
        (decide (unit.tree.size < 2 ^ 32),
          unit.nodes.map fun node => (extractWords? unit node).map fun words =>
            (words.counts .complexity, words.counts .decorators))) =
      some (true, [some (2, 0), some (1, 1)]) := by
    decide +kernel
  obtain ⟨unit, made, observed⟩ := exists_ok_of_map_eq_some seen
  simp only [Prod.mk.injEq, decide_eq_true_eq] at observed
  obtain ⟨small, words⟩ := observed
  exact ⟨unit, made, small, words, fun node member => exists_exact_words made small member⟩

end SemanticDiff.Feature
