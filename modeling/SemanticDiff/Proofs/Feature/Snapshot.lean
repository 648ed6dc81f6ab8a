import Mathlib.Data.List.Nodup
import SemanticDiff.Feature.Extraction
import SemanticDiff.Proofs.Feature.Sum

/-!
# Reading snapshots

A snapshot keeps the shapes of its values, whatever is written to it.  So every
feature of an extracted snapshot can be read in its own shape, and reading it
gives what was measured.
-/

namespace SemanticDiff.Feature

open SemanticDiff.Source (Tree Kind Label Field)
open SemanticDiff.Outline (Node SourceUnit)

namespace Snapshot

variable {snapshot changed : Snapshot} {feature : Feature}

/-! ## Shapes -/

/-- The snapshot has a value of the right shape for a feature. -/
def Holds (snapshot : Snapshot) (feature : Feature) : Prop :=
  ∃ value, snapshot.get? feature = some value ∧ value.kind = feature.kind

theorem holds_zero {vocabulary : List Feature} (member : feature ∈ vocabulary) :
    (zero vocabulary).Holds feature :=
  ⟨Value.zero feature.kind, by simp [zero, member], Value.kind_zero _⟩

/-- Writing a value changes one feature, to a value of the shape it had. -/
theorem get?_of_set {written : Feature} {value : Value}
    (made : snapshot.set written value = .ok changed) :
    (∃ held, snapshot.get? written = some held ∧ held.kind = value.kind) ∧
      ∀ other, changed.get? other = if other = written then some value else snapshot.get? other := by
  rw [set] at made
  split at made
  · rename_i held found
    split at made
    · rename_i sameShape
      cases made
      exact ⟨⟨held, found, sameShape⟩, fun other => rfl⟩
    · cases made
  · cases made

theorem Holds.of_set {written : Feature} {value : Value} (holds : snapshot.Holds feature)
    (made : snapshot.set written value = .ok changed) : changed.Holds feature := by
  obtain ⟨⟨held, found, sameShape⟩, reads⟩ := get?_of_set made
  rcases holds with ⟨own, ownFound, ownShape⟩
  by_cases same : feature = written
  · subst written
    rw [ownFound] at found
    cases found
    exact ⟨value, by rw [reads, if_pos rfl], by rw [← sameShape, ownShape]⟩
  · exact ⟨own, by rw [reads, if_neg same, ownFound], ownShape⟩

/-- A value of the right shape can be written. -/
theorem Holds.exists_set {value : Value} (holds : snapshot.Holds feature)
    (shape : value.kind = feature.kind) : ∃ changed, snapshot.set feature value = .ok changed := by
  rcases holds with ⟨held, found, heldShape⟩
  rw [set, found]
  simp only [heldShape, shape, if_true]
  exact ⟨_, rfl⟩

theorem setAll_cons (snapshot : Snapshot) (written : Feature) (value : Value)
    (values : List (Feature × Value)) :
    snapshot.setAll ((written, value) :: values) =
      match snapshot.set written value with
      | .ok changed => changed.setAll values
      | .error _ => snapshot.setAll values := by
  rw [setAll, List.foldl_cons]
  cases snapshot.set written value <;> rfl

/-- What every accepted value keeps, a run of values keeps. -/
theorem setAll_induction {good : Snapshot → Prop}
    (step : ∀ {snapshot changed : Snapshot} {written : Feature} {value : Value},
      good snapshot → snapshot.set written value = .ok changed → good changed)
    (start : good snapshot) (values : List (Feature × Value)) : good (snapshot.setAll values) := by
  induction values generalizing snapshot with
  | nil => exact start
  | cons entry rest ih =>
      rw [setAll_cons]
      cases made : snapshot.set entry.1 entry.2 with
      | ok changed => exact ih (step start made)
      | error => exact ih start

theorem Holds.setAll {values : List (Feature × Value)} (holds : snapshot.Holds feature) :
    (snapshot.setAll values).Holds feature :=
  setAll_induction of_set holds values

theorem get?_setAll_of_not_mem {values : List (Feature × Value)}
    (absent : ∀ entry ∈ values, entry.1 ≠ feature) :
    (snapshot.setAll values).get? feature = snapshot.get? feature := by
  induction values generalizing snapshot with
  | nil => rfl
  | cons entry rest ih =>
      rcases List.forall_mem_cons.1 absent with ⟨different, others⟩
      rw [setAll_cons]
      cases made : snapshot.set entry.1 entry.2 with
      | ok changed => simp only [ih others, (get?_of_set made).2, if_neg (Ne.symm different)]
      | error => exact ih others

/-- Values of the right shapes for distinct features are all kept. -/
theorem get?_setAll_of_mem {values : List (Feature × Value)} {value : Value}
    (distinct : (values.map Prod.fst).Nodup)
    (shapes : ∀ entry ∈ values, entry.2.kind = entry.1.kind)
    (holds : ∀ other, snapshot.Holds other) (member : (feature, value) ∈ values) :
    (snapshot.setAll values).get? feature = some value := by
  induction values generalizing snapshot with
  | nil => simp at member
  | cons entry rest ih =>
      rcases List.nodup_cons.1 distinct with ⟨new, restDistinct⟩
      rcases List.forall_mem_cons.1 shapes with ⟨shape, restShapes⟩
      obtain ⟨changed, made⟩ := (holds entry.1).exists_set shape
      rw [setAll_cons]
      simp only [made]
      rcases List.mem_cons.1 member with rfl | later
      · rw [get?_setAll_of_not_mem, (get?_of_set made).2, if_pos rfl]
        intro other otherMem same
        exact new (List.mem_map.2 ⟨other, otherMem, same⟩)
      · exact ih restDistinct restShapes (fun other => (holds other).of_set made) later

/-! ## Readings -/

/-- The count of a feature. -/
def countOf (snapshot : Snapshot) (feature : Feature) : Nat :=
  (snapshot.count feature).toOption.getD 0

/-- The flag of a feature. -/
def flagOf (snapshot : Snapshot) (feature : Feature) : Bool :=
  (snapshot.flag feature).toOption.getD false

/-- The tally of a feature. -/
def tallyOf (snapshot : Snapshot) (feature : Feature) : Tally :=
  (snapshot.tally feature).toOption.getD SortedMap.empty

/-- The text of a feature. -/
def textOf (snapshot : Snapshot) (feature : Feature) : String :=
  (snapshot.text feature).toOption.getD ""

theorem Holds.count_eq (holds : snapshot.Holds feature) (shape : feature.kind = .count) :
    snapshot.count feature = .ok (snapshot.countOf feature) := by
  rcases holds with ⟨value, found, kind⟩
  rw [shape] at kind
  cases value <;> cases kind
  simp [count, countOf, found, Except.toOption]

theorem Holds.flag_eq (holds : snapshot.Holds feature) (shape : feature.kind = .flag) :
    snapshot.flag feature = .ok (snapshot.flagOf feature) := by
  rcases holds with ⟨value, found, kind⟩
  rw [shape] at kind
  cases value <;> cases kind
  simp [flag, flagOf, found, Except.toOption]

theorem Holds.tally_eq (holds : snapshot.Holds feature) (shape : feature.kind = .tally) :
    snapshot.tally feature = .ok (snapshot.tallyOf feature) := by
  rcases holds with ⟨value, found, kind⟩
  rw [shape] at kind
  cases value <;> cases kind
  simp [tally, tallyOf, found, Except.toOption]

theorem Holds.text_eq (holds : snapshot.Holds feature) (shape : feature.kind = .text) :
    snapshot.text feature = .ok (snapshot.textOf feature) := by
  rcases holds with ⟨value, found, kind⟩
  rw [shape] at kind
  cases value <;> cases kind
  simp [text, textOf, found, Except.toOption]

theorem countOf_of_get? {number : Nat} (found : snapshot.get? feature = some (.count number)) :
    snapshot.countOf feature = number := by
  simp [countOf, count, found, Except.toOption]

theorem flagOf_of_get? {set : Bool} (found : snapshot.get? feature = some (.flag set)) :
    snapshot.flagOf feature = set := by
  simp [flagOf, flag, found, Except.toOption]

theorem tallyOf_of_get? {names : Tally} (found : snapshot.get? feature = some (.tally names)) :
    snapshot.tallyOf feature = names := by
  simp [tallyOf, tally, found, Except.toOption]

theorem textOf_of_get? {content : String} (found : snapshot.get? feature = some (.text content)) :
    snapshot.textOf feature = content := by
  simp [textOf, text, found, Except.toOption]

end Snapshot

/-! ## Extracted snapshots -/

theorem map_fst_values (header : Header) (facts : Facts) :
    (values header facts).map Prod.fst = Feature.all :=
  rfl

theorem kind_of_mem_values (header : Header) (facts : Facts) :
    ∀ entry ∈ values header facts, entry.2.kind = entry.1.kind := by
  simp only [values, List.forall_mem_cons, Value.kind, Feature.kind, List.not_mem_nil,
    false_implies, implies_true, and_true]

theorem extract_eq (unit : SourceUnit) (node : Node) :
    extract unit node =
      (Snapshot.zero extracted).setAll
        (values (measure unit.tree node).1 (measure unit.tree node).2) :=
  rfl

/-- Every feature is extracted in its shape. -/
theorem holds_extract (unit : SourceUnit) (node : Node) (feature : Feature) :
    (extract unit node).Holds feature :=
  (Snapshot.holds_zero (Feature.mem_all feature)).setAll

/-- What is extracted is what was measured. -/
theorem get?_extract {unit : SourceUnit} {node : Node} {feature : Feature} {value : Value}
    (member : (feature, value) ∈
      values (measure unit.tree node).1 (measure unit.tree node).2) :
    (extract unit node).get? feature = some value := by
  rw [extract_eq]
  refine Snapshot.get?_setAll_of_mem ?_ (kind_of_mem_values _ _)
    (fun other => Snapshot.holds_zero (Feature.mem_all other)) member
  rw [map_fst_values]
  decide

theorem countOf_extract {unit : SourceUnit} {node : Node} {feature : Feature} {number : Nat}
    (member : (feature, Value.count number) ∈
      values (measure unit.tree node).1 (measure unit.tree node).2) :
    (extract unit node).countOf feature = number :=
  Snapshot.countOf_of_get? (get?_extract member)

/-- Functional style is counted by its two markers. -/
theorem countOf_functionalMarkers (unit : SourceUnit) (node : Node) :
    (extract unit node).countOf .functionalMarkers =
      (extract unit node).countOf .lambdas + (extract unit node).countOf .comprehensions := by
  have markers : (extract unit node).countOf .functionalMarkers =
      (measure unit.tree node).2.lambdas + (measure unit.tree node).2.comprehensions :=
    countOf_extract (by simp [values])
  have lambdas : (extract unit node).countOf .lambdas = (measure unit.tree node).2.lambdas :=
    countOf_extract (by simp [values])
  have comprehensions : (extract unit node).countOf .comprehensions =
      (measure unit.tree node).2.comprehensions :=
    countOf_extract (by simp [values])
  rw [markers, lambdas, comprehensions]

/-! ## Laws -/

namespace Facts.IsLaw

variable {law : Facts → Prop}

theorem headFacts (isLaw : IsLaw law) (definition : Tree) (role : Field) :
    law (headFacts definition role) := by
  rw [Feature.headFacts]
  cases definition.childWith? role with
  | none => exact isLaw.zero
  | some part => exact isLaw.factsOfAll part.children

theorem bodyFacts (isLaw : IsLaw law) (definition : Tree) : law (bodyFacts definition) := by
  rw [Feature.bodyFacts]
  cases definition.childWith? .body with
  | none => exact isLaw.zero
  | some body => exact isLaw.factsOfAll _

/-- What is measured about a node obeys every law of facts. -/
theorem measure (isLaw : IsLaw law) (tree : Tree) (node : Node) : law (measure tree node).2 := by
  rw [Feature.measure]
  split
  · exact isLaw.factsOfAll _
  · split
    · exact isLaw.add _ _ (isLaw.headFacts _ _) (isLaw.bodyFacts _)
    · exact isLaw.zero
  · split
    · exact isLaw.add _ _ (isLaw.headFacts _ _) (isLaw.bodyFacts _)
    · exact isLaw.zero

end Facts.IsLaw

/-! ## Caught exceptions -/

/-- Exceptions are only caught by handlers. -/
def Facts.CatchesByHandlers (facts : Facts) : Prop :=
  facts.handlers = 0 → facts.handlerTypes = SortedMap.empty

theorem isLaw_catchesByHandlers : Facts.IsLaw Facts.CatchesByHandlers where
  zero _ := rfl
  add first second left right none := by
    rcases Nat.add_eq_zero_iff.1 none with ⟨firstNone, secondNone⟩
    rw [Facts.add, left firstNone, right secondNone]
    rfl
  own kind children := by
    cases kind with
    | exceptClause | exceptGroupClause =>
        intro none
        cases none
    | _ => exact fun _ => rfl
  nested label := by
    unfold nestedFacts
    split <;> exact fun _ => rfl

/-- Code without handlers catches nothing. -/
theorem tallyOf_handlerTypes_eq_empty {unit : SourceUnit} {node : Node}
    (none : (extract unit node).countOf .exceptionHandlers = 0) :
    (extract unit node).tallyOf .handlerTypes = SortedMap.empty := by
  have handlers : (extract unit node).countOf .exceptionHandlers =
      (measure unit.tree node).2.handlers :=
    countOf_extract (by simp [values])
  have types : (extract unit node).get? .handlerTypes =
      some (.tally (measure unit.tree node).2.handlerTypes) :=
    get?_extract (by simp [values])
  rw [Snapshot.tallyOf_of_get? types]
  exact isLaw_catchesByHandlers.measure unit.tree node (handlers ▸ none)

end SemanticDiff.Feature
