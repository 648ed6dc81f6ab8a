import Mathlib.Algebra.Order.BigOperators.Group.List
import Mathlib.Algebra.Order.Group.Nat
import SemanticDiff.Feature.Counters
import SemanticDiff.Proofs.Feature.Handler
import SemanticDiff.Proofs.Feature.Room

/-!
# No number is greater than the tree

The exceptions that a handler catches are charged to the nodes of the handler outside of
other handlers.  Decorators and parameters are children of a node by themselves.  So
neither a counter of a node nor the number of a name in a tally is greater than the number
of nodes of the tree.
-/

namespace SemanticDiff.Feature

open SemanticDiff.Source (Tree Kind Label HoldsHandlers)
open SemanticDiff.Source.Tree
open SemanticDiff.Outline (Node SourceUnit)

/-! ## Caught exceptions -/

mutual

/-- How many nodes of a tree stand outside of its handlers. -/
def sizeOutside : Tree → Nat
  | .node label _ _ _ children => if label.isHandler then 0 else 1 + sizeOutsideAll children

/-- How many nodes of a run of trees stand outside of its handlers. -/
def sizeOutsideAll : List Tree → Nat
  | [] => 0
  | tree :: trees => sizeOutside tree + sizeOutsideAll trees

end

mutual

theorem sizeOutside_le_size : (tree : Tree) → sizeOutside tree ≤ tree.size
  | .node label field span text children => by
      rw [sizeOutside, size]
      split
      · exact Nat.zero_le _
      · exact Nat.add_le_add_left (sizeOutsideAll_le_sizeAll children) 1

theorem sizeOutsideAll_le_sizeAll : (trees : List Tree) → sizeOutsideAll trees ≤ sizeAll trees
  | [] => Nat.le_refl 0
  | tree :: trees =>
      Nat.add_le_add (sizeOutside_le_size tree) (sizeOutsideAll_le_sizeAll trees)

end

theorem sizeOutsideAll_eq_sum (trees : List Tree) :
    sizeOutsideAll trees = (trees.map sizeOutside).sum := by
  induction trees with
  | nil => rfl
  | cons tree trees ih => rw [sizeOutsideAll, ih, List.map_cons, List.sum_cons]

theorem sizeOutside_le_of_mem {tree : Tree} {trees : List Tree} (member : tree ∈ trees) :
    sizeOutside tree ≤ sizeOutsideAll trees := by
  rw [sizeOutsideAll_eq_sum]
  exact List.le_sum_of_mem (List.mem_map_of_mem member)

/-- The tree is made as it should be, and is no handler. -/
structure IsOutside (tree : Tree) : Prop where
  obeys : tree.Obeys HoldsHandlers
  other : tree.label.isHandler = false

namespace IsOutside

variable {tree : Tree}

theorem sizeOutside_eq (outside : IsOutside tree) :
    sizeOutside tree = 1 + sizeOutsideAll tree.children := by
  rcases tree with ⟨label, field, span, text, children⟩
  have other : label.isHandler = false := outside.other
  rw [sizeOutside, other, if_neg Bool.false_ne_true]
  rfl

theorem of_mem_children {child : Tree} (obeys : tree.Obeys HoldsHandlers)
    (plain : tree.label ≠ .construct .tryStatement) (member : child ∈ tree.children) :
    IsOutside child := by
  refine ⟨obeys.of_mem member, ?_⟩
  rw [← Bool.not_eq_true]
  exact fun handles => plain (obeys.asked child member handles)

theorem of_mem {kind : Kind} (outside : IsOutside tree) (is : tree.is kind = true)
    (plain : kind ≠ .tryStatement) {child : Tree} (member : child ∈ tree.children) :
    IsOutside child ∧ sizeOutside child ≤ sizeOutside tree := by
  rw [Tree.is, beq_iff_eq] at is
  refine ⟨of_mem_children outside.obeys (by simpa [is] using plain) member, ?_⟩
  rw [outside.sizeOutside_eq]
  exact Nat.le_trans (sizeOutside_le_of_mem member) (Nat.le_add_left _ _)

theorem length_le {trees : List Tree} (outside : ∀ tree ∈ trees, IsOutside tree) :
    trees.length ≤ sizeOutsideAll trees := by
  induction trees with
  | nil => exact Nat.le_refl 0
  | cons tree trees ih =>
      rw [List.forall_mem_cons] at outside
      have own := outside.1.sizeOutside_eq
      have rest := ih outside.2
      rw [List.length_cons, sizeOutsideAll]
      omega

theorem aliased (outside : IsOutside tree) :
    IsOutside (aliased tree) ∧ sizeOutside (aliased tree) ≤ sizeOutside tree := by
  rw [Feature.aliased]
  split
  · rename_i alias'
    rw [List.headD_eq_head?_getD]
    cases head : tree.namedChildren.head? with
    | none => exact ⟨outside, Nat.le_refl _⟩
    | some first =>
        exact outside.of_mem alias' (by decide) (List.mem_of_mem_filter (List.mem_of_head? head))
  · exact ⟨outside, Nat.le_refl _⟩

mutual

theorem unwrap : (tree : Tree) → IsOutside tree →
    IsOutside (Feature.unwrap tree) ∧ sizeOutside (Feature.unwrap tree) ≤ sizeOutside tree
  | .node label field span text children, outside => by
      rw [Feature.unwrap]
      split
      · rename_i parentheses
        subst parentheses
        have inside : ∀ child ∈ children, IsOutside child := fun child member =>
          (outside.of_mem (beq_self_eq_true _) (by decide) member).1
        cases found : Feature.unwrapFirst children with
        | none => exact ⟨outside, Nat.le_refl _⟩
        | some inner =>
            obtain ⟨innerOutside, smaller⟩ := unwrapFirst children inside found
            rw [outside.sizeOutside_eq]
            exact ⟨innerOutside, Nat.le_trans smaller (Nat.le_add_left _ _)⟩
      · exact ⟨outside, Nat.le_refl _⟩

theorem unwrapFirst {inner : Tree} : (trees : List Tree) → (∀ tree ∈ trees, IsOutside tree) →
    Feature.unwrapFirst trees = some inner →
    IsOutside inner ∧ sizeOutside inner ≤ sizeOutsideAll trees
  | [], _, found => by cases found
  | tree :: trees, outside, found => by
      rw [List.forall_mem_cons] at outside
      rw [Feature.unwrapFirst] at found
      rw [sizeOutsideAll]
      split at found
      · cases found
        obtain ⟨innerOutside, smaller⟩ := unwrap tree outside.1
        exact ⟨innerOutside, Nat.le_trans smaller (Nat.le_add_right _ _)⟩
      · obtain ⟨innerOutside, smaller⟩ := unwrapFirst trees outside.2 found
        exact ⟨innerOutside, Nat.le_trans smaller (Nat.le_add_left _ _)⟩

end

theorem length_itemsOf_le (outside : IsOutside tree) :
    (itemsOf tree).length ≤ sizeOutside tree := by
  rw [outside.sizeOutside_eq, itemsOf]
  split
  · rename_i tuple
    have items := length_le fun child member => (outside.of_mem tuple (by decide) member).1
    rw [namedChildren, List.filter_filter]
    exact Nat.le_trans (List.length_filter_le _ _) (Nat.le_trans items (Nat.le_add_left _ _))
  · exact Nat.le_add_right _ _

end IsOutside

/-- A handler catches no more than there are nodes in it outside of other handlers. -/
theorem length_caughtTypes_le {children : List Tree} (outside : ∀ child ∈ children, IsOutside child) :
    (caughtTypes children).length ≤ 1 + sizeOutsideAll children := by
  rw [caughtTypes_eq, caught?]
  cases found : children.find? isCatchable with
  | none => exact Nat.le_add_right _ _
  | some expression =>
      have member := List.mem_of_find?_eq_some found
      obtain ⟨named, first⟩ := (outside expression member).aliased
      obtain ⟨caught, second⟩ := IsOutside.unwrap _ named
      rw [Option.map_some, Option.map_some, Option.getD_some, List.length_map]
      calc
        _ ≤ sizeOutside (unwrap (aliased expression)) := caught.length_itemsOf_le
        _ ≤ sizeOutside expression := Nat.le_trans second first
        _ ≤ sizeOutsideAll children := sizeOutside_le_of_mem member
        _ ≤ 1 + sizeOutsideAll children := Nat.le_add_left _ _

theorem handlerTypes_ownFacts_eq_empty {kind : Kind}
    (other : (Label.construct kind).isHandler = false) (children : List Tree) :
    (ownFacts kind children).handlerTypes = SortedMap.empty := by
  cases kind <;> first | rfl | cases other

theorem handlerTypes_ownFacts_eq {kind : Kind}
    (handles : (Label.construct kind).isHandler = true) (children : List Tree) :
    (ownFacts kind children).handlerTypes = Tally.ofNames (caughtTypes children) := by
  cases kind <;> first | rfl | cases handles

/-- Every exception that a handler catches is charged to a node of this handler. -/
theorem hasRoom_handlerTypes (name : String) :
    HasRoom (fun facts => facts.handlerTypes.numberOf name) sizeOutside where
  add first second := Tally.numberOf_add first.handlerTypes second.handlerTypes name
  nested label tree := by
    have none : (nestedFacts label).handlerTypes = SortedMap.empty := by
      unfold nestedFacts
      split <;> rfl
    rw [none, Tally.numberOf_empty, Nat.zero_add]
    exact sizeOutside_le_size tree
  own kind field span text children obeys := by
    rw [← sizeOutsideAll_eq_sum]
    cases handles : (Label.construct kind).isHandler with
    | true =>
        have outside : ∀ child ∈ children, IsOutside child := fun child =>
          IsOutside.of_mem_children obeys fun same => by
            rw [Tree.label, Label.construct.injEq] at same
            subst same
            cases handles
        rw [handlerTypes_ownFacts_eq handles, sizeOutside, if_pos handles, Nat.add_zero]
        exact Nat.le_trans (Tally.numberOf_ofNames_le _ name) (length_caughtTypes_le outside)
    | false =>
        rw [handlerTypes_ownFacts_eq_empty handles, Tally.numberOf_empty, sizeOutside,
          if_neg (by simp [handles]), Nat.zero_add]

/-! ## Heads -/

namespace Tally

/-- A name that is counted adds to the total what it is counted. -/
theorem sum_insertEntry {entries : List (String × Nat)} (increasing : IncreasingKeys entries)
    (name : String) (number : Nat) :
    ((SortedMap.insertEntry name number entries).map (·.2)).sum +
        ((entries.find? fun entry => entry.1 == name).map (·.2)).getD 0 =
      (entries.map (·.2)).sum + number := by
  induction entries with
  | nil => simp [SortedMap.insertEntry]
  | cons first rest ih =>
      rcases List.pairwise_cons.1 increasing with ⟨smallest, restIncreasing⟩
      rw [SortedMap.insertEntry]
      split
      · rename_i before
        have absent : ((first :: rest).find? fun entry => entry.1 == name) = none := by
          rw [List.find?_eq_none, List.forall_mem_cons]
          refine ⟨by simpa using (String.ne_of_lt before).symm, fun entry member => ?_⟩
          simpa using (String.ne_of_lt (String.lt_trans before (smallest entry member))).symm
        rw [absent, List.map_cons, List.sum_cons]
        simp only [Option.map_none, Option.getD_none]
        omega
      · split
        · rename_i same
          simp [same]
          omega
        · rename_i different
          rw [List.find?_cons_of_neg (by simpa using Ne.symm different), List.map_cons,
            List.sum_cons, List.map_cons, List.sum_cons, Nat.add_assoc, ih restIncreasing,
            Nat.add_assoc]

theorem total_bump (tally : Tally) (name : String) (times : Nat) :
    (tally.bump name times).total = tally.total + times := by
  have inserted := sum_insertEntry tally.increasing name ((tally.get? name).getD 0 + times)
  rw [total_eq_sum, total_eq_sum]
  simp only [bump, SortedMap.insert, SortedMap.values, SortedMap.get?] at inserted ⊢
  omega

/-- A tally of names has as many as there are names. -/
theorem total_ofNames (names : List String) : (ofNames names).total = names.length := by
  have counted (tally : Tally) :
      (names.foldl (fun tally name => tally.bump name 1) tally).total =
        tally.total + names.length := by
    induction names generalizing tally with
    | nil => rfl
    | cons name names ih =>
        rw [List.foldl_cons, ih, total_bump, List.length_cons]
        omega
  rw [ofNames, counted]
  exact Nat.zero_add _

end Tally

/-- Every decorator is a child of the node around the definition. -/
theorem length_namesOfDecorators_le {located : Located} {bound : Nat}
    (above : ∀ around ∈ located.parent, around.size ≤ bound) :
    (namesOfDecorators located).length ≤ bound := by
  rw [namesOfDecorators]
  split
  · rename_i around parent
    refine Nat.le_trans ?_ (above around parent)
    split
    · refine Nat.le_trans (List.length_filterMap_le _ _) (Nat.le_of_lt ?_)
      exact length_lt_size (List.filter_sublist.trans List.filter_sublist)
    · exact Nat.zero_le _
  · exact Nat.zero_le _

/-- Every parameter is a child of the list of parameters. -/
theorem defaultParameters_functionHeader_le (located : Located) :
    (functionHeader located).defaultParameters ≤ located.tree.size := by
  simp only [functionHeader]
  cases found : located.tree.childWith? .parameters with
  | none => exact Nat.zero_le _
  | some parameters =>
      have fewer : (((listedItems parameters).filter hasDefault).length) < parameters.size :=
        length_lt_size (List.filter_sublist.trans (List.filter_sublist.trans List.filter_sublist))
      have smaller := size_lt_of_mem_children (List.mem_of_find?_eq_some found)
      exact Nat.le_of_lt (Nat.lt_trans fewer smaller)

/-- What the head of a node says of numbers is no more than the nodes of the tree. -/
theorem measure_fst_le {tree : Tree} (obeys : tree.Obeys HoldsHandlers) (node : Node) :
    (measure tree node).1.defaultParameters ≤ tree.size ∧
      (measure tree node).1.decorators.total ≤ tree.size := by
  have nothing : ({} : Header).defaultParameters ≤ tree.size ∧
      ({} : Header).decorators.total ≤ tree.size := ⟨Nat.zero_le _, Nat.zero_le _⟩
  have decorators {kind : Kind} {located : Located}
      (found : locate kind node.span none tree = some located) :
      (Tally.ofNames (namesOfDecorators located)).total ≤ tree.size := by
    rw [Tally.total_ofNames]
    exact length_namesOfDecorators_le fun around parent =>
      ((isPart_of_locate obeys found).2 around parent).size_le
  rw [measure]
  split
  · exact nothing
  · split
    · rename_i located found
      exact ⟨Nat.le_trans (defaultParameters_functionHeader_le located)
        (isPart_of_locate obeys found).1.size_le, decorators found⟩
    · exact nothing
  · split
    · exact ⟨Nat.zero_le _, decorators ‹_›⟩
    · exact nothing

/-! ## Amounts -/

/-- The feature of a cell. -/
def Cell.feature : Cell → Feature
  | .counter feature => feature
  | .entry feature _ => feature

/-- What a value says of a cell of its feature. -/
def Value.amount (value : Value) : Cell → Nat
  | .counter _ => match value with
      | .count number => number
      | _ => 0
  | .entry _ name => match value with
      | .tally names => names.numberOf name
      | _ => 0

/-- What a snapshot says of a cell. -/
def Snapshot.amount (snapshot : Snapshot) : Cell → Nat
  | .counter feature => snapshot.countOf feature
  | .entry feature name => (snapshot.tallyOf feature).numberOf name

theorem Snapshot.amount_of_get? {snapshot : Snapshot} {cell : Cell} {value : Value}
    (found : snapshot.get? cell.feature = some value) :
    snapshot.amount cell = value.amount cell := by
  cases cell with
  | counter feature =>
      have held : snapshot.get? feature = some value := found
      cases value <;> simp [amount, Value.amount, countOf, count, held, Except.toOption]
  | entry feature name =>
      have held : snapshot.get? feature = some value := found
      cases value <;>
        simp [amount, Value.amount, tallyOf, tally, held, Except.toOption, Tally.numberOf_empty]

theorem numberOf_le_total (tally : Tally) (name : String) : tally.numberOf name ≤ tally.total := by
  rw [Tally.numberOf, Tally.total_eq_sum]
  cases found : tally.get? name with
  | none => exact Nat.zero_le _
  | some number =>
      exact List.le_sum_of_mem (List.mem_map.2 ⟨_, SortedMap.mem_entries_iff.2 found, rfl⟩)

/-- No number that is measured about a node is greater than the number of nodes of the
tree. -/
theorem amount_le_of_mem_values {tree : Tree} (obeys : tree.Obeys HoldsHandlers) (node : Node) :
    ∀ entry ∈ values (measure tree node).1 (measure tree node).2, ∀ cell,
      entry.2.amount cell ≤ tree.size := by
  have constructs := hasRoom_total.measure obeys node
  obtain ⟨parameters, decorators⟩ := measure_fst_le obeys node
  have imports (name : String) : (measure tree node).2.imports.numberOf name ≤ tree.size :=
    (hasRoom_imports name).measure obeys node
  have caught (name : String) : (measure tree node).2.handlerTypes.numberOf name ≤ tree.size :=
    (hasRoom_handlerTypes name).measure obeys node
  have named (name : String) : (measure tree node).1.decorators.numberOf name ≤ tree.size :=
    Nat.le_trans (numberOf_le_total _ name) decorators
  unfold Facts.total at constructs
  intro entry member cell
  revert entry
  simp only [values, List.forall_mem_cons]
  cases cell with
  | counter feature =>
      simp only [Value.amount, List.not_mem_nil, false_implies, implies_true, and_true]
      and_intros <;> omega
  | entry feature name => simp [Value.amount, imports, caught, named]

theorem exists_mem_values (header : Header) (facts : Facts) (feature : Feature) :
    ∃ value, (feature, value) ∈ values header facts := by
  have listed : feature ∈ (values header facts).map Prod.fst := Feature.mem_all feature
  obtain ⟨⟨_, value⟩, member, rfl⟩ := List.mem_map.1 listed
  exact ⟨value, member⟩

theorem amount_extract {unit : SourceUnit} {node : Node} {cell : Cell} {value : Value}
    (member : (cell.feature, value) ∈
      values (measure unit.tree node).1 (measure unit.tree node).2) :
    (extract unit node).amount cell = value.amount cell :=
  Snapshot.amount_of_get? (get?_extract member)

/-- No number that is extracted is greater than the number of nodes of the tree. -/
theorem amount_extract_le {unit : SourceUnit} (obeys : unit.tree.Obeys HoldsHandlers)
    (node : Node) (cell : Cell) : (extract unit node).amount cell ≤ unit.tree.size := by
  obtain ⟨value, member⟩ := exists_mem_values (measure unit.tree node).1
    (measure unit.tree node).2 cell.feature
  rw [amount_extract member]
  exact amount_le_of_mem_values obeys node _ member cell

end SemanticDiff.Feature
