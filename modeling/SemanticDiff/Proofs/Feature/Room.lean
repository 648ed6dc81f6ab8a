import SemanticDiff.Proofs.Feature.Consistency
import SemanticDiff.Proofs.Source.Handlers
import SemanticDiff.Proofs.Source.Size

/-!
# There is room for what is counted

What is counted in a tree is charged to nodes of the tree, and no node is charged twice.
Most constructs are charged to their own node.  The modules that are imported are charged
to the names in the statement, and the exceptions that a handler catches to the items of
its tuple, in which no other handler stands.  So no number is greater than the number of
nodes.
-/

namespace SemanticDiff.Feature

open SemanticDiff.Source (Tree Kind Label Field Span HoldsHandlers)
open SemanticDiff.Source.Tree
open SemanticDiff.Outline (Node)

/-! ## Parts -/

theorem sublist_withoutDocstring (trees : List Tree) :
    (withoutDocstring trees).Sublist trees := by
  induction trees with
  | nil => exact List.Sublist.refl _
  | cons tree trees ih =>
      rw [withoutDocstring_cons]
      split
      · split
        · exact List.sublist_cons_self tree trees
        · exact List.Sublist.refl _
      · exact ih.cons_cons tree

section

variable {good : Tree → Prop} {kind : Kind} {range : Span} {located : Located}

mutual

/-- What holds of a tree and passes on to children holds of the node that is located in
it, and of the node around this one. -/
theorem good_of_locate (passes : ∀ tree : Tree, good tree → ∀ child ∈ tree.children, good child)
    {parent : Option Tree} (above : ∀ around ∈ parent, good around) : {tree : Tree} → good tree →
    locate kind range parent tree = some located →
    good located.tree ∧ ∀ around ∈ located.parent, good around
  | .node label field span text children, holds, found => by
      rw [locate, Option.or_eq_some_iff] at found
      rcases found with inside | ⟨-, here⟩
      · exact good_of_locateAmong passes holds (passes _ holds) inside
      · rw [Option.ite_none_right_eq_some] at here
        rw [← Option.some.inj here.2]
        exact ⟨holds, above⟩

theorem good_of_locateAmong
    (passes : ∀ tree : Tree, good tree → ∀ child ∈ tree.children, good child) {parent : Tree}
    (above : good parent) : {trees : List Tree} → (∀ tree ∈ trees, good tree) →
    locateAmong kind range parent trees = some located →
    good located.tree ∧ ∀ around ∈ located.parent, good around
  | [], _, found => by cases found
  | tree :: trees, holds, found => by
      rw [List.forall_mem_cons] at holds
      rw [locateAmong] at found
      split at found
      · refine good_of_locate passes (fun around same => ?_) holds.1 found
        rwa [← Option.some.inj same]
      · exact good_of_locateAmong passes above holds.2 found

end

/-- A node of a tree that is searched has at most the size of the tree, and is made as it
should be. -/
structure IsPart (tree part : Tree) : Prop where
  size_le : part.size ≤ tree.size
  obeys : part.Obeys HoldsHandlers

theorem isPart_of_locate {tree : Tree} (obeys : tree.Obeys HoldsHandlers)
    (found : locate kind range none tree = some located) :
    IsPart tree located.tree ∧ ∀ around ∈ located.parent, IsPart tree around := by
  refine good_of_locate (fun part isPart child member => ?_) (by simp)
    ⟨Nat.le_refl _, obeys⟩ found
  exact ⟨Nat.le_trans (Nat.le_of_lt (size_lt_of_mem_children member)) isPart.size_le,
    isPart.obeys.of_mem member⟩

end

/-! ## Room -/

/-- There is room in a tree for what is found in it: together with the room that it leaves
to the node around it, this is no more than the nodes of the tree. -/
structure HasRoom (weigh : Facts → Nat) (room : Tree → Nat) : Prop where
  add : ∀ first second, weigh (first.add second) = weigh first + weigh second
  /-- A nested definition is not entered, and has room in its own nodes. -/
  nested : ∀ (label : Label) (tree : Tree), weigh (nestedFacts label) + room tree ≤ tree.size
  /-- A construct pays with its own node and with the room that its children leave. -/
  own : ∀ (kind : Kind) (field : Option Field) (span : Span) (text : String)
    (children : List Tree), (node (.construct kind) field span text children).Obeys HoldsHandlers →
    weigh (ownFacts kind children) + room (node (.construct kind) field span text children) ≤
      1 + (children.map room).sum

namespace HasRoom

variable {weigh : Facts → Nat} {room : Tree → Nat}

theorem zero (has : HasRoom weigh room) : weigh .zero = 0 := by
  have twice := has.add .zero .zero
  rw [Facts.add_zero] at twice
  omega

mutual

/-- There is room in a tree for its facts. -/
theorem factsOf (has : HasRoom weigh room) : (tree : Tree) → tree.Obeys HoldsHandlers →
    weigh (factsOf tree) + room tree ≤ tree.size
  | .node label field span text children, obeys => by
      have idle : ∀ tree, weigh .zero + room tree ≤ tree.size := has.nested (.literal "")
      unfold Feature.factsOf
      split
      case h_2 | h_3 => exact has.nested _ _
      case h_4 =>
          cases children.find? fun child => child.field == some .definition with
          | none => exact idle _
          | some definition => exact has.nested _ _
      case h_7 kind _ _ _ _ _ =>
          have own := has.own kind field span text children obeys
          have below := has.factsOfAll children (obeys_node_iff.1 obeys).2
          rw [has.add, size]
          omega
      all_goals exact idle _

/-- There is room in a run of trees for their facts. -/
theorem factsOfAll (has : HasRoom weigh room) : (trees : List Tree) →
    (∀ tree ∈ trees, tree.Obeys HoldsHandlers) →
    weigh (factsOfAll trees) + (trees.map room).sum ≤ sizeAll trees
  | [], _ => by
      rw [Feature.factsOfAll, has.zero]
      exact Nat.le_refl 0
  | tree :: trees, obey => by
      rw [List.forall_mem_cons] at obey
      have own := has.factsOf tree obey.1
      have rest := has.factsOfAll trees obey.2
      rw [Feature.factsOfAll, has.add, sizeAll, List.map_cons, List.sum_cons]
      omega

end

/-- There is room in a body for what is found in it. -/
theorem scopeFacts (has : HasRoom weigh room) {body : Tree} (obeys : body.Obeys HoldsHandlers) :
    weigh (scopeFacts body) ≤ sizeAll body.children := by
  have sublist := sublist_withoutDocstring body.children
  have found := has.factsOfAll (withoutDocstring body.children) fun tree member =>
    obeys.of_mem (sublist.subset member)
  exact Nat.le_trans (Nat.le_trans (Nat.le_add_right _ _) found) (sizeAll_le_of_sublist sublist)

theorem headFacts (has : HasRoom weigh room) {definition : Tree}
    (obeys : definition.Obeys HoldsHandlers) (role : Field) :
    weigh (headFacts definition role) ≤ definition.sizeAt role := by
  rw [Feature.headFacts]
  cases found : definition.childWith? role with
  | none => exact Nat.le_trans (Nat.le_of_eq has.zero) (Nat.zero_le _)
  | some part =>
      obtain ⟨same, member, -⟩ := sizeAt_of_some found
      have inside := has.factsOfAll part.children fun tree => (obeys.of_mem member).of_mem
      rw [same, size_eq]
      exact Nat.le_trans (Nat.le_trans (Nat.le_add_right _ _) inside) (Nat.le_add_left _ _)

theorem bodyFacts (has : HasRoom weigh room) {definition : Tree}
    (obeys : definition.Obeys HoldsHandlers) :
    weigh (bodyFacts definition) ≤ definition.sizeAt .body := by
  rw [Feature.bodyFacts]
  cases found : definition.childWith? .body with
  | none => exact Nat.le_trans (Nat.le_of_eq has.zero) (Nat.zero_le _)
  | some body =>
      obtain ⟨same, member, -⟩ := sizeAt_of_some found
      have inside := has.scopeFacts (obeys.of_mem member)
      rw [same, size_eq]
      exact Nat.le_trans inside (Nat.le_add_left _ _)

/-- What is found for a node is no more than the nodes of the tree. -/
theorem measure (has : HasRoom weigh room) {tree : Tree} (obeys : tree.Obeys HoldsHandlers)
    (node : Node) : weigh (measure tree node).2 ≤ tree.size := by
  have nothing : weigh .zero ≤ tree.size := Nat.le_trans (Nat.le_of_eq has.zero) (Nat.zero_le _)
  have within {kind : Kind} {role : Field} {located : Located} (outside : role ≠ .body)
      (found : locate kind node.span none tree = some located) :
      weigh ((Feature.headFacts located.tree role).add (Feature.bodyFacts located.tree)) ≤
        tree.size := by
    obtain ⟨⟨smaller, inner⟩, -⟩ := isPart_of_locate obeys found
    -- The head and the body are different children, and have room beside each other.
    have head := has.headFacts inner role
    have body := has.bodyFacts inner
    have beside := @sizeAt_add_sizeAt_le located.tree _ _ outside
    rw [has.add]
    rw [size_eq] at smaller
    omega
  rw [Feature.measure]
  split
  · rw [size_eq]
    exact Nat.le_trans (has.scopeFacts obeys) (Nat.le_add_left _ _)
  · split
    · exact within (by decide) ‹_›
    · exact nothing
  · split
    · exact within (by decide) ‹_›
    · exact nothing

end HasRoom

/-! ## Constructs -/

/-- How many constructs were counted. -/
def Facts.total (facts : Facts) : Nat :=
  facts.controlFlow + facts.returns + facts.yields + facts.handlers + facts.lambdas +
    facts.comprehensions + facts.starred + facts.slices + facts.nestedClasses +
    facts.nestedFunctions + facts.strings + facts.numbers + facts.booleans + facts.nones +
    facts.assertions + facts.scopeDeclarations

theorem total_ownFacts_le (kind : Kind) (children : List Tree) :
    (ownFacts kind children).total ≤ 1 := by
  cases kind <;> first | exact Nat.le_refl 1 | exact Nat.zero_le 1

theorem total_nestedFacts_le (label : Label) : (nestedFacts label).total ≤ 1 := by
  unfold nestedFacts
  split <;> decide

/-- Every construct is counted for its own node. -/
theorem hasRoom_total : HasRoom Facts.total fun _ => 0 where
  add first second := by
    simp only [Facts.total, Facts.add]
    omega
  nested label tree := Nat.le_trans (total_nestedFacts_le label) (one_le_size tree)
  own kind field span text children _ :=
    Nat.le_trans (total_ownFacts_le kind children) (Nat.le_add_right _ _)

/-! ## Names in tallies -/

/-- How often a tally has a name. -/
def Tally.numberOf (tally : Tally) (name : String) : Nat :=
  (tally.get? name).getD 0

namespace Tally

theorem numberOf_empty (name : String) : numberOf SortedMap.empty name = 0 :=
  rfl

theorem numberOf_add (first second : Tally) (name : String) :
    (first.add second).numberOf name = first.numberOf name + second.numberOf name := by
  rw [numberOf, get?_add, numberOf, numberOf]
  cases first.get? name <;> cases second.get? name <;> simp

theorem numberOf_ofNames (names : List String) (name : String) :
    (ofNames names).numberOf name = names.count name := by
  rw [numberOf, get?_ofNames]
  split
  · rfl
  · exact (List.count_eq_zero_of_not_mem ‹_›).symm

theorem numberOf_ofNames_le (names : List String) (name : String) :
    (ofNames names).numberOf name ≤ names.length := by
  rw [numberOf_ofNames]
  exact List.count_le_length

end Tally

/-! ## Imports -/

/-- Whether a node names a module that is imported. -/
def namesModule (tree : Tree) : Bool :=
  tree.is .dottedName || tree.is .aliasedImport

theorem length_importedModules_le (children : List Tree) :
    (importedModules children).length ≤ (children.map fun tree => (namesModule tree).toNat).sum := by
  rw [importedModules, List.length_filterMap_eq_countP, List.countP_filter]
  induction children with
  | nil => exact Nat.le_refl 0
  | cons child children ih =>
      rw [List.countP_cons, List.map_cons, List.sum_cons, Nat.add_comm]
      refine Nat.add_le_add ?_ ih
      unfold namesModule
      cases child.is .dottedName <;> cases child.is .aliasedImport <;> grind

/-- Every import is charged to the name of a module, or to the statement. -/
theorem hasRoom_imports (name : String) :
    HasRoom (fun facts => facts.imports.numberOf name) fun tree => (namesModule tree).toNat where
  add first second := Tally.numberOf_add first.imports second.imports name
  nested label tree := by
    have none : (nestedFacts label).imports = SortedMap.empty := by
      unfold nestedFacts
      split <;> rfl
    rw [none, Tally.numberOf_empty, Nat.zero_add]
    exact Nat.le_trans (Bool.toNat_le _) (one_le_size tree)
  own kind field span text children _ := by
    have below := Bool.toNat_le (namesModule (node (.construct kind) field span text children))
    cases kind with
    | importStatement =>
        have named := Nat.le_trans (Tally.numberOf_ofNames_le (importedModules children) name)
          (length_importedModules_le children)
        exact Nat.le_trans named (Nat.le_add_left _ _)
    | importFromStatement =>
        have named := Nat.le_trans (Tally.numberOf_ofNames_le (importedFrom children) name)
          Option.length_toList_le
        exact Nat.le_trans named (Nat.le_add_right _ _)
    | futureImportStatement =>
        have named := Tally.numberOf_ofNames_le ["__future__"] name
        exact Nat.le_trans named (Nat.le_add_right _ _)
    | _ =>
        exact Nat.le_trans (Nat.le_trans (Nat.le_of_eq (Nat.zero_add _)) below)
          (Nat.le_add_right _ _)

end SemanticDiff.Feature
