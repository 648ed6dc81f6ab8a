import SemanticDiff.Proofs.Feature.Snapshot
import SemanticDiff.Proofs.Outline.Units

/-!
# Nodes lead back to their definitions

A node of an outline keeps the place of the definition it was made of, but not the
definition.  The search for the place climbs from the smallest node that reaches over it,
and it ends at this very definition: no other node of the tree has the same kind and the
same place.  So there is no node about which nothing is measured.
-/

namespace SemanticDiff.Outline

open SemanticDiff.Source (Tree Kind Span)
open SemanticDiff.Source.Tree
open SemanticDiff.Feature (Located Site sitesOf spans locate locateAmong construct measureAt
  extract extracted values Snapshot)

/-! ## Climbing -/

/-- Whether a node is of a kind and fills a range of bytes exactly. -/
def fills (kind : Kind) (range : Span) (tree : Tree) : Bool :=
  tree.is kind && tree.span.startByte = range.startByte && tree.span.endByte = range.endByte

mutual

/-- The nodes of a tree that are met when one climbs from the smallest node that reaches
over a range up to the tree itself. -/
def climb (range : Span) (parent : Option Tree) : Tree → List Located
  | .node label field span text children =>
      climbAmong range (.node label field span text children) children ++
        [⟨.node label field span text children, parent⟩]

/-- The climb inside the first tree of a run that reaches over the range. -/
def climbAmong (range : Span) (parent : Tree) : List Tree → List Located
  | [] => []
  | tree :: trees =>
      if spans range tree then climb range (some parent) tree else climbAmong range parent trees

end

mutual

/-- The search finds the first node of the climb that fills the range. -/
theorem locate_eq_find? (kind : Kind) (range : Span) (parent : Option Tree) : (tree : Tree) →
    locate kind range parent tree =
      (climb range parent tree).find? fun located => fills kind range located.tree
  | .node label field span text children => by
      rw [locate, climb, List.find?_append, locateAmong_eq_find? kind range _ children,
        List.find?_singleton]
      rfl

theorem locateAmong_eq_find? (kind : Kind) (range : Span) (parent : Tree) :
    (trees : List Tree) →
    locateAmong kind range parent trees =
      (climbAmong range parent trees).find? fun located => fills kind range located.tree
  | [] => rfl
  | tree :: trees => by
      rw [locateAmong, climbAmong]
      split
      · exact locate_eq_find? kind range (some parent) tree
      · exact locateAmong_eq_find? kind range parent trees

end

/-! ## Definitions at addresses -/

/-- The definitions of a tree are among those of its siblings. -/
theorem definitionsIn_subset_definitionsAmong {address : List Nat} {around : List Tree}
    {trees : List Tree} {index : Nat} {tree : Tree} (position : Nat)
    (here : trees[index]? = some tree) :
    definitionsIn ((position + index) :: address) around tree ⊆
      definitionsAmong address around position trees := by
  induction trees generalizing position index with
  | nil => cases here
  | cons first trees ih =>
      rw [definitionsAmong]
      cases index with
      | zero =>
          cases here
          exact List.subset_append_left _ _
      | succ index =>
          have later := ih (position + 1) here
          rw [Nat.add_right_comm, Nat.add_assoc] at later
          exact List.Subset.trans later (List.subset_append_right _ _)

theorem definitionsAmong_subset_definitionsIn (address : List Nat) (around : List Tree)
    (tree : Tree) :
    definitionsAmong address (tree :: around) 0 tree.children ⊆
      definitionsIn address around tree := by
  rcases tree with ⟨label, field, span, text, children⟩
  rw [definitionsIn, Tree.children]
  split
  · dsimp only
    split
    · exact List.Subset.refl _
    · exact List.subset_cons_self _ _
  · exact List.Subset.refl _

/-- What is found in the node at an address is found in the tree.  The induction is on the
address, from the node up to the root. -/
theorem exists_definitionsIn_subset {root : Tree} (heads : root.HeadsDefinitions)
    {address : List Nat} : {tree : Tree} → nodeAt? root address = some tree →
    tree.HeadsDefinitions ∧
      ∃ around, definitionsIn address around tree ⊆ definitionsIn [] [] root := by
  induction address with
  | nil =>
      rintro tree ⟨⟩
      exact ⟨heads, [], List.Subset.refl _⟩
  | cons position address ih =>
      intro tree here
      obtain ⟨parent, parentHere, child⟩ := Option.bind_eq_some_iff.1 here
      obtain ⟨parentHeads, around, subset⟩ := ih parentHere
      constructor
      · rcases parent with ⟨label, field, span, text, children⟩
        exact allHeadDefinitions_iff.1 (headsDefinitions_node.1 parentHeads).2 _
          (List.mem_of_getElem? child)
      · refine ⟨parent :: around, List.Subset.trans ?_ subset⟩
        have among : definitionsIn ((0 + position) :: address) (parent :: around) tree ⊆
            definitionsAmong address (parent :: around) 0 parent.children :=
          definitionsIn_subset_definitionsAmong 0 child
        rw [Nat.zero_add] at among
        exact List.Subset.trans among (definitionsAmong_subset_definitionsIn address around parent)

/-- Every definition that stands in a tree is found, with its address. -/
theorem exists_definition_of_nodeAt? {root tree : Tree} (heads : root.HeadsDefinitions)
    {address : List Nat} {kind : NodeKind} (here : nodeAt? root address = some tree)
    (defines : definitionKind? tree.label = some kind) :
    ∃ definition ∈ definitionsIn [] [] root,
      definition.address = address ∧ definition.span = tree.span := by
  obtain ⟨treeHeads, around, subset⟩ := exists_definitionsIn_subset heads here
  rcases tree with ⟨label, field, span, text, children⟩
  have head := (headsDefinitions_node.1 treeHeads).1
    (Feature.isDefinition_of_definitionKind? defines)
  rw [definitionsIn_node (show definitionKind? label = some kind from defines) head] at subset
  exact ⟨_, subset List.mem_cons_self, rfl, rfl⟩

/-! ## Nodes of a unit -/

/-- A node was made of a definition that was found in the tree, and the search for its
place leads to the node of the tree at the address of this definition, and to no other. -/
structure IsFoundAgain (unit : SourceUnit) (node : Node) (definition : Definition) : Prop where
  name : node.name = definition.name
  kind : node.kind = definition.kind
  span : node.span = definition.span
  /-- The search ends at the address, and the features are read off there. -/
  located : ∃ located : Located,
    nodeAt? unit.tree definition.address = some located.tree ∧
      nodeAround? unit.tree definition.address = located.parent ∧
      locate (construct node.kind) node.span none unit.tree = some located ∧
      ((climb node.span none unit.tree).find? fun met =>
        fills (construct node.kind) node.span met.tree) = some located ∧
      extract unit node = (Snapshot.zero extracted).setAll
        (values (measureAt node.kind located).1 (measureAt node.kind located).2)
  /-- No other node of the tree could be meant. -/
  alone : ∀ address tree, nodeAt? unit.tree address = some tree →
    fills (construct node.kind) node.span tree → address = definition.address

theorem definitionKind?_construct {kind : NodeKind} (other : kind ≠ .module) :
    definitionKind? (.construct (construct kind)) = some kind := by
  cases kind with
  | module => exact absurd rfl other
  | classDef => rfl
  | functionDef => rfl

namespace SourceUnit.IsRead

variable {unit : SourceUnit}

/-- Two definitions of a unit do not begin at the same byte. -/
theorem eq_of_start_eq (isRead : unit.IsRead) {first second : Definition}
    (firstMem : first ∈ definitionsIn [] [] unit.tree)
    (secondMem : second ∈ definitionsIn [] [] unit.tree)
    (same : first.span.startByte = second.span.startByte) : first = second := by
  have starts := pairwise_start_definitionsIn isRead.placed isRead.headsDefinitions
  have distinct : ((definitionsIn [] [] unit.tree).map fun definition =>
      definition.span.startByte).Nodup :=
    List.pairwise_map.2 (starts.imp Nat.ne_of_lt)
  exact List.inj_on_of_nodup_map distinct firstMem secondMem same

theorem isFoundAgain (isRead : unit.IsRead) {definition : Definition} {site : Site}
    (found : definition ∈ definitionsIn [] [] unit.tree)
    (listed : site ∈ sitesOf none .module unit.tree) (leads : LeadsTo unit.tree definition site) :
    IsFoundAgain unit site.node definition where
  name := leads.name
  kind := leads.kind
  span := leads.span
  located := by
    have search :=
      Feature.locate_of_mem_sitesOf isRead.placed isRead.headsDefinitions listed
    refine ⟨site.located, leads.tree, leads.parent, search, ?_, ?_⟩
    · rw [← locate_eq_find?]
      exact search
    · rw [Feature.extract_eq,
        Feature.measure_eq_measureAt isRead.placed isRead.headsDefinitions listed]
  alone := by
    intro address tree here filled
    simp only [fills, Tree.is, Bool.and_eq_true, beq_iff_eq, decide_eq_true_eq] at filled
    obtain ⟨⟨label, start⟩, -⟩ := filled
    have defines : definitionKind? tree.label = some site.node.kind := by
      rw [label]
      exact definitionKind?_construct (Feature.kind_ne_module_of_mem_sitesOf listed)
    obtain ⟨other, otherMem, rfl, otherSpan⟩ :=
      exists_definition_of_nodeAt? isRead.headsDefinitions here defines
    rw [isRead.eq_of_start_eq otherMem found (by rw [otherSpan, start, leads.span])]

end SourceUnit.IsRead

/-- The module of a unit is followed by one node for each definition that was found in its
tree, and each of these nodes is found again where the definition stands. -/
theorem exists_nodes_eq_cons_isFoundAgain {path revision text : String} {unit : SourceUnit}
    (made : SourceUnit.read path revision text = .ok unit) :
    ∃ inner, unit.nodes = unit.root :: inner ∧ unit.root.kind = .module ∧
      List.Forall₂ (IsFoundAgain unit) inner
        (Definition.arrange (definitionsIn [] [] unit.tree)) := by
  have isRead := SourceUnit.isRead_of_read made
  refine ⟨(sitesOf none .module unit.tree).map Site.node, ?_, isRead.kind_root, ?_⟩
  · rw [isRead.nodes_eq, SourceUnit.sites, List.map_cons]
  · rw [Definition.arrange_eq_of_perm (.refl _)
      (pairwise_start_definitionsIn isRead.placed isRead.headsDefinitions),
      List.forall₂_map_left_iff]
    have leads : List.Forall₂ (LeadsTo unit.tree) (definitionsIn [] [] unit.tree)
        (sitesOf none .module unit.tree) :=
      leadsTo_definitionsIn .module isRead.headsDefinitions rfl rfl
    have turned : List.Forall₂ (flip (LeadsTo unit.tree)) (sitesOf none .module unit.tree)
        (definitionsIn [] [] unit.tree) := leads.flip
    rw [List.forall₂_iff_zip] at turned ⊢
    exact ⟨turned.1, fun pair =>
      isRead.isFoundAgain (List.of_mem_zip pair).2 (List.of_mem_zip pair).1 (turned.2 pair)⟩

/-- A class that is the whole text, and in it a decorated method around a function. -/
theorem exists_nodes_eq_cons_isFoundAgain_nested : ∃ unit,
    SourceUnit.read "m.py" "r1" "class A:\n  @d\n  def f():\n    def g(): 0" = .ok unit ∧
      unit.nodes.map Node.key = [.module, ⟨"A"⟩, ⟨"A.f"⟩, ⟨"A.f.g"⟩] ∧
      (definitionsIn [] [] unit.tree).map Definition.address =
        [[0], [1, 0, 3, 0], [0, 4, 1, 0, 3, 0]] ∧
      ∃ inner, unit.nodes = unit.root :: inner ∧ unit.root.kind = .module ∧
        List.Forall₂ (IsFoundAgain unit) inner
          (Definition.arrange (definitionsIn [] [] unit.tree)) := by
  have seen : ((SourceUnit.read "m.py" "r1"
      "class A:\n  @d\n  def f():\n    def g(): 0").toOption.map fun unit =>
        (unit.nodes.map Node.key, (definitionsIn [] [] unit.tree).map Definition.address)) =
      some ([.module, ⟨"A"⟩, ⟨"A.f"⟩, ⟨"A.f.g"⟩],
        [[0], [1, 0, 3, 0], [0, 4, 1, 0, 3, 0]]) := by
    decide +kernel
  obtain ⟨unit, made, told⟩ := exists_ok_of_map_eq_some seen
  exact ⟨unit, made, congrArg Prod.fst told, congrArg Prod.snd told,
    exists_nodes_eq_cons_isFoundAgain made⟩

end SemanticDiff.Outline
