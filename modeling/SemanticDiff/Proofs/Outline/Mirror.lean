import SemanticDiff.Proofs.Feature.Conservation
import SemanticDiff.Proofs.Outline.Paths

/-!
# Outlines mirror their trees

A text whose definitions have distinct keys has a unit, and the nodes of the unit are the
module and then one node for each definition, in source order.  A node is inside that of
the definition around its own, and siblings follow one another inside their parent.
-/

namespace SemanticDiff.Outline

open Source (Tree IsName)
open Source.Tree (PlacedBetween placed_node placedBetween_cons placedBetween_nil
  AllHeadDefinitions headsDefinitions_node allHeadDefinitions_cons allHeadDefinitions_iff)
open Feature (Place Site sitesOf sitesOfAll definitionPlaces placesIn belongsTo_iff)

/-! ## Nodes below a node -/

namespace Node

variable {node child : Node}

theorem mem_preorderAll {nodes : List Node} (member : node ∈ nodes) :
    node ∈ preorderAll nodes := by
  induction nodes with
  | nil => cases member
  | cons first nodes ih =>
      rw [preorderAll, preorder_eq]
      rcases List.mem_cons.1 member with rfl | later
      · exact List.mem_cons_self
      · exact List.mem_append_right _ (ih later)

mutual

/-- The nodes inside a node of an outline are nodes of the outline. -/
theorem mem_preorder_of_mem_children : {outline : Node} → node ∈ outline.preorder →
    child ∈ node.children → child ∈ outline.preorder
  | mk key name kind span children, member, inside => by
      rw [preorder] at member ⊢
      apply List.mem_cons_of_mem
      rcases List.mem_cons.1 member with rfl | below
      · exact mem_preorderAll inside
      · exact mem_preorderAll_of_mem_children below inside

theorem mem_preorderAll_of_mem_children : {nodes : List Node} → node ∈ preorderAll nodes →
    child ∈ node.children → child ∈ preorderAll nodes
  | [], member, _ => by simp [preorderAll] at member
  | first :: nodes, member, inside => by
      rw [preorderAll] at member ⊢
      rcases List.mem_append.1 member with here | later
      · exact List.mem_append_left _ (mem_preorder_of_mem_children here inside)
      · exact List.mem_append_right _ (mem_preorderAll_of_mem_children later inside)

end

end Node

/-! ## Siblings -/

/-- The outermost definitions of some trees are among their sites. -/
theorem exists_site_of_mem_definitionsOfAll {node : Node} {key : Key} {trees : List Tree}
    (member : node ∈ definitionsOfAll key trees) :
    ∃ parent, ∃ site ∈ sitesOfAll parent key trees, site.node = node := by
  cases trees with
  | nil => simp [definitionsOfAll] at member
  | cons tree trees =>
      refine ⟨tree, ?_⟩
      rw [← List.mem_map, Feature.map_node_sitesOfAll]
      exact Node.mem_preorderAll member

theorem kind_ne_module_of_mem_definitionsOfAll {node : Node} {key : Key} {trees : List Tree}
    (member : node ∈ definitionsOfAll key trees) : node.kind ≠ .module := by
  obtain ⟨_, site, siteMem, rfl⟩ := exists_site_of_mem_definitionsOfAll member
  exact Feature.kind_ne_module_of_mem_sitesOfAll siteMem

/-- The outermost definitions of some trees lie where these do, and none is empty. -/
theorem within_of_mem_definitionsOfAll {node : Node} {key : Key} {low high : Nat}
    {trees : List Tree} (placed : PlacedBetween low high trees) (heads : AllHeadDefinitions trees)
    (member : node ∈ definitionsOfAll key trees) :
    low ≤ node.span.startByte ∧ node.span.startByte < node.span.endByte ∧
      node.span.endByte ≤ high := by
  obtain ⟨_, site, siteMem, rfl⟩ := exists_site_of_mem_definitionsOfAll member
  exact Feature.within_of_mem_sitesOfAll placed heads siteMem

theorem within_of_mem_definitionsOf {node : Node} {key : Key} {tree : Tree}
    (placed : tree.Placed) (heads : tree.HeadsDefinitions)
    (member : node ∈ definitionsOf key tree) :
    tree.span.startByte ≤ node.span.startByte ∧ node.span.startByte < node.span.endByte ∧
      node.span.endByte ≤ tree.span.endByte := by
  have below := Node.mem_preorderAll member
  rw [← Feature.map_node_sitesOf none] at below
  obtain ⟨site, siteMem, rfl⟩ := List.mem_map.1 below
  exact Feature.within_of_mem_sitesOf placed heads siteMem

mutual

/-- The outermost definitions of a tree do not overlap. -/
theorem pairwise_definitionsOf (key : Key) : {tree : Tree} → tree.Placed →
    tree.HeadsDefinitions → (definitionsOf key tree).Pairwise fun first second =>
      first.span.endByte ≤ second.span.startByte
  | .node label field span text children, placed, heads => by
      rw [placed_node] at placed
      rw [definitionsOf]
      cases definitionKind? label with
      | none => exact pairwise_definitionsOfAll key placed (headsDefinitions_node.1 heads).2
      | some kind => exact List.pairwise_singleton _ _

theorem pairwise_definitionsOfAll (key : Key) {low high : Nat} : {trees : List Tree} →
    PlacedBetween low high trees → AllHeadDefinitions trees →
    (definitionsOfAll key trees).Pairwise fun first second =>
      first.span.endByte ≤ second.span.startByte
  | [], _, _ => .nil
  | tree :: trees, placed, heads => by
      rcases placedBetween_cons.1 placed with ⟨-, own, others⟩
      rw [allHeadDefinitions_cons] at heads
      rw [definitionsOfAll]
      refine List.pairwise_append.2 ⟨pairwise_definitionsOf key own heads.1,
        pairwise_definitionsOfAll key others heads.2, ?_⟩
      intro first firstMem second secondMem
      have before := within_of_mem_definitionsOf own heads.1 firstMem
      have after := within_of_mem_definitionsOfAll others heads.2 secondMem
      omega

end

mutual

/-- The outermost definitions have keys directly below that of the definition around. -/
theorem key_of_mem_definitionsOf {node : Node} {key : Key} : {tree : Tree} →
    node ∈ definitionsOf key tree → node.key = key.child node.name
  | .node label field span text children, member => by
      rw [definitionsOf] at member
      cases defines : definitionKind? label with
      | none =>
          simp only [defines] at member
          exact key_of_mem_definitionsOfAll member
      | some kind =>
          simp only [defines, List.mem_singleton] at member
          rw [member]
          rfl

theorem key_of_mem_definitionsOfAll {node : Node} {key : Key} : {trees : List Tree} →
    node ∈ definitionsOfAll key trees → node.key = key.child node.name
  | [], member => by simp [definitionsOfAll] at member
  | tree :: trees, member => by
      rw [definitionsOfAll] at member
      rcases List.mem_append.1 member with here | later
      · exact key_of_mem_definitionsOf here
      · exact key_of_mem_definitionsOfAll later

end

/-- The nodes inside a node are the outermost definitions of some trees inside its own. -/
structure Covers (node : Node) (trees : List Tree) : Prop where
  children : node.children = definitionsOfAll node.key trees
  placed : PlacedBetween node.span.startByte node.span.endByte trees
  heads : AllHeadDefinitions trees

theorem placedBetween_children {tree : Tree} (placed : tree.Placed) :
    PlacedBetween tree.span.startByte tree.span.endByte tree.children := by
  rcases tree with ⟨label, field, span, text, children⟩
  exact placed_node.1 placed

theorem allHeadDefinitions_children {tree : Tree} (heads : tree.HeadsDefinitions) :
    AllHeadDefinitions tree.children := by
  rcases tree with ⟨label, field, span, text, children⟩
  exact (headsDefinitions_node.1 heads).2

/-- The node of a site covers the children of its definition. -/
theorem covers_of_mem_sitesOf {site : Site} {parent : Option Tree} {key : Key} {tree : Tree}
    (placed : tree.Placed) (heads : tree.HeadsDefinitions)
    (member : site ∈ sitesOf parent key tree) :
    Covers site.node site.located.tree.children := by
  have passes (tree : Tree) (good : tree.Placed ∧ tree.HeadsDefinitions) :
      ∀ child ∈ tree.children, child.Placed ∧ child.HeadsDefinitions := fun child member =>
    ⟨(placedBetween_children good.1).placed child member,
      allHeadDefinitions_iff.1 (allHeadDefinitions_children good.2) child member⟩
  obtain ⟨fits, located, headed⟩ := Feature.fits_of_mem_sitesOf passes ⟨placed, heads⟩ member
  refine ⟨fits.children, ?_, allHeadDefinitions_children headed⟩
  rw [fits.span]
  exact placedBetween_children located

/-! ## Units -/

/-- A node of a unit stands for a definition: it has its name, kind and span.  It is
inside one node only, to which the definition belongs, and has a key directly below the
key of this node. -/
structure StandsFor (unit : SourceUnit) (node : Node) (place : Place) : Prop where
  name : node.name = definitionName place.tree.children
  kind : definitionKind? place.tree.label = some node.kind
  span : node.span = place.tree.span
  parent : ∃ parent ∈ unit.nodes, node.key = parent.key.child node.name ∧
    ∀ other ∈ unit.nodes, (node ∈ other.children ↔ other = parent) ∧
      (place.belongsTo other = true ↔ other = parent)

/-- The nodes of a unit are the module and one for each definition of its tree, in source
order, and they are nested as the definitions are. -/
structure Mirrors (unit : SourceUnit) : Prop where
  listed : ∃ inner, unit.nodes = unit.root :: inner ∧
    List.Forall₂ (StandsFor unit) inner (definitionPlaces unit.tree)
  closed : ∀ node ∈ unit.nodes, ∀ child ∈ node.children, child ∈ unit.nodes
  root : ∀ node ∈ unit.nodes, unit.root ∉ node.children
  ordered : ∀ node ∈ unit.nodes, node.children.Pairwise fun first second =>
    first.span.endByte ≤ second.span.startByte
  contained : ∀ node ∈ unit.nodes, ∀ child ∈ node.children,
    node.span.startByte ≤ child.span.startByte ∧ child.span.startByte < child.span.endByte ∧
      child.span.endByte ≤ node.span.endByte
  keys : (unit.nodes.map Node.key).Nodup
  module : ∀ node ∈ unit.nodes, node.key = .module ↔ node = unit.root

namespace SourceUnit.IsRead

variable {unit : SourceUnit} {node : Node}

theorem nodes_eq_cons (isRead : unit.IsRead) :
    unit.nodes = unit.root :: Node.preorderAll (definitionsOf .module unit.tree) := by
  rw [nodes_eq_preorder, isRead.outlined.1, Node.preorder]

theorem exists_covers (isRead : unit.IsRead) (member : node ∈ unit.nodes) :
    ∃ trees, Covers node trees := by
  rw [isRead.nodes_eq] at member
  obtain ⟨site, siteMem, rfl⟩ := List.mem_map.1 member
  rcases List.mem_cons.1 siteMem with rfl | below
  · refine ⟨[unit.tree], ?_, ?_, ?_⟩
    · rw [isRead.outlined.1, Node.children, Node.key, definitionsOfAll, definitionsOfAll,
        List.append_nil]
    · rw [isRead.outlined.1, Node.span]
      exact placedBetween_cons.2 ⟨Nat.le_refl _, isRead.placed, placedBetween_nil.2 (Nat.le_refl _)⟩
    · rw [allHeadDefinitions_iff, List.forall_mem_singleton]
      exact isRead.headsDefinitions
  · exact ⟨_, covers_of_mem_sitesOf isRead.placed isRead.headsDefinitions below⟩

/-- A node has a key directly below that of the node around it. -/
theorem key_of_mem_children (isRead : unit.IsRead) (member : node ∈ unit.nodes) {child : Node}
    (inside : child ∈ node.children) : child.key = node.key.child child.name := by
  obtain ⟨trees, covers⟩ := isRead.exists_covers member
  rw [covers.children] at inside
  exact key_of_mem_definitionsOfAll inside

theorem standsFor (isRead : unit.IsRead) {place : Place}
    (member : place ∈ definitionPlaces unit.tree)
    (made : MadeOf unit.nodes node place) : StandsFor unit node place := by
  have inside : place ∈ placesIn unit := (List.mem_filter.1 member).1
  obtain ⟨parent, parentMem, parentKey, isChild, key⟩ := made.inside
  have named : IsName node.name := by
    rw [made.name]
    exact isName_of_mem_path isRead.headsDefinitions member _
      (List.mem_append_right _ (List.mem_singleton_self _))
  refine ⟨made.name, made.kind, made.span, parent, parentMem, key, fun other otherMem => ⟨?_, ?_⟩⟩
  · constructor
    · intro otherChild
      have otherKey := isRead.key_of_mem_children otherMem otherChild
      have same := Key.child_injective (not_mem_point_of_isName named)
        (not_mem_point_of_isName named) (otherKey.symm.trans key)
      exact isRead.eq_of_key_eq otherMem parentMem same.1
    · rintro rfl
      exact isChild
  · rw [belongsTo_iff isRead inside otherMem, ← parentKey]
    exact ⟨isRead.eq_of_key_eq otherMem parentMem, congrArg Node.key⟩

/-- A unit that was read mirrors its tree. -/
theorem mirrors (isRead : unit.IsRead) : Mirrors unit where
  listed := by
    refine ⟨_, isRead.nodes_eq_cons, ?_⟩
    have made := forall₂_madeOf_definitionPlaces (Files.Path.dottedName unit.path) unit.tree
    rw [← isRead.outlined.1, ← nodes_eq_preorder, List.forall₂_iff_zip] at made
    rw [List.forall₂_iff_zip]
    exact ⟨made.1, fun pair => isRead.standsFor (List.of_mem_zip pair).2 (made.2 pair)⟩
  closed := by
    intro node member child inside
    rw [nodes_eq_preorder] at member ⊢
    exact Node.mem_preorder_of_mem_children member inside
  root := by
    intro node member inside
    obtain ⟨trees, covers⟩ := isRead.exists_covers member
    rw [covers.children] at inside
    exact kind_ne_module_of_mem_definitionsOfAll inside isRead.kind_root
  ordered := by
    intro node member
    obtain ⟨trees, covers⟩ := isRead.exists_covers member
    rw [covers.children]
    exact pairwise_definitionsOfAll _ covers.placed covers.heads
  contained := by
    intro node member child inside
    obtain ⟨trees, covers⟩ := isRead.exists_covers member
    rw [covers.children] at inside
    exact within_of_mem_definitionsOfAll covers.placed covers.heads inside
  keys := isRead.nodup_keys
  module := by
    intro node member
    rw [← isRead.key_root]
    exact ⟨isRead.eq_of_key_eq member isRead.root_mem_nodes, congrArg Node.key⟩

end SourceUnit.IsRead

/-- A text whose definitions have distinct keys has a unit that mirrors its tree.  The
definitions make this unit in whatever order they are found. -/
theorem exists_read_mirrors (path revision : String) {text : String} {tree : Tree}
    (parsed : Source.parse text = .ok tree)
    (distinct : ((definitionPlaces tree).map Place.key).Nodup) :
    ∃ unit, SourceUnit.read path revision text = .ok unit ∧ unit.tree = tree ∧ Mirrors unit ∧
      ∀ found, found.Perm (definitionsIn [] [] tree) → nest found = .ok unit.root.children := by
  have heads := Source.headsDefinitions_of_parse parsed
  obtain ⟨unit, made, rfl⟩ := SourceUnit.exists_read_eq_ok parsed
    ((nodup_key_iff_nodup_path heads fun _ member => member).1 distinct)
  have isRead := SourceUnit.isRead_of_read made
  refine ⟨unit, made, rfl, isRead.mirrors, fun found perm => ?_⟩
  rw [nest_eq_ok isRead.placed heads perm isRead.outlined.2, isRead.outlined.1, Node.children]

/-- A method under a condition in a decorated class, and a function of the same name. -/
theorem exists_read_mirrors_of_method : ∃ tree,
    Source.parse "@d\nclass A:\n  if 1:\n    def f(): 0\ndef f(): 0\n" = .ok tree ∧
      (definitionPlaces tree).map Place.key = [⟨"A"⟩, ⟨"A.f"⟩, ⟨"f"⟩] ∧
      ∃ unit, SourceUnit.read "m.py" "r1"
          "@d\nclass A:\n  if 1:\n    def f(): 0\ndef f(): 0\n" = .ok unit ∧
        unit.tree = tree ∧ Mirrors unit ∧
        ∀ found, found.Perm (definitionsIn [] [] tree) → nest found = .ok unit.root.children := by
  have seen : (Source.parse
      "@d\nclass A:\n  if 1:\n    def f(): 0\ndef f(): 0\n").toOption.map (fun tree =>
        (definitionPlaces tree).map Place.key) = some [⟨"A"⟩, ⟨"A.f"⟩, ⟨"f"⟩] := by
    decide +kernel
  obtain ⟨tree, parsed, keys⟩ := exists_ok_of_map_eq_some seen
  exact ⟨tree, parsed, keys, exists_read_mirrors "m.py" "r1" parsed (by rw [keys]; decide)⟩

end SemanticDiff.Outline
