import SemanticDiff.Proofs.Feature.Places
import SemanticDiff.Proofs.Outline.Units

/-!
# Paths of names

The path of a definition is made of the names of the definitions around it and its own
name.  No name has a point in it and none is the key of the module, so a key tells the
path that it was made of.  A text has no unit exactly when two of its definitions have
the same path; the first one whose path was there before is reported.
-/

namespace SemanticDiff

open Source (Tree IsName)
open Source.Tree (HeadsDefinitions AllHeadDefinitions headsDefinitions_node
  allHeadDefinitions_cons)
open Feature (Ancestor Place placesOf placesOfAll ownerOf keyWithin)

/-! ## Keys of paths -/

namespace Outline

theorem not_mem_point_of_isName {name : String} (named : IsName name) : '.' ∉ name.toList := by
  intro member
  have other : ¬ (Text.isNameStart '.' ∨ Text.isNameContinue '.') := by decide +kernel
  exact other (named.2 _ member)

namespace Key

variable {key other : Key} {name otherName : String} {first second : List String}

theorem isModule_iff : key.isModule = true ↔ key = .module := by
  rw [isModule, beq_iff_eq]
  exact ⟨congrArg Key.mk, congrArg Key.text⟩

theorem descend_concat (key : Key) (names : List String) (name : String) :
    key.descend (names ++ [name]) = (key.descend names).child name :=
  List.foldl_concat ..

theorem text_child_module (name : String) : (Key.module.child name).text = name :=
  rfl

theorem toList_text_child (notModule : key ≠ .module) (name : String) :
    (key.child name).text.toList = key.text.toList ++ '.' :: name.toList := by
  rw [child, if_neg fun top => notModule (isModule_iff.1 top)]
  simp

/-- A list is parted at the last place where a mark stands in one way only. -/
theorem append_cons_inj_of_notMem_right {α : Type} {mark : α} {before before' after after' : List α}
    (last : mark ∉ after) (last' : mark ∉ after')
    (same : before ++ mark :: after = before' ++ mark :: after') :
    before = before' ∧ after = after' := by
  rcases List.append_eq_append_iff.1 same with ⟨between, rfl, parts⟩ | ⟨between, rfl, parts⟩
  · cases between with
    | nil => exact ⟨(List.append_nil _).symm, (List.cons.inj parts).2⟩
    | cons first between =>
        obtain ⟨rfl, rfl⟩ := List.cons.inj parts
        simp at last
  · cases between with
    | nil => exact ⟨List.append_nil _, (List.cons.inj parts).2.symm⟩
    | cons first between =>
        obtain ⟨rfl, rfl⟩ := List.cons.inj parts
        simp at last'

/-- A key and a name without a point can be read off from the key below. -/
theorem child_injective (noPoint : '.' ∉ name.toList) (otherNoPoint : '.' ∉ otherName.toList)
    (same : key.child name = other.child otherName) : key = other ∧ name = otherName := by
  by_cases top : key = .module <;> by_cases otherTop : other = .module
  · subst top otherTop
    exact ⟨rfl, congrArg Key.text same⟩
  · -- The key below a definition has a point in it.
    subst top
    apply absurd (congrArg (fun key => '.' ∈ key.text.toList) same)
    simp [text_child_module, toList_text_child otherTop, noPoint]
  · subst otherTop
    apply absurd (congrArg (fun key => '.' ∈ key.text.toList) same)
    simp [text_child_module, toList_text_child top, otherNoPoint]
  · have texts := congrArg (fun key => key.text.toList) same
    simp only [toList_text_child top, toList_text_child otherTop] at texts
    obtain ⟨keys, names⟩ := append_cons_inj_of_notMem_right noPoint otherNoPoint texts
    rw [String.toList_inj] at keys names
    exact ⟨by cases key; cases other; exact congrArg Key.mk keys, names⟩

/-- A path of names does not lead back to the module. -/
theorem descend_concat_ne_module (named : ∀ name ∈ first, IsName name)
    (last : IsName name) : Key.module.descend (first ++ [name]) ≠ .module := by
  have plain : ∀ names : List String, (∀ name ∈ names, IsName name) →
      Key.module.descend names = .module ∨ (Key.module.descend names).IsPlain := by
    intro names
    induction names using List.reverseRecOn with
    | nil => exact fun _ => Or.inl rfl
    | append_singleton names name ih =>
        intro named
        rw [descend_concat]
        exact Or.inr (isPlain_child (ih fun other member => named other (by simp [member]))
          (not_mem_toList_of_isName (named name (by simp))))
  rw [descend_concat]
  intro same
  have below := isPlain_child (plain first named) (not_mem_toList_of_isName last)
  rw [same] at below
  exact not_isPlain_module below

/-- Different paths of names lead to different keys. -/
theorem descend_injective (named : ∀ name ∈ first, IsName name)
    (otherNamed : ∀ name ∈ second, IsName name)
    (same : Key.module.descend first = Key.module.descend second) : first = second := by
  induction first using List.reverseRecOn generalizing second with
  | nil =>
      rcases List.eq_nil_or_concat second with rfl | ⟨names, name, rfl⟩
      · rfl
      · rw [List.concat_eq_append] at otherNamed same
        exact absurd same.symm (descend_concat_ne_module
          (fun other member => otherNamed other (by simp [member])) (otherNamed name (by simp)))
  | append_singleton names name ih =>
      rcases List.eq_nil_or_concat second with rfl | ⟨others, other, rfl⟩
      · exact absurd same (descend_concat_ne_module
          (fun other member => named other (by simp [member])) (named name (by simp)))
      · rw [List.concat_eq_append] at otherNamed same ⊢
        rw [descend_concat, descend_concat] at same
        obtain ⟨keys, rfl⟩ := child_injective (not_mem_point_of_isName (named name (by simp)))
          (not_mem_point_of_isName (otherNamed other (by simp))) same
        rw [ih (fun other member => named other (by simp [member]))
          (fun other member => otherNamed other (by simp [member])) keys]

end Key

end Outline

/-! ## Paths of definitions -/

namespace Feature

open Outline (Key definitionName definitionKind?)

/-- The names of the definitions among some nodes, the outermost first. -/
def pathOf : List Ancestor → List String
  | [] => []
  | ancestor :: around =>
      if ancestor.tree.label.isDefinition then
        pathOf around ++ [definitionName ancestor.tree.children]
      else pathOf around

namespace Place

/-- The names of the definitions around a definition, then its own. -/
def path (place : Place) : List String :=
  pathOf place.around ++ [definitionName place.tree.children]

/-- The key that the path of a definition leads to. -/
def key (place : Place) : Key :=
  Key.module.descend place.path

end Place

/-- The definitions of a tree, in source order. -/
def definitionPlaces (tree : Tree) : List Place :=
  (placesOf [] [] tree).filter fun place => place.tree.label.isDefinition

/-- A place belongs to the key of the path of the definitions around it. -/
theorem ownerOf_eq_descend (around : List Ancestor) :
    ownerOf around = Key.module.descend (pathOf around) := by
  induction around with
  | nil => rfl
  | cons ancestor around ih =>
      rw [ownerOf, keyWithin, pathOf]
      cases defines : definitionKind? ancestor.tree.label with
      | none =>
          simp only [definitionKind?_eq_none_iff.1 defines, Bool.false_eq_true, if_false]
          exact ih
      | some kind =>
          simp only [isDefinition_of_definitionKind? defines, if_true]
          rw [Outline.Key.descend_concat, ih]

theorem Place.key_eq (place : Place) :
    place.key = (ownerOf place.around).child (definitionName place.tree.children) := by
  rw [key, path, Outline.Key.descend_concat, ownerOf_eq_descend]

end Feature

/-! ## Nodes of definitions -/

namespace Outline

open Feature (definitionPlaces pathOf)

/-- A node is that of a definition: it has its name, kind and span, and is inside a node
that has the key of what is around the definition. -/
structure MadeOf (nodes : List Node) (node : Node) (place : Place) : Prop where
  name : node.name = definitionName place.tree.children
  kind : definitionKind? place.tree.label = some node.kind
  span : node.span = place.tree.span
  inside : ∃ parent ∈ nodes, parent.key = ownerOf place.around ∧ node ∈ parent.children ∧
    node.key = parent.key.child node.name

section

variable {nodes : List Node}

mutual

/-- The nodes of an outline are made of the definitions of its tree, in source order. -/
theorem forall₂_madeOf {owner : Node} (ownerMem : owner ∈ nodes) {around : List Ancestor}
    (ownerKey : owner.key = ownerOf around) (before : List Tree) : (tree : Tree) →
    (∀ node ∈ definitionsOf owner.key tree, node ∈ owner.children) →
    (∀ node ∈ Node.preorderAll (definitionsOf owner.key tree), node ∈ nodes) →
    List.Forall₂ (MadeOf nodes) (Node.preorderAll (definitionsOf owner.key tree))
      ((placesOf around before tree).filter fun place => place.tree.label.isDefinition)
  | .node label field span text children, inside, listed => by
      rw [placesOf, List.filter_cons]
      rw [definitionsOf] at inside listed ⊢
      cases defines : definitionKind? label with
      | none =>
          simp only [defines] at inside listed
          simp only [Tree.label, Feature.definitionKind?_eq_none_iff.1 defines,
            Bool.false_eq_true, if_false]
          refine forall₂_madeOfAll ownerMem ?_ [] children inside listed
          simp only [ownerOf, keyWithin, Tree.label, defines, ownerKey]
      | some kind =>
          simp only [defines, Node.preorderAll, Node.preorder, List.append_nil,
            List.mem_cons, List.not_mem_nil, or_false, forall_eq, forall_eq_or_imp] at inside listed
          simp only [Tree.label, Feature.isDefinition_of_definitionKind? defines, if_true,
            Node.preorderAll, Node.preorder, List.append_nil]
          have ownKey : owner.key.child (definitionName children) =
              ownerOf (⟨.node label field span text children, before⟩ :: around) := by
            simp only [ownerOf, keyWithin, Tree.label, Tree.children, defines, ownerKey]
          have below := forall₂_madeOfAll listed.1 ownKey [] children (fun _ member => member)
            listed.2
          exact .cons ⟨rfl, defines, rfl, owner, ownerMem, ownerKey, inside, rfl⟩ below

theorem forall₂_madeOfAll {owner : Node} (ownerMem : owner ∈ nodes) {around : List Ancestor}
    (ownerKey : owner.key = ownerOf around) (before : List Tree) : (trees : List Tree) →
    (∀ node ∈ definitionsOfAll owner.key trees, node ∈ owner.children) →
    (∀ node ∈ Node.preorderAll (definitionsOfAll owner.key trees), node ∈ nodes) →
    List.Forall₂ (MadeOf nodes) (Node.preorderAll (definitionsOfAll owner.key trees))
      ((placesOfAll around before trees).filter fun place => place.tree.label.isDefinition)
  | [], _, _ => .nil
  | tree :: trees, inside, listed => by
      simp only [definitionsOfAll, Node.preorderAll_append, List.forall_mem_append] at inside listed
      rw [definitionsOfAll, Node.preorderAll_append, placesOfAll, List.filter_append]
      exact List.rel_append (forall₂_madeOf ownerMem ownerKey before tree inside.1 listed.1)
        (forall₂_madeOfAll ownerMem ownerKey (tree :: before) trees inside.2 listed.2)

end

end

theorem MadeOf.key {nodes : List Node} {node : Node} {place : Place}
    (made : MadeOf nodes node place) : node.key = place.key := by
  obtain ⟨parent, -, parentKey, -, key⟩ := made.inside
  rw [key, parentKey, made.name, place.key_eq]

/-- The outline of a tree is made of the definitions of the tree. -/
theorem forall₂_madeOf_definitionPlaces (name : String) (tree : Tree) :
    List.Forall₂ (MadeOf (Node.mk .module name .module tree.span
        (definitionsOf .module tree)).preorder)
      (Node.preorderAll (definitionsOf .module tree)) (definitionPlaces tree) := by
  rw [Node.preorder]
  exact forall₂_madeOf List.mem_cons_self rfl [] tree (fun _ member => member)
    fun _ member => List.mem_cons_of_mem _ member

/-- The keys and spans of an outline are those of the definitions. -/
theorem map_key_span_eq (tree : Tree) :
    (Node.preorderAll (definitionsOf .module tree)).map (fun node => (node.key, node.span)) =
      (definitionPlaces tree).map fun place => (place.key, place.tree.span) := by
  rw [← List.forall₂_eq_eq_eq, List.forall₂_map_left_iff, List.forall₂_map_right_iff]
  exact (forall₂_madeOf_definitionPlaces "" tree).imp fun _ _ made =>
    Prod.ext made.key made.span

theorem map_key_eq (tree : Tree) :
    (Node.preorderAll (definitionsOf .module tree)).map Node.key =
      (definitionPlaces tree).map Place.key := by
  have same := congrArg (List.map Prod.fst) (map_key_span_eq tree)
  simpa only [List.map_map, Function.comp_def] using same

/-- The nodes of an outline are parted as the definitions are. -/
theorem exists_node_of_split {tree : Tree} {place : Place} {before after : List Place}
    (split : definitionPlaces tree = before ++ place :: after) :
    ∃ nodesBefore node nodesAfter,
      Node.preorderAll (definitionsOf .module tree) = nodesBefore ++ node :: nodesAfter ∧
      nodesBefore.map (fun node => (node.key, node.span)) =
        before.map (fun place => (place.key, place.tree.span)) ∧
      node.key = place.key ∧ node.span = place.tree.span := by
  have nodes := map_key_span_eq tree
  rw [split, List.map_append, List.map_cons] at nodes
  obtain ⟨nodesBefore, rest, nodesSplit, sameBefore, others⟩ := List.map_eq_append_iff.1 nodes
  obtain ⟨node, nodesAfter, rfl, same, -⟩ := List.map_eq_cons_iff.1 others
  rw [Prod.mk.injEq] at same
  exact ⟨nodesBefore, node, nodesAfter, nodesSplit, sameBefore, same⟩

/-! ## Repeated paths -/

mutual

/-- The names in the path of a place are names. -/
theorem isName_of_mem_placesOf {place : Place} {around : List Ancestor} {before : List Tree}
    (named : ∀ name ∈ pathOf around, IsName name) : {tree : Tree} → tree.HeadsDefinitions →
    place ∈ placesOf around before tree →
    place.tree.HeadsDefinitions ∧ ∀ name ∈ pathOf place.around, IsName name
  | .node label field span text children, heads, member => by
      rw [placesOf] at member
      rcases List.mem_cons.1 member with rfl | inside
      · exact ⟨heads, named⟩
      · rcases headsDefinitions_node.1 heads with ⟨head, headsInside⟩
        refine isName_of_mem_placesOfAll ?_ headsInside inside
        rw [pathOf]
        by_cases defines : label.isDefinition = true
        · simp only [Tree.label, Tree.children, defines, if_true, List.mem_append,
            List.mem_singleton]
          rintro name (member | rfl)
          · exact named name member
          · exact isName_definitionName (head defines)
        · simp only [Tree.label, defines, Bool.false_eq_true, if_false]
          exact named

theorem isName_of_mem_placesOfAll {place : Place} {around : List Ancestor} {before : List Tree}
    (named : ∀ name ∈ pathOf around, IsName name) : {trees : List Tree} →
    AllHeadDefinitions trees → place ∈ placesOfAll around before trees →
    place.tree.HeadsDefinitions ∧ ∀ name ∈ pathOf place.around, IsName name
  | [], _, member => by simp [placesOfAll] at member
  | tree :: trees, heads, member => by
      rw [allHeadDefinitions_cons] at heads
      rw [placesOfAll] at member
      rcases List.mem_append.1 member with here | later
      · exact isName_of_mem_placesOf named heads.1 here
      · exact isName_of_mem_placesOfAll named heads.2 later

end

/-- The path of a definition is made of names. -/
theorem isName_of_mem_path {tree : Tree} (heads : tree.HeadsDefinitions) {place : Place}
    (member : place ∈ definitionPlaces tree) : ∀ name ∈ place.path, IsName name := by
  rw [definitionPlaces, List.mem_filter] at member
  obtain ⟨headsHere, named⟩ := isName_of_mem_placesOf (by simp [pathOf]) heads member.1
  intro name inPath
  rw [Place.path, List.mem_append, List.mem_singleton] at inPath
  rcases inPath with inPath | rfl
  · exact named name inPath
  · rcases place with ⟨⟨label, field, span, text, children⟩, around⟩
    exact isName_definitionName ((headsDefinitions_node.1 headsHere).1 member.2)

/-- The keys of definitions are distinct exactly when their paths are. -/
theorem nodup_key_iff_nodup_path {tree : Tree} (heads : tree.HeadsDefinitions) {places : List Place}
    (members : ∀ place ∈ places, place ∈ definitionPlaces tree) :
    (places.map Place.key).Nodup ↔ (places.map Place.path).Nodup := by
  have keys : places.map Place.key = (places.map Place.path).map Key.module.descend := by
    rw [List.map_map]
    rfl
  rw [keys]
  refine ⟨List.Nodup.of_map _, fun distinct => ?_⟩
  rw [List.nodup_map_iff_inj_on distinct]
  simp only [List.mem_map]
  rintro _ ⟨first, firstMem, rfl⟩ _ ⟨second, secondMem, rfl⟩ same
  exact Key.descend_injective (isName_of_mem_path heads (members first firstMem))
    (isName_of_mem_path heads (members second secondMem)) same

/-- Of some definitions one is the first whose path was there before: it repeats that of
one earlier definition. -/
structure IsFirstRepeat (places : List Place) (earlier repeated : Place) : Prop where
  split : ∃ before after, places = before ++ repeated :: after ∧
    (before.map Place.path).Nodup ∧
    before.filter (fun place => place.path = repeated.path) = [earlier]

theorem exists_isFirstRepeat {places : List Place}
    (repeated : ¬ (places.map Place.path).Nodup) :
    ∃ earlier repeated, IsFirstRepeat places earlier repeated := by
  obtain ⟨before, place, after, split, distinct, earlier, member, same⟩ :=
    exists_first_of_not_nodup repeated
  refine ⟨earlier, place, ⟨before, after, split, distinct, ?_⟩⟩
  obtain ⟨others, later, rfl⟩ := List.append_of_mem member
  rw [List.map_append, List.map_cons, List.nodup_middle, List.nodup_cons, List.mem_append,
    List.mem_map, List.mem_map, not_or] at distinct
  rw [List.filter_append, List.filter_cons_of_pos (by simpa using same),
    List.filter_eq_nil_iff.2, List.filter_eq_nil_iff.2, List.nil_append]
  · intro other otherMem otherSame
    exact distinct.1.2 ⟨other, otherMem, (of_decide_eq_true otherSame).trans same.symm⟩
  · intro other otherMem otherSame
    exact distinct.1.1 ⟨other, otherMem, (of_decide_eq_true otherSame).trans same.symm⟩

namespace SourceUnit

variable {path revision text : String} {tree : Tree}

theorem read_of_parse (parsed : Source.parse text = .ok tree) :
    read path revision text = (ofTree path tree).map fun root => ⟨path, revision, tree, root⟩ := by
  unfold read
  rw [parsed]
  rfl

/-- Definitions with distinct paths make a unit. -/
theorem exists_read_eq_ok (parsed : Source.parse text = .ok tree)
    (distinct : ((definitionPlaces tree).map Place.path).Nodup) :
    ∃ unit, read path revision text = .ok unit ∧ unit.tree = tree := by
  have heads := Source.headsDefinitions_of_parse parsed
  have keys := (nodup_key_iff_nodup_path heads fun _ member => member).2 distinct
  rw [← map_key_eq] at keys
  have nested := nest_eq_ok (Source.placed_of_parse parsed) heads (.refl _) keys
  let root := Node.mk .module (Files.Path.dottedName path) .module tree.span
    (definitionsOf .module tree)
  refine ⟨⟨path, revision, tree, root⟩, ?_, rfl⟩
  rw [read_of_parse parsed, ofTree, nested]
  rfl

/-- The first definition whose path was there before is reported. -/
theorem read_eq_duplicateKey (parsed : Source.parse text = .ok tree) {earlier repeated : Place}
    (first : IsFirstRepeat (definitionPlaces tree) earlier repeated) :
    read path revision text = .error (.duplicateKey path repeated.key
      earlier.tree.span.startLine repeated.tree.span.startLine) := by
  obtain ⟨before, after, split, distinct, same⟩ := first.split
  have heads := Source.headsDefinitions_of_parse parsed
  obtain ⟨earlierMem, samePath⟩ : earlier ∈ before ∧ earlier.path = repeated.path := by
    have kept : earlier ∈ before.filter fun place => place.path = repeated.path := by
      rw [same]
      exact List.mem_singleton_self _
    simpa using List.mem_filter.1 kept
  obtain ⟨nodesBefore, node, nodesAfter, nodesSplit, sameBefore, sameKeyHere, sameSpan⟩ :=
    exists_node_of_split split
  obtain ⟨earlierNode, nodeMem, sameEarlier⟩ : ∃ node ∈ nodesBefore,
      (node.key, node.span) = (earlier.key, earlier.tree.span) := by
    rw [← List.mem_map, sameBefore]
    exact List.mem_map_of_mem earlierMem
  rw [Prod.mk.injEq] at sameEarlier
  have keysBefore : (nodesBefore.map Node.key).Nodup := by
    have keys := congrArg (List.map Prod.fst) sameBefore
    simp only [List.map_map, Function.comp_def] at keys
    rw [keys]
    exact (nodup_key_iff_nodup_path heads fun place member => by
      rw [split]
      exact List.mem_append_left _ member).2 distinct
  have sameKey : earlierNode.key = node.key := by
    rw [sameEarlier.1, sameKeyHere, Place.key, Place.key, samePath]
  have stopped := nest_eq_repeated (Source.placed_of_parse parsed) heads (.refl _) nodesSplit
    keysBefore nodeMem sameKey
  rw [sameKeyHere, sameSpan, sameEarlier.2] at stopped
  rw [read_of_parse parsed, ofTree, stopped]
  rfl

theorem path_repeated_of_read_eq_error (parsed : Source.parse text = .ok tree) {error : UnitError}
    (failed : read path revision text = .error error) :
    ¬ ((definitionPlaces tree).map Place.path).Nodup := by
  intro distinct
  obtain ⟨unit, made, -⟩ := exists_read_eq_ok parsed distinct
  rw [made] at failed
  cases failed

/-- A text has no unit exactly when two of its definitions have the same path.  Then the
first definition whose path was there before is reported, with the one definition before
it that has the path.  Names have no point in them and are not the key of the module, and
different paths of names lead to different keys. -/
theorem duplicateKey_iff_path_repeated (path revision : String)
    (parsed : Source.parse text = .ok tree) :
    ((∃ key firstLine line,
        read path revision text = .error (.duplicateKey path key firstLine line)) ↔
      ¬ ((definitionPlaces tree).map Place.path).Nodup) ∧
    (∀ error, read path revision text = .error error →
      ∃ earlier repeated, IsFirstRepeat (definitionPlaces tree) earlier repeated ∧
        error = .duplicateKey path (Key.module.descend repeated.path)
          earlier.tree.span.startLine repeated.tree.span.startLine) ∧
    (∀ place ∈ definitionPlaces tree, ∀ name ∈ place.path, IsName name) ∧
    (∀ name, IsName name → '.' ∉ name.toList ∧ name ≠ Key.module.text) ∧
    ∀ first second : List String, (∀ name ∈ first, IsName name) →
      (∀ name ∈ second, IsName name) →
      Key.module.descend first = Key.module.descend second → first = second := by
  refine ⟨⟨?_, ?_⟩, ?_, fun place member => isName_of_mem_path
    (Source.headsDefinitions_of_parse parsed) member, ?_, fun first second named otherNamed =>
    Key.descend_injective named otherNamed⟩
  · rintro ⟨key, firstLine, line, failed⟩
    exact path_repeated_of_read_eq_error parsed failed
  · intro repeats
    obtain ⟨earlier, repeated, first⟩ := exists_isFirstRepeat repeats
    exact ⟨_, _, _, read_eq_duplicateKey parsed first⟩
  · intro error failed
    obtain ⟨earlier, repeated, first⟩ :=
      exists_isFirstRepeat (path_repeated_of_read_eq_error parsed failed)
    rw [read_eq_duplicateKey parsed first] at failed
    exact ⟨earlier, repeated, first, (Except.error.inj failed).symm⟩
  · intro name named
    refine ⟨not_mem_point_of_isName named, ?_⟩
    rintro rfl
    exact not_mem_toList_of_isName named (by decide)

/-- A function and two methods of a class have the same name: only the second method is
reported. -/
theorem duplicateKey_of_methods : ∃ tree,
    Source.parse "def f(): 0\nclass A:\n  def f(): 0\n  def f(): 0\n" = .ok tree ∧
      ¬ ((definitionPlaces tree).map Place.path).Nodup ∧
      ∃ earlier repeated, IsFirstRepeat (definitionPlaces tree) earlier repeated ∧
        UnitError.duplicateKey "m.py" ⟨"A.f"⟩ 3 4 =
          .duplicateKey "m.py" (Key.module.descend repeated.path)
            earlier.tree.span.startLine repeated.tree.span.startLine := by
  have failed : (match read "m.py" "r1" "def f(): 0\nclass A:\n  def f(): 0\n  def f(): 0\n" with
      | .ok _ => none
      | .error error => some error) = some (.duplicateKey "m.py" ⟨"A.f"⟩ 3 4) := by
    decide +kernel
  cases parsed : Source.parse "def f(): 0\nclass A:\n  def f(): 0\n  def f(): 0\n" with
  | error =>
      unfold read at failed
      rw [parsed] at failed
      cases failed
  | ok tree =>
      obtain ⟨repeats, reported, -⟩ := duplicateKey_iff_path_repeated "m.py" "r1" parsed
      cases made : read "m.py" "r1" "def f(): 0\nclass A:\n  def f(): 0\n  def f(): 0\n" with
      | ok unit =>
          rw [made] at failed
          cases failed
      | error error =>
          rw [made] at failed
          obtain rfl := Option.some.inj failed
          exact ⟨tree, rfl, repeats.1 ⟨_, _, _, made⟩, reported _ made⟩

end SourceUnit

end Outline

end SemanticDiff
