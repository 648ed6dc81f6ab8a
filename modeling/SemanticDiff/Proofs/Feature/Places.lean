import SemanticDiff.Proofs.Feature.Region
import SemanticDiff.Proofs.Feature.Sum

/-!
# Places of a tree

A place is a node of a tree with all nodes around it.  It belongs to the innermost
definition around it, or to the module.  Annotations, comments, decorators and
docstrings, with all that is inside them, are left out of what is counted.
-/

namespace SemanticDiff.Feature

open SemanticDiff.Source (Tree Kind Label Field Span)
open SemanticDiff.Source.Tree
open SemanticDiff.Outline (Key Node NodeKind definitionKind? definitionName)

/-! ## Places -/

/-- A node around a place, with those of its siblings that stand before it. -/
structure Ancestor where
  tree : Tree
  before : List Tree

/-- A node of a tree, with the nodes around it, the innermost first. -/
structure Place where
  tree : Tree
  around : List Ancestor

mutual

/-- All places of a tree, in source order. -/
def placesOf (around : List Ancestor) (before : List Tree) : Tree → List Place
  | .node label field span text children =>
      let tree : Tree := .node label field span text children
      ⟨tree, around⟩ :: placesOfAll (⟨tree, before⟩ :: around) [] children

/-- All places of a run of siblings. -/
def placesOfAll (around : List Ancestor) (before : List Tree) : List Tree → List Place
  | [] => []
  | tree :: trees => placesOf around before tree ++ placesOfAll around (tree :: before) trees

end

theorem placesOf_eq (around : List Ancestor) (before : List Tree) (tree : Tree) :
    placesOf around before tree =
      ⟨tree, around⟩ :: placesOfAll (⟨tree, before⟩ :: around) [] tree.children := by
  cases tree
  rw [placesOf]
  rfl

mutual

/-- All that is inside a place has the nodes around the place around it. -/
theorem suffix_of_mem_placesOf {place : Place} {around : List Ancestor} {before : List Tree} :
    {tree : Tree} → place ∈ placesOf around before tree → around <:+ place.around
  | .node label field span text children, member => by
      rw [placesOf] at member
      rcases List.mem_cons.1 member with rfl | inside
      · exact List.suffix_rfl
      · exact (List.suffix_cons _ _).trans (suffix_of_mem_placesOfAll inside)

theorem suffix_of_mem_placesOfAll {place : Place} {around : List Ancestor}
    {before : List Tree} :
    {trees : List Tree} → place ∈ placesOfAll around before trees → around <:+ place.around
  | [], member => by simp [placesOfAll] at member
  | tree :: trees, member => by
      rw [placesOfAll] at member
      rcases List.mem_append.1 member with here | later
      · exact suffix_of_mem_placesOf here
      · exact suffix_of_mem_placesOfAll later

end

mutual

/-- What holds of a tree and passes on to the children of a node holds at all places. -/
theorem forall_mem_placesOf {good : Tree → Prop}
    (passes : ∀ tree : Tree, good tree → ∀ child ∈ tree.children, good child)
    {around : List Ancestor} {before : List Tree} :
    {tree : Tree} → good tree → ∀ place ∈ placesOf around before tree, good place.tree
  | .node label field span text children, holds => by
      intro place member
      rw [placesOf] at member
      rcases List.mem_cons.1 member with rfl | inside
      · exact holds
      · exact forall_mem_placesOfAll passes (passes _ holds) place inside

theorem forall_mem_placesOfAll {good : Tree → Prop}
    (passes : ∀ tree : Tree, good tree → ∀ child ∈ tree.children, good child)
    {around : List Ancestor} {before : List Tree} :
    {trees : List Tree} → (∀ tree ∈ trees, good tree) →
    ∀ place ∈ placesOfAll around before trees, good place.tree
  | [], _ => by simp [placesOfAll]
  | tree :: trees, holds => by
      intro place member
      rw [placesOfAll] at member
      rcases List.mem_append.1 member with here | later
      · exact forall_mem_placesOf passes (holds tree List.mem_cons_self) place here
      · exact forall_mem_placesOfAll passes
          (fun other otherMem => holds other (List.mem_cons_of_mem _ otherMem)) place later

end

/-! ## What is left out -/

/-- Whether the innermost of some nodes is a scope: the module, or the body of a
definition. -/
def isScope : List Ancestor → Bool
  | [] => false
  | [root] => root.tree.is .module
  | body :: definition :: _ =>
      definition.tree.label.isDefinition && body.tree.field == some .body

/-- Whether a node is the docstring of the scope around it: its first statement, if
it is nothing but a string. -/
def documents (ancestor : Ancestor) (around : List Ancestor) : Bool :=
  isScope around && isDocstring ancestor.tree &&
    ancestor.before.all fun sibling => !isStatement sibling

/-- Whether one of the nodes around is an annotation, a comment, a decorator or a
docstring. -/
def isLeftOut : List Ancestor → Bool
  | [] => false
  | ancestor :: around =>
      ancestor.tree.is .type || ancestor.tree.is .comment || ancestor.tree.is .decorator ||
        documents ancestor around || isLeftOut around

theorem label_of_isDocstring {tree : Tree} (docstring : isDocstring tree = true) :
    tree.label = .construct .expressionStatement := by
  rw [isDocstring, Bool.and_eq_true] at docstring
  simpa [is] using docstring.1

theorem isStatement_of_isDocstring {tree : Tree} (docstring : isDocstring tree = true) :
    isStatement tree = true := by
  rw [isStatement, isNamed, is, label_of_isDocstring docstring]
  rfl

/-- After a statement there is no docstring. -/
theorem documents_of_mem_before {ancestor : Ancestor} {around : List Ancestor} {sibling : Tree}
    (member : sibling ∈ ancestor.before) (statement : isStatement sibling = true) :
    documents ancestor around = false := by
  have earlier : (ancestor.before.all fun sibling => !isStatement sibling) = false := by
    rw [List.all_eq_false]
    exact ⟨sibling, member, by simp [statement]⟩
  rw [documents, earlier, Bool.and_false]

theorem isLeftOut_of_suffix {inner around : List Ancestor} (suffix : around <:+ inner)
    (left : isLeftOut around = true) : isLeftOut inner = true := by
  obtain ⟨between, rfl⟩ := suffix
  induction between with
  | nil => exact left
  | cons ancestor between ih =>
      rw [List.cons_append, isLeftOut, ih, Bool.or_true]

/-! ## Owners -/

/-- The key of the innermost definition among some nodes, or that of the module. -/
def ownerOf : List Ancestor → Key
  | [] => .module
  | ancestor :: around => keyWithin (ownerOf around) ancestor.tree.label ancestor.tree.children

/-- The innermost definition among some nodes. -/
def holder? : List Ancestor → Option Tree
  | [] => none
  | ancestor :: around =>
      if ancestor.tree.label.isDefinition then some ancestor.tree else holder? around

/-- The node of an outline is that of a definition with the key. -/
structure Names (site : Site) (key : Key) (definition : Tree) : Prop where
  key : site.node.key = key
  kind : definitionKind? definition.label = some site.node.kind
  span : site.node.span = definition.span

mutual

/-- A place belongs to what is around the tree, or to a definition of the tree. -/
theorem exists_owner_of_mem_placesOf {place : Place} {around : List Ancestor}
    {before : List Tree} (parent : Option Tree) :
    {tree : Tree} → place ∈ placesOf around before tree →
    (ownerOf place.around = ownerOf around ∧ holder? place.around = holder? around) ∨
      ∃ site ∈ sitesOf parent (ownerOf around) tree, ∃ definition,
        holder? place.around = some definition ∧ Names site (ownerOf place.around) definition
  | .node label field span text children, member => by
      rw [placesOf] at member
      rcases List.mem_cons.1 member with rfl | inside
      · exact Or.inl ⟨rfl, rfl⟩
      have below := exists_owner_of_mem_placesOfAll (node label field span text children) inside
      rw [sitesOf]
      simp only [ownerOf, holder?, keyWithin, Tree.label, Tree.children] at below
      cases defines : definitionKind? label with
      | none =>
          simpa only [defines, definitionKind?_eq_none_iff.1 defines,
            Bool.false_eq_true, if_false] using below
      | some kind =>
          right
          simp only [defines, isDefinition_of_definitionKind? defines, if_true] at below ⊢
          rcases below with ⟨owner, holder⟩ | ⟨site, siteMem, held⟩
          · refine ⟨_, List.mem_cons_self, _, holder, owner.symm, defines, rfl⟩
          · exact ⟨site, List.mem_cons_of_mem _ siteMem, held⟩

theorem exists_owner_of_mem_placesOfAll {place : Place} {around : List Ancestor}
    {before : List Tree} (parent : Tree) :
    {trees : List Tree} → place ∈ placesOfAll around before trees →
    (ownerOf place.around = ownerOf around ∧ holder? place.around = holder? around) ∨
      ∃ site ∈ sitesOfAll parent (ownerOf around) trees, ∃ definition,
        holder? place.around = some definition ∧ Names site (ownerOf place.around) definition
  | [], member => by simp [placesOfAll] at member
  | tree :: trees, member => by
      rw [placesOfAll] at member
      rw [sitesOfAll]
      rcases List.mem_append.1 member with here | later
      · rcases exists_owner_of_mem_placesOf (some parent) here with same | ⟨site, siteMem, held⟩
        · exact Or.inl same
        · exact Or.inr ⟨site, List.mem_append_left _ siteMem, held⟩
      · rcases exists_owner_of_mem_placesOfAll parent later with same | ⟨site, siteMem, held⟩
        · exact Or.inl same
        · exact Or.inr ⟨site, List.mem_append_right _ siteMem, held⟩

end

end SemanticDiff.Feature
