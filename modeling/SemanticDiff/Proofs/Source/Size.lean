import SemanticDiff.Source.Tree

/-!
# The size of a tree

The size of a tree is the number of its nodes.  Different parts of a tree have room beside
each other.
-/

namespace SemanticDiff.Source.Tree

mutual

/-- How many nodes a tree has. -/
def size : Tree → Nat
  | node _ _ _ _ children => 1 + sizeAll children

/-- How many nodes a run of trees has. -/
def sizeAll : List Tree → Nat
  | [] => 0
  | tree :: trees => tree.size + sizeAll trees

end

variable {first second tree : Tree} {trees : List Tree}

theorem size_eq (tree : Tree) : tree.size = 1 + sizeAll tree.children := by
  cases tree
  rfl

theorem one_le_size (tree : Tree) : 1 ≤ tree.size := by
  rw [size_eq]
  exact Nat.le_add_right 1 _

theorem size_le_sizeAll (member : tree ∈ trees) : tree.size ≤ sizeAll trees := by
  induction trees with
  | nil => cases member
  | cons other trees ih =>
      rw [sizeAll]
      rcases List.mem_cons.1 member with rfl | later
      · exact Nat.le_add_right _ _
      · exact Nat.le_trans (ih later) (Nat.le_add_left _ _)

/-- The children of a node are smaller than the node. -/
theorem size_lt_of_mem_children {child : Tree} (member : child ∈ tree.children) :
    child.size < tree.size := by
  have inside := size_le_sizeAll member
  rw [size_eq tree]
  omega

/-- Two trees of a run stand beside each other. -/
theorem size_add_size_le (firstMem : first ∈ trees) (secondMem : second ∈ trees)
    (different : first ≠ second) : first.size + second.size ≤ sizeAll trees := by
  induction trees with
  | nil => cases firstMem
  | cons other trees ih =>
      rw [sizeAll]
      rcases List.mem_cons.1 firstMem with rfl | firstLater
      · rcases List.mem_cons.1 secondMem with rfl | secondLater
        · exact absurd rfl different
        · exact Nat.add_le_add_left (size_le_sizeAll secondLater) _
      · rcases List.mem_cons.1 secondMem with rfl | secondLater
        · rw [Nat.add_comm]
          exact Nat.add_le_add_left (size_le_sizeAll firstLater) _
        · exact Nat.le_trans (ih firstLater secondLater) (Nat.le_add_left _ _)

theorem sizeAll_le_of_sublist {parts : List Tree} (sublist : parts.Sublist trees) :
    sizeAll parts ≤ sizeAll trees := by
  induction sublist with
  | slnil => exact Nat.le_refl 0
  | cons tree _ ih => exact Nat.le_trans ih (Nat.le_add_left _ _)
  | cons_cons tree _ ih => exact Nat.add_le_add_left ih _

/-- The size of the child that plays a role. -/
def sizeAt (tree : Tree) (role : Field) : Nat :=
  ((tree.childWith? role).map size).getD 0

theorem sizeAt_of_some {role : Field} {child : Tree} (found : tree.childWith? role = some child) :
    tree.sizeAt role = child.size ∧ child ∈ tree.children ∧ child.field = some role := by
  rw [sizeAt, found]
  exact ⟨rfl, List.mem_of_find?_eq_some found, by simpa using List.find?_some found⟩

theorem sizeAt_of_none {role : Field} (absent : tree.childWith? role = none) :
    tree.sizeAt role = 0 := by
  rw [sizeAt, absent]
  rfl

theorem sizeAt_le (tree : Tree) (role : Field) : tree.sizeAt role ≤ sizeAll tree.children := by
  cases found : tree.childWith? role with
  | none =>
      rw [sizeAt_of_none found]
      exact Nat.zero_le _
  | some child =>
      obtain ⟨same, member, -⟩ := sizeAt_of_some found
      rw [same]
      exact size_le_sizeAll member

/-- Children that play different roles have room beside each other. -/
theorem sizeAt_add_sizeAt_le {role other : Field} (different : role ≠ other) :
    tree.sizeAt role + tree.sizeAt other ≤ sizeAll tree.children := by
  cases here : tree.childWith? role with
  | none =>
      rw [sizeAt_of_none here, Nat.zero_add]
      exact sizeAt_le tree other
  | some first =>
      cases there : tree.childWith? other with
      | none =>
          rw [sizeAt_of_none there, Nat.add_zero]
          exact sizeAt_le tree role
      | some second =>
          obtain ⟨firstSize, firstMem, firstRole⟩ := sizeAt_of_some here
          obtain ⟨secondSize, secondMem, secondRole⟩ := sizeAt_of_some there
          rw [firstSize, secondSize]
          refine size_add_size_le firstMem secondMem fun same => different ?_
          rwa [same, secondRole, Option.some.injEq, eq_comm] at firstRole

theorem length_le_sizeAll (trees : List Tree) : trees.length ≤ sizeAll trees := by
  induction trees with
  | nil => exact Nat.le_refl 0
  | cons tree trees ih =>
      have own := one_le_size tree
      rw [List.length_cons, sizeAll]
      omega

/-- Some of the children of a node are fewer than its nodes. -/
theorem length_lt_size {parts : List Tree} (sublist : parts.Sublist tree.children) :
    parts.length < tree.size := by
  have fewer := Nat.le_trans sublist.length_le (length_le_sizeAll tree.children)
  rw [size_eq]
  omega

end SemanticDiff.Source.Tree
