import SemanticDiff.Source.Tree

/-!
# The form of a tree

The form of a tree is what is left of it when all places are forgotten: its
constructs, their roles and their nesting, and the texts of tokens and string
literals.  Two texts that differ only in how they are laid out have trees of the
same form.
-/

namespace SemanticDiff.Source

/-- No place in particular. -/
def Span.nowhere : Span where
  startByte := 0
  endByte := 0
  startLine := 0
  endLine := 0

namespace Tree

mutual

/-- The tree without the places of its nodes. -/
def form : Tree → Tree
  | node label field _ text children => node label field .nowhere text (formAll children)

/-- Trees without the places of their nodes. -/
def formAll : List Tree → List Tree
  | [] => []
  | tree :: trees => tree.form :: formAll trees

end

theorem formAll_eq_map (trees : List Tree) : formAll trees = trees.map form := by
  induction trees with
  | nil => rfl
  | cons tree trees ih => rw [formAll, ih, List.map_cons]

theorem form_node (label : Label) (field : Option Field) (span : Span) (text : String)
    (children : List Tree) :
    (node label field span text children).form =
      node label field .nowhere text (children.map form) := by
  rw [form, formAll_eq_map]

mutual

/-- Whether two trees have one form. -/
def sameForm : Tree → Tree → Bool
  | node label field _ text children, node label' field' _ text' children' =>
      label = label' && field = field' && text = text' && sameFormAll children children'

/-- Whether two runs of trees have the same forms. -/
def sameFormAll : List Tree → List Tree → Bool
  | [], [] => true
  | tree :: trees, tree' :: trees' => tree.sameForm tree' && sameFormAll trees trees'
  | _, _ => false

end

mutual

theorem sameForm_iff : (first second : Tree) →
    (first.sameForm second = true ↔ first.form = second.form)
  | node label field span text children, node label' field' span' text' children' => by
      simp only [sameForm, form, Bool.and_eq_true, decide_eq_true_eq, node.injEq, true_and,
        sameFormAll_iff children children', and_assoc]

theorem sameFormAll_iff : (first second : List Tree) →
    (sameFormAll first second = true ↔ formAll first = formAll second)
  | [], [] => by simp [sameFormAll]
  | [], tree' :: trees' => by simp [sameFormAll, formAll]
  | tree :: trees, [] => by simp [sameFormAll, formAll]
  | tree :: trees, tree' :: trees' => by
      simp only [sameFormAll, formAll, Bool.and_eq_true, List.cons.injEq, sameForm_iff tree tree',
        sameFormAll_iff trees trees']

end

instance (first second : Tree) : Decidable (first.form = second.form) :=
  decidable_of_iff (first.sameForm second = true) (sameForm_iff first second)

@[simp]
theorem label_form (tree : Tree) : tree.form.label = tree.label := by
  cases tree
  rfl

@[simp]
theorem field_form (tree : Tree) : tree.form.field = tree.field := by
  cases tree
  rfl

@[simp]
theorem text_form (tree : Tree) : tree.form.text = tree.text := by
  cases tree
  rfl

@[simp]
theorem children_form (tree : Tree) : tree.form.children = tree.children.map form := by
  cases tree
  rw [form_node]
  rfl

@[simp]
theorem is_form (kind : Kind) (tree : Tree) : tree.form.is kind = tree.is kind := by
  rw [is, label_form, is]

@[simp]
theorem isLiteral_form (text : String) (tree : Tree) :
    tree.form.isLiteral text = tree.isLiteral text := by
  rw [isLiteral, label_form, isLiteral]

@[simp]
theorem isNamed_form (tree : Tree) : tree.form.isNamed = tree.isNamed := by
  rw [isNamed, label_form, isNamed]

theorem filter_form (test : Tree → Bool) (blind : ∀ tree, test (form tree) = test tree)
    (trees : List Tree) : (trees.map form).filter test = (trees.filter test).map form := by
  rw [List.filter_map]
  congr 2
  exact funext blind

theorem find?_form (test : Tree → Bool) (blind : ∀ tree, test (form tree) = test tree)
    (trees : List Tree) : (trees.map form).find? test = (trees.find? test).map form := by
  rw [List.find?_map]
  congr 2
  exact funext blind

theorem any_form (test : Tree → Bool) (blind : ∀ tree, test (form tree) = test tree)
    (trees : List Tree) : (trees.map form).any test = trees.any test := by
  rw [List.any_map]
  congr 1
  exact funext blind

@[simp]
theorem namedChildren_form (tree : Tree) :
    tree.form.namedChildren = tree.namedChildren.map form := by
  rw [namedChildren, children_form, filter_form _ isNamed_form, namedChildren]

@[simp]
theorem childWith?_form (role : Field) (tree : Tree) :
    tree.form.childWith? role = (tree.childWith? role).map form := by
  rw [childWith?, children_form, find?_form _ (fun tree => by rw [field_form]), childWith?]

end Tree

end SemanticDiff.Source
