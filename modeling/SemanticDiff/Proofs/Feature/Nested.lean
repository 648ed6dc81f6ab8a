import SemanticDiff.Proofs.Feature.Conservation

/-!
# Nested definitions are children

The functions and classes that are counted in a scope are the children of its node.  The
walk of a scope stops at definitions and at those behind decorators; it comes to all
blocks of the scope but to none of another one.
-/

namespace SemanticDiff.Feature

open SemanticDiff.Source (Tree Kind Label Field)
open SemanticDiff.Source.Tree
open SemanticDiff.Outline (Key Node NodeKind SourceUnit definitionKind? definitionsOf
  definitionsOfAll)

/-! ## Numbers of definitions -/

/-- The nested definitions of a kind that were found. -/
def Facts.nested (facts : Facts) : NodeKind → Nat
  | .module => 0
  | .classDef => facts.nestedClasses
  | .functionDef => facts.nestedFunctions

/-- The number of nodes of a kind. -/
def countOfKind (kind : NodeKind) (nodes : List Node) : Nat :=
  nodes.countP fun node => node.kind = kind

section

variable {kind : NodeKind}

theorem Facts.nested_zero : Facts.zero.nested kind = 0 := by
  cases kind <;> rfl

theorem Facts.nested_add (first second : Facts) :
    (first.add second).nested kind = first.nested kind + second.nested kind := by
  cases kind <;> rfl

theorem nested_ownFacts (construct : Kind) (children : List Tree) :
    (ownFacts construct children).nested kind = 0 := by
  unfold ownFacts
  split <;> cases kind <;> rfl

theorem nested_nestedFacts (label : Label) :
    (nestedFacts label).nested kind = if definitionKind? label = some kind then 1 else 0 := by
  cases defines : definitionKind? label with
  | none =>
      unfold nestedFacts
      split
      · cases defines
      · cases defines
      · exact Facts.nested_zero
  | some made =>
      rw [label_of_definitionKind? defines]
      cases made with
      | module => exact absurd rfl (definitionKind?_ne_module defines)
      | classDef | functionDef => cases kind <;> rfl

theorem countOfKind_append (first second : List Node) :
    countOfKind kind (first ++ second) = countOfKind kind first + countOfKind kind second :=
  List.countP_append

theorem countOfKind_definitionsOfAll (key : Key) (trees : List Tree) :
    countOfKind kind (definitionsOfAll key trees) =
      (trees.map fun tree => countOfKind kind (definitionsOf key tree)).sum := by
  induction trees with
  | nil => rfl
  | cons tree trees ih =>
      rw [definitionsOfAll, countOfKind_append, ih, List.map_cons, List.sum_cons]

mutual

theorem definitionsOf_eq_nil (key : Key) : {tree : Tree} → tree.holdsDefinition = false →
    definitionsOf key tree = []
  | .node label field span text children, quiet => by
      rcases holdsDefinition_node_eq_false_iff.1 quiet with ⟨other, inside⟩
      rw [definitionsOf, definitionKind?_eq_none_iff.2 other]
      exact definitionsOfAll_eq_nil key inside

theorem definitionsOfAll_eq_nil (key : Key) : {trees : List Tree} →
    (∀ tree ∈ trees, tree.holdsDefinition = false) → definitionsOfAll key trees = []
  | [], _ => rfl
  | tree :: trees, quiet => by
      rcases List.forall_mem_cons.1 quiet with ⟨own, others⟩
      rw [definitionsOfAll, definitionsOf_eq_nil key own, definitionsOfAll_eq_nil key others]
      rfl

end

/-- Where only what is in one role may hold definitions, the definitions of some trees are
those of the tree in that role. -/
theorem countOfKind_definitionsOfAll_of_role (key : Key) {trees : List Tree} {role : Field}
    {amount : Tree → Nat} (once : (trees.filterMap Tree.field).Nodup)
    (counted : ∀ tree ∈ trees, tree.field = some role →
      amount tree = countOfKind kind (definitionsOf key tree))
    (quiet : ∀ tree ∈ trees, tree.field ≠ some role → tree.holdsDefinition = false) :
    countOfKind kind (definitionsOfAll key trees) =
      ((trees.find? fun tree => tree.field == some role).map amount).getD 0 := by
  rw [countOfKind_definitionsOfAll, ← sum_of_role once]
  congr 1
  apply List.map_congr_left
  intro tree member
  split
  · next plays => exact (counted tree member plays).symm
  · next other =>
      rw [definitionsOf_eq_nil key (quiet tree member other)]
      rfl

end

theorem definitionsOf_of_is_module (key : Key) {tree : Tree} (isModule : tree.is .module = true) :
    definitionsOf key tree = definitionsOfAll key tree.children := by
  rcases tree with ⟨label, field, span, text, children⟩
  have same : label = .construct .module := by simpa [is, Tree.label] using isModule
  rw [definitionsOf, same]
  rfl

/-! ## Walks -/

/-- The tree is made as the trees of texts are, decorators included. -/
structure WellDecorated (tree : Tree) : Prop extends WellMade tree where
  decorates : tree.Decorates

section

variable {kind : NodeKind} {tree child : Tree}

theorem WellDecorated.of_mem (made : WellDecorated tree) (member : child ∈ tree.children) :
    WellDecorated child := by
  refine ⟨made.toWellMade.of_mem member, ?_⟩
  rcases tree with ⟨label, field, span, text, children⟩
  exact allObey_iff.1 (obeys_node.1 made.decorates).2 child member

/-- A definition among the parts of a node is the part itself, if other parts may not
hold definitions. -/
theorem nested_nestedFacts_eq (key : Key) (tree : Tree)
    (itself : tree.holdsDefinition = true → tree.label.isDefinition = true) :
    (nestedFacts tree.label).nested kind = countOfKind kind (definitionsOf key tree) := by
  rw [nested_nestedFacts]
  rcases tree with ⟨label, field, span, text, children⟩
  rw [Tree.label]
  cases defines : definitionKind? label with
  | some made =>
      rw [definitionsOf, defines]
      by_cases same : made = kind <;> simp [same, countOfKind, Node.kind]
  | none =>
      have other := definitionKind?_eq_none_iff.1 defines
      have quiet : (Source.Tree.node label field span text children).holdsDefinition = false := by
        rw [← Bool.not_eq_true]
        intro holds
        rw [Tree.label, other] at itself
        cases itself holds
      rw [definitionsOf_eq_nil key quiet]
      rfl

/-- The definition behind decorators is counted. -/
theorem nested_decorated (made : WellDecorated tree)
    (decorated : tree.label = .construct .decoratedDefinition) (key : Key) :
    (((tree.children.find? fun child => child.field == some .definition).map
        fun definition => nestedFacts definition.label).getD .zero).nested kind =
      countOfKind kind (definitionsOfAll key tree.children) := by
  rcases tree with ⟨label, field, span, text, children⟩
  change label = _ at decorated
  subst label
  have roles := (obeys_node.1 made.decorates).1 rfl
  have once : (children.filterMap Tree.field).Nodup := by
    rw [roles]
    exact List.nodup_singleton _
  -- Only what is behind decorators may hold a definition, and it is one.
  have alone (child : Tree) (member : child ∈ children) (holds : child.holdsDefinition = true) :
      child.label.isDefinition = true ∧ child.field = some .definition := by
    obtain ⟨rank, admits, has⟩ := (nests_node.1 made.nests).1 child member holds
    rw [Label.admits, decide_eq_true_iff] at admits
    subst rank
    exact has
  have quiet (child : Tree) (member : child ∈ children) (other : child.field ≠ some .definition) :
      child.holdsDefinition = false := by
    rw [← Bool.not_eq_true]
    exact fun holds => other (alone child member holds).2
  rw [Tree.children, countOfKind_definitionsOfAll_of_role key once
    (fun child member _ =>
      nested_nestedFacts_eq key child fun holds => (alone child member holds).1) quiet]
  cases children.find? fun child => child.field == some .definition with
  | none => exact Facts.nested_zero
  | some definition => rfl

end

mutual

/-- The definitions that are counted in a tree are its outermost ones. -/
theorem nested_factsOf {kind : NodeKind} (key : Key) : {tree : Tree} → WellDecorated tree →
    (factsOf tree).nested kind = countOfKind kind (definitionsOf key tree)
  | .node label field span text children, made => by
      have inside : (factsOfAll children).nested kind =
          countOfKind kind (definitionsOfAll key children) :=
        nested_factsOfAll key fun child member => made.of_mem member
      have none
          (quiet : (Source.Tree.node label field span text children).holdsDefinition = false) :
          Facts.zero.nested kind =
            countOfKind kind (definitionsOf key (.node label field span text children)) := by
        rw [definitionsOf_eq_nil key quiet]
        exact Facts.nested_zero
      unfold factsOf
      split
      case h_1 | h_5 | h_6 =>
          exact none (made.toWellMade.holdsDefinition_eq_false rfl rfl fun _ => rfl)
      case h_2 | h_3 =>
          exact nested_nestedFacts_eq key (.node _ field span text children) fun _ => rfl
      case h_4 => exact nested_decorated made rfl key
      case h_7 construct noFunction noClass _ _ _ =>
          have other : definitionKind? (.construct construct) = Option.none := by
            unfold definitionKind?
            split
            · next same => cases same; exact absurd rfl noFunction
            · next same => cases same; exact absurd rfl noClass
            · rfl
          rw [Facts.nested_add, nested_ownFacts, Nat.zero_add, inside, definitionsOf, other]

theorem nested_factsOfAll {kind : NodeKind} (key : Key) : {trees : List Tree} →
    (∀ tree ∈ trees, WellDecorated tree) →
    (factsOfAll trees).nested kind = countOfKind kind (definitionsOfAll key trees)
  | [], _ => Facts.nested_zero
  | tree :: trees, made => by
      rcases List.forall_mem_cons.1 made with ⟨own, others⟩
      rw [factsOfAll, definitionsOfAll, Facts.nested_add, countOfKind_append,
        nested_factsOf key own, nested_factsOfAll key others]

end

/-! ## Scopes -/

section

variable {kind : NodeKind} {tree : Tree}

/-- Where there are no definitions, none are counted. -/
theorem nested_factsOfAll_eq_zero (made : WellDecorated tree)
    (quiet : tree.holdsDefinition = false) :
    (factsOfAll tree.children).nested kind = 0 := by
  rw [nested_factsOfAll .module fun child => made.of_mem]
  rcases tree with ⟨label, field, span, text, children⟩
  rw [Tree.children, definitionsOfAll_eq_nil .module (holdsDefinition_node_eq_false_iff.1 quiet).2]
  rfl

/-- There are no definitions in the docstring of a scope. -/
theorem nested_scopeFacts (key : Key) {body : Tree}
    (made : ∀ child ∈ body.children, WellDecorated child) :
    (scopeFacts body).nested kind = countOfKind kind (definitionsOfAll key body.children) := by
  rw [scopeFacts]
  generalize body.children = trees at made
  induction trees with
  | nil => exact Facts.nested_zero
  | cons tree trees ih =>
      rcases List.forall_mem_cons.1 made with ⟨own, others⟩
      rw [withoutDocstring_cons]
      split
      · split
        · next docstring =>
            have quiet := own.toWellMade.holdsDefinition_eq_false (label_of_isDocstring docstring)
              rfl fun _ => rfl
            rw [definitionsOfAll, definitionsOf_eq_nil key quiet, List.nil_append]
            exact nested_factsOfAll key others
        · exact nested_factsOfAll key made
      · rw [factsOfAll, definitionsOfAll, Facts.nested_add, countOfKind_append, ih others,
          nested_factsOf key own]

/-- Only the body of a definition may hold definitions. -/
theorem holdsDefinition_eq_false_of_ne_body (made : WellDecorated tree)
    (defines : tree.label.isDefinition = true) {child : Tree} (member : child ∈ tree.children)
    (other : child.field ≠ some .body) : child.holdsDefinition = false := by
  rw [← Bool.not_eq_true]
  intro holds
  apply other
  rcases tree with ⟨label, field, span, text, children⟩
  obtain ⟨rank, admits, has⟩ := (nests_node.1 made.nests).1 child member holds
  rcases Source.Label.isDefinition_iff.1 defines with rfl | rfl <;>
    · rw [Source.Label.admits, decide_eq_true_iff] at admits
      subst rank
      exact has.2

theorem nested_headFacts_eq_zero (made : WellDecorated tree)
    (defines : tree.label.isDefinition = true) :
    (headFacts tree tree.label.headRole).nested kind = 0 := by
  rw [headFacts, childWith?]
  cases found : tree.children.find? fun child => child.field == some tree.label.headRole with
  | none => exact Facts.nested_zero
  | some part =>
      have member := List.mem_of_find?_eq_some found
      have role : part.field = some tree.label.headRole := by
        simpa using List.find?_some found
      have other : part.field ≠ some .body := fun body =>
        tree.label.headRole_ne_body (Option.some.inj (role.symm.trans body))
      exact nested_factsOfAll_eq_zero (made.of_mem member)
        (holdsDefinition_eq_false_of_ne_body made defines member other)

/-- The body of a definition is a block. -/
theorem label_eq_block_of_body (made : WellDecorated tree)
    (defines : tree.label.isDefinition = true) {child : Tree} (member : child ∈ tree.children)
    (role : child.field = some .body) : child.label = .construct .block := by
  rcases Source.Label.family_of_permits defines (made.permits member) with
    ⟨-, block⟩ | ⟨head, -⟩ | ⟨other, -⟩
  · exact Source.Label.eq_construct_of_family block rfl
  · exact absurd (Option.some.inj (head.symm.trans role)) tree.label.headRole_ne_body
  · exact absurd role other

/-- The definitions that are counted in the body of a definition are the outermost ones in
the definition. -/
theorem nested_bodyFacts (made : WellDecorated tree) (defines : tree.label.isDefinition = true)
    (key : Key) :
    (bodyFacts tree).nested kind = countOfKind kind (definitionsOfAll key tree.children) := by
  have counted (child : Tree) (member : child ∈ tree.children) (role : child.field = some .body) :
      (scopeFacts child).nested kind = countOfKind kind (definitionsOf key child) := by
    have block := label_eq_block_of_body made defines member role
    rw [nested_scopeFacts key fun other below => (made.of_mem member).of_mem below]
    rcases child with ⟨label, field, span, text, children⟩
    change label = _ at block
    rw [definitionsOf, block]
    rfl
  rw [countOfKind_definitionsOfAll_of_role key (made.toWellMade.nodup_roles defines) counted
    fun child => holdsDefinition_eq_false_of_ne_body made defines, bodyFacts, childWith?]
  cases tree.children.find? fun child => child.field == some .body with
  | none => exact Facts.nested_zero
  | some body => rfl

/-- The definitions that are counted in a definition are the outermost ones in it. -/
theorem nested_definition (made : WellDecorated tree) (defines : tree.label.isDefinition = true)
    (key : Key) :
    ((headFacts tree tree.label.headRole).add (bodyFacts tree)).nested kind =
      countOfKind kind (definitionsOfAll key tree.children) := by
  rw [Facts.nested_add, nested_headFacts_eq_zero made defines, Nat.zero_add,
    nested_bodyFacts made defines key]

end

/-! ## Units -/

section

variable {unit : SourceUnit} {node : Node}

theorem wellDecorated_of_isRead (isRead : unit.IsRead) : WellDecorated unit.tree := by
  refine ⟨wellMade_of_isRead isRead, ?_⟩
  rcases isRead with ⟨text, made⟩
  exact Source.decorates_of_parse (SourceUnit.read_eq_ok_iff.1 made).2.2.1

/-- What is measured about a node are its children. -/
theorem nested_measure (isRead : unit.IsRead) (member : node ∈ unit.nodes) (kind : NodeKind) :
    (measure unit.tree node).2.nested kind = countOfKind kind node.children := by
  have made := wellDecorated_of_isRead isRead
  rw [isRead.nodes_eq] at member
  obtain ⟨site, siteMem, rfl⟩ := List.mem_map.1 member
  rw [isRead.measure_eq siteMem]
  rcases List.mem_cons.1 siteMem with rfl | below
  · rw [isRead.kind_root, isRead.outlined.1, measureAt,
      nested_scopeFacts .module fun child => made.of_mem]
    rw [Node.children, definitionsOf_of_is_module .module (is_module_of_isRead isRead)]
  · obtain ⟨fits, own⟩ := fits_of_mem_sitesOf (fun _ made _ => made.of_mem) made below
    rw [measureAt_snd fits.kind, fits.children]
    exact nested_definition own (isDefinition_of_definitionKind? fits.kind) _

/-- The functions and classes that are counted for a node are the functions and classes
among its children. -/
theorem nested_eq_children {path revision text : String}
    (made : SourceUnit.read path revision text = .ok unit) (member : node ∈ unit.nodes) :
    (extract unit node).countOf .nestedFunctions =
        node.children.countP (fun child => child.kind = .functionDef) ∧
      (extract unit node).countOf .nestedClasses =
        node.children.countP fun child => child.kind = .classDef := by
  have isRead := SourceUnit.isRead_of_read made
  have functions : (extract unit node).countOf .nestedFunctions =
      (measure unit.tree node).2.nestedFunctions := countOf_extract (by simp [values])
  have classes : (extract unit node).countOf .nestedClasses =
      (measure unit.tree node).2.nestedClasses := countOf_extract (by simp [values])
  rw [functions, classes]
  exact ⟨nested_measure isRead member .functionDef, nested_measure isRead member .classDef⟩

end

/-- A function and a class under a condition in a function. -/
theorem nested_eq_children_of_conditional : ∃ unit,
    SourceUnit.read "m.py" "r1" "def g():\n  if 1:\n    @d\n    def f(): 0\n    class C: 0\n" =
        .ok unit ∧
      (unit.nodes.map fun node => ((extract unit node).countOf .nestedFunctions,
        (extract unit node).countOf .nestedClasses)) = [(1, 0), (1, 1), (0, 0), (0, 0)] ∧
      ∀ node ∈ unit.nodes,
        (extract unit node).countOf .nestedFunctions =
            node.children.countP (fun child => child.kind = .functionDef) ∧
          (extract unit node).countOf .nestedClasses =
            node.children.countP fun child => child.kind = .classDef := by
  have seen : ((SourceUnit.read "m.py" "r1"
      "def g():\n  if 1:\n    @d\n    def f(): 0\n    class C: 0\n").toOption.map fun unit =>
        unit.nodes.map fun node => ((extract unit node).countOf .nestedFunctions,
          (extract unit node).countOf .nestedClasses)) =
      some [(1, 0), (1, 1), (0, 0), (0, 0)] := by
    decide +kernel
  obtain ⟨unit, made, observed⟩ := exists_ok_of_map_eq_some seen
  exact ⟨unit, made, observed, fun node member => nested_eq_children made member⟩

end SemanticDiff.Feature
