import SemanticDiff.Proofs.Feature.Layout

/-!
# What a handler catches

The exceptions that a handler catches are found by taking the first construct of the
clause, of an alias and of every pair of parentheses.  Where none of these is layout, and
none of the items of a tuple, the exceptions are those of the bare form of the handler,
and all of them have a text.
-/

namespace SemanticDiff.Feature

open SemanticDiff.Source (Tree Kind Label Field Span parse isTight)
open SemanticDiff.Source.Tree

/-! ## Caught trees -/

/-- Whether a child of a handler may be what it catches. -/
def isCatchable (child : Tree) : Bool :=
  child.isNamed && !(child.is .block || child.is .comment)

/-- The expression that an alias names, and any other expression itself. -/
def aliased (expression : Tree) : Tree :=
  if expression.is .asPattern then expression.namedChildren.headD expression else expression

/-- The items of a tuple, and any other tree itself. -/
def itemsOf (tree : Tree) : List Tree :=
  if tree.is .tuple then tree.namedChildren.filter fun child => !child.is .comment else [tree]

/-- What a handler catches, if it says so. -/
def caught? (children : List Tree) : Option (List Tree) :=
  (children.find? isCatchable).map fun expression => itemsOf (unwrap (aliased expression))

theorem caughtTypes_eq (children : List Tree) :
    caughtTypes children = ((caught? children).map (List.map render)).getD [bareHandler] := by
  have first : (children.filter Tree.isNamed).find? (fun child =>
      !(child.is .block || child.is .comment)) = children.find? isCatchable := by
    rw [List.find?_filter]
    congr 1
    funext child
    rw [Bool.decide_and, Bool.decide_eq_true, Bool.decide_eq_true, isCatchable]
  rw [caughtTypes, first, caught?]
  cases children.find? isCatchable with
  | none => rfl
  | some expression =>
      rw [Option.map_some, Option.map_some, Option.getD_some, itemsOf,
        apply_ite (List.map render), aliased]
      rfl

/-- Whether what a handler catches is no layout, and tidy. -/
def catchesPlainly (children : List Tree) : Bool :=
  ((caught? children).getD []).all fun item => !item.isLayout && isTidy item

theorem plain_of_mem {children items : List Tree} (plain : catchesPlainly children = true)
    (caught : caught? children = some items) {item : Tree} (member : item ∈ items) :
    item.isLayout = false ∧ isTidy item = true := by
  rw [catchesPlainly, caught, Option.getD_some, List.all_eq_true] at plain
  have own := plain item member
  rwa [Bool.and_eq_true, Bool.not_eq_true'] at own

/-! ## Bare handlers -/

section

variable {idle : Bool} {tree : Tree} {trees : List Tree} {test : Tree → Bool}

/-- A construct that is no layout stays in a bare list. -/
theorem bareAll_cons_of_isNamed (named : tree.isNamed = true) (visible : tree.isLayout = false) :
    bareAll idle (tree :: trees) = bare tree :: bareAll idle trees := by
  have noComma : isLastComma tree trees = false := by
    rcases tree with ⟨label, field, span, text, children⟩
    cases label with
    | literal => cases named
    | construct => rfl
  rw [bareAll, visible, noComma, Bool.and_false, Bool.or_self, if_neg Bool.false_ne_true]

/-- The search for a construct finds the same one in a bare list, unless it finds
layout. -/
theorem find?_bareAll (blind : ∀ tree, test (bare tree) = test tree)
    (named : ∀ tree, test tree = true → tree.isNamed = true)
    (visible : ∀ tree, trees.find? test = some tree → tree.isLayout = false) :
    (bareAll idle trees).find? test = (trees.find? test).map bare := by
  induction trees with
  | nil => rfl
  | cons tree trees ih =>
      cases here : test tree with
      | true =>
          rw [bareAll_cons_of_isNamed (named tree here)
            (visible tree (List.find?_cons_of_pos here)), List.find?_cons_of_pos here,
            List.find?_cons_of_pos ((blind tree).trans here), Option.map_some]
      | false =>
          have absent : ¬test tree = true := by simp [here]
          rw [List.find?_cons_of_neg absent] at visible ⊢
          rw [bareAll]
          split
          · exact ih visible
          · rw [List.find?_cons_of_neg (by rwa [blind]), ih visible]

/-- The constructs of a bare list are those of the list, if there is no layout among
them. -/
theorem filter_bareAll (blind : ∀ tree, test (bare tree) = test tree)
    (named : ∀ tree, test tree = true → tree.isNamed = true)
    (visible : ∀ tree ∈ trees.filter test, tree.isLayout = false) :
    (bareAll idle trees).filter test = (trees.filter test).map bare := by
  induction trees with
  | nil => rfl
  | cons tree trees ih =>
      cases here : test tree with
      | true =>
          rw [List.filter_cons_of_pos here] at visible ⊢
          rcases List.forall_mem_cons.1 visible with ⟨own, rest⟩
          rw [bareAll_cons_of_isNamed (named tree here) own,
            List.filter_cons_of_pos ((blind tree).trans here), ih rest, List.map_cons]
      | false =>
          have absent : ¬test tree = true := by simp [here]
          rw [List.filter_cons_of_neg absent] at visible ⊢
          rw [bareAll]
          split
          · exact ih visible
          · rw [List.filter_cons_of_neg (by rwa [blind]), ih visible]

theorem children_bare (noString : tree.is .string = false) :
    (bare tree).children = bareAll (hasIdleComma tree.label tree.children) tree.children := by
  rcases tree with ⟨label, field, span, text, children⟩
  rw [bare]
  split
  · rename_i whole
    rw [isWhole, noString, Bool.or_false, List.isEmpty_iff] at whole
    simp only [Tree.children] at whole ⊢
    rw [whole, bareAll]
  · rfl

theorem is_string_eq_false {kind : Kind} (is : tree.is kind = true) (other : kind ≠ .string) :
    tree.is .string = false := by
  simp only [Tree.is, beq_iff_eq] at is
  simp [Tree.is, is, other]

theorem aliased_bare (visible : (aliased tree).isLayout = false) :
    aliased (bare tree) = bare (aliased tree) := by
  rw [aliased] at visible ⊢
  rw [aliased, is_bare]
  cases alias' : tree.is .asPattern with
  | false => rfl
  | true =>
      rw [alias', if_pos rfl, List.headD_eq_head?_getD, namedChildren, List.head?_filter] at visible
      rw [if_pos rfl, if_pos rfl, List.headD_eq_head?_getD, List.headD_eq_head?_getD,
        namedChildren, namedChildren, List.head?_filter, List.head?_filter,
        children_bare (is_string_eq_false alias' (by decide)),
        find?_bareAll isNamed_bare (fun _ => id) ?_]
      · cases tree.children.find? Tree.isNamed <;> rfl
      · intro child found
        simpa [found] using visible

theorem unwrap_eq_self (other : tree.label ≠ .construct .parenthesizedExpression) :
    unwrap tree = tree := by
  cases tree
  rw [unwrap]
  exact if_neg other

theorem unwrap_of_isLayout (layout : tree.isLayout = true) : unwrap tree = tree := by
  refine unwrap_eq_self fun parentheses => ?_
  rw [isLayout, is, is, parentheses] at layout
  cases layout

end

mutual

/-- Parentheses come off a bare tree as they come off the tree. -/
theorem unwrap_bare : (tree : Tree) → (unwrap tree).isLayout = false →
    unwrap (bare tree) = bare (unwrap tree)
  | .node label field span text children, visible => by
      rw [unwrap] at visible ⊢
      split
      · rename_i parentheses
        rw [if_pos parentheses] at visible
        subst parentheses
        rw [bare]
        split
        · rename_i whole
          rw [isWhole_node, or_iff_left (by simp)] at whole
          subst whole
          rfl
        · rename_i parts
          rw [unwrap, if_pos rfl, unwrapFirst_bareAll _ children ?_]
          · cases unwrapFirst children with
            | none => rw [Option.map_none, Option.getD_none, Option.getD_none, bare, if_neg parts]
            | some => rfl
          · intro inner found
            simpa [found] using visible
      · rename_i other
        exact unwrap_eq_self (by rwa [label_bare])

theorem unwrapFirst_bareAll (idle : Bool) : (trees : List Tree) →
    (∀ inner, unwrapFirst trees = some inner → inner.isLayout = false) →
    unwrapFirst (bareAll idle trees) = (unwrapFirst trees).map bare
  | [], _ => rfl
  | tree :: trees, visible => by
      rw [unwrapFirst] at visible ⊢
      cases named : tree.isNamed with
      | true =>
          rw [named, if_pos rfl] at visible
          have shown := visible _ rfl
          -- Parentheses do not come off layout, so what stands here is none.
          have own : tree.isLayout = false := by
            rw [← Bool.not_eq_true]
            intro layout
            rw [unwrap_of_isLayout layout, layout] at shown
            cases shown
          rw [bareAll_cons_of_isNamed named own, unwrapFirst, isNamed_bare, named, if_pos rfl,
            if_pos rfl, unwrap_bare tree shown, Option.map_some]
      | false =>
          rw [named, if_neg Bool.false_ne_true] at visible
          rw [if_neg Bool.false_ne_true, bareAll]
          split
          · exact unwrapFirst_bareAll idle trees visible
          · rw [unwrapFirst, isNamed_bare, named, if_neg Bool.false_ne_true,
              unwrapFirst_bareAll idle trees visible]

end

theorem itemsOf_bare {tree : Tree} (visible : ∀ item ∈ itemsOf tree, item.isLayout = false) :
    itemsOf (bare tree) = (itemsOf tree).map bare := by
  rw [itemsOf] at visible ⊢
  rw [itemsOf, is_bare]
  cases tuple : tree.is .tuple with
  | false => rfl
  | true =>
      rw [tuple, if_pos rfl] at visible
      rw [if_pos rfl, if_pos rfl]
      simp only [namedChildren, List.filter_filter] at visible ⊢
      rw [children_bare (is_string_eq_false tuple (by decide))]
      refine filter_bareAll (fun tree => ?_) (fun tree both => ?_) visible
      · rw [is_bare, isNamed_bare]
      · exact (Bool.and_eq_true _ _ ▸ both).2

/-- Layout is no construct of another kind. -/
theorem is_of_isLayout {tree : Tree} (layout : tree.isLayout = true) {kind : Kind}
    (noComment : kind ≠ .comment) (noContinuation : kind ≠ .lineContinuation) :
    tree.is kind = false := by
  simp only [isLayout, is, Bool.or_eq_true, beq_iff_eq] at layout
  rcases layout with label | label <;> simp [is, label, noComment.symm, noContinuation.symm]

/-- If no item of what a handler catches is layout, no step on the way to it is. -/
theorem isLayout_eq_false_of_items {expression : Tree}
    (visible : ∀ item ∈ itemsOf (unwrap (aliased expression)), item.isLayout = false) :
    expression.isLayout = false ∧ (aliased expression).isLayout = false ∧
      (unwrap (aliased expression)).isLayout = false := by
  have last : (unwrap (aliased expression)).isLayout = false := by
    by_contra layout
    rw [Bool.not_eq_false] at layout
    rw [itemsOf, is_of_isLayout layout (by decide) (by decide)] at visible
    exact Bool.false_ne_true ((visible _ (List.mem_singleton_self _)).symm.trans layout)
  have middle : (aliased expression).isLayout = false := by
    by_contra layout
    rw [Bool.not_eq_false] at layout
    exact Bool.false_ne_true ((unwrap_of_isLayout layout ▸ last).symm.trans layout)
  refine ⟨?_, middle, last⟩
  by_contra layout
  rw [Bool.not_eq_false] at layout
  rw [aliased, is_of_isLayout layout (by decide) (by decide)] at middle
  exact Bool.false_ne_true (middle.symm.trans layout)

/-- What a handler catches is the same in its bare form, if it is no layout. -/
theorem caught?_bareAll {idle : Bool} {children : List Tree}
    (plain : catchesPlainly children = true) :
    caught? (bareAll idle children) = (caught? children).map (List.map bare) := by
  have blind (tree : Tree) : isCatchable (bare tree) = isCatchable tree := by
    rw [isCatchable, isNamed_bare, is_bare, is_bare, isCatchable]
  have named (tree : Tree) (catchable : isCatchable tree = true) : tree.isNamed = true := by
    rw [isCatchable, Bool.and_eq_true] at catchable
    exact catchable.1
  have items (expression : Tree) (found : children.find? isCatchable = some expression) :
      ∀ item ∈ itemsOf (unwrap (aliased expression)), item.isLayout = false := by
    have caught : caught? children = some (itemsOf (unwrap (aliased expression))) := by
      rw [caught?, found, Option.map_some]
    exact fun item member => (plain_of_mem plain caught member).1
  rw [caught?, find?_bareAll blind named fun expression found =>
    (isLayout_eq_false_of_items (items expression found)).1, caught?]
  cases found : children.find? isCatchable with
  | none => rfl
  | some expression =>
      obtain ⟨-, aliasVisible, innerVisible⟩ := isLayout_eq_false_of_items (items expression found)
      simp only [Option.map_some, aliased_bare aliasVisible, unwrap_bare _ innerVisible,
        itemsOf_bare (items expression found)]

/-- The names of what a handler catches are read off its bare form. -/
theorem caughtTypes_eq_of_catchesPlainly {children : List Tree}
    (plain : catchesPlainly children = true) (idle : Bool) :
    caughtTypes children =
      ((caught? (bareAll idle children)).map
        (List.map fun item => setTokens (bareTokens none item))).getD [bareHandler] := by
  rw [caughtTypes_eq, caught?_bareAll plain]
  cases caught : caught? children with
  | none => rfl
  | some items =>
      rw [Option.map_some, Option.map_some, Option.map_some, Option.getD_some, Option.getD_some,
        List.map_map]
      exact List.map_congr_left fun item member =>
        render_eq_of_isTidy (plain_of_mem plain caught member).2

/-! ## Names that are not empty -/

theorem neat_of_mem_children {tree child : Tree} (neat : tree.Neat) (member : child ∈ tree.children)
    (fragment : tree.label.isFragment = true) (noString : tree.is .string = false) :
    child.Neat := by
  rcases tree with ⟨label, field, span, text, children⟩
  refine neat.inside (isLayout_of_isFragment fragment) ?_ child member
  rintro rfl
  cases noString

theorem isFragment_of_is {tree : Tree} {kind : Kind} (is : tree.is kind = true)
    (fragment : (Label.construct kind).isFragment = true) : tree.label.isFragment = true := by
  rw [Tree.is, beq_iff_eq] at is
  rwa [is]

theorem neat_aliased {tree : Tree} (neat : tree.Neat) : (aliased tree).Neat := by
  rw [aliased]
  split
  · rename_i alias'
    rw [List.headD_eq_head?_getD]
    cases head : tree.namedChildren.head? with
    | none => exact neat
    | some first =>
        have member := List.mem_of_mem_filter (List.mem_of_head? head)
        exact neat_of_mem_children neat member (isFragment_of_is alias' rfl)
          (is_string_eq_false alias' (by decide))
  · exact neat

mutual

theorem neat_unwrap : (tree : Tree) → tree.Neat → (unwrap tree).Neat
  | .node label field span text children, neat => by
      rw [unwrap]
      split
      · rename_i parentheses
        subst parentheses
        cases found : unwrapFirst children with
        | none => exact neat
        | some inner => exact neat_unwrapFirst children (neat.inside rfl (by simp)) found
      · exact neat

theorem neat_unwrapFirst {inner : Tree} : (trees : List Tree) → (∀ tree ∈ trees, tree.Neat) →
    unwrapFirst trees = some inner → inner.Neat
  | [], _, found => by cases found
  | tree :: trees, neat, found => by
      rcases List.forall_mem_cons.1 neat with ⟨own, rest⟩
      rw [unwrapFirst] at found
      split at found
      · cases found
        exact neat_unwrap tree own
      · exact neat_unwrapFirst trees rest found

end

theorem neat_of_mem_itemsOf {tree item : Tree} (neat : tree.Neat) (member : item ∈ itemsOf tree) :
    item.Neat := by
  rw [itemsOf] at member
  split at member
  · rename_i tuple
    have inside := List.mem_of_mem_filter (List.mem_of_mem_filter member)
    exact neat_of_mem_children neat inside (isFragment_of_is tuple rfl)
      (is_string_eq_false tuple (by decide))
  · rwa [List.mem_singleton.1 member]

/-- The tree stands in a text that can be parsed, as an exception handler. -/
structure IsHandler (tree : Tree) : Prop where
  parsed : IsParsed tree
  label : tree.label.isHandler = true

theorem IsHandler.noString {tree : Tree} (handler : IsHandler tree) :
    tree.is .string = false := by
  have label := handler.label
  rw [Label.isHandler, Bool.or_eq_true, beq_iff_eq, beq_iff_eq] at label
  rcases label with clause | group
  · simp [is, clause]
  · simp [is, group]

/-- What a handler catches is neat. -/
theorem IsHandler.neat {tree : Tree} (handler : IsHandler tree) {items : List Tree}
    (caught : caught? tree.children = some items) : ∀ item ∈ items, item.Neat := by
  obtain ⟨expression, found, rfl⟩ := Option.map_eq_some_iff.1 caught
  intro item member
  have before : ∀ child ∈ tree.children, child.Neat ∨ child.is .block := by
    rcases handler with ⟨parsed, label⟩
    cases parsed.kempt with
    | node _ inside => exact inside label
  have catchable := List.find?_some found
  simp only [isCatchable, Bool.and_eq_true, Bool.not_eq_true', Bool.or_eq_false_iff] at catchable
  have neat := (before expression (List.mem_of_find?_eq_some found)).resolve_right
    (by simp [catchable])
  exact neat_of_mem_itemsOf (neat_unwrap _ (neat_aliased neat)) member

/-- No exception that a handler catches has an empty name, if none is layout. -/
theorem IsHandler.empty_notMem {tree : Tree} (handler : IsHandler tree)
    (plain : catchesPlainly tree.children = true) : "" ∉ caughtTypes tree.children := by
  rw [caughtTypes_eq]
  cases caught : caught? tree.children with
  | none => decide
  | some items =>
      rw [Option.map_some, Option.getD_some, List.mem_map]
      rintro ⟨item, member, empty⟩
      have visible := (plain_of_mem plain caught member).1
      have tight := isTight_render (handler.neat caught item member) visible
      rw [empty] at tight
      cases tight

/-! ## Handlers of one bare form -/

theorem handlerTypes_ownFacts (kind : Kind) {first second : List Tree}
    (same : caughtTypes first = caughtTypes second) :
    (ownFacts kind first).handlerTypes = (ownFacts kind second).handlerTypes := by
  cases kind <;> first | rfl | rw [ownFacts, same, ownFacts]

/-- Layout does not change what a handler catches, as long as it is not taken for an
exception, and no exception has an empty name then. -/
theorem caughtTypes_eq_of_bare_eq {first second : Tree} (handler : IsHandler first)
    (plain : catchesPlainly first.children = true)
    (plain' : catchesPlainly second.children = true) (same : bare first = bare second) :
    caughtTypes first.children = caughtTypes second.children ∧
      (∀ kind, (ownFacts kind first.children).handlerTypes =
        (ownFacts kind second.children).handlerTypes) ∧
      "" ∉ caughtTypes first.children := by
  have noString : second.is .string = false := by
    rw [← is_bare, ← same, is_bare, handler.noString]
  have names : caughtTypes first.children = caughtTypes second.children := by
    rw [caughtTypes_eq_of_catchesPlainly plain, ← children_bare handler.noString, same,
      children_bare noString, ← caughtTypes_eq_of_catchesPlainly plain']
  exact ⟨names, fun kind => handlerTypes_ownFacts kind names, handler.empty_notMem plain⟩

/-- A comment between two exceptions, and a line continued after them. -/
theorem caughtTypes_eq_of_commented : ∃ first second,
    firstOf? .exceptClause "try: pass\nexcept (A, B): pass\n" = some first ∧
    firstOf? .exceptClause "try: pass\nexcept (A,  # c\n  B) \\\n  : pass\n" = some second ∧
    bare first = bare second ∧ caughtTypes first.children = ["A", "B"] ∧
    caughtTypes second.children = ["A", "B"] ∧ "" ∉ caughtTypes first.children := by
  obtain ⟨first, second, foundFirst, foundSecond, facts⟩ := @exists_firstOf? _ .exceptClause
    "try: pass\nexcept (A, B): pass\n"
    "try: pass\nexcept (A,  # c\n  B) \\\n  : pass\n"
    (fun first second => (catchesPlainly first.children, catchesPlainly second.children,
      decide (bare first = bare second), caughtTypes first.children))
    (true, true, true, ["A", "B"]) (by decide +kernel)
  simp only [Prod.mk.injEq, decide_eq_true_eq] at facts
  rcases facts with ⟨plain, plain', same, names⟩
  obtain ⟨parsed, label⟩ := isParsed_of_firstOf? foundFirst
  obtain ⟨equal, -, named⟩ := caughtTypes_eq_of_bare_eq ⟨parsed, label ▸ rfl⟩ plain plain' same
  exact ⟨first, second, foundFirst, foundSecond, same, names, equal ▸ names, named⟩

/-- A comment at the start of parentheses is taken for the exception. -/
theorem caughtTypes_ne_of_leading_comment : ∃ first second,
    firstOf? .exceptClause "try: pass\nexcept (A): pass\n" = some first ∧
    firstOf? .exceptClause "try: pass\nexcept (  # c\n  A): pass\n" = some second ∧
    bare first = bare second ∧ caughtTypes first.children = ["A"] ∧
    caughtTypes second.children = [""] := by
  have handlers := @exists_firstOf? _ .exceptClause
    "try: pass\nexcept (A): pass\n" "try: pass\nexcept (  # c\n  A): pass\n"
    (fun first second => (decide (bare first = bare second), caughtTypes first.children,
      caughtTypes second.children))
    (true, ["A"], [""]) (by decide +kernel)
  simpa only [Prod.mk.injEq, decide_eq_true_eq] using handlers

end SemanticDiff.Feature
