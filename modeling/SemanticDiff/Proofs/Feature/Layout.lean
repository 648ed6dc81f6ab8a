import SemanticDiff.Proofs.Feature.Form
import SemanticDiff.Proofs.Feature.Setting

/-!
# Renderings and layout

What is left of a tree without comments, continued lines and commas that only end a list
is its bare form.  Two trees of one bare form have one text, provided that no layout stands
directly after a comma that ends its list and that tuples of several items end without a
comma.  Comments among the parameters of a function or the base classes of a class do not
change what its head says; a line that is continued there does.
-/

namespace SemanticDiff.Feature

open SemanticDiff.Source (Tree Kind Label Field Span parse)
open SemanticDiff.Source.Tree

/-! ## Bare trees -/

/-- Whether a node closes a bracket. -/
def closes (tree : Tree) : Bool :=
  tree.isLiteral ")" || tree.isLiteral "]" || tree.isLiteral "\x7d"

/-- Whether a node is a comma with nothing but layout between it and the end of its
list. -/
def isLastComma (tree : Tree) (after : List Tree) : Bool :=
  tree.isLiteral "," && (after.find? fun next => !next.isLayout).all closes

/-- Whether a comma at the end of a node only ends it.  It makes the difference in a tuple
of one item, and in the pattern of a tuple. -/
def hasIdleComma (label : Label) (children : List Tree) : Bool :=
  label != .construct .tuplePattern &&
    (label != .construct .tuple ||
      2 ≤ (children.filter fun child => child.isNamed && !child.isLayout).length)

mutual

/-- What is left of a tree without places, layout and commas that only end a list.  A
string literal is left as it is, with all that is in it. -/
def bare : Tree → Tree
  | .node label field span text children =>
      if isWhole (.node label field span text children) then .node label field .nowhere text []
      else .node label field .nowhere "" (bareAll (hasIdleComma label children) children)

/-- What is left of the children of a node. -/
def bareAll (idle : Bool) : List Tree → List Tree
  | [] => []
  | tree :: trees =>
      if tree.isLayout || (idle && isLastComma tree trees) then bareAll idle trees
      else bare tree :: bareAll idle trees

end

mutual

/-- Whether no layout in a tree stands directly after a comma that ends its list, and
no tuple of several items ends with a comma.  Besides, a token that is made of words
has a word. -/
def isTidy : Tree → Bool
  | .node label field span text children =>
      isWhole (.node label field span text children) ||
        (((kindOf? label).isSome || children.any isSeen) &&
          isTidyAll label (hasIdleComma label children) children)

/-- Whether this is so of the children of a node. -/
def isTidyAll (around : Label) (idle : Bool) : List Tree → Bool
  | [] => true
  | tree :: trees =>
      (tree.isLayout ||
        (if idle && isLastComma tree trees then
          around != .construct .tuple && trees.head?.all fun next => !next.isLayout
        else isTidy tree)) &&
      isTidyAll around idle trees

end

@[simp]
theorem label_bare (tree : Tree) : (bare tree).label = tree.label := by
  rcases tree with ⟨label, field, span, text, children⟩
  rw [bare]
  split <;> rfl

@[simp]
theorem is_bare (kind : Kind) (tree : Tree) : (bare tree).is kind = tree.is kind := by
  rw [is, label_bare, is]

@[simp]
theorem isNamed_bare (tree : Tree) : (bare tree).isNamed = tree.isNamed := by
  rw [isNamed, label_bare, isNamed]

mutual

theorem form_bare : (tree : Tree) → (bare tree).form = bare tree
  | .node label field span text children => by
      rw [bare]
      split
      · rw [form_node, List.map_nil]
      · rw [form_node, map_form_bareAll]

theorem map_form_bareAll (idle : Bool) : (trees : List Tree) →
    (bareAll idle trees).map form = bareAll idle trees
  | [] => rfl
  | tree :: trees => by
      rw [bareAll]
      split
      · exact map_form_bareAll idle trees
      · rw [List.map_cons, form_bare tree, map_form_bareAll idle trees]

end

instance (first second : Tree) : Decidable (bare first = bare second) :=
  decidable_of_iff ((bare first).form = (bare second).form) (by rw [form_bare, form_bare])

/-! ## Tokens of bare trees -/

/-- Whether a token is seen in the text: a construct without parts is not. -/
def Token.isShown (token : Token) : Bool :=
  !token.named || token.text != ""

theorem Token.set_of_isShown_eq_false {token : Token} (hidden : token.isShown = false)
    (out : List Char) : token.set out = out := by
  simp only [isShown, Bool.or_eq_false_iff, Bool.not_eq_false', bne_eq_false_iff_eq] at hidden
  rcases hidden with ⟨named, empty⟩
  simp [set, isOperator, opensSpace, isClosing, named, empty]

/-- Tokens that are not seen make no difference. -/
theorem setTokens_filter (run : List Token) :
    setTokens (run.filter Token.isShown) = setTokens run := by
  rw [setTokens, List.foldl_filter, setTokens]
  congr 4
  funext out token
  cases shown : token.isShown with
  | false => exact (Token.set_of_isShown_eq_false shown out).symm
  | true => rfl

mutual

/-- The tokens of a tree that is bare. -/
def bareTokens (parent : Option Kind) : Tree → List Token
  | .node label field span text children =>
      if (node label field span text children).isLayout then []
      else if children.isEmpty then [{ text, named := (kindOf? label).isSome, parent }]
      else bareTokensAll label children

/-- The tokens of the children of a node that is bare. -/
def bareTokensAll (around : Label) : List Tree → List Token
  | [] => []
  | tree :: trees => bareTokens (kindOf? around) tree ++ bareTokensAll around trees

end

section

variable {around : Label} {idle : Bool} {tree : Tree} {trees : List Tree}

theorem isLayout_eq_false_of_closes (closing : closes tree = true) : tree.isLayout = false := by
  rcases tree with ⟨label, field, span, text, children⟩
  simp only [closes, isLiteral, Tree.label, Bool.or_eq_true, beq_iff_eq] at closing
  rcases closing with (rfl | rfl) | rfl <;> rfl

theorem tokens_of_isLayout (parent : Option Kind) (layout : tree.isLayout = true) :
    tokens parent tree = [] := by
  rcases tree with ⟨label, field, span, text, children⟩
  rw [tokens_node, if_pos layout]

theorem isTrailingComma_of_isLayout (layout : tree.isLayout = true) (next : Option Tree) :
    isTrailingComma around tree next = false := by
  rcases tree with ⟨label, field, span, text, children⟩
  simp only [isLayout, is, Tree.label, Bool.or_eq_true, beq_iff_eq] at layout
  rcases layout with rfl | rfl <;> rfl

/-- A comma at the end of a list is left out of the tokens, if the end follows directly
and the list is no tuple. -/
theorem isTrailingComma_of_isLastComma (last : isLastComma tree trees = true)
    (direct : (trees.head?.all fun next => !next.isLayout) = true)
    (tuple : around ≠ .construct .tuple) (pattern : around ≠ .construct .tuplePattern) :
    isTrailingComma around tree trees.head? = true := by
  rw [isLastComma, Bool.and_eq_true] at last
  have next : trees.find? (fun next => !next.isLayout) = trees.head? := by
    cases trees with
    | nil => rfl
    | cons first rest =>
        exact List.find?_cons_of_pos (by simpa using direct)
  rw [next] at last
  simp only [isTrailingComma, last.1, Bool.true_and, Bool.and_eq_true, bne_iff_ne, ne_eq]
  exact ⟨⟨last.2, tuple⟩, pattern⟩

/-- A comma that is left out of the tokens ends its list. -/
theorem isLastComma_of_isTrailingComma
    (trailing : isTrailingComma around tree trees.head? = true) :
    isLastComma tree trees = true := by
  simp only [isTrailingComma, Bool.and_eq_true] at trailing
  rcases trailing with ⟨⟨⟨comma, closing⟩, -⟩, -⟩
  rw [isLastComma, comma, Bool.true_and]
  cases trees with
  | nil => rfl
  | cons first rest =>
      have visible : first.isLayout = false := isLayout_eq_false_of_closes closing
      rw [List.find?_cons_of_pos (by simpa using visible)]
      exact closing

theorem hasIdleComma_of_isTrailingComma {next : Option Tree}
    (trailing : isTrailingComma around tree next = true) (children : List Tree) :
    hasIdleComma around children = true := by
  simp only [isTrailingComma, Bool.and_eq_true] at trailing
  rw [hasIdleComma, trailing.2, trailing.1.2]
  rfl

theorem ne_tuplePattern_of_hasIdleComma {children : List Tree}
    (idle : hasIdleComma around children = true) : around ≠ .construct .tuplePattern := by
  rw [hasIdleComma, Bool.and_eq_true, bne_iff_ne] at idle
  exact idle.1

theorem bareAll_ne_nil (seen : trees.any isSeen = true) : bareAll idle trees ≠ [] := by
  induction trees with
  | nil => cases seen
  | cons tree trees ih =>
      rw [bareAll]
      split
      · rename_i dropped
        rw [List.any_cons, Bool.or_eq_true] at seen
        refine ih (seen.resolve_left fun visible => ?_)
        simp only [isSeen, Bool.and_eq_true, Bool.not_eq_true'] at visible
        simp [isLastComma, visible] at dropped
      · simp

end

mutual

/-- Up to what is not seen, the tokens of a tidy tree are those of its bare form. -/
theorem filter_tokens (parent : Option Kind) : (tree : Tree) → isTidy tree = true →
    (tokens parent tree).filter Token.isShown =
      (bareTokens parent (bare tree)).filter Token.isShown
  | .node label field span text children, tidy => by
      have alike (text' : String) (trees : List Tree) :
          (node label field .nowhere text' trees).isLayout =
            (node label field span text children).isLayout := rfl
      rw [isTidy, Bool.or_eq_true, Bool.and_eq_true] at tidy
      rw [tokens_node, bare]
      split
      · rename_i is
        split <;> rw [bareTokens, alike, if_pos is]
      · rename_i visible
        split
        · rw [bareTokens, alike, if_neg visible, List.isEmpty_nil, if_pos rfl]
        · rename_i parts
          obtain ⟨worded, inside⟩ := tidy.resolve_left parts
          rw [filter_tokensAll children children inside, bareTokens, alike, if_neg visible]
          split
          · -- Nothing is left of the node, and its own token is not seen.
            rename_i empty
            rw [List.isEmpty_iff] at empty
            have named : (kindOf? label).isSome = true :=
              ((Bool.or_eq_true _ _).mp worded).resolve_right
                fun seen => bareAll_ne_nil seen empty
            rw [empty, named]
            rfl
          · rfl

/-- Up to what is not seen, the tokens of the children of a node are those of its bare
children. -/
theorem filter_tokensAll {around : Label} (siblings : List Tree) : (trees : List Tree) →
    isTidyAll around (hasIdleComma around siblings) trees = true →
    (tokensAll around trees).filter Token.isShown =
      (bareTokensAll around (bareAll (hasIdleComma around siblings) trees)).filter Token.isShown
  | [], _ => rfl
  | tree :: trees, tidy => by
      rw [isTidyAll, Bool.and_eq_true, Bool.or_eq_true] at tidy
      rcases tidy with ⟨own, rest⟩
      have ih := filter_tokensAll siblings trees rest
      rw [tokensAll, bareAll]
      cases layout : tree.isLayout with
      | true =>
          rw [isTrailingComma_of_isLayout layout, if_neg Bool.false_ne_true,
            tokens_of_isLayout _ layout, Bool.true_or, if_pos rfl]
          exact ih
      | false =>
          rw [layout] at own
          replace own := own.resolve_left Bool.false_ne_true
          rw [Bool.false_or]
          split at own
          · -- The end follows directly, so that the comma is left out of the tokens too.
            rename_i last
            rw [if_pos last]
            rw [Bool.and_eq_true] at own last
            rw [if_pos (isTrailingComma_of_isLastComma last.2 own.2 (by simpa using own.1)
              (ne_tuplePattern_of_hasIdleComma last.1))]
            exact ih
          · rename_i stays
            have kept : ¬isTrailingComma around tree trees.head? = true := fun trailing =>
              stays (by rw [hasIdleComma_of_isTrailingComma trailing,
                isLastComma_of_isTrailingComma trailing, Bool.and_self])
            rw [if_neg stays, if_neg kept, bareTokensAll, List.filter_append, List.filter_append,
              filter_tokens (kindOf? around) tree own, ih]

end

/-- The text of a tidy tree is that of its bare form. -/
theorem render_eq_of_isTidy {tree : Tree} (tidy : isTidy tree = true) :
    render tree = setTokens (bareTokens none (bare tree)) := by
  rw [render, ← setTokens_filter, filter_tokens none tree tidy, setTokens_filter]

/-- Comments, continued lines and commas that only end a list do not change the text of
a tidy tree. -/
theorem render_eq_of_bare_eq {first second : Tree} (tidy : isTidy first = true)
    (tidy' : isTidy second = true) (same : bare first = bare second) :
    render first = render second := by
  rw [render_eq_of_isTidy tidy, same, ← render_eq_of_isTidy tidy']

/-- A call that is wrapped, with a comment and a comma at its end, is tidy and has the
text that it has on one line. -/
theorem render_eq_of_wrapped : ∃ first second, firstOf? .call "g(1, 2)\n" = some first ∧
    firstOf? .call "g(1,  # a\n  2,\n)\n" = some second ∧ isTidy first = true ∧
    isTidy second = true ∧ bare first = bare second ∧ render first = render second := by
  obtain ⟨first, second, foundFirst, foundSecond, facts⟩ := @exists_firstOf? _ .call
    "g(1, 2)\n" "g(1,  # a\n  2,\n)\n"
    (fun first second => (isTidy first, isTidy second, decide (bare first = bare second)))
    (true, true, true) (by decide +kernel)
  simp only [Prod.mk.injEq, decide_eq_true_eq] at facts
  rcases facts with ⟨tidy, tidy', same⟩
  exact ⟨first, second, foundFirst, foundSecond, tidy, tidy', same,
    render_eq_of_bare_eq tidy tidy' same⟩

/-- A comment directly after the last comma of a list brings the comma into the text,
and so does a tuple of two items. -/
theorem render_ne_of_comment_after_comma :
    (∃ first second, firstOf? .call "g(1)\n" = some first ∧
      firstOf? .call "g(1,  # a\n)\n" = some second ∧ bare first = bare second ∧
      render first = "g(1)" ∧ render second = "g(1,)") ∧
    ∃ first second, firstOf? .tuple "(1, 2)\n" = some first ∧
      firstOf? .tuple "(1, 2,)\n" = some second ∧ bare first = bare second ∧
      render first = "(1, 2)" ∧ render second = "(1, 2,)" := by
  have calls := @exists_firstOf? _ .call "g(1)\n" "g(1,  # a\n)\n"
    (fun first second => (decide (bare first = bare second), render first, render second))
    (true, "g(1)", "g(1,)") (by decide +kernel)
  have tuples := @exists_firstOf? _ .tuple "(1, 2)\n" "(1, 2,)\n"
    (fun first second => (decide (bare first = bare second), render first, render second))
    (true, "(1, 2)", "(1, 2,)") (by decide +kernel)
  simp only [Prod.mk.injEq, decide_eq_true_eq] at calls tuples
  exact ⟨calls, tuples⟩

/-! ## Comments in lists -/

/-- A node without the comments among its children. -/
def withoutComments : Tree → Tree
  | .node label field span text children =>
      .node label field span text (children.filter fun child => !child.is .comment)

/-- A definition without the comments among the items of the list in a role. -/
def clearList (role : Field) : Tree → Tree
  | .node label field span text children =>
      .node label field span text
        (children.map fun child =>
          if child.field == some role then withoutComments child else child)

/-- The text of the list in a role. -/
def listText (role : Field) (definition : Tree) : String :=
  ((definition.childWith? role).map renderItems).getD ""

section

variable {role : Field} {first second : Tree}

theorem listedItems_withoutComments (list : Tree) :
    listedItems (withoutComments list) = listedItems list := by
  rcases list with ⟨label, field, span, text, children⟩
  simp only [listedItems, withoutComments, namedChildren, Tree.children, List.filter_filter]
  refine List.filter_congr fun child _ => ?_
  cases child.is .comment <;> simp

theorem childWith?_clearList (role other : Field) (definition : Tree) :
    (clearList role definition).childWith? other =
      (definition.childWith? other).map fun child =>
        if role = other then withoutComments child else child := by
  have field_withoutComments (child : Tree) : (withoutComments child).field = child.field := by
    cases child
    rfl
  rcases definition with ⟨label, field, span, text, children⟩
  have blind : ((fun child : Tree => child.field == some other) ∘ fun child =>
      if child.field == some role then withoutComments child else child) =
      fun child => child.field == some other := by
    funext child
    rw [Function.comp_apply, apply_ite Tree.field, field_withoutComments, ite_self]
  simp only [clearList, childWith?, Tree.children]
  rw [List.find?_map, blind]
  refine Option.map_congr fun child found => ?_
  have plays : child.field = some other := by
    simpa using List.find?_some found
  by_cases same : role = other
  · simp [plays, same]
  · simp [plays, same, Ne.symm same]

@[simp]
theorem listText_clearList (role : Field) (definition : Tree) :
    listText role (clearList role definition) = listText role definition := by
  rw [listText, childWith?_clearList, Option.map_map, listText]
  congr 2
  funext list
  simp [renderItems, listedItems_withoutComments]

@[simp]
theorem listText_form (role : Field) (definition : Tree) :
    listText role definition.form = listText role definition := by
  rw [listText, childWith?_form, Option.map_map, listText]
  congr 2
  exact funext renderItems_form

/-- Comments among the items of a list do not change its text. -/
theorem listText_eq_of_clearList
    (same : (clearList role first).form = (clearList role second).form) :
    listText role first = listText role second := by
  rw [← listText_clearList role first, ← listText_form, same, listText_form, listText_clearList]

/-- Nor do they change what plays another role. -/
theorem form_childWith?_of_clearList
    (same : (clearList role first).form = (clearList role second).form) {other : Field}
    (distinct : role ≠ other) :
    (first.childWith? other).map form = (second.childWith? other).map form := by
  have found := congrArg (childWith? other) same
  simpa [childWith?_clearList, distinct] using found

theorem signature_functionHeader (definition : Tree) (parent : Option Tree) :
    (functionHeader ⟨definition, parent⟩).signature =
      "(" ++ listText .parameters definition ++ ")" ++
        ((definition.childWith? .returnType).map fun type => " -> " ++ render type).getD "" :=
  rfl

/-- Comments among the parameters of a function do not change its signature, and comments
among the base classes of a class do not change their text. -/
theorem header_eq_of_clearList (parent parent' : Option Tree) :
    ((clearList .parameters first).form = (clearList .parameters second).form →
      (functionHeader ⟨first, parent⟩).signature = (functionHeader ⟨second, parent'⟩).signature) ∧
    ((clearList .superclasses first).form = (clearList .superclasses second).form →
      (classHeader ⟨first, parent⟩).bases = (classHeader ⟨second, parent'⟩).bases) := by
  refine ⟨fun same => ?_, listText_eq_of_clearList⟩
  have distinct : Field.parameters ≠ .returnType := by decide
  have result := congrArg (Option.map fun type => " -> " ++ render type)
    (form_childWith?_of_clearList same distinct)
  simp only [Option.map_map, Function.comp_def, render_form] at result
  rw [signature_functionHeader, signature_functionHeader, listText_eq_of_clearList same, result]

end

/-- A comment between two parameters and one between two base classes. -/
theorem header_eq_of_commented :
    (∃ first second, firstOf? .functionDefinition "def f(a, b): pass\n" = some first ∧
      firstOf? .functionDefinition "def f(a,  # c\n  b): pass\n" = some second ∧
      (clearList .parameters first).form = (clearList .parameters second).form ∧
      (functionHeader ⟨first, none⟩).signature = (functionHeader ⟨second, none⟩).signature) ∧
    ∃ first second, firstOf? .classDefinition "class A(B, C): pass\n" = some first ∧
      firstOf? .classDefinition "class A(B,  # c\n  C): pass\n" = some second ∧
      (clearList .superclasses first).form = (clearList .superclasses second).form ∧
      (classHeader ⟨first, none⟩).bases = (classHeader ⟨second, none⟩).bases := by
  obtain ⟨function, function', found, found', same⟩ := @exists_firstOf? _ .functionDefinition
    "def f(a, b): pass\n" "def f(a,  # c\n  b): pass\n"
    (fun first second =>
      decide ((clearList .parameters first).form = (clearList .parameters second).form))
    true (by decide +kernel)
  obtain ⟨classDef, classDef', foundClass, foundClass', sameClass⟩ :=
    @exists_firstOf? _ .classDefinition "class A(B, C): pass\n" "class A(B,  # c\n  C): pass\n"
    (fun first second =>
      decide ((clearList .superclasses first).form = (clearList .superclasses second).form))
    true (by decide +kernel)
  rw [decide_eq_true_eq] at same sameClass
  exact ⟨⟨function, function', found, found', same, (header_eq_of_clearList none none).1 same⟩,
    classDef, classDef', foundClass, foundClass', sameClass,
    (header_eq_of_clearList none none).2 sameClass⟩

/-- A line that is continued between two parameters shows in the signature as a
parameter without a text. -/
theorem signature_ne_of_continued_line :
    ∃ first second, firstOf? .functionDefinition "def f(a, b): pass\n" = some first ∧
      firstOf? .functionDefinition "def f(a, \\\n  b): pass\n" = some second ∧
      bare first = bare second ∧
      (functionHeader ⟨first, none⟩).signature = "(a, b)" ∧
      (functionHeader ⟨second, none⟩).signature = "(a, , b)" := by
  have functions := @exists_firstOf? _ .functionDefinition
    "def f(a, b): pass\n" "def f(a, \\\n  b): pass\n"
    (fun first second => (decide (bare first = bare second),
      (functionHeader ⟨first, none⟩).signature, (functionHeader ⟨second, none⟩).signature))
    (true, "(a, b)", "(a, , b)") (by decide +kernel)
  simpa only [Prod.mk.injEq, decide_eq_true_eq] using functions

end SemanticDiff.Feature
