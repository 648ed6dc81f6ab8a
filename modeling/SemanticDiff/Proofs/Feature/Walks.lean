import Mathlib.Algebra.BigOperators.Group.List.Basic
import Mathlib.Algebra.GroupWithZero.Nat
import SemanticDiff.Proofs.Feature.Places
import SemanticDiff.Proofs.Source.Parts

/-!
# Walks over a tree

Every scope is walked by itself: the parameters or base classes of a definition, then
its body, or the statements of the module.  A walk stops at nested definitions, which
are walked by themselves, and leaves out annotations, comments, decorators and the
docstring.  All walks of a tree together count every place that is not left out once,
for the innermost definition around it.
-/

namespace SemanticDiff.Feature

open SemanticDiff.Source (Tree Kind Label Field Span)
open SemanticDiff.Source.Tree
open SemanticDiff.Outline (Key NodeKind definitionKind?)

/-! ## Counted constructs -/

/-- The features that count constructs, with what is counted. -/
def countedKinds : Feature → List Kind
  | .controlFlow =>
      [.ifStatement, .elifClause, .forStatement, .whileStatement, .tryStatement, .withStatement,
        .matchStatement]
  | .returns => [.returnStatement]
  | .yields => [.yield]
  | .exceptionHandlers => [.exceptClause, .exceptGroupClause]
  | .lambdas => [.lambda]
  | .comprehensions =>
      [.listComprehension, .dictionaryComprehension, .setComprehension, .generatorExpression]
  | .starredExpressions =>
      [.listSplat, .dictionarySplat, .listSplatPattern, .dictionarySplatPattern]
  | .slices => [.slice]
  | .stringLiterals => [.string]
  | .numericLiterals => [.integer, .float]
  | .booleanLiterals => [.true, .false]
  | .noneLiterals => [.none]
  | .assertions => [.assertStatement]
  | .scopeDeclarations => [.globalStatement, .nonlocalStatement]
  | _ => []

/-- What was found for a feature that counts constructs. -/
def Facts.number (facts : Facts) : Feature → Nat
  | .controlFlow => facts.controlFlow
  | .returns => facts.returns
  | .yields => facts.yields
  | .exceptionHandlers => facts.handlers
  | .lambdas => facts.lambdas
  | .comprehensions => facts.comprehensions
  | .starredExpressions => facts.starred
  | .slices => facts.slices
  | .stringLiterals => facts.strings
  | .numericLiterals => facts.numbers
  | .booleanLiterals => facts.booleans
  | .noneLiterals => facts.nones
  | .assertions => facts.assertions
  | .scopeDeclarations => facts.scopeDeclarations
  | _ => 0

/-- Whether a place is counted for a feature: it is a construct of one of its kinds,
and it is not left out. -/
def Place.counts (feature : Feature) (place : Place) : Bool :=
  (countedKinds feature).any place.tree.is && !isLeftOut place.around

section

variable {feature : Feature}

theorem Facts.number_zero : Facts.zero.number feature = 0 := by
  cases feature <;> rfl

theorem Facts.number_add (first second : Facts) :
    (first.add second).number feature = first.number feature + second.number feature := by
  cases feature <;> rfl

theorem number_nestedFacts (label : Label) : (nestedFacts label).number feature = 0 := by
  unfold nestedFacts
  split <;> cases feature <;> rfl

/-- By itself a construct counts for the features of its kind. -/
theorem number_ownFacts (kind : Kind) (children : List Tree) :
    (ownFacts kind children).number feature =
      if (countedKinds feature).contains kind then 1 else 0 := by
  -- The children matter for names only, such as those of caught exceptions.
  have plain : (ownFacts kind children).number = (ownFacts kind []).number := by
    cases kind <;> rfl
  have each : ∀ feature ∈ Feature.all, (ownFacts kind []).number feature =
      if (countedKinds feature).contains kind then 1 else 0 := by
    cases kind <;> decide +kernel
  rw [plain]
  exact each feature (Feature.mem_all feature)

theorem number_factsOfAll_eq_zero {trees : List Tree}
    (idle : ∀ tree ∈ trees, (factsOf tree).number feature = 0) :
    (factsOfAll trees).number feature = 0 := by
  induction trees with
  | nil => exact Facts.number_zero
  | cons tree trees ih =>
      rcases List.forall_mem_cons.1 idle with ⟨own, others⟩
      rw [factsOfAll, Facts.number_add, own, ih others]

end

/-! ## Parts without counted constructs -/

/-- The tree is made as the trees of texts are. -/
structure WellMade (tree : Tree) : Prop where
  nests : tree.Nests
  heads : tree.HeadsDefinitions
  parted : tree.Parted

section

variable {tree child : Tree}

theorem WellMade.of_mem (made : WellMade tree) (member : child ∈ tree.children) :
    WellMade child := by
  rcases tree with ⟨label, field, span, text, children⟩
  exact ⟨allNest_iff.1 (nests_node.1 made.nests).2 child member,
    allHeadDefinitions_iff.1 (headsDefinitions_node.1 made.heads).2 child member,
    (parted_node.1 made.parted).2 child member⟩

theorem WellMade.permits (made : WellMade tree) (member : child ∈ tree.children) :
    tree.label.permits child.part = true := by
  rcases tree with ⟨label, field, span, text, children⟩
  exact (parted_node.1 made.parted).1 child member

/-- A tree has no definitions if none may stand in it. -/
theorem WellMade.holdsDefinition_eq_false {label : Label} (made : WellMade tree)
    (isLabel : tree.label = label) (other : label.isDefinition = false)
    (none : ∀ rank, label.admits rank = false) : tree.holdsDefinition = false := by
  rcases tree with ⟨own, field, span, text, children⟩
  change own = label at isLabel
  subst own
  refine holdsDefinition_node_eq_false_iff.2 ⟨other, fun child member => ?_⟩
  cases holds : child.holdsDefinition with
  | false => rfl
  | true =>
      obtain ⟨rank, admits, -⟩ := (nests_node.1 made.nests).1 child member holds
      rw [none rank] at admits
      cases admits

/-- Nothing stands in a name or a line continuation. -/
theorem children_eq_nil_of_permits (made : WellMade tree)
    (nothing : ∀ part, tree.label.permits part = false) : tree.children = [] := by
  rw [List.eq_nil_iff_forall_not_mem]
  intro child member
  have permits := made.permits member
  rw [nothing] at permits
  cases permits

theorem not_decorator_of_family (other : tree.label.family ≠ .decorator) :
    tree.is .decorator = false := by
  rw [is, beq_eq_false_iff_ne]
  intro same
  rw [same] at other
  exact other rfl

/-- Only decorated definitions have decorators. -/
theorem WellMade.not_decorator (made : WellMade tree)
    (other : tree.label ≠ .construct .decoratedDefinition) (member : child ∈ tree.children) :
    child.is .decorator = false :=
  not_decorator_of_family (Label.family_ne_decorator_of_permits other (made.permits member))

end

/-- Tokens, names and annotations count for nothing. -/
theorem number_factsOf_of_leaf {feature : Feature} {tree : Tree} (made : WellMade tree)
    (family : tree.label.family ∈ [Source.Family.token, .identifier, .type]) :
    (factsOf tree).number feature = 0 := by
  rcases tree with ⟨label, field, span, text, children⟩
  have empty {kind : Kind} (nothing : ∀ part, label.permits part = false) :
      ((ownFacts kind children).add (factsOfAll children)).number feature =
        (ownFacts kind []).number feature := by
    have none : children = [] := children_eq_nil_of_permits made nothing
    rw [none, Facts.number_add, factsOfAll, Facts.number_zero, Nat.add_zero]
  change label.family ∈ _ at family
  unfold Label.family at family
  split at family
  case h_1 | h_2 | h_5 => exact Facts.number_zero
  case h_3 => exact (@empty .lineContinuation fun _ => rfl).trans Facts.number_zero
  case h_4 => exact (@empty .identifier fun _ => rfl).trans Facts.number_zero
  all_goals simp at family

/-- Parameters, base classes and type parameters count for what is inside them. -/
theorem factsOf_of_list {tree : Tree}
    (family : tree.label.family ∈ [Source.Family.parameters, .arguments, .typeParameters]) :
    factsOf tree = factsOfAll tree.children := by
  rcases tree with ⟨label, field, span, text, children⟩
  change label.family ∈ _ at family
  have known : label = .construct .parameters ∨ label = .construct .argumentList ∨
      label = .construct .typeParameter := by
    simp only [List.mem_cons, List.not_mem_nil, or_false] at family
    rcases family with same | same | same
    · exact Or.inl (Label.eq_construct_of_family same rfl)
    · exact Or.inr (Or.inl (Label.eq_construct_of_family same rfl))
    · exact Or.inr (Or.inr (Label.eq_construct_of_family same rfl))
  rcases known with rfl | rfl | rfl <;> exact Facts.zero_add _

/-- Type parameters count for nothing. -/
theorem number_factsOf_of_typeParameters {feature : Feature} {tree : Tree} (made : WellMade tree)
    (family : tree.label.family = .typeParameters) : (factsOf tree).number feature = 0 := by
  rw [factsOf_of_list (by simp [family])]
  apply number_factsOfAll_eq_zero
  intro child member
  apply number_factsOf_of_leaf (made.of_mem member)
  have permits := made.permits member
  rw [Label.eq_construct_of_family family rfl, Label.permits, Bool.or_eq_true] at permits
  rcases permits with token | type
  · have same : child.label.family = .token := of_decide_eq_true token
    simp [same]
  · have same : child.label.family = .type := of_decide_eq_true type
    simp [same]

/-- The parts of a definition that are neither its head nor its body count for nothing. -/
theorem number_factsOf_of_idle {feature : Feature} {tree : Tree} (made : WellMade tree)
    (family : tree.label.family ∈
      [Source.Family.token, .identifier, .type, .typeParameters]) :
    (factsOf tree).number feature = 0 := by
  by_cases listed : tree.label.family = .typeParameters
  · exact number_factsOf_of_typeParameters made listed
  · exact number_factsOf_of_leaf made (by simpa [listed] using family)

/-! ## Sums -/

section

variable (feature : Feature) (concerns : Key → Bool)

/-- How many places are counted for the keys of concern. -/
def amount (places : List Place) : Nat :=
  places.countP fun place => place.counts feature && concerns (ownerOf place.around)

/-- What facts count for, if they are those of a key of concern. -/
def share (key : Key) (facts : Facts) : Nat :=
  if concerns key then facts.number feature else 0

/-- What definitions with keys of concern count for. -/
def shares (profiles : List (Key × NodeKind × Header × Facts)) : Nat :=
  (profiles.map fun profile => share feature concerns profile.1 profile.2.2.2).sum

end

section

variable {feature : Feature} {concerns : Key → Bool}

theorem share_eq_zero {key : Key} {facts : Facts} (none : facts.number feature = 0) :
    share feature concerns key facts = 0 := by
  rw [share, none, ite_self]

theorem share_add (key : Key) (first second : Facts) :
    share feature concerns key (first.add second) =
      share feature concerns key first + share feature concerns key second := by
  simp only [share, Facts.number_add]
  split <;> rfl

theorem sum_share_factsOf (key : Key) (trees : List Tree) :
    (trees.map fun tree => share feature concerns key (factsOf tree)).sum =
      share feature concerns key (factsOfAll trees) := by
  induction trees with
  | nil => exact (share_eq_zero Facts.number_zero).symm
  | cons tree trees ih => rw [List.map_cons, List.sum_cons, ih, factsOfAll, share_add]

theorem shares_append (first second : List (Key × NodeKind × Header × Facts)) :
    shares feature concerns (first ++ second) =
      shares feature concerns first + shares feature concerns second := by
  rw [shares, List.map_append, List.sum_append]
  rfl

theorem amount_eq_zero_of_isLeftOut {around : List Ancestor} (left : isLeftOut around = true)
    {places : List Place} (inside : ∀ place ∈ places, around <:+ place.around) :
    amount feature concerns places = 0 := by
  rw [amount, List.countP_eq_zero]
  intro place member
  simp [Place.counts, isLeftOut_of_suffix (inside place member) left]

/-- A construct counts for itself, if it is not left out, and for what is inside it. -/
theorem amount_placesOf_construct {around : List Ancestor} (kept : isLeftOut around = false)
    (before : List Tree) {tree : Tree} {kind : Kind} (isKind : tree.label = .construct kind) :
    amount feature concerns (placesOf around before tree) =
      share feature concerns (ownerOf around) (ownFacts kind tree.children) +
        amount feature concerns (placesOfAll (⟨tree, before⟩ :: around) [] tree.children) := by
  have own : (countedKinds feature).any tree.is = (countedKinds feature).contains kind := by
    rw [List.contains_eq_any_beq]
    congr 1
    funext other
    simp [is, isKind]
  rw [placesOf_eq, amount, List.countP_cons, Nat.add_comm, ← amount, share, number_ownFacts,
    Place.counts, own, kept, Bool.not_false, Bool.and_true]
  congr 1
  cases concerns (ownerOf around) <;> simp

/-- A construct without facts of its own counts for what is inside it. -/
theorem amount_placesOf_construct_of_idle {around : List Ancestor}
    (kept : isLeftOut around = false) (before : List Tree) {tree : Tree} {kind : Kind}
    (isKind : tree.label = .construct kind) (idle : ownFacts kind tree.children = .zero) :
    amount feature concerns (placesOf around before tree) =
      amount feature concerns (placesOfAll (⟨tree, before⟩ :: around) [] tree.children) := by
  rw [amount_placesOf_construct kept before isKind, idle, share_eq_zero Facts.number_zero,
    Nat.zero_add]

/-- A token counts for what is inside it. -/
theorem amount_placesOf_literal (around : List Ancestor) (before : List Tree) {tree : Tree}
    {literal : String} (isLiteral : tree.label = .literal literal) :
    amount feature concerns (placesOf around before tree) =
      amount feature concerns (placesOfAll (⟨tree, before⟩ :: around) [] tree.children) := by
  have own : (countedKinds feature).any tree.is = false := by
    rw [List.any_eq_false]
    intro kind _
    simp [is, isLiteral]
  rw [placesOf_eq, amount, List.countP_cons, ← amount, Place.counts, own]
  rfl

/-- What a run of siblings counts for is the sum of what they count for. -/
theorem amount_placesOfAll {around : List Ancestor} {parent : Tree} {weight : Tree → Nat}
    {before trees : List Tree}
    (each : ∀ tree ∈ trees, ∀ elder, before ⊆ elder →
      amount feature concerns (placesOf around elder tree) =
        weight tree + shares feature concerns (profilesOf (some parent) (ownerOf around) tree)) :
    amount feature concerns (placesOfAll around before trees) =
      (trees.map weight).sum +
        shares feature concerns (profilesOfAll parent (ownerOf around) trees) := by
  induction trees generalizing before with
  | nil => rfl
  | cons tree trees ih =>
      rcases List.forall_mem_cons.1 each with ⟨own, others⟩
      have later := @ih (tree :: before) fun tree member elder larger =>
        others tree member elder (List.subset_of_cons_subset larger)
      rw [placesOfAll, amount, List.countP_append, ← amount, ← amount,
        own before (List.Subset.refl _), later, profilesOfAll_cons, shares_append, List.map_cons,
        List.sum_cons]
      omega

/-! ## Walks -/

/-- What the places of a tree count for, for whatever keys are of concern.  A tree is
walked as part of a scope, or it is the scope itself. -/
structure Conserves (feature : Feature) (concerns : Key → Bool) (tree : Tree) : Prop where
  walked : ∀ {around : List Ancestor} {before : List Tree} (parent : Option Tree),
    isLeftOut around = false → documents ⟨tree, before⟩ around = false →
    isScope (⟨tree, before⟩ :: around) = false → tree.is .decorator = false →
    amount feature concerns (placesOf around before tree) =
      share feature concerns (ownerOf around) (factsOf tree) +
        shares feature concerns (profilesOf parent (ownerOf around) tree)
  entered : ∀ {around : List Ancestor} {before : List Tree} (parent : Option Tree),
    isLeftOut around = false → documents ⟨tree, before⟩ around = false →
    isScope (⟨tree, before⟩ :: around) = true → tree.is .module ∨ tree.is .block →
    amount feature concerns (placesOf around before tree) =
      share feature concerns (ownerOf around) (scopeFacts tree) +
        shares feature concerns (profilesOf parent (ownerOf around) tree)

section

variable {tree : Tree} {around : List Ancestor} {before : List Tree}

theorem profilesOf_eq (parent : Option Tree) (tree : Tree) :
    profilesOf parent (ownerOf around) tree =
      ownProfiles parent (ownerOf around) tree.label tree ++
        profilesOfAll tree (ownerOf (⟨tree, before⟩ :: around)) tree.children := by
  cases tree
  exact profilesOf_node _ _ _ _ _ _ _

/-- A tree counts for itself and for its children, and so do its definitions. -/
theorem amount_placesOf_of_children {own total : Nat} {facts : Facts} (parent : Option Tree)
    (split : amount feature concerns (placesOf around before tree) =
      own + amount feature concerns (placesOfAll (⟨tree, before⟩ :: around) [] tree.children))
    (below : amount feature concerns (placesOfAll (⟨tree, before⟩ :: around) [] tree.children) =
      total + shares feature concerns
        (profilesOfAll tree (ownerOf (⟨tree, before⟩ :: around)) tree.children))
    (balance : own + total = share feature concerns (ownerOf around) facts +
      shares feature concerns (ownProfiles parent (ownerOf around) tree.label tree)) :
    amount feature concerns (placesOf around before tree) =
      share feature concerns (ownerOf around) facts +
        shares feature concerns (profilesOf parent (ownerOf around) tree) := by
  rw [split, below, @profilesOf_eq around before, shares_append, ← Nat.add_assoc, balance,
    Nat.add_assoc]

/-- Nothing is counted in what is left out, and nothing is defined there. -/
theorem amount_placesOf_of_leftOut (parent : Option Tree) (kept : isLeftOut around = false)
    {kind : Kind} (isKind : tree.label = .construct kind)
    (idle : ownFacts kind tree.children = .zero)
    (left : isLeftOut (⟨tree, before⟩ :: around) = true)
    (quiet : tree.holdsDefinition = false) :
    amount feature concerns (placesOf around before tree) =
      0 + shares feature concerns (profilesOf parent (ownerOf around) tree) := by
  have inside := @amount_eq_zero_of_isLeftOut feature concerns _ left _
    fun place member => @suffix_of_mem_placesOfAll place _ [] tree.children member
  rw [amount_placesOf_construct_of_idle kept before isKind idle, inside,
    profilesOf_eq_nil _ _ quiet]
  rfl

/-- What is inside a node is not left out, unless the node is. -/
theorem isLeftOut_cons (kept : isLeftOut around = false)
    (statement : documents ⟨tree, before⟩ around = false) (noType : tree.is .type = false)
    (noComment : tree.is .comment = false) (noDecorator : tree.is .decorator = false) :
    isLeftOut (⟨tree, before⟩ :: around) = false := by
  simp [isLeftOut, noType, noComment, noDecorator, statement, kept]

/-- A tree is walked as a part of the scope around it. -/
structure IsWalked (feature : Feature) (concerns : Key → Bool) (around : List Ancestor)
    (tree : Tree) : Prop where
  conserves : Conserves feature concerns tree
  plain : tree.is .decorator = false
  inner : ∀ elder, isScope (⟨tree, elder⟩ :: around) = false

theorem IsWalked.amount_eq (walked : IsWalked feature concerns around tree)
    (parent : Option Tree) (kept : isLeftOut around = false)
    (statement : documents ⟨tree, before⟩ around = false) :
    amount feature concerns (placesOf around before tree) =
      share feature concerns (ownerOf around) (factsOf tree) +
        shares feature concerns (profilesOf parent (ownerOf around) tree) :=
  walked.conserves.walked parent kept statement (walked.inner before) walked.plain

/-- A walked tree without facts counts for nothing, but its definitions do. -/
theorem IsWalked.amount_of_idle (walked : IsWalked feature concerns around tree)
    (parent : Option Tree) (kept : isLeftOut around = false)
    (statement : documents ⟨tree, before⟩ around = false)
    (idle : (factsOf tree).number feature = 0) :
    amount feature concerns (placesOf around before tree) =
      0 + shares feature concerns (profilesOf parent (ownerOf around) tree) := by
  rw [walked.amount_eq parent kept statement, share_eq_zero idle]

/-- Siblings that are walked count for their facts, if none of them is a docstring. -/
theorem amount_of_isWalked {parent : Tree} {trees : List Tree} (kept : isLeftOut around = false)
    (walked : ∀ tree ∈ trees, IsWalked feature concerns around tree)
    (statements : ∀ tree ∈ trees, ∀ elder, before ⊆ elder →
      documents ⟨tree, elder⟩ around = false) :
    amount feature concerns (placesOfAll around before trees) =
      share feature concerns (ownerOf around) (factsOfAll trees) +
        shares feature concerns (profilesOfAll parent (ownerOf around) trees) := by
  rw [← sum_share_factsOf]
  apply amount_placesOfAll
  intro tree member elder larger
  exact (walked tree member).amount_eq (some parent) kept (statements tree member elder larger)

/-- The siblings in a scope count for their facts without the docstring. -/
theorem amount_of_scope {parent : Tree} {trees : List Tree} (scope : isScope around = true)
    (kept : isLeftOut around = false) (made : ∀ tree ∈ trees, WellMade tree)
    (walked : ∀ tree ∈ trees, IsWalked feature concerns around tree)
    (first : ∀ elder ∈ before, isStatement elder = false) :
    amount feature concerns (placesOfAll around before trees) =
      share feature concerns (ownerOf around) (factsOfAll (withoutDocstring trees)) +
        shares feature concerns (profilesOfAll parent (ownerOf around) trees) := by
  induction trees generalizing before with
  | nil => exact (share_eq_zero Facts.number_zero).symm
  | cons tree trees ih =>
      rcases List.forall_mem_cons.1 made with ⟨ownMade, othersMade⟩
      rcases List.forall_mem_cons.1 walked with ⟨own, others⟩
      have plain (other : isDocstring tree = false) :=
        @IsWalked.amount_eq _ _ _ _ before own (some parent) kept (by simp [documents, other])
      rw [placesOfAll, amount, List.countP_append, ← amount, ← amount, withoutDocstring_cons,
        profilesOfAll_cons, shares_append]
      -- Nothing before the first statement is a docstring, and nothing after it.
      cases statement : isStatement tree with
      | false =>
          have other : isDocstring tree = false := by
            cases docstring : isDocstring tree with
            | false => rfl
            | true => rw [isStatement_of_isDocstring docstring] at statement; cases statement
          have later := @ih (tree :: before) othersMade others
            (List.forall_mem_cons.2 ⟨statement, first⟩)
          rw [if_neg Bool.false_ne_true, factsOfAll, share_add, plain other, later]
          omega
      | true =>
          have later := @amount_of_isWalked feature concerns around (tree :: before) parent trees
            kept others fun other _ elder larger =>
              documents_of_mem_before (larger List.mem_cons_self) statement
          cases docstring : isDocstring tree with
          | false =>
              rw [if_pos rfl, if_neg Bool.false_ne_true, factsOfAll, share_add, plain docstring,
                later]
              omega
          | true =>
              have left : isLeftOut (⟨tree, before⟩ :: around) = true := by
                have documents : documents ⟨tree, before⟩ around = true := by
                  simpa [documents, scope, docstring] using first
                simp [isLeftOut, documents]
              have label := label_of_isDocstring docstring
              have here := @amount_placesOf_of_leftOut feature concerns tree around before
                (some parent) kept _ label rfl left (ownMade.holdsDefinition_eq_false label rfl
                  fun rank => by cases rank <;> rfl)
              rw [if_pos rfl, if_pos rfl, here, later]
              omega

/-! ## Nodes and their children -/

theorem ownerOf_cons (other : tree.label.isDefinition = false) :
    ownerOf (⟨tree, before⟩ :: around) = ownerOf around := by
  rw [ownerOf, keyWithin, definitionKind?_eq_none_iff.2 other]

theorem shares_ownProfiles_eq_zero {label : Label} (other : label.isDefinition = false)
    (parent : Option Tree) (key : Key) (tree : Tree) :
    shares feature concerns (ownProfiles parent key label tree) = 0 := by
  rw [ownProfiles, definitionKind?_eq_none_iff.2 other]
  rfl

/-- No child of a node that is no scope is a docstring. -/
theorem documents_of_inner (inner : isScope (⟨tree, before⟩ :: around) = false)
    (ancestor : Ancestor) : documents ancestor (⟨tree, before⟩ :: around) = false := by
  rw [documents, inner]
  rfl

/-- The children of a node are walked, unless it is a definition. -/
theorem isWalked_of_mem (made : WellMade tree)
    (inside : ∀ child ∈ tree.children, Conserves feature concerns child)
    (other : tree.label.isDefinition = false)
    (undecorated : tree.label ≠ .construct .decoratedDefinition) {child : Tree}
    (member : child ∈ tree.children) :
    IsWalked feature concerns (⟨tree, before⟩ :: around) child where
  conserves := inside child member
  plain := made.not_decorator undecorated member
  inner elder := by simp [isScope, other]

/-- A tree counts for nothing if neither it nor any of its children does. -/
theorem amount_placesOf_of_idle {facts : Facts} (other : tree.label.isDefinition = false)
    (parent : Option Tree)
    (split : amount feature concerns (placesOf around before tree) =
      amount feature concerns (placesOfAll (⟨tree, before⟩ :: around) [] tree.children))
    (each : ∀ child ∈ tree.children, ∀ elder,
      amount feature concerns (placesOf (⟨tree, before⟩ :: around) elder child) =
        0 + shares feature concerns
          (profilesOf (some tree) (ownerOf (⟨tree, before⟩ :: around)) child))
    (idle : facts.number feature = 0) :
    amount feature concerns (placesOf around before tree) =
      share feature concerns (ownerOf around) facts +
        shares feature concerns (profilesOf parent (ownerOf around) tree) := by
  apply amount_placesOf_of_children parent (split.trans (Nat.zero_add _).symm)
    (amount_placesOfAll fun child member elder _ => each child member elder)
  rw [shares_ownProfiles_eq_zero other, share_eq_zero idle]
  simp

/-! ## Parts of definitions -/

/-- The weights of the children in a role, which no two of them have. -/
theorem sum_of_role {trees : List Tree} {role : Field} (once : (trees.filterMap Tree.field).Nodup)
    (weight : Tree → Nat) :
    (trees.map fun tree => if tree.field = some role then weight tree else 0).sum =
      ((trees.find? fun tree => tree.field == some role).map weight).getD 0 := by
  induction trees with
  | nil => rfl
  | cons tree trees ih =>
      rw [List.map_cons, List.sum_cons]
      by_cases plays : tree.field = some role
      · rw [List.filterMap_cons_some plays, List.nodup_cons, List.mem_filterMap] at once
        have others : (trees.map fun tree =>
            if tree.field = some role then weight tree else 0).sum = 0 := by
          apply List.sum_eq_zero
          simp only [List.mem_map]
          rintro _ ⟨other, member, rfl⟩
          exact if_neg fun same => once.1 ⟨other, member, same⟩
        rw [if_pos plays, others, List.find?_cons_of_pos (by simp [plays])]
        rfl
      · have rest : (trees.filterMap Tree.field).Nodup :=
          once.sublist ((List.sublist_cons_self tree trees).filterMap _)
        rw [if_neg plays, ih rest, List.find?_cons_of_neg (by simp [plays]), Nat.zero_add]

/-- What is measured about a definition are the facts of its head and its body. -/
theorem measureAt_snd {label : Label} {kind : NodeKind}
    (defines : definitionKind? label = some kind) (located : Located) :
    (measureAt kind located).2 =
      (headFacts located.tree label.headRole).add (bodyFacts located.tree) := by
  rw [label_of_definitionKind? defines]
  cases kind with
  | module => exact absurd rfl (definitionKind?_ne_module defines)
  | functionDef => rfl
  | classDef => rfl

/-- What a child of a definition counts for, if its facts are those of the key. -/
def weight (feature : Feature) (concerns : Key → Bool) (label : Label) (key : Key)
    (child : Tree) : Nat :=
  (if child.field = some label.headRole then
      share feature concerns key (factsOfAll child.children) else 0) +
    if child.field = some .body then share feature concerns key (scopeFacts child) else 0

/-- No two parts of a definition have the same role. -/
theorem WellMade.nodup_roles (made : WellMade tree) (defines : tree.label.isDefinition = true) :
    (tree.children.filterMap Tree.field).Nodup := by
  have everywhere : ∀ roles ∈ Source.headRoles, roles.Nodup := by decide
  rcases tree with ⟨label, field, span, text, children⟩
  exact everywhere _ ((headsDefinitions_node.1 made.heads).1 defines).roles

/-- The children of a definition count for the facts of its head and its body. -/
theorem sum_weight (made : WellMade tree) (defines : tree.label.isDefinition = true) (key : Key) :
    (tree.children.map (weight feature concerns tree.label key)).sum =
      share feature concerns key ((headFacts tree tree.label.headRole).add (bodyFacts tree)) := by
  have once := made.nodup_roles defines
  have shared (part : Option Tree) (facts : Tree → Facts) :
      (part.map fun part => share feature concerns key (facts part)).getD 0 =
        share feature concerns key ((part.map facts).getD .zero) := by
    cases part with
    | none => exact (share_eq_zero Facts.number_zero).symm
    | some part => rfl
  unfold weight
  rw [List.sum_map_add, sum_of_role once, sum_of_role once, shared, shared, share_add]
  rfl

/-! ## Walks of a node -/

section

variable (made : WellMade tree)
  (inside : ∀ child ∈ tree.children, Conserves feature concerns child)
  (keptInside : isLeftOut (⟨tree, before⟩ :: around) = false)
  (inner : isScope (⟨tree, before⟩ :: around) = false)

include made inside keptInside inner

theorem walked_construct {kind : Kind} (isKind : tree.label = .construct kind)
    (other : tree.label.isDefinition = false)
    (undecorated : tree.label ≠ .construct .decoratedDefinition) (parent : Option Tree)
    (kept : isLeftOut around = false) :
    amount feature concerns (placesOf around before tree) =
      share feature concerns (ownerOf around)
          ((ownFacts kind tree.children).add (factsOfAll tree.children)) +
        shares feature concerns (profilesOf parent (ownerOf around) tree) := by
  apply amount_placesOf_of_children parent (amount_placesOf_construct kept before isKind)
    (amount_of_isWalked keptInside
      (fun child member => isWalked_of_mem made inside other undecorated member)
      fun child _ elder _ => documents_of_inner inner _)
  rw [shares_ownProfiles_eq_zero other, ownerOf_cons other, share_add, Nat.add_zero]

/-- Inside a token there are only tokens. -/
theorem walked_literal {literal : String} (isLiteral : tree.label = .literal literal)
    (parent : Option Tree) :
    amount feature concerns (placesOf around before tree) =
      share feature concerns (ownerOf around) .zero +
        shares feature concerns (profilesOf parent (ownerOf around) tree) := by
  have other : tree.label.isDefinition = false := by rw [isLiteral]; rfl
  apply amount_placesOf_of_idle other parent (amount_placesOf_literal around before isLiteral) _
    Facts.number_zero
  intro child member elder
  have permits := made.permits member
  rw [isLiteral] at permits
  have token : child.label.family = .token := of_decide_eq_true permits
  exact (isWalked_of_mem made inside other (by simp [isLiteral]) member).amount_of_idle _
    keptInside (documents_of_inner inner _)
    (number_factsOf_of_leaf (made.of_mem member) (by simp [token]))

/-- Decorators are left out, and the definition behind them counts for itself. -/
theorem walked_decorated (decorated : tree.label = .construct .decoratedDefinition)
    {facts : Facts} (idle : facts.number feature = 0) (parent : Option Tree)
    (kept : isLeftOut around = false) :
    amount feature concerns (placesOf around before tree) =
      share feature concerns (ownerOf around) facts +
        shares feature concerns (profilesOf parent (ownerOf around) tree) := by
  have other : tree.label.isDefinition = false := by rw [decorated]; rfl
  apply amount_placesOf_of_idle other parent
    (amount_placesOf_construct_of_idle kept before decorated rfl) _ idle
  intro child member elder
  have walked (plain : child.label.family ≠ .decorator) :
      IsWalked feature concerns (⟨tree, before⟩ :: around) child :=
    ⟨inside child member, not_decorator_of_family plain, by simp [isScope, other]⟩
  have statement := documents_of_inner inner ⟨child, elder⟩
  have permits := made.permits member
  rw [decorated, Label.permits, Bool.or_eq_true, Bool.or_eq_true] at permits
  rcases permits with (token | decorator) | definition
  · have token : child.label.family = .token := of_decide_eq_true token
    exact (walked (by simp [token])).amount_of_idle _ keptInside statement
      (number_factsOf_of_leaf (made.of_mem member) (by simp [token]))
  · have isDecorator := Label.eq_construct_of_family (of_decide_eq_true decorator) rfl
    exact amount_placesOf_of_leftOut _ keptInside isDecorator rfl
      (by simp [isLeftOut, is, isDecorator])
      ((made.of_mem member).holdsDefinition_eq_false isDecorator rfl
        fun rank => by cases rank <;> rfl)
  · have definition : child.label.family = .definition := of_decide_eq_true definition
    have nested := factsOf_of_isDefinition (Label.isDefinition_of_family definition)
    exact (walked (by simp [definition])).amount_of_idle _ keptInside statement
      (by rw [nested, number_nestedFacts])

/-- A child of a definition counts for its weight. -/
theorem amount_of_mem_definition (defines : tree.label.isDefinition = true) {child : Tree}
    (member : child ∈ tree.children) (elder : List Tree) :
    amount feature concerns (placesOf (⟨tree, before⟩ :: around) elder child) =
      weight feature concerns tree.label (ownerOf (⟨tree, before⟩ :: around)) child +
        shares feature concerns
          (profilesOf (some tree) (ownerOf (⟨tree, before⟩ :: around)) child) := by
  have scope : isScope (⟨child, elder⟩ :: ⟨tree, before⟩ :: around) =
      (child.field == some .body) := by
    simp [isScope, defines]
  have plain := made.not_decorator (by intro same; rw [same] at defines; cases defines) member
  have own := inside child member
  have statement := documents_of_inner inner ⟨child, elder⟩
  -- The body is a scope that is entered; all other parts are walked.
  rcases Label.family_of_permits defines (made.permits member) with
    ⟨body, block⟩ | ⟨head, family⟩ | ⟨noBody, noHead, family⟩
  · change child.field = _ at body
    have isBlock : child.is .block = true := by
      rw [is, Label.eq_construct_of_family block rfl]
      rfl
    rw [own.entered (some tree) keptInside statement (scope.trans (by simp [body]))
      (Or.inr isBlock)]
    simp [weight, body, tree.label.headRole_ne_body.symm]
  · change child.field = _ at head
    rw [own.walked (some tree) keptInside statement
      (scope.trans (by simp [head, tree.label.headRole_ne_body])) plain]
    have inside : factsOf child = factsOfAll child.children :=
      factsOf_of_list (List.mem_append_left [Source.Family.typeParameters] family)
    simp [weight, head, tree.label.headRole_ne_body, inside]
  · change child.field ≠ _ at noBody noHead
    rw [own.walked (some tree) keptInside statement (scope.trans (by simp [noBody])) plain,
      share_eq_zero (number_factsOf_of_idle (made.of_mem member) family)]
    simp [weight, noBody, noHead]

theorem walked_definition {kind : NodeKind}
    (defines : definitionKind? tree.label = some kind) (parent : Option Tree)
    (kept : isLeftOut around = false) :
    amount feature concerns (placesOf around before tree) =
      share feature concerns (ownerOf around) (nestedFacts tree.label) +
        shares feature concerns (profilesOf parent (ownerOf around) tree) := by
  have isDefinition := isDefinition_of_definitionKind? defines
  have idle : ownFacts (construct kind) tree.children = .zero := by
    cases kind <;> rfl
  have split := @amount_placesOf_construct_of_idle feature concerns around kept before tree _
    (label_of_definitionKind? defines) idle
  apply amount_placesOf_of_children parent (split.trans (Nat.zero_add _).symm)
    (amount_placesOfAll fun child member elder _ =>
      amount_of_mem_definition made inside keptInside inner isDefinition member elder)
  have own : shares feature concerns (ownProfiles parent (ownerOf around) tree.label tree) =
      share feature concerns (ownerOf (⟨tree, before⟩ :: around))
        (measureAt kind ⟨tree, parent⟩).2 := by
    simp [shares, ownProfiles, ownerOf, keyWithin, defines]
  rw [sum_weight made isDefinition, own, measureAt_snd defines,
    share_eq_zero (number_nestedFacts tree.label)]

end

/-! ## Trees -/

/-- A tree counts for its facts if its children do. -/
theorem walked_of_children (made : WellMade tree)
    (inside : ∀ child ∈ tree.children, Conserves feature concerns child) (parent : Option Tree)
    (kept : isLeftOut around = false) (statement : documents ⟨tree, before⟩ around = false)
    (inner : isScope (⟨tree, before⟩ :: around) = false) (plain : tree.is .decorator = false) :
    amount feature concerns (placesOf around before tree) =
      share feature concerns (ownerOf around) (factsOf tree) +
        shares feature concerns (profilesOf parent (ownerOf around) tree) := by
  have keptInside := isLeftOut_cons kept statement
  rcases tree with ⟨label, field, span, text, children⟩
  unfold factsOf
  split
  case h_1 => exact walked_literal made inside (keptInside rfl rfl rfl) inner rfl parent
  case h_2 | h_3 =>
      exact walked_definition made inside (keptInside rfl rfl rfl) inner rfl parent kept
  case h_4 =>
      refine walked_decorated made inside (keptInside rfl rfl rfl) inner rfl ?_ parent kept
      cases children.find? fun child => child.field == some .definition with
      | none => exact Facts.number_zero
      | some definition => exact number_nestedFacts definition.label
  case h_5 | h_6 =>
      rw [share_eq_zero Facts.number_zero]
      exact amount_placesOf_of_leftOut parent kept rfl rfl (by simp [isLeftOut, is, Tree.label])
        (made.holdsDefinition_eq_false rfl rfl fun rank => by cases rank <;> rfl)
  case h_7 kind noFunction noClass noDecorated noType noComment =>
      have other : (Label.construct kind).isDefinition = false := by
        simpa [Label.isDefinition] using And.intro noFunction noClass
      have keptInside := keptInside (by simpa [is, Tree.label] using noType)
        (by simpa [is, Tree.label] using noComment) plain
      exact walked_construct made inside keptInside inner rfl other
        (by simpa [Tree.label] using noDecorated) parent kept

/-- A scope counts for its facts without the docstring if its children are walked. -/
theorem entered_of_children (made : WellMade tree)
    (inside : ∀ child ∈ tree.children, Conserves feature concerns child) (parent : Option Tree)
    (kept : isLeftOut around = false) (statement : documents ⟨tree, before⟩ around = false)
    (scope : isScope (⟨tree, before⟩ :: around) = true)
    (body : tree.is .module ∨ tree.is .block) :
    amount feature concerns (placesOf around before tree) =
      share feature concerns (ownerOf around) (scopeFacts tree) +
        shares feature concerns (profilesOf parent (ownerOf around) tree) := by
  rcases tree with ⟨label, field, span, text, children⟩
  have known : label = .construct .module ∨ label = .construct .block := by
    simpa [is, Tree.label] using body
  rcases known with rfl | rfl <;>
    · apply amount_placesOf_of_children parent
        ((amount_placesOf_construct_of_idle kept before rfl rfl).trans (Nat.zero_add _).symm)
        (amount_of_scope scope (isLeftOut_cons kept statement rfl rfl rfl)
          (fun child member => made.of_mem member)
          (fun child member => isWalked_of_mem made inside rfl (by simp [Tree.label]) member)
          (by simp))
      rw [shares_ownProfiles_eq_zero rfl, Nat.zero_add]
      rfl

mutual

/-- The places of a tree count for its facts and for those of its definitions. -/
theorem conserves : {tree : Tree} → WellMade tree → Conserves feature concerns tree
  | node label field span text children, made => by
      have inside := conservesAll fun child member => made.of_mem member
      exact ⟨walked_of_children made inside, entered_of_children made inside⟩

theorem conservesAll : {trees : List Tree} → (∀ tree ∈ trees, WellMade tree) →
    ∀ tree ∈ trees, Conserves feature concerns tree
  | [], _ => by simp
  | tree :: trees, made => by
      rcases List.forall_mem_cons.1 made with ⟨own, others⟩
      exact List.forall_mem_cons.2 ⟨conserves own, conservesAll others⟩

end

end

end

end SemanticDiff.Feature
