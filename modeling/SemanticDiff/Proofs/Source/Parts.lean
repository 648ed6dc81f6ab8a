import SemanticDiff.Proofs.Source.Marking

/-!
# The parts of a node

A function is made of tokens, a name, type parameters, parameters, a result type and
a body, a class of tokens, a name, type parameters, base classes and a body, and each
of them but the tokens and type parameters plays its role.  Decorators stand nowhere
but before a definition, and nothing stands inside a token but tokens.
-/

namespace SemanticDiff.Source

open Source.Tree
open Rule (State gather retarget isTold)

/-! ## Parts -/

/-- What a node is to the node around it. -/
inductive Family where
  /-- A token that stands for itself, a comment or a line continuation. -/
  | token
  | identifier
  | type
  | typeParameters
  | parameters
  | arguments
  | block
  | decorator
  | definition
  | other
deriving DecidableEq

/-- The family of a node. -/
def Label.family : Label → Family
  | .literal _ | .construct .comment | .construct .lineContinuation => .token
  | .construct .identifier => .identifier
  | .construct .type => .type
  | .construct .typeParameter => .typeParameters
  | .construct .parameters => .parameters
  | .construct .argumentList => .arguments
  | .construct .block => .block
  | .construct .decorator => .decorator
  | .construct .functionDefinition | .construct .classDefinition => .definition
  | _ => .other

/-- A node of a family in a role. -/
structure Part where
  family : Family
  role : Option Field
deriving DecidableEq

/-- The parts of a function. -/
def functionParts : List Part :=
  [⟨.token, none⟩, ⟨.identifier, some .name⟩, ⟨.typeParameters, none⟩,
    ⟨.parameters, some .parameters⟩, ⟨.type, some .returnType⟩, ⟨.block, some .body⟩]

/-- The parts of a class. -/
def classParts : List Part :=
  [⟨.token, none⟩, ⟨.identifier, some .name⟩, ⟨.typeParameters, none⟩,
    ⟨.arguments, some .superclasses⟩, ⟨.block, some .body⟩]

/-- Whether a part may stand in a node. -/
def Label.permits : Label → Part → Bool
  | .literal _, part => part.family = .token
  | .construct .identifier, _ | .construct .lineContinuation, _ => false
  | .construct .typeParameter, part => part.family = .token || part.family = .type
  | .construct .functionDefinition, part => functionParts.contains part
  | .construct .classDefinition, part => classParts.contains part
  | .construct .decoratedDefinition, part =>
      part.family = .token || part.family = .decorator || part.family = .definition
  | _, part => part.family ≠ .decorator

/-- Whether targets, or what stands between them, can be of the family. -/
def Family.isTarget : Family → Bool
  | .token | .identifier | .other => true
  | _ => false

/-- Anything but decorators may stand in the node. -/
def Label.IsOrdinary (label : Label) : Prop :=
  ∀ part : Part, part.family ≠ .decorator → label.permits part = true

/-- The kind of all nodes of a family, if they have one. -/
def Family.kind? : Family → Option Kind
  | .identifier => some .identifier
  | .type => some .type
  | .typeParameters => some .typeParameter
  | .parameters => some .parameters
  | .arguments => some .argumentList
  | .block => some .block
  | .decorator => some .decorator
  | .token | .definition | .other => none

theorem Label.eq_construct_of_family {label : Label} {family : Family} {kind : Kind}
    (same : label.family = family) (only : family.kind? = some kind) :
    label = .construct kind := by
  subst same
  unfold Label.family at only
  split at only <;> cases only <;> rfl

theorem Label.isDefinition_of_family {label : Label} (family : label.family = .definition) :
    label.isDefinition = true := by
  unfold Label.family at family
  split at family <;> cases family <;> rfl

/-- The role of the part of a definition that stands before its body. -/
def Label.headRole : Label → Field
  | .construct .classDefinition => .superclasses
  | _ => .parameters

theorem Label.headRole_ne_body (label : Label) : label.headRole ≠ .body := by
  unfold Label.headRole
  split <;> decide

/-- A part of a definition is its body, its parameters or base classes, or one of the
parts that are no scope and hold no expressions. -/
theorem Label.family_of_permits {label : Label} {part : Part}
    (defines : label.isDefinition = true) (permits : label.permits part = true) :
    (part.role = some .body ∧ part.family = .block) ∨
      (part.role = some label.headRole ∧ part.family ∈ [Family.parameters, .arguments]) ∨
      (part.role ≠ some .body ∧ part.role ≠ some label.headRole ∧
        part.family ∈ [Family.token, .identifier, .type, .typeParameters]) := by
  rcases Label.isDefinition_iff.1 defines with rfl | rfl <;>
    · rw [Label.permits, List.contains_iff_mem] at permits
      revert part
      decide

/-- Decorators stand before definitions only. -/
theorem Label.family_ne_decorator_of_permits {label : Label} {part : Part}
    (other : label ≠ .construct .decoratedDefinition) (permits : label.permits part = true) :
    part.family ≠ .decorator := by
  rcases part with ⟨family, role⟩
  rintro rfl
  unfold Label.permits at permits
  split at permits
  case h_7 => exact other rfl
  case h_5 | h_6 => simp [functionParts, classParts] at permits
  all_goals simp at permits

namespace Tree

/-- What the node is to the node around it. -/
def part (tree : Tree) : Part :=
  ⟨tree.label.family, tree.field⟩

mutual

/-- All nodes of the tree are made of parts that may stand in them. -/
def Parted : Tree → Prop
  | node label _ _ _ children =>
      (∀ child ∈ children, label.permits child.part = true) ∧ AllParted children

/-- All nodes of a run of trees are made of parts that may stand in them. -/
def AllParted : List Tree → Prop
  | [] => True
  | tree :: trees => tree.Parted ∧ AllParted trees

end

theorem allParted_iff {trees : List Tree} : AllParted trees ↔ ∀ tree ∈ trees, tree.Parted := by
  induction trees with
  | nil => simp [AllParted]
  | cons tree trees ih => simp [AllParted, ih]

theorem parted_node {label : Label} {field : Option Field} {span : Span} {text : String}
    {children : List Tree} :
    (node label field span text children).Parted ↔
      (∀ child ∈ children, label.permits child.part = true) ∧
        ∀ child ∈ children, child.Parted := by
  rw [Parted, allParted_iff]

theorem Parted.withField {tree : Tree} (parted : tree.Parted) (field : Field) :
    (tree.withField field).Parted := by
  cases tree
  exact parted_node.2 (parted_node.1 parted)

/-- A target is made as it should be, and plays the role of what it was. -/
structure IsTarget (tree target : Tree) : Prop where
  parted : target.Parted
  field : target.field = tree.field
  family : target.label.family.isTarget = true

mutual

theorem isTarget_of_toTarget? : {tree target : Tree} → tree.Parted →
    tree.toTarget? = some target → IsTarget tree target
  | node label field span text children, target, parted, turned => by
      have inside := parted_node.1 parted
      unfold toTarget? at turned
      split at turned
      case h_4 =>
          rw [Option.ite_none_right_eq_some] at turned
          rcases turned with ⟨-, same⟩
          cases same
          exact ⟨parted_node.2 inside, rfl, rfl⟩
      case h_5 | h_6 | h_7 =>
          rcases Option.map_eq_some_iff.1 turned with ⟨targets, childrenTurned, rfl⟩
          exact ⟨parted_node.2 (parted_of_toTargets? (fun _ => decide_eq_true) inside.2
            childrenTurned), rfl, rfl⟩
      case h_11 => cases turned
      all_goals
        cases turned
        exact ⟨parted, rfl, rfl⟩

theorem parted_of_toTargets? {label : Label} (ordinary : label.IsOrdinary) :
    {trees targets : List Tree} → (∀ tree ∈ trees, tree.Parted) →
    toTargets? trees = some targets →
    (∀ target ∈ targets, label.permits target.part = true) ∧ ∀ target ∈ targets, target.Parted
  | [], _, _, turned => by
      cases turned
      simp
  | tree :: trees, _, parted, turned => by
      simp only [toTargets?, Option.bind_eq_bind, Option.bind_eq_some_iff, Option.pure_def,
        Option.some.injEq] at turned
      rcases turned with ⟨target, first, targets, others, rfl⟩
      rcases List.forall_mem_cons.1 parted with ⟨own, rest⟩
      have isTarget := isTarget_of_toTarget? own first
      have later := parted_of_toTargets? ordinary rest others
      refine ⟨List.forall_mem_cons.2 ⟨ordinary _ fun decorates => ?_, later.1⟩,
        List.forall_mem_cons.2 ⟨isTarget.parted, later.2⟩⟩
      have family := isTarget.family
      rw [show target.label.family = .decorator from decorates] at family
      cases family

end

theorem exists_isTarget_of_toTargets? : {trees targets : List Tree} →
    (∀ tree ∈ trees, tree.Parted) → toTargets? trees = some targets →
    ∀ target ∈ targets, ∃ tree ∈ trees, IsTarget tree target
  | [], _, _, turned => by
      cases turned
      simp
  | tree :: trees, _, parted, turned => by
      simp only [toTargets?, Option.bind_eq_bind, Option.bind_eq_some_iff, Option.pure_def,
        Option.some.injEq] at turned
      rcases turned with ⟨target, first, targets, others, rfl⟩
      rcases List.forall_mem_cons.1 parted with ⟨own, rest⟩
      refine List.forall_mem_cons.2
        ⟨⟨tree, List.mem_cons_self, isTarget_of_toTarget? own first⟩, ?_⟩
      intro target member
      obtain ⟨old, oldMem, isTarget⟩ := exists_isTarget_of_toTargets? rest others target member
      exact ⟨old, List.mem_cons_of_mem _ oldMem, isTarget⟩

end Tree

/-! ## Marking by parts -/

/-- The parts that targets, and what stands between them, can be. -/
def targetParts : List Part :=
  [⟨.token, none⟩, ⟨.identifier, none⟩, ⟨.other, none⟩]

/-- The marking by parts. -/
def partMarking : Marking Part where
  token kind := some [⟨((kind.map Label.construct).getD (.literal "")).family, none⟩]
  node label parts := if parts.all label.permits then some [⟨label.family, none⟩] else none
  told parts :=
    if parts.all fun part => part.family ≠ .decorator then
      some [⟨.other, none⟩, ⟨.arguments, none⟩]
    else none
  role field parts := some (parts.map fun part => ⟨part.family, some field⟩)
  targets parts := if parts.all fun part => part.role = none then some targetParts else none

/-- The tree is made as it should be, and it is one of the parts. -/
def IsPart (parts : List Part) (tree : Tree) : Prop :=
  tree.Parted ∧ tree.part ∈ parts

theorem parted_gather {label : Label} {text : String} {trees : List Tree} {state : State}
    {parts : List Part} (permitted : ∀ part ∈ parts, label.permits part = true)
    (made : ∀ tree ∈ trees, IsPart parts tree) : (gather label text trees state).Parted := by
  rw [gather, parted_node]
  constructor
  · intro child member
    exact permitted _ (made child (List.mem_reverse.1 member)).2
  · intro child member
    exact (made child (List.mem_reverse.1 member)).1

theorem isPart_token {kind : Option Kind} {parts : List Part}
    (made : partMarking.token kind = some parts) (literal : String) (span : Span)
    (text : String) :
    IsPart parts (leaf ((kind.map Label.construct).getD (.literal literal)) span text) := by
  cases made
  refine ⟨parted_node.2 ⟨by simp, by simp⟩, List.mem_singleton.2 ?_⟩
  cases kind <;> rfl

/-- Where a kind is told, the node is ordinary. -/
theorem isOrdinary_of_isTold {kind : Kind} (told : isTold kind = true) :
    (Label.construct kind).IsOrdinary ∧
      (Label.construct kind).family ∈ [Family.other, Family.arguments] := by
  cases kind <;> first | exact ⟨fun _ => decide_eq_true, by decide⟩ | cases told

theorem isPart_of_retarget {trees patterns : List Tree} {state : State} {parts : List Part}
    (roles : ∀ part ∈ parts, part.role = none) (made : ∀ tree ∈ trees, IsPart parts tree)
    (turned : retarget trees state = some patterns) :
    ∀ tree ∈ patterns, IsPart targetParts tree := by
  have listed : ∀ family : Family, family.isTarget = true →
      ⟨family, none⟩ ∈ targetParts := by
    intro family target
    cases family <;> first | decide | cases target
  rcases Option.map_eq_some_iff.1 turned with ⟨targets, targetsEq, rfl⟩
  have turnedParts : ∀ tree ∈ targets, IsPart targetParts tree := by
    intro target member
    obtain ⟨tree, treeMem, isTarget⟩ := exists_isTarget_of_toTargets?
      (fun tree member => (made tree member).1) targetsEq target member
    refine ⟨isTarget.parted, ?_⟩
    have role : tree.field = none := roles _ (made tree treeMem).2
    rw [part, isTarget.field, role]
    exact listed _ isTarget.family
  split
  · intro tree member
    rw [List.mem_singleton.1 member]
    exact ⟨parted_gather (by decide) turnedParts, listed .other rfl⟩
  · exact turnedParts

theorem sound_partMarking : partMarking.Sound IsPart where
  mono := by
    rintro parts more tree ⟨parted, member⟩ larger
    exact ⟨parted, larger _ member⟩
  token := isPart_token
  node := by
    intro label parts made makes trees marked text state
    simp only [partMarking, Option.ite_none_right_eq_some] at makes
    rcases makes with ⟨permitted, same⟩
    cases same
    exact ⟨parted_gather (List.all_eq_true.1 permitted) marked, List.mem_singleton.2 rfl⟩
  told := by
    intro kind parts made makes told trees marked state
    simp only [partMarking, Option.ite_none_right_eq_some] at makes
    rcases makes with ⟨plain, same⟩
    cases same
    obtain ⟨ordinary, family⟩ := isOrdinary_of_isTold told
    refine ⟨parted_gather (fun part member => ordinary part ?_) marked, ?_⟩
    · exact of_decide_eq_true (List.all_eq_true.1 plain part member)
    · rw [part, gather, label, field]
      simpa using family
  role := by
    intro field parts made makes tree marked
    cases makes
    refine ⟨marked.1.withField field, List.mem_map.2 ⟨tree.part, marked.2, ?_⟩⟩
    cases tree
    rfl
  targets := by
    intro parts made makes trees patterns state marked turned
    simp only [partMarking, Option.ite_none_right_eq_some] at makes
    rcases makes with ⟨roles, same⟩
    cases same
    refine isPart_of_retarget (fun part member => ?_) marked turned
    exact of_decide_eq_true (List.all_eq_true.1 roles part member)

namespace Grammar

/-- The parts that a symbol adds. -/
def addedParts : Symbol → List Part
  | .type => [⟨.type, none⟩]
  | .typeParameters => [⟨.typeParameters, none⟩]
  | .argumentList => [⟨.arguments, none⟩]
  | .functionDefinition | .classDefinition => [⟨.definition, none⟩]
  | .suite => [⟨.token, none⟩, ⟨.block, some .body⟩]
  | .simpleStatement | .simpleStatements => [⟨.token, none⟩, ⟨.other, none⟩]
  | .statements | .statement => [⟨.token, none⟩, ⟨.other, none⟩, ⟨.definition, none⟩]
  | _ => [⟨.token, none⟩, ⟨.other, none⟩, ⟨.identifier, none⟩, ⟨.arguments, none⟩]

theorem addsParts_rule (symbol : Symbol) :
    (rule symbol).addsMarks partMarking addedParts (addedParts symbol) = true := by
  cases symbol <;> decide +kernel

end Grammar

/-- In the tree of a text all nodes are made of parts that may stand in them. -/
theorem parted_of_parse {text : String} {tree : Tree} (parsed : parse text = .ok tree) :
    tree.Parted := by
  obtain ⟨span, children, rfl, made⟩ :=
    bears_of_parse sound_partMarking Grammar.addsParts_rule parsed
  have permitted : ∀ part ∈ Grammar.addedParts .statements,
      (Label.construct .module).permits part = true := by
    decide
  exact parted_node.2 ⟨fun child member => permitted _ (made child member).2,
    fun child member => (made child member).1⟩

end SemanticDiff.Source
