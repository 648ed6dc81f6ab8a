import SemanticDiff.Proofs.Source.Grammar
import SemanticDiff.Proofs.Source.TokenText

/-!
# Fragments

A fragment is a construct without a block in it: an expression, a parameter, an
annotation, a simple statement.  In the tree of a text every fragment is made of
tokens that are not empty and have no white space at their ends, and in each of its
nodes there is something besides layout and commas.

The grammar is checked by reading its rules on sights instead of trees.  A sight says
what is surely in scope, and what else may be.
-/

namespace SemanticDiff.Source

open Source.Tree
open Rule (State gather retarget isTold tokenLeaf layoutKinds)

/-! ## Neat trees -/

/-- Whether a node is a fragment: a construct that has no block in it, and is no layout
and no piece of a string literal. -/
def Label.isFragment : Label → Bool
  | .literal _ | .construct .module | .construct .block | .construct .comment
  | .construct .lineContinuation => false
  | .construct .ifStatement | .construct .elifClause | .construct .elseClause
  | .construct .forStatement | .construct .whileStatement | .construct .tryStatement
  | .construct .exceptClause | .construct .exceptGroupClause | .construct .finallyClause
  | .construct .withStatement | .construct .matchStatement | .construct .caseClause
  | .construct .functionDefinition | .construct .classDefinition
  | .construct .decoratedDefinition => false
  | .construct .stringStart | .construct .stringContent | .construct .stringEnd
  | .construct .interpolation | .construct .typeConversion | .construct .formatSpecifier
  | .construct .formatExpression => false
  | _ => true

/-- Whether a node is an exception handler. -/
def Label.isHandler (label : Label) : Bool :=
  label == .construct .exceptClause || label == .construct .exceptGroupClause

/-- Whether a label is that of a comma or of a string literal, which are always single
tokens. -/
def Label.isSingle (label : Label) : Bool :=
  label == .literal "," || label == .construct .string

/-- A token that stands for itself has its label as text. -/
def Label.IsSpelled : Label → String → Prop
  | .literal spelling, text => text = spelling
  | .construct _, _ => True

namespace Tree

/-- Whether a node is neither layout nor a comma. -/
def isSeen (tree : Tree) : Bool :=
  !tree.isLayout && !tree.isLiteral ","

/-- All tokens of the tree are tight, and all nodes in it hold something to be seen.
Nothing is said about layout, nor about what is inside a string literal. -/
inductive Neat : Tree → Prop
  | layout {tree : Tree} (is : tree.isLayout = true) : Neat tree
  | token {label : Label} {field : Option Field} {span : Span} {text : String}
      {children : List Tree} (whole : children = [] ∨ label = .construct .string)
      (tight : isTight text = true) (spelled : label.IsSpelled text) :
      Neat (node label field span text children)
  | node {label : Label} {field : Option Field} {span : Span} {text : String}
      {children : List Tree} (composed : label.isSingle = false)
      (seen : ∃ child ∈ children, child.isSeen = true)
      (inside : ∀ child ∈ children, Neat child) :
      Neat (node label field span text children)

/-- Every fragment in the tree is neat, and so is all that stands in a handler before
its block. -/
inductive Kempt : Tree → Prop
  | node {label : Label} {field : Option Field} {span : Span} {text : String}
      {children : List Tree}
      (fragment : label.isFragment = true → Neat (node label field span text children))
      (handler : label.isHandler = true → ∀ child ∈ children, child.Neat ∨ child.is .block)
      (inside : ∀ child ∈ children, Kempt child) :
      Kempt (node label field span text children)

theorem isLayout_of_isSeen {tree : Tree} (seen : tree.isSeen = true) : tree.isLayout = false := by
  rw [isSeen, Bool.and_eq_true, Bool.not_eq_true'] at seen
  exact seen.1

theorem isSeen_withField (tree : Tree) (field : Field) :
    (tree.withField field).isSeen = tree.isSeen := by
  cases tree
  rfl

theorem Neat.withField {tree : Tree} (neat : tree.Neat) (field : Field) :
    (tree.withField field).Neat := by
  cases neat with
  | layout is =>
      cases tree
      exact .layout is
  | token whole tight spelled => exact .token whole tight spelled
  | node composed seen inside => exact .node composed seen inside

theorem Kempt.withField {tree : Tree} (kempt : tree.Kempt) (field : Field) :
    (tree.withField field).Kempt := by
  cases kempt with
  | node fragment handler inside =>
      exact .node (fun is => (fragment is).withField field) handler inside

section

variable {label label' : Label} {field : Option Field} {span : Span} {text : String}
  {children targets : List Tree}

/-- What is inside a neat node is neat. -/
theorem Neat.inside (neat : (Tree.node label field span text children).Neat)
    (visible : (Tree.node label field span text children).isLayout = false)
    (other : label ≠ .construct .string) : ∀ child ∈ children, child.Neat := by
  cases neat with
  | layout is =>
      rw [visible] at is
      cases is
  | token whole =>
      rcases whole with rfl | string
      · simp
      · exact absurd string other
  | node _ _ inside => exact inside

/-- A single token of a neat tree is tight. -/
theorem Neat.isTight_text (neat : (Tree.node label field span text children).Neat)
    (visible : (Tree.node label field span text children).isLayout = false)
    (whole : children = [] ∨ label = .construct .string) : isTight text = true := by
  cases neat with
  | layout is =>
      rw [visible] at is
      cases is
  | token _ tight => exact tight
  | node composed seen _ =>
      rcases whole with rfl | rfl
      · simp at seen
      · cases composed

/-- A node stays neat when it becomes a pattern of the targets of its children. -/
theorem Neat.toPattern (neat : (Tree.node label field span text children).Neat)
    (visible : (Tree.node label field span text children).isLayout = false)
    (other : label ≠ .construct .string) (kind : Kind)
    (composed : (Label.construct kind).isSingle = false) (empty : children = [] → targets = [])
    (seen : (∃ child ∈ children, child.isSeen = true) → ∃ target ∈ targets, target.isSeen = true)
    (inside : ∀ target ∈ targets, target.Neat) :
    (Tree.node (.construct kind) field span text targets).Neat := by
  cases neat with
  | layout is =>
      rw [visible] at is
      cases is
  | token whole tight =>
      refine .token (Or.inl (empty ?_)) tight trivial
      exact whole.resolve_right other
  | node _ known _ => exact .node composed (seen known) inside

end

theorem Kempt.inside {tree : Tree} (kempt : tree.Kempt) : ∀ child ∈ tree.children, child.Kempt := by
  cases kempt with
  | node _ _ inside => exact inside

/-- A target is as neat as the expression that it was. -/
structure IsNeatTarget (tree target : Tree) : Prop where
  neat : target.Neat
  kempt : target.Kempt
  seen : target.isSeen = tree.isSeen

mutual

theorem isNeatTarget_of_toTarget? : {tree target : Tree} → tree.Neat → tree.Kempt →
    tree.toTarget? = some target → IsNeatTarget tree target
  | node label field span text children, target, neat, kempt, turned => by
      unfold toTarget? at turned
      split at turned
      case h_4 =>
          rw [Option.ite_none_right_eq_some] at turned
          rcases turned with ⟨-, same⟩
          cases same
          have own := neat.toPattern rfl (by simp) .listSplatPattern rfl id id
            (neat.inside rfl (by simp))
          exact ⟨own, .node (fun _ => own) nofun kempt.inside, rfl⟩
      case h_5 | h_6 | h_7 =>
          rcases Option.map_eq_some_iff.1 turned with ⟨targets, childrenTurned, rfl⟩
          have inside := isNeatTarget_of_toTargets? (neat.inside rfl (by simp)) kempt.inside
            childrenTurned
          have own := fun kind composed => neat.toPattern rfl (by simp) kind composed
            (by rintro rfl; simpa [toTargets?] using childrenTurned.symm) inside.1
            (fun target member => (inside.2 target member).1)
          exact ⟨own _ rfl, .node (fun _ => own _ rfl) nofun
            fun target member => (inside.2 target member).2, rfl⟩
      case h_11 => cases turned
      all_goals
        cases turned
        exact ⟨neat, kempt, rfl⟩

theorem isNeatTarget_of_toTargets? : {trees targets : List Tree} → (∀ tree ∈ trees, tree.Neat) →
    (∀ tree ∈ trees, tree.Kempt) → toTargets? trees = some targets →
    ((∃ tree ∈ trees, tree.isSeen = true) → ∃ target ∈ targets, target.isSeen = true) ∧
      ∀ target ∈ targets, target.Neat ∧ target.Kempt
  | [], _, _, _, turned => by
      cases turned
      simp
  | tree :: trees, _, neat, kempt, turned => by
      simp only [toTargets?, Option.bind_eq_bind, Option.bind_eq_some_iff, Option.pure_def,
        Option.some.injEq] at turned
      rcases turned with ⟨target, first, targets, others, rfl⟩
      rcases List.forall_mem_cons.1 neat with ⟨ownNeat, restNeat⟩
      rcases List.forall_mem_cons.1 kempt with ⟨ownKempt, restKempt⟩
      have own := isNeatTarget_of_toTarget? ownNeat ownKempt first
      have rest := isNeatTarget_of_toTargets? restNeat restKempt others
      refine ⟨?_, List.forall_mem_cons.2 ⟨⟨own.neat, own.kempt⟩, rest.2⟩⟩
      rintro ⟨seen, member, isSeen⟩
      rcases List.mem_cons.1 member with rfl | later
      · exact ⟨target, List.mem_cons_self, own.seen.trans isSeen⟩
      · obtain ⟨found, foundMem, foundSeen⟩ := rest.1 ⟨seen, later, isSeen⟩
        exact ⟨found, List.mem_cons_of_mem _ foundMem, foundSeen⟩

end

end Tree

/-! ## Sights -/

/-- What is known of the trees in scope. -/
structure Sight where
  /-- Something is surely to be seen. -/
  seen : Bool
  /-- There may be blocks. -/
  blocks : Bool
  /-- There may be anything. -/
  rough : Bool
deriving DecidableEq

namespace Sight

/-- Nothing is in scope. -/
def nothing : Sight :=
  ⟨false, false, false⟩

/-- There are neat trees only, and something to be seen among them. -/
def fragment : Sight :=
  ⟨true, false, false⟩

/-- What is known if one of two sights is right. -/
def either (first second : Sight) : Sight :=
  ⟨first.seen && second.seen, first.blocks || second.blocks, first.rough || second.rough⟩

/-- What is known of two scopes together. -/
def together (first second : Sight) : Sight :=
  ⟨first.seen || second.seen, first.blocks || second.blocks, first.rough || second.rough⟩

/-- Whether what one sight says follows from another. -/
def follows (second first : Sight) : Bool :=
  (!second.seen || first.seen) && (!first.blocks || second.blocks) &&
    (!first.rough || second.rough)

/-- One more token. -/
def token (sight : Sight) (seen : Bool) : Sight :=
  { sight with seen := sight.seen || seen }

/-- The scope that a node leaves when all that was in scope is put into it. -/
def node (label : Label) (inner : Sight) : Option Sight :=
  if label.isSingle then none
  else if label = .construct .block then some ⟨false, true, false⟩
  else if label.isFragment || label ∈ [.literal "not in", .literal "is not"] then
    if inner = fragment then some fragment else none
  else if label.isHandler && inner.rough then none
  else some ⟨false, false, true⟩

theorem either_eq_of_follows {all again : Sight} (follows : all.follows again = true) :
    all.either again = all := by
  rcases all with ⟨seen, blocks, rough⟩
  rcases again with ⟨seen', blocks', rough'⟩
  revert follows
  cases seen <;> cases blocks <;> cases rough <;> cases seen' <;> cases blocks' <;>
    cases rough' <;> decide

end Sight

namespace Rule

variable {σ : Type}

/-- Whether a rule reads a string literal from its opening to its closing mark. -/
def isQuoted : Rule σ → Bool
  | .seq .openQuote (.seq _ .closeQuote) => true
  | _ => false

/-- What is known of the scope after a rule, given what is known before it and what
symbols add.  There is no sight where a fragment would not be neat. -/
def sight (adds : σ → Sight) : Rule σ → Sight → Option Sight
  | .fail, _ => some .fragment
  | .operator texts kind, before =>
      if kind.any layoutKinds.contains then none
      else some (before.token (kind.isSome || !texts.contains ","))
  | .word text kind, before =>
      if kind.any layoutKinds.contains || !isTight text then none
      else some (before.token (kind.isSome || text != ","))
  | .exactly text, before =>
      if isTight text then some (before.token (text != ",")) else none
  | .name _, before | .number, before => some (before.token true)
  | .openQuote, before | .quotedText, before | .closeQuote, before | .conversion, before
  | .formatText, before => some { before with rough := true }
  | .seq first second, before => (first.sight adds before).bind (second.sight adds)
  | .alt first second, before | .branch _ first second, before =>
      (first.sight adds before).bind fun left =>
        (second.sight adds before).map fun right => left.either right
  | .many rule, before =>
      (rule.sight adds before).bind fun once =>
        let all := before.either once
        (rule.sight adds all).bind fun again => if all.follows again then some all else none
  | .scope rule, before => (rule.sight adds .nothing).map fun inner => inner.together before
  | .wrap label rule, before => (rule.sight adds before).bind (Sight.node label)
  | .wrapBy _ rule, before =>
      (rule.sight adds before).bind fun inner =>
        if inner = .fragment then some .fragment else none
  | .literal rule, before =>
      if isQuoted rule then (rule.sight adds .nothing).map fun _ => before.token true else none
  | .targets, before => if before = .fragment then some .fragment else none
  | .within _ _ rule, before | .conditional rule, before => rule.sight adds before
  | .emptyBlock, before => some { before with blocks := true }
  | .call symbol, before => some ((adds symbol).together before)
  | .empty, before | .gap _, before | .follow, before | .resume, before | .role _, before
  | .check _, before | .lineEnd, before | .indent, before | .dedent, before
  | .textEnd, before => some before

/-- Read after anything, the rule adds no more than a sight. -/
def addsSight (adds : σ → Sight) (rule : Rule σ) (added : Sight) : Bool :=
  [false, true].all fun seen => [false, true].all fun blocks => [false, true].all fun rough =>
    (rule.sight adds ⟨seen, blocks, rough⟩).any fun after =>
      (added.together ⟨seen, blocks, rough⟩).follows after

end Rule

/-! ## What sights mean -/

/-- A tree that may be in scope. -/
def Sight.Admits (sight : Sight) (tree : Tree) : Prop :=
  tree.Neat ∨ (sight.blocks = true ∧ tree.is .block = true) ∨ sight.rough = true

/-- What is known of the trees in scope is true. -/
structure Sight.Holds (sight : Sight) (trees : List Tree) : Prop where
  seen : sight.seen = true → ∃ tree ∈ trees, tree.isSeen = true
  admits : ∀ tree ∈ trees, sight.Admits tree
  kempt : ∀ tree ∈ trees, tree.Kempt

namespace Sight

theorem Admits.mono {first second : Sight} {tree : Tree} (admits : first.Admits tree)
    (blocks : first.blocks = true → second.blocks = true)
    (rough : first.rough = true → second.rough = true) : second.Admits tree := by
  rcases admits with neat | ⟨allowed, block⟩ | anything
  · exact Or.inl neat
  · exact Or.inr (Or.inl ⟨blocks allowed, block⟩)
  · exact Or.inr (Or.inr (rough anything))

theorem Admits.neat {tree : Tree} (admits : fragment.Admits tree) : tree.Neat := by
  simpa [Admits, fragment] using admits

namespace Holds

variable {first second sight : Sight} {trees new : List Tree}

theorem nil : nothing.Holds [] :=
  ⟨nofun, by simp, by simp⟩

/-- What follows from a true sight is true. -/
theorem of_follows (holds : first.Holds trees) (follows : second.follows first = true) :
    second.Holds trees := by
  simp only [Sight.follows, Bool.and_eq_true, Bool.or_eq_true, Bool.not_eq_true'] at follows
  rcases follows with ⟨⟨seen, blocks⟩, rough⟩
  have implied {a b : Bool} (either : a = false ∨ b = true) : a = true → b = true := by
    rintro rfl
    simpa using either
  refine ⟨fun claimed => holds.seen (implied seen claimed), ?_, holds.kempt⟩
  intro tree member
  exact (holds.admits tree member).mono (implied blocks) (implied rough)

theorem left (holds : first.Holds trees) (second : Sight) : (first.either second).Holds trees :=
  holds.of_follows (by
    rcases first with ⟨seen, blocks, rough⟩
    cases seen <;> cases blocks <;> cases rough <;> simp [Sight.follows, either])

theorem right (holds : second.Holds trees) (first : Sight) : (first.either second).Holds trees :=
  holds.of_follows (by
    rcases second with ⟨seen, blocks, rough⟩
    cases seen <;> cases blocks <;> cases rough <;> simp [Sight.follows, either])

/-- Two scopes put together. -/
theorem together (newer : first.Holds new) (older : second.Holds trees) :
    (first.together second).Holds (new ++ trees) := by
  have widened (tree : Tree) (member : tree ∈ new ++ trees) :
      (first.together second).Admits tree ∧ tree.Kempt := by
    rcases List.mem_append.1 member with here | here
    · exact ⟨(newer.admits tree here).mono (by simp_all [Sight.together])
        (by simp_all [Sight.together]), newer.kempt tree here⟩
    · exact ⟨(older.admits tree here).mono (by simp_all [Sight.together])
        (by simp_all [Sight.together]), older.kempt tree here⟩
  refine ⟨?_, fun tree member => (widened tree member).1, fun tree member =>
    (widened tree member).2⟩
  intro seen
  rcases Bool.or_eq_true_iff.1 seen with here | here
  · obtain ⟨tree, member, isSeen⟩ := newer.seen here
    exact ⟨tree, List.mem_append_left _ member, isSeen⟩
  · obtain ⟨tree, member, isSeen⟩ := older.seen here
    exact ⟨tree, List.mem_append_right _ member, isSeen⟩

/-- One more neat tree. -/
theorem token (holds : sight.Holds trees) {tree : Tree} {seen : Bool} (neat : tree.Neat)
    (kempt : tree.Kempt) (isSeen : seen = true → tree.isSeen = true) :
    (sight.token seen).Holds (tree :: trees) := by
  have one : (⟨seen, false, false⟩ : Sight).Holds [tree] :=
    ⟨fun claimed => ⟨tree, by simp, isSeen claimed⟩, by simp [Admits, neat], by simp [kempt]⟩
  have both := one.together holds
  rw [Sight.together, Bool.or_comm seen] at both
  simpa [Sight.token] using both

/-- One more tree of any sort. -/
theorem roughen (holds : sight.Holds trees) {tree : Tree} (kempt : tree.Kempt) :
    Sight.Holds { sight with rough := true } (tree :: trees) := by
  refine ⟨?_, fun _ _ => Or.inr (Or.inr rfl), List.forall_mem_cons.2 ⟨kempt, holds.kempt⟩⟩
  intro seen
  obtain ⟨found, member, isSeen⟩ := holds.seen seen
  exact ⟨found, List.mem_cons_of_mem _ member, isSeen⟩

theorem withField (holds : sight.Holds trees) (field : Field) :
    sight.Holds (trees.map (Tree.withField field)) := by
  refine ⟨fun claimed => ?_, fun tree member => ?_, fun tree member => ?_⟩
  · obtain ⟨tree, member, seen⟩ := holds.seen claimed
    exact ⟨tree.withField field, List.mem_map_of_mem member,
      (isSeen_withField tree field).trans seen⟩
  · rcases List.mem_map.1 member with ⟨plain, plainMem, rfl⟩
    rcases holds.admits plain plainMem with neat | ⟨allowed, block⟩ | anything
    · exact Or.inl (neat.withField field)
    · refine Or.inr (Or.inl ⟨allowed, ?_⟩)
      cases plain
      exact block
    · exact Or.inr (Or.inr anything)
  · rcases List.mem_map.1 member with ⟨plain, plainMem, rfl⟩
    exact (holds.kempt plain plainMem).withField field

end Holds

end Sight

/-! ## Nodes -/

theorem isSeen_of_isFragment {tree : Tree} (fragment : tree.label.isFragment = true) :
    tree.isSeen = true := by
  rcases tree with ⟨label, field, span, text, children⟩
  cases label with
  | literal => cases fragment
  | construct kind => cases kind <;> first | rfl | cases fragment

theorem isFragment_of_isTold {kind : Kind} (told : isTold kind = true) :
    (Label.construct kind).isFragment = true ∧ (Label.construct kind).isSingle = false := by
  cases kind <;> first | exact ⟨rfl, rfl⟩ | cases told

theorem kempt_leaf {label : Label} {span : Span} {text : String}
    (fragment : label.isFragment = true → (leaf label span text).Neat) :
    (leaf label span text).Kempt :=
  .node fragment (by simp) (by simp)

theorem kempt_gather {label : Label} {text : String} {trees : List Tree} {state : State}
    (fragment : label.isFragment = true → (gather label text trees state).Neat)
    (handler : label.isHandler = true → ∀ tree ∈ trees, tree.Neat ∨ tree.is .block)
    (inside : ∀ tree ∈ trees, tree.Kempt) : (gather label text trees state).Kempt := by
  refine .node fragment (fun is child member => ?_) fun child member => ?_
  · exact handler is child (List.mem_reverse.1 member)
  · exact inside child (List.mem_reverse.1 member)

/-- A node of neat trees, with something to be seen among them, is neat. -/
theorem neat_gather {label : Label} {text : String} {trees : List Tree} {state : State}
    (holds : Sight.fragment.Holds trees) (composed : label.isSingle = false) :
    (gather label text trees state).Neat := by
  obtain ⟨tree, member, seen⟩ := holds.seen rfl
  refine .node composed ⟨tree, List.mem_reverse.2 member, seen⟩ fun child childMem => ?_
  exact (holds.admits child (List.mem_reverse.1 childMem)).neat

theorem isHandler_of_isFragment {label : Label} (fragment : label.isFragment = true) :
    label.isHandler = false := by
  rw [← Bool.not_eq_true, Label.isHandler, Bool.or_eq_true, beq_iff_eq, beq_iff_eq]
  rintro (rfl | rfl) <;> cases fragment

/-- A fragment that was just made. -/
theorem holds_fragment {label : Label} {text : String} {trees : List Tree} {state : State}
    (holds : Sight.fragment.Holds trees) (composed : label.isSingle = false)
    (allowed : label.isFragment = true ∨ label ∈ [.literal "not in", .literal "is not"]) :
    Sight.fragment.Holds [gather label text trees state] := by
  have shown : (gather label text trees state).isSeen = true ∧ label.isHandler = false := by
    rcases allowed with fragment | listed
    · exact ⟨isSeen_of_isFragment fragment, isHandler_of_isFragment fragment⟩
    · simp only [List.mem_cons, List.not_mem_nil, or_false] at listed
      rcases listed with rfl | rfl <;> exact ⟨rfl, rfl⟩
  obtain ⟨seen, noHandler⟩ := shown
  have neat : (gather label text trees state).Neat := neat_gather holds composed
  refine ⟨fun _ => ⟨_, by simp, seen⟩, by simp [Sight.Admits, neat], ?_⟩
  intro tree member
  rw [List.mem_singleton.1 member]
  exact kempt_gather (fun _ => neat) (by simp [noHandler]) holds.kempt

/-- What is known of a node that is made of all that is in scope is true. -/
theorem holds_gather {label : Label} {inner made : Sight} {trees : List Tree}
    (makes : Sight.node label inner = some made) (holds : inner.Holds trees) (text : String)
    (state : State) : made.Holds [gather label text trees state] := by
  rw [Sight.node, Option.ite_none_left_eq_some, Bool.not_eq_true] at makes
  rcases makes with ⟨composed, makes⟩
  split at makes
  · rename_i block
    cases makes
    cases block
    refine ⟨(absurd · Bool.false_ne_true), by simp [Sight.Admits, gather, is, label], ?_⟩
    intro tree member
    rw [List.mem_singleton.1 member]
    exact kempt_gather (absurd · Bool.false_ne_true) (absurd · Bool.false_ne_true) holds.kempt
  · split at makes
    · rename_i allowed
      rw [Option.ite_none_right_eq_some] at makes
      rcases makes with ⟨rfl, same⟩
      cases same
      exact holds_fragment holds composed (by simpa using allowed)
    · rename_i other
      rw [Option.ite_none_left_eq_some] at makes
      rcases makes with ⟨tidy, same⟩
      cases same
      refine ⟨(absurd · Bool.false_ne_true), fun _ _ => Or.inr (Or.inr rfl), ?_⟩
      intro tree member
      rw [List.mem_singleton.1 member]
      refine kempt_gather (fun fragment => absurd fragment ?_) (fun handler => ?_) holds.kempt
      · intro fragment
        simp [fragment] at other
      · intro child childMem
        rcases holds.admits child childMem with neat | ⟨-, block⟩ | rough
        · exact Or.inl neat
        · exact Or.inr block
        · simp [handler, rough] at tidy

theorem holds_of_retarget {trees patterns : List Tree} {state : State}
    (holds : Sight.fragment.Holds trees) (turned : retarget trees state = some patterns) :
    Sight.fragment.Holds patterns := by
  rcases Option.map_eq_some_iff.1 turned with ⟨targets, targetsEq, rfl⟩
  obtain ⟨seen, made⟩ := isNeatTarget_of_toTargets?
    (fun tree member => (holds.admits tree member).neat) holds.kempt targetsEq
  have turnedHolds : Sight.fragment.Holds targets :=
    ⟨fun claimed => seen (holds.seen claimed), fun tree member => Or.inl (made tree member).1,
      fun tree member => (made tree member).2⟩
  split
  · exact holds_fragment turnedHolds rfl (Or.inl rfl)
  · exact turnedHolds

/-! ## Readings -/

namespace Rule

variable {σ : Type} {grammar : σ → Rule σ} {adds : σ → Sight}

/-- A token that stands for itself or for a construct is neat, if its text is tight. -/
theorem holds_spelled {kind : Option Kind} {text : String} {length : Nat} {state : State}
    {before : Sight} {trees : List Tree} {seen : Bool} (holds : before.Holds trees)
    (known : kind.any layoutKinds.contains = false) (tight : isTight text = true)
    (spelled : (tokenLeaf ((kind.map Label.construct).getD (.literal text)) length state).text =
      text)
    (noComma : seen = true → kind.isSome = true ∨ text ≠ ",") :
    (before.token seen).Holds
      (tokenLeaf ((kind.map Label.construct).getD (.literal text)) length state :: trees) := by
  have neat : (tokenLeaf ((kind.map Label.construct).getD (.literal text)) length state).Neat := by
    refine .token (Or.inl rfl) ?_ ?_
    · exact (congrArg (fun text => isTight text) spelled).trans tight
    · cases kind with
      | none => exact spelled
      | some => trivial
  refine holds.token neat (kempt_leaf fun _ => neat) fun claimed => ?_
  cases kind with
  | none =>
      have other : text ≠ "," := by simpa using noComma claimed
      simpa [isSeen, isLayout, is, isLiteral, tokenLeaf, leaf, label] using other
  | some kind =>
      simpa [isSeen, isLayout, is, isLiteral, tokenLeaf, leaf, label, layoutKinds] using known

theorem neat_construct {kind : Kind} {length : Nat} {state : State}
    (tight : isTight (tokenLeaf (.construct kind) length state).text = true) :
    (tokenLeaf (.construct kind) length state).Neat :=
  .token (Or.inl rfl) tight trivial

/-- What is known after reading a token is true. -/
theorem Spells.holds {rule : Rule σ} {state opened : State} {label : Label} {length : Nat}
    (spells : Spells rule state label length opened) {before after : Sight} {trees : List Tree}
    (holds : before.Holds trees) (sees : rule.sight adds before = some after) :
    after.Holds (tokenLeaf label length opened :: trees) := by
  cases spells with
  | @operator texts kind _ text next listed =>
      rw [sight, Option.ite_none_left_eq_some] at sees
      rcases sees with ⟨known, same⟩
      cases same
      obtain ⟨operator, here⟩ := Lexeme.operator_eq_some next
      refine holds_spelled holds (by simpa using known)
        (Lexeme.isTight_of_mem_operators operator) (text_tokenLeaf_of_isPrefix here) ?_
      rintro claimed
      rcases Bool.or_eq_true_iff.1 claimed with construct | noComma
      · exact Or.inl construct
      · refine Or.inr ?_
        rintro rfl
        simp_all
  | @exactly text _ next =>
      rw [sight, Option.ite_none_right_eq_some] at sees
      rcases sees with ⟨tight, same⟩
      cases same
      exact @holds_spelled none text _ _ _ _ _ holds rfl tight
        (text_tokenLeaf_of_isPrefix (List.isPrefixOf_iff_prefix.1 next))
        (by simp)
  | @word text kind _ next =>
      rw [sight, Option.ite_none_left_eq_some] at sees
      rcases sees with ⟨known, same⟩
      cases same
      rw [Bool.or_eq_true, not_or, Bool.not_eq_true, Bool.not_eq_true, Bool.not_eq_false']
        at known
      exact holds_spelled holds known.1 known.2
        (text_tokenLeaf_of_isPrefix (prefix_of_word_eq next)) (by simp)
  | name present =>
      cases sees
      have neat := neat_construct (isTight_nameLeaf present)
      exact holds.token neat (kempt_leaf fun _ => neat) fun _ => rfl
  | @number _ kind _ next =>
      cases sees
      have neat := neat_construct (isTight_numberLeaf next)
      refine holds.token neat (kempt_leaf fun _ => neat) fun _ => ?_
      rcases (Lexeme.visibleFor_number next).1 with rfl | rfl <;> rfl
  | openQuote | quotedText | closeQuote | conversion | formatText =>
      cases sees
      exact holds.roughen (kempt_leaf nofun)

theorem Skips.holds {gap : Gap} {trees trees' : List Tree} {state state' : State}
    (skips : Skips gap trees state trees' state') {sight : Sight} (holds : sight.Holds trees) :
    sight.Holds trees' := by
  rcases skips.exists_added with ⟨added, rfl, plain⟩
  have layout : Sight.nothing.Holds added := by
    refine ⟨nofun, fun tree member => ?_, fun tree member => ?_⟩ <;>
      obtain ⟨kind, listed, span, text, rfl⟩ := plain tree member <;>
      simp only [layoutKinds, List.mem_cons, List.not_mem_nil, or_false] at listed
    · exact Or.inl (.layout (by rcases listed with rfl | rfl <;> rfl))
    · refine kempt_leaf fun seen => ?_
      rcases listed with rfl | rfl <;> cases seen
  simpa [Sight.together, Sight.nothing] using layout.together holds

/-- A symbol adds no more than its sight, whatever is in scope before. -/
theorem exists_sight_of_addsSight {rule : Rule σ} {added : Sight}
    (lawful : rule.addsSight adds added = true) (before : Sight) :
    ∃ after, rule.sight adds before = some after ∧
      (added.together before).follows after = true := by
  rcases before with ⟨seen, blocks, rough⟩
  simp only [addsSight, List.all_cons, List.all_nil, Bool.and_true, Bool.and_eq_true,
    Option.any_eq_true] at lawful
  cases seen <;> cases blocks <;> cases rough <;> simp only [lawful]

theorem isTight_of_isQuoted {rule : Rule σ} {mode : Mode} {state state' : State}
    {inner : List Tree} (quoted : rule.isQuoted = true) (marked : state.IsMarked)
    (reads : Reads grammar rule mode [] state inner state') :
    isTight (state.cursor.textTo state'.cursor) = true := by
  unfold isQuoted at quoted
  split at quoted
  · exact isTight_of_quoted marked reads
  · cases quoted

theorem sight_many {rule : Rule σ} {before all : Sight}
    (sees : (Rule.many rule).sight adds before = some all) :
    ∃ once, rule.sight adds before = some once ∧ all = before.either once ∧
      (Rule.many rule).sight adds all = some all := by
  rw [sight, Option.bind_eq_some_iff] at sees
  rcases sees with ⟨once, first, later⟩
  rw [Option.bind_eq_some_iff] at later
  rcases later with ⟨again, second, closed⟩
  rw [Option.ite_none_right_eq_some] at closed
  rcases closed with ⟨follows, same⟩
  cases same
  refine ⟨once, first, rfl, ?_⟩
  simp only [sight, second, Option.bind_some, Sight.either_eq_of_follows follows, follows, if_true]

/-- What is known after reading a rule is true. -/
theorem Reads.holds (makesAll : ∀ symbol, MakesHeads grammar false (grammar symbol))
    (lawful : ∀ symbol, (grammar symbol).addsSight adds (adds symbol) = true)
    {rule : Rule σ} {mode : Mode} {trees trees' : List Tree} {state state' : State}
    (reads : Reads grammar rule mode trees state trees' state') {fresh : Bool}
    (makes : MakesHeads grammar fresh rule) (marked : state.IsMarked) {before after : Sight}
    (sees : rule.sight adds before = some after) (holds : before.Holds trees) :
    after.Holds trees' := by
  induction reads generalizing fresh before after with
  | empty | check | lineEnd | indent | dedent | textEnd =>
      cases sees
      exact holds
  | token spells => exact spells.holds holds sees
  | gap skips | follow skips | resume skips =>
      cases sees
      exact skips.holds holds
  | seq readsLeft _ left right =>
      rcases Option.bind_eq_some_iff.1 sees with ⟨middle, first, second⟩
      exact right makes.2 (readsLeft.onward.marked marked) second (left makes.1 marked first holds)
  | first _ taken =>
      simp only [sight, Option.bind_eq_some_iff, Option.map_eq_some_iff] at sees
      rcases sees with ⟨left, seesLeft, right, -, rfl⟩
      exact (taken makes.1 marked seesLeft holds).left right
  | second _ taken =>
      simp only [sight, Option.bind_eq_some_iff, Option.map_eq_some_iff] at sees
      rcases sees with ⟨left, -, right, seesRight, rfl⟩
      exact (taken makes.2 marked seesRight holds).right left
  | branchYes _ _ _ taken =>
      simp only [sight, Option.bind_eq_some_iff, Option.map_eq_some_iff] at sees
      rcases sees with ⟨left, seesLeft, right, -, rfl⟩
      exact (taken makes.1 marked seesLeft holds).left right
  | branchNo _ taken =>
      simp only [sight, Option.bind_eq_some_iff, Option.map_eq_some_iff] at sees
      rcases sees with ⟨left, -, right, seesRight, rfl⟩
      exact (taken makes.2 marked seesRight holds).right left
  | manyNone =>
      obtain ⟨once, -, rfl, -⟩ := sight_many sees
      exact holds.left once
  | manyLast _ taken =>
      obtain ⟨once, seesOnce, rfl, -⟩ := sight_many sees
      exact (taken makes marked seesOnce holds).right before
  | manyMore readsOnce _ taken more =>
      obtain ⟨once, seesOnce, rfl, seesMore⟩ := sight_many sees
      exact @more false makes (readsOnce.onward.marked marked) _ _ seesMore
        ((taken makes marked seesOnce holds).right before)
  | scope _ inside =>
      rcases Option.map_eq_some_iff.1 sees with ⟨inner, seesInner, rfl⟩
      exact (inside makes marked seesInner .nil).together holds
  | wrap _ inside =>
      rcases Option.bind_eq_some_iff.1 sees with ⟨inner, seesInner, made⟩
      exact holds_gather made (inside makes.1 marked seesInner holds) _ _
  | wrapBySome _ told inside =>
      rcases Option.bind_eq_some_iff.1 sees with ⟨inner, seesInner, made⟩
      rw [Option.ite_none_right_eq_some] at made
      rcases made with ⟨rfl, same⟩
      cases same
      obtain ⟨fragment, composed⟩ := isFragment_of_isTold (makes.2 _ _ told)
      exact holds_fragment (inside makes.1 marked seesInner holds) composed (Or.inl fragment)
  | wrapByNone _ _ inside =>
      rcases Option.bind_eq_some_iff.1 sees with ⟨inner, seesInner, made⟩
      rw [Option.ite_none_right_eq_some] at made
      rcases made with ⟨rfl, same⟩
      cases same
      exact inside makes.1 marked seesInner holds
  | @literal rule _ trees state inner state' readsInside inside =>
      rw [sight, Option.ite_none_right_eq_some] at sees
      rcases sees with ⟨quoted, known⟩
      rcases Option.map_eq_some_iff.1 known with ⟨innerSight, seesInner, rfl⟩
      have innerHolds := inside makes marked seesInner .nil
      have neat : (gather (.construct .string) (state.cursor.textTo state'.cursor) inner
          state').Neat :=
        .token (Or.inr rfl) (isTight_of_isQuoted quoted marked readsInside) trivial
      exact holds.token neat (kempt_gather (fun _ => neat) nofun innerHolds.kempt) fun _ => rfl
  | role =>
      cases sees
      exact holds.withField _
  | targets turned =>
      rw [sight, Option.ite_none_right_eq_some] at sees
      rcases sees with ⟨rfl, same⟩
      cases same
      exact holds_of_retarget holds turned
  | within _ inside => exact inside makes marked sees holds
  | conditional _ _ inside => exact inside makes marked sees holds
  | @emptyBlock _ _ state =>
      cases sees
      have block : (⟨false, true, false⟩ : Sight).Holds [gather (.construct .block) "" [] state] :=
        holds_gather rfl .nil "" state
      simpa [Sight.together] using block.together holds
  | @call symbol _ _ _ _ _ _ inside =>
      cases sees
      obtain ⟨added, seesSymbol, follows⟩ := exists_sight_of_addsSight (lawful symbol) before
      exact (inside (makesAll symbol) marked seesSymbol holds).of_follows follows

end Rule

namespace Grammar

/-- What a symbol adds to a scope. -/
def addedSight : Symbol → Sight
  | .statement | .simpleStatement | .simpleStatements => ⟨false, false, true⟩
  | .statements | .elifTail | .elseTail | .exceptTail | .exceptGroupTail
  | .afterHandlers | .functionDefinition | .classDefinition => ⟨false, false, true⟩
  | .suite => ⟨false, true, false⟩
  | .interpolation | .formatExpression => ⟨false, false, true⟩
  | _ => .fragment

theorem addsSight_rule (symbol : Symbol) :
    (rule symbol).addsSight addedSight (addedSight symbol) = true := by
  cases symbol <;> decide +kernel

end Grammar

/-- In the tree of a text every fragment is neat. -/
theorem kempt_of_parse {text : String} {tree : Tree} (parsed : parse text = .ok tree) :
    tree.Kempt := by
  unfold parse at parsed
  split at parsed
  · rename_i trees state read
    cases parsed
    have makes : Rule.MakesHeads Grammar.rule false
        (.seq (.call .statements) .textEnd : Rule Symbol) := ⟨trivial, trivial⟩
    have holds := (Rule.reads_of_run read).holds Grammar.makesHeads_rule Grammar.addsSight_rule
      makes (by simp [State.IsMarked]) rfl .nil
    refine .node nofun nofun fun child member => ?_
    exact holds.kempt child (List.mem_reverse.1 member)
  · cases parsed

end SemanticDiff.Source
