import SemanticDiff.Proofs.Source.Fragment
import SemanticDiff.Proofs.Source.Marking

/-!
# Where handlers stand

In the tree of a text the handlers of exceptions are parts of `try` statements, and stand
nowhere else.
-/

namespace SemanticDiff.Source

open Source.Tree
open Rule (State gather retarget isTold)

/-- A handler may only stand in a `try` statement. -/
def HoldsHandlers (label : Label) (children : List Tree) : Prop :=
  ∀ child ∈ children, child.label.isHandler = true → label = .construct .tryStatement

namespace Tree

theorem obeys_node_iff {asks : Label → List Tree → Prop} {label : Label} {field : Option Field}
    {span : Span} {text : String} {children : List Tree} :
    (node label field span text children).Obeys asks ↔
      asks label children ∧ ∀ child ∈ children, child.Obeys asks := by
  rw [obeys_node, allObey_iff]

theorem Obeys.asked {asks : Label → List Tree → Prop} {tree : Tree} (obeys : tree.Obeys asks) :
    asks tree.label tree.children := by
  cases tree
  exact (obeys_node_iff.1 obeys).1

theorem Obeys.of_mem {asks : Label → List Tree → Prop} {tree child : Tree}
    (obeys : tree.Obeys asks) (member : child ∈ tree.children) : child.Obeys asks := by
  cases tree
  exact (obeys_node_iff.1 obeys).2 child member

mutual

/-- A target is made as it should be, and is no handler. -/
theorem Obeys.target : {tree target : Tree} → tree.Obeys HoldsHandlers →
    tree.label.isHandler = false → tree.toTarget? = some target →
    target.Obeys HoldsHandlers ∧ target.label.isHandler = false
  | node label field span text children, target, obeys, other, turned => by
      obtain ⟨holds, inside⟩ := obeys_node_iff.1 obeys
      unfold toTarget? at turned
      split at turned
      case h_4 =>
          rw [Option.ite_none_right_eq_some] at turned
          rcases turned with ⟨-, same⟩
          cases same
          refine ⟨obeys_node_iff.2 ⟨fun child member handles => ?_, inside⟩, rfl⟩
          cases holds child member handles
      case h_5 | h_6 | h_7 =>
          rcases Option.map_eq_some_iff.1 turned with ⟨targets, childrenTurned, rfl⟩
          have plain : ∀ child ∈ children, child.label.isHandler = false := by
            intro child member
            rw [← Bool.not_eq_true]
            intro handles
            cases holds child member handles
          have made := targets_of_toTargets? inside plain childrenTurned
          refine ⟨obeys_node_iff.2 ⟨fun child member handles => ?_, fun child member =>
            (made child member).1⟩, rfl⟩
          rw [(made child member).2] at handles
          cases handles
      case h_11 => cases turned
      all_goals
        cases turned
        exact ⟨obeys, other⟩

theorem targets_of_toTargets? : {trees targets : List Tree} →
    (∀ tree ∈ trees, tree.Obeys HoldsHandlers) →
    (∀ tree ∈ trees, tree.label.isHandler = false) → toTargets? trees = some targets →
    ∀ target ∈ targets, target.Obeys HoldsHandlers ∧ target.label.isHandler = false
  | [], _, _, _, turned => by
      cases turned
      simp
  | tree :: trees, _, obey, other, turned => by
      simp only [toTargets?, Option.bind_eq_bind, Option.bind_eq_some_iff, Option.pure_def,
        Option.some.injEq] at turned
      rcases turned with ⟨target, first, targets, others, rfl⟩
      rw [List.forall_mem_cons] at obey other
      exact List.forall_mem_cons.2
        ⟨obey.1.target other.1 first, targets_of_toTargets? obey.2 other.2 others⟩

end

end Tree

/-! ## Marking the handlers -/

/-- The marking of handlers: there is one mark, and only handlers have it. -/
def handlerMarking : Marking Unit where
  token kind :=
    if ((kind.map Label.construct).getD (.literal "")).isHandler then none else some []
  node label parts :=
    if parts.isEmpty || label = .construct .tryStatement then
      some (if label.isHandler then [()] else [])
    else none
  told parts := if parts.isEmpty then some [] else none
  role _ parts := some parts
  targets parts := if parts.isEmpty then some [] else none

/-- The tree is made as it should be, and without the mark it is no handler. -/
def IsMarkedHandler (marks : List Unit) (tree : Tree) : Prop :=
  tree.Obeys HoldsHandlers ∧ (tree.label.isHandler = true → marks ≠ [])

theorem obeys_gather_of_marked {label : Label} {text : String} {trees : List Tree} {state : State}
    {parts : List Unit} (holds : parts = [] ∨ label = .construct .tryStatement)
    (marked : ∀ tree ∈ trees, IsMarkedHandler parts tree) :
    (gather label text trees state).Obeys HoldsHandlers := by
  rw [gather, obeys_node_iff]
  constructor
  · intro child member handles
    exact holds.resolve_left ((marked child (List.mem_reverse.1 member)).2 handles)
  · intro child member
    exact (marked child (List.mem_reverse.1 member)).1

/-- Without the mark a tree is no handler. -/
theorem IsMarkedHandler.isHandler_eq_false {tree : Tree} (marked : IsMarkedHandler [] tree) :
    tree.label.isHandler = false := by
  rw [← Bool.not_eq_true]
  exact fun handles => marked.2 handles rfl

theorem isMarkedHandler_of_retarget {trees patterns : List Tree} {state : State}
    (marked : ∀ tree ∈ trees, IsMarkedHandler [] tree)
    (turned : retarget trees state = some patterns) :
    ∀ tree ∈ patterns, IsMarkedHandler [] tree := by
  rcases Option.map_eq_some_iff.1 turned with ⟨targets, targetsEq, rfl⟩
  have made : ∀ target ∈ targets, IsMarkedHandler [] target := by
    intro target member
    obtain ⟨obeys, other⟩ := targets_of_toTargets? (fun tree member => (marked tree member).1)
      (fun tree member => (marked tree member).isHandler_eq_false) targetsEq target member
    exact ⟨obeys, fun handles => by simp [other] at handles⟩
  split
  · intro tree member
    rw [List.mem_singleton.1 member]
    exact ⟨obeys_gather_of_marked (Or.inl rfl) made, nofun⟩
  · exact made

/-- Where a kind is told, the node is no handler. -/
theorem isHandler_of_isTold {kind : Kind} (told : isTold kind = true) :
    (Label.construct kind).isHandler = false := by
  cases kind <;> first | rfl | cases told

theorem sound_handlerMarking : handlerMarking.Sound IsMarkedHandler where
  mono := by
    rintro marks more tree ⟨obeys, marked⟩ larger
    refine ⟨obeys, fun handles empty => marked handles ?_⟩
    subst empty
    exact List.eq_nil_iff_forall_not_mem.2 fun mark member =>
      List.not_mem_nil (larger mark member)
  token := by
    intro kind made makes literal span text
    simp only [handlerMarking, Option.ite_none_left_eq_some] at makes
    refine ⟨obeys_node_iff.2 ⟨List.forall_mem_nil _, List.forall_mem_nil _⟩, fun handles => ?_⟩
    cases kind with
    | none => cases handles
    | some kind => exact absurd handles makes.1
  node := by
    intro label parts made makes trees marked text state
    simp only [handlerMarking, Option.ite_none_right_eq_some, Bool.or_eq_true,
      List.isEmpty_iff, decide_eq_true_eq, Option.some.injEq] at makes
    obtain ⟨holds, rfl⟩ := makes
    refine ⟨obeys_gather_of_marked holds marked, fun handles => ?_⟩
    rw [if_pos (show label.isHandler = true from handles)]
    exact List.cons_ne_nil _ _
  told := by
    intro kind parts made makes told trees marked state
    simp only [handlerMarking, Option.ite_none_right_eq_some, List.isEmpty_iff] at makes
    refine ⟨obeys_gather_of_marked (Or.inl makes.1) marked, fun handles => ?_⟩
    cases (isHandler_of_isTold told).symm.trans handles
  role := by
    intro field parts made makes tree marked
    cases makes
    cases tree
    exact ⟨marked.1.withField field, marked.2⟩
  targets := by
    intro parts made makes trees patterns state marked turned
    simp only [handlerMarking, Option.ite_none_right_eq_some, List.isEmpty_iff,
      Option.some.injEq] at makes
    obtain ⟨rfl, rfl⟩ := makes
    exact isMarkedHandler_of_retarget marked turned

namespace Grammar

/-- The symbols that read handlers. -/
def addedHandlers : Symbol → List Unit
  | .exceptTail | .exceptGroupTail => [()]
  | _ => []

theorem addsHandlers_rule (symbol : Symbol) :
    (rule symbol).addsMarks handlerMarking addedHandlers (addedHandlers symbol) = true := by
  cases symbol <;> decide +kernel

end Grammar

/-- In the tree of a text handlers stand in `try` statements only. -/
theorem obeys_holdsHandlers_of_parse {text : String} {tree : Tree}
    (parsed : parse text = .ok tree) : tree.Obeys HoldsHandlers := by
  obtain ⟨span, children, rfl, marked⟩ :=
    bears_of_parse sound_handlerMarking Grammar.addsHandlers_rule parsed
  refine obeys_node_iff.2 ⟨fun child member handles => ?_, fun child member =>
    (marked child member).1⟩
  exact absurd rfl ((marked child member).2 handles)

end SemanticDiff.Source
