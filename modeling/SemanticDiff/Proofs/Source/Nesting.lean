import SemanticDiff.Proofs.Source.Form
import SemanticDiff.Proofs.Source.Marking

/-!
# Where definitions stand

In the tree of a text a definition is a statement of the module or of a block, or
it stands behind its decorators.  A block with definitions in it is the body of a
definition, of a compound statement or of one of its clauses.

The grammar is checked by reading its rules on ranks instead of trees.  A rank says
what a tree with definitions in it can be; trees without definitions have none.
-/

namespace SemanticDiff.Source

/-! ## Ranks -/

/-- What a tree with definitions in it can be. -/
inductive Rank where
  /-- A compound statement, or a definition with its decorators. -/
  | statement
  | definition
  /-- A definition behind its decorators. -/
  | decorated
  | clause
  | block
  /-- A block in the role of a body. -/
  | body
deriving DecidableEq

/-- The rank of a node that has just been made. -/
def Label.rank? : Label → Option Rank
  | .construct .functionDefinition | .construct .classDefinition => some .definition
  | .construct .decoratedDefinition | .construct .ifStatement | .construct .forStatement
  | .construct .whileStatement | .construct .tryStatement | .construct .withStatement
  | .construct .matchStatement => some .statement
  | .construct .elifClause | .construct .elseClause | .construct .exceptClause
  | .construct .exceptGroupClause | .construct .finallyClause | .construct .caseClause =>
      some .clause
  | .construct .block => some .block
  | _ => none

/-- Whether a tree of a rank may stand in a node. -/
def Label.admits : Label → Rank → Bool
  | .construct .module, rank | .construct .block, rank =>
      rank = .statement || rank = .definition || rank = .clause
  | .construct .decoratedDefinition, rank => rank = .decorated
  | .construct .functionDefinition, rank | .construct .classDefinition, rank => rank = .body
  | label, rank =>
      match label.rank? with
      | some .statement => rank = .body || rank = .clause
      | some .clause => rank = .body
      | _ => false

namespace Tree

/-- The tree is what its rank says. -/
def HasRank (tree : Tree) : Rank → Prop
  | .decorated => tree.label.isDefinition = true ∧ tree.field = some .definition
  | .body => tree.label = .construct .block ∧ tree.field = some .body
  | rank => tree.label.rank? = some rank

mutual

/-- Whether there is a definition in the tree. -/
def holdsDefinition : Tree → Bool
  | node label _ _ _ children => label.isDefinition || anyHoldsDefinition children

/-- Whether there is a definition in a run of trees. -/
def anyHoldsDefinition : List Tree → Bool
  | [] => false
  | tree :: trees => tree.holdsDefinition || anyHoldsDefinition trees

end

theorem anyHoldsDefinition_eq_false_iff {trees : List Tree} :
    anyHoldsDefinition trees = false ↔ ∀ tree ∈ trees, tree.holdsDefinition = false := by
  induction trees with
  | nil => simp [anyHoldsDefinition]
  | cons tree trees ih => simp [anyHoldsDefinition, ih]

theorem holdsDefinition_node_eq_false_iff {label : Label} {field : Option Field} {span : Span}
    {text : String} {children : List Tree} :
    (node label field span text children).holdsDefinition = false ↔
      label.isDefinition = false ∧ ∀ child ∈ children, child.holdsDefinition = false := by
  rw [holdsDefinition, Bool.or_eq_false_iff, anyHoldsDefinition_eq_false_iff]

/-- A definition in a part of a tree is one in the tree. -/
theorem holdsDefinition_of_mem {label : Label} {field : Option Field} {span : Span}
    {text : String} {children : List Tree} {child : Tree} (member : child ∈ children)
    (holds : child.holdsDefinition = true) :
    (node label field span text children).holdsDefinition = true := by
  rw [← Bool.not_eq_false, holdsDefinition_node_eq_false_iff]
  rintro ⟨-, quiet⟩
  rw [quiet child member] at holds
  cases holds

/-- The label admits every one of the trees that has definitions in it. -/
def Admitted (label : Label) (children : List Tree) : Prop :=
  ∀ child ∈ children, child.holdsDefinition = true →
    ∃ rank, label.admits rank = true ∧ child.HasRank rank

mutual

/-- Definitions stand in the tree only where they may. -/
def Nests : Tree → Prop
  | node label _ _ _ children => Admitted label children ∧ AllNest children

/-- Definitions stand in a run of trees only where they may. -/
def AllNest : List Tree → Prop
  | [] => True
  | tree :: trees => tree.Nests ∧ AllNest trees

end

theorem nests_node {label : Label} {field : Option Field} {span : Span} {text : String}
    {children : List Tree} :
    (node label field span text children).Nests ↔ Admitted label children ∧ AllNest children := by
  rw [Nests]

theorem allNest_iff {trees : List Tree} : AllNest trees ↔ ∀ tree ∈ trees, tree.Nests := by
  induction trees with
  | nil => simp [AllNest]
  | cons tree trees ih => simp [AllNest, ih]

mutual

/-- A tree without definitions has none in the wrong place. -/
theorem nests_of_holdsDefinition_eq_false : {tree : Tree} → tree.holdsDefinition = false →
    tree.Nests
  | node label field span text children, quiet => by
      have inside := (holdsDefinition_node_eq_false_iff.1 quiet).2
      refine nests_node.2 ⟨?_, allNest_of_holdsDefinition_eq_false inside⟩
      intro child member holds
      rw [inside child member] at holds
      cases holds

theorem allNest_of_holdsDefinition_eq_false : {trees : List Tree} →
    (∀ tree ∈ trees, tree.holdsDefinition = false) → AllNest trees
  | [], _ => by
      rw [AllNest]
      trivial
  | tree :: trees, quiet => by
      rcases List.forall_mem_cons.1 quiet with ⟨own, others⟩
      rw [AllNest]
      exact ⟨nests_of_holdsDefinition_eq_false own, allNest_of_holdsDefinition_eq_false others⟩

end

@[simp]
theorem holdsDefinition_withField (tree : Tree) (field : Field) :
    (tree.withField field).holdsDefinition = tree.holdsDefinition := by
  cases tree
  rw [withField, holdsDefinition, holdsDefinition]

theorem Nests.withField {tree : Tree} (nests : tree.Nests) (field : Field) :
    (tree.withField field).Nests := by
  cases tree
  exact nests_node.2 (nests_node.1 nests)

mutual

theorem holdsDefinition_form : (tree : Tree) → tree.form.holdsDefinition = tree.holdsDefinition
  | node label field span text children => by
      rw [form, holdsDefinition, holdsDefinition, anyHoldsDefinition_formAll children]

theorem anyHoldsDefinition_formAll : (trees : List Tree) →
    anyHoldsDefinition (formAll trees) = anyHoldsDefinition trees
  | [] => rfl
  | tree :: trees => by
      rw [formAll, anyHoldsDefinition, anyHoldsDefinition, holdsDefinition_form tree,
        anyHoldsDefinition_formAll trees]

end

theorem hasRank_form {tree : Tree} {rank : Rank} (has : tree.HasRank rank) :
    tree.form.HasRank rank := by
  cases tree
  cases rank <;> exact has

mutual

/-- Where definitions stand does not depend on places in the text. -/
theorem Nests.form : {tree : Tree} → tree.Nests → tree.form.Nests
  | node label field span text children, nests => by
      rcases nests_node.1 nests with ⟨admitted, inside⟩
      rw [form_node, nests_node]
      refine ⟨?_, allNest_form inside⟩
      intro child member holds
      rcases List.mem_map.1 member with ⟨plain, plainMember, rfl⟩
      rw [holdsDefinition_form] at holds
      obtain ⟨rank, admits, has⟩ := admitted plain plainMember holds
      exact ⟨rank, admits, hasRank_form has⟩

theorem allNest_form : {trees : List Tree} → AllNest trees → AllNest (trees.map form)
  | [], _ => by
      rw [List.map_nil, AllNest]
      trivial
  | tree :: trees, nest => by
      rw [AllNest] at nest
      rw [List.map_cons, AllNest]
      exact ⟨Nests.form nest.1, allNest_form nest.2⟩

end

mutual

theorem holdsDefinition_of_toTarget? : {tree target : Tree} → tree.holdsDefinition = false →
    tree.toTarget? = some target → target.holdsDefinition = false
  | node label field span text children, target, quiet, turned => by
      have inside := (holdsDefinition_node_eq_false_iff.1 quiet).2
      unfold toTarget? at turned
      split at turned
      case h_4 =>
          rw [Option.ite_none_right_eq_some] at turned
          rcases turned with ⟨-, same⟩
          cases same
          exact holdsDefinition_node_eq_false_iff.2 ⟨rfl, inside⟩
      case h_5 | h_6 | h_7 =>
          rcases Option.map_eq_some_iff.1 turned with ⟨targets, childrenTurned, rfl⟩
          exact holdsDefinition_node_eq_false_iff.2
            ⟨rfl, holdsDefinition_of_toTargets? inside childrenTurned⟩
      case h_11 => cases turned
      all_goals
        cases turned
        exact quiet

theorem holdsDefinition_of_toTargets? : {trees targets : List Tree} →
    (∀ tree ∈ trees, tree.holdsDefinition = false) → toTargets? trees = some targets →
    ∀ target ∈ targets, target.holdsDefinition = false
  | [], _, _, turned => by
      cases turned
      simp
  | tree :: trees, _, quiet, turned => by
      simp only [toTargets?, Option.bind_eq_bind, Option.bind_eq_some_iff, Option.pure_def,
        Option.some.injEq] at turned
      rcases turned with ⟨target, first, targets, others, rfl⟩
      rcases List.forall_mem_cons.1 quiet with ⟨own, rest⟩
      exact List.forall_mem_cons.2 ⟨holdsDefinition_of_toTarget? own first,
        holdsDefinition_of_toTargets? rest others⟩

end

end Tree

open Source.Tree
open Rule (State gather retarget isTold)

/-! ## Marking by ranks -/

/-- The marking by ranks.  A definition may be put only where it may stand, and a role
turns a block into a body, and a definition into a decorated one. -/
def rankMarking : Marking Rank where
  token
    | some .functionDefinition | some .classDefinition => none
    | _ => some []
  node label ranks :=
    if ranks.all label.admits then
      if ranks = [] && !label.isDefinition then some [] else label.rank?.map fun rank => [rank]
    else none
  told ranks := if ranks = [] then some [] else none
  role
    | _, [] => some []
    | .body, [.block] => some [.body]
    | .definition, [.definition] => some [.decorated]
    | _, _ => none
  targets ranks := if ranks = [] then some [] else none

/-- The tree has no definitions, or it nests them and has one of the ranks. -/
def Ranked (ranks : List Rank) (tree : Tree) : Prop :=
  tree.holdsDefinition = false ∨ (tree.Nests ∧ ∃ rank ∈ ranks, tree.HasRank rank)

theorem ranked_nil_iff {tree : Tree} : Ranked [] tree ↔ tree.holdsDefinition = false := by
  simp [Ranked]

/-- A node of trees that its label admits nests them. -/
theorem nests_of_ranked {label : Label} {field : Option Field} {span : Span} {text : String}
    {children : List Tree} {ranks : List Rank} (admitted : ranks.all label.admits = true)
    (ranked : ∀ child ∈ children, Ranked ranks child) :
    (node label field span text children).Nests := by
  rw [nests_node, allNest_iff]
  constructor
  · intro child member holds
    rcases ranked child member with quiet | ⟨-, rank, known, has⟩
    · rw [quiet] at holds
      cases holds
    · exact ⟨rank, List.all_eq_true.1 admitted rank known, has⟩
  · intro child member
    rcases ranked child member with quiet | ⟨nests, -⟩
    · exact nests_of_holdsDefinition_eq_false quiet
    · exact nests

/-- A node without definitions in it has none, unless it is one. -/
theorem holdsDefinition_gather {label : Label} {text : String} {trees : List Tree} {state : State}
    (other : label.isDefinition = false) (quiet : ∀ tree ∈ trees, Ranked [] tree) :
    (gather label text trees state).holdsDefinition = false := by
  rw [gather, holdsDefinition_node_eq_false_iff]
  exact ⟨other, fun child member => ranked_nil_iff.1 (quiet child (List.mem_reverse.1 member))⟩

theorem hasRank_gather {label : Label} {text : String} {trees : List Tree} {state : State}
    {rank : Rank} (made : label.rank? = some rank) :
    (gather label text trees state).HasRank rank := by
  unfold Label.rank? at made
  split at made <;> cases made <;> rfl

theorem ranked_token {kind : Option Kind} {ranks : List Rank}
    (made : rankMarking.token kind = some ranks) (literal : String) (span : Span) (text : String) :
    Ranked ranks (leaf ((kind.map Label.construct).getD (.literal literal)) span text) := by
  left
  rw [leaf, holdsDefinition_node_eq_false_iff]
  refine ⟨?_, by simp⟩
  cases kind with
  | none => rfl
  | some kind => cases kind <;> first | rfl | cases made

theorem ranked_node {label : Label} {ranks made : List Rank}
    (makes : rankMarking.node label ranks = some made) {trees : List Tree}
    (ranked : ∀ tree ∈ trees, Ranked ranks tree) (text : String) (state : State) :
    Ranked made (gather label text trees state) := by
  simp only [rankMarking, Option.ite_none_right_eq_some] at makes
  rcases makes with ⟨admitted, makes⟩
  split at makes
  · rename_i quiet
    rw [Bool.and_eq_true, decide_eq_true_eq, Bool.not_eq_true'] at quiet
    rcases quiet with ⟨rfl, other⟩
    exact Or.inl (holdsDefinition_gather other ranked)
  · rcases Option.map_eq_some_iff.1 makes with ⟨rank, found, rfl⟩
    refine Or.inr ⟨nests_of_ranked admitted ?_, rank, by simp, hasRank_gather found⟩
    intro child member
    exact ranked child (List.mem_reverse.1 member)

theorem label_of_rank?_eq_block {label : Label} (made : label.rank? = some .block) :
    label = .construct .block := by
  unfold Label.rank? at made
  split at made <;> cases made
  rfl

theorem isDefinition_of_rank? {label : Label} (made : label.rank? = some .definition) :
    label.isDefinition = true := by
  unfold Label.rank? at made
  split at made <;> cases made <;> rfl

theorem ranked_withField {field : Field} {ranks made : List Rank}
    (makes : rankMarking.role field ranks = some made) {tree : Tree} (ranked : Ranked ranks tree) :
    Ranked made (tree.withField field) := by
  rcases ranked with quiet | ⟨nests, rank, member, has⟩
  · left
    rw [holdsDefinition_withField, quiet]
  · right
    refine ⟨nests.withField field, ?_⟩
    simp only [rankMarking] at makes
    split at makes
    · cases member
    · cases makes
      rw [List.mem_singleton.1 member] at has
      refine ⟨.body, List.mem_singleton.2 rfl, ?_⟩
      cases tree
      exact ⟨label_of_rank?_eq_block has, rfl⟩
    · cases makes
      rw [List.mem_singleton.1 member] at has
      refine ⟨.decorated, List.mem_singleton.2 rfl, ?_⟩
      cases tree
      exact ⟨isDefinition_of_rank? has, rfl⟩
    · cases makes

theorem ranked_of_retarget {trees patterns : List Tree} {state : State}
    (quiet : ∀ tree ∈ trees, Ranked [] tree) (turned : retarget trees state = some patterns) :
    ∀ tree ∈ patterns, Ranked [] tree := by
  rcases Option.map_eq_some_iff.1 turned with ⟨targets, targetsEq, rfl⟩
  have turnedQuiet : ∀ tree ∈ targets, Ranked [] tree := by
    intro tree member
    exact ranked_nil_iff.2 (holdsDefinition_of_toTargets?
      (fun tree member => ranked_nil_iff.1 (quiet tree member)) targetsEq tree member)
  split
  · intro tree member
    rw [List.mem_singleton.1 member]
    exact Or.inl (holdsDefinition_gather rfl turnedQuiet)
  · exact turnedQuiet

theorem sound_rankMarking : rankMarking.Sound Ranked where
  mono := by
    rintro ranks more tree (quiet | ⟨nests, rank, member, has⟩) larger
    · exact Or.inl quiet
    · exact Or.inr ⟨nests, rank, larger rank member, has⟩
  token := ranked_token
  node := ranked_node
  told := by
    intro kind ranks made makes told trees ranked state
    simp only [rankMarking, Option.ite_none_right_eq_some] at makes
    rcases makes with ⟨rfl, -⟩
    have plain := (Label.isDefining_eq_false_iff.1 (Rule.isDefining_of_isTold told)).1
    exact Or.inl (holdsDefinition_gather plain ranked)
  role := ranked_withField
  targets := by
    intro ranks made makes trees patterns state ranked turned
    simp only [rankMarking, Option.ite_none_right_eq_some] at makes
    rcases makes with ⟨rfl, same⟩
    cases same
    exact ranked_of_retarget ranked turned

namespace Grammar

/-- The ranks of the trees that a symbol adds. -/
def addedRanks : Symbol → List Rank
  | .statements | .statement => [.statement, .definition]
  | .suite => [.body]
  | .elifTail | .elseTail | .exceptTail | .exceptGroupTail | .afterHandlers => [.clause]
  | .functionDefinition | .classDefinition => [.definition]
  | _ => []

theorem addsRanks_rule (symbol : Symbol) :
    (rule symbol).addsMarks rankMarking addedRanks (addedRanks symbol) = true := by
  cases symbol <;> decide +kernel

end Grammar

/-- In the tree of a text definitions stand only where they may. -/
theorem nests_of_parse {text : String} {tree : Tree} (parsed : parse text = .ok tree) :
    tree.Nests := by
  obtain ⟨span, children, rfl, ranked⟩ :=
    bears_of_parse sound_rankMarking Grammar.addsRanks_rule parsed
  exact nests_of_ranked rfl ranked

end SemanticDiff.Source
