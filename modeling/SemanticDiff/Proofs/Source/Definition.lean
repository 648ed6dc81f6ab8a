import Mathlib.Data.List.TakeWhile
import SemanticDiff.Proofs.Source.Placement

/-!
# How definitions begin

In the tree of a text every function and class begins with a keyword, what plays
the role of its name is a word, and its parts play their roles in a fixed order.
The grammar is checked rule by rule: only two of its rules make definitions, and
both read a keyword first.
-/

namespace SemanticDiff.Source

open Source.Tree

/-! ## Texts of tokens -/

namespace Cursor

theorem offset_advance_succ {cursor : Cursor} {c : Char} {rest : List Char} (count : Nat)
    (here : cursor.rest = c :: rest) : cursor.offset < (cursor.advance (count + 1)).offset := by
  rcases cursor with ⟨_, offset, line⟩
  cases here
  rw [advance]
  exact Nat.lt_of_lt_of_le (Nat.lt_add_of_pos_right c.utf8Size_pos)
    (offset_le_advance count { rest := _, offset := _, line := _ })

/-- The characters between a cursor and the one some characters further on are
these characters. -/
theorem takeBytes_advance (count : Nat) (cursor : Cursor) :
    takeBytes ((cursor.advance count).offset - cursor.offset) cursor.rest =
      cursor.rest.take count := by
  induction count generalizing cursor with
  | zero => cases rest : cursor.rest <;> simp [advance, takeBytes]
  | succ count ih =>
      rcases cursor with ⟨rest, offset, line⟩
      cases rest with
      | nil => simp [takeBytes]
      | cons c rest =>
          have moved := ih ⟨rest, offset + c.utf8Size, if c = '\n' then line + 1 else line⟩
          have onward : offset < _ := @offset_advance_succ ⟨c :: rest, offset, line⟩ c rest count rfl
          rw [advance] at onward ⊢
          simp only at moved onward ⊢
          rw [takeBytes, if_neg (by omega), Nat.sub_sub, moved, List.take_succ_cons]

theorem textTo_advance (count : Nat) (cursor : Cursor) :
    cursor.textTo (cursor.advance count) = String.ofList (cursor.rest.take count) := by
  rw [textTo, takeBytes_advance]

end Cursor

/-- A text that can be read as a name. -/
def IsName (text : String) : Prop :=
  (∃ first rest, text.toList = first :: rest ∧ Text.isNameStart first) ∧
    ∀ c ∈ text.toList, Text.isNameStart c ∨ Text.isNameContinue c

namespace Lexeme

theorem take_length_word (text : List Char) : text.take (word text).length = word text := by
  cases text with
  | nil => rfl
  | cons c rest =>
      rw [word]
      split
      · rw [List.length_cons, List.take_succ_cons]
        congr 1
        exact (List.prefix_iff_eq_take.1 (List.takeWhile_prefix _)).symm
      · rfl

theorem isName_of_mem_word {text : List Char} {c : Char} (member : c ∈ word text) :
    Text.isNameStart c ∨ Text.isNameContinue c := by
  cases text with
  | nil => simp [word] at member
  | cons first rest =>
      rw [word] at member
      split at member
      · rename_i starts
        rcases List.mem_cons.1 member with rfl | later
        · exact Or.inl starts
        · exact Or.inr (List.mem_takeWhile_imp later)
      · simp at member

theorem exists_word_eq_cons {text : List Char} (present : word text ≠ []) :
    ∃ first rest, word text = first :: rest ∧ Text.isNameStart first := by
  cases text with
  | nil => exact absurd rfl present
  | cons first rest =>
      rw [word] at present ⊢
      split at present
      · rename_i starts
        exact ⟨first, _, if_pos starts, starts⟩
      · exact absurd rfl present

end Lexeme

/-! ## Heads -/

/-- Whether a label is that of a function or a class. -/
def Label.isDefinition (label : Label) : Bool :=
  label == .construct .functionDefinition || label == .construct .classDefinition

theorem Label.isDefinition_iff {label : Label} :
    label.isDefinition = true ↔
      label = .construct .functionDefinition ∨ label = .construct .classDefinition := by
  rw [isDefinition, Bool.or_eq_true, beq_iff_eq, beq_iff_eq]

/-- Whether a label is that of a definition, or of one with its decorators. -/
def Label.isDefining (label : Label) : Bool :=
  label.isDefinition || label == .construct .decoratedDefinition

theorem Label.isDefining_eq_false_iff {label : Label} :
    label.isDefining = false ↔
      label.isDefinition = false ∧ label ≠ .construct .decoratedDefinition := by
  rw [isDefining, Bool.or_eq_false_iff, beq_eq_false_iff_ne]

/-- A token that is not empty and stands for itself. -/
structure Tree.IsKeyword (tree : Tree) : Prop where
  leaf : tree.children = []
  literal : tree.isNamed = false
  nonempty : tree.span.startByte < tree.span.endByte

/-- What plays the role of a name is one. -/
def Tree.NamedByName (tree : Tree) : Prop :=
  tree.field = some .name → IsName tree.text

/-- The roles that the parts of a definition play, in the order of the parts. -/
def headRoles : List (List Field) :=
  [[.name, .parameters, .body], [.name, .parameters, .returnType, .body],
    [.name, .body], [.name, .superclasses, .body]]

/-- The children of a definition: a keyword stands first, a name is a word, and the
roles are those of a definition. -/
structure IsHead (children : List Tree) : Prop where
  keyword : ∃ first rest, children = first :: rest ∧ first.IsKeyword
  named : ∀ child ∈ children, child.NamedByName
  roles : children.filterMap field ∈ headRoles

namespace Tree

mutual

/-- The children of every node in the tree are such as its label asks for. -/
def Obeys (asks : Label → List Tree → Prop) : Tree → Prop
  | node label _ _ _ children => asks label children ∧ AllObey asks children

/-- The children of every node in a run of trees are such as its label asks for. -/
def AllObey (asks : Label → List Tree → Prop) : List Tree → Prop
  | [] => True
  | tree :: trees => tree.Obeys asks ∧ AllObey asks trees

end

section

variable {asks weaker : Label → List Tree → Prop} {label : Label} {field : Option Field}
  {span : Span} {text : String} {children : List Tree}

theorem obeys_node :
    (node label field span text children).Obeys asks ↔
      asks label children ∧ AllObey asks children := by
  rw [Obeys]

theorem allObey_cons {tree : Tree} {trees : List Tree} :
    AllObey asks (tree :: trees) ↔ tree.Obeys asks ∧ AllObey asks trees := by
  rw [AllObey]

theorem allObey_iff {trees : List Tree} : AllObey asks trees ↔ ∀ tree ∈ trees, tree.Obeys asks := by
  induction trees with
  | nil => simp [AllObey]
  | cons tree trees ih => simp [AllObey, ih]

mutual

/-- A tree does what is asked if it does more. -/
theorem Obeys.mono (implied : ∀ label children, asks label children → weaker label children) :
    {tree : Tree} → tree.Obeys asks → tree.Obeys weaker
  | node label _ _ _ children, obeys => by
      rw [obeys_node] at obeys ⊢
      exact ⟨implied label children obeys.1, AllObey.mono implied obeys.2⟩

theorem AllObey.mono (implied : ∀ label children, asks label children → weaker label children) :
    {trees : List Tree} → AllObey asks trees → AllObey weaker trees
  | [], _ => by
      rw [AllObey]
      trivial
  | tree :: trees, obey => by
      rw [allObey_cons] at obey ⊢
      exact ⟨obey.1.mono implied, AllObey.mono implied obey.2⟩

end

end

/-- Every definition in the tree begins as it should. -/
def HeadsDefinitions (tree : Tree) : Prop :=
  tree.Obeys fun label children => label.isDefinition → IsHead children

/-- Every definition in a run of trees begins as it should. -/
def AllHeadDefinitions (trees : List Tree) : Prop :=
  AllObey (fun label children => label.isDefinition → IsHead children) trees

theorem headsDefinitions_node {label : Label} {field : Option Field} {span : Span}
    {text : String} {children : List Tree} :
    (node label field span text children).HeadsDefinitions ↔
      (label.isDefinition → IsHead children) ∧ AllHeadDefinitions children :=
  obeys_node

theorem allHeadDefinitions_cons {tree : Tree} {trees : List Tree} :
    AllHeadDefinitions (tree :: trees) ↔ tree.HeadsDefinitions ∧ AllHeadDefinitions trees :=
  allObey_cons

theorem allHeadDefinitions_iff {trees : List Tree} :
    AllHeadDefinitions trees ↔ ∀ tree ∈ trees, tree.HeadsDefinitions :=
  allObey_iff

/-- Where there are decorators, one part only has a role: the definition behind them. -/
def Decorates (tree : Tree) : Prop :=
  tree.Obeys fun label children =>
    label = .construct .decoratedDefinition → children.filterMap field = [.definition]

/-- What is asked of the children of a node. -/
structure Suits (label : Label) (children : List Tree) : Prop where
  head : label.isDefinition → IsHead children
  decorated : label = .construct .decoratedDefinition → children.filterMap field = [.definition]

theorem suits_of_isDefining_eq_false {label : Label} (other : label.isDefining = false)
    (children : List Tree) : Suits label children := by
  rcases Label.isDefining_eq_false_iff.1 other with ⟨plain, undecorated⟩
  constructor
  · intro definition
    rw [plain] at definition
    cases definition
  · intro decorated
    exact absurd decorated undecorated

theorem obeys_leaf {label : Label} {span : Span} {text : String}
    (other : label.isDefining = false) : (leaf label span text).Obeys Suits := by
  rw [leaf, obeys_node]
  exact ⟨suits_of_isDefining_eq_false other [], allObey_iff.2 (by simp)⟩

theorem Obeys.withField {asks : Label → List Tree → Prop} {tree : Tree} (obeys : tree.Obeys asks)
    (field : Field) : (tree.withField field).Obeys asks := by
  cases tree
  exact obeys_node.2 (obeys_node.1 obeys)

mutual

theorem Obeys.of_toTarget? : {tree target : Tree} → tree.Obeys Suits →
    tree.toTarget? = some target → target.Obeys Suits
  | node label field span text children, target, obeys, turned => by
      have inside := (obeys_node.1 obeys).2
      unfold toTarget? at turned
      split at turned
      case h_4 =>
          rw [Option.ite_none_right_eq_some] at turned
          rcases turned with ⟨-, same⟩
          cases same
          exact obeys_node.2 ⟨suits_of_isDefining_eq_false rfl _, inside⟩
      case h_5 | h_6 | h_7 =>
          rcases Option.map_eq_some_iff.1 turned with ⟨targets, childrenTurned, rfl⟩
          exact obeys_node.2
            ⟨suits_of_isDefining_eq_false rfl _, AllObey.of_toTargets? inside childrenTurned⟩
      case h_11 => cases turned
      all_goals
        cases turned
        exact obeys

theorem AllObey.of_toTargets? : {trees targets : List Tree} →
    AllObey Suits trees → toTargets? trees = some targets → AllObey Suits targets
  | [], _, obey, turned => by
      cases turned
      exact obey
  | tree :: trees, _, obey, turned => by
      simp only [toTargets?, Option.bind_eq_bind, Option.bind_eq_some_iff, Option.pure_def,
        Option.some.injEq] at turned
      rcases turned with ⟨target, first, targets, others, rfl⟩
      rw [allObey_cons] at obey ⊢
      exact ⟨obey.1.of_toTarget? first, AllObey.of_toTargets? obey.2 others⟩

end

end Tree

namespace Rule

variable {σ : Type} {grammar : σ → Rule σ}

/-! ## What a rule adds to the scope -/

/-- A rule adds trees with a property to those in scope and leaves the others as
they are.  The roles of the added trees are one of the lists. -/
def Adds (grammar : σ → Rule σ) (rule : Rule σ) (good : Tree → Prop)
    (roles : List (List Field)) : Prop :=
  ∀ ⦃mode trees state trees' state'⦄, Reads grammar rule mode trees state trees' state' →
    ∃ added, trees' = added ++ trees ∧ (∀ tree ∈ added, good tree) ∧
      added.reverse.filterMap field ∈ roles

/-- Read with nothing in scope, a rule leaves a single tree. -/
def LeavesOne (grammar : σ → Rule σ) (rule : Rule σ) : Prop :=
  ∀ ⦃mode state trees state'⦄, Reads grammar rule mode [] state trees state' →
    ∃ tree, trees = [tree]

/-- The lists of roles of one run of trees after another. -/
def joined (first second : List (List Field)) : List (List Field) :=
  first.flatMap fun before => second.map fun after => before ++ after

/-- Every tree without a role has the property. -/
def HoldsWithoutRole (good : Tree → Prop) : Prop :=
  ∀ tree : Tree, tree.field = none → good tree

theorem holdsWithoutRole_namedByName : HoldsWithoutRole NamedByName := by
  intro tree without named
  rw [without] at named
  cases named

/-- What stands in a gap. -/
def layoutKinds : List Kind :=
  [.comment, .lineContinuation]

theorem exists_added_of_skipGap {gap : Gap} {current : Nat} {inFormat : Bool} {budget : Nat}
    {trees trees' : List Tree} {cursor cursor' : Cursor}
    (skipped : Layout.skipGap gap current inFormat budget trees cursor = some (trees', cursor')) :
    ∃ added, trees' = added ++ trees ∧ ∀ tree ∈ added, ∃ kind ∈ layoutKinds, ∃ span text,
      tree = leaf (.construct kind) span text := by
  induction budget generalizing trees cursor with
  | zero =>
      cases skipped
      exact ⟨[], rfl, by simp⟩
  | succ budget ih =>
      simp only [Layout.skipGap] at skipped
      split at skipped
      · cases skipped
      · cases skipped
        exact ⟨[], rfl, by simp⟩
      · split at skipped
        · rename_i kind length found
          obtain ⟨added, rfl, plain⟩ := ih skipped
          refine ⟨added ++ [_], List.append_cons .., ?_⟩
          intro tree member
          rcases List.mem_append.1 member with later | here
          · exact plain tree later
          · refine ⟨kind, ?_, _, _, List.mem_singleton.1 here⟩
            unfold Layout.extra? at found
            split at found <;> cases found <;> decide
        · cases skipped
          exact ⟨[], rfl, by simp⟩

theorem isDefining_of_mem_layoutKinds {kind : Kind} (listed : kind ∈ layoutKinds) :
    (Label.construct kind).isDefining = false := by
  have none : ∀ kind ∈ layoutKinds, (Label.construct kind).isDefining = false := by decide
  exact none kind listed

theorem Skips.exists_added {gap : Gap} {trees trees' : List Tree} {state state' : State}
    (skips : Skips gap trees state trees' state') :
    ∃ added, trees' = added ++ trees ∧ ∀ tree ∈ added, ∃ kind ∈ layoutKinds, ∃ span text,
      tree = leaf (.construct kind) span text := by
  rcases skips with ⟨budget, cursor, skipped, -⟩
  exact exists_added_of_skipGap skipped

namespace Adds

variable {good : Tree → Prop} {roles more : List (List Field)}

theorem mono (adds : Adds grammar rule good roles) (known : ∀ list ∈ roles, list ∈ more) :
    Adds grammar rule good more := by
  intro mode trees state trees' state' reads
  obtain ⟨added, treesEq, fine, listed⟩ := adds reads
  exact ⟨added, treesEq, fine, known _ listed⟩

theorem of_skips (holds : HoldsWithoutRole good) {gap : Gap} {trees trees' : List Tree}
    {state state' : State} (skips : Skips gap trees state trees' state') :
    ∃ added, trees' = added ++ trees ∧ (∀ tree ∈ added, good tree) ∧
      added.reverse.filterMap field ∈ [[]] := by
  rcases skips.exists_added with ⟨added, rfl, plain⟩
  have without : ∀ tree ∈ added, tree.field = none := by
    intro tree member
    obtain ⟨kind, -, span, text, rfl⟩ := plain tree member
    rfl
  refine ⟨added, rfl, fun tree member => holds tree (without tree member), ?_⟩
  rw [List.mem_singleton, List.filterMap_eq_nil_iff]
  intro tree member
  exact without tree (List.mem_reverse.1 member)

theorem gap (holds : HoldsWithoutRole good) (kind : Gap) :
    Adds grammar (.gap kind) good [[]] := by
  intro mode trees state trees' state' reads
  cases reads with
  | gap skips => exact of_skips holds skips
  | token spells => cases spells

theorem resume (holds : HoldsWithoutRole good) : Adds grammar .resume good [[]] := by
  intro mode trees state trees' state' reads
  cases reads with
  | resume skips => exact of_skips holds skips
  | token spells => cases spells

theorem operator (holds : HoldsWithoutRole good) (texts : List String) (kind : Option Kind) :
    Adds grammar (.operator texts kind) good [[]] := by
  intro mode trees state trees' state' reads
  cases reads with
  | token spells => exact ⟨[_], rfl, by simpa using holds _ rfl, List.mem_singleton.2 rfl⟩

theorem word (holds : HoldsWithoutRole good) (text : String) (kind : Option Kind) :
    Adds grammar (.word text kind) good [[]] := by
  intro mode trees state trees' state' reads
  cases reads with
  | token spells => exact ⟨[_], rfl, by simpa using holds _ rfl, List.mem_singleton.2 rfl⟩

theorem empty : Adds grammar .empty good [[]] := by
  intro mode trees state trees' state' reads
  cases reads with
  | empty => exact ⟨[], rfl, by simp, List.mem_singleton.2 rfl⟩
  | token spells => cases spells

theorem indent : Adds grammar .indent good [[]] := by
  intro mode trees state trees' state' reads
  cases reads with
  | indent => exact ⟨[], rfl, by simp, List.mem_singleton.2 rfl⟩
  | token spells => cases spells

theorem seq {first second : Rule σ} (left : Adds grammar first good roles)
    (right : Adds grammar second good more) :
    Adds grammar (.seq first second) good (joined roles more) := by
  intro mode trees state trees' state' reads
  cases reads with
  | seq readsLeft readsRight =>
      obtain ⟨before, rfl, goodBefore, listedBefore⟩ := left readsLeft
      obtain ⟨after, rfl, goodAfter, listedAfter⟩ := right readsRight
      refine ⟨after ++ before, by simp, ?_, ?_⟩
      · intro tree member
        rcases List.mem_append.1 member with here | here
        · exact goodAfter tree here
        · exact goodBefore tree here
      · rw [List.reverse_append, List.filterMap_append]
        exact List.mem_flatMap.2 ⟨_, listedBefore, List.mem_map.2 ⟨_, listedAfter, rfl⟩⟩
  | token spells => cases spells

theorem alt {first second : Rule σ} (left : Adds grammar first good roles)
    (right : Adds grammar second good roles) : Adds grammar (.alt first second) good roles := by
  intro mode trees state trees' state' reads
  cases reads with
  | first taken => exact left taken
  | second taken => exact right taken
  | token spells => cases spells

theorem opt {rule : Rule σ} (adds : Adds grammar rule good roles) :
    Adds grammar (opt rule) good ([] :: roles) :=
  (adds.mono fun _ => List.mem_cons_of_mem _).alt (empty.mono (by simp))

/-- A rule without roles that is read any number of times adds no role. -/
theorem many {rule : Rule σ} (adds : Adds grammar rule good [[]]) :
    Adds grammar (.many rule) good [[]] := by
  intro mode trees state trees' state' reads
  generalize isMany : Rule.many rule = all at reads
  induction reads with
  | manyNone => exact ⟨[], rfl, by simp, List.mem_singleton.2 rfl⟩
  | manyLast taken =>
      cases isMany
      exact adds taken
  | manyMore taken _ _ more =>
      cases isMany
      obtain ⟨before, rfl, goodBefore, listedBefore⟩ := adds taken
      obtain ⟨after, rfl, goodAfter, listedAfter⟩ := more rfl
      refine ⟨after ++ before, (List.append_assoc ..).symm,
        List.forall_mem_append.2 ⟨goodAfter, goodBefore⟩, ?_⟩
      rw [List.reverse_append, List.filterMap_append, List.mem_singleton.1 listedBefore,
        List.nil_append]
      exact listedAfter
  | token spells =>
      cases isMany
      cases spells
  | _ => cases isMany

theorem branch {probe yes no : Rule σ} (left : Adds grammar yes good roles)
    (right : Adds grammar no good roles) : Adds grammar (.branch probe yes no) good roles := by
  intro mode trees state trees' state' reads
  cases reads with
  | branchYes _ taken => exact left taken
  | branchNo taken => exact right taken
  | token spells => cases spells

theorem call {symbol : σ} (adds : Adds grammar (grammar symbol) good roles) :
    Adds grammar (.call symbol) good roles := by
  intro mode trees state trees' state' reads
  cases reads with
  | call inside => exact adds inside
  | token spells => cases spells

/-- A node has no role yet. -/
theorem node (holds : HoldsWithoutRole good) (kind : Kind) (rule : Rule σ) :
    Adds grammar (node kind rule) good [[]] := by
  intro mode trees state trees' state' reads
  cases reads with
  | scope inside =>
      cases inside with
      | wrap => exact ⟨[_], rfl, by simpa using holds _ rfl, List.mem_singleton.2 rfl⟩
      | token spells => cases spells
  | token spells => cases spells

/-- What is read in a role has this role. -/
theorem inRole {field : Field} {rule : Rule σ} (one : LeavesOne grammar rule)
    (holds : ∀ tree : Tree, tree.field = some field → good tree) :
    Adds grammar (inRole field rule) good [[field]] := by
  intro mode trees state trees' state' reads
  cases reads with
  | scope inside =>
      cases inside with
      | seq readsPart readsRole =>
          obtain ⟨part, rfl⟩ := one readsPart
          cases readsRole with
          | role =>
              rcases part
              exact ⟨[_], rfl, by simpa using holds _ rfl, List.mem_singleton.2 rfl⟩
          | token spells => cases spells
      | token spells => cases spells
  | token spells => cases spells

theorem nil : Adds grammar (chain []) good [[]] :=
  empty

/-- A chain adds what its first link and the other links add. -/
theorem link {rule : Rule σ} {rules : List (Rule σ)} (first : Adds grammar rule good roles)
    (others : Adds grammar (chain rules) good more) :
    Adds grammar (chain (rule :: rules)) good (joined roles more) := by
  cases rules with
  | nil =>
      intro mode trees state trees' state' reads
      obtain ⟨added, treesEq, fine, listed⟩ := first reads
      obtain ⟨none, noneEq, -, listedNone⟩ := others (.empty : Reads _ _ mode trees state _ _)
      cases List.append_left_eq_self.1 noneEq.symm
      refine ⟨added, treesEq, fine, ?_⟩
      exact List.mem_flatMap.2 ⟨_, listed, List.mem_map.2 ⟨_, listedNone, List.append_nil _⟩⟩
  | cons => exact first.seq others

end Adds

namespace LeavesOne

theorem name (reserved : List String) : LeavesOne grammar (.name reserved) := by
  intro mode state trees state' reads
  cases reads with
  | token => exact ⟨_, rfl⟩

theorem emptyBlock : LeavesOne grammar .emptyBlock := by
  intro mode state trees state' reads
  cases reads with
  | emptyBlock => exact ⟨_, rfl⟩
  | token spells => cases spells

theorem scope {rule : Rule σ} (one : LeavesOne grammar rule) : LeavesOne grammar (.scope rule) := by
  intro mode state trees state' reads
  cases reads with
  | scope inside =>
      obtain ⟨tree, rfl⟩ := one inside
      exact ⟨tree, rfl⟩
  | token spells => cases spells

theorem wrap (label : Label) (rule : Rule σ) : LeavesOne grammar (.wrap label rule) := by
  intro mode state trees state' reads
  cases reads with
  | wrap => exact ⟨_, rfl⟩
  | token spells => cases spells

theorem node (kind : Kind) (rule : Rule σ) : LeavesOne grammar (node kind rule) :=
  (wrap _ rule).scope

theorem call {symbol : σ} (one : LeavesOne grammar (grammar symbol)) :
    LeavesOne grammar (.call symbol) := by
  intro mode state trees state' reads
  cases reads with
  | call inside => exact one inside
  | token spells => cases spells

theorem alt {first second : Rule σ} (left : LeavesOne grammar first)
    (right : LeavesOne grammar second) : LeavesOne grammar (.alt first second) := by
  intro mode state trees state' reads
  cases reads with
  | first taken => exact left taken
  | second taken => exact right taken
  | token spells => cases spells

theorem within {rule : Rule σ} (one : LeavesOne grammar rule) (after : Gap) (allowed : Bool) :
    LeavesOne grammar (.within after allowed rule) := by
  intro mode state trees state' reads
  cases reads with
  | within inside => exact one inside
  | token spells => cases spells

/-- What grows from a single tree, time and again, is a single tree. -/
theorem many {kind : Kind} {first second : Rule σ} {rule : Rule σ} {mode : Mode}
    {trees trees' : List Tree} {state state' : State}
    (reads : Reads grammar rule mode trees state trees' state')
    (grows : rule = .many (.alt (grow kind first) (grow kind second)))
    (one : ∃ tree, trees = [tree]) : ∃ tree, trees' = [tree] := by
  have once {mode trees state trees' state'}
      (reads : Reads grammar (.alt (grow kind first) (grow kind second)) mode trees state trees'
        state') : ∃ tree, trees' = [tree] := by
    cases reads with
    | first taken =>
        cases taken with
        | wrap => exact ⟨_, rfl⟩
        | token spells => cases spells
    | second taken =>
        cases taken with
        | wrap => exact ⟨_, rfl⟩
        | token spells => cases spells
    | token spells => cases spells
  induction reads with
  | manyNone => exact one
  | manyLast taken =>
      cases grows
      exact once taken
  | manyMore taken _ _ more =>
      cases grows
      exact more rfl (once taken)
  | token spells =>
      cases grows
      cases spells
  | _ => cases grows

theorem seq_many {kind : Kind} {rule first second : Rule σ} (one : LeavesOne grammar rule) :
    LeavesOne grammar (.seq rule (.many (.alt (grow kind first) (grow kind second)))) := by
  intro mode state trees state' reads
  cases reads with
  | seq left right => exact many right rfl (one left)
  | token spells => cases spells

end LeavesOne

/-- Read with nothing in scope, a rule puts a keyword first. -/
def Begins (grammar : σ → Rule σ) (rule : Rule σ) : Prop :=
  ∀ ⦃mode state trees state'⦄, Reads grammar rule mode [] state trees state' →
    ∃ later first, trees = later ++ [first] ∧ first.IsKeyword

namespace Begins

theorem keyword {text : String} (nonempty : text.toList ≠ []) :
    Begins grammar (keyword text) := by
  intro mode state trees state' reads
  cases reads with
  | token spells =>
      cases spells with
      | word next =>
          refine ⟨[], _, rfl, rfl, rfl, ?_⟩
          obtain ⟨count, lengthEq⟩ : ∃ count, text.length = count + 1 :=
            Nat.exists_eq_succ_of_ne_zero (by simpa using nonempty)
          cases rest : state.cursor.rest with
          | nil =>
              rw [rest, Lexeme.word] at next
              exact absurd next.symm nonempty
          | cons c rest' =>
              have onward := Cursor.offset_advance_succ count rest
              rw [← lengthEq] at onward
              exact onward

theorem seq {good : Tree → Prop} {roles : List (List Field)} {first second : Rule σ}
    (begins : Begins grammar first) (adds : Adds grammar second good roles) :
    Begins grammar (.seq first second) := by
  intro mode state trees state' reads
  cases reads with
  | seq left right =>
      obtain ⟨later, keyword, rfl, isKeyword⟩ := begins left
      obtain ⟨added, rfl, -⟩ := adds right
      exact ⟨added ++ later, keyword, by simp, isKeyword⟩
  | token spells => cases spells

/-- What may be left out begins with a keyword, and so does what follows. -/
theorem opt_seq {good : Tree → Prop} {roles : List (List Field)} {first second : Rule σ}
    (begins : Begins grammar first) (follows : Begins grammar second)
    (adds : Adds grammar second good roles) : Begins grammar (.seq (opt first) second) := by
  intro mode state trees state' reads
  cases reads with
  | seq left right =>
      cases left with
      | first taken => exact begins.seq adds (.seq taken right)
      | second taken =>
          cases taken with
          | empty => exact follows right
          | token spells => cases spells
      | token spells => cases spells
  | token spells => cases spells

end Begins

/-- The rule of the children of a definition. -/
theorem isHead_of_reads {rule : Rule σ} (begins : Begins grammar rule)
    (adds : Adds grammar rule NamedByName headRoles) {mode : Mode} {state state' : State}
    {trees : List Tree} (reads : Reads grammar rule mode [] state trees state') :
    IsHead trees.reverse := by
  obtain ⟨later, first, treesEq, keyword⟩ := begins reads
  obtain ⟨added, addedEq, named, listed⟩ := adds reads
  rw [List.append_nil] at addedEq
  constructor
  · exact ⟨first, later.reverse, by simp [treesEq], keyword⟩
  · intro child member
    rw [List.mem_reverse, addedEq] at member
    exact named child member
  · rw [addedEq]
    exact listed

/-! ## Rules that make definitions with a head -/

/-- Whether a kind is told from what is in scope: that of brackets, lists and
parameters. -/
def isTold : Kind → Bool
  | .generatorExpression | .tuple | .parenthesizedExpression | .listComprehension | .list
  | .dictionaryComprehension | .setComprehension | .dictionary | .set | .argumentList
  | .expressionList | .patternList | .typedParameter | .typedDefaultParameter => true
  | _ => false

theorem isDefining_of_isTold {kind : Kind} (told : isTold kind = true) :
    (Label.construct kind).isDefining = false := by
  cases kind <;> first | rfl | cases told

/-- Only such kinds are told. -/
def TellsListed (kind : List Tree → Option Kind) : Prop :=
  ∀ trees made, kind trees = some made → isTold made = true

/-- The rule makes no definition but with a head, and puts one only behind decorators.
`fresh` says that nothing is in scope when the rule is read. -/
@[simp]
def MakesHeads (grammar : σ → Rule σ) : Bool → Rule σ → Prop
  | _, .operator _ kind => ∀ made, kind = some made → (Label.construct made).isDefining = false
  | _, .word _ kind => ∀ made, kind = some made → (Label.construct made).isDefining = false
  | fresh, .seq first second => MakesHeads grammar fresh first ∧ MakesHeads grammar false second
  | fresh, .alt first second => MakesHeads grammar fresh first ∧ MakesHeads grammar fresh second
  | fresh, .branch _ yes no => MakesHeads grammar fresh yes ∧ MakesHeads grammar fresh no
  | _, .many rule => MakesHeads grammar false rule
  | _, .scope rule => MakesHeads grammar true rule
  | fresh, .wrap label rule =>
      MakesHeads grammar fresh rule ∧
        (label.isDefinition →
          fresh ∧ Begins grammar rule ∧ Adds grammar rule NamedByName headRoles) ∧
        (label = .construct .decoratedDefinition →
          fresh ∧ Adds grammar rule NamedByName [[.definition]])
  | fresh, .wrapBy kind rule =>
      MakesHeads grammar fresh rule ∧ TellsListed kind
  | _, .literal rule => MakesHeads grammar true rule
  | fresh, .within _ _ rule => MakesHeads grammar fresh rule
  | fresh, .conditional rule => MakesHeads grammar fresh rule
  | _, .empty | _, .fail | _, .exactly _ | _, .name _ | _, .number | _, .openQuote
  | _, .quotedText | _, .closeQuote | _, .conversion | _, .formatText | _, .gap _
  | _, .follow | _, .resume | _, .role _ | _, .targets | _, .check _ | _, .lineEnd
  | _, .indent | _, .dedent | _, .emptyBlock | _, .textEnd | _, .call _ => True

theorem obeys_gather {label : Label} {text : String} {trees : List Tree} {state : State}
    (suits : Suits label trees.reverse) (inside : ∀ tree ∈ trees, tree.Obeys Suits) :
    (gather label text trees state).Obeys Suits := by
  rw [gather, obeys_node]
  refine ⟨suits, allObey_iff.2 fun tree member => inside tree ?_⟩
  exact List.mem_reverse.1 member

theorem obeys_token {rule : Rule σ} {fresh : Bool} {state opened : State}
    {label : Label} {length : Nat} (spells : Spells rule state label length opened)
    (makes : MakesHeads grammar fresh rule) :
    (tokenLeaf label length opened).Obeys Suits := by
  apply obeys_leaf
  cases spells with
  | @operator _ kind | @word _ kind =>
      cases kind with
      | none => rfl
      | some made => exact makes made rfl
  | number next =>
      simp only [Lexeme.number] at next
      split at next
      · cases next; rfl
      · split at next
        · cases next; rfl
        · split at next <;> cases next
          rfl
  | _ => rfl

theorem obeys_of_retarget {trees patterns : List Tree} {state : State}
    (obey : ∀ tree ∈ trees, tree.Obeys Suits) (turned : retarget trees state = some patterns) :
    ∀ tree ∈ patterns, tree.Obeys Suits := by
  rcases Option.map_eq_some_iff.1 turned with ⟨targets, targetsEq, rfl⟩
  have targetsObey := allObey_iff.1 (AllObey.of_toTargets? (allObey_iff.2 obey) targetsEq)
  split
  · intro tree member
    rw [List.mem_singleton.1 member]
    exact obeys_gather (suits_of_isDefining_eq_false rfl _) targetsObey
  · exact targetsObey

/-- If no rule of a grammar makes a definition without a head, or puts other than one
behind decorators, neither is ever read. -/
theorem Reads.obeys (lawful : ∀ symbol, MakesHeads grammar false (grammar symbol))
    {rule : Rule σ} {mode : Mode} {trees trees' : List Tree} {state state' : State}
    (reads : Reads grammar rule mode trees state trees' state') {fresh : Bool}
    (makes : MakesHeads grammar fresh rule) (freshly : fresh → trees = [])
    (obey : ∀ tree ∈ trees, tree.Obeys Suits) :
    ∀ tree ∈ trees', tree.Obeys Suits := by
  induction reads generalizing fresh with
  | empty | check | lineEnd | indent | dedent | textEnd | manyNone => exact obey
  | token spells =>
      intro tree member
      rcases List.mem_cons.1 member with rfl | older
      · exact obeys_token spells makes
      · exact obey tree older
  | gap skips | follow skips | resume skips =>
      rcases skips.exists_added with ⟨added, rfl, plain⟩
      intro tree member
      rcases List.mem_append.1 member with newer | older
      · obtain ⟨kind, listed, span, text, rfl⟩ := plain tree newer
        exact obeys_leaf (isDefining_of_mem_layoutKinds listed)
      · exact obey tree older
  | seq _ _ left right => exact right makes.2 nofun (left makes.1 freshly obey)
  | first _ taken => exact taken makes.1 freshly obey
  | second _ taken => exact taken makes.2 freshly obey
  | branchYes _ _ _ taken => exact taken makes.1 freshly obey
  | branchNo _ taken => exact taken makes.2 freshly obey
  | manyLast _ once => exact once makes nofun obey
  | manyMore _ _ once more => exact @more false makes nofun (once makes nofun obey)
  | scope _ inside =>
      have inner := inside makes (fun _ => rfl) (by simp)
      intro tree member
      rcases List.mem_append.1 member with newer | older
      · exact inner tree newer
      · exact obey tree older
  | wrap read inside =>
      intro tree member
      rw [List.mem_singleton.1 member]
      refine obeys_gather ⟨fun definition => ?_, fun decorated => ?_⟩
        (inside makes.1 freshly obey)
      · rcases makes.2.1 definition with ⟨isFresh, begins, adds⟩
        cases freshly isFresh
        exact isHead_of_reads begins adds read
      · rcases makes.2.2 decorated with ⟨isFresh, adds⟩
        cases freshly isFresh
        obtain ⟨added, addedEq, -, listed⟩ := adds read
        rw [addedEq, List.append_nil]
        exact List.mem_singleton.1 listed
  | wrapBySome _ told inside =>
      intro tree member
      rw [List.mem_singleton.1 member]
      exact obeys_gather
        (suits_of_isDefining_eq_false (isDefining_of_isTold (makes.2 _ _ told)) _)
        (inside makes.1 freshly obey)
  | wrapByNone _ _ inside => exact inside makes.1 freshly obey
  | literal _ inside =>
      have inner := inside makes (fun _ => rfl) (by simp)
      intro tree member
      rcases List.mem_cons.1 member with rfl | older
      · exact obeys_gather (suits_of_isDefining_eq_false rfl _) inner
      · exact obey tree older
  | role =>
      intro tree member
      rcases List.mem_map.1 member with ⟨plain, plainMember, rfl⟩
      exact (obey plain plainMember).withField _
  | targets turned => exact obeys_of_retarget obey turned
  | within _ inside => exact inside makes freshly obey
  | conditional _ _ inside => exact inside makes freshly obey
  | emptyBlock =>
      intro tree member
      rcases List.mem_cons.1 member with rfl | older
      · exact obeys_gather (suits_of_isDefining_eq_false rfl _) (by simp)
      · exact obey tree older
  | call _ inside => exact inside (lawful _) nofun obey

end Rule

end SemanticDiff.Source
