import Mathlib.Data.List.Lattice
import SemanticDiff.Proofs.Source.Grammar

/-!
# Reading a grammar on marks

What the trees of all texts look like can be found out without a text: the rules of
a grammar are read on marks instead of trees.  A mark says what a tree can be, and a
marking says which marks a node has, given the marks of its children.  All that is
read from a text has the marks that are read.
-/

namespace SemanticDiff.Source

open Source.Tree

/-- How trees are marked.  There are no marks for a tree that must not be made. -/
structure Marking (μ : Type) where
  /-- The marks of a token of a kind, or of one that stands for itself. -/
  token : Option Kind → Option (List μ)
  /-- The marks of a node, given those of its children. -/
  node : Label → List μ → Option (List μ)
  /-- The marks of a node whose kind is told from its children. -/
  told : List μ → Option (List μ)
  /-- The marks of trees in a role. -/
  role : Field → List μ → Option (List μ)
  /-- The marks of trees that were turned into targets. -/
  targets : List μ → Option (List μ)

namespace Rule

variable {σ μ : Type} {grammar : σ → Rule σ}

/-- The kinds of the tokens that a rule reads itself, `none` for a token that stands
for itself. -/
def tokenKinds : Rule σ → List (Option Kind)
  | .operator _ kind | .word _ kind => [kind]
  | .exactly _ | .formatText => [none]
  | .name _ => [some .identifier]
  | .number => [some .integer, some .float]
  | .openQuote => [some .stringStart]
  | .quotedText => [some .stringContent]
  | .closeQuote => [some .stringEnd]
  | .conversion => [some .typeConversion]
  | .gap _ | .follow | .resume => layoutKinds.map some
  | _ => []

/-- The marks of tokens of some kinds. -/
def tokenMarks (marking : Marking μ) : List (Option Kind) → Option (List μ)
  | [] => some []
  | kind :: kinds =>
      (marking.token kind).bind fun first =>
        (tokenMarks marking kinds).map fun others => first ++ others

/-- The marks of a scope in which nothing is left of what was in it before. -/
def known? : List (Option μ) → Option (List μ)
  | [] => some []
  | none :: _ => none
  | some mark :: marks => (known? marks).map fun others => mark :: others

section

variable [DecidableEq μ]

/-- The marks of the trees in scope after a rule, given those before it and those
that symbols add.  `none` stands for what was in scope before a symbol is read. -/
def marks (marking : Marking μ) (adds : σ → List μ) :
    Rule σ → List (Option μ) → Option (List (Option μ))
  | .seq first second, before => (first.marks marking adds before).bind (second.marks marking adds)
  | .alt first second, before | .branch _ first second, before =>
      (first.marks marking adds before).bind fun left =>
        (second.marks marking adds before).map fun right => left ∪ right
  | .many rule, before =>
      (rule.marks marking adds before).bind fun once =>
        let all := once ∪ before
        (rule.marks marking adds all).bind fun again =>
          if again ∪ all = all then some all else none
  | .scope rule, before => (rule.marks marking adds []).map fun inner => inner ∪ before
  | .wrap label rule, before =>
      (rule.marks marking adds before).bind fun inner =>
        ((known? inner).bind (marking.node label)).map fun made => made.map some
  | .wrapBy _ rule, before =>
      (rule.marks marking adds before).bind fun inner =>
        ((known? inner).bind marking.told).map fun made => made.map some ∪ inner
  | .literal rule, before =>
      (rule.marks marking adds []).bind fun inner =>
        ((known? inner).bind (marking.node (.construct .string))).map fun made =>
          made.map some ∪ before
  | .emptyBlock, before =>
      (marking.node (.construct .block) []).map fun made => made.map some ∪ before
  | .role field, before =>
      ((known? before).bind (marking.role field)).map fun made => made.map some
  | .targets, before => ((known? before).bind marking.targets).map fun made => made.map some
  | .within _ _ rule, before | .conditional rule, before => rule.marks marking adds before
  | .call symbol, before => some ((adds symbol).map some ∪ before)
  | rule, before => (tokenMarks marking rule.tokenKinds).map fun made => made.map some ∪ before

/-- Read after anything, the rule only adds trees of some marks. -/
def addsMarks (marking : Marking μ) (adds : σ → List μ) (rule : Rule σ) (allowed : List μ) :
    Bool :=
  (rule.marks marking adds [none]).any fun after =>
    after.all fun mark => (none :: allowed.map some).contains mark

end

end Rule

/-! ## What marks mean -/

open Rule (State gather retarget isTold)

/-- All trees that can be made bear the marks that the marking gives them. -/
structure Marking.Sound {μ : Type} (marking : Marking μ) (bears : List μ → Tree → Prop) :
    Prop where
  mono : ∀ {marks more : List μ} {tree : Tree}, bears marks tree →
    (∀ mark ∈ marks, mark ∈ more) → bears more tree
  token : ∀ {kind : Option Kind} {made : List μ}, marking.token kind = some made →
    ∀ (literal : String) (span : Span) (text : String),
      bears made (leaf ((kind.map Label.construct).getD (.literal literal)) span text)
  node : ∀ {label : Label} {parts made : List μ}, marking.node label parts = some made →
    ∀ {trees : List Tree}, (∀ tree ∈ trees, bears parts tree) →
      ∀ (text : String) (state : State), bears made (gather label text trees state)
  told : ∀ {kind : Kind} {parts made : List μ}, marking.told parts = some made →
    isTold kind = true → ∀ {trees : List Tree}, (∀ tree ∈ trees, bears parts tree) →
      ∀ state : State, bears made (gather (.construct kind) "" trees state)
  role : ∀ {field : Field} {parts made : List μ}, marking.role field parts = some made →
    ∀ {tree : Tree}, bears parts tree → bears made (tree.withField field)
  targets : ∀ {parts made : List μ}, marking.targets parts = some made →
    ∀ {trees patterns : List Tree} {state : State}, (∀ tree ∈ trees, bears parts tree) →
      retarget trees state = some patterns → ∀ tree ∈ patterns, bears made tree

namespace Rule

variable {σ μ : Type} {grammar : σ → Rule σ} {marking : Marking μ} {adds : σ → List μ}
  {bears : List μ → Tree → Prop} {old : Tree → Prop}

/-- The tree bears the marks, or it was in scope before, where only the given
property of it is known. -/
def Marked (bears : List μ → Tree → Prop) (old : Tree → Prop) (marks : List (Option μ))
    (tree : Tree) : Prop :=
  bears (marks.filterMap id) tree ∨ (none ∈ marks ∧ old tree)

theorem known?_eq_some_iff {marks : List (Option μ)} {parts : List μ} :
    known? marks = some parts ↔ marks = parts.map some := by
  induction marks generalizing parts with
  | nil => cases parts <;> simp [known?]
  | cons mark marks ih =>
      cases mark with
      | none => cases parts <;> simp [known?]
      | some mark => cases parts <;> simp [known?, ih, and_comm]

/-- A node is made of a scope in which all trees are known. -/
theorem exists_known {inner : List (Option μ)} {make : List μ → Option (List μ)}
    {finish : List μ → List (Option μ)} {after : List (Option μ)}
    (made : ((known? inner).bind make).map finish = some after) :
    ∃ parts new, inner = parts.map some ∧ make parts = some new ∧ after = finish new := by
  rcases Option.map_eq_some_iff.1 made with ⟨new, found, rfl⟩
  rcases Option.bind_eq_some_iff.1 found with ⟨parts, known, makes⟩
  exact ⟨parts, new, known?_eq_some_iff.1 known, makes, rfl⟩

theorem marked_map_some_iff {parts : List μ} {tree : Tree} :
    Marked bears old (parts.map some) tree ↔ bears parts tree := by
  simp [Marked, List.filterMap_map]

namespace Marked

variable {marks more : List (Option μ)} {tree : Tree}

theorem mono (sound : marking.Sound bears) (marked : Marked bears old marks tree)
    (larger : ∀ mark ∈ marks, mark ∈ more) : Marked bears old more tree := by
  rcases marked with bearing | ⟨member, known⟩
  · left
    apply sound.mono bearing
    intro mark member
    rw [List.mem_filterMap] at member ⊢
    rcases member with ⟨own, ownMem, same⟩
    exact ⟨own, larger own ownMem, same⟩
  · exact Or.inr ⟨larger none member, known⟩

variable [DecidableEq μ]

theorem left (sound : marking.Sound bears) (marked : Marked bears old marks tree)
    (more : List (Option μ)) : Marked bears old (marks ∪ more) tree :=
  marked.mono sound fun _ member => List.mem_union_iff.2 (Or.inl member)

theorem right (sound : marking.Sound bears) (marked : Marked bears old marks tree)
    (more : List (Option μ)) : Marked bears old (more ∪ marks) tree :=
  marked.mono sound fun _ member => List.mem_union_iff.2 (Or.inr member)

end Marked

/-! ## Tokens -/

/-- The label of a token is one of those that its rule reads. -/
theorem Spells.exists_tokenKind {rule : Rule σ} {state opened : State} {label : Label}
    {length : Nat} (spells : Spells rule state label length opened) :
    ∃ kind ∈ rule.tokenKinds, ∃ literal : String,
      label = (kind.map Label.construct).getD (.literal literal) := by
  cases spells with
  | @operator _ kind _ text | @word text kind => exact ⟨kind, by simp [tokenKinds], text, rfl⟩
  | @exactly text => exact ⟨none, by simp [tokenKinds], text, rfl⟩
  | @formatText _ text => exact ⟨none, by simp [tokenKinds], String.ofList text, rfl⟩
  | @number _ kind _ next =>
      refine ⟨some kind, ?_, "", rfl⟩
      simp only [Lexeme.number] at next
      split at next
      · cases next; simp [tokenKinds]
      · split at next
        · cases next; simp [tokenKinds]
        · split at next <;> cases next
          simp [tokenKinds]
  | _ => exact ⟨_, List.mem_singleton.2 rfl, "", rfl⟩

/-- A token of one of the kinds bears the marks of such tokens. -/
theorem bears_of_tokenMarks (sound : marking.Sound bears) {kinds : List (Option Kind)}
    {made : List μ} (marked : tokenMarks marking kinds = some made) {kind : Option Kind}
    (member : kind ∈ kinds) (literal : String) (span : Span) (text : String) :
    bears made (leaf ((kind.map Label.construct).getD (.literal literal)) span text) := by
  induction kinds generalizing made with
  | nil => simp at member
  | cons first others ih =>
      rw [tokenMarks, Option.bind_eq_some_iff] at marked
      rcases marked with ⟨own, ownMarked, rest⟩
      rcases Option.map_eq_some_iff.1 rest with ⟨later, laterMarked, rfl⟩
      rcases List.mem_cons.1 member with rfl | further
      · exact sound.mono (sound.token ownMarked literal span text) fun _ => List.mem_append_left _
      · exact sound.mono (ih laterMarked further) fun _ => List.mem_append_right _

section

variable [DecidableEq μ]

/-- A rule that only reads tokens adds marks of tokens. -/
def AddsTokens (marking : Marking μ) (rule : Rule σ) (before after : List (Option μ)) : Prop :=
  ∃ made, tokenMarks marking rule.tokenKinds = some made ∧ after = made.map some ∪ before

theorem marked_of_addsTokens (sound : marking.Sound bears) {rule : Rule σ}
    {before after : List (Option μ)} (added : AddsTokens marking rule before after)
    {trees new : List Tree} (marked : ∀ tree ∈ trees, Marked bears old before tree)
    (tokens : ∀ tree ∈ new, ∃ kind ∈ rule.tokenKinds, ∃ literal span text,
      tree = leaf ((kind.map Label.construct).getD (.literal literal)) span text) :
    ∀ tree ∈ new ++ trees, Marked bears old after tree := by
  rcases added with ⟨made, madeMarks, rfl⟩
  intro tree member
  rcases List.mem_append.1 member with newer | older
  · obtain ⟨kind, kindMem, literal, span, text, rfl⟩ := tokens tree newer
    have own := bears_of_tokenMarks sound madeMarks kindMem literal span text
    exact (marked_map_some_iff.2 own).left sound before
  · exact (marked tree older).right sound _

theorem Skips.marked (sound : marking.Sound bears) {gap : Gap} {rule : Rule σ}
    {before after : List (Option μ)} (added : AddsTokens marking rule before after)
    (layout : rule.tokenKinds = layoutKinds.map some) {trees trees' : List Tree}
    {state state' : State} (skips : Skips gap trees state trees' state')
    (marked : ∀ tree ∈ trees, Marked bears old before tree) :
    ∀ tree ∈ trees', Marked bears old after tree := by
  rcases skips.exists_added with ⟨new, rfl, plain⟩
  apply marked_of_addsTokens sound added marked
  intro tree member
  obtain ⟨kind, listed, span, text, rfl⟩ := plain tree member
  refine ⟨some kind, ?_, "", span, text, rfl⟩
  rw [layout]
  exact List.mem_map.2 ⟨kind, listed, rfl⟩

theorem marks_many {rule : Rule σ} {before all : List (Option μ)}
    (made : (Rule.many rule).marks marking adds before = some all) :
    ∃ once, rule.marks marking adds before = some once ∧ all = once ∪ before ∧
      (Rule.many rule).marks marking adds all = some all := by
  rw [marks, Option.bind_eq_some_iff] at made
  rcases made with ⟨once, first, later⟩
  rw [Option.bind_eq_some_iff] at later
  rcases later with ⟨again, second, closed⟩
  rw [Option.ite_none_right_eq_some] at closed
  rcases closed with ⟨fixed, same⟩
  cases same
  refine ⟨once, first, rfl, ?_⟩
  simp only [marks, second, Option.bind_some, fixed, if_true]

/-- What is read bears the marks that are read. -/
theorem Reads.marked (sound : marking.Sound bears)
    (makesAll : ∀ symbol, MakesHeads grammar false (grammar symbol))
    (lawful : ∀ symbol, (grammar symbol).addsMarks marking adds (adds symbol) = true)
    {rule : Rule σ} {mode : Mode} {trees trees' : List Tree} {state state' : State}
    (reads : Reads grammar rule mode trees state trees' state') {fresh : Bool}
    (makes : MakesHeads grammar fresh rule) {before after : List (Option μ)}
    (read : rule.marks marking adds before = some after)
    (marked : ∀ tree ∈ trees, Marked bears old before tree) :
    ∀ tree ∈ trees', Marked bears old after tree := by
  induction reads generalizing fresh before after old with
  | empty | check | lineEnd | indent | dedent | textEnd =>
      rcases Option.map_eq_some_iff.1 read with ⟨made, none, rfl⟩
      intro tree member
      exact (marked tree member).right sound _
  | @token rule _ trees _ label length opened spells =>
      have added : AddsTokens marking rule before after := by
        cases spells <;>
          · rcases Option.map_eq_some_iff.1 read with ⟨made, madeMarks, rfl⟩
            exact ⟨made, madeMarks, rfl⟩
      apply @marked_of_addsTokens _ _ _ _ _ _ sound _ _ _ added trees
        [tokenLeaf label length opened] marked
      intro tree member
      obtain ⟨kind, kindMem, literal, labelEq⟩ := spells.exists_tokenKind
      rw [List.mem_singleton.1 member, labelEq]
      exact ⟨kind, kindMem, literal, _, _, rfl⟩
  | gap skips | follow skips | resume skips =>
      rcases Option.map_eq_some_iff.1 read with ⟨made, madeMarks, rfl⟩
      exact skips.marked sound ⟨made, madeMarks, rfl⟩ rfl marked
  | seq _ _ left right =>
      rw [marks, Option.bind_eq_some_iff] at read
      rcases read with ⟨middle, first, second⟩
      exact right makes.2 second (left makes.1 first marked)
  | first _ taken =>
      simp only [marks, Option.bind_eq_some_iff, Option.map_eq_some_iff] at read
      rcases read with ⟨left, readLeft, right, -, rfl⟩
      intro tree member
      exact (taken makes.1 readLeft marked tree member).left sound _
  | second _ taken =>
      simp only [marks, Option.bind_eq_some_iff, Option.map_eq_some_iff] at read
      rcases read with ⟨left, -, right, readRight, rfl⟩
      intro tree member
      exact (taken makes.2 readRight marked tree member).right sound _
  | branchYes _ _ _ taken =>
      simp only [marks, Option.bind_eq_some_iff, Option.map_eq_some_iff] at read
      rcases read with ⟨left, readLeft, right, -, rfl⟩
      intro tree member
      exact (taken makes.1 readLeft marked tree member).left sound _
  | branchNo _ taken =>
      simp only [marks, Option.bind_eq_some_iff, Option.map_eq_some_iff] at read
      rcases read with ⟨left, -, right, readRight, rfl⟩
      intro tree member
      exact (taken makes.2 readRight marked tree member).right sound _
  | manyNone =>
      obtain ⟨once, -, rfl, -⟩ := marks_many read
      intro tree member
      exact (marked tree member).right sound _
  | manyLast _ taken =>
      obtain ⟨once, readOnce, rfl, -⟩ := marks_many read
      intro tree member
      exact (taken makes readOnce marked tree member).left sound _
  | manyMore _ _ taken more =>
      obtain ⟨once, readOnce, rfl, readMore⟩ := marks_many read
      apply @more old false makes _ _ readMore
      intro tree member
      exact (taken makes readOnce marked tree member).left sound _
  | scope _ inside =>
      rcases Option.map_eq_some_iff.1 read with ⟨inner, readInner, rfl⟩
      intro tree member
      rcases List.mem_append.1 member with newer | older
      · exact (inside makes readInner (by simp) tree newer).left sound _
      · exact (marked tree older).right sound _
  | wrap _ inside =>
      rw [marks, Option.bind_eq_some_iff] at read
      rcases read with ⟨inner, readInner, made⟩
      obtain ⟨parts, new, rfl, makesNode, rfl⟩ := exists_known made
      have bearing tree member := marked_map_some_iff.1 (inside makes.1 readInner marked tree member)
      intro tree member
      rw [List.mem_singleton.1 member]
      exact marked_map_some_iff.2 (sound.node makesNode bearing _ _)
  | wrapBySome _ told inside =>
      rw [marks, Option.bind_eq_some_iff] at read
      rcases read with ⟨inner, readInner, made⟩
      obtain ⟨parts, new, rfl, makesNode, rfl⟩ := exists_known made
      have bearing tree member := marked_map_some_iff.1 (inside makes.1 readInner marked tree member)
      intro tree member
      rw [List.mem_singleton.1 member]
      have own := sound.told makesNode (makes.2 _ _ told) bearing
      exact (marked_map_some_iff.2 (own _)).left sound _
  | wrapByNone _ _ inside =>
      rw [marks, Option.bind_eq_some_iff] at read
      rcases read with ⟨inner, readInner, made⟩
      obtain ⟨parts, new, rfl, makesNode, rfl⟩ := exists_known made
      intro tree member
      exact (inside makes.1 readInner marked tree member).right sound _
  | literal _ inside =>
      rw [marks, Option.bind_eq_some_iff] at read
      rcases read with ⟨inner, readInner, made⟩
      obtain ⟨parts, new, rfl, makesNode, rfl⟩ := exists_known made
      have bearing tree member := marked_map_some_iff.1
        (@inside old true makes [] _ readInner (by simp) tree member)
      intro tree member
      rcases List.mem_cons.1 member with rfl | older
      · exact (marked_map_some_iff.2 (sound.node makesNode bearing _ _)).left sound _
      · exact (marked tree older).right sound _
  | role =>
      obtain ⟨parts, new, rfl, makesRole, rfl⟩ := exists_known read
      intro tree member
      rcases List.mem_map.1 member with ⟨plain, plainMember, rfl⟩
      have bearing := marked_map_some_iff.1 (marked plain plainMember)
      exact marked_map_some_iff.2 (sound.role makesRole bearing)
  | targets turned =>
      obtain ⟨parts, new, rfl, makesTargets, rfl⟩ := exists_known read
      have bearing tree member := marked_map_some_iff.1 (marked tree member)
      intro tree member
      exact marked_map_some_iff.2 (sound.targets makesTargets bearing turned tree member)
  | within _ inside => exact inside makes read marked
  | conditional _ _ inside => exact inside makes read marked
  | emptyBlock =>
      rcases Option.map_eq_some_iff.1 read with ⟨new, makesNode, rfl⟩
      intro tree member
      rcases List.mem_cons.1 member with rfl | older
      · have own := @Marking.Sound.node _ _ _ sound _ _ _ makesNode [] (by simp)
        exact (marked_map_some_iff.2 (own _ _)).left sound _
      · exact (marked tree older).right sound _
  | @call symbol _ _ _ _ _ _ inside =>
      cases read
      have allowed := lawful symbol
      rw [addsMarks, Option.any_eq_true] at allowed
      rcases allowed with ⟨added, readSymbol, known⟩
      have listed (mark : Option μ) (member : mark ∈ added) :
          mark ∈ none :: (adds symbol).map some :=
        List.contains_iff_mem.1 (List.all_eq_true.1 known mark member)
      intro tree member
      -- What was in scope before is all that is known about older trees.
      rcases @inside (Marked bears old before) false (makesAll symbol) [none] added readSymbol
        (fun tree member => Or.inr ⟨by simp, marked tree member⟩) tree member with
        bearing | ⟨-, older⟩
      · left
        apply sound.mono bearing
        intro mark markMem
        rw [List.mem_filterMap] at markMem ⊢
        rcases markMem with ⟨own, ownMem, same⟩
        refine ⟨own, List.mem_union_iff.2 (Or.inl ?_), same⟩
        cases same
        simpa using listed _ ownMem
      · exact older.right sound _

end

end Rule

/-- The statements of a text bear the marks that the grammar gives them. -/
theorem bears_of_parse {μ : Type} [DecidableEq μ] {marking : Marking μ}
    {bears : List μ → Tree → Prop} {adds : Symbol → List μ} (sound : marking.Sound bears)
    (lawful : ∀ symbol, (Grammar.rule symbol).addsMarks marking adds (adds symbol) = true)
    {text : String} {tree : Tree} (parsed : parse text = .ok tree) :
    ∃ span children, tree = .node (.construct .module) none span "" children ∧
      ∀ child ∈ children, bears (adds .statements) child := by
  obtain ⟨mode, state, trees, state', reads, rfl⟩ := exists_reads_of_parse parsed
  have makes : Rule.MakesHeads Grammar.rule false
      (.seq (.call .statements) .textEnd : Rule Symbol) := ⟨trivial, trivial⟩
  refine ⟨_, _, rfl, ?_⟩
  intro child member
  rcases @Rule.Reads.marked _ _ _ _ _ _ (fun _ => False) _ sound Grammar.makesHeads_rule lawful
    _ _ _ _ _ _ reads _ makes [] _ rfl (by simp) child (List.mem_reverse.1 member) with
    bearing | ⟨-, impossible⟩
  · apply sound.mono bearing
    intro mark markMem
    simpa [List.mem_union_iff] using markMem
  · exact impossible.elim

end SemanticDiff.Source
