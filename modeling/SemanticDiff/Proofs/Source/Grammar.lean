import SemanticDiff.Proofs.Source.Definition

/-!
# The grammar gives every definition a head

The rules of the grammar are gone through one by one.  All but two make no
definition at all.  The rules of functions and classes read a keyword before
anything else, a word as the name, and then the other parts in their order.
-/

namespace SemanticDiff.Source

open Source.Tree

@[simp]
theorem Label.isDefinition_construct (kind : Kind) :
    (Label.construct kind).isDefinition =
      (kind == .functionDefinition || kind == .classDefinition) := by
  rw [Bool.eq_iff_iff]
  simp [Label.isDefinition]

@[simp]
theorem Label.isDefinition_literal (text : String) :
    (Label.literal text).isDefinition = false :=
  rfl

@[simp]
theorem Label.isDefining_construct (kind : Kind) :
    (Label.construct kind).isDefining =
      (kind == .functionDefinition || kind == .classDefinition ||
        kind == .decoratedDefinition) := by
  rw [Bool.eq_iff_iff]
  simp [Label.isDefining]

namespace Rule

variable {σ : Type} {grammar : σ → Rule σ} {fresh : Bool}

/-! ## The check on composed rules -/

@[simp]
theorem makesHeads_chain {rule : Rule σ} {rules : List (Rule σ)} :
    MakesHeads grammar fresh (chain (rule :: rules)) ↔
      MakesHeads grammar fresh rule ∧ ∀ later ∈ rules, MakesHeads grammar false later := by
  induction rules generalizing rule fresh with
  | nil => simp [chain]
  | cons next rest ih => simp [chain, ih]

@[simp]
theorem makesHeads_oneOf {rules : List (Rule σ)} :
    MakesHeads grammar fresh (oneOf rules) ↔
      ∀ rule ∈ rules, MakesHeads grammar fresh rule := by
  induction rules with
  | nil => simp [oneOf]
  | cons rule rest ih =>
      cases rest with
      | nil => simp [oneOf]
      | cons next rest => simp [oneOf, ih]

@[simp]
theorem makesHeads_opt {rule : Rule σ} :
    MakesHeads grammar fresh (opt rule) ↔ MakesHeads grammar fresh rule := by
  simp [opt]

@[simp]
theorem makesHeads_node {kind : Kind} {rule : Rule σ}
    (other : (Label.construct kind).isDefining = false) :
    MakesHeads grammar fresh (node kind rule) ↔ MakesHeads grammar true rule := by
  rcases Label.isDefining_eq_false_iff.1 other with ⟨plain, undecorated⟩
  rw [node, MakesHeads, MakesHeads, plain]
  exact and_iff_left ⟨nofun, fun decorated => absurd decorated undecorated⟩

@[simp]
theorem makesHeads_grow {kind : Kind} {rule : Rule σ}
    (other : (Label.construct kind).isDefining = false) :
    MakesHeads grammar fresh (grow kind rule) ↔ MakesHeads grammar fresh rule := by
  rcases Label.isDefining_eq_false_iff.1 other with ⟨plain, undecorated⟩
  rw [grow, MakesHeads, plain]
  exact and_iff_left ⟨nofun, fun decorated => absurd decorated undecorated⟩

@[simp]
theorem makesHeads_inRole {field : Field} {rule : Rule σ} :
    MakesHeads grammar fresh (inRole field rule) ↔ MakesHeads grammar true rule := by
  simp [inRole]

@[simp]
theorem makesHeads_op {text : String} : MakesHeads grammar fresh (op text) := by
  simp [op]

@[simp]
theorem makesHeads_keyword {text : String} : MakesHeads grammar fresh (keyword text) := by
  simp [keyword]

@[simp]
theorem makesHeads_onWord {words : List String} {yes no : Rule σ} :
    MakesHeads grammar fresh (onWord words yes no) ↔
      MakesHeads grammar fresh yes ∧ MakesHeads grammar fresh no := by
  simp [onWord]

end Rule

namespace Grammar

open Rule

/-! ## Kinds told from what is in scope -/

theorem tellsListed_choice {test : List Tree → Bool} {yes no : Kind}
    (first : isTold yes = true) (second : isTold no = true) :
    TellsListed fun trees => some (if test trees then yes else no) := by
  intro trees made told
  rw [← Option.some.inj told]
  split
  · exact first
  · exact second

theorem tellsListed_listedAs {kind : Kind} (listed : isTold kind = true) :
    TellsListed (listedAs kind) := by
  intro trees made told
  rw [listedAs, Option.ite_none_right_eq_some] at told
  rw [← Option.some.inj told.2]
  exact listed

@[simp]
theorem tellsListed_expressionList : TellsListed (listedAs .expressionList) :=
  tellsListed_listedAs rfl

@[simp]
theorem tellsListed_patternList : TellsListed (listedAs .patternList) :=
  tellsListed_listedAs rfl

@[simp]
theorem tellsListed_typedParameter : TellsListed fun trees =>
    some (if hasLiteral "=" trees then .typedDefaultParameter else .typedParameter) :=
  tellsListed_choice rfl rfl

@[simp]
theorem tellsListed_arguments : TellsListed fun trees =>
    some (if hasKind .forInClause trees then .generatorExpression else .argumentList) :=
  tellsListed_choice rfl rfl

@[simp]
theorem tellsListed_listKind : TellsListed listKind :=
  tellsListed_choice rfl rfl

@[simp]
theorem tellsListed_groupKind : TellsListed groupKind := by
  intro trees made told
  rw [← Option.some.inj told]
  split
  · rfl
  · split <;> rfl

@[simp]
theorem tellsListed_bracesKind : TellsListed bracesKind := by
  intro trees made told
  rw [← Option.some.inj told]
  split
  · split <;> rfl
  · split <;> rfl

/-! ## Items -/

@[simp]
theorem makesHeads_moreItemsBefore {fresh : Bool} {words : List String} {item : Rule} :
    MakesHeads rule fresh (moreItemsBefore words item) ↔ MakesHeads rule false item := by
  simp [moreItemsBefore]

@[simp]
theorem makesHeads_trailingComma {fresh : Bool} : MakesHeads rule fresh trailingComma := by
  simp [trailingComma]

@[simp]
theorem makesHeads_itemsBefore {fresh : Bool} {words : List String} {item : Rule} :
    MakesHeads rule fresh (itemsBefore words item) ↔
      MakesHeads rule fresh item ∧ MakesHeads rule false item := by
  simp [itemsBefore]

@[simp]
theorem makesHeads_items {fresh : Bool} {item : Rule} :
    MakesHeads rule fresh (items item) ↔
      MakesHeads rule fresh item ∧ MakesHeads rule false item :=
  makesHeads_itemsBefore

/-! ## Definitions -/

theorem text_wordLeaf (state : State) :
    (tokenLeaf (.construct .identifier) (Lexeme.word state.cursor.rest).length state).text =
      String.ofList (Lexeme.word state.cursor.rest) := by
  apply (Cursor.textTo_advance _ _).trans
  rw [Lexeme.take_length_word]

/-- What is read as the name of a definition is a name. -/
theorem adds_name : Adds rule (inRole .name anyName) NamedByName [[.name]] := by
  intro mode trees state trees' state' reads
  cases reads with
  | scope inside =>
      cases inside with
      | seq readsName readsRole =>
          cases readsName with
          | token spells =>
              cases spells with
              | name present =>
                  cases readsRole with
                  | role =>
                      refine ⟨[_], rfl, ?_, List.mem_singleton.2 rfl⟩
                      intro tree member _
                      rw [List.mem_singleton] at member
                      rw [member, IsName]
                      refine (text_wordLeaf state).symm ▸ ?_
                      rw [String.toList_ofList]
                      exact ⟨Lexeme.exists_word_eq_cons present,
                        fun _ => Lexeme.isName_of_mem_word⟩
                  | token spells => cases spells
      | token spells => cases spells
  | token spells => cases spells

/-- A part of a definition in another role is not its name. -/
theorem adds_part {field : Field} (other : field ≠ .name) {part : Rule}
    (one : LeavesOne rule part) : Adds rule (inRole field part) NamedByName [[field]] := by
  apply Adds.inRole one
  intro tree role named
  exact absurd (Option.some.inj (role.symm.trans named)) other

theorem adds_suite : Adds rule suite NamedByName [[.body]] := by
  have plain := holdsWithoutRole_namedByName
  have block {part : Rule} (one : LeavesOne rule part) :
      Adds rule (inRole .body part) NamedByName [[.body]] :=
    adds_part (by decide) one
  exact .link (.gap plain _) (.link
    (.branch (.link .indent (.link (.gap plain _) (.link (block (.node _ _)) .nil)))
      (.branch (block .emptyBlock) (block (.node _ _))))
    .nil)

theorem adds_body : Adds rule body NamedByName [[.body]] := by
  have plain := holdsWithoutRole_namedByName
  have block : Adds rule (sym .suite) NamedByName [[.body]] := .call adds_suite
  exact .link (.gap plain _) (.link (.operator plain _ _) (.link block .nil))

/-- Type parameters may stand after the name of a definition. -/
theorem adds_typeParameters :
    Adds rule (opt (chain [.gap .join, sym .typeParameters])) NamedByName [[], []] := by
  have plain := holdsWithoutRole_namedByName
  have listed : Adds rule (sym .typeParameters) NamedByName [[]] := .call (.node plain _ _)
  exact .opt (.link (.gap plain _) (.link listed .nil))

/-- An annotation is a single tree. -/
theorem leavesOne_unboundedType : LeavesOne rule unboundedType :=
  (LeavesOne.node _ _).seq_many.scope

theorem makesHeads_functionDefinition : MakesHeads rule false functionDefinition := by
  have plain := holdsWithoutRole_namedByName
  have async : Adds rule (chain [keyword "async", .resume]) NamedByName [[]] :=
    .link (.word plain _ _) (.link (.resume plain) .nil)
  have result : Adds rule (opt (chain
      [.gap .join, op "->", .gap .value,
        inRole .returnType (heading unboundedType)])) NamedByName [[], [.returnType]] :=
    .opt (.link (.gap plain _) (.link (.operator plain _ _) (.link (.gap plain _)
      (.link (adds_part (by decide) (leavesOne_unboundedType.within _ _)) .nil))))
  have listed : Adds rule (inRole .parameters parameters) NamedByName [[.parameters]] :=
    adds_part (by decide) (.node _ _)
  have afterDef := Adds.link (.gap plain .join) (.link adds_name (.link adds_typeParameters
    (.link (.gap plain .join) (.link listed (.link result (.link adds_body .nil))))))
  have fromDef := Adds.link (.word plain "def" none) afterDef
  rw [functionDefinition, Rule.node, MakesHeads, MakesHeads]
  refine ⟨?_, fun _ => ⟨rfl, ?_, (Adds.link async.opt fromDef).mono (by decide)⟩, nofun⟩
  · simp [parameters, parameter, typedTail, typedSplat, splatParameter, tupleParameter,
      defaultTail, heading, unboundedType, annotationBase, body, anyName]
  · exact .opt_seq (.seq (.keyword (by decide)) (.resume plain))
      (.seq (.keyword (by decide)) afterDef) fromDef

theorem makesHeads_classDefinition : MakesHeads rule false classDefinition := by
  have plain := holdsWithoutRole_namedByName
  have bases : Adds rule (opt (chain
      [.gap .join, inRole .superclasses (sym .argumentList)])) NamedByName
      [[], [.superclasses]] :=
    .opt (.link (.gap plain _) (.link (adds_part (by decide) (.call (.node _ _))) .nil))
  have afterClass := Adds.link (.gap plain .join) (.link adds_name (.link adds_typeParameters
    (.link bases (.link adds_body .nil))))
  rw [classDefinition, Rule.node, MakesHeads, MakesHeads]
  refine ⟨?_, fun _ => ⟨rfl, ?_, (Adds.link (.word plain "class" none) afterClass).mono
    (by decide)⟩, nofun⟩
  · simp [body, anyName]
  · exact .seq (.keyword (by decide)) afterClass

/-- Behind decorators there is a class or a function, in the role of the definition. -/
theorem makesHeads_decoratedDefinition {fresh : Bool} :
    MakesHeads rule fresh decoratedDefinition := by
  have plain := holdsWithoutRole_namedByName
  have one : LeavesOne rule (.alt (sym .classDefinition) (sym .functionDefinition)) :=
    .alt (.call (.node _ _)) (.call (.node _ _))
  have more : Adds rule (.many (chain [.gap .join, decorator])) NamedByName [[]] :=
    .many (.link (.gap plain _) (.link (.node plain _ _) .nil))
  have adds := Adds.link (.node plain _ _ : Adds rule decorator NamedByName [[]]) (.link more
    (.link (.gap plain .join) (.link (adds_part (by decide : Field.definition ≠ .name) one) .nil)))
  rw [decoratedDefinition, Rule.node, MakesHeads, MakesHeads]
  refine ⟨?_, nofun, fun _ => ⟨rfl, adds.mono (by decide)⟩⟩
  simp [decorator]

/-- No rule makes a definition without a head, or puts other than one behind decorators. -/
theorem makesHeads_rule (symbol : Symbol) : MakesHeads rule false (rule symbol) := by
  cases symbol with
  | expression => simp [rule, expression]
  | aliased => simp [rule, aliased]
  | disjunction | conjunction => simp [rule, wordOperator]
  | inversion => simp [rule, inversion, expressionName]
  | comparison => simp [rule, comparison, comparisonOperator]
  | bitOr | bitAnd | bitXor | shift | sum | product => simp [rule, binary]
  | unary => simp [rule, unary]
  | power => simp [rule, power]
  | primary => simp [rule, primaryChain, subscriptItem, sliceRest, anyName]
  | atom => simp [rule, atom, starred, expressionName]
  | lambda =>
      simp [rule, lambda, lambdaParameter, splatParameter, tupleParameter, defaultTail,
        anyName]
  | yield => simp [rule, yieldExpression]
  | group =>
      simp [rule, bracketed, element, listSplat, comprehensionClauses, forInClause,
        ifClause, moreItems]
  | list =>
      simp [rule, bracketed, element, listSplat, comprehensionClauses, forInClause,
        ifClause, moreItems]
  | braces =>
      simp [rule, braces, entry, element, listSplat, dictionarySplat,
        comprehensionClauses, forInClause, ifClause, moreItems]
  | strings => simp [rule, strings]
  | string => simp [rule, string]
  | interpolation | formatExpression => simp [rule, interpolationBody]
  | callArguments =>
      simp [rule, callArguments, argument, listSplat, dictionarySplat, keywordArgument,
        expressionName, comprehensionClauses, forInClause, ifClause, moreItems]
  | argumentList =>
      simp [rule, argumentList, argument, listSplat, dictionarySplat, keywordArgument,
        expressionName, moreItems]
  | expressions => simp [rule, expressions, expressionsBefore]
  | target => simp [rule, target]
  | targetList => simp [rule, targetList]
  | type => simp [rule, typeRule, unboundedType, annotationBase, anyName]
  | typeParameters => simp [rule, typeParameters]
  | casePattern => simp [rule, casePattern, anyName]
  | simplePattern =>
      simp [rule, simplePattern, singlePattern, complexPattern, signedNumber, classPattern,
        dottedName, splatPattern, keyPattern, patternsBetween, anyName]
  | statements => simp [rule, statements]
  | statement =>
      simp [rule, statement, byWord, ifStatement, forStatement, whileStatement, tryStatement,
        withStatement, withItem, matchStatement, caseClause, makesHeads_decoratedDefinition,
        exceptClause, exceptGroupClause, finallyTail, clause, heading, body]
  | simpleStatements => simp [rule, simpleStatements]
  | simpleStatement =>
      simp [rule, simpleStatement, byWord, importFrom, importItem, importNames, relativeImport,
        dottedName, strictItems, raiseStatement, keywordStatement, declaration, printTo,
        printStatement, wholeStatement, statementEnd, expressionStatement, execStatement,
        typeAliasStatement, assignmentTail, expressionsBefore, moreItems, anyName]
  | suite => simp [rule, suite]
  | rightHandSide => simp [rule, rightHandSide, assignmentTail]
  | elifTail => simp [rule, elifTail, clause, conditionClause, heading, body]
  | elseTail => simp [rule, elseTail, clause, body]
  | exceptTail => simp [rule, exceptTail, clause, exceptClause, heading, body]
  | exceptGroupTail => simp [rule, exceptGroupTail, exceptGroupClause, heading, body]
  | afterHandlers => simp [rule, afterHandlers, finallyTail, clause, body]
  | functionDefinition => exact makesHeads_functionDefinition
  | classDefinition => exact makesHeads_classDefinition

end Grammar

/-- In the tree of a text the children of every node are such as its label asks for. -/
theorem obeys_of_parse {text : String} {tree : Tree} (parsed : parse text = .ok tree) :
    tree.Obeys Suits := by
  obtain ⟨mode, state, trees, state', reads, rfl⟩ := exists_reads_of_parse parsed
  have makes : Rule.MakesHeads Grammar.rule false
      (.seq (.call .statements) .textEnd : Rule Symbol) := ⟨trivial, trivial⟩
  have obey := reads.obeys Grammar.makesHeads_rule makes nofun (by simp)
  rw [obeys_node, allObey_iff]
  exact ⟨suits_of_isDefining_eq_false rfl _,
    fun child member => obey child (List.mem_reverse.1 member)⟩

/-- In the tree of a text every definition has a head. -/
theorem headsDefinitions_of_parse {text : String} {tree : Tree} (parsed : parse text = .ok tree) :
    tree.HeadsDefinitions :=
  (obeys_of_parse parsed).mono fun _ _ suits => suits.head

/-- In the tree of a text there is one definition behind decorators. -/
theorem decorates_of_parse {text : String} {tree : Tree} (parsed : parse text = .ok tree) :
    tree.Decorates :=
  (obeys_of_parse parsed).mono fun _ _ suits => suits.decorated

end SemanticDiff.Source
