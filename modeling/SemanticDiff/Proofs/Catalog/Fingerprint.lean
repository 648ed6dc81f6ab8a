import SemanticDiff.Proofs.Catalog.Findings

/-!
# What the catalog compares

The fingerprint of a node is what the rules compare of it, by its kind.  Nothing
is reported about two nodes exactly when their fingerprints are equal: no rule
looks at anything else, and every part of a fingerprint is looked at.
-/

namespace SemanticDiff.Catalog

open SemanticDiff.Feature (Snapshot Tally extract)
open SemanticDiff.Outline (Node NodeKind SourceUnit)
open Classifier

/-- What is compared of functions only. -/
structure FunctionPrint where
  signature : String
  complexity : Nat
  returns : Nat
  yields : Nat
  defaultParameters : Nat
  async : Bool
deriving DecidableEq

/-- What is compared of a node. -/
structure Fingerprint where
  lambdas : Nat
  comprehensions : Nat
  typeAnnotations : Bool
  starredExpressions : Nat
  slices : Nat
  stringLiterals : Nat
  numericLiterals : Nat
  booleanLiterals : Nat
  noneLiterals : Nat
  assertions : Nat
  scopeDeclarations : Nat
  imports : Finset String
  /-- The number of nested classes and the decorators of a function or class. -/
  definition : Option (Nat × Finset String)
  /-- Whether a function or module handles errors, and which. -/
  handling : Option (Bool × Finset String)
  function : Option FunctionPrint
  /-- The bases of a class. -/
  bases : Option String
deriving DecidableEq

/-- The names of a tally. -/
def nameSet (names : Tally) : Finset String :=
  names.keys.toFinset

/-- Whether errors are handled, and which. -/
def handlingOf (snapshot : Snapshot) : Bool × Finset String :=
  (decide (0 < snapshot.countOf .exceptionHandlers), nameSet (snapshot.tallyOf .handlerTypes))

/-- The fingerprint of a node of a kind. -/
def fingerprint (kind : NodeKind) (snapshot : Snapshot) : Fingerprint where
  lambdas := snapshot.countOf .lambdas
  comprehensions := snapshot.countOf .comprehensions
  typeAnnotations := snapshot.flagOf .typeAnnotations
  starredExpressions := snapshot.countOf .starredExpressions
  slices := snapshot.countOf .slices
  stringLiterals := snapshot.countOf .stringLiterals
  numericLiterals := snapshot.countOf .numericLiterals
  booleanLiterals := snapshot.countOf .booleanLiterals
  noneLiterals := snapshot.countOf .noneLiterals
  assertions := snapshot.countOf .assertions
  scopeDeclarations := snapshot.countOf .scopeDeclarations
  imports := nameSet (snapshot.tallyOf .imports)
  definition :=
    match kind with
    | .functionDef | .classDef =>
        some (snapshot.countOf .nestedClasses, nameSet (snapshot.tallyOf .decoratorNames))
    | .module => none
  handling :=
    match kind with
    | .functionDef | .module => some (handlingOf snapshot)
    | .classDef => none
  function :=
    match kind with
    | .functionDef =>
        some
          { signature := snapshot.textOf .signature
            complexity := snapshot.countOf .complexity
            returns := snapshot.countOf .returns
            yields := snapshot.countOf .yields
            defaultParameters := snapshot.countOf .defaultParameters
            async := snapshot.flagOf .async }
    | _ => none
  bases :=
    match kind with
    | .classDef => some (snapshot.textOf .baseClasses)
    | _ => none

theorem nameSet_eq_iff {first second : Tally} :
    nameSet first = nameSet second ↔ first.keys = second.keys := by
  constructor
  · intro same
    rw [SortedMap.keys_eq_keys_iff]
    intro name
    rw [← SortedMap.mem_keys_iff, ← SortedMap.mem_keys_iff, ← List.mem_toFinset,
      ← List.mem_toFinset]
    exact Finset.ext_iff.1 same name
  · intro same
    rw [nameSet, same, nameSet]

/-! ## Silence of a catalog -/

variable {before after : SourceUnit} {old new : Node}

/-- Nothing is reported exactly when every rule that applies reports nothing. -/
theorem not_reports_iff {context : Context} (holds : ∀ feature, context.Holds feature) :
    (∀ draft, ¬ context.Reports draft) ↔
      ∀ rule ∈ rules, rule.appliesTo context = true → rule.classify context = .ok [] := by
  constructor
  · intro silent rule member applies
    obtain ⟨drafts, made, -⟩ := honoursContract_of_mem_rules rule member context
      fun feature _ => holds feature
    have none : drafts = [] := by
      rw [List.eq_nil_iff_forall_not_mem]
      intro draft here
      exact silent draft ⟨rule, member, applies, drafts, made, here⟩
    rw [made, none]
  · rintro silent draft ⟨rule, member, applies, drafts, made, here⟩
    rw [silent rule member applies] at made
    cases made
    simp at here

/-- A comparison of nodes of two units is silent exactly when it has no drafts. -/
theorem Classifier.Compares.eq_nil_iff {classifier : Classifier} {reads : List Feature}
    {drafts : Snapshot → Snapshot → List Draft} (compares : Compares classifier reads drafts) :
    classifier (.changed before after old new) = .ok [] ↔
      drafts (extract before old) (extract after new) = [] := by
  rw [compares.reports (Context.snapshots?_changed before after old new), Except.ok.injEq]
  intro feature _
  exact ⟨Feature.holds_extract before old feature, Feature.holds_extract after new feature⟩

section

variable {feature : Feature} {type appeared disappeared : EventType}

theorem count_eq_nil_iff (shape : feature.kind = .count) :
    count feature type (.changed before after old new) = .ok [] ↔
      (extract before old).countOf feature = (extract after new).countOf feature := by
  rw [(compares_count shape type).eq_nil_iff, countDrafts_eq_nil_iff]

theorem presence_eq_nil_iff (shape : feature.kind = .count) :
    presence feature appeared disappeared (.changed before after old new) = .ok [] ↔
      ((extract before old).countOf feature = 0 ↔ (extract after new).countOf feature = 0) := by
  rw [(compares_presence shape appeared disappeared).eq_nil_iff, presenceDrafts_eq_nil_iff]

theorem presenceAndCount_eq_nil_iff (shape : feature.kind = .count) :
    presenceAndCount feature appeared disappeared type (.changed before after old new) = .ok [] ↔
      (extract before old).countOf feature = (extract after new).countOf feature := by
  rw [(compares_presenceAndCount shape appeared disappeared type).eq_nil_iff,
    List.append_eq_nil_iff, presenceDrafts_eq_nil_iff, countDrafts_eq_nil_iff,
    and_iff_right_of_imp]
  intro same
  rw [same]

theorem text_eq_nil_iff (shape : feature.kind = .text) :
    text feature type (.changed before after old new) = .ok [] ↔
      (extract before old).textOf feature = (extract after new).textOf feature := by
  rw [(compares_text shape type).eq_nil_iff, textDrafts_eq_nil_iff]

theorem flag_eq_nil_iff (shape : feature.kind = .flag) :
    flag feature appeared disappeared (.changed before after old new) = .ok [] ↔
      (extract before old).flagOf feature = (extract after new).flagOf feature := by
  rw [(compares_flag shape appeared disappeared).eq_nil_iff, flagDrafts_eq_nil_iff]

theorem names_eq_nil_iff {detail : String} (shape : feature.kind = .tally) :
    names feature detail appeared disappeared (.changed before after old new) = .ok [] ↔
      nameSet ((extract before old).tallyOf feature) =
        nameSet ((extract after new).tallyOf feature) := by
  rw [(compares_names shape detail appeared disappeared).eq_nil_iff, nameDrafts_eq_nil_iff,
    nameSet_eq_iff]

end

theorem counts_eq_nil_iff {kinds : List (Feature × EventType)}
    (shapes : ∀ kind ∈ kinds, kind.1.kind = .count) :
    counts kinds (.changed before after old new) = .ok [] ↔
      ∀ kind ∈ kinds, (extract before old).countOf kind.1 = (extract after new).countOf kind.1 := by
  rw [(compares_counts shapes).eq_nil_iff, countsDrafts, List.flatMap_eq_nil_iff]
  simp only [countDrafts_eq_nil_iff]

/-- The two rules on error handling together compare whether errors are handled
and which: code without handlers catches nothing, so that the guard of the second
rule hides no difference. -/
theorem handling_iff :
    ((extract before old).countOf .exceptionHandlers = 0 ↔
        (extract after new).countOf .exceptionHandlers = 0) ∧
      exceptionHandling (.changed before after old new) = .ok [] ↔
    handlingOf (extract before old) = handlingOf (extract after new) := by
  rw [compares_exceptionHandling.eq_nil_iff, exceptionDrafts, handlingOf, handlingOf,
    Prod.mk.injEq, decide_eq_decide, Nat.pos_iff_ne_zero, Nat.pos_iff_ne_zero, not_iff_not]
  apply and_congr_right
  intro sameHandling
  by_cases none : (extract before old).countOf .exceptionHandlers = 0
  · have noneAfter := sameHandling.1 none
    rw [if_pos (Or.inl none), Feature.tallyOf_handlerTypes_eq_empty none,
      Feature.tallyOf_handlerTypes_eq_empty noneAfter]
    simp
  · have someAfter : (extract after new).countOf .exceptionHandlers ≠ 0 :=
      fun noneAfter => none (sameHandling.2 noneAfter)
    rw [if_neg (not_or.2 ⟨none, someAfter⟩), nameDrafts_eq_nil_iff,
      nameSet_eq_iff]

/-- Nothing is reported about two nodes of one kind exactly when their
fingerprints are equal. -/
theorem not_reports_changed_iff (sameKind : old.kind = new.kind) :
    (∀ draft, ¬ (Context.changed before after old new).Reports draft) ↔
      fingerprint old.kind (extract before old) = fingerprint new.kind (extract after new) := by
  have scope : (Context.changed before after old new).scope = .changed := rfl
  have kind : (Context.changed before after old new).kind = new.kind := rfl
  have literals : ∀ kind ∈ literalKinds, kind.1.kind = .count := by decide
  have handling := @handling_iff before after old new
  -- The rule on functional style adds nothing to those on its two markers.
  have markers (sameLambdas : (extract before old).countOf .lambdas =
        (extract after new).countOf .lambdas)
      (sameComprehensions : (extract before old).countOf .comprehensions =
        (extract after new).countOf .comprehensions) :
      (extract before old).countOf .functionalMarkers = 0 ↔
        (extract after new).countOf .functionalMarkers = 0 := by
    rw [Feature.countOf_functionalMarkers, Feature.countOf_functionalMarkers, sameLambdas,
      sameComprehensions]
  rw [not_reports_iff (Context.holds_changed old new), sameKind]
  simp only [rules, List.forall_mem_cons, Rule.appliesTo_iff, scope, kind, countRule]
  simp (disch := first | decide | assumption) only [count_eq_nil_iff, presence_eq_nil_iff,
    presenceAndCount_eq_nil_iff, text_eq_nil_iff, flag_eq_nil_iff, names_eq_nil_iff,
    counts_eq_nil_iff]
  -- From here on nothing but the two snapshots matters.
  generalize exceptionHandling (Context.changed before after old new) = exceptions at *
  generalize extract before old = oldFeatures at *
  generalize extract after new = newFeatures at *
  cases new.kind
  all_goals
    simp [definitions, functions, functionsAndModules, allKinds, classes, literalKinds,
      fingerprint]
    grind

end SemanticDiff.Catalog
