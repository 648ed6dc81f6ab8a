import Mathlib.Algebra.GroupWithZero.Nat
import SemanticDiff.Proofs.Feature.Writing
import SemanticDiff.Proofs.Outline.Units

/-!
# Features that hang together

The features of a node are not independent of each other: some are sums of others, some
say the same thing in two ways, and some belong to functions or classes only.  What a law
of facts says is passed on from the parts of a scope to the scope, and the rest is said by
the head of the definition.
-/

namespace SemanticDiff.Feature

open SemanticDiff.Outline (Node NodeKind SourceUnit)
open SemanticDiff.Source (Tree Kind Label)

/-! ## Tallies -/

namespace Tally

/-- Every name in the tally was counted. -/
def IsPositive (tally : Tally) : Prop :=
  ∀ name number, tally.get? name = some number → 1 ≤ number

theorem isPositive_empty : IsPositive SortedMap.empty := by
  intro name number found
  cases found

theorem IsPositive.add {first second : Tally} (left : first.IsPositive)
    (right : second.IsPositive) : (first.add second).IsPositive := by
  intro name number found
  rw [get?_add] at found
  cases inFirst : first.get? name with
  | none =>
      rw [inFirst] at found
      exact right name number (by simpa using found)
  | some own =>
      have ownPositive := left name own inFirst
      rw [inFirst] at found
      cases inSecond : second.get? name <;> simp [inSecond] at found <;> omega

theorem get?_foldl_bump_one (names : List String) (tally : Tally) (name : String) :
    (names.foldl (fun tally name => bump tally name 1) tally).get? name =
      if name ∈ names then some ((tally.get? name).getD 0 + names.count name)
      else tally.get? name := by
  induction names generalizing tally with
  | nil => simp
  | cons first rest ih =>
      rw [List.foldl_cons, ih, bump, SortedMap.get?_insert]
      by_cases same : name = first
      · subst name
        by_cases later : first ∈ rest
        · simp [later]
          omega
        · simp [later, List.count_eq_zero_of_not_mem later]
      · simp [same, Ne.symm same]

/-- A tally of names has the names with their numbers. -/
theorem get?_ofNames (names : List String) (name : String) :
    (ofNames names).get? name = if name ∈ names then some (names.count name) else none := by
  rw [ofNames, get?_foldl_bump_one, SortedMap.get?_empty]
  simp

theorem isPositive_ofNames (names : List String) : (ofNames names).IsPositive := by
  intro name number found
  rw [get?_ofNames, Option.ite_none_right_eq_some] at found
  obtain ⟨member, same⟩ := found
  rw [← Option.some.inj same]
  exact List.count_pos_iff.2 member

theorem total_eq_sum (tally : Tally) : tally.total = tally.values.sum := by
  rw [total, List.sum_eq_foldl]

end Tally

/-! ## Laws of facts -/

/-- Who imports a module of annotations uses annotations. -/
def Facts.MarksTyping (facts : Facts) : Prop :=
  ∀ name, facts.imports.get? name ≠ none → isTypingModule name = true → facts.annotated = true

theorem isLaw_isPositive_handlerTypes :
    Facts.IsLaw fun facts => facts.handlerTypes.IsPositive where
  zero := Tally.isPositive_empty
  add _ _ left right := left.add right
  own kind children := by
    cases kind with
    | exceptClause | exceptGroupClause => exact Tally.isPositive_ofNames _
    | _ => exact Tally.isPositive_empty
  nested label := by
    unfold nestedFacts
    split <;> exact Tally.isPositive_empty

theorem isLaw_isPositive_imports : Facts.IsLaw fun facts => facts.imports.IsPositive where
  zero := Tally.isPositive_empty
  add _ _ left right := left.add right
  own kind children := by
    cases kind with
    | importStatement | importFromStatement | futureImportStatement =>
        exact Tally.isPositive_ofNames _
    | _ => exact Tally.isPositive_empty
  nested label := by
    unfold nestedFacts
    split <;> exact Tally.isPositive_empty

theorem marksTyping_of_imports_eq {facts : Facts} (none : facts.imports = SortedMap.empty) :
    facts.MarksTyping := by
  intro name present
  rw [none] at present
  exact absurd (SortedMap.get?_empty name) present

theorem marksTyping_importFacts (modules : List String) : (importFacts modules).MarksTyping := by
  intro name present typing
  have member : name ∈ modules := by
    by_contra absent
    rw [importFacts, Tally.get?_ofNames, if_neg absent] at present
    exact present rfl
  exact List.any_eq_true.2 ⟨name, member, typing⟩

theorem isLaw_marksTyping : Facts.IsLaw Facts.MarksTyping where
  zero := marksTyping_of_imports_eq rfl
  add first second left right name present typing := by
    rw [Facts.add, Bool.or_eq_true]
    cases inFirst : first.imports.get? name with
    | some number => exact Or.inl (left name (by simp [inFirst]) typing)
    | none =>
        rw [Facts.add, Tally.get?_add, inFirst] at present
        exact Or.inr (right name (by simpa using present) typing)
  own kind children := by
    cases kind with
    | importStatement | importFromStatement | futureImportStatement =>
        exact marksTyping_importFacts _
    | _ => exact marksTyping_of_imports_eq rfl
  nested label := by
    unfold nestedFacts
    split <;> exact marksTyping_of_imports_eq rfl

/-- A typing module, or one below it. -/
theorem isTypingModule_iff {name : String} :
    isTypingModule name = true ↔
      ∃ typing ∈ typingModules, name = typing ∨ ∃ rest, name = typing ++ "." ++ rest := by
  rw [isTypingModule, List.any_eq_true]
  apply exists_congr
  intro typing
  rw [Bool.or_eq_true, beq_iff_eq, List.isPrefixOf_iff_prefix]
  apply and_congr_right
  intro _
  apply or_congr Iff.rfl
  constructor
  · rintro ⟨rest, same⟩
    refine ⟨String.ofList rest, ?_⟩
    rw [← String.toList_inj, ← same]
    simp
  · rintro ⟨rest, rfl⟩
    exact ⟨rest.toList, by simp⟩

/-! ## Heads of definitions -/

/-- The head is such as a node of the kind can have. -/
structure Header.Suits (kind : NodeKind) (header : Header) : Prop where
  signature : header.signature ≠ "" ↔ kind = .functionDef
  bases : kind ≠ .classDef → header.bases = ""
  async : kind ≠ .functionDef → header.async = false
  defaultParameters : kind ≠ .functionDef → header.defaultParameters = 0
  decorators : kind = .module → header.decorators = SortedMap.empty
  isPositive : header.decorators.IsPositive

theorem functionHeader_signature_ne (located : Located) :
    (functionHeader located).signature ≠ "" := by
  intro empty
  have length := congrArg (fun text => text.toList.length) empty
  simp [functionHeader] at length

theorem suits_measureAt (kind : NodeKind) (located : Located) :
    (measureAt kind located).1.Suits kind := by
  cases kind with
  | module => exact
      { signature := by simp [measureAt]
        bases := fun _ => rfl
        async := fun _ => rfl
        defaultParameters := fun _ => rfl
        decorators := fun _ => rfl
        isPositive := Tally.isPositive_empty }
  | functionDef => exact
      { signature := iff_of_true (functionHeader_signature_ne located) rfl
        bases := fun _ => rfl
        async := fun other => absurd rfl other
        defaultParameters := fun other => absurd rfl other
        decorators := fun other => absurd other (by decide)
        isPositive := Tally.isPositive_ofNames _ }
  | classDef => exact
      { signature := by simp [measureAt, classHeader]
        bases := fun other => absurd rfl other
        async := fun _ => rfl
        defaultParameters := fun _ => rfl
        decorators := fun other => absurd other (by decide)
        isPositive := Tally.isPositive_ofNames _ }

/-- Every node of a unit has a head that suits it. -/
theorem suits_measure {unit : SourceUnit} (isRead : unit.IsRead) {node : Node}
    (member : node ∈ unit.nodes) : (measure unit.tree node).1.Suits node.kind := by
  rw [isRead.nodes_eq] at member
  obtain ⟨site, siteMem, rfl⟩ := List.mem_map.1 member
  rw [isRead.measure_eq siteMem]
  exact suits_measureAt site.node.kind site.located

/-! ## Snapshots -/

/-- What the features of a node of a kind have to do with each other and with the kind. -/
structure Consistent (kind : NodeKind) (snapshot : Snapshot) : Prop where
  listed : ∀ feature, feature ∈ snapshot.entries.map Prod.fst
  distinct : (snapshot.entries.map Prod.fst).Nodup
  number : snapshot.entries.length = 27
  shapes : ∀ entry ∈ snapshot.entries, entry.2.kind = entry.1.kind
  complexity : snapshot.countOf .complexity =
    snapshot.countOf .controlFlow + snapshot.countOf .returns + snapshot.countOf .yields +
      snapshot.countOf .exceptionHandlers
  functionalMarkers : snapshot.countOf .functionalMarkers =
    snapshot.countOf .lambdas + snapshot.countOf .comprehensions
  decorators : snapshot.countOf .decorators = (snapshot.tallyOf .decoratorNames).values.sum
  tallies : ∀ feature, feature.kind = .tally →
    ∀ number ∈ (snapshot.tallyOf feature).values, 1 ≤ number
  handlers : snapshot.countOf .exceptionHandlers = 0 →
    snapshot.tallyOf .handlerTypes = SortedMap.empty
  typing : ∀ name ∈ (snapshot.tallyOf .imports).keys,
    ∀ typing ∈ ["typing", "typing_extensions"],
      (name = typing ∨ ∃ rest, name = typing ++ "." ++ rest) →
        snapshot.flagOf .typeAnnotations = true
  signature : snapshot.textOf .signature ≠ "" ↔ kind = .functionDef
  bases : kind ≠ .classDef → snapshot.textOf .baseClasses = ""
  async : kind ≠ .functionDef → snapshot.flagOf .async = false
  defaultParameters : kind ≠ .functionDef → snapshot.countOf .defaultParameters = 0
  undecorated : kind = .module → snapshot.tallyOf .decoratorNames = SortedMap.empty

section

variable {unit : SourceUnit} {node : Node}

theorem isOver_extract (unit : SourceUnit) (node : Node) :
    (extract unit node).IsOver extracted := by
  rw [extract_eq]
  exact (Snapshot.isOver_zero extracted).setAll _

/-- An extracted snapshot has all features and no other ones. -/
theorem map_fst_entries_extract (unit : SourceUnit) (node : Node) :
    (extract unit node).entries.map Prod.fst = Feature.all := by
  rw [Snapshot.map_fst_entries, List.filter_eq_self]
  intro feature member
  exact ((isOver_extract unit node).present feature).2 member

theorem tallyOf_extract {feature : Feature} {names : Tally}
    (member : (feature, Value.tally names) ∈
      values (measure unit.tree node).1 (measure unit.tree node).2) :
    (extract unit node).tallyOf feature = names :=
  Snapshot.tallyOf_of_get? (get?_extract member)

theorem flagOf_extract {feature : Feature} {set : Bool}
    (member : (feature, Value.flag set) ∈
      values (measure unit.tree node).1 (measure unit.tree node).2) :
    (extract unit node).flagOf feature = set :=
  Snapshot.flagOf_of_get? (get?_extract member)

theorem textOf_extract {feature : Feature} {content : String}
    (member : (feature, Value.text content) ∈
      values (measure unit.tree node).1 (measure unit.tree node).2) :
    (extract unit node).textOf feature = content :=
  Snapshot.textOf_of_get? (get?_extract member)

theorem tallyOf_handlerTypes (unit : SourceUnit) (node : Node) :
    (extract unit node).tallyOf .handlerTypes = (measure unit.tree node).2.handlerTypes :=
  tallyOf_extract (by simp [values])

theorem tallyOf_decoratorNames (unit : SourceUnit) (node : Node) :
    (extract unit node).tallyOf .decoratorNames = (measure unit.tree node).1.decorators :=
  tallyOf_extract (by simp [values])

theorem tallyOf_imports (unit : SourceUnit) (node : Node) :
    (extract unit node).tallyOf .imports = (measure unit.tree node).2.imports :=
  tallyOf_extract (by simp [values])

/-- Complexity is the sum of four counts. -/
theorem countOf_complexity (unit : SourceUnit) (node : Node) :
    (extract unit node).countOf .complexity =
      (extract unit node).countOf .controlFlow + (extract unit node).countOf .returns +
        (extract unit node).countOf .yields + (extract unit node).countOf .exceptionHandlers := by
  have complexity : (extract unit node).countOf .complexity =
      (measure unit.tree node).2.controlFlow + (measure unit.tree node).2.returns +
        (measure unit.tree node).2.yields + (measure unit.tree node).2.handlers :=
    countOf_extract (by simp [values])
  have controlFlow : (extract unit node).countOf .controlFlow =
      (measure unit.tree node).2.controlFlow := countOf_extract (by simp [values])
  have returns : (extract unit node).countOf .returns = (measure unit.tree node).2.returns :=
    countOf_extract (by simp [values])
  have yields : (extract unit node).countOf .yields = (measure unit.tree node).2.yields :=
    countOf_extract (by simp [values])
  have handlers : (extract unit node).countOf .exceptionHandlers =
      (measure unit.tree node).2.handlers := countOf_extract (by simp [values])
  rw [complexity, controlFlow, returns, yields, handlers]

/-- Decorators are counted name by name. -/
theorem countOf_decorators (unit : SourceUnit) (node : Node) :
    (extract unit node).countOf .decorators =
      ((extract unit node).tallyOf .decoratorNames).values.sum := by
  rw [tallyOf_decoratorNames, ← Tally.total_eq_sum]
  exact countOf_extract (by simp [values])

/-- The tallies of a node have no names that were not counted. -/
theorem isPositive_tallyOf (suits : (measure unit.tree node).1.Suits node.kind)
    {feature : Feature} (shape : feature.kind = .tally) :
    ((extract unit node).tallyOf feature).IsPositive := by
  cases feature with
  | handlerTypes =>
      rw [tallyOf_handlerTypes]
      exact isLaw_isPositive_handlerTypes.measure unit.tree node
  | decoratorNames =>
      rw [tallyOf_decoratorNames]
      exact suits.isPositive
  | imports =>
      rw [tallyOf_imports]
      exact isLaw_isPositive_imports.measure unit.tree node
  | _ => cases shape

/-- Imports of a typing module are marked as annotations. -/
theorem flagOf_typeAnnotations {name : String}
    (imported : name ∈ ((extract unit node).tallyOf .imports).keys)
    (typing : isTypingModule name = true) : (extract unit node).flagOf .typeAnnotations = true := by
  rw [tallyOf_imports] at imported
  obtain ⟨⟨_, number⟩, entry, rfl⟩ := List.mem_map.1 imported
  have present := Option.ne_none_iff_exists'.2 ⟨number, SortedMap.mem_entries_iff.1 entry⟩
  have annotated := isLaw_marksTyping.measure unit.tree node _ present typing
  have reads : (extract unit node).flagOf .typeAnnotations =
      ((measure unit.tree node).1.annotated || (measure unit.tree node).2.annotated) :=
    flagOf_extract (by simp [values])
  rw [reads, annotated, Bool.or_true]

/-- The features of every node of a unit are consistent. -/
theorem consistent_extract {path revision text : String}
    (made : SourceUnit.read path revision text = .ok unit) (member : node ∈ unit.nodes) :
    Consistent node.kind (extract unit node) := by
  have suits := suits_measure (SourceUnit.isRead_of_read made) member
  have features := map_fst_entries_extract unit node
  have signature : (extract unit node).textOf .signature =
      (measure unit.tree node).1.signature := textOf_extract (by simp [values])
  have bases : (extract unit node).textOf .baseClasses = (measure unit.tree node).1.bases :=
    textOf_extract (by simp [values])
  have async : (extract unit node).flagOf .async = (measure unit.tree node).1.async :=
    flagOf_extract (by simp [values])
  have defaults : (extract unit node).countOf .defaultParameters =
      (measure unit.tree node).1.defaultParameters := countOf_extract (by simp [values])
  constructor
  case listed =>
    intro feature
    rw [features]
    exact Feature.mem_all feature
  case distinct =>
    rw [features]
    decide
  case number =>
    rw [← List.length_map Prod.fst, features]
    rfl
  case shapes => exact fun entry => (isOver_extract unit node).kind_of_mem_entries
  case complexity => exact countOf_complexity unit node
  case functionalMarkers => exact countOf_functionalMarkers unit node
  case decorators => exact countOf_decorators unit node
  case tallies =>
    intro feature shape number inside
    obtain ⟨⟨name, _⟩, entryMem, rfl⟩ := List.mem_map.1 inside
    exact isPositive_tallyOf suits shape name _ (SortedMap.mem_entries_iff.1 entryMem)
  case handlers => exact tallyOf_handlerTypes_eq_empty
  case typing =>
    intro name imported typing typingMem below
    exact flagOf_typeAnnotations imported (isTypingModule_iff.2 ⟨typing, typingMem, below⟩)
  case signature =>
    rw [signature]
    exact suits.signature
  case bases =>
    rw [bases]
    exact suits.bases
  case async =>
    rw [async]
    exact suits.async
  case defaultParameters =>
    rw [defaults]
    exact suits.defaultParameters
  case undecorated =>
    rw [tallyOf_decoratorNames]
    exact suits.decorators

end

/-- A module with an import, a function that is decorated twice and a class. -/
theorem consistent_extract_of_decorated : ∃ unit,
    SourceUnit.read "m.py" "r1"
        "import typing.io\n@d\n@d\ndef f(a=1): return [x for x in a]\nclass C(B): 0\n" =
        .ok unit ∧
      (unit.nodes.map fun node => ((extract unit node).countOf .complexity,
        (extract unit node).countOf .decorators, (extract unit node).flagOf .typeAnnotations,
        (extract unit node).textOf .signature)) =
        [(0, 0, true, ""), (1, 2, false, "(a=1)"), (0, 0, false, "")] ∧
      ∀ node ∈ unit.nodes, Consistent node.kind (extract unit node) := by
  have seen : ((SourceUnit.read "m.py" "r1"
      "import typing.io\n@d\n@d\ndef f(a=1): return [x for x in a]\nclass C(B): 0\n").toOption.map
        fun unit => unit.nodes.map fun node => ((extract unit node).countOf .complexity,
          (extract unit node).countOf .decorators, (extract unit node).flagOf .typeAnnotations,
          (extract unit node).textOf .signature)) =
      some [(0, 0, true, ""), (1, 2, false, "(a=1)"), (0, 0, false, "")] := by
    decide +kernel
  obtain ⟨unit, made, observed⟩ := exists_ok_of_map_eq_some seen
  exact ⟨unit, made, observed, fun node member => consistent_extract made member⟩

end SemanticDiff.Feature
