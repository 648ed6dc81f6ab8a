import SemanticDiff.Proofs.Catalog.Findings

/-!
# Reports in reverse

When the two sides of a comparison change places, what appeared disappears and
what was the value before is the value after.  Every rule respects this: what it
reports about the exchanged sides is the mirror image of what it reported.
-/

namespace SemanticDiff

/-! ## Mirror images -/

/-- The event that undoes an event. -/
def EventType.mirror : EventType → EventType
  | .nodeAdded => .nodeRemoved
  | .nodeRemoved => .nodeAdded
  | .decoratorAdded => .decoratorRemoved
  | .decoratorRemoved => .decoratorAdded
  | .errorHandlingIntroduced => .errorHandlingRemoved
  | .errorHandlingRemoved => .errorHandlingIntroduced
  | .exceptionHandlingAdded => .exceptionHandlingRemoved
  | .exceptionHandlingRemoved => .exceptionHandlingAdded
  | .functionalProgrammingAdopted => .functionalProgrammingRemoved
  | .functionalProgrammingRemoved => .functionalProgrammingAdopted
  | .typeAnnotationsIntroduced => .typeAnnotationsRemoved
  | .typeAnnotationsRemoved => .typeAnnotationsIntroduced
  | .defaultParametersAdded => .defaultParametersRemoved
  | .defaultParametersRemoved => .defaultParametersAdded
  | .nestedClassAdded => .nestedClassRemoved
  | .nestedClassRemoved => .nestedClassAdded
  | .functionMadeAsync => .functionMadeSync
  | .functionMadeSync => .functionMadeAsync
  | .dependencyAdded => .dependencyRemoved
  | .dependencyRemoved => .dependencyAdded
  | type => type

@[simp]
theorem EventType.mirror_mirror (type : EventType) : type.mirror.mirror = type := by
  cases type <;> rfl

namespace Details

/-- The names of the two values of a change, exchanged. -/
def swapName (name : String) : String :=
  if name = "from" then "to" else if name = "to" then "from" else name

theorem swapName_swapName (name : String) : swapName (swapName name) = name := by
  by_cases isFrom : name = "from"
  · rw [isFrom]
    decide
  · by_cases isTo : name = "to"
    · rw [isTo]
      decide
    · simp [swapName, isFrom, isTo]

/-- The details with the two values of a change exchanged. -/
def mirror (details : Details) : Details :=
  SortedMap.ofList (details.entries.map fun entry => (swapName entry.1, entry.2))

theorem get?_mirror (details : Details) (name : String) :
    (mirror details).get? name = details.get? (swapName name) := by
  have distinct : ((details.entries.map fun entry => (swapName entry.1, entry.2)).map
      Prod.fst).Nodup := by
    have keys : details.keys.Nodup := details.pairwise_keys.imp String.ne_of_lt
    rw [List.map_map, show Prod.fst ∘ (fun entry : String × Detail => (swapName entry.1, entry.2)) =
      swapName ∘ Prod.fst from rfl, ← List.map_map]
    apply keys.map
    intro first second same
    rw [← swapName_swapName first, same, swapName_swapName]
  apply Option.ext
  intro detail
  rw [mirror, SortedMap.get?_ofList_eq_some_iff distinct, ← SortedMap.mem_entries_iff,
    List.mem_map]
  constructor
  · rintro ⟨⟨other, held⟩, member, same⟩
    cases same
    rw [swapName_swapName]
    exact member
  · intro member
    exact ⟨_, member, by rw [swapName_swapName]⟩

@[simp]
theorem mirror_mirror (details : Details) : mirror (mirror details) = details := by
  apply SortedMap.ext_get?
  intro name
  rw [get?_mirror, get?_mirror, swapName_swapName]

end Details

namespace Draft

/-- The draft that undoes a draft. -/
def mirror (draft : Draft) : Draft where
  type := draft.type.mirror
  details := Details.mirror draft.details

@[simp]
theorem mirror_ofType (type : EventType) : (ofType type).mirror = ofType type.mirror :=
  rfl

theorem mirror_withDetail (draft : Draft) (name : String) (detail : Detail) :
    (draft.withDetail name detail).mirror =
      draft.mirror.withDetail (Details.swapName name) detail := by
  have details : Details.mirror (draft.details.insert name detail) =
      (Details.mirror draft.details).insert (Details.swapName name) detail := by
    apply SortedMap.ext_get?
    intro other
    rw [Details.get?_mirror, SortedMap.get?_insert, SortedMap.get?_insert, Details.get?_mirror]
    congr 1
    rw [eq_iff_iff]
    constructor
    · rintro rfl
      rw [Details.swapName_swapName]
    · rintro rfl
      rw [Details.swapName_swapName]
  rw [mirror, withDetail, details, withDetail, mirror]

/-- A change is undone by the change back. -/
@[simp]
theorem mirror_transition (type : EventType) (before after : Detail) :
    (transition type before after).mirror = transition type.mirror after before := by
  rw [transition, mirror_withDetail, mirror_withDetail, mirror_ofType, transition]
  have details : ((SortedMap.empty.insert "to" before).insert "from" after : Details) =
      (SortedMap.empty.insert "from" after).insert "to" before := by
    apply SortedMap.ext_get?
    intro name
    simp only [SortedMap.get?_insert]
    by_cases isFrom : name = "from"
    · simp [isFrom]
    · simp [isFrom]
  exact congrArg (Draft.mk type.mirror) details

end Draft

namespace Catalog

open SemanticDiff.Feature (Snapshot Tally)
open SemanticDiff.Outline (Node NodeKind SourceUnit)

/-! ## Rules -/

namespace Classifier

/-- With the sides exchanged, the mirror images are reported. -/
def Reverses (drafts : Snapshot → Snapshot → List Draft) : Prop :=
  ∀ before after, (drafts after before).Perm ((drafts before after).map Draft.mirror)

section

variable {type appeared disappeared : EventType}

theorem countDrafts_swap (fixed : type.mirror = type) (before after : Nat) :
    countDrafts type after before = (countDrafts type before after).map Draft.mirror := by
  rw [countDrafts, countDrafts]
  by_cases same : before = after
  · rw [if_pos same, if_pos same.symm, List.map_nil]
  · rw [if_neg same, if_neg (Ne.symm same), List.map_singleton, Draft.mirror_transition, fixed]

theorem textDrafts_swap (fixed : type.mirror = type) (before after : String) :
    textDrafts type after before = (textDrafts type before after).map Draft.mirror := by
  rw [textDrafts, textDrafts]
  by_cases same : before = after
  · rw [if_pos same, if_pos same.symm, List.map_nil]
  · rw [if_neg same, if_neg (Ne.symm same), List.map_singleton, Draft.mirror_transition, fixed]

theorem presenceDrafts_swap (opposite : appeared.mirror = disappeared) (before after : Nat) :
    presenceDrafts appeared disappeared after before =
      (presenceDrafts appeared disappeared before after).map Draft.mirror := by
  subst opposite
  rw [presenceDrafts, presenceDrafts]
  by_cases noneBefore : before = 0 <;> by_cases noneAfter : after = 0 <;>
    simp [noneBefore, noneAfter]

theorem flagDrafts_swap (opposite : appeared.mirror = disappeared) (before after : Bool) :
    flagDrafts appeared disappeared after before =
      (flagDrafts appeared disappeared before after).map Draft.mirror := by
  subst opposite
  cases before <;> cases after <;> simp [flagDrafts]

theorem nameDrafts_swap {detail : String} (opposite : appeared.mirror = disappeared)
    (plain : Details.swapName detail = detail) (before after : Tally) :
    (nameDrafts detail appeared disappeared after before).Perm
      ((nameDrafts detail appeared disappeared before after).map Draft.mirror) := by
  subst opposite
  have mirrored (type : EventType) (names : List String) :
      (names.map fun name => (Draft.ofType type).withDetail detail (.text name)).map Draft.mirror =
        names.map fun name => (Draft.ofType type.mirror).withDetail detail (.text name) := by
    simp [Draft.mirror_withDetail, plain]
  rw [nameDrafts, nameDrafts, List.map_append, mirrored, mirrored, EventType.mirror_mirror]
  exact List.perm_append_comm

end

theorem reverses_exceptionDrafts : Reverses exceptionDrafts := by
  intro before after
  rw [exceptionDrafts, exceptionDrafts]
  by_cases guarded : before.countOf .exceptionHandlers = 0 ∨ after.countOf .exceptionHandlers = 0
  · rw [if_pos guarded, if_pos guarded.symm, List.map_nil]
  · rw [if_neg guarded, if_neg fun swapped => guarded swapped.symm]
    exact nameDrafts_swap rfl (by decide) _ _

theorem reverses_countsDrafts {kinds : List (Feature × EventType)}
    (fixed : ∀ kind ∈ kinds, kind.2.mirror = kind.2) : Reverses (countsDrafts kinds) := by
  intro before after
  rw [countsDrafts, countsDrafts, List.map_flatMap]
  apply List.Perm.of_eq
  apply List.flatMap_congr
  intro kind member
  exact countDrafts_swap (fixed kind member) _ _

end Classifier

open Classifier

/-- What a rule for changed nodes reports is reversed with the sides. -/
def Rule.Reversible (rule : Rule) : Prop :=
  rule.scope = .changed → ∃ drafts, Compares rule.classify rule.reads drafts ∧ Reverses drafts

theorem Rule.reversible_countRule {feature : Feature} {type : EventType} (name : String)
    (kinds : List NodeKind) (shape : feature.kind = .count) (fixed : type.mirror = type) :
    (countRule name kinds feature type).Reversible := fun _ =>
  ⟨_, compares_count shape type, fun _ _ => .of_eq (countDrafts_swap fixed _ _)⟩

theorem reversible_of_mem_rules : ∀ rule ∈ rules, rule.Reversible := by
  simp only [rules, List.forall_mem_cons, List.not_mem_nil, false_implies, implies_true, and_true]
  refine ⟨?added, ?removed, ?signature, ?decorators, ?errorHandling, ?exceptionHandling,
    ?complexity, ?returnPattern, ?yieldPattern, ?functionalStyle, ?lambdas, ?comprehensions,
    ?typeAnnotations, ?defaultParameters, ?starred, ?slices, ?nestedClasses, ?literals,
    ?assertions, ?asyncConversion, ?scopeDeclarations, ?inheritance, ?dependencies⟩
  case added | removed =>
      intro changed
      cases changed
  case signature | inheritance =>
      exact fun _ => ⟨_, compares_text rfl _, fun _ _ => .of_eq (textDrafts_swap rfl _ _)⟩
  case decorators | dependencies =>
      exact fun _ => ⟨_, compares_names rfl _ _ _, fun _ _ => nameDrafts_swap rfl (by decide) _ _⟩
  case errorHandling | functionalStyle =>
      exact fun _ => ⟨_, compares_presence rfl _ _, fun _ _ => .of_eq (presenceDrafts_swap rfl _ _)⟩
  case exceptionHandling =>
      exact fun _ => ⟨_, compares_exceptionHandling, reverses_exceptionDrafts⟩
  case typeAnnotations | asyncConversion =>
      exact fun _ => ⟨_, compares_flag rfl _ _, fun _ _ => .of_eq (flagDrafts_swap rfl _ _)⟩
  case defaultParameters | nestedClasses =>
      refine fun _ => ⟨_, compares_presenceAndCount rfl _ _ _, fun before after => .of_eq ?_⟩
      rw [List.map_append]
      exact congrArg₂ (· ++ ·) (presenceDrafts_swap rfl _ _) (countDrafts_swap rfl _ _)
  case literals =>
      exact fun _ => ⟨_, compares_counts (by decide), reverses_countsDrafts (by decide)⟩
  all_goals exact Rule.reversible_countRule _ _ rfl rfl

/-! ## Contexts -/

variable {before after : SourceUnit} {old new : Node} {draft : Draft}

/-- What is reported about two nodes is undone by what is reported about them in
reverse. -/
theorem reports_changed_swap (sameKind : old.kind = new.kind)
    (reports : (Context.changed before after old new).Reports draft) :
    (Context.changed after before new old).Reports draft.mirror := by
  rcases reports with ⟨rule, member, applies, drafts, made, here⟩
  rcases Rule.appliesTo_iff.1 applies with ⟨scope, kindMem⟩
  obtain ⟨compare, compares, reverses⟩ := reversible_of_mem_rules rule member scope
  have compared (before after : SourceUnit) (old new : Node) :=
    compares.reports (Context.snapshots?_changed before after old new) fun feature _ =>
      ⟨Feature.holds_extract before old feature, Feature.holds_extract after new feature⟩
  rw [compared] at made
  rw [← Except.ok.inj made] at here
  refine ⟨rule, member, Rule.appliesTo_iff.2 ⟨scope, ?_⟩, _, compared after before new old, ?_⟩
  · rw [Context.changed] at kindMem ⊢
    rw [sameKind]
    exact kindMem
  · exact (reverses _ _).mem_iff.2 (List.mem_map.2 ⟨draft, here, rfl⟩)

theorem mirror_mem_placeDrafts {type : EventType} {context swapped : Context} {side : Side}
    (sameKind : context.kind = swapped.kind) (member : draft ∈ placeDrafts type context (some side)) :
    draft.mirror ∈ placeDrafts type.mirror swapped (some side) := by
  rw [placeDrafts, List.mem_singleton] at member ⊢
  rw [member, Draft.mirror_withDetail, Draft.mirror_withDetail, Draft.mirror_withDetail,
    Draft.mirror_ofType, sameKind]
  rfl

theorem reports_removed_of_reports_added (reports : (Context.added after new).Reports draft) :
    (Context.removed after new).Reports draft.mirror := by
  rcases reports_added_iff.1 reports with ⟨kindMem, here⟩
  exact reports_removed_iff.2 ⟨kindMem, mirror_mem_placeDrafts rfl here⟩

theorem reports_added_of_reports_removed (reports : (Context.removed before old).Reports draft) :
    (Context.added before old).Reports draft.mirror := by
  rcases reports_removed_iff.1 reports with ⟨kindMem, here⟩
  exact reports_added_iff.2 ⟨kindMem, mirror_mem_placeDrafts rfl here⟩

/-- For every context there is one of the exchanged units that undoes its reports. -/
theorem exists_context_swap (beforeRead : before.IsRead) (afterRead : after.IsRead)
    {context : Context} (member : context ∈ contexts before after) :
    ∃ swapped ∈ contexts after before, swapped.key = context.key ∧ swapped.kind = context.kind ∧
      ∀ draft, context.Reports draft → swapped.Reports draft.mirror := by
  have symmetric {old new : Node} (partners : Partners old new) : Partners new old :=
    ⟨partners.1.symm, partners.2.symm⟩
  rcases (mem_contexts_iff beforeRead afterRead).1 member with
    ⟨old, oldMem, new, newMem, partners, rfl⟩ | ⟨old, oldMem, alone, rfl⟩ |
    ⟨new, newMem, alone, rfl⟩
  · exact ⟨.changed after before new old,
      mem_contexts_of_partners afterRead beforeRead newMem oldMem (symmetric partners),
      partners.1, partners.2, fun draft => reports_changed_swap partners.2⟩
  · exact ⟨.added before old,
      mem_contexts_of_added afterRead beforeRead oldMem
        fun new newMem partners => alone new newMem (symmetric partners),
      rfl, rfl, fun draft => reports_added_of_reports_removed⟩
  · exact ⟨.removed after new,
      mem_contexts_of_removed afterRead beforeRead newMem
        fun old oldMem partners => alone old oldMem (symmetric partners),
      rfl, rfl, fun draft => reports_removed_of_reports_added⟩

end Catalog

end SemanticDiff
