import Mathlib.Data.Finset.Lattice.Lemmas
import SemanticDiff.Proofs.Catalog.Blocks
import SemanticDiff.Proofs.Catalog.Ledger

/-!
# Following the features of a node

Every rule carries the features that its drafts are about from the one snapshot to
the other, and leaves all others alone.  Different rules are about different
features, so the rules together carry all features that are tracked.
-/

namespace SemanticDiff.Catalog

open SemanticDiff.Feature (Snapshot Tally)
open SemanticDiff.Ledger (Carries ofSnapshot)
open SemanticDiff.Outline (Node NodeKind SourceUnit)

namespace Classifier

variable {old new : Ledger} {feature : Feature} {type appeared disappeared : EventType}

/-! ## Comparisons -/

theorem carries_transition (acts : type.effect? = some (feature, .move)) {before after : Detail}
    (starts : old feature = some (.value before)) (ends : new feature = some (.value after)) :
    Carries [.transition type before after] [feature] old new := by
  apply Carries.singleton acts _ ends
  simp [Effect.apply, Draft.transition, Draft.withDetail, starts]

theorem carries_countDrafts (acts : type.effect? = some (feature, .move)) {before after : Nat}
    (starts : old feature = some (.value (.int before)))
    (ends : new feature = some (.value (.int after))) :
    Carries (countDrafts type before after) [feature] old new := by
  rw [countDrafts]
  split
  · rename_i same
    apply Carries.nil
    rw [starts, ends, same]
  · exact carries_transition acts starts ends

theorem carries_textDrafts (acts : type.effect? = some (feature, .move)) {before after : String}
    (starts : old feature = some (.value (.text before)))
    (ends : new feature = some (.value (.text after))) :
    Carries (textDrafts type before after) [feature] old new := by
  rw [textDrafts]
  split
  · rename_i same
    apply Carries.nil
    rw [starts, ends, same]
  · exact carries_transition acts starts ends

theorem carries_flagDrafts (raises : appeared.effect? = some (feature, .flip true))
    (clears : disappeared.effect? = some (feature, .flip false)) {before after : Bool}
    (starts : old feature = some (.value (.flag before)))
    (ends : new feature = some (.value (.flag after))) :
    Carries (flagDrafts appeared disappeared before after) [feature] old new := by
  cases before with
  | false =>
      cases after with
      | false => exact Carries.nil (starts.trans ends.symm)
      | true =>
          apply Carries.singleton raises _ ends
          simp [Effect.apply, starts]
  | true =>
      cases after with
      | false =>
          apply Carries.singleton clears _ ends
          simp [Effect.apply, starts]
      | true => exact Carries.nil (starts.trans ends.symm)

theorem carries_presenceDrafts (first : appeared.effect? = none)
    (second : disappeared.effect? = none) (before after : Nat) :
    Carries (presenceDrafts appeared disappeared before after) [] old new := by
  apply Carries.of_effect?_eq_none
  intro draft member
  rcases type_of_mem_presenceDrafts member with same | same
  · rw [same, first]
  · rw [same, second]

/-- Names that are missing can be added one after the other. -/
theorem replay_inserts {detail : String} (acts : type.effect? = some (feature, .insert detail))
    {names : List String} (distinct : names.Nodup) {held : Finset String}
    (missing : ∀ name ∈ names, name ∉ held) {ledger : Ledger}
    (starts : ledger feature = some (.names held)) :
    ledger.replay (names.map fun name => (Draft.ofType type).withDetail detail (.text name)) =
      some (Function.update ledger feature (some (.names (held ∪ names.toFinset)))) := by
  induction names generalizing held ledger with
  | nil =>
      rw [List.toFinset_nil, Finset.union_empty, ← starts, Function.update_eq_self]
      rfl
  | cons name rest ih =>
      rcases List.nodup_cons.1 distinct with ⟨alone, restDistinct⟩
      rcases List.forall_mem_cons.1 missing with ⟨nameMissing, restMissing⟩
      have applied : Effect.apply ((Draft.ofType type).withDetail detail (.text name)).details
          (ledger feature) (.insert detail) = some (.names (insert name held)) := by
        simp [Effect.apply, Draft.withDetail, starts, nameMissing]
      rw [List.map_cons, Ledger.replay_cons, Ledger.follow_eq acts applied, Option.bind_some,
        @ih restDistinct (insert name held), Function.update_idem, List.toFinset_cons,
        Finset.insert_union, Finset.union_insert]
      · intro other member
        rw [Finset.mem_insert, not_or]
        refine ⟨?_, restMissing other member⟩
        rintro rfl
        exact alone member
      · rw [Function.update_self]

/-- Names that are there can be removed one after the other. -/
theorem replay_erases {detail : String} (acts : type.effect? = some (feature, .erase detail))
    {names : List String} (distinct : names.Nodup) {held : Finset String}
    (present : ∀ name ∈ names, name ∈ held) {ledger : Ledger}
    (starts : ledger feature = some (.names held)) :
    ledger.replay (names.map fun name => (Draft.ofType type).withDetail detail (.text name)) =
      some (Function.update ledger feature (some (.names (held \ names.toFinset)))) := by
  induction names generalizing held ledger with
  | nil =>
      rw [List.toFinset_nil, Finset.sdiff_empty, ← starts, Function.update_eq_self]
      rfl
  | cons name rest ih =>
      rcases List.nodup_cons.1 distinct with ⟨alone, restDistinct⟩
      rcases List.forall_mem_cons.1 present with ⟨namePresent, restPresent⟩
      have applied : Effect.apply ((Draft.ofType type).withDetail detail (.text name)).details
          (ledger feature) (.erase detail) = some (.names (held.erase name)) := by
        simp [Effect.apply, Draft.withDetail, starts, namePresent]
      rw [List.map_cons, Ledger.replay_cons, Ledger.follow_eq acts applied, Option.bind_some,
        @ih restDistinct (held.erase name), Function.update_idem, List.toFinset_cons,
        Finset.sdiff_insert, Finset.erase_sdiff_comm]
      · intro other member
        rw [Finset.mem_erase]
        refine ⟨?_, restPresent other member⟩
        rintro rfl
        exact alone member
      · rw [Function.update_self]

theorem mem_nameSet_iff {names : Tally} {name : String} :
    name ∈ nameSet names ↔ names.contains name = true := by
  rw [nameSet, List.mem_toFinset, SortedMap.mem_keys_iff]

/-- Adding what only the new tally has, and then removing what only the old one
has, turns the old names into the new ones. -/
theorem nameSet_eq_sdiff (before after : Tally) :
    (nameSet before ∪ (namesOnlyIn after before).toFinset) \
      (namesOnlyIn before after).toFinset = nameSet after := by
  ext name
  simp only [Finset.mem_sdiff, Finset.mem_union, List.mem_toFinset, mem_namesOnlyIn_iff,
    mem_nameSet_iff]
  by_cases early : before.contains name = true <;> by_cases late : after.contains name = true <;>
    simp [early, late]

theorem carries_nameDrafts {detail : String}
    (adds : appeared.effect? = some (feature, .insert detail))
    (removes : disappeared.effect? = some (feature, .erase detail)) {before after : Tally}
    (starts : old feature = some (.names (nameSet before)))
    (ends : new feature = some (.names (nameSet after))) :
    Carries (nameDrafts detail appeared disappeared before after) [feature] old new := by
  apply Carries.of_update
  intro ledger held
  have added := replay_inserts adds (nodup_namesOnlyIn after before)
    (fun name member => mt mem_nameSet_iff.1 (mem_namesOnlyIn_iff.1 member).2)
    (held.trans starts)
  have removed := @replay_erases _ _ detail removes _ (nodup_namesOnlyIn before after)
    (nameSet before ∪ (namesOnlyIn after before).toFinset)
    (fun name member => Finset.mem_union_left _
      (mem_nameSet_iff.2 (mem_namesOnlyIn_iff.1 member).1))
    (Function.update ledger feature _) (Function.update_self ..)
  rw [nameDrafts, Ledger.replay_append, added, Option.bind_some, removed, Function.update_idem,
    nameSet_eq_sdiff, ends]

theorem carries_countsDrafts {kinds : List (Feature × EventType)} {before after : Snapshot}
    (distinct : (kinds.map Prod.fst).Nodup)
    (acts : ∀ kind ∈ kinds, kind.2.effect? = some (kind.1, .move))
    (starts : ∀ kind ∈ kinds, old kind.1 = some (.value (.int (before.countOf kind.1))))
    (ends : ∀ kind ∈ kinds, new kind.1 = some (.value (.int (after.countOf kind.1)))) :
    Carries (countsDrafts kinds before after) (kinds.map Prod.fst) old new := by
  induction kinds with
  | nil => exact Carries.of_effect?_eq_none (by simp [countsDrafts])
  | cons kind rest ih =>
      rcases List.nodup_cons.1 distinct with ⟨alone, restDistinct⟩
      rcases List.forall_mem_cons.1 acts with ⟨ownActs, restActs⟩
      rcases List.forall_mem_cons.1 starts with ⟨ownStarts, restStarts⟩
      rcases List.forall_mem_cons.1 ends with ⟨ownEnds, restEnds⟩
      rw [countsDrafts, List.flatMap_cons, List.map_cons]
      apply Carries.append (carries_countDrafts ownActs ownStarts ownEnds)
        (ih restDistinct restActs restStarts restEnds)
      intro feature member
      rw [List.mem_singleton.1 member]
      exact alone

end Classifier

open Classifier

/-! ## Snapshots -/

theorem ofSnapshot_count {snapshot : Snapshot} {feature : Feature}
    (holds : snapshot.Holds feature) (shape : feature.kind = .count) :
    ofSnapshot snapshot feature = some (.value (.int (snapshot.countOf feature))) := by
  rcases holds with ⟨value, found, kind⟩
  rw [shape] at kind
  cases value <;> cases kind
  rw [ofSnapshot, found, Snapshot.countOf_of_get? found]
  rfl

theorem ofSnapshot_tally {snapshot : Snapshot} {feature : Feature}
    (holds : snapshot.Holds feature) (shape : feature.kind = .tally) :
    ofSnapshot snapshot feature = some (.names (nameSet (snapshot.tallyOf feature))) := by
  rcases holds with ⟨value, found, kind⟩
  rw [shape] at kind
  cases value <;> cases kind
  rw [ofSnapshot, found, Snapshot.tallyOf_of_get? found]
  rfl

theorem ofSnapshot_text {snapshot : Snapshot} {feature : Feature}
    (holds : snapshot.Holds feature) (shape : feature.kind = .text) :
    ofSnapshot snapshot feature = some (.value (.text (snapshot.textOf feature))) := by
  rcases holds with ⟨value, found, kind⟩
  rw [shape] at kind
  cases value <;> cases kind
  simp [ofSnapshot, Snapshot.textOf, Snapshot.text, found, Except.toOption, Known.ofValue]

theorem ofSnapshot_flag {snapshot : Snapshot} {feature : Feature}
    (holds : snapshot.Holds feature) (shape : feature.kind = .flag) :
    ofSnapshot snapshot feature = some (.value (.flag (snapshot.flagOf feature))) := by
  rcases holds with ⟨value, found, kind⟩
  rw [shape] at kind
  cases value <;> cases kind
  simp [ofSnapshot, Snapshot.flagOf, Snapshot.flag, found, Except.toOption, Known.ofValue]

/-! ## Rules -/

namespace Rule

/-- The features that the events of a rule are about. -/
def moves (rule : Rule) : List Feature :=
  Feature.all.filter fun feature =>
    rule.emits.any fun type => type.effect?.any fun effect => effect.1 = feature

/-- The drafts of the rule carry its features from one side to the other. -/
def CarriesFeatures (rule : Rule) : Prop :=
  ∀ {context : Context} {before after : Snapshot},
    context.snapshots? = some (before, after) → (∀ feature, context.Holds feature) →
    rule.appliesTo context = true →
    Carries (rule.draftsIn context) rule.moves (ofSnapshot before) (ofSnapshot after)

theorem carriesFeatures_of_compares {rule : Rule} {reads : List Feature}
    {drafts : Snapshot → Snapshot → List Draft} (compares : Compares rule.classify reads drafts)
    (carries : ∀ before after : Snapshot, (∀ feature, before.Holds feature) →
      (∀ feature, after.Holds feature) →
      Carries (drafts before after) rule.moves (ofSnapshot before) (ofSnapshot after)) :
    rule.CarriesFeatures := by
  intro context before after sides holds applies
  have bothHold (feature : Feature) := (holds feature).of_snapshots? sides
  rw [draftsIn, if_pos applies, compares.reports sides fun feature _ => bothHold feature]
  exact carries before after (fun feature => (bothHold feature).1)
    fun feature => (bothHold feature).2

theorem carriesFeatures_of_placeDrafts {rule : Rule} {type : EventType}
    {side : Context → Option Side} (idle : type.effect? = none) (moves : rule.moves = [])
    (places : ∀ context, rule.classify context = .ok (placeDrafts type context (side context))) :
    rule.CarriesFeatures := by
  intro context before after _ _ applies
  rw [draftsIn, if_pos applies, places context, moves]
  apply Carries.of_effect?_eq_none
  intro draft member
  rw [type_of_mem_placeDrafts member, idle]

theorem carriesFeatures_countRule {feature : Feature} {type : EventType} (name : String)
    (kinds : List NodeKind) (shape : feature.kind = .count)
    (acts : type.effect? = some (feature, .move))
    (moves : (countRule name kinds feature type).moves = [feature]) :
    (countRule name kinds feature type).CarriesFeatures := by
  apply carriesFeatures_of_compares (compares_count shape type)
  intro before after oldHolds newHolds
  rw [moves]
  exact carries_countDrafts acts (ofSnapshot_count (oldHolds feature) shape)
    (ofSnapshot_count (newHolds feature) shape)

end Rule

theorem carriesFeatures_of_mem_rules : ∀ rule ∈ rules, rule.CarriesFeatures := by
  simp only [rules, List.forall_mem_cons, List.not_mem_nil, false_implies, implies_true, and_true]
  refine ⟨?added, ?removed, ?signature, ?decorators, ?errorHandling, ?exceptionHandling,
    ?complexity, ?returnPattern, ?yieldPattern, ?functionalStyle, ?lambdas, ?comprehensions,
    ?typeAnnotations, ?defaultParameters, ?starred, ?slices, ?nestedClasses, ?literals,
    ?assertions, ?asyncConversion, ?scopeDeclarations, ?inheritance, ?dependencies⟩
  case added | removed =>
      exact Rule.carriesFeatures_of_placeDrafts rfl rfl fun context => rfl
  case signature | inheritance =>
      apply Rule.carriesFeatures_of_compares (compares_text rfl _)
      intro before after oldHolds newHolds
      exact carries_textDrafts rfl (ofSnapshot_text (oldHolds _) rfl)
        (ofSnapshot_text (newHolds _) rfl)
  case decorators | dependencies =>
      apply Rule.carriesFeatures_of_compares (compares_names rfl _ _ _)
      intro before after oldHolds newHolds
      exact carries_nameDrafts rfl rfl (ofSnapshot_tally (oldHolds _) rfl)
        (ofSnapshot_tally (newHolds _) rfl)
  case errorHandling | functionalStyle =>
      apply Rule.carriesFeatures_of_compares (compares_presence rfl _ _)
      intro before after _ _
      exact carries_presenceDrafts rfl rfl _ _
  case exceptionHandling =>
      apply Rule.carriesFeatures_of_compares compares_exceptionHandling
      intro before after _ _
      apply Carries.of_effect?_eq_none
      intro draft member
      rcases type_of_mem_exceptionDrafts member with same | same <;> rw [same] <;> rfl
  case typeAnnotations | asyncConversion =>
      apply Rule.carriesFeatures_of_compares (compares_flag rfl _ _)
      intro before after oldHolds newHolds
      exact carries_flagDrafts rfl rfl (ofSnapshot_flag (oldHolds _) rfl)
        (ofSnapshot_flag (newHolds _) rfl)
  case defaultParameters | nestedClasses =>
      apply Rule.carriesFeatures_of_compares (compares_presenceAndCount rfl _ _ _)
      intro before after oldHolds newHolds
      exact (carries_presenceDrafts rfl rfl _ _).append (carries_countDrafts rfl
        (ofSnapshot_count (oldHolds _) rfl) (ofSnapshot_count (newHolds _) rfl)) (by simp)
  case literals =>
      apply Rule.carriesFeatures_of_compares (compares_counts (by decide))
      intro before after oldHolds newHolds
      have shapes : ∀ kind ∈ literalKinds, kind.1.kind = .count := by decide
      exact carries_countsDrafts (by decide) (by decide)
        (fun kind member => ofSnapshot_count (oldHolds _) (shapes kind member))
        (fun kind member => ofSnapshot_count (newHolds _) (shapes kind member))
  all_goals exact Rule.carriesFeatures_countRule _ _ rfl rfl rfl

/-- Different rules are about different features. -/
theorem pairwise_moves : rules.Pairwise fun first second =>
    ∀ feature ∈ first.moves, feature ∉ second.moves := by
  decide +kernel

/-- The rules together carry the features of all rules that apply. -/
theorem carries_draftsIn {context : Context} {before after : Snapshot}
    (sides : context.snapshots? = some (before, after))
    (holds : ∀ feature, context.Holds feature) {listed : List Rule}
    (known : ∀ rule ∈ listed, rule ∈ rules)
    (disjoint : listed.Pairwise fun first second =>
      ∀ feature ∈ first.moves, feature ∉ second.moves) :
    Carries (listed.flatMap fun rule => rule.draftsIn context)
      ((listed.filter fun rule => rule.appliesTo context).flatMap Rule.moves)
      (ofSnapshot before) (ofSnapshot after) := by
  induction listed with
  | nil => exact Carries.of_effect?_eq_none (by simp)
  | cons rule others ih =>
      rcases List.forall_mem_cons.1 known with ⟨ruleKnown, othersKnown⟩
      rcases List.pairwise_cons.1 disjoint with ⟨ruleDisjoint, othersDisjoint⟩
      have rest := ih othersKnown othersDisjoint
      rw [List.flatMap_cons]
      by_cases applies : rule.appliesTo context = true
      · rw [List.filter_cons_of_pos (by simpa using applies), List.flatMap_cons]
        apply (carriesFeatures_of_mem_rules rule ruleKnown sides holds applies).append rest
        intro feature here there
        rcases List.mem_flatMap.1 there with ⟨other, otherMem, moved⟩
        exact ruleDisjoint other (List.mem_of_mem_filter otherMem) feature here moved
      · rw [List.filter_cons_of_neg (by simpa using applies), Rule.draftsIn, if_neg applies,
          List.nil_append]
        exact rest

/-! ## Tracked features -/

/-- The features of a node that can be followed through its events. -/
def tracked (kind : NodeKind) : List Feature :=
  [.lambdas, .comprehensions, .starredExpressions, .slices, .stringLiterals, .numericLiterals,
    .booleanLiterals, .noneLiterals, .assertions, .scopeDeclarations, .typeAnnotations,
    .imports] ++
    match kind with
    | .module => []
    | .classDef => [.nestedClasses, .decoratorNames, .baseClasses]
    | .functionDef =>
        [.nestedClasses, .decoratorNames, .signature, .complexity, .returns, .yields,
          .defaultParameters, .async]

/-- The tracked features are those of the rules that apply to a node that exists on
both sides. -/
theorem mem_tracked_iff {kind : NodeKind} {feature : Feature} :
    feature ∈ tracked kind ↔ feature ∈ (rules.filter fun rule =>
      rule.scope == .changed && rule.kinds.contains kind).flatMap Rule.moves := by
  have all : ∀ kind ∈ NodeKind.all, ∀ feature ∈ Feature.all,
      feature ∈ tracked kind ↔ feature ∈ (rules.filter fun rule =>
        rule.scope == .changed && rule.kinds.contains kind).flatMap Rule.moves := by
    decide +kernel
  exact all kind (by cases kind <;> decide) feature (Feature.mem_all feature)

/-- The ledger says the same as a snapshot about the tracked features of a kind. -/
def Tracks (ledger : Ledger) (kind : NodeKind) (snapshot : Snapshot) : Prop :=
  ∀ feature ∈ tracked kind, ledger feature = ofSnapshot snapshot feature

theorem map_draft_findings (context : Context) :
    context.findings.map Finding.draft = rules.flatMap fun rule => rule.draftsIn context := by
  have unnumbered : numberedRules.map Prod.snd = rules := rfl
  rw [← unnumbered, List.flatMap_map, Context.findings, List.map_flatMap]
  simp only [List.map_map, Function.comp_def, List.map_id']

/-- Following what is found about a node leads from its old features to its new
ones. -/
theorem exists_replay_findings {before after : SourceUnit} {old new : Node} {ledger : Ledger}
    (starts : Tracks ledger new.kind (Feature.extract before old)) :
    ∃ later, ledger.replay
        ((Context.changed before after old new).findings.map Finding.draft) = some later ∧
      Tracks later new.kind (Feature.extract after new) := by
  have carries := carries_draftsIn (Context.snapshots?_changed before after old new)
    (Context.holds_changed old new) (fun rule member => member) pairwise_moves
  rw [map_draft_findings]
  refine ⟨_, carries ledger ?_, ?_⟩
  · intro feature member
    exact starts feature (mem_tracked_iff.2 member)
  · intro feature member
    exact if_pos (mem_tracked_iff.1 member)

end SemanticDiff.Catalog
