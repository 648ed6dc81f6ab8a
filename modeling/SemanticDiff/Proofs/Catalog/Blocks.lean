import SemanticDiff.Proofs.Catalog.Findings

/-!
# The findings of one context

The rules that apply to a context are run in the order of the catalog, and what
each of them reports stays in its own order.  No two rules report events of one
type, and a rule reports several events of one type only where each of them is
about another name.
-/

namespace SemanticDiff

/-- Whether a node can have several events of the type at once: one for every name
that is concerned. -/
def EventType.isPerName : EventType → Bool
  | .decoratorAdded | .decoratorRemoved | .exceptionHandlingAdded | .exceptionHandlingRemoved
  | .dependencyAdded | .dependencyRemoved => true
  | _ => false

/-- Two drafts differ in type, or they are about different names. -/
def Draft.Apart (first second : Draft) : Prop :=
  first.type = second.type → first.type.isPerName = true ∧ first.details ≠ second.details

theorem Draft.Apart.ne {first second : Draft} (apart : first.Apart second) : first ≠ second := by
  rintro rfl
  exact (apart rfl).2 rfl

theorem Draft.apart_of_type_ne {first second : Draft} (different : first.type ≠ second.type) :
    first.Apart second := fun same =>
  absurd same different

end SemanticDiff

namespace SemanticDiff.Catalog

open SemanticDiff.Feature (Snapshot Tally)
open SemanticDiff.Outline (Key Node NodeKind SourceUnit)

/-! ## Drafts of one rule -/

namespace Classifier

variable {type appeared disappeared : EventType}

theorem apart_countDrafts (before after : Nat) :
    (countDrafts type before after).Pairwise Draft.Apart := by
  rw [countDrafts]
  split <;> simp

theorem apart_textDrafts (before after : String) :
    (textDrafts type before after).Pairwise Draft.Apart := by
  rw [textDrafts]
  split <;> simp

theorem apart_presenceDrafts (before after : Nat) :
    (presenceDrafts appeared disappeared before after).Pairwise Draft.Apart := by
  rw [presenceDrafts]
  split
  · simp
  · split <;> simp

theorem apart_flagDrafts (before after : Bool) :
    (flagDrafts appeared disappeared before after).Pairwise Draft.Apart := by
  unfold flagDrafts
  split <;> simp

theorem apart_placeDrafts (context : Context) (side : Option Side) :
    (placeDrafts type context side).Pairwise Draft.Apart := by
  unfold placeDrafts
  split <;> simp

theorem apart_presenceAndCount (before after : Nat) (first : appeared ≠ type)
    (second : disappeared ≠ type) :
    (presenceDrafts appeared disappeared before after ++ countDrafts type before after).Pairwise
      Draft.Apart := by
  apply List.pairwise_append.2
  refine ⟨apart_presenceDrafts before after, apart_countDrafts before after, ?_⟩
  intro draft draftMem other otherMem
  apply Draft.apart_of_type_ne
  rw [type_of_mem_countDrafts otherMem]
  rcases type_of_mem_presenceDrafts draftMem with same | same
  · exact same ▸ first
  · exact same ▸ second

/-- Drafts about different names have different details. -/
theorem details_ne_of_name_ne (detail : String) {name other : String} (different : name ≠ other) :
    ((Draft.ofType type).withDetail detail (.text name)).details ≠
      ((Draft.ofType type).withDetail detail (.text other)).details := by
  intro same
  have told := congrArg (fun details => SortedMap.get? details detail) same
  simp only [Draft.withDetail, SortedMap.get?_insert, if_true, Option.some.injEq,
    Detail.text.injEq] at told
  exact different told

theorem apart_namedDrafts (perName : type.isPerName = true) (detail : String) {names : List String}
    (distinct : names.Nodup) :
    (names.map fun name => (Draft.ofType type).withDetail detail (.text name)).Pairwise
      Draft.Apart := by
  apply List.pairwise_map.2
  apply distinct.imp
  intro name other different _
  exact ⟨perName, details_ne_of_name_ne detail different⟩

theorem nodup_namesOnlyIn (names others : Tally) : (namesOnlyIn names others).Nodup := by
  apply List.Nodup.filter
  exact names.pairwise_keys.imp fun less => String.ne_of_lt less

theorem apart_nameDrafts (detail : String) (before after : Tally)
    (firstPerName : appeared.isPerName = true) (secondPerName : disappeared.isPerName = true)
    (different : appeared ≠ disappeared) :
    (nameDrafts detail appeared disappeared before after).Pairwise Draft.Apart := by
  apply List.pairwise_append.2
  refine ⟨apart_namedDrafts firstPerName detail (nodup_namesOnlyIn after before),
    apart_namedDrafts secondPerName detail (nodup_namesOnlyIn before after), ?_⟩
  intro draft draftMem other otherMem
  apply Draft.apart_of_type_ne
  rcases List.mem_map.1 draftMem with ⟨name, -, rfl⟩
  rcases List.mem_map.1 otherMem with ⟨gone, -, rfl⟩
  exact different

theorem apart_exceptionDrafts (before after : Snapshot) :
    (exceptionDrafts before after).Pairwise Draft.Apart := by
  rw [exceptionDrafts]
  split
  · exact List.Pairwise.nil
  · exact apart_nameDrafts _ _ _ rfl rfl (by decide)

theorem apart_countsDrafts {kinds : List (Feature × EventType)}
    (distinct : (kinds.map Prod.snd).Nodup) (before after : Snapshot) :
    (countsDrafts kinds before after).Pairwise Draft.Apart := by
  apply List.pairwise_flatMap.2
  constructor
  · intro kind _
    exact apart_countDrafts _ _
  · apply (List.pairwise_map.1 distinct).imp
    intro kind other different draft draftMem late lateMem
    apply Draft.apart_of_type_ne
    rw [type_of_mem_countDrafts draftMem, type_of_mem_countDrafts lateMem]
    exact different

end Classifier

open Classifier

namespace Rule

/-- What the rule reports about a context, if it applies. -/
def draftsIn (rule : Rule) (context : Context) : List Draft :=
  if rule.appliesTo context then (rule.classify context).toOption.getD [] else []

/-- The drafts of the rule can be told apart. -/
def KeepsApart (rule : Rule) : Prop :=
  ∀ context : Context, (∀ feature, context.Holds feature) →
    (rule.draftsIn context).Pairwise Draft.Apart

theorem keepsApart_of_compares {rule : Rule} {reads : List Feature}
    {drafts : Snapshot → Snapshot → List Draft} (compares : Compares rule.classify reads drafts)
    (apart : ∀ before after, (drafts before after).Pairwise Draft.Apart) : rule.KeepsApart := by
  intro context holds
  rw [draftsIn]
  split
  · cases sides : context.snapshots? with
    | none =>
        rw [compares.silent sides]
        exact List.Pairwise.nil
    | some pair =>
        rw [compares.reports sides fun feature _ => (holds feature).of_snapshots? sides]
        exact apart pair.1 pair.2
  · exact List.Pairwise.nil

theorem keepsApart_of_placeDrafts {rule : Rule} {type : EventType}
    {side : Context → Option Side}
    (places : ∀ context, rule.classify context = .ok (placeDrafts type context (side context))) :
    rule.KeepsApart := by
  intro context _
  rw [draftsIn, places context]
  split
  · exact apart_placeDrafts context (side context)
  · exact List.Pairwise.nil

theorem keepsApart_countRule {feature : Feature} (name : String) (kinds : List NodeKind)
    (shape : feature.kind = .count) (type : EventType) :
    (countRule name kinds feature type).KeepsApart := by
  apply keepsApart_of_compares (compares_count shape type)
  intro before after
  exact apart_countDrafts _ _

end Rule

theorem keepsApart_of_mem_rules : ∀ rule ∈ rules, rule.KeepsApart := by
  simp only [rules, List.forall_mem_cons, List.not_mem_nil, false_implies, implies_true, and_true]
  refine ⟨?added, ?removed, ?signature, ?decorators, ?errorHandling, ?exceptionHandling,
    ?complexity, ?returnPattern, ?yieldPattern, ?functionalStyle, ?lambdas, ?comprehensions,
    ?typeAnnotations, ?defaultParameters, ?starred, ?slices, ?nestedClasses, ?literals,
    ?assertions, ?asyncConversion, ?scopeDeclarations, ?inheritance, ?dependencies⟩
  case added | removed => exact Rule.keepsApart_of_placeDrafts fun context => rfl
  case signature | inheritance =>
      exact Rule.keepsApart_of_compares (compares_text rfl _) fun _ _ => apart_textDrafts _ _
  case decorators | dependencies =>
      exact Rule.keepsApart_of_compares (compares_names rfl _ _ _) fun _ _ =>
        apart_nameDrafts _ _ _ rfl rfl (by decide)
  case errorHandling | functionalStyle =>
      exact Rule.keepsApart_of_compares (compares_presence rfl _ _) fun _ _ =>
        apart_presenceDrafts _ _
  case exceptionHandling =>
      exact Rule.keepsApart_of_compares compares_exceptionHandling apart_exceptionDrafts
  case typeAnnotations | asyncConversion =>
      exact Rule.keepsApart_of_compares (compares_flag rfl _ _) fun _ _ => apart_flagDrafts _ _
  case defaultParameters | nestedClasses =>
      exact Rule.keepsApart_of_compares (compares_presenceAndCount rfl _ _ _) fun _ _ =>
        apart_presenceAndCount _ _ (by decide) (by decide)
  case literals =>
      exact Rule.keepsApart_of_compares (compares_counts (by decide)) fun _ _ =>
        apart_countsDrafts (by decide) _ _
  all_goals exact Rule.keepsApart_countRule _ _ rfl _

/-! ## Findings of all rules -/

/-- The findings about a context: the rules in the order of the catalog, and the
drafts of each rule in its own order. -/
def Context.findings (context : Context) : List Finding :=
  numberedRules.flatMap fun entry => (entry.2.draftsIn context).map fun draft =>
    ⟨context.key, context.kind, entry.1, entry.2.name, draft⟩

/-- Where all features can be read, no rule fails. -/
theorem findingsOf_eq {context : Context} (holds : ∀ feature, context.Holds feature)
    {entry : Nat × Rule} (member : entry ∈ numberedRules) :
    findingsOf context entry.1 entry.2 = .ok ((entry.2.draftsIn context).map fun draft =>
      ⟨context.key, context.kind, entry.1, entry.2.name, draft⟩) := by
  obtain ⟨drafts, made, -⟩ := honoursContract_of_mem_rules entry.2
    (mem_rules_of_mem_numberedRules member) context fun feature _ => holds feature
  rw [findingsOf, Rule.draftsIn]
  split
  · rw [made]
    rfl
  · rfl

theorem classify_eq {context : Context} (holds : ∀ feature, context.Holds feature) :
    classify context = .ok context.findings := by
  have run {numbered : List (Nat × Rule)} (listed : ∀ entry ∈ numbered, entry ∈ numberedRules) :
      classifyWith context numbered = .ok (numbered.flatMap fun entry =>
        (entry.2.draftsIn context).map fun draft =>
          ⟨context.key, context.kind, entry.1, entry.2.name, draft⟩) := by
    induction numbered with
    | nil => rfl
    | cons entry others ih =>
        rcases List.forall_mem_cons.1 listed with ⟨own, otherListed⟩
        rw [classifyWith, findingsOf_eq holds own, ih otherListed]
        rfl
  exact run fun _ member => member

theorem classifyAll_eq {contexts : List Context}
    (holds : ∀ context ∈ contexts, ∀ feature, context.Holds feature) :
    classifyAll contexts = .ok (contexts.flatMap Context.findings) := by
  induction contexts with
  | nil => rfl
  | cons context others ih =>
      rcases List.forall_mem_cons.1 holds with ⟨own, otherHolds⟩
      rw [classifyAll, classify_eq own, ih otherHolds]
      rfl

/-- A finding is a draft of a rule at its position in the catalog. -/
theorem mem_findings_iff {context : Context} {finding : Finding} :
    finding ∈ context.findings ↔ ∃ entry ∈ numberedRules, ∃ draft ∈ entry.2.draftsIn context,
      finding = ⟨context.key, context.kind, entry.1, entry.2.name, draft⟩ := by
  simp only [Context.findings, List.mem_flatMap, List.mem_map, eq_comm]

theorem key_of_mem_findings {context : Context} {finding : Finding}
    (member : finding ∈ context.findings) : finding.key = context.key := by
  obtain ⟨entry, -, draft, -, rfl⟩ := mem_findings_iff.1 member
  rfl

/-- What a rule reports about a context is the result of its classifier. -/
theorem exists_classify_of_mem_draftsIn {rule : Rule} {context : Context} {draft : Draft}
    (member : draft ∈ rule.draftsIn context) : rule.appliesTo context = true ∧
      ∃ drafts, rule.classify context = .ok drafts ∧ draft ∈ drafts := by
  rw [Rule.draftsIn] at member
  split at member
  · rename_i applies
    cases made : rule.classify context with
    | error mismatch => simp [made, Except.toOption] at member
    | ok drafts =>
        rw [made] at member
        exact ⟨applies, drafts, rfl, member⟩
  · simp at member

theorem appliesTo_of_mem_draftsIn {rule : Rule} {context : Context} {draft : Draft}
    (member : draft ∈ rule.draftsIn context) : rule.appliesTo context = true :=
  (exists_classify_of_mem_draftsIn member).1

/-- A rule reports only what it declares. -/
theorem type_mem_emits_of_mem_draftsIn {rule : Rule} (listed : rule ∈ rules) {context : Context}
    {draft : Draft} (member : draft ∈ rule.draftsIn context) : draft.type ∈ rule.emits := by
  obtain ⟨-, drafts, made, here⟩ := exists_classify_of_mem_draftsIn member
  exact type_mem_emits_of_classify listed made draft here

theorem reports_of_mem_draftsIn {rule : Rule} (listed : rule ∈ rules) {context : Context}
    {draft : Draft} (member : draft ∈ rule.draftsIn context) : context.Reports draft :=
  ⟨rule, listed, exists_classify_of_mem_draftsIn member⟩

/-- Later rules have larger positions and other events. -/
theorem pairwise_numberedRules : numberedRules.Pairwise fun first second =>
    first.1 < second.1 ∧ ∀ type ∈ first.2.emits, type ∉ second.2.emits := by
  decide +kernel

/-- No two rules report events of one type. -/
theorem eq_of_mem_emits {first second : Rule} (firstListed : first ∈ rules)
    (secondListed : second ∈ rules) {type : EventType} (firstEmits : type ∈ first.emits)
    (secondEmits : type ∈ second.emits) : first = second := by
  have disjoint : (numberedRules.map Prod.snd).Pairwise fun first second =>
      ∀ type ∈ first.emits, type ∉ second.emits :=
    List.pairwise_map.2 (pairwise_numberedRules.imp And.right)
  have apart := List.pairwise_iff_getElem.1 disjoint
  obtain ⟨i, bound, rfl⟩ := List.mem_iff_getElem.1 firstListed
  obtain ⟨j, bound', rfl⟩ := List.mem_iff_getElem.1 secondListed
  rcases Nat.lt_trichotomy i j with earlier | rfl | later
  · exact absurd secondEmits (apart i j bound bound' earlier type firstEmits)
  · rfl
  · exact absurd firstEmits (apart j i bound' bound later type secondEmits)

/-- Every event type is one of some rule. -/
theorem exists_mem_emits (type : EventType) : ∃ rule ∈ rules, type ∈ rule.emits := by
  have all : ∀ type ∈ EventType.all, ∃ rule ∈ rules, type ∈ rule.emits := by decide
  exact all type (EventType.mem_all type)

/-- One finding stands before another one in a context: its rule does not come
later, and it tells something else. -/
def Leads (first second : Finding) : Prop :=
  first.ruleIndex ≤ second.ruleIndex ∧ first.draft.Apart second.draft

/-- The findings about a context stand in the order of their rules, and they can be
told apart. -/
theorem pairwise_findings {context : Context} (holds : ∀ feature, context.Holds feature) :
    context.findings.Pairwise Leads := by
  apply List.pairwise_flatMap.2
  constructor
  · intro entry member
    apply List.pairwise_map.2
    apply (keepsApart_of_mem_rules entry.2 (mem_rules_of_mem_numberedRules member) context
      holds).imp
    intro first second apart
    exact ⟨Nat.le_refl _, apart⟩
  · apply pairwise_numberedRules.imp_of_mem
    rintro first second firstMem secondMem ⟨earlier, disjoint⟩ finding findingMem other otherMem
    rcases List.mem_map.1 findingMem with ⟨draft, draftMem, rfl⟩
    rcases List.mem_map.1 otherMem with ⟨late, lateMem, rfl⟩
    refine ⟨Nat.le_of_lt earlier, Draft.apart_of_type_ne fun same => ?_⟩
    apply disjoint draft.type
    · exact type_mem_emits_of_mem_draftsIn (mem_rules_of_mem_numberedRules firstMem) draftMem
    · change draft.type = late.type at same
      rw [same]
      exact type_mem_emits_of_mem_draftsIn (mem_rules_of_mem_numberedRules secondMem) lateMem

end SemanticDiff.Catalog
