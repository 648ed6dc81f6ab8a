import SemanticDiff.Catalog.Classify
import SemanticDiff.Proofs.Catalog.Contexts
import SemanticDiff.Proofs.Catalog.Contract

/-!
# What the catalog finds

Every rule of the catalog honours its contract: where the features it declares
can be read it succeeds, and it reports only the events it declares.  So a
classification succeeds, and its findings are the drafts that some rule reports
about some context.
-/

namespace SemanticDiff.Catalog

open SemanticDiff.Feature (Snapshot)
open SemanticDiff.Outline (Key Node NodeKind SourceUnit)
open Classifier

/-! ## Contracts -/

namespace Rule

/-- A rule that can read what it declares to read succeeds, and reports only what
it declares to emit. -/
def HonoursContract (rule : Rule) : Prop :=
  ∀ context : Context, (∀ feature ∈ rule.reads, context.Holds feature) →
    ∃ drafts, rule.classify context = .ok drafts ∧ ∀ draft ∈ drafts, draft.type ∈ rule.emits

end Rule

theorem honoursContract_of_mem_rules : ∀ rule ∈ rules, rule.HonoursContract := by
  intro rule member context holds
  have succeeds : ∃ drafts, rule.classify context = .ok drafts := by
    cases scope : rule.scope with
    | added =>
        obtain ⟨-, classify, -⟩ := of_scope_added rule member scope
        rw [classify]
        exact ⟨_, rfl⟩
    | removed =>
        obtain ⟨-, classify, -⟩ := of_scope_removed rule member scope
        rw [classify]
        exact ⟨_, rfl⟩
    | changed =>
        obtain ⟨drafts, keeps⟩ := exists_keepsTo_of_mem_rules rule member scope
        cases sides : context.snapshots? with
        | none => exact ⟨[], keeps.silent sides⟩
        | some pair =>
            refine ⟨drafts pair.1 pair.2, keeps.reports sides ?_⟩
            intro feature read
            exact (holds feature read).of_snapshots? sides
  obtain ⟨drafts, made⟩ := succeeds
  exact ⟨drafts, made, type_mem_emits_of_classify member made⟩

/-- The rules about nodes on both sides tell of no addition and no removal. -/
theorem not_mem_emits_of_scope_changed : ∀ rule ∈ rules, rule.scope = .changed →
    .nodeAdded ∉ rule.emits ∧ .nodeRemoved ∉ rule.emits := by
  decide

/-! ## Reports -/

/-- Some rule that applies to the context reports the draft. -/
def Context.Reports (context : Context) (draft : Draft) : Prop :=
  ∃ rule ∈ rules, rule.appliesTo context = true ∧
    ∃ drafts, rule.classify context = .ok drafts ∧ draft ∈ drafts

theorem Rule.appliesTo_iff {rule : Rule} {context : Context} :
    rule.appliesTo context = true ↔ rule.scope = context.scope ∧ context.kind ∈ rule.kinds := by
  simp [appliesTo]

/-- A context of an added node reports nothing but the addition. -/
theorem reports_added_iff {after : SourceUnit} {new : Node} {draft : Draft} :
    (Context.added after new).Reports draft ↔
      new.kind ∈ definitions ∧
        draft ∈ placeDrafts .nodeAdded (.added after new) (some (.ofNode after new)) := by
  constructor
  · rintro ⟨rule, member, applies, drafts, made, here⟩
    rcases Rule.appliesTo_iff.1 applies with ⟨sameScope, kindMem⟩
    obtain ⟨kinds, classify, -⟩ := of_scope_added rule member sameScope
    rw [kinds] at kindMem
    rw [classify, nodeAdded] at made
    rw [← Except.ok.inj made] at here
    exact ⟨kindMem, here⟩
  · rintro ⟨kindMem, here⟩
    exact ⟨_, List.mem_cons_self, Rule.appliesTo_iff.2 ⟨rfl, kindMem⟩, _, rfl, here⟩

/-- A context of a removed node reports nothing but the removal. -/
theorem reports_removed_iff {before : SourceUnit} {old : Node} {draft : Draft} :
    (Context.removed before old).Reports draft ↔
      old.kind ∈ definitions ∧
        draft ∈ placeDrafts .nodeRemoved (.removed before old) (some (.ofNode before old)) := by
  constructor
  · rintro ⟨rule, member, applies, drafts, made, here⟩
    rcases Rule.appliesTo_iff.1 applies with ⟨sameScope, kindMem⟩
    obtain ⟨kinds, classify, -⟩ := of_scope_removed rule member sameScope
    rw [kinds] at kindMem
    rw [classify, nodeRemoved] at made
    rw [← Except.ok.inj made] at here
    exact ⟨kindMem, here⟩
  · rintro ⟨kindMem, here⟩
    exact ⟨_, List.mem_cons_of_mem _ List.mem_cons_self, Rule.appliesTo_iff.2 ⟨rfl, kindMem⟩, _,
      rfl, here⟩

theorem type_of_reports_added {after : SourceUnit} {new : Node} {draft : Draft}
    (reports : (Context.added after new).Reports draft) : draft.type = .nodeAdded :=
  type_of_mem_placeDrafts (reports_added_iff.1 reports).2

theorem type_of_reports_removed {before : SourceUnit} {old : Node} {draft : Draft}
    (reports : (Context.removed before old).Reports draft) : draft.type = .nodeRemoved :=
  type_of_mem_placeDrafts (reports_removed_iff.1 reports).2

/-- A context with both sides reports no addition and no removal. -/
theorem type_ne_of_reports_changed {before after : SourceUnit} {old new : Node} {draft : Draft}
    (reports : (Context.changed before after old new).Reports draft) :
    draft.type ≠ .nodeAdded ∧ draft.type ≠ .nodeRemoved := by
  rcases reports with ⟨rule, member, applies, drafts, made, here⟩
  rcases Rule.appliesTo_iff.1 applies with ⟨sameScope, -⟩
  have emitted := type_mem_emits_of_classify member made draft here
  obtain ⟨noAddition, noRemoval⟩ := not_mem_emits_of_scope_changed rule member sameScope
  constructor
  · rintro same
    exact noAddition (same ▸ emitted)
  · rintro same
    exact noRemoval (same ▸ emitted)

/-! ## Findings -/

/-- A finding is what a rule, at some position of the catalog, reports about a
context. -/
def Finds (context : Context) (entry : Nat × Rule) (finding : Finding) : Prop :=
  entry.2.appliesTo context = true ∧
    ∃ drafts, entry.2.classify context = .ok drafts ∧ ∃ draft ∈ drafts,
      finding = ⟨context.key, context.kind, entry.1, entry.2.name, draft⟩

theorem exists_findingsOf {context : Context} {index : Nat} {rule : Rule}
    (honours : rule.HonoursContract) (holds : ∀ feature, context.Holds feature) :
    ∃ findings, findingsOf context index rule = .ok findings ∧
      ∀ finding, finding ∈ findings ↔ Finds context (index, rule) finding := by
  obtain ⟨drafts, made, -⟩ := honours context fun feature _ => holds feature
  rw [findingsOf]
  by_cases applies : rule.appliesTo context
  · rw [if_pos applies, made]
    refine ⟨_, rfl, ?_⟩
    intro finding
    rw [List.mem_map]
    constructor
    · rintro ⟨draft, here, rfl⟩
      exact ⟨applies, drafts, made, draft, here, rfl⟩
    · rintro ⟨-, drafts', made', draft, here, rfl⟩
      cases made.symm.trans made'
      exact ⟨draft, here, rfl⟩
  · rw [if_neg applies]
    refine ⟨[], rfl, ?_⟩
    intro finding
    simp [Finds, applies]

theorem exists_classifyWith {context : Context} {numbered : List (Nat × Rule)}
    (honour : ∀ entry ∈ numbered, entry.2.HonoursContract)
    (holds : ∀ feature, context.Holds feature) :
    ∃ findings, classifyWith context numbered = .ok findings ∧
      ∀ finding, finding ∈ findings ↔ ∃ entry ∈ numbered, Finds context entry finding := by
  induction numbered with
  | nil => exact ⟨[], rfl, fun finding => by simp⟩
  | cons entry others ih =>
      rcases entry with ⟨index, rule⟩
      rcases List.forall_mem_cons.1 honour with ⟨own, otherHonour⟩
      obtain ⟨first, firstMade, firstIff⟩ := @exists_findingsOf context index rule own holds
      obtain ⟨rest, restMade, restIff⟩ := ih otherHonour
      rw [classifyWith, firstMade, restMade]
      refine ⟨first ++ rest, rfl, ?_⟩
      intro finding
      simp only [List.mem_append, firstIff, restIff, List.mem_cons, exists_eq_or_imp]

theorem mem_rules_of_mem_numberedRules {entry : Nat × Rule} (member : entry ∈ numberedRules) :
    entry.2 ∈ rules := by
  rcases List.mem_mapIdx.1 member with ⟨index, bound, rfl⟩
  exact List.getElem_mem bound

/-- A classification succeeds, and it finds what the rules report. -/
theorem exists_classifyAll {contexts : List Context}
    (holds : ∀ context ∈ contexts, ∀ feature, context.Holds feature) :
    ∃ findings, classifyAll contexts = .ok findings ∧
      ∀ finding, finding ∈ findings ↔
        ∃ context ∈ contexts, ∃ entry ∈ numberedRules, Finds context entry finding := by
  induction contexts with
  | nil => exact ⟨[], rfl, fun finding => by simp⟩
  | cons context others ih =>
      rcases List.forall_mem_cons.1 holds with ⟨own, otherHolds⟩
      obtain ⟨first, firstMade, firstIff⟩ := exists_classifyWith
        (fun entry member =>
          honoursContract_of_mem_rules entry.2 (mem_rules_of_mem_numberedRules member)) own
      obtain ⟨rest, restMade, restIff⟩ := ih otherHolds
      rw [classifyAll, classify, firstMade, restMade]
      refine ⟨first ++ rest, rfl, ?_⟩
      intro finding
      simp only [List.mem_append, firstIff, restIff, List.mem_cons, exists_eq_or_imp]

/-- What is found about a context is reported about it. -/
theorem reports_of_finds {context : Context} {entry : Nat × Rule} {finding : Finding}
    (member : entry ∈ numberedRules) (finds : Finds context entry finding) :
    finding.key = context.key ∧ finding.kind = context.kind ∧ context.Reports finding.draft := by
  rcases finds with ⟨applies, drafts, made, draft, here, rfl⟩
  exact ⟨rfl, rfl, entry.2, mem_rules_of_mem_numberedRules member, applies, drafts, made, here⟩

/-- What is reported about a context is found. -/
theorem exists_finds_of_reports {context : Context} {draft : Draft}
    (reports : context.Reports draft) :
    ∃ entry ∈ numberedRules, ∃ finding, Finds context entry finding ∧
      finding.key = context.key ∧ finding.kind = context.kind ∧ finding.draft = draft := by
  rcases reports with ⟨rule, member, applies, drafts, made, here⟩
  rcases List.mem_iff_getElem.1 member with ⟨index, bound, rfl⟩
  exact ⟨(index, rules[index]), List.mem_mapIdx.2 ⟨index, bound, rfl⟩, _,
    ⟨applies, drafts, made, draft, here, rfl⟩, rfl, rfl, rfl⟩

/-- Nothing is found exactly when nothing is reported. -/
theorem classifyAll_eq_nil_iff {contexts : List Context}
    (holds : ∀ context ∈ contexts, ∀ feature, context.Holds feature) :
    classifyAll contexts = .ok [] ↔ ∀ context ∈ contexts, ∀ draft, ¬ context.Reports draft := by
  obtain ⟨findings, made, found⟩ := exists_classifyAll holds
  rw [made, Except.ok.injEq, List.eq_nil_iff_forall_not_mem]
  constructor
  · intro silent context member draft reports
    obtain ⟨entry, entryMem, finding, finds, -⟩ := exists_finds_of_reports reports
    exact silent finding ((found finding).2 ⟨context, member, entry, entryMem, finds⟩)
  · intro silent finding findingMem
    rcases (found finding).1 findingMem with ⟨context, member, entry, entryMem, finds⟩
    exact silent context member finding.draft (reports_of_finds entryMem finds).2.2

/-- A report about a key tells of which kind its node is.  A node that changed its
kind has two contexts, but one of them tells of a removal and the other one of an
addition. -/
theorem kind_eq_of_reports {before after : SourceUnit} (beforeRead : before.IsRead)
    (afterRead : after.IsRead) {first second : Context}
    (firstMem : first ∈ contexts before after) (secondMem : second ∈ contexts before after)
    (sameKey : first.key = second.key) {draft : Draft} (firstReports : first.Reports draft)
    (secondReports : second.Reports draft) : first.kind = second.kind := by
  rcases (mem_contexts_iff beforeRead afterRead).1 firstMem with
    ⟨old, -, new, newMem, -, rfl⟩ | ⟨old, oldMem, -, rfl⟩ | ⟨new, newMem, -, rfl⟩
  · obtain ⟨noAddition, noRemoval⟩ := type_ne_of_reports_changed firstReports
    rcases (mem_contexts_iff beforeRead afterRead).1 secondMem with
      ⟨old', -, new', newMem', -, rfl⟩ | ⟨old', -, -, rfl⟩ | ⟨new', -, -, rfl⟩
    · exact congrArg Node.kind (afterRead.eq_of_key_eq newMem newMem' sameKey)
    · exact absurd (type_of_reports_removed secondReports) noRemoval
    · exact absurd (type_of_reports_added secondReports) noAddition
  · have removal := type_of_reports_removed firstReports
    rcases (mem_contexts_iff beforeRead afterRead).1 secondMem with
      ⟨old', -, new', -, -, rfl⟩ | ⟨old', oldMem', -, rfl⟩ | ⟨new', -, -, rfl⟩
    · exact absurd removal (type_ne_of_reports_changed secondReports).2
    · exact congrArg Node.kind (beforeRead.eq_of_key_eq oldMem oldMem' sameKey)
    · cases removal.symm.trans (type_of_reports_added secondReports)
  · have addition := type_of_reports_added firstReports
    rcases (mem_contexts_iff beforeRead afterRead).1 secondMem with
      ⟨old', -, new', -, -, rfl⟩ | ⟨old', -, -, rfl⟩ | ⟨new', newMem', -, rfl⟩
    · exact absurd addition (type_ne_of_reports_changed secondReports).1
    · cases addition.symm.trans (type_of_reports_removed secondReports)
    · exact congrArg Node.kind (afterRead.eq_of_key_eq newMem newMem' sameKey)

end SemanticDiff.Catalog
