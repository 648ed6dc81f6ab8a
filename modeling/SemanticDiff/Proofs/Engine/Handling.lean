import SemanticDiff.Proofs.Engine.Tracking

/-!
# Events about the handling of errors

Two rules tell of the handling of errors.  The one reports that handlers appeared or
disappeared, the other one which exceptions are caught by code that has handlers on both
sides.  Since code without handlers catches nothing, the two share all cases between
them: they never speak at once, and no change of what is caught is missed.
-/

namespace SemanticDiff.Catalog

open SemanticDiff.Feature (Snapshot Tally extract)
open SemanticDiff.Outline (Node SourceUnit)

/-! ## What a rule finds -/

variable {before after : SourceUnit} {old new : Node} {rule : Rule}

/-- Of drafts of its types a rule reports all that is found. -/
theorem mem_map_draft_findings_iff {context : Context} (listed : rule ∈ rules) {draft : Draft}
    (emitted : draft.type ∈ rule.emits) :
    draft ∈ context.findings.map Finding.draft ↔ draft ∈ rule.draftsIn context := by
  rw [map_draft_findings, List.mem_flatMap]
  constructor
  · rintro ⟨other, otherListed, member⟩
    have otherEmitted := type_mem_emits_of_mem_draftsIn otherListed member
    rwa [eq_of_mem_emits listed otherListed emitted otherEmitted]
  · intro member
    exact ⟨rule, listed, member⟩

/-- What a rule that compares snapshots says about a node that exists on both sides. -/
theorem Rule.draftsIn_changed {reads : List Feature} {drafts : Snapshot → Snapshot → List Draft}
    (compares : Classifier.Compares rule.classify reads drafts) (scope : rule.scope = .changed)
    (kind : new.kind ∈ rule.kinds) :
    rule.draftsIn (.changed before after old new) =
      drafts (extract before old) (extract after new) := by
  have sides := Context.snapshots?_changed before after old new
  have applies : rule.appliesTo (.changed before after old new) = true :=
    appliesTo_iff.2 ⟨scope, kind⟩
  rw [draftsIn, if_pos applies, compares.reports sides fun feature _ =>
    (Context.holds_changed old new feature).of_snapshots? sides]
  rfl

/-! ## Drafts about handlers and names -/

namespace Classifier

variable {appeared disappeared : EventType}

theorem appeared_mem_presenceDrafts_iff (different : appeared ≠ disappeared) {before after : Nat} :
    appeared ∈ (presenceDrafts appeared disappeared before after).map Draft.type ↔
      before = 0 ∧ 0 < after := by
  rw [presenceDrafts]
  by_cases noneBefore : before = 0 <;> by_cases noneAfter : after = 0 <;>
    simp [noneBefore, noneAfter, Draft.transition, Draft.withDetail, Draft.ofType, different,
      Nat.pos_iff_ne_zero]

theorem disappeared_mem_presenceDrafts_iff (different : appeared ≠ disappeared)
    {before after : Nat} :
    disappeared ∈ (presenceDrafts appeared disappeared before after).map Draft.type ↔
      0 < before ∧ after = 0 := by
  rw [presenceDrafts]
  by_cases noneBefore : before = 0 <;> by_cases noneAfter : after = 0 <;>
    simp [noneBefore, noneAfter, Draft.transition, Draft.withDetail, Draft.ofType,
      Ne.symm different, Nat.pos_iff_ne_zero]

/-- Every name that only one of two tallies has is reported. -/
theorem mem_nameDrafts_iff {detail : String} {before after : Tally} {draft : Draft} :
    draft ∈ nameDrafts detail appeared disappeared before after ↔
      (∃ name ∈ nameSet after \ nameSet before,
        draft = (Draft.ofType appeared).withDetail detail (.text name)) ∨
      ∃ name ∈ nameSet before \ nameSet after,
        draft = (Draft.ofType disappeared).withDetail detail (.text name) := by
  simp only [nameDrafts, List.mem_append, List.mem_map, mem_namesOnlyIn_iff, Finset.mem_sdiff,
    mem_nameSet_iff, @eq_comm _ draft]

/-- Without handlers on both sides no names are reported, else those of the tallies. -/
theorem mem_exceptionDrafts_iff {before after : Snapshot} {draft : Draft} :
    draft ∈ exceptionDrafts before after ↔
      (0 < before.countOf .exceptionHandlers ∧ 0 < after.countOf .exceptionHandlers) ∧
        draft ∈ nameDrafts "exception_type" .exceptionHandlingAdded .exceptionHandlingRemoved
          (before.tallyOf .handlerTypes) (after.tallyOf .handlerTypes) := by
  rw [exceptionDrafts, Nat.pos_iff_ne_zero, Nat.pos_iff_ne_zero, ← not_or]
  split
  · rename_i none
    simp [none]
  · rename_i some
    rw [and_iff_right some]

end Classifier

open Classifier

/-- One rule tells that handlers appeared or disappeared. -/
theorem of_emits_errorHandling : ∀ rule ∈ rules, .errorHandlingIntroduced ∈ rule.emits →
    rule.scope = .changed ∧ rule.kinds = functionsAndModules ∧
      rule.emits = [.errorHandlingIntroduced, .errorHandlingRemoved] ∧
      rule.classify =
        presence .exceptionHandlers .errorHandlingIntroduced .errorHandlingRemoved := by
  simp [rules, countRule, literalKinds]

/-- One rule tells which exceptions are caught. -/
theorem of_emits_exceptionHandling : ∀ rule ∈ rules, .exceptionHandlingAdded ∈ rule.emits →
    rule.scope = .changed ∧ rule.kinds = functionsAndModules ∧
      rule.emits = [.exceptionHandlingAdded, .exceptionHandlingRemoved] ∧
      rule.classify = exceptionHandling := by
  simp [rules, countRule, literalKinds]

variable {draft : Draft}

theorem mem_presence_findings_iff (kind : new.kind ∈ functionsAndModules)
    (about : draft.type ∈ [EventType.errorHandlingIntroduced, .errorHandlingRemoved]) :
    draft ∈ (Context.changed before after old new).findings.map Finding.draft ↔
      draft ∈ presenceDrafts .errorHandlingIntroduced .errorHandlingRemoved
        ((extract before old).countOf .exceptionHandlers)
        ((extract after new).countOf .exceptionHandlers) := by
  obtain ⟨rule, listed, emits⟩ := exists_mem_emits .errorHandlingIntroduced
  obtain ⟨scope, kinds, types, classify⟩ := of_emits_errorHandling rule listed emits
  have compares := classify ▸ @compares_presence .exceptionHandlers rfl
    .errorHandlingIntroduced .errorHandlingRemoved
  rw [mem_map_draft_findings_iff listed (types ▸ about),
    Rule.draftsIn_changed compares scope (kinds ▸ kind)]

theorem mem_exceptions_findings_iff (kind : new.kind ∈ functionsAndModules)
    (about : draft.type ∈ [EventType.exceptionHandlingAdded, .exceptionHandlingRemoved]) :
    draft ∈ (Context.changed before after old new).findings.map Finding.draft ↔
      draft ∈ exceptionDrafts (extract before old) (extract after new) := by
  obtain ⟨rule, listed, emits⟩ := exists_mem_emits .exceptionHandlingAdded
  obtain ⟨scope, kinds, types, classify⟩ := of_emits_exceptionHandling rule listed emits
  rw [mem_map_draft_findings_iff listed (types ▸ about),
    Rule.draftsIn_changed (classify ▸ compares_exceptionHandling) scope (kinds ▸ kind)]

end SemanticDiff.Catalog

namespace SemanticDiff

open SemanticDiff.Catalog (Context Partners functionsAndModules nameSet)
open SemanticDiff.Catalog.Classifier
open SemanticDiff.Feature (Snapshot extract)
open SemanticDiff.Outline (Node SourceUnit)

/-! ## The cases of a comparison -/

namespace Feature.Snapshot

/-- The number of handlers. -/
def handlers (snapshot : Snapshot) : Nat :=
  snapshot.countOf .exceptionHandlers

/-- The names of the exceptions that are caught. -/
def caught (snapshot : Snapshot) : Finset String :=
  nameSet (snapshot.tallyOf .handlerTypes)

end Feature.Snapshot

/-- The event types that are about the handling of errors. -/
def EventType.handling : List EventType :=
  [.errorHandlingIntroduced, .errorHandlingRemoved, .exceptionHandlingAdded,
    .exceptionHandlingRemoved]

/-- A draft about the exception of a name. -/
def Draft.aboutException (type : EventType) (name : String) : Draft :=
  (ofType type).withDetail "exception_type" (.text name)

/-- What the drafts about a node tell of the handling of errors on two sides. -/
structure TellsHandling (drafts : List Draft) (before after : Snapshot) : Prop where
  introduced : .errorHandlingIntroduced ∈ drafts.map Draft.type ↔
    before.handlers = 0 ∧ 0 < after.handlers
  removed : .errorHandlingRemoved ∈ drafts.map Draft.type ↔
    0 < before.handlers ∧ after.handlers = 0
  /-- Without handlers on both sides no exception is named. -/
  unnamed : before.handlers = 0 ∨ after.handlers = 0 →
    .exceptionHandlingAdded ∉ drafts.map Draft.type ∧
      .exceptionHandlingRemoved ∉ drafts.map Draft.type
  added : 0 < before.handlers → 0 < after.handlers → ∀ draft,
    draft ∈ drafts ∧ draft.type = .exceptionHandlingAdded ↔
      ∃ name ∈ after.caught \ before.caught, draft = .aboutException .exceptionHandlingAdded name
  dropped : 0 < before.handlers → 0 < after.handlers → ∀ draft,
    draft ∈ drafts ∧ draft.type = .exceptionHandlingRemoved ↔
      ∃ name ∈ before.caught \ after.caught, draft = .aboutException .exceptionHandlingRemoved name
  /-- Nothing is told twice. -/
  once : drafts.Nodup

namespace TellsHandling

variable {before after : Snapshot} {drafts : List Draft}

/-- Without any handlers the handling of errors is not spoken of. -/
theorem not_mem_of_handlers_eq_zero (tells : TellsHandling drafts before after)
    (noneBefore : before.handlers = 0) (noneAfter : after.handlers = 0) :
    ∀ type ∈ EventType.handling, type ∉ drafts.map Draft.type := by
  obtain ⟨noneAdded, noneDropped⟩ := tells.unnamed (Or.inl noneBefore)
  have noneIntroduced := mt tells.introduced.1 (by simp [noneAfter])
  have noneRemoved := mt tells.removed.1 (by simp [noneBefore])
  simp only [EventType.handling, List.forall_mem_cons]
  exact ⟨noneIntroduced, noneRemoved, noneAdded, noneDropped, by simp⟩

/-- No change of what is caught is missed, if nothing is caught without handlers. -/
theorem exists_mem_of_caught_ne (tells : TellsHandling drafts before after)
    (bareBefore : before.handlers = 0 → before.caught = ∅)
    (bareAfter : after.handlers = 0 → after.caught = ∅) (differ : before.caught ≠ after.caught) :
    ∃ type ∈ EventType.handling, type ∈ drafts.map Draft.type := by
  -- Only where handlers are on both sides the names themselves are needed.
  by_cases noneBefore : before.handlers = 0
  · have someAfter : 0 < after.handlers := by
      apply Nat.pos_of_ne_zero
      intro noneAfter
      exact differ ((bareBefore noneBefore).trans (bareAfter noneAfter).symm)
    exact ⟨_, by simp [EventType.handling], tells.introduced.2 ⟨noneBefore, someAfter⟩⟩
  have someBefore := Nat.pos_of_ne_zero noneBefore
  by_cases noneAfter : after.handlers = 0
  · exact ⟨_, by simp [EventType.handling], tells.removed.2 ⟨someBefore, noneAfter⟩⟩
  have someAfter := Nat.pos_of_ne_zero noneAfter
  by_cases kept : before.caught ⊆ after.caught
  · have fresh : ¬after.caught ⊆ before.caught := fun back => differ (kept.antisymm back)
    obtain ⟨name, member⟩ := Finset.sdiff_nonempty.2 fresh
    obtain ⟨told, type⟩ := (tells.added someBefore someAfter _).2 ⟨name, member, rfl⟩
    exact ⟨_, by simp [EventType.handling], List.mem_map.2 ⟨_, told, type⟩⟩
  · obtain ⟨name, member⟩ := Finset.sdiff_nonempty.2 kept
    obtain ⟨told, type⟩ := (tells.dropped someBefore someAfter _).2 ⟨name, member, rfl⟩
    exact ⟨_, by simp [EventType.handling], List.mem_map.2 ⟨_, told, type⟩⟩

end TellsHandling

section

variable {before after : SourceUnit} {old new : Node}

theorem caught_eq_empty {unit : SourceUnit} {node : Node}
    (none : (extract unit node).handlers = 0) : (extract unit node).caught = ∅ := by
  rw [Snapshot.caught, Feature.tallyOf_handlerTypes_eq_empty none]
  rfl

/-- That handlers appeared or disappeared is told by the first rule alone. -/
theorem mem_types_findings_iff (kind : new.kind ∈ functionsAndModules) {type : EventType}
    (about : type ∈ [EventType.errorHandlingIntroduced, .errorHandlingRemoved]) :
    type ∈ ((Context.changed before after old new).findings.map Finding.draft).map Draft.type ↔
      type ∈ (presenceDrafts .errorHandlingIntroduced .errorHandlingRemoved
        (extract before old).handlers (extract after new).handlers).map Draft.type := by
  rw [List.mem_map, List.mem_map]
  apply exists_congr
  intro draft
  apply and_congr_left
  rintro rfl
  exact Catalog.mem_presence_findings_iff kind about

/-- Which names appeared or disappeared is told by the second rule alone. -/
theorem mem_findings_iff_of_handlers (kind : new.kind ∈ functionsAndModules)
    (someBefore : 0 < (extract before old).handlers) (someAfter : 0 < (extract after new).handlers)
    {draft : Draft}
    (about : draft.type ∈ [EventType.exceptionHandlingAdded, .exceptionHandlingRemoved]) :
    draft ∈ (Context.changed before after old new).findings.map Finding.draft ↔
      (∃ name ∈ (extract after new).caught \ (extract before old).caught,
        draft = .aboutException .exceptionHandlingAdded name) ∨
      ∃ name ∈ (extract before old).caught \ (extract after new).caught,
        draft = .aboutException .exceptionHandlingRemoved name := by
  rw [Catalog.mem_exceptions_findings_iff kind about, mem_exceptionDrafts_iff,
    and_iff_right ⟨someBefore, someAfter⟩, mem_nameDrafts_iff]
  rfl

theorem tellsHandling_findings (kind : new.kind ∈ functionsAndModules) :
    TellsHandling ((Context.changed before after old new).findings.map Finding.draft)
      (extract before old) (extract after new) where
  introduced := by
    rw [mem_types_findings_iff kind (by simp), appeared_mem_presenceDrafts_iff (by decide)]
  removed := by
    rw [mem_types_findings_iff kind (by simp), disappeared_mem_presenceDrafts_iff (by decide)]
  unnamed none := by
    have unnamed {draft : Draft}
        (member : draft ∈ (Context.changed before after old new).findings.map Finding.draft) :
        draft.type ∉ [EventType.exceptionHandlingAdded, .exceptionHandlingRemoved] := by
      intro about
      obtain ⟨⟨someBefore, someAfter⟩, -⟩ :=
        mem_exceptionDrafts_iff.1 ((Catalog.mem_exceptions_findings_iff kind about).1 member)
      rcases none with none | none
      · exact Nat.ne_of_gt someBefore none
      · exact Nat.ne_of_gt someAfter none
    constructor
    · intro told
      rcases List.mem_map.1 told with ⟨draft, member, type⟩
      exact unnamed member (by simp [type])
    · intro told
      rcases List.mem_map.1 told with ⟨draft, member, type⟩
      exact unnamed member (by simp [type])
  added someBefore someAfter draft := by
    constructor
    · rintro ⟨member, type⟩
      rcases (mem_findings_iff_of_handlers kind someBefore someAfter (by simp [type])).1 member
        with fresh | ⟨name, -, rfl⟩
      · exact fresh
      · cases type
    · rintro ⟨name, fresh, rfl⟩
      exact ⟨(mem_findings_iff_of_handlers kind someBefore someAfter List.mem_cons_self).2
        (Or.inl ⟨name, fresh, rfl⟩), rfl⟩
  dropped someBefore someAfter draft := by
    constructor
    · rintro ⟨member, type⟩
      rcases (mem_findings_iff_of_handlers kind someBefore someAfter (by simp [type])).1 member
        with ⟨name, -, rfl⟩ | gone
      · cases type
      · exact gone
    · rintro ⟨name, gone, rfl⟩
      exact ⟨(mem_findings_iff_of_handlers kind someBefore someAfter
        (List.mem_cons_of_mem _ List.mem_cons_self)).2 (Or.inr ⟨name, gone, rfl⟩), rfl⟩
  once := by
    apply List.pairwise_map.2
    apply (Catalog.pairwise_findings (Context.holds_changed old new)).imp
    intro first second leads
    exact leads.2.ne

end

/-- The events about a function or a module that exists on both sides fall into cases that
exclude each other: handlers appear, or they disappear, or exceptions are named where
handlers are on both sides, or nothing is said of the handling of errors.  In the last
case nothing is caught, and in none a change of what is caught is missed. -/
theorem Engine.diff_tells_handling {path revision old new : String} {before after : SourceUnit}
    (supported : default.supports path = true)
    (oldRead : SourceUnit.read path revision old = .ok before)
    (newRead : SourceUnit.read path revision new = .ok after) :
    ∃ events, default.diff path (some old) (some new) revision = .ok events ∧
      ∀ oldNode ∈ before.nodes, ∀ newNode ∈ after.nodes, Partners oldNode newNode →
        newNode.kind = .functionDef ∨ newNode.kind = .module →
        let drafts := draftsAbout newNode.key events
        let early := extract before oldNode
        let late := extract after newNode
        TellsHandling drafts early late ∧
          (early.handlers = 0 → late.handlers = 0 →
            (∀ type ∈ EventType.handling, type ∉ drafts.map Draft.type) ∧
              early.caught = ∅ ∧ late.caught = ∅) ∧
          (early.caught ≠ late.caught →
            ∃ type ∈ EventType.handling, type ∈ drafts.map Draft.type) := by
  have beforeRead := SourceUnit.isRead_of_read oldRead
  have afterRead := SourceUnit.isRead_of_read newRead
  obtain ⟨events, made, -⟩ := exists_diffUnits beforeRead afterRead
  refine ⟨events, diff_default_eq_ok_iff.2
    ⟨supported, before, after, oldRead, newRead, made⟩, ?_⟩
  intro oldNode oldMem newNode newMem partners kind drafts early late
  have listed : newNode.kind ∈ functionsAndModules := by
    simpa [functionsAndModules] using kind
  have tells : TellsHandling drafts early late := by
    change TellsHandling (draftsAbout newNode.key events) _ _
    rw [draftsAbout_diffUnits beforeRead afterRead made oldMem newMem partners]
    exact tellsHandling_findings listed
  refine ⟨tells, ?_, tells.exists_mem_of_caught_ne caught_eq_empty caught_eq_empty⟩
  intro noneBefore noneAfter
  exact ⟨tells.not_mem_of_handlers_eq_zero noneBefore noneAfter, caught_eq_empty noneBefore,
    caught_eq_empty noneAfter⟩

/-- A function that catches another exception than before: the old name is dropped and
the new one is added. -/
theorem Engine.diff_tells_handling_of_exchange :
    let old := "def f():\n  try: g()\n  except A: pass\n"
    let new := "def f():\n  try: g()\n  except B: pass\n"
    ∃ (before after : SourceUnit) (oldNode newNode : Node) (events : List Event),
      SourceUnit.read "m.py" "r1" old = .ok before ∧
      SourceUnit.read "m.py" "r1" new = .ok after ∧
      default.diff "m.py" (some old) (some new) "r1" = .ok events ∧
      oldNode ∈ before.nodes ∧ newNode ∈ after.nodes ∧ Partners oldNode newNode ∧
      newNode.kind = .functionDef ∧
      TellsHandling (draftsAbout newNode.key events) (extract before oldNode)
        (extract after newNode) ∧
      .aboutException .exceptionHandlingAdded "B" ∈ draftsAbout newNode.key events ∧
      .aboutException .exceptionHandlingRemoved "A" ∈ draftsAbout newNode.key events := by
  intro old new
  have outline (text name : String) (seen : (SourceUnit.read "m.py" "r1" text).toOption.map
      (fun unit => unit.nodes.map fun node => (node.key, node.kind, (extract unit node).handlers,
        (extract unit node).caught)) =
        some [(.module, .module, 0, ∅), (⟨"f"⟩, .functionDef, 1, {name})]) :
      ∃ unit, SourceUnit.read "m.py" "r1" text = .ok unit ∧ ∃ node ∈ unit.nodes,
        node.key = ⟨"f"⟩ ∧ node.kind = .functionDef ∧ (extract unit node).handlers = 1 ∧
          (extract unit node).caught = {name} := by
    obtain ⟨unit, made, nodes⟩ := exists_ok_of_map_eq_some seen
    have member : (⟨"f"⟩, .functionDef, 1, {name}) ∈ unit.nodes.map fun node =>
        (node.key, node.kind, (extract unit node).handlers, (extract unit node).caught) := by
      rw [nodes]
      simp
    rcases List.mem_map.1 member with ⟨node, nodeMem, same⟩
    simp only [Prod.mk.injEq] at same
    exact ⟨unit, made, node, nodeMem, same⟩
  obtain ⟨before, oldRead, oldNode, oldMem, oldKey, oldKind, oldHandlers, oldCaught⟩ :=
    outline old "A" (by decide +kernel)
  obtain ⟨after, newRead, newNode, newMem, newKey, newKind, newHandlers, newCaught⟩ :=
    outline new "B" (by decide +kernel)
  have partners : Partners oldNode newNode :=
    ⟨oldKey.trans newKey.symm, oldKind.trans newKind.symm⟩
  obtain ⟨events, made, tells⟩ := diff_tells_handling (by decide +kernel) oldRead newRead
  obtain ⟨tells, -, -⟩ := tells oldNode oldMem newNode newMem partners (Or.inl newKind)
  have someBefore : 0 < (extract before oldNode).handlers := by simp [oldHandlers]
  have someAfter : 0 < (extract after newNode).handlers := by simp [newHandlers]
  refine ⟨before, after, oldNode, newNode, events, oldRead, newRead, made, oldMem, newMem,
    partners, newKind, tells, ?_, ?_⟩
  · exact ((tells.added someBefore someAfter _).2 ⟨"B", by simp [oldCaught, newCaught], rfl⟩).1
  · exact ((tells.dropped someBefore someAfter _).2 ⟨"A", by simp [oldCaught, newCaught], rfl⟩).1

end SemanticDiff
