import SemanticDiff.Proofs.Catalog.Blocks
import SemanticDiff.Proofs.Engine.Events
import SemanticDiff.Proofs.Event.Order

/-!
# A diff, key by key

The events between two units fall into blocks, one for every key of either unit,
in the order of the keys.  A block depends on nothing but the nodes of its key.  It
holds what the rules report about them, in the order of the catalog, and nothing of
it is dropped.  So every event can be traced to the one rule that it names.
-/

namespace SemanticDiff

open SemanticDiff.Catalog (Context Rule Scope Side Leads Partners contexts rules numberedRules)
open SemanticDiff.Outline (Key Node NodeKind Pair SourceUnit matchUnits)

/-! ## Blocks -/

/-- A node as it is compared: what it is, where it stands and what is measured. -/
structure Sighting where
  kind : NodeKind
  side : Side

/-- The node of a key as it is compared. -/
def Outline.SourceUnit.sighting? (unit : SourceUnit) (key : Key) : Option Sighting :=
  (unit.find? key.text).map fun node => ⟨node.kind, .ofNode unit node⟩

/-- What is found about a key, given its node on both sides.  A node that changed
its kind was added as the one and removed as the other. -/
def block (key : Key) : Option Sighting → Option Sighting → List Finding
  | some old, some new =>
      if old.kind = new.kind then
        Context.findings ⟨key, new.kind, some old.side, some new.side⟩
      else
        Context.findings ⟨key, new.kind, none, some new.side⟩ ++
          Context.findings ⟨key, old.kind, some old.side, none⟩
  | some old, none => Context.findings ⟨key, old.kind, some old.side, none⟩
  | none, some new => Context.findings ⟨key, new.kind, none, some new.side⟩
  | none, none => []

/-- The block of a key between two units. -/
def blockOf (before after : SourceUnit) (key : Key) : List Finding :=
  block key (before.sighting? key) (after.sighting? key)

namespace Outline.SourceUnit.IsRead

variable {unit : SourceUnit}

theorem find?_eq_some_iff (isRead : unit.IsRead) {key : Key} {node : Node} :
    unit.find? key.text = some node ↔ node ∈ unit.nodes ∧ node.key = key := by
  rw [SourceUnit.find?]
  constructor
  · intro found
    have same : node.key.text = key.text := by simpa using List.find?_some found
    exact ⟨List.mem_of_find?_eq_some found, Key.text_inj.1 same⟩
  · rintro ⟨member, rfl⟩
    cases found : unit.nodes.find? fun other => other.key.text == node.key.text with
    | none => simpa using List.find?_eq_none.1 found node member
    | some other =>
        have same : other.key.text = node.key.text := by simpa using List.find?_some found
        rw [isRead.eq_of_key_eq (List.mem_of_find?_eq_some found) member (Key.text_inj.1 same)]

theorem sighting?_key (isRead : unit.IsRead) {node : Node} (member : node ∈ unit.nodes) :
    unit.sighting? node.key = some ⟨node.kind, .ofNode unit node⟩ := by
  rw [sighting?, isRead.find?_eq_some_iff.2 ⟨member, rfl⟩, Option.map_some]

theorem sighting?_eq_none (isRead : unit.IsRead) {key : Key}
    (absent : ∀ node ∈ unit.nodes, node.key ≠ key) : unit.sighting? key = none := by
  rw [sighting?, Option.map_eq_none_iff, Option.eq_none_iff_forall_ne_some]
  intro node found
  rcases isRead.find?_eq_some_iff.1 found with ⟨member, same⟩
  exact absent node member same

end Outline.SourceUnit.IsRead

section

variable {before after : SourceUnit} {key : Key}

theorem blockOf_partners (beforeRead : before.IsRead) (afterRead : after.IsRead) {old new : Node}
    (oldMem : old ∈ before.nodes) (newMem : new ∈ after.nodes) (partners : Partners old new) :
    blockOf before after new.key = (Context.changed before after old new).findings := by
  have sighted := beforeRead.sighting?_key oldMem
  rw [partners.1] at sighted
  rw [blockOf, sighted, afterRead.sighting?_key newMem, block, if_pos partners.2]
  rfl

theorem blockOf_kind_ne (beforeRead : before.IsRead) (afterRead : after.IsRead) {old new : Node}
    (oldMem : old ∈ before.nodes) (newMem : new ∈ after.nodes) (sameKey : old.key = new.key)
    (otherKind : old.kind ≠ new.kind) :
    blockOf before after new.key =
      (Context.added after new).findings ++ (Context.removed before old).findings := by
  have sighted := beforeRead.sighting?_key oldMem
  rw [sameKey] at sighted
  rw [blockOf, sighted, afterRead.sighting?_key newMem, block, if_neg otherKind, Context.removed,
    sameKey]
  rfl

theorem blockOf_removed (beforeRead : before.IsRead) (afterRead : after.IsRead) {old : Node}
    (oldMem : old ∈ before.nodes) (gone : ∀ new ∈ after.nodes, new.key ≠ old.key) :
    blockOf before after old.key = (Context.removed before old).findings := by
  rw [blockOf, beforeRead.sighting?_key oldMem, afterRead.sighting?_eq_none gone]
  rfl

theorem blockOf_added (beforeRead : before.IsRead) (afterRead : after.IsRead) {new : Node}
    (newMem : new ∈ after.nodes) (fresh : ∀ old ∈ before.nodes, old.key ≠ new.key) :
    blockOf before after new.key = (Context.added after new).findings := by
  rw [blockOf, beforeRead.sighting?_eq_none fresh, afterRead.sighting?_key newMem]
  rfl

/-! ## Additions and removals -/

theorem ruleIndex_of_mem_findings_added {new : Node} {finding : Finding}
    (member : finding ∈ (Context.added after new).findings) : finding.ruleIndex = 0 := by
  have first : ∀ entry ∈ numberedRules, entry.2.scope = .added → entry.1 = 0 := by decide
  obtain ⟨entry, entryMem, draft, draftMem, rfl⟩ := Catalog.mem_findings_iff.1 member
  exact first entry entryMem
    (Rule.appliesTo_iff.1 (Catalog.appliesTo_of_mem_draftsIn draftMem)).1

theorem ruleIndex_of_mem_findings_removed {old : Node} {finding : Finding}
    (member : finding ∈ (Context.removed before old).findings) : finding.ruleIndex = 1 := by
  have second : ∀ entry ∈ numberedRules, entry.2.scope = .removed → entry.1 = 1 := by decide
  obtain ⟨entry, entryMem, draft, draftMem, rfl⟩ := Catalog.mem_findings_iff.1 member
  exact second entry entryMem
    (Rule.appliesTo_iff.1 (Catalog.appliesTo_of_mem_draftsIn draftMem)).1

theorem type_of_mem_findings_added {new : Node} {finding : Finding}
    (member : finding ∈ (Context.added after new).findings) : finding.draft.type = .nodeAdded := by
  obtain ⟨entry, entryMem, draft, draftMem, rfl⟩ := Catalog.mem_findings_iff.1 member
  exact Catalog.type_of_reports_added (Catalog.reports_of_mem_draftsIn
    (Catalog.mem_rules_of_mem_numberedRules entryMem) draftMem)

theorem type_of_mem_findings_removed {old : Node} {finding : Finding}
    (member : finding ∈ (Context.removed before old).findings) :
    finding.draft.type = .nodeRemoved := by
  obtain ⟨entry, entryMem, draft, draftMem, rfl⟩ := Catalog.mem_findings_iff.1 member
  exact Catalog.type_of_reports_removed (Catalog.reports_of_mem_draftsIn
    (Catalog.mem_rules_of_mem_numberedRules entryMem) draftMem)

/-- The block of a pair holds the findings about its context.  Only a node that
changed its kind has two contexts, and there the addition comes first. -/
theorem blockOf_cases (beforeRead : before.IsRead) (afterRead : after.IsRead) {pair : Pair Node}
    (pairMem : pair ∈ matchUnits before after) :
    (∃ context, Context.ofPair before after pair = [context] ∧
      blockOf before after pair.key = context.findings) ∨
    ∃ old new, Context.ofPair before after pair = [.removed before old, .added after new] ∧
      blockOf before after pair.key =
        (Context.added after new).findings ++ (Context.removed before old).findings := by
  cases pair with
  | matched key old new =>
      obtain ⟨⟨oldMem, oldKey⟩, newMem, newKey⟩ :=
        (Outline.matched_mem_matchUnits_iff beforeRead afterRead).1 pairMem
      subst key
      rw [Pair.key, Context.ofPair, ← newKey]
      by_cases sameKind : old.kind = new.kind
      · left
        rw [if_pos sameKind]
        exact ⟨_, rfl, blockOf_partners beforeRead afterRead oldMem newMem
          ⟨newKey.symm, sameKind⟩⟩
      · right
        rw [if_neg sameKind]
        refine ⟨old, new, ?_, blockOf_kind_ne beforeRead afterRead oldMem newMem newKey.symm
          sameKind⟩
        rw [newKey, Context.removed, Context.added, newKey]
  | removed key old =>
      obtain ⟨⟨oldMem, rfl⟩, gone⟩ :=
        (Outline.removed_mem_matchUnits_iff beforeRead afterRead).1 pairMem
      left
      exact ⟨_, rfl, blockOf_removed beforeRead afterRead oldMem gone⟩
  | added key new =>
      obtain ⟨⟨newMem, rfl⟩, fresh⟩ :=
        (Outline.added_mem_matchUnits_iff beforeRead afterRead).1 pairMem
      left
      exact ⟨_, rfl, blockOf_added beforeRead afterRead newMem fresh⟩

/-- A finding of a block is one about a context of its pair. -/
theorem exists_context_of_mem_blockOf (beforeRead : before.IsRead) (afterRead : after.IsRead)
    {pair : Pair Node} (pairMem : pair ∈ matchUnits before after) {finding : Finding}
    (member : finding ∈ blockOf before after pair.key) :
    ∃ context ∈ contexts before after, finding ∈ context.findings := by
  have listed {context : Context} (here : context ∈ Context.ofPair before after pair) :
      context ∈ contexts before after :=
    List.mem_flatMap.2 ⟨pair, pairMem, here⟩
  rcases blockOf_cases beforeRead afterRead pairMem with
    ⟨context, paired, blocked⟩ | ⟨old, new, paired, blocked⟩
  · rw [blocked] at member
    exact ⟨context, listed (by simp [paired]), member⟩
  · rw [blocked] at member
    rcases List.mem_append.1 member with here | here
    · exact ⟨_, listed (by simp [paired]), here⟩
    · exact ⟨_, listed (by simp [paired]), here⟩

/-- A block stands in the order of the rules, and its findings can be told apart. -/
theorem pairwise_blockOf (beforeRead : before.IsRead) (afterRead : after.IsRead)
    {pair : Pair Node} (pairMem : pair ∈ matchUnits before after) :
    (blockOf before after pair.key).Pairwise Leads := by
  rcases blockOf_cases beforeRead afterRead pairMem with
    ⟨context, paired, blocked⟩ | ⟨old, new, -, blocked⟩
  · rw [blocked]
    apply Catalog.pairwise_findings
    apply Catalog.holds_of_mem_contexts beforeRead afterRead
    exact List.mem_flatMap.2 ⟨pair, pairMem, by simp [paired]⟩
  · rw [blocked]
    apply List.pairwise_append.2
    refine ⟨Catalog.pairwise_findings (Context.holds_added new),
      Catalog.pairwise_findings (Context.holds_removed old), ?_⟩
    intro addition additionMem removal removalMem
    constructor
    · rw [ruleIndex_of_mem_findings_added additionMem,
        ruleIndex_of_mem_findings_removed removalMem]
      exact Nat.zero_le 1
    · apply Draft.apart_of_type_ne
      rw [type_of_mem_findings_added additionMem, type_of_mem_findings_removed removalMem]
      decide

/-- In a block the findings of one rule stand as they were found. -/
theorem filter_tied_blockOf (beforeRead : before.IsRead) (afterRead : after.IsRead)
    {pair : Pair Node} (pairMem : pair ∈ matchUnits before after) (finding : Finding) :
    (blockOf before after pair.key).filter (tied Finding.precedes finding) =
      ((Context.ofPair before after pair).flatMap Context.findings).filter
        (tied Finding.precedes finding) := by
  rcases blockOf_cases beforeRead afterRead pairMem with
    ⟨context, paired, blocked⟩ | ⟨old, new, paired, blocked⟩
  · rw [blocked, paired, List.flatMap_singleton]
  · rw [blocked, paired, List.flatMap_cons, List.flatMap_singleton, List.filter_append,
      List.filter_append]
    -- The addition and the removal come from different rules, so one side is empty.
    by_cases first : finding.ruleIndex = 0
    · have none : (Context.removed before old).findings.filter
          (tied Finding.precedes finding) = [] := by
        apply List.filter_eq_nil_iff.2
        intro other member same
        have index := (Finding.tied_precedes_iff.1 same).2
        rw [first, ruleIndex_of_mem_findings_removed member] at index
        cases index
      rw [none, List.append_nil, List.nil_append]
    · have none : (Context.added after new).findings.filter
          (tied Finding.precedes finding) = [] := by
        apply List.filter_eq_nil_iff.2
        intro other member same
        have index := (Finding.tied_precedes_iff.1 same).2
        exact first (index.trans (ruleIndex_of_mem_findings_added member))
      rw [none, List.append_nil, List.nil_append]

/-! ## All blocks -/

/-- The keys of two units, in ascending order. -/
def jointKeys (before after : SourceUnit) : List Key :=
  (matchUnits before after).map Pair.key

theorem pairwise_jointKeys (before after : SourceUnit) :
    (jointKeys before after).Pairwise fun first second => first.text < second.text :=
  List.pairwise_map.2 (Outline.pairwise_pairByKey _ _)

theorem mem_jointKeys_iff :
    key ∈ jointKeys before after ↔
      key ∈ before.nodes.map Node.key ∨ key ∈ after.nodes.map Node.key := by
  rw [jointKeys, Outline.matchUnits, Outline.mem_map_key_pairByKey_iff, List.map_map, List.map_map]
  rfl

theorem key_of_mem_blockOf {finding : Finding} (member : finding ∈ blockOf before after key) :
    finding.key = key := by
  rw [blockOf] at member
  unfold block at member
  split at member
  · split at member
    · exact Catalog.key_of_mem_findings member
    · rcases List.mem_append.1 member with here | here <;>
        exact Catalog.key_of_mem_findings here
  · exact Catalog.key_of_mem_findings member
  · exact Catalog.key_of_mem_findings member
  · cases member

/-- All blocks, one after the other. -/
def blocks (before after : SourceUnit) : List Finding :=
  (jointKeys before after).flatMap fun key =>
    block key (before.sighting? key) (after.sighting? key)

theorem blocks_eq (before after : SourceUnit) :
    blocks before after =
      (matchUnits before after).flatMap fun pair => blockOf before after pair.key := by
  rw [blocks, jointKeys, List.flatMap_map]
  rfl

theorem exists_context_of_mem_blocks (beforeRead : before.IsRead) (afterRead : after.IsRead)
    {finding : Finding} (member : finding ∈ blocks before after) :
    ∃ context ∈ contexts before after, finding ∈ context.findings := by
  rw [blocks_eq] at member
  rcases List.mem_flatMap.1 member with ⟨pair, pairMem, here⟩
  exact exists_context_of_mem_blockOf beforeRead afterRead pairMem here

/-- Findings of different blocks stand in the order of their keys, findings of one
block in the order of their rules. -/
theorem pairwise_blocks (beforeRead : before.IsRead) (afterRead : after.IsRead) :
    (blocks before after).Pairwise fun first second =>
      first.key.text < second.key.text ∨ first.key = second.key ∧ Leads first second := by
  rw [blocks_eq]
  apply List.pairwise_flatMap.2
  constructor
  · intro pair pairMem
    apply (pairwise_blockOf beforeRead afterRead pairMem).imp_of_mem
    intro first second firstMem secondMem leads
    right
    rw [key_of_mem_blockOf firstMem, key_of_mem_blockOf secondMem]
    exact ⟨rfl, leads⟩
  · apply (Outline.pairwise_pairByKey _ _).imp
    intro pair other less first firstMem second secondMem
    left
    rw [key_of_mem_blockOf firstMem, key_of_mem_blockOf secondMem]
    exact less

theorem pairwise_precedes_blocks (beforeRead : before.IsRead) (afterRead : after.IsRead) :
    (blocks before after).Pairwise fun first second => first.precedes second = true := by
  apply (pairwise_blocks beforeRead afterRead).imp
  intro first second ordered
  rw [Finding.precedes_iff]
  exact ordered.imp_right fun together => ⟨together.1, together.2.1⟩

theorem pairwise_apart_blocks (beforeRead : before.IsRead) (afterRead : after.IsRead) :
    (blocks before after).Pairwise fun first second =>
      first.key = second.key → first.draft.Apart second.draft := by
  apply (pairwise_blocks beforeRead afterRead).imp
  rintro first second (less | ⟨-, leads⟩) sameKey
  · rw [sameKey] at less
    exact absurd less (String.lt_irrefl _)
  · exact leads.2

theorem nodup_change_blocks (beforeRead : before.IsRead) (afterRead : after.IsRead) :
    ((blocks before after).map Finding.change).Nodup := by
  apply List.pairwise_map.2
  apply (pairwise_apart_blocks beforeRead afterRead).imp
  intro first second apart same
  rcases Prod.mk.inj same with ⟨sameKey, sameDraft⟩
  exact (apart sameKey).ne sameDraft

theorem filter_tied_blocks (beforeRead : before.IsRead) (afterRead : after.IsRead)
    (finding : Finding) :
    (blocks before after).filter (tied Finding.precedes finding) =
      ((contexts before after).flatMap Context.findings).filter
        (tied Finding.precedes finding) := by
  rw [blocks_eq, contexts, List.flatMap_assoc, List.filter_flatMap, List.filter_flatMap]
  apply List.flatMap_congr
  intro pair pairMem
  exact filter_tied_blockOf beforeRead afterRead pairMem finding

/-- The events of a comparison are the findings of all blocks. -/
theorem Engine.diffUnits_default_eq (beforeRead : before.IsRead) (afterRead : after.IsRead) :
    default.diffUnits before after = .ok ((blocks before after).mapIdx fun order finding =>
      finding.toEvent after.path after.revision order) := by
  have found := Catalog.classifyAll_eq fun context member =>
    Catalog.holds_of_mem_contexts beforeRead afterRead member
  rw [default.diffUnits_eq found, finish_default, assemble_eq_of_arranged _ _
    (pairwise_precedes_blocks beforeRead afterRead) (filter_tied_blocks beforeRead afterRead)
    (nodup_change_blocks beforeRead afterRead)]

/-! ## Tracing events -/

/-- The unit has a node of the key and the kind. -/
def Outline.SourceUnit.Has (unit : SourceUnit) (key : Key) (kind : NodeKind) : Prop :=
  ∃ node ∈ unit.nodes, node.key = key ∧ node.kind = kind

/-- The scope says on which sides there is a node of the key and the kind. -/
def Catalog.Scope.Fits (before after : SourceUnit) (key : Key) (kind : NodeKind) : Scope → Prop
  | .added => ¬ before.Has key kind ∧ after.Has key kind
  | .removed => before.Has key kind ∧ ¬ after.Has key kind
  | .changed => before.Has key kind ∧ after.Has key kind

/-- The event comes from the rule: it has the name of the rule, and the rule
declares its type, its kind and its scope. -/
structure Event.TracesTo (event : Event) (rule : Rule) (before after : SourceUnit) : Prop where
  name : event.rule = rule.name
  type : event.type ∈ rule.emits
  kind : event.kind ∈ rule.kinds
  scope : rule.scope.Fits before after event.key event.kind

/-- The scope of a context of two units fits. -/
theorem fits_of_mem_contexts (beforeRead : before.IsRead) (afterRead : after.IsRead)
    {context : Context} (member : context ∈ contexts before after) :
    context.scope.Fits before after context.key context.kind := by
  rcases (Catalog.mem_contexts_iff beforeRead afterRead).1 member with
    ⟨old, oldMem, new, newMem, partners, rfl⟩ | ⟨old, oldMem, alone, rfl⟩ |
    ⟨new, newMem, alone, rfl⟩
  · exact ⟨⟨old, oldMem, partners⟩, new, newMem, rfl, rfl⟩
  · refine ⟨⟨old, oldMem, rfl, rfl⟩, ?_⟩
    rintro ⟨new, newMem, sameKey, sameKind⟩
    exact alone new newMem ⟨sameKey.symm, sameKind.symm⟩
  · refine ⟨?_, new, newMem, rfl, rfl⟩
    rintro ⟨old, oldMem, partners⟩
    exact alone old oldMem partners

/-- Rules are told apart by their names. -/
theorem Catalog.eq_of_name_eq {rule other : Rule} (ruleMem : rule ∈ rules)
    (otherMem : other ∈ rules) (same : rule.name = other.name) : rule = other := by
  have distinct : (rules.map Rule.name).Nodup := by decide +kernel
  exact List.inj_on_of_nodup_map distinct ruleMem otherMem same

/-- Every finding of a block becomes an event of the rule that made it. -/
theorem exists_tracesTo_of_mem_blocks (beforeRead : before.IsRead) (afterRead : after.IsRead)
    {finding : Finding} (member : finding ∈ blocks before after) (path revision : String)
    (order : Nat) :
    ∃ rule ∈ rules, (finding.toEvent path revision order).TracesTo rule before after := by
  obtain ⟨context, contextMem, here⟩ := exists_context_of_mem_blocks beforeRead afterRead member
  obtain ⟨entry, entryMem, draft, draftMem, rfl⟩ := Catalog.mem_findings_iff.1 here
  have ruleMem := Catalog.mem_rules_of_mem_numberedRules entryMem
  have applies := Rule.appliesTo_iff.1 (Catalog.appliesTo_of_mem_draftsIn draftMem)
  refine ⟨entry.2, ruleMem, rfl, ?_, applies.2, ?_⟩
  · exact Catalog.type_mem_emits_of_mem_draftsIn ruleMem draftMem
  · rw [applies.1]
    exact fits_of_mem_contexts beforeRead afterRead contextMem

/-- A definition that exists on one side only has one finding. -/
theorem types_findings_of_one_side {kind : NodeKind} (defines : kind ≠ .module) (key : Key)
    (side : Side) :
    (Context.findings ⟨key, kind, none, some side⟩).map (·.draft.type) = [.nodeAdded] ∧
      (Context.findings ⟨key, kind, some side, none⟩).map (·.draft.type) = [.nodeRemoved] := by
  cases kind with
  | module => exact absurd rfl defines
  | classDef => exact ⟨rfl, rfl⟩
  | functionDef => exact ⟨rfl, rfl⟩

/-- Nodes of one key but of different kinds are definitions. -/
theorem types_block_of_kind_ne (beforeRead : before.IsRead) (afterRead : after.IsRead)
    {old new : Sighting} (oldSeen : before.sighting? key = some old)
    (newSeen : after.sighting? key = some new) (otherKind : old.kind ≠ new.kind) :
    (block key (some old) (some new)).map (·.draft.type) = [.nodeAdded, .nodeRemoved] := by
  have isModule {unit : SourceUnit} (isRead : unit.IsRead) {sighting : Sighting}
      (seen : unit.sighting? key = some sighting) : sighting.kind = .module ↔ key = .module := by
    rcases Option.map_eq_some_iff.1 seen with ⟨node, found, rfl⟩
    rcases isRead.find?_eq_some_iff.1 found with ⟨member, rfl⟩
    exact isRead.kind_eq_module_iff member
  have oldDefines : old.kind ≠ .module := by
    intro same
    exact otherKind (same.trans ((isModule afterRead newSeen).2
      ((isModule beforeRead oldSeen).1 same)).symm)
  have newDefines : new.kind ≠ .module := by
    intro same
    exact oldDefines ((isModule beforeRead oldSeen).2 ((isModule afterRead newSeen).1 same))
  rw [block, if_neg otherKind, List.map_append,
    (types_findings_of_one_side newDefines key new.side).1,
    (types_findings_of_one_side oldDefines key old.side).2]
  rfl

/-- The events of a comparison, taken apart. -/
structure Decomposes (events : List Event) (before after : SourceUnit) : Prop where
  /-- The keys of both units increase. -/
  increasing : (jointKeys before after).Pairwise fun first second => first.text < second.text
  joint : ∀ key, key ∈ jointKeys before after ↔
    key ∈ before.nodes.map Node.key ∨ key ∈ after.nodes.map Node.key
  /-- The events are the findings of all blocks, each at its position. -/
  events_eq : events = ((jointKeys before after).flatMap fun key =>
      block key (before.sighting? key) (after.sighting? key)).mapIdx fun order finding =>
    finding.toEvent after.path after.revision order
  /-- A node that changed its kind was added, then removed. -/
  exchanged : ∀ (key : Key) (old new : Sighting), before.sighting? key = some old →
    after.sighting? key = some new → old.kind ≠ new.kind →
    (block key (some old) (some new)).map (·.draft.type) = [.nodeAdded, .nodeRemoved]
  /-- Every event comes from the one rule that has its name. -/
  traced : ∀ event ∈ events, ∃ rule ∈ rules, event.TracesTo rule before after ∧
    ∀ other ∈ rules, other.name = event.rule → other = rule
  /-- Two events of one type about one key are about different names. -/
  apart : events.Pairwise fun first second => first.key = second.key →
    first.type = second.type → first.type.isPerName = true ∧ first.details ≠ second.details

/-- A comparison of two units decomposes into blocks, one for every key. -/
theorem Engine.exists_decomposes (beforeRead : before.IsRead) (afterRead : after.IsRead) :
    ∃ events, default.diffUnits before after = .ok events ∧ Decomposes events before after := by
  refine ⟨_, diffUnits_default_eq beforeRead afterRead, pairwise_jointKeys before after,
    fun key => mem_jointKeys_iff, rfl, ?_, ?_, ?_⟩
  · intro key old new
    exact types_block_of_kind_ne beforeRead afterRead
  · intro event member
    rcases List.mem_mapIdx.1 member with ⟨order, inside, rfl⟩
    obtain ⟨rule, ruleMem, traces⟩ := exists_tracesTo_of_mem_blocks beforeRead afterRead
      (List.getElem_mem inside) after.path after.revision order
    refine ⟨rule, ruleMem, traces, ?_⟩
    intro other otherMem sameName
    exact Catalog.eq_of_name_eq otherMem ruleMem (sameName.trans traces.name)
  · apply List.pairwise_iff_getElem.2
    intro i j iLess jLess less
    simp only [List.length_mapIdx] at iLess jLess
    simp only [List.getElem_mapIdx]
    exact List.pairwise_iff_getElem.1 (pairwise_apart_blocks beforeRead afterRead) i j iLess jLess
      less

end

/-- A function that becomes a class. -/
theorem Engine.exists_decomposes_exchange :
    ∃ (before after : SourceUnit) (events : List Event),
      SourceUnit.read "m.py" "r1" "def f(): pass\n" = .ok before ∧
      SourceUnit.read "m.py" "r1" "class f: pass\n" = .ok after ∧
      default.diffUnits before after = .ok events ∧ Decomposes events before after ∧
      (blocks before after).map (·.draft.type) = [.nodeAdded, .nodeRemoved] := by
  have seen : ((SourceUnit.read "m.py" "r1" "def f(): pass\n").toOption.bind fun before =>
      (SourceUnit.read "m.py" "r1" "class f: pass\n").toOption.map fun after =>
        (blocks before after).map (·.draft.type)) = some [.nodeAdded, .nodeRemoved] := by
    decide +kernel
  obtain ⟨before, after, oldRead, newRead, types⟩ := exists_ok_of_bind_eq_some seen
  obtain ⟨events, made, decomposes⟩ := exists_decomposes (SourceUnit.isRead_of_read oldRead)
    (SourceUnit.isRead_of_read newRead)
  exact ⟨before, after, events, oldRead, newRead, made, decomposes, types⟩

end SemanticDiff
