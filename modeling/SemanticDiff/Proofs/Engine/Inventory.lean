import Mathlib.Data.Finset.Basic
import SemanticDiff.Proofs.Engine.Agreement

/-!
# Following the definitions of a file

The events about added and removed nodes can be followed on a set of keys and
kinds.  Following the events between two units turns the inventory of the one
into that of the other: nothing is added that is there already, and nothing is
removed that is not there.
-/

namespace SemanticDiff

open SemanticDiff.Catalog (Context contexts Partners)
open SemanticDiff.Outline (Key Node NodeKind SourceUnit)

/-- The functions and classes that are known to exist. -/
abbrev Inventory := Finset (Key × NodeKind)

/-- The node that an event is about. -/
def Event.entry (event : Event) : Key × NodeKind :=
  (event.key, event.kind)

namespace Inventory

/-- Follow one event.  There is no result if a node is added that is there, or one
removed that is not. -/
def follow (inventory : Inventory) (event : Event) : Option Inventory :=
  match event.type with
  | .nodeAdded =>
      if event.entry ∈ inventory then none else some (insert event.entry inventory)
  | .nodeRemoved =>
      if event.entry ∈ inventory then some (inventory.erase event.entry) else none
  | _ => some inventory

/-- Follow events one after the other. -/
def replay (inventory : Inventory) (events : List Event) : Option Inventory :=
  events.foldlM follow inventory

theorem replay_append (inventory : Inventory) (first second : List Event) :
    inventory.replay (first ++ second) =
      (inventory.replay first).bind fun middle => middle.replay second := by
  rw [replay, List.foldlM_append]
  rfl

/-- Some event of a type is about a node. -/
def Mentions (type : EventType) (events : List Event) (entry : Key × NodeKind) : Prop :=
  ∃ event ∈ events, event.type = type ∧ event.entry = entry

theorem mentions_cons_iff {type : EventType} {event : Event} {rest : List Event}
    {entry : Key × NodeKind} :
    Mentions type (event :: rest) entry ↔
      event.type = type ∧ event.entry = entry ∨ Mentions type rest entry := by
  simp [Mentions]

/-- The events make one inventory of another: they add what is new and remove what
is gone, each once. -/
structure Bridges (events : List Event) (earlier later : Inventory) : Prop where
  added : ∀ entry, Mentions .nodeAdded events entry ↔ entry ∈ later ∧ entry ∉ earlier
  removed : ∀ entry, Mentions .nodeRemoved events entry ↔ entry ∈ earlier ∧ entry ∉ later
  once : events.Pairwise fun first second =>
    first.type = .nodeAdded ∨ first.type = .nodeRemoved → first.type = second.type →
      first.entry ≠ second.entry

namespace Bridges

variable {earlier later : Inventory} {event : Event} {rest : List Event}

theorem not_mentions (bridges : Bridges (event :: rest) earlier later)
    (tells : event.type = .nodeAdded ∨ event.type = .nodeRemoved) :
    ¬ Mentions event.type rest event.entry := by
  rintro ⟨other, otherMem, sameType, sameEntry⟩
  exact (List.pairwise_cons.1 bridges.once).1 other otherMem tells sameType.symm sameEntry.symm

/-- After an addition the other events bridge from the larger inventory. -/
theorem of_addition (bridges : Bridges (event :: rest) earlier later)
    (addition : event.type = .nodeAdded) :
    event.entry ∉ earlier ∧ Bridges rest (insert event.entry earlier) later := by
  have alone := bridges.not_mentions (Or.inl addition)
  rw [addition] at alone
  have added := bridges.added
  have removed := bridges.removed
  simp only [mentions_cons_iff, addition, true_and, reduceCtorEq, false_and, false_or]
    at added removed
  rcases (added event.entry).1 (Or.inl rfl) with ⟨isLater, isNew⟩
  refine ⟨isNew, ?_, ?_, (List.pairwise_cons.1 bridges.once).2⟩
  · intro entry
    rw [Finset.mem_insert, not_or, and_left_comm, ← added entry]
    constructor
    · intro mentioned
      refine ⟨?_, Or.inr mentioned⟩
      rintro rfl
      exact alone mentioned
    · rintro ⟨different, same | mentioned⟩
      · exact absurd same.symm different
      · exact mentioned
  · intro entry
    rw [removed entry, Finset.mem_insert]
    constructor
    · rintro ⟨isEarlier, gone⟩
      exact ⟨Or.inr isEarlier, gone⟩
    · rintro ⟨rfl | isEarlier, gone⟩
      · exact absurd isLater gone
      · exact ⟨isEarlier, gone⟩

/-- After a removal the other events bridge from the smaller inventory. -/
theorem of_removal (bridges : Bridges (event :: rest) earlier later)
    (removal : event.type = .nodeRemoved) :
    event.entry ∈ earlier ∧ Bridges rest (earlier.erase event.entry) later := by
  have alone := bridges.not_mentions (Or.inr removal)
  rw [removal] at alone
  have added := bridges.added
  have removed := bridges.removed
  simp only [mentions_cons_iff, removal, true_and, reduceCtorEq, false_and, false_or]
    at added removed
  rcases (removed event.entry).1 (Or.inl rfl) with ⟨isEarlier, isGone⟩
  refine ⟨isEarlier, ?_, ?_, (List.pairwise_cons.1 bridges.once).2⟩
  · intro entry
    rw [added entry, Finset.mem_erase]
    constructor
    · rintro ⟨isLater, isNew⟩
      exact ⟨isLater, fun kept => isNew kept.2⟩
    · rintro ⟨isLater, notKept⟩
      refine ⟨isLater, fun kept => notKept ⟨?_, kept⟩⟩
      rintro rfl
      exact isGone isLater
  · intro entry
    rw [Finset.mem_erase, and_assoc, ← removed entry]
    constructor
    · intro mentioned
      refine ⟨?_, Or.inr mentioned⟩
      rintro rfl
      exact alone mentioned
    · rintro ⟨different, same | mentioned⟩
      · exact absurd same.symm different
      · exact mentioned

/-- Other events change nothing. -/
theorem of_other (bridges : Bridges (event :: rest) earlier later)
    (noAddition : event.type ≠ .nodeAdded) (noRemoval : event.type ≠ .nodeRemoved) :
    Bridges rest earlier later := by
  have added := bridges.added
  have removed := bridges.removed
  simp only [mentions_cons_iff, noAddition, noRemoval, false_and, false_or] at added removed
  exact ⟨added, removed, (List.pairwise_cons.1 bridges.once).2⟩

theorem eq_of_nil (bridges : Bridges [] earlier later) : earlier = later := by
  have none (type : EventType) (entry : Key × NodeKind) : ¬ Mentions type [] entry := by
    simp [Mentions]
  ext entry
  constructor
  · intro isEarlier
    by_contra gone
    exact none _ entry ((bridges.removed entry).2 ⟨isEarlier, gone⟩)
  · intro isLater
    by_contra new
    exact none _ entry ((bridges.added entry).2 ⟨isLater, new⟩)

end Bridges

/-- Events that bridge two inventories can be followed from one to the other. -/
theorem replay_of_bridges {earlier later : Inventory} {events : List Event}
    (bridges : Bridges events earlier later) : earlier.replay events = some later := by
  induction events generalizing earlier with
  | nil =>
      rw [bridges.eq_of_nil]
      rfl
  | cons event rest ih =>
      rw [replay, List.foldlM_cons, follow]
      split
      · rename_i addition
        obtain ⟨isNew, others⟩ := bridges.of_addition addition
        rw [if_neg isNew]
        exact ih others
      · rename_i removal
        obtain ⟨isEarlier, others⟩ := bridges.of_removal removal
        rw [if_pos isEarlier]
        exact ih others
      · rename_i noAddition noRemoval
        exact ih (bridges.of_other noAddition noRemoval)

end Inventory

/-! ## Events of two units -/

namespace Tells

variable {before after : SourceUnit} {events : List Event}

/-- A node is mentioned exactly when something is reported about its context. -/
theorem mentions_iff {contexts : List Context} (tells : Tells events contexts) {type : EventType}
    {entry : Key × NodeKind} :
    Inventory.Mentions type events entry ↔
      ∃ context ∈ contexts, (context.key, context.kind) = entry ∧
        ∃ draft, context.Reports draft ∧ draft.type = type := by
  constructor
  · rintro ⟨event, member, rfl, rfl⟩
    obtain ⟨context, contextMem, key, kind, reports⟩ := tells.sound event member
    exact ⟨context, contextMem, by rw [Event.entry, key, kind], event.draft, reports, rfl⟩
  · rintro ⟨context, contextMem, rfl, draft, reports, rfl⟩
    obtain ⟨event, member, key, kind, rfl⟩ := tells.complete context contextMem draft reports
    exact ⟨event, member, rfl, by rw [Event.entry, key, kind]⟩

/-- Nodes are told of once if their contexts report at most one addition or
removal. -/
theorem pairwise_entry_ne {contexts : List Context} (tells : Tells events contexts)
    (single : ∀ first ∈ contexts, ∀ second ∈ contexts, first.key = second.key →
      ∀ draft other, first.Reports draft → second.Reports other →
        draft.type = .nodeAdded ∨ draft.type = .nodeRemoved → draft.type = other.type →
          draft = other) :
    events.Pairwise fun first second =>
      first.type = .nodeAdded ∨ first.type = .nodeRemoved → first.type = second.type →
        first.entry ≠ second.entry := by
  apply (List.pairwise_map.1 tells.distinct).imp_of_mem
  intro first second firstMem secondMem different tellsNode sameType sameEntry
  obtain ⟨context, contextMem, key, -, reports⟩ := tells.sound first firstMem
  obtain ⟨other, otherMem, otherKey, -, otherReports⟩ := tells.sound second secondMem
  have sameKey := congrArg Prod.fst sameEntry
  have sameDraft := single context contextMem other otherMem
    (key.symm.trans (sameKey.trans otherKey)) first.draft second.draft reports otherReports
    tellsNode sameType
  exact different (Prod.ext sameKey sameDraft)

end Tells

section

variable {before after : SourceUnit} {context : Context} {draft other : Draft} {old new : Node}

/-- An addition is reported about a node without a partner. -/
theorem exists_added_of_reports (beforeRead : before.IsRead) (afterRead : after.IsRead)
    (member : context ∈ contexts before after) (reports : context.Reports draft)
    (addition : draft.type = .nodeAdded) :
    ∃ new ∈ after.nodes, (∀ old ∈ before.nodes, ¬ Partners old new) ∧
      context = .added after new := by
  rcases (Catalog.mem_contexts_iff beforeRead afterRead).1 member with
    ⟨old, -, new, -, -, rfl⟩ | ⟨old, -, -, rfl⟩ | ⟨new, newMem, alone, rfl⟩
  · exact absurd addition (Catalog.type_ne_of_reports_changed reports).1
  · cases addition.symm.trans (Catalog.type_of_reports_removed reports)
  · exact ⟨new, newMem, alone, rfl⟩

/-- A removal is reported about a node without a partner. -/
theorem exists_removed_of_reports (beforeRead : before.IsRead) (afterRead : after.IsRead)
    (member : context ∈ contexts before after) (reports : context.Reports draft)
    (removal : draft.type = .nodeRemoved) :
    ∃ old ∈ before.nodes, (∀ new ∈ after.nodes, ¬ Partners old new) ∧
      context = .removed before old := by
  rcases (Catalog.mem_contexts_iff beforeRead afterRead).1 member with
    ⟨old, -, new, -, -, rfl⟩ | ⟨old, oldMem, alone, rfl⟩ | ⟨new, -, -, rfl⟩
  · exact absurd removal (Catalog.type_ne_of_reports_changed reports).2
  · exact ⟨old, oldMem, alone, rfl⟩
  · cases removal.symm.trans (Catalog.type_of_reports_added reports)

theorem eq_of_reports_added (reports : (Context.added after new).Reports draft)
    (otherReports : (Context.added after new).Reports other) : draft = other := by
  have first := (Catalog.reports_added_iff.1 reports).2
  have second := (Catalog.reports_added_iff.1 otherReports).2
  exact (List.mem_singleton.1 first).trans (List.mem_singleton.1 second).symm

theorem eq_of_reports_removed (reports : (Context.removed before old).Reports draft)
    (otherReports : (Context.removed before old).Reports other) : draft = other := by
  have first := (Catalog.reports_removed_iff.1 reports).2
  have second := (Catalog.reports_removed_iff.1 otherReports).2
  exact (List.mem_singleton.1 first).trans (List.mem_singleton.1 second).symm

end

namespace Tells

variable {before after : SourceUnit} {events : List Event}

/-- An addition is told of exactly the definitions that only the second unit has. -/
theorem mentions_added_iff (tells : Tells events (contexts before after))
    (beforeRead : before.IsRead) (afterRead : after.IsRead) (entry : Key × NodeKind) :
    Inventory.Mentions .nodeAdded events entry ↔
      entry ∈ after.inventory ∧ entry ∉ before.inventory := by
  rcases entry with ⟨key, kind⟩
  rw [tells.mentions_iff, SourceUnit.mem_inventory_iff, SourceUnit.mem_inventory_iff]
  constructor
  · rintro ⟨context, member, same, draft, reports, addition⟩
    obtain ⟨new, newMem, alone, rfl⟩ :=
      exists_added_of_reports beforeRead afterRead member reports addition
    obtain ⟨rfl, rfl⟩ := Prod.mk.inj same
    have definition := mem_definitions_iff.1 (Catalog.reports_added_iff.1 reports).1
    refine ⟨⟨definition, new, newMem, rfl, rfl⟩, ?_⟩
    rintro ⟨-, old, oldMem, sameKey, sameKind⟩
    exact alone old oldMem ⟨sameKey, sameKind⟩
  · rintro ⟨⟨definition, new, newMem, rfl, rfl⟩, isNew⟩
    obtain ⟨draft, reports⟩ := @exists_reports_added after new definition
    refine ⟨_, Catalog.mem_contexts_of_added beforeRead afterRead newMem ?_, rfl, draft, reports,
      Catalog.type_of_reports_added reports⟩
    intro old oldMem partners
    exact isNew ⟨definition, old, oldMem, partners.1, partners.2⟩

/-- A removal is told of exactly the definitions that only the first unit has. -/
theorem mentions_removed_iff (tells : Tells events (contexts before after))
    (beforeRead : before.IsRead) (afterRead : after.IsRead) (entry : Key × NodeKind) :
    Inventory.Mentions .nodeRemoved events entry ↔
      entry ∈ before.inventory ∧ entry ∉ after.inventory := by
  rcases entry with ⟨key, kind⟩
  rw [tells.mentions_iff, SourceUnit.mem_inventory_iff, SourceUnit.mem_inventory_iff]
  constructor
  · rintro ⟨context, member, same, draft, reports, removal⟩
    obtain ⟨old, oldMem, alone, rfl⟩ :=
      exists_removed_of_reports beforeRead afterRead member reports removal
    obtain ⟨rfl, rfl⟩ := Prod.mk.inj same
    have definition := mem_definitions_iff.1 (Catalog.reports_removed_iff.1 reports).1
    refine ⟨⟨definition, old, oldMem, rfl, rfl⟩, ?_⟩
    rintro ⟨-, new, newMem, sameKey, sameKind⟩
    exact alone new newMem ⟨sameKey.symm, sameKind.symm⟩
  · rintro ⟨⟨definition, old, oldMem, rfl, rfl⟩, isGone⟩
    obtain ⟨draft, reports⟩ := @exists_reports_removed before old definition
    refine ⟨_, Catalog.mem_contexts_of_removed beforeRead afterRead oldMem ?_, rfl, draft,
      reports, Catalog.type_of_reports_removed reports⟩
    intro new newMem partners
    exact isGone ⟨definition, new, newMem, partners.1.symm, partners.2.symm⟩

/-- The events between two units turn the inventory of the first into that of the
second. -/
theorem bridges (tells : Tells events (contexts before after)) (beforeRead : before.IsRead)
    (afterRead : after.IsRead) :
    Inventory.Bridges events before.inventory after.inventory := by
  constructor
  · exact tells.mentions_added_iff beforeRead afterRead
  · exact tells.mentions_removed_iff beforeRead afterRead
  -- Nodes of one unit with one key are one node, which is told of once.
  · apply tells.pairwise_entry_ne
    intro first firstMem second secondMem sameKey draft other reports otherReports tellsNode sameType
    rcases tellsNode with addition | removal
    · obtain ⟨new, newMem, -, rfl⟩ :=
        exists_added_of_reports beforeRead afterRead firstMem reports addition
      obtain ⟨new', newMem', -, rfl⟩ := exists_added_of_reports beforeRead afterRead secondMem
        otherReports (sameType.symm.trans addition)
      rw [afterRead.eq_of_key_eq newMem newMem' sameKey] at reports
      exact eq_of_reports_added reports otherReports
    · obtain ⟨old, oldMem, -, rfl⟩ :=
        exists_removed_of_reports beforeRead afterRead firstMem reports removal
      obtain ⟨old', oldMem', -, rfl⟩ := exists_removed_of_reports beforeRead afterRead secondMem
        otherReports (sameType.symm.trans removal)
      rw [beforeRead.eq_of_key_eq oldMem oldMem' sameKey] at reports
      exact eq_of_reports_removed reports otherReports

end Tells

/-! ## Events of a new file -/

theorem mem_addedContexts_iff {after : SourceUnit} {context : Context} :
    context ∈ Engine.addedContexts after ↔ ∃ new ∈ after.nodes, context = .added after new := by
  rw [Engine.addedContexts, List.mem_map]
  constructor
  · rintro ⟨new, newMem, rfl⟩
    exact ⟨new, newMem, rfl⟩
  · rintro ⟨new, newMem, rfl⟩
    exact ⟨new, newMem, rfl⟩

/-- The events of a new file make its inventory out of nothing. -/
theorem Tells.bridges_empty {after : SourceUnit} {events : List Event}
    (tells : Tells events (Engine.addedContexts after)) (afterRead : after.IsRead) :
    Inventory.Bridges events ∅ after.inventory := by
  constructor
  · rintro ⟨key, kind⟩
    rw [tells.mentions_iff, SourceUnit.mem_inventory_iff]
    constructor
    · rintro ⟨context, member, same, draft, reports, addition⟩
      rcases mem_addedContexts_iff.1 member with ⟨new, newMem, rfl⟩
      obtain ⟨rfl, rfl⟩ := Prod.mk.inj same
      have definition := mem_definitions_iff.1 (Catalog.reports_added_iff.1 reports).1
      exact ⟨⟨definition, new, newMem, rfl, rfl⟩, Finset.notMem_empty _⟩
    · rintro ⟨⟨definition, new, newMem, rfl, rfl⟩, -⟩
      obtain ⟨draft, reports⟩ := @exists_reports_added after new definition
      exact ⟨_, mem_addedContexts_iff.2 ⟨new, newMem, rfl⟩, rfl, draft, reports,
        Catalog.type_of_reports_added reports⟩
  · rintro entry
    rw [tells.mentions_iff]
    constructor
    · rintro ⟨context, member, -, draft, reports, removal⟩
      rcases mem_addedContexts_iff.1 member with ⟨new, newMem, rfl⟩
      cases removal.symm.trans (Catalog.type_of_reports_added reports)
    · rintro ⟨isEarlier, -⟩
      exact absurd isEarlier (Finset.notMem_empty _)
  · apply tells.pairwise_entry_ne
    intro first firstMem second secondMem sameKey draft other reports otherReports _ _
    rcases mem_addedContexts_iff.1 firstMem with ⟨new, newMem, rfl⟩
    rcases mem_addedContexts_iff.1 secondMem with ⟨new', newMem', rfl⟩
    rw [afterRead.eq_of_key_eq newMem newMem' sameKey] at reports
    exact eq_of_reports_added reports otherReports

end SemanticDiff
