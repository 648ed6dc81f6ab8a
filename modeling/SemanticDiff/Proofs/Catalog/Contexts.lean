import SemanticDiff.Catalog.Context
import SemanticDiff.Proofs.Feature.Snapshot
import SemanticDiff.Proofs.Outline.Join

/-!
# Contexts as a join

The contexts of two units are the join of their nodes by key and kind: a node
that has a partner of its key and kind is compared with it, a node that has none
was removed or added.
-/

namespace SemanticDiff.Catalog

open SemanticDiff.Feature (Snapshot)
open SemanticDiff.Outline (Key Node NodeKind SourceUnit Pair matchUnits
  matched_mem_matchUnits_iff removed_mem_matchUnits_iff added_mem_matchUnits_iff)

namespace Context

/-- A node that exists on both sides. -/
def changed (before after : SourceUnit) (old new : Node) : Context where
  key := new.key
  kind := new.kind
  before := some (.ofNode before old)
  after := some (.ofNode after new)

/-- A node that exists no more. -/
def removed (before : SourceUnit) (old : Node) : Context where
  key := old.key
  kind := old.kind
  before := some (.ofNode before old)
  after := none

/-- A node that did not exist before. -/
def added (after : SourceUnit) (new : Node) : Context where
  key := new.key
  kind := new.kind
  before := none
  after := some (.ofNode after new)

end Context

variable {before after : SourceUnit} {context : Context}

/-- Two nodes are the same definition. -/
def Partners (old new : Node) : Prop :=
  old.key = new.key ∧ old.kind = new.kind

theorem mem_contexts_of_partners (beforeRead : before.IsRead) (afterRead : after.IsRead)
    {old new : Node} (oldMem : old ∈ before.nodes) (newMem : new ∈ after.nodes)
    (partners : Partners old new) : .changed before after old new ∈ contexts before after := by
  refine List.mem_flatMap.2 ⟨.matched new.key old new,
    (matched_mem_matchUnits_iff beforeRead afterRead).2
      ⟨⟨oldMem, partners.1⟩, newMem, rfl⟩, ?_⟩
  rw [Context.ofPair, if_pos partners.2]
  exact List.mem_singleton.2 rfl

theorem mem_contexts_of_removed (beforeRead : before.IsRead) (afterRead : after.IsRead)
    {old : Node} (oldMem : old ∈ before.nodes) (alone : ∀ new ∈ after.nodes, ¬ Partners old new) :
    .removed before old ∈ contexts before after := by
  by_cases kept : ∃ new ∈ after.nodes, new.key = old.key
  · rcases kept with ⟨new, newMem, sameKey⟩
    have otherKind : old.kind ≠ new.kind := fun same => alone new newMem ⟨sameKey.symm, same⟩
    refine List.mem_flatMap.2 ⟨.matched old.key old new,
      (matched_mem_matchUnits_iff beforeRead afterRead).2 ⟨⟨oldMem, rfl⟩, newMem, sameKey⟩, ?_⟩
    rw [Context.ofPair, if_neg otherKind]
    exact List.mem_cons_self
  · refine List.mem_flatMap.2 ⟨.removed old.key old,
      (removed_mem_matchUnits_iff beforeRead afterRead).2 ⟨⟨oldMem, rfl⟩, ?_⟩, ?_⟩
    · intro new newMem same
      exact kept ⟨new, newMem, same⟩
    · exact List.mem_singleton.2 rfl

theorem mem_contexts_of_added (beforeRead : before.IsRead) (afterRead : after.IsRead)
    {new : Node} (newMem : new ∈ after.nodes) (alone : ∀ old ∈ before.nodes, ¬ Partners old new) :
    .added after new ∈ contexts before after := by
  by_cases kept : ∃ old ∈ before.nodes, old.key = new.key
  · rcases kept with ⟨old, oldMem, sameKey⟩
    have otherKind : old.kind ≠ new.kind := fun same => alone old oldMem ⟨sameKey, same⟩
    refine List.mem_flatMap.2 ⟨.matched new.key old new,
      (matched_mem_matchUnits_iff beforeRead afterRead).2 ⟨⟨oldMem, sameKey⟩, newMem, rfl⟩, ?_⟩
    rw [Context.ofPair, if_neg otherKind]
    exact List.mem_cons_of_mem _ (List.mem_singleton.2 rfl)
  · refine List.mem_flatMap.2 ⟨.added new.key new,
      (added_mem_matchUnits_iff beforeRead afterRead).2 ⟨⟨newMem, rfl⟩, ?_⟩, ?_⟩
    · intro old oldMem same
      exact kept ⟨old, oldMem, same⟩
    · exact List.mem_singleton.2 rfl

/-- Nodes of one key but of different kinds have no partners at all. -/
theorem not_partners_of_kind_ne {unit : SourceUnit} (isRead : unit.IsRead) {node other : Node}
    (otherMem : other ∈ unit.nodes) (sameKey : other.key = node.key)
    (otherKind : other.kind ≠ node.kind) :
    ∀ third ∈ unit.nodes, ¬ (third.key = node.key ∧ third.kind = node.kind) := by
  rintro third thirdMem ⟨thirdKey, thirdKind⟩
  have same := isRead.eq_of_key_eq thirdMem otherMem (thirdKey.trans sameKey.symm)
  rw [same] at thirdKind
  exact otherKind thirdKind

/-- A context of two units compares partners, or tells of a node without one. -/
theorem mem_contexts_iff (beforeRead : before.IsRead) (afterRead : after.IsRead) :
    context ∈ contexts before after ↔
      (∃ old ∈ before.nodes, ∃ new ∈ after.nodes, Partners old new ∧
        context = .changed before after old new) ∨
      (∃ old ∈ before.nodes, (∀ new ∈ after.nodes, ¬ Partners old new) ∧
        context = .removed before old) ∨
      ∃ new ∈ after.nodes, (∀ old ∈ before.nodes, ¬ Partners old new) ∧
        context = .added after new := by
  constructor
  · intro member
    rcases List.mem_flatMap.1 member with ⟨pair, pairMem, here⟩
    cases pair with
    | matched key old new =>
        obtain ⟨⟨oldMem, oldKey⟩, newMem, newKey⟩ :=
          (matched_mem_matchUnits_iff beforeRead afterRead).1 pairMem
        subst key
        rw [Context.ofPair] at here
        split at here
        · rename_i sameKind
          left
          refine ⟨old, oldMem, new, newMem, ⟨newKey.symm, sameKind⟩, ?_⟩
          rw [List.mem_singleton.1 here, Context.changed, newKey]
        · rename_i otherKind
          right
          rcases List.mem_cons.1 here with rfl | here
          · left
            refine ⟨old, oldMem, ?_, rfl⟩
            intro third thirdMem partners
            exact not_partners_of_kind_ne afterRead newMem newKey (Ne.symm otherKind) third
              thirdMem ⟨partners.1.symm, partners.2.symm⟩
          · right
            refine ⟨new, newMem, not_partners_of_kind_ne beforeRead oldMem newKey.symm otherKind, ?_⟩
            rw [List.mem_singleton.1 here, Context.added, newKey]
    | removed key old =>
        obtain ⟨⟨oldMem, rfl⟩, alone⟩ :=
          (removed_mem_matchUnits_iff beforeRead afterRead).1 pairMem
        right
        left
        exact ⟨old, oldMem, fun new newMem partners => alone new newMem partners.1.symm,
          List.mem_singleton.1 here⟩
    | added key new =>
        obtain ⟨⟨newMem, rfl⟩, alone⟩ :=
          (added_mem_matchUnits_iff beforeRead afterRead).1 pairMem
        right
        right
        exact ⟨new, newMem, fun old oldMem partners => alone old oldMem partners.1,
          List.mem_singleton.1 here⟩
  · rintro (⟨old, oldMem, new, newMem, partners, rfl⟩ | ⟨old, oldMem, alone, rfl⟩ |
      ⟨new, newMem, alone, rfl⟩)
    · exact mem_contexts_of_partners beforeRead afterRead oldMem newMem partners
    · exact mem_contexts_of_removed beforeRead afterRead oldMem alone
    · exact mem_contexts_of_added beforeRead afterRead newMem alone

/-! ## Held features -/

@[simp]
theorem Side.features_ofNode (unit : SourceUnit) (node : Node) :
    (Side.ofNode unit node).features = Feature.extract unit node := by
  rw [Side.ofNode]

namespace Context

theorem snapshots?_changed (before after : SourceUnit) (old new : Node) :
    (changed before after old new).snapshots? =
      some (Feature.extract before old, Feature.extract after new) := by
  simp only [snapshots?, changed, Side.features_ofNode]

/-- A feature can be read on every side that exists. -/
def Holds (context : Context) (feature : Feature) : Prop :=
  ∀ side : Side, context.before = some side ∨ context.after = some side →
    side.features.Holds feature

theorem Holds.of_snapshots? {feature : Feature} (holds : context.Holds feature)
    {old new : Snapshot} (sides : context.snapshots? = some (old, new)) :
    old.Holds feature ∧ new.Holds feature := by
  unfold snapshots? at sides
  split at sides
  · rename_i oldSide newSide foundBefore foundAfter
    obtain ⟨rfl, rfl⟩ := Prod.mk.inj (Option.some.inj sides)
    exact ⟨holds oldSide (Or.inl foundBefore), holds newSide (Or.inr foundAfter)⟩
  · cases sides

theorem holds_added (new : Node) (feature : Feature) : (added after new).Holds feature := by
  rintro side (found | found)
  · cases found
  · rw [← Option.some.inj found, Side.features_ofNode]
    exact Feature.holds_extract after new feature

theorem holds_removed (old : Node) (feature : Feature) : (removed before old).Holds feature := by
  rintro side (found | found)
  · rw [← Option.some.inj found, Side.features_ofNode]
    exact Feature.holds_extract before old feature
  · cases found

theorem holds_changed (old new : Node) (feature : Feature) :
    (changed before after old new).Holds feature := by
  rintro side (found | found)
  · rw [← Option.some.inj found, Side.features_ofNode]
    exact Feature.holds_extract before old feature
  · rw [← Option.some.inj found, Side.features_ofNode]
    exact Feature.holds_extract after new feature

end Context

/-- In the contexts of two units every feature can be read. -/
theorem holds_of_mem_contexts (beforeRead : before.IsRead) (afterRead : after.IsRead)
    (member : context ∈ contexts before after) (feature : Feature) : context.Holds feature := by
  rcases (mem_contexts_iff beforeRead afterRead).1 member with
    ⟨old, -, new, -, -, rfl⟩ | ⟨old, -, -, rfl⟩ | ⟨new, -, -, rfl⟩
  · exact Context.holds_changed old new feature
  · exact Context.holds_removed old feature
  · exact Context.holds_added new feature

end SemanticDiff.Catalog
