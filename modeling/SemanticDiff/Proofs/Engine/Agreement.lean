import SemanticDiff.Proofs.Catalog.Fingerprint
import SemanticDiff.Proofs.Engine.Events

/-!
# Units that agree

Two units agree if they have the same functions and classes, and nodes of one key
have the same fingerprint.  Nothing is reported about two units exactly when they
agree.
-/

namespace SemanticDiff

open SemanticDiff.Catalog (Context contexts definitions fingerprint Partners)
open SemanticDiff.Feature (extract)
open SemanticDiff.Outline (Key Node NodeKind SourceUnit)

/-- The units have the same functions and classes, and nodes of one key have the
same fingerprint. -/
structure Agree (before after : SourceUnit) : Prop where
  inventory : before.inventory = after.inventory
  fingerprints : ∀ old ∈ before.nodes, ∀ new ∈ after.nodes, old.key = new.key →
    fingerprint old.kind (extract before old) = fingerprint new.kind (extract after new)

variable {before after first second third : SourceUnit}

theorem mem_definitions_iff {kind : NodeKind} : kind ∈ definitions ↔ kind ≠ .module := by
  cases kind <;> decide

/-- A definition that both units have is of one kind in them. -/
theorem kind_eq_of_inventory_eq (beforeRead : before.IsRead) (afterRead : after.IsRead)
    (same : before.inventory = after.inventory) {old new : Node} (oldMem : old ∈ before.nodes)
    (newMem : new ∈ after.nodes) (sameKey : old.key = new.key) : old.kind = new.kind := by
  by_cases top : old.kind = .module
  · have oldKey := (beforeRead.kind_eq_module_iff oldMem).1 top
    rw [top, (afterRead.kind_eq_module_iff newMem).2 (sameKey.symm.trans oldKey)]
  · have member := Outline.SourceUnit.mem_inventory_iff.2 ⟨top, old, oldMem, rfl, rfl⟩
    rw [same] at member
    obtain ⟨-, other, otherMem, otherKey, otherKind⟩ :=
      Outline.SourceUnit.mem_inventory_iff.1 member
    rw [← otherKind, afterRead.eq_of_key_eq otherMem newMem (otherKey.trans sameKey)]

/-- Every node has its counterpart in a unit with the same inventory. -/
theorem exists_key_eq_of_inventory_eq (beforeRead : before.IsRead) (afterRead : after.IsRead)
    (same : before.inventory = after.inventory) {old : Node} (oldMem : old ∈ before.nodes) :
    ∃ new ∈ after.nodes, Partners old new := by
  by_cases top : old.kind = .module
  · refine ⟨after.root, afterRead.root_mem_nodes, ?_, ?_⟩
    · rw [(beforeRead.kind_eq_module_iff oldMem).1 top, afterRead.key_root]
    · rw [top, afterRead.kind_root]
  · have member := Outline.SourceUnit.mem_inventory_iff.2 ⟨top, old, oldMem, rfl, rfl⟩
    rw [same] at member
    rcases Outline.SourceUnit.mem_inventory_iff.1 member with ⟨-, new, newMem, newKey, newKind⟩
    exact ⟨new, newMem, newKey.symm, newKind.symm⟩

theorem exists_reports_removed {old : Node} (kind : old.kind ≠ .module) :
    ∃ draft, (Context.removed before old).Reports draft :=
  ⟨_, Catalog.reports_removed_iff.2 ⟨mem_definitions_iff.2 kind, List.mem_singleton.2 rfl⟩⟩

theorem exists_reports_added {new : Node} (kind : new.kind ≠ .module) :
    ∃ draft, (Context.added after new).Reports draft :=
  ⟨_, Catalog.reports_added_iff.2 ⟨mem_definitions_iff.2 kind, List.mem_singleton.2 rfl⟩⟩

/-- Where nothing is reported no definition was added or removed. -/
theorem inventory_eq_of_silent (beforeRead : before.IsRead) (afterRead : after.IsRead)
    (silent : ∀ context ∈ contexts before after, ∀ draft, ¬ context.Reports draft) :
    before.inventory = after.inventory := by
  ext ⟨key, kind⟩
  rw [Outline.SourceUnit.mem_inventory_iff, Outline.SourceUnit.mem_inventory_iff]
  apply and_congr_right
  intro definition
  constructor
  · rintro ⟨old, oldMem, rfl, rfl⟩
    by_contra lost
    obtain ⟨draft, reports⟩ := @exists_reports_removed before old definition
    refine silent _ (Catalog.mem_contexts_of_removed beforeRead afterRead oldMem ?_) draft reports
    intro new newMem partners
    exact lost ⟨new, newMem, partners.1.symm, partners.2.symm⟩
  · rintro ⟨new, newMem, rfl, rfl⟩
    by_contra lost
    obtain ⟨draft, reports⟩ := @exists_reports_added after new definition
    refine silent _ (Catalog.mem_contexts_of_added beforeRead afterRead newMem ?_) draft reports
    intro old oldMem partners
    exact lost ⟨old, oldMem, partners.1, partners.2⟩

/-- Nothing is reported about two units exactly when they agree. -/
theorem not_reports_iff_agree (beforeRead : before.IsRead) (afterRead : after.IsRead) :
    (∀ context ∈ contexts before after, ∀ draft, ¬ context.Reports draft) ↔
      Agree before after := by
  constructor
  · intro silent
    have same := inventory_eq_of_silent beforeRead afterRead silent
    refine ⟨same, ?_⟩
    intro old oldMem new newMem sameKey
    have sameKind := kind_eq_of_inventory_eq beforeRead afterRead same oldMem newMem sameKey
    exact (Catalog.not_reports_changed_iff sameKind).1 (silent _
      (Catalog.mem_contexts_of_partners beforeRead afterRead oldMem newMem ⟨sameKey, sameKind⟩))
  · intro agree context member draft reports
    rcases (Catalog.mem_contexts_iff beforeRead afterRead).1 member with
      ⟨old, oldMem, new, newMem, partners, rfl⟩ | ⟨old, oldMem, alone, rfl⟩ |
      ⟨new, newMem, alone, rfl⟩
    · exact (Catalog.not_reports_changed_iff partners.2).2
        (agree.fingerprints old oldMem new newMem partners.1) draft reports
    · obtain ⟨new, newMem, partners⟩ :=
        exists_key_eq_of_inventory_eq beforeRead afterRead agree.inventory oldMem
      exact alone new newMem partners
    · obtain ⟨old, oldMem, partners⟩ :=
        exists_key_eq_of_inventory_eq afterRead beforeRead agree.inventory.symm newMem
      exact alone old oldMem ⟨partners.1.symm, partners.2.symm⟩

/-- The profile of a node is that of its counterpart in a unit which has it too. -/
theorem exists_partner_of_mem_profiles {old : Node}
    (member : (old.key, old.kind, Feature.measure before.tree old) ∈ after.profiles) :
    ∃ new ∈ after.nodes, Partners old new ∧
      Feature.measure before.tree old = Feature.measure after.tree new := by
  rcases List.mem_map.1 member with ⟨new, newMem, equal⟩
  simp only [Prod.mk.injEq] at equal
  exact ⟨new, newMem, ⟨equal.1.symm, equal.2.1.symm⟩, equal.2.2.symm⟩

/-- Nothing is reported about a key whose profiles are the same in both units. -/
theorem inside_of_reports {inside : Key → Prop} (beforeRead : before.IsRead)
    (afterRead : after.IsRead)
    (same : ∀ profile, ¬ inside profile.1 →
      (profile ∈ before.profiles ↔ profile ∈ after.profiles))
    {context : Context} (member : context ∈ contexts before after) {draft : Draft}
    (reports : context.Reports draft) : inside context.key := by
  have partner {old : Node} (oldMem : old ∈ before.nodes) (outside : ¬ inside old.key) :=
    exists_partner_of_mem_profiles ((same _ outside).1 (List.mem_map.2 ⟨old, oldMem, rfl⟩))
  by_contra outside
  rcases (Catalog.mem_contexts_iff beforeRead afterRead).1 member with
    ⟨old, oldMem, new, newMem, partners, rfl⟩ | ⟨old, oldMem, alone, rfl⟩ |
    ⟨new, newMem, alone, rfl⟩
  · have oldOutside : ¬ inside old.key := by
      rw [partners.1]
      exact outside
    obtain ⟨found, foundMem, found', sameMeasure⟩ := partner oldMem oldOutside
    obtain rfl := afterRead.eq_of_key_eq foundMem newMem (found'.1.symm.trans partners.1)
    refine (Catalog.not_reports_changed_iff partners.2).2 ?_ draft reports
    rw [partners.2, Feature.extract_eq, sameMeasure, ← Feature.extract_eq]
  · obtain ⟨found, foundMem, partners, -⟩ := partner oldMem outside
    exact alone found foundMem partners
  · obtain ⟨found, foundMem, partners, -⟩ := exists_partner_of_mem_profiles
      ((same _ outside).2 (List.mem_map.2 ⟨new, newMem, rfl⟩))
    exact alone found foundMem ⟨partners.1.symm, partners.2.symm⟩

namespace Agree

theorem refl (isRead : first.IsRead) : Agree first first := by
  refine ⟨rfl, ?_⟩
  intro old oldMem new newMem sameKey
  rw [isRead.eq_of_key_eq oldMem newMem sameKey]

theorem symm (agree : Agree first second) : Agree second first := by
  refine ⟨agree.inventory.symm, ?_⟩
  intro old oldMem new newMem sameKey
  exact (agree.fingerprints new newMem old oldMem sameKey.symm).symm

theorem trans (firstRead : first.IsRead) (secondRead : second.IsRead)
    (left : Agree first second) (right : Agree second third) : Agree first third := by
  refine ⟨left.inventory.trans right.inventory, ?_⟩
  intro old oldMem new newMem sameKey
  obtain ⟨middle, middleMem, partners⟩ :=
    exists_key_eq_of_inventory_eq firstRead secondRead left.inventory oldMem
  rw [left.fingerprints old oldMem middle middleMem partners.1]
  exact right.fingerprints middle middleMem new newMem (partners.1.symm.trans sameKey)

/-- Units with the same profiles agree. -/
theorem of_mem_profiles_iff (firstRead : first.IsRead) (secondRead : second.IsRead)
    (same : ∀ profile, profile ∈ first.profiles ↔ profile ∈ second.profiles) :
    Agree first second := by
  apply (not_reports_iff_agree firstRead secondRead).1
  intro context member draft reports
  exact @inside_of_reports first second (fun _ => False) firstRead secondRead
    (fun profile _ => same profile) context member draft reports

/-- Units whose trees have one form agree. -/
theorem of_form_eq (firstRead : first.IsRead) (secondRead : second.IsRead)
    (sameForm : first.tree.form = second.tree.form) : Agree first second := by
  apply of_mem_profiles_iff firstRead secondRead
  intro profile
  rw [Outline.SourceUnit.profiles_eq_of_form_eq firstRead secondRead sameForm]

end Agree

/-- Units that agree have no events between them, whatever the settings. -/
theorem Engine.diffUnits_eq_nil_of_agree (engine : Engine) (beforeRead : before.IsRead)
    (afterRead : after.IsRead) (agree : Agree before after) :
    engine.diffUnits before after = .ok [] :=
  engine.diffUnits_eq_nil beforeRead afterRead
    ((not_reports_iff_agree beforeRead afterRead).2 agree)

end SemanticDiff
