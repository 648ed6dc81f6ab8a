import SemanticDiff.Proofs.Engine.Inventory

/-!
# Histories of a file

A history is a run of texts of one file, each compared with the one before it.
Following its events from nothing leads through the inventories of all texts, and
every event tells of nodes as they are in the two texts that it comes from.
-/

namespace SemanticDiff

open SemanticDiff.Catalog (Context contexts)
open SemanticDiff.Outline (Key Node NodeKind SourceUnit)

/-! ## Single steps -/

/-- The details tell what a node is and where it stands. -/
structure Details.Places (details : Details) (node : Node) : Prop where
  kind : details.get? "kind" = some (.text node.kind.name)
  startLine : details.get? "start_line" = some (.int node.span.startLine)
  endLine : details.get? "end_line" = some (.int node.span.endLine)

/-- The event tells of nodes as they are before and after it.  Events other than
additions and removals are about a node that is there on both sides. -/
def Event.IsFaithful (event : Event) (before : Option SourceUnit) (after : SourceUnit) : Prop :=
  match event.type with
  | .nodeAdded =>
      ∃ new ∈ after.nodes, (new.key, new.kind) = event.entry ∧ Details.Places event.details new
  | .nodeRemoved =>
      ∃ unit ∈ before, ∃ old ∈ unit.nodes,
        (old.key, old.kind) = event.entry ∧ Details.Places event.details old
  | _ =>
      ∃ unit ∈ before, ∃ old ∈ unit.nodes, ∃ new ∈ after.nodes,
        (old.key, old.kind) = event.entry ∧ (new.key, new.kind) = event.entry

theorem places_of_mem_placeDrafts {type : EventType} {context : Context} {unit : SourceUnit}
    {node : Node} {draft : Draft} (sameKind : context.kind = node.kind)
    (member : draft ∈ Catalog.Classifier.placeDrafts type context (some (.ofNode unit node))) :
    Details.Places draft.details node := by
  rw [Catalog.Classifier.placeDrafts, List.mem_singleton, sameKind, Catalog.Side.ofNode] at member
  rw [member]
  constructor <;> simp [Draft.withDetail]

theorem isFaithful_of_reports_added {event : Event} {before : Option SourceUnit}
    {after : SourceUnit} {new : Node} (newMem : new ∈ after.nodes)
    (entry : (new.key, new.kind) = event.entry)
    (reports : (Context.added after new).Reports event.draft) :
    event.IsFaithful before after := by
  have addition : event.type = .nodeAdded := Catalog.type_of_reports_added reports
  rw [Event.IsFaithful, addition]
  exact ⟨new, newMem, entry, places_of_mem_placeDrafts rfl (Catalog.reports_added_iff.1 reports).2⟩

theorem isFaithful_of_reports_removed {event : Event} {before after : SourceUnit} {old : Node}
    (oldMem : old ∈ before.nodes) (entry : (old.key, old.kind) = event.entry)
    (reports : (Context.removed before old).Reports event.draft) :
    event.IsFaithful (some before) after := by
  have removal : event.type = .nodeRemoved := Catalog.type_of_reports_removed reports
  rw [Event.IsFaithful, removal]
  exact ⟨before, rfl, old, oldMem, entry,
    places_of_mem_placeDrafts rfl (Catalog.reports_removed_iff.1 reports).2⟩

theorem isFaithful_of_reports_changed {event : Event} {before after : SourceUnit} {old new : Node}
    (oldMem : old ∈ before.nodes) (newMem : new ∈ after.nodes)
    (partners : Catalog.Partners old new) (entry : (new.key, new.kind) = event.entry)
    (reports : (Context.changed before after old new).Reports event.draft) :
    event.IsFaithful (some before) after := by
  obtain ⟨noAddition, noRemoval⟩ := Catalog.type_ne_of_reports_changed reports
  unfold Event.IsFaithful
  split
  · rename_i addition
    exact absurd addition noAddition
  · rename_i removal
    exact absurd removal noRemoval
  · refine ⟨before, rfl, old, oldMem, new, newMem, ?_, entry⟩
    rw [partners.1, partners.2, entry]

/-- The events between two units are faithful. -/
theorem Tells.isFaithful {before after : SourceUnit} {events : List Event}
    (tells : Tells events (contexts before after)) (beforeRead : before.IsRead)
    (afterRead : after.IsRead) {event : Event} (member : event ∈ events) :
    event.IsFaithful (some before) after := by
  obtain ⟨context, contextMem, key, kind, reports⟩ := tells.sound event member
  have entry : (context.key, context.kind) = event.entry := by rw [Event.entry, key, kind]
  rcases (Catalog.mem_contexts_iff beforeRead afterRead).1 contextMem with
    ⟨old, oldMem, new, newMem, partners, rfl⟩ | ⟨old, oldMem, -, rfl⟩ | ⟨new, newMem, -, rfl⟩
  · exact isFaithful_of_reports_changed oldMem newMem partners entry reports
  · exact isFaithful_of_reports_removed oldMem entry reports
  · exact isFaithful_of_reports_added newMem entry reports

/-- The events of a new file are faithful. -/
theorem Tells.isFaithful_added {after : SourceUnit} {events : List Event}
    (tells : Tells events (Engine.addedContexts after)) {event : Event} (member : event ∈ events) :
    event.IsFaithful none after := by
  obtain ⟨context, contextMem, key, kind, reports⟩ := tells.sound event member
  rcases mem_addedContexts_iff.1 contextMem with ⟨new, newMem, rfl⟩
  exact isFaithful_of_reports_added newMem (by rw [Event.entry, key, kind]; rfl) reports

namespace Engine

theorem exists_addedUnit {after : SourceUnit} (afterRead : after.IsRead) :
    ∃ events, default.addedUnit after = .ok events ∧ Tells events (addedContexts after) := by
  obtain ⟨findings, made, tells⟩ := @exists_tells_assemble (addedContexts after)
    (by
      intro context member feature
      rcases mem_addedContexts_iff.1 member with ⟨new, -, rfl⟩
      exact Context.holds_added new feature)
    (by
      intro first firstMem second secondMem sameKey draft _ _
      rcases mem_addedContexts_iff.1 firstMem with ⟨new, newMem, rfl⟩
      rcases mem_addedContexts_iff.1 secondMem with ⟨new', newMem', rfl⟩
      exact congrArg Node.kind (afterRead.eq_of_key_eq newMem newMem' sameKey))
  refine ⟨_, ?_, tells after.path after.revision⟩
  rw [addedUnit, made, ← finish_default]
  rfl

end Engine

/-! ## Runs -/

/-- The definitions of a file that may be missing. -/
def inventoryOf (unit : Option SourceUnit) : Inventory :=
  (unit.map SourceUnit.inventory).getD ∅

/-- A step of a history: its events can be followed from one inventory to the
next, and they are faithful. -/
structure IsStep (before : Option SourceUnit) (after : SourceUnit) (events : List Event) :
    Prop where
  replays : (inventoryOf before).replay events = some after.inventory
  faithful : ∀ event ∈ events, event.IsFaithful before after

/-- A unit at another revision has the same nodes. -/
theorem Event.IsFaithful.of_revision {event : Event} {before after : SourceUnit}
    {revision : String} (faithful : event.IsFaithful (some { before with revision }) after) :
    event.IsFaithful (some before) after := by
  unfold Event.IsFaithful at faithful ⊢
  split at faithful
  · exact faithful
  · rcases faithful with ⟨unit, same, node⟩
    cases same
    exact ⟨before, rfl, node⟩
  · rcases faithful with ⟨unit, same, node⟩
    cases same
    exact ⟨before, rfl, node⟩

theorem read_at_revision {path revision other text : String} {unit : SourceUnit}
    (made : SourceUnit.read path revision text = .ok unit) :
    SourceUnit.read path other text = .ok { unit with revision := other } := by
  rcases SourceUnit.read_eq_ok_iff.1 made with ⟨samePath, -, parsed, outlined⟩
  exact SourceUnit.read_eq_ok_iff.2 ⟨samePath, rfl, parsed, outlined⟩

/-- The text of a file, if there is one, reads as a unit. -/
def ReadsAs (path : String) : Option String → Option SourceUnit → Prop :=
  Option.Rel fun text unit => ∃ revision, SourceUnit.read path revision text = .ok unit

namespace Engine

/-- The diff from one text to the next is a step. -/
theorem exists_isStep {path revision text : String} (supported : default.supports path = true)
    {before : Option String} {old : Option SourceUnit} (beforeMade : ReadsAs path before old)
    {after : SourceUnit} (made : SourceUnit.read path revision text = .ok after) :
    ∃ events, default.diff path before (some text) revision = .ok events ∧
      IsStep old after events := by
  have afterRead := SourceUnit.isRead_of_read made
  cases beforeMade with
  | none =>
      obtain ⟨events, eventsMade, tells⟩ := exists_addedUnit afterRead
      refine ⟨events, ?_, Inventory.replay_of_bridges (tells.bridges_empty afterRead),
        fun event => tells.isFaithful_added⟩
      simp only [diff, Option.isNone_some, Bool.and_false, Bool.false_eq_true, if_false, supported,
        isExcluded_default, Bool.not_true, readUnit_eq_ok_iff.2 made]
      exact mapError_eq_ok_iff.2 eventsMade
  | some earlier =>
      rcases earlier with ⟨earlierRevision, earlierMade⟩
      have beforeMade := @read_at_revision path earlierRevision revision _ _ earlierMade
      have beforeRead := SourceUnit.isRead_of_read beforeMade
      obtain ⟨events, eventsMade, tells⟩ := exists_diffUnits beforeRead afterRead
      refine ⟨events, diff_default_eq_ok_iff.2 ⟨supported, _, _, beforeMade, made, eventsMade⟩,
        Inventory.replay_of_bridges (tells.bridges beforeRead afterRead), ?_⟩
      intro event member
      exact (tells.isFaithful beforeRead afterRead member).of_revision

end Engine

/-- A text of a file with its revision. -/
structure Version where
  revision : String
  text : String

/-- The events of every step of a history that begins with a text, if there was a
file before. -/
def Engine.history (engine : Engine) (path : String) (before : Option String) :
    List Version → Except DiffError (List (List Event))
  | [] => .ok []
  | version :: later => do
      let events ← engine.diff path before (some version.text) version.revision
      let rest ← engine.history path (some version.text) later
      return events :: rest

/-- The events of a history lead through units, one step after the other. -/
inductive IsRun : Option SourceUnit → List SourceUnit → List (List Event) → Prop
  | nil {before : Option SourceUnit} : IsRun before [] []
  | cons {before : Option SourceUnit} {unit : SourceUnit} {units : List SourceUnit}
      {events : List Event} {steps : List (List Event)} (step : IsStep before unit events)
      (run : IsRun (some unit) units steps) : IsRun before (unit :: units) (events :: steps)

/-- The history of texts that can be read is a run through their units. -/
theorem Engine.exists_isRun {path : String} (supported : default.supports path = true)
    {versions : List Version} {units : List SourceUnit}
    (made : List.Forall₂ (fun version unit =>
      SourceUnit.read path version.revision version.text = .ok unit) versions units)
    {before : Option String} {old : Option SourceUnit} (beforeMade : ReadsAs path before old) :
    ∃ steps, default.history path before versions = .ok steps ∧ IsRun old units steps := by
  induction made generalizing before old with
  | nil => exact ⟨[], rfl, .nil⟩
  | @cons version unit versions units own _ ih =>
      obtain ⟨events, eventsMade, step⟩ := exists_isStep supported beforeMade own
      obtain ⟨steps, stepsMade, run⟩ :=
        @ih (some version.text) (some unit) (.some ⟨version.revision, own⟩)
      refine ⟨events :: steps, ?_, .cons step run⟩
      rw [Engine.history, eventsMade, stepsMade]
      rfl

namespace IsRun

variable {before : Option SourceUnit} {units : List SourceUnit} {steps : List (List Event)}

theorem length_eq (run : IsRun before units steps) : steps.length = units.length := by
  induction run with
  | nil => rfl
  | cons _ _ ih => rw [List.length_cons, List.length_cons, ih]

/-- The unit before a step. -/
def previous (before : Option SourceUnit) (units : List SourceUnit) : Nat → Option SourceUnit
  | 0 => before
  | index + 1 => units[index]?

theorem previous_cons (before : Option SourceUnit) (unit : SourceUnit) (units : List SourceUnit)
    (index : Nat) :
    previous before (unit :: units) (index + 1) = previous (some unit) units index := by
  cases index <;> rfl

/-- After every step the inventory is that of the unit reached. -/
theorem reaches (run : IsRun before units steps) {index : Nat} {unit : SourceUnit}
    (found : units[index]? = some unit) :
    ∃ events, steps[index]? = some events ∧
      (inventoryOf before).replay (steps.take (index + 1)).flatten = some unit.inventory ∧
      ∀ event ∈ events, event.IsFaithful (previous before units index) unit := by
  induction run generalizing index with
  | nil => simp at found
  | @cons before first units events steps step run ih =>
      cases index with
      | zero =>
          cases found
          refine ⟨events, rfl, ?_, step.faithful⟩
          simpa using step.replays
      | succ index =>
          obtain ⟨later, laterFound, replays, faithful⟩ := ih found
          refine ⟨later, laterFound, ?_, ?_⟩
          · rw [List.take_succ_cons, List.flatten_cons, Inventory.replay_append, step.replays]
            exact replays
          · rw [previous_cons]
            exact faithful

end IsRun

/-- The events about added and removed nodes of a history, followed from nothing,
lead through the inventories of all its texts, and all events are faithful. -/
theorem Engine.replay_history {path : String} (supported : default.supports path = true)
    {versions : List Version} {units : List SourceUnit}
    (made : List.Forall₂ (fun version unit =>
      SourceUnit.read path version.revision version.text = .ok unit) versions units) :
    ∃ steps, default.history path none versions = .ok steps ∧ steps.length = versions.length ∧
      ∀ (index : Nat) (unit : SourceUnit), units[index]? = some unit →
        ∃ events, steps[index]? = some events ∧
          Inventory.replay ∅ (steps.take (index + 1)).flatten = some unit.inventory ∧
          ∀ event ∈ events, event.IsFaithful (IsRun.previous none units index) unit := by
  obtain ⟨steps, stepsMade, run⟩ := exists_isRun supported made Option.Rel.none
  refine ⟨steps, stepsMade, run.length_eq.trans made.length_eq.symm, ?_⟩
  intro index unit found
  exact run.reaches found

/-- A function that is written and then deleted. -/
theorem Engine.replay_history_written_and_deleted :
    ∃ (first second : SourceUnit) (steps : List (List Event)),
      default.supports "m.py" = true ∧
      SourceUnit.read "m.py" "r1" "def f(): pass\n" = .ok first ∧
      SourceUnit.read "m.py" "r2" "" = .ok second ∧
      default.history "m.py" none [⟨"r1", "def f(): pass\n"⟩, ⟨"r2", ""⟩] = .ok steps ∧
      Inventory.replay ∅ (steps.take 1).flatten = some first.inventory ∧
      Inventory.replay ∅ (steps.take 2).flatten = some second.inventory := by
  have supported : default.supports "m.py" = true := by decide +kernel
  obtain ⟨first, firstMade⟩ := exists_read "m.py" "r1" "def f(): pass\n" (by decide +kernel)
  obtain ⟨second, secondMade⟩ := exists_read "m.py" "r2" "" (by decide +kernel)
  obtain ⟨steps, stepsMade, -, reaches⟩ := @replay_history "m.py" supported
    [⟨"r1", "def f(): pass\n"⟩, ⟨"r2", ""⟩] [first, second]
    (.cons firstMade (.cons secondMade .nil))
  obtain ⟨-, -, afterFirst, -⟩ := reaches 0 first rfl
  obtain ⟨-, -, afterSecond, -⟩ := reaches 1 second rfl
  exact ⟨first, second, steps, supported, firstMade, secondMade, stepsMade, afterFirst, afterSecond⟩

end SemanticDiff
