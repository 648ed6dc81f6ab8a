import SemanticDiff.Proofs.Catalog.Tracking
import SemanticDiff.Proofs.Engine.Decomposition
import SemanticDiff.Proofs.Engine.History

/-!
# Features through a history

A ledger that begins with the features of a node can be kept up to date by the
events about its key alone.  After every step of a history it says what a snapshot
of the node would say, for all features that are tracked.
-/

namespace SemanticDiff

open SemanticDiff.Catalog (Context Partners Tracks tracked)
open SemanticDiff.Feature (extract)
open SemanticDiff.Outline (Key Node NodeKind SourceUnit)

/-! ## The events about a key -/

/-- What some events tell about a key. -/
def draftsAbout (key : Key) (events : List Event) : List Draft :=
  (events.filter fun event => event.key = key).map Event.draft

theorem draftsAbout_append (key : Key) (first second : List Event) :
    draftsAbout key (first ++ second) = draftsAbout key first ++ draftsAbout key second := by
  rw [draftsAbout, List.filter_append, List.map_append]
  rfl

theorem draftsAbout_eq (key : Key) (events : List Event) :
    draftsAbout key events =
      ((events.map Event.change).filter fun change => change.1 = key).map Prod.snd := by
  rw [draftsAbout, List.filter_map, List.map_map]
  rfl

variable {before after : SourceUnit} {key : Key}

/-- A block holds all findings about its key. -/
theorem filter_key_flatMap_blockOf {keys : List Key} (distinct : keys.Nodup)
    (member : key ∈ keys) :
    (keys.flatMap (blockOf before after)).filter (fun finding => finding.key = key) =
      blockOf before after key := by
  have own : (blockOf before after key).filter (fun finding => finding.key = key) =
      blockOf before after key := by
    apply List.filter_eq_self.2
    intro finding here
    simpa using key_of_mem_blockOf here
  induction keys with
  | nil => cases member
  | cons first rest ih =>
      rcases List.nodup_cons.1 distinct with ⟨alone, restDistinct⟩
      rw [List.flatMap_cons, List.filter_append]
      by_cases same : first = key
      · subst first
        have none : (rest.flatMap (blockOf before after)).filter
            (fun finding => finding.key = key) = [] := by
          apply List.filter_eq_nil_iff.2
          intro finding here
          rcases List.mem_flatMap.1 here with ⟨other, otherMem, inside⟩
          rw [key_of_mem_blockOf inside]
          intro equal
          exact alone (of_decide_eq_true equal ▸ otherMem)
        rw [own, none, List.append_nil]
      · have none : (blockOf before after first).filter (fun finding => finding.key = key) = [] := by
          apply List.filter_eq_nil_iff.2
          intro finding here
          rw [key_of_mem_blockOf here]
          simpa using same
        have later : key ∈ rest := (List.mem_cons.1 member).resolve_left (Ne.symm same)
        rw [none, List.nil_append, ih restDistinct later]

theorem nodup_jointKeys (before after : SourceUnit) : (jointKeys before after).Nodup := by
  apply (pairwise_jointKeys before after).imp
  rintro first second less rfl
  exact String.lt_irrefl _ less

/-- What a comparison tells about a node that exists on both sides. -/
theorem Engine.draftsAbout_diffUnits (beforeRead : before.IsRead) (afterRead : after.IsRead)
    {events : List Event} (made : default.diffUnits before after = .ok events) {old new : Node}
    (oldMem : old ∈ before.nodes) (newMem : new ∈ after.nodes) (partners : Partners old new) :
    draftsAbout new.key events =
      (Context.changed before after old new).findings.map Finding.draft := by
  rw [diffUnits_default_eq beforeRead afterRead] at made
  cases made
  have member : new.key ∈ jointKeys before after :=
    mem_jointKeys_iff.2 (Or.inr (List.mem_map.2 ⟨new, newMem, rfl⟩))
  rw [draftsAbout_eq, map_change_toEvent, List.filter_map, List.map_map,
    ← blockOf_partners beforeRead afterRead oldMem newMem partners,
    ← filter_key_flatMap_blockOf (nodup_jointKeys before after) member]
  rfl

/-! ## Steps and runs -/

/-- The ledger says the same as the snapshot of the node of a key. -/
def TracksNode (ledger : Ledger) (kind : NodeKind) (key : Key) (unit : SourceUnit) : Prop :=
  ∀ node ∈ unit.nodes, node.key = key → Tracks ledger kind (extract unit node)

/-- The events between two texts keep the ledger of a node up to date. -/
theorem Engine.exists_replay_diff {path revision old new : String}
    (supported : default.supports path = true) (oldRead : ∃ revision,
      SourceUnit.read path revision old = .ok before)
    (newRead : SourceUnit.read path revision new = .ok after) :
    ∃ events, default.diff path (some old) (some new) revision = .ok events ∧
      ∀ (key : Key) (kind : NodeKind) (ledger : Ledger), before.Has key kind → after.Has key kind →
        TracksNode ledger kind key before →
        ∃ later, ledger.replay (draftsAbout key events) = some later ∧
          TracksNode later kind key after := by
  rcases oldRead with ⟨oldRevision, oldRead⟩
  have beforeMade := @read_at_revision path oldRevision revision _ _ oldRead
  have beforeRead := SourceUnit.isRead_of_read beforeMade
  have afterRead := SourceUnit.isRead_of_read newRead
  have made := diffUnits_default_eq beforeRead afterRead
  refine ⟨_, diff_default_eq_ok_iff.2 ⟨supported, _, _, beforeMade, newRead, made⟩, ?_⟩
  rintro key kind ledger ⟨oldNode, oldMem, rfl, rfl⟩ ⟨newNode, newMem, sameKey, sameKind⟩ tracks
  have starts := tracks oldNode oldMem rfl
  rw [← sameKind] at starts
  obtain ⟨later, replayed, ends⟩ := @Catalog.exists_replay_findings { before with revision } after
    oldNode newNode ledger starts
  refine ⟨later, ?_, ?_⟩
  · rw [← sameKey, draftsAbout_diffUnits beforeRead afterRead made oldMem newMem
      ⟨sameKey.symm, sameKind.symm⟩, replayed]
  · intro node nodeMem nodeKey
    rw [afterRead.eq_of_key_eq nodeMem newMem (nodeKey.trans sameKey.symm), ← sameKind]
    exact ends

/-- The events of a history keep the ledger of a node up to date as long as the
node exists. -/
theorem Engine.exists_replay_history {path : String} (supported : default.supports path = true)
    {versions : List Version} {units : List SourceUnit}
    (made : List.Forall₂ (fun version unit =>
      SourceUnit.read path version.revision version.text = .ok unit) versions units)
    {text : String} {first : SourceUnit}
    (firstRead : ∃ revision, SourceUnit.read path revision text = .ok first) :
    ∃ steps, default.history path (some text) versions = .ok steps ∧
      steps.length = versions.length ∧
      ∀ (key : Key) (kind : NodeKind) (ledger : Ledger),
        (∀ unit ∈ first :: units, unit.Has key kind) → TracksNode ledger kind key first →
        ∀ (index : Nat) (unit : SourceUnit), (first :: units)[index]? = some unit →
          ∃ later, ledger.replay (draftsAbout key (steps.take index).flatten) = some later ∧
            TracksNode later kind key unit := by
  induction made generalizing text first with
  | nil =>
      refine ⟨[], rfl, rfl, ?_⟩
      intro key kind ledger _ tracks index unit found
      have same : unit = first := by simpa using List.mem_of_getElem? found
      exact ⟨ledger, by rw [List.take_nil]; rfl, same ▸ tracks⟩
  | @cons version second versions units own _ ih =>
      obtain ⟨events, eventsMade, step⟩ := exists_replay_diff supported firstRead own
      obtain ⟨steps, stepsMade, sameLength, run⟩ := @ih version.text second ⟨_, own⟩
      refine ⟨events :: steps, ?_, congrArg (· + 1) sameLength, ?_⟩
      · rw [history, eventsMade, stepsMade]
        rfl
      · intro key kind ledger present tracks index unit found
        cases index with
        | zero =>
            cases found
            exact ⟨ledger, rfl, tracks⟩
        | succ index =>
            rcases List.forall_mem_cons.1 present with ⟨atFirst, later⟩
            obtain ⟨middle, reached, middleTracks⟩ := step key kind ledger atFirst
              (later second List.mem_cons_self) tracks
            obtain ⟨last, replayed, lastTracks⟩ := run key kind middle later middleTracks index
              unit found
            refine ⟨last, ?_, lastTracks⟩
            rw [List.take_succ_cons, List.flatten_cons, draftsAbout_append, Ledger.replay_append,
              reached]
            exact replayed

/-- Following the events about a key from its first snapshot leads through the
snapshots of all texts, as far as features are tracked. -/
theorem Engine.replay_features {path : String} (supported : default.supports path = true)
    {text revision : String} {first : SourceUnit}
    (firstRead : SourceUnit.read path revision text = .ok first)
    {versions : List Version} {units : List SourceUnit}
    (made : List.Forall₂ (fun version unit =>
      SourceUnit.read path version.revision version.text = .ok unit) versions units)
    {key : Key} {kind : NodeKind} (present : ∀ unit ∈ first :: units, unit.Has key kind) :
    ∃ steps, default.history path (some text) versions = .ok steps ∧
      steps.length = versions.length ∧
      ∀ start ∈ first.nodes, start.key = key →
        ∀ (index : Nat) (unit : SourceUnit), (first :: units)[index]? = some unit →
          ∀ node ∈ unit.nodes, node.key = key →
            ∃ ledger, (Ledger.ofSnapshot (extract first start)).replay
                (draftsAbout key (steps.take index).flatten) = some ledger ∧
              ∀ feature ∈ tracked kind,
                ledger feature = Ledger.ofSnapshot (extract unit node) feature := by
  obtain ⟨steps, stepsMade, sameLength, run⟩ :=
    exists_replay_history supported made ⟨revision, firstRead⟩
  refine ⟨steps, stepsMade, sameLength, ?_⟩
  intro start startMem startKey index unit found node nodeMem nodeKey
  have starts : TracksNode (Ledger.ofSnapshot (extract first start)) kind key first := by
    intro other otherMem otherKey feature _
    rw [(SourceUnit.isRead_of_read firstRead).eq_of_key_eq otherMem startMem
      (otherKey.trans startKey.symm)]
  obtain ⟨ledger, replayed, tracks⟩ := run key kind _ present starts index unit found
  exact ⟨ledger, replayed, tracks node nodeMem nodeKey⟩

/-- A function that becomes asynchronous. -/
theorem Engine.replay_features_async :
    ∃ (first second : SourceUnit) (start node : Node) (steps : List (List Event))
      (ledger : Ledger),
      SourceUnit.read "m.py" "r1" "def f(): pass\n" = .ok first ∧
      SourceUnit.read "m.py" "r2" "async def f(): pass\n" = .ok second ∧
      start ∈ first.nodes ∧ node ∈ second.nodes ∧ start.key = ⟨"f"⟩ ∧ node.key = ⟨"f"⟩ ∧
      default.history "m.py" (some "def f(): pass\n") [⟨"r2", "async def f(): pass\n"⟩] =
        .ok steps ∧
      (Ledger.ofSnapshot (extract first start)).replay
        (draftsAbout ⟨"f"⟩ (steps.take 1).flatten) = some ledger ∧
      ∀ feature ∈ tracked .functionDef,
        ledger feature = Ledger.ofSnapshot (extract second node) feature := by
  have outline (text revision : String) (seen : (SourceUnit.read "m.py" revision text).toOption.map
      (fun unit => unit.nodes.map fun node => (node.key, node.kind)) =
        some [(.module, .module), (⟨"f"⟩, .functionDef)]) :
      ∃ unit, SourceUnit.read "m.py" revision text = .ok unit ∧ unit.Has ⟨"f"⟩ .functionDef := by
    obtain ⟨unit, made, nodes⟩ := exists_ok_of_map_eq_some seen
    have member : (⟨"f"⟩, .functionDef) ∈ unit.nodes.map fun node => (node.key, node.kind) := by
      rw [nodes]
      simp
    rcases List.mem_map.1 member with ⟨node, nodeMem, same⟩
    exact ⟨unit, made, node, nodeMem, Prod.mk.inj same⟩
  obtain ⟨first, firstRead, firstHas⟩ := outline "def f(): pass\n" "r1" (by decide +kernel)
  obtain ⟨second, secondRead, secondHas⟩ := outline "async def f(): pass\n" "r2" (by decide +kernel)
  obtain ⟨steps, made, -, run⟩ := @replay_features "m.py" (by decide +kernel) _ _ _ firstRead
    [⟨"r2", "async def f(): pass\n"⟩] [second] (.cons secondRead .nil) ⟨"f"⟩ .functionDef
    (List.forall_mem_cons.2 ⟨firstHas, by simpa using secondHas⟩)
  rcases firstHas with ⟨start, startMem, startKey, -⟩
  rcases secondHas with ⟨node, nodeMem, nodeKey, -⟩
  obtain ⟨ledger, replayed, tracks⟩ := run start startMem startKey 1 second rfl node nodeMem nodeKey
  exact ⟨first, second, start, node, steps, ledger, firstRead, secondRead, startMem, nodeMem,
    startKey, nodeKey, made, replayed, tracks⟩

end SemanticDiff
