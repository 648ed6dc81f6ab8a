import SemanticDiff.Proofs.Engine.Decomposition
import SemanticDiff.Proofs.Engine.Disabling

/-!
# New files

A file that did not exist before and a file that held no definitions before have
the same additions.  The module comes before all definitions in the order of keys,
so that what is reported about it stands first, and the additions follow.
-/

namespace SemanticDiff

open SemanticDiff.Catalog (Context contexts)
open SemanticDiff.Outline (Key Node NodeKind SourceUnit)

/-! ## The order of keys -/

namespace Outline

/-- The text of the key begins like a name. -/
def Key.BeginsAsName (key : Key) : Prop :=
  ∃ first rest, key.text.toList = first :: rest ∧ Text.isNameStart first = true

theorem Key.beginsAsName_child {key : Key} {name : String}
    (around : key = .module ∨ key.BeginsAsName) (named : Source.IsName name) :
    (key.child name).BeginsAsName := by
  rw [BeginsAsName, child]
  by_cases top : key.isModule
  · simpa only [top, if_true] using named.1
  · rcases around with rfl | ⟨first, rest, begins, starts⟩
    · exact absurd rfl top
    · refine ⟨first, rest ++ '.' :: name.toList, ?_, starts⟩
      simp [top, begins]

/-- A class of characters with none of the first codes in it. -/
theorem le_toNat_of_passes (test : Char → Bool) {bound : Nat}
    (apart : ∀ code < bound, test (Char.ofNat code) = false) {c : Char} (passes : test c = true) :
    bound ≤ c.toNat := by
  by_contra early
  have refused := apart c.toNat (Nat.lt_of_not_le early)
  rw [Char.ofNat_toNat, passes] at refused
  cases refused

theorem lt_of_isNameStart {c : Char} (starts : Text.isNameStart c = true) : '<' < c := by
  have apart : ∀ code < 61, Text.isNameStart (Char.ofNat code) = false := by decide +kernel
  exact le_toNat_of_passes Text.isNameStart apart starts

/-- The module comes before every key that begins like a name. -/
theorem Key.module_lt {key : Key} (begins : key.BeginsAsName) :
    Key.module.text < key.text := by
  obtain ⟨first, rest, textEq, starts⟩ := begins
  rw [String.lt_iff, textEq]
  exact List.cons_lt_cons_iff.2 (Or.inl (lt_of_isNameStart starts))

namespace SourceUnit

theorem IsRead.module_lt {unit : SourceUnit} (isRead : unit.IsRead) {node : Node}
    (member : node ∈ unit.nodes) (defines : node.kind ≠ .module) :
    Key.module.text < node.key.text := by
  rw [isRead.nodes_eq, sites, List.map_cons] at member
  rcases List.mem_cons.1 member with rfl | below
  · exact absurd isRead.kind_root defines
  · rcases List.mem_map.1 below with ⟨site, siteMem, rfl⟩
    exact Key.module_lt (forall_mem_sitesOf Key.beginsAsName_child (Or.inl rfl)
      isRead.headsDefinitions siteMem)

/-- The functions and classes of a unit, in the order of their keys. -/
def definitions (unit : SourceUnit) : List Node :=
  (unit.nodes.filter fun node => node.kind ≠ .module).mergeSort fun first second =>
    first.key.text ≤ second.key.text

theorem perm_definitions (unit : SourceUnit) :
    unit.definitions.Perm (unit.nodes.filter fun node => node.kind ≠ .module) :=
  List.mergeSort_perm _ _

theorem mem_definitions_iff {unit : SourceUnit} {node : Node} :
    node ∈ unit.definitions ↔ node ∈ unit.nodes ∧ node.kind ≠ .module := by
  simp [unit.perm_definitions.mem_iff]

namespace IsRead

variable {unit : SourceUnit}

/-- The keys of definitions increase. -/
theorem pairwise_definitions (isRead : unit.IsRead) :
    unit.definitions.Pairwise fun first second => first.key.text < second.key.text := by
  have sorted : unit.definitions.Pairwise fun first second =>
      first.key.text ≤ second.key.text := by
    have arranged := @List.pairwise_mergeSort Node
      (fun first second => first.key.text ≤ second.key.text)
      (fun a b c => by simpa using String.le_trans)
      (fun a b => by simpa using Std.le_total)
      (unit.nodes.filter fun node => node.kind ≠ .module)
    exact arranged.imp fun le => of_decide_eq_true le
  have distinct : unit.definitions.Pairwise fun first second => first.key ≠ second.key := by
    have kept := (List.pairwise_map.1 isRead.nodup_keys).filter fun node => node.kind ≠ .module
    exact (unit.perm_definitions.pairwise_iff fun different => Ne.symm different).2 kept
  apply (sorted.and distinct).imp
  rintro first second ⟨le, different⟩
  exact Std.lt_of_le_of_ne le fun same => different (Key.text_inj.1 same)

theorem module_lt_of_mem_definitions (isRead : unit.IsRead) {node : Node}
    (member : node ∈ unit.definitions) : Key.module.text < node.key.text := by
  rcases mem_definitions_iff.1 member with ⟨nodeMem, defines⟩
  exact isRead.module_lt nodeMem defines

/-- A key of the unit is that of the module or of a definition. -/
theorem mem_keys_iff (isRead : unit.IsRead) {key : Key} :
    key ∈ unit.nodes.map Node.key ↔ key = .module ∨ key ∈ unit.definitions.map Node.key := by
  rw [List.mem_map, List.mem_map]
  constructor
  · rintro ⟨node, member, rfl⟩
    by_cases module : node.kind = .module
    · exact Or.inl ((isRead.kind_eq_module_iff member).1 module)
    · exact Or.inr ⟨node, mem_definitions_iff.2 ⟨member, module⟩, rfl⟩
  · rintro (rfl | ⟨node, member, rfl⟩)
    · exact ⟨unit.root, isRead.root_mem_nodes, isRead.key_root⟩
    · exact ⟨node, (mem_definitions_iff.1 member).1, rfl⟩

end IsRead

end SourceUnit

end Outline

/-! ## Additions -/

/-- What is found about a definition that did not exist before. -/
def Outline.Node.addition (node : Node) : Finding where
  key := node.key
  kind := node.kind
  ruleIndex := 0
  rule := "node_added"
  draft :=
    { type := .nodeAdded
      details := .ofList [("kind", .text node.kind.name),
        ("start_line", .int node.span.startLine), ("end_line", .int node.span.endLine)] }

section

variable {before after : SourceUnit}

/-- Nothing but the addition is found about a node that did not exist before, and
about the module nothing at all. -/
theorem findings_added (after : SourceUnit) (new : Node) :
    (Context.added after new).findings =
      if new.kind ≠ .module then [new.addition] else [] := by
  rcases new with ⟨key, name, kind, span, children⟩
  cases kind <;> rfl

theorem flatMap_findings_added (after : SourceUnit) (nodes : List Node) :
    (nodes.flatMap fun node => (Context.added after node).findings) =
      (nodes.filter fun node => node.kind ≠ .module).map Node.addition := by
  induction nodes with
  | nil => rfl
  | cons node nodes ih =>
      rw [List.flatMap_cons, ih, findings_added, List.filter_cons]
      split
      · rename_i defines
        rw [if_pos (decide_eq_true defines)]
        rfl
      · rename_i module
        rw [if_neg (by simpa using module)]
        rfl

theorem flatMap_findings_definitions (after : SourceUnit) :
    (after.definitions.flatMap fun node => (Context.added after node).findings) =
      after.definitions.map Node.addition := by
  rw [flatMap_findings_added, List.filter_eq_self.2]
  intro node member
  exact decide_eq_true (SourceUnit.mem_definitions_iff.1 member).2

end

/-! ## Finishing -/

/-- Where keys increase, no two findings are tied. -/
theorem filter_tied_eq_of_perm {findings arranged : List Finding}
    (perm : arranged.Perm findings)
    (increasing : arranged.Pairwise fun first second => first.key.text < second.key.text)
    (finding : Finding) :
    arranged.filter (tied Finding.precedes finding) =
      findings.filter (tied Finding.precedes finding) := by
  have kept := perm.filter (tied Finding.precedes finding)
  have alone : (arranged.filter (tied Finding.precedes finding)).Pairwise fun _ _ => False := by
    apply (increasing.filter _).imp_of_mem
    intro first second firstMem secondMem less
    have firstKey := (Finding.tied_precedes_iff.1 (List.mem_filter.1 firstMem).2).1
    have secondKey := (Finding.tied_precedes_iff.1 (List.mem_filter.1 secondMem).2).1
    rw [← firstKey, ← secondKey] at less
    exact String.lt_irrefl _ less
  exact kept.eq_of_pairwise (fun _ _ _ _ impossible => impossible.elim) alone
    (kept.pairwise alone fun impossible => impossible.elim)

/-- Findings that are arranged, none of them twice, become events one by one, those
of disabled types apart. -/
theorem Engine.finish_eq_of_arranged (engine : Engine) (path revision : String)
    {findings arranged : List Finding}
    (sorted : arranged.Pairwise fun a b => a.precedes b = true)
    (ties : ∀ finding, arranged.filter (tied Finding.precedes finding) =
      findings.filter (tied Finding.precedes finding))
    (distinct : (arranged.map Finding.change).Nodup) :
    engine.finish path revision findings =
      (arranged.filter fun finding => engine.settings.isEnabled finding.draft.type).mapIdx
        fun order finding => finding.toEvent path revision order := by
  rw [finish_eq_assemble, ← mapIdx_filter_assemble,
    assemble_eq_of_arranged path revision sorted ties distinct, filter_mapIdx_toEvent]

/-! ## The two diffs -/

section

variable {before after : SourceUnit}

/-- A unit without definitions adds no keys to those of another unit. -/
theorem jointKeys_eq_of_bare (beforeRead : before.IsRead) (afterRead : after.IsRead)
    (bare : ∀ node ∈ before.nodes, node.kind = .module) :
    jointKeys before after = .module :: after.definitions.map Node.key := by
  refine SortedMap.eq_of_increasing (fun first second : Key => first.text < second.text)
    (fun key => String.lt_irrefl key.text) String.lt_trans (pairwise_jointKeys before after) ?_ ?_
  · rw [List.pairwise_cons, List.forall_mem_map, List.pairwise_map]
    exact ⟨fun node member => afterRead.module_lt_of_mem_definitions member,
      afterRead.pairwise_definitions⟩
  · have none : before.definitions = [] := by
      rw [List.eq_nil_iff_forall_not_mem]
      intro node member
      rcases SourceUnit.mem_definitions_iff.1 member with ⟨nodeMem, defines⟩
      exact defines (bare node nodeMem)
    intro key
    rw [mem_jointKeys_iff, beforeRead.mem_keys_iff, afterRead.mem_keys_iff,
      none, List.mem_cons]
    simp

/-- What is found between a unit without definitions and another unit: first what
is found about the module, then the additions. -/
theorem blocks_eq_of_bare (beforeRead : before.IsRead) (afterRead : after.IsRead)
    (bare : ∀ node ∈ before.nodes, node.kind = .module) :
    blocks before after =
      blockOf before after .module ++ after.definitions.map Node.addition := by
  rw [blocks, jointKeys_eq_of_bare beforeRead afterRead bare, List.flatMap_cons, List.flatMap_map,
    ← flatMap_findings_definitions]
  congr 1
  apply List.flatMap_congr
  intro node member
  apply blockOf_added beforeRead afterRead (SourceUnit.mem_definitions_iff.1 member).1
  intro old oldMem same
  have module := (beforeRead.kind_eq_module_iff oldMem).1 (bare old oldMem)
  have less := afterRead.module_lt_of_mem_definitions member
  rw [← same, module] at less
  exact String.lt_irrefl _ less

namespace Engine

/-- The findings of enabled types, as events. -/
def report (engine : Engine) (unit : SourceUnit) (findings : List Finding) : List Event :=
  (findings.filter fun finding => engine.settings.isEnabled finding.draft.type).mapIdx
    fun order finding => finding.toEvent unit.path unit.revision order

theorem report_append (engine : Engine) (unit : SourceUnit) (first second : List Finding) :
    engine.report unit (first ++ second) = engine.report unit first ++
      (engine.report unit second).map fun event =>
        { event with order := event.order + (engine.report unit first).length } := by
  simp only [report, List.filter_append, List.mapIdx_append, List.length_mapIdx]
  congr 1
  apply List.ext_getElem
  · simp
  · intro order _ _
    simp [Finding.toEvent]

theorem diffUnits_eq_report (engine : Engine) (beforeRead : before.IsRead)
    (afterRead : after.IsRead) :
    engine.diffUnits before after = .ok (engine.report after (blocks before after)) := by
  have found := Catalog.classifyAll_eq fun context member =>
    Catalog.holds_of_mem_contexts beforeRead afterRead member
  rw [engine.diffUnits_eq found, engine.finish_eq_of_arranged _ _
    (pairwise_precedes_blocks beforeRead afterRead) (filter_tied_blocks beforeRead afterRead)
    (nodup_change_blocks beforeRead afterRead)]
  rfl

theorem addedUnit_eq_report (engine : Engine) (afterRead : after.IsRead) :
    engine.addedUnit after = .ok (engine.report after (after.definitions.map Node.addition)) := by
  have holds : ∀ context ∈ addedContexts after, ∀ feature, context.Holds feature := by
    intro context member feature
    rcases List.mem_map.1 member with ⟨node, -, rfl⟩
    exact Context.holds_added node feature
  have found : (addedContexts after).flatMap Context.findings =
      (after.nodes.filter fun node => node.kind ≠ .module).map Node.addition := by
    rw [addedContexts, List.flatMap_map, ← flatMap_findings_added after]
    rfl
  have increasing : (after.definitions.map Node.addition).Pairwise fun first second =>
      first.key.text < second.key.text :=
    List.pairwise_map.2 afterRead.pairwise_definitions
  rw [addedUnit, Catalog.classifyAll_eq holds, found]
  apply congrArg Except.ok
  apply engine.finish_eq_of_arranged
  · exact increasing.imp fun less => Finding.precedes_iff.2 (Or.inl less)
  · exact filter_tied_eq_of_perm (after.perm_definitions.map _) increasing
  · apply List.pairwise_map.2
    apply increasing.imp
    intro first second less same
    have sameKey : first.key = second.key := congrArg Prod.fst same
    rw [sameKey] at less
    exact String.lt_irrefl _ less

theorem report_additions (engine : Engine) (unit : SourceUnit) :
    engine.report unit (unit.definitions.map Node.addition) =
      if engine.settings.isEnabled .nodeAdded then
        unit.definitions.mapIdx fun order node =>
          node.addition.toEvent unit.path unit.revision order
      else [] := by
  have sameType : (fun finding : Finding => engine.settings.isEnabled finding.draft.type) ∘
      Node.addition = fun _ => engine.settings.isEnabled .nodeAdded := rfl
  rw [report, List.filter_map, sameType]
  split
  · rename_i enabled
    rw [enabled, List.filter_true]
    apply List.ext_getElem <;> simp
  · rename_i disabled
    rw [Bool.eq_false_iff.2 disabled, List.filter_false]
    rfl

/-- The text of a new file is compared with nothing. -/
theorem diff_none_eq_addedUnit (engine : Engine) {path revision new : String}
    (supported : engine.supports path = true) (included : engine.isExcluded path = false)
    (newRead : SourceUnit.read path revision new = .ok after) :
    engine.diff path none (some new) revision =
      (engine.addedUnit after).mapError DiffError.vocabulary := by
  have newUnit := readUnit_eq_ok_iff.2 newRead
  simp only [diff, Option.isNone_some, Option.isNone_none, Bool.and_false, Bool.false_eq_true,
    if_false, supported, included, Bool.not_true, newUnit]
  rfl

/-- The events of a file that held no definitions before: first those about the
module, then those of a new file, which are one addition for every function and
class, in the order of their keys. -/
theorem exists_diff_eq_append_additions (engine : Engine) {path revision old new : String}
    (supported : engine.supports path = true) (included : engine.isExcluded path = false)
    (oldRead : SourceUnit.read path revision old = .ok before)
    (newRead : SourceUnit.read path revision new = .ok after)
    (bare : ∀ node ∈ before.nodes, node.kind = .module) :
    ∃ lead additions : List Event,
      engine.diff path (some old) (some new) revision =
        .ok (lead ++ additions.map fun event =>
          { event with order := event.order + lead.length }) ∧
      (∀ event ∈ lead, event.key = .module) ∧
      engine.diff path none (some new) revision = .ok additions ∧
      additions = (if engine.settings.isEnabled .nodeAdded then
        after.definitions.mapIdx fun order node =>
          { type := .nodeAdded, key := node.key, path, kind := node.kind,
            details := .ofList [("kind", .text node.kind.name),
              ("start_line", .int node.span.startLine), ("end_line", .int node.span.endLine)],
            revision, rule := "node_added", order }
      else []) ∧
      after.definitions.Perm (after.nodes.filter fun node => node.kind ≠ .module) ∧
      after.definitions.Pairwise fun first second => first.key.text < second.key.text := by
  have beforeRead := SourceUnit.isRead_of_read oldRead
  have afterRead := SourceUnit.isRead_of_read newRead
  refine ⟨engine.report after (blockOf before after .module),
    engine.report after (after.definitions.map Node.addition), ?_, ?_, ?_, ?_,
    after.perm_definitions, afterRead.pairwise_definitions⟩
  · rw [engine.diff_eq_diffUnits supported included oldRead newRead,
      engine.diffUnits_eq_report beforeRead afterRead,
      blocks_eq_of_bare beforeRead afterRead bare, report_append]
    rfl
  · intro event member
    rcases List.mem_mapIdx.1 member with ⟨order, inside, rfl⟩
    exact key_of_mem_blockOf (List.mem_filter.1 (List.getElem_mem inside)).1
  · rw [engine.diff_none_eq_addedUnit supported included newRead,
      engine.addedUnit_eq_report afterRead]
    rfl
  · obtain ⟨rfl, rfl, -⟩ := SourceUnit.read_eq_ok_iff.1 newRead
    exact engine.report_additions after

end Engine

end

/-- A file with a value and no definition becomes a file with a function. -/
theorem Engine.exists_diff_eq_append_additions_value :
    ∃ (before after : SourceUnit) (lead additions : List Event),
      SourceUnit.read "m.py" "r1" "x = 1\n" = .ok before ∧
      SourceUnit.read "m.py" "r1" "def f(): pass\n" = .ok after ∧
      (∀ node ∈ before.nodes, node.kind = .module) ∧
      default.diff "m.py" (some "x = 1\n") (some "def f(): pass\n") "r1" =
        .ok (lead ++ additions.map fun event =>
          { event with order := event.order + lead.length }) ∧
      (∀ event ∈ lead, event.key = .module) ∧
      default.diff "m.py" none (some "def f(): pass\n") "r1" = .ok additions ∧
      additions.length = after.definitions.length := by
  have kinds : ((SourceUnit.read "m.py" "r1" "x = 1\n").toOption.map fun unit =>
      unit.nodes.map Node.kind) = some [.module] := by
    decide +kernel
  obtain ⟨before, oldRead, only⟩ := exists_ok_of_map_eq_some kinds
  obtain ⟨after, newRead⟩ := exists_read "m.py" "r1" "def f(): pass\n" (by decide +kernel)
  have bare : ∀ node ∈ before.nodes, node.kind = .module := by
    intro node member
    have seen : node.kind ∈ before.nodes.map Node.kind := List.mem_map.2 ⟨node, member, rfl⟩
    rw [only] at seen
    exact List.mem_singleton.1 seen
  obtain ⟨lead, additions, told, aboutModule, new, each, -⟩ :=
    exists_diff_eq_append_additions default (by decide +kernel) (isExcluded_default "m.py")
      oldRead newRead bare
  refine ⟨before, after, lead, additions, oldRead, newRead, bare, told, aboutModule, new, ?_⟩
  have enabled : default.settings.isEnabled .nodeAdded = true := rfl
  rw [each, if_pos enabled, List.length_mapIdx]

end SemanticDiff
