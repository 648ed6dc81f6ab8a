import SemanticDiff.Proofs.Engine.Locality
import SemanticDiff.Proofs.Engine.NewFile

/-!
# The events of a definition stand together

Events are sorted by the texts of their keys, which tell nothing of nesting.  But no
character of a key comes before the point, so the keys inside a definition fill the range
from its own key to the same key with a slash, the character after the point.  What is
told about a definition and about all that is inside it is therefore one part of the
events, and the definition itself comes first.
-/

namespace SemanticDiff

open SemanticDiff.Outline (Key Node SourceUnit)

/-! ## The range of a key -/

namespace Outline

/-- No character of the key comes before the point. -/
def Key.IsOrderly (key : Key) : Prop :=
  ∀ c ∈ key.text.toList, '.' ≤ c

theorem Key.isOrderly_module : Key.module.IsOrderly := by
  have checked : (Key.module.text.toList.all fun c => '.' ≤ c) = true := by decide
  intro c member
  exact of_decide_eq_true (List.all_eq_true.1 checked c member)

theorem le_of_isNameStart_or_isNameContinue {c : Char}
    (named : Text.isNameStart c ∨ Text.isNameContinue c) : '.' ≤ c := by
  have apart : ∀ code < 46,
      (Text.isNameStart (Char.ofNat code) || Text.isNameContinue (Char.ofNat code)) = false := by
    decide +kernel
  apply le_toNat_of_passes (fun c => Text.isNameStart c || Text.isNameContinue c) apart
  simpa using named

theorem Key.isOrderly_child {key : Key} {name : String} (around : key = .module ∨ key.IsOrderly)
    (named : Source.IsName name) : (key.child name).IsOrderly := by
  have own : ∀ c ∈ name.toList, '.' ≤ c := fun c member =>
    le_of_isNameStart_or_isNameContinue (named.2 c member)
  rw [IsOrderly, child]
  by_cases top : key.isModule = true
  · rw [if_pos top]
    exact own
  · rw [if_neg top]
    rcases around with rfl | orderly
    · exact absurd rfl top
    · simp only [String.toList_append, List.mem_append]
      rintro c ((inKey | point) | inName)
      · exact orderly c inKey
      · rw [List.mem_singleton.1 point]
        exact Char.le_refl '.'
      · exact own c inName

theorem SourceUnit.IsRead.isOrderly {unit : SourceUnit} (isRead : unit.IsRead) {node : Node}
    (member : node ∈ unit.nodes) : node.key.IsOrderly := by
  rw [isRead.nodes_eq, sites, List.map_cons] at member
  rcases List.mem_cons.1 member with rfl | below
  · rw [isRead.key_root]
    exact Key.isOrderly_module
  · obtain ⟨site, siteMem, rfl⟩ := List.mem_map.1 below
    exact forall_mem_sitesOf Key.isOrderly_child (Or.inl rfl) isRead.headsDefinitions siteMem

/-- The point is the last character before the slash. -/
theorem eq_point_of_lt {c : Char} (orderly : '.' ≤ c) (less : c < '/') : c = '.' := by
  have low : 46 ≤ c.toNat := orderly
  have high : c.toNat < 47 := less
  rw [← Char.ofNat_toNat c, show c.toNat = 46 by omega]

theorem lt_append_slash_iff {target chars : List Char} (orderly : ∀ c ∈ chars, '.' ≤ c) :
    ¬ chars < target ∧ chars < target ++ ['/'] ↔
      chars = target ∨ ∃ rest, chars = target ++ '.' :: rest := by
  induction target generalizing chars with
  | nil =>
      cases chars with
      | nil => simp
      | cons c rest =>
          have first := orderly c List.mem_cons_self
          simp only [List.not_lt_nil, not_false_eq_true, List.nil_append, List.cons_lt_cons_iff,
            and_false, or_false, true_and, reduceCtorEq, false_or, List.cons.injEq,
            exists_and_left, exists_eq', and_true]
          constructor
          · exact eq_point_of_lt first
          · rintro rfl
            decide
  | cons d target ih =>
      cases chars with
      | nil => simp
      | cons c rest =>
          have others := ih fun other member => orderly other (List.mem_cons_of_mem c member)
          simp only [List.cons_append, List.cons_lt_cons_iff, List.cons.injEq, not_or, not_and,
            exists_and_left, ← and_or_left, ← others]
          constructor
          · rintro ⟨⟨notLess, notBefore⟩, less | ⟨same, before⟩⟩
            · exact absurd less notLess
            · exact ⟨same, notBefore same, before⟩
          · rintro ⟨rfl, notBefore, before⟩
            exact ⟨⟨Std.lt_irrefl, fun _ => notBefore⟩, Or.inr ⟨rfl, before⟩⟩

/-- The key is that of a definition inside the one with the other key. -/
def Key.IsInside (key target : Key) : Prop :=
  ∃ rest, key.text = target.text ++ "." ++ rest

/-- The keys within a key are those from itself to the same key with a slash. -/
theorem Key.isWithin_iff {key : Key} (orderly : key.IsOrderly) (target : Key) :
    key.IsWithin target ↔ ¬ key.text < target.text ∧ key.text < target.text ++ "/" := by
  have range := @lt_append_slash_iff target.text.toList _ orderly
  rw [String.lt_iff, String.lt_iff, String.toList_append]
  refine Iff.trans ?_ range.symm
  rw [IsWithin, String.toList_inj, text_inj]
  apply or_congr Iff.rfl
  constructor
  · rintro ⟨rest, same⟩
    exact ⟨rest.toList, by simp [same]⟩
  · rintro ⟨rest, same⟩
    refine ⟨String.ofList rest, ?_⟩
    rw [← String.toList_inj, same]
    simp

theorem SourceUnit.IsRead.eq_module_or_lt {unit : SourceUnit} (isRead : unit.IsRead) {node : Node}
    (member : node ∈ unit.nodes) : node.key = .module ∨ Key.module.text < node.key.text := by
  by_cases module : node.kind = .module
  · exact Or.inl ((isRead.kind_eq_module_iff member).1 module)
  · exact Or.inr (isRead.module_lt member module)

end Outline

/-! ## Sorted events -/

/-- Items of which none passes a test after one that fails it are parted by the test. -/
theorem exists_append_of_pairwise {α : Type} {test : α → Prop} {items : List α}
    (closed : items.Pairwise fun first second => test second → test first) :
    ∃ passing failing, items = passing ++ failing ∧
      (∀ item ∈ passing, test item) ∧ ∀ item ∈ failing, ¬ test item := by
  induction items with
  | nil => exact ⟨[], [], rfl, by simp, by simp⟩
  | cons first rest ih =>
      obtain ⟨leads, restClosed⟩ := List.pairwise_cons.1 closed
      by_cases passes : test first
      · obtain ⟨passing, failing, rfl, pass, fail⟩ := ih restClosed
        exact ⟨first :: passing, failing, rfl, List.forall_mem_cons.2 ⟨passes, pass⟩, fail⟩
      · refine ⟨[], first :: rest, rfl, by simp, List.forall_mem_cons.2 ⟨passes, ?_⟩⟩
        intro item member itemPasses
        exact passes (leads item member itemPasses)

/-- The events are in the order of their keys. -/
def KeysAscend (events : List Event) : Prop :=
  events.Pairwise fun first second => first.key.text ≤ second.key.text

/-- What is told about the key and about all keys inside it is one part of the events.  In
it the key itself comes first. -/
def StandsTogether (events : List Event) (key : Key) : Prop :=
  ∃ before own inside after, events = before ++ (own ++ inside) ++ after ∧
    (∀ event ∈ own, event.key = key) ∧
    (∀ event ∈ inside, event.key.IsInside key) ∧
    ∀ event ∈ before ++ after, ¬ event.key.IsWithin key

variable {events : List Event}

/-- Events with keys below a bound come first. -/
theorem KeysAscend.exists_append_lt (ascend : KeysAscend events) (bound : String) :
    ∃ low high, events = low ++ high ∧ (∀ event ∈ low, event.key.text < bound) ∧
      ∀ event ∈ high, ¬ event.key.text < bound :=
  exists_append_of_pairwise (ascend.imp fun le less => Std.lt_of_le_of_lt le less)

/-- Events about the first key come first. -/
theorem KeysAscend.exists_append_eq (ascend : KeysAscend events) {key : Key}
    (least : ∀ event ∈ events, ¬ event.key.text < key.text) :
    ∃ own others, events = own ++ others ∧ (∀ event ∈ own, event.key = key) ∧
      ∀ event ∈ others, event.key ≠ key := by
  apply exists_append_of_pairwise
  apply ascend.imp_of_mem
  intro first second firstMem _ le same
  apply Outline.Key.text_inj.1
  rw [same] at le
  rcases Std.lt_trichotomy first.key.text key.text with less | equal | greater
  · exact absurd less (least first firstMem)
  · exact equal
  · exact absurd (Std.lt_of_lt_of_le greater le) (String.lt_irrefl _)

theorem KeysAscend.standsTogether (ascend : KeysAscend events)
    (orderly : ∀ event ∈ events, event.key.IsOrderly) (key : Key) : StandsTogether events key := by
  obtain ⟨before, others, rfl, early, notEarly⟩ := ascend.exists_append_lt key.text
  have othersAscend : KeysAscend others := (List.pairwise_append.1 ascend).2.1
  obtain ⟨within, after, rfl, low, high⟩ := othersAscend.exists_append_lt (key.text ++ "/")
  simp only [List.forall_mem_append] at orderly notEarly
  have withinAscend : KeysAscend within := (List.pairwise_append.1 othersAscend).1
  obtain ⟨own, inside, rfl, isOwn, notOwn⟩ := withinAscend.exists_append_eq notEarly.1
  refine ⟨before, own, inside, after, (List.append_assoc ..).symm, isOwn, ?_, ?_⟩
  · intro event member
    have here : event ∈ own ++ inside := List.mem_append_right own member
    have isWithin := (Outline.Key.isWithin_iff (orderly.2.1 event here) key).2
      ⟨notEarly.1 event here, low event here⟩
    exact isWithin.resolve_left (notOwn event member)
  · rw [List.forall_mem_append]
    constructor
    · intro event member isWithin
      exact ((Outline.Key.isWithin_iff (orderly.1 event member) key).1 isWithin).1
        (early event member)
    · intro event member isWithin
      exact high event member ((Outline.Key.isWithin_iff (orderly.2.2 event member) key).1 isWithin).2

/-! ## The events of a comparison -/

namespace Engine

variable {before after : SourceUnit}

theorem map_key_report (engine : Engine) (unit : SourceUnit) (findings : List Finding) :
    (engine.report unit findings).map Event.key =
      (findings.filter fun finding => engine.settings.isEnabled finding.draft.type).map
        Finding.key := by
  apply List.ext_getElem
  · simp [report]
  · intro order _ _
    simp [report, Finding.toEvent]

theorem keysAscend_report (engine : Engine) (unit : SourceUnit) {findings : List Finding}
    (sorted : findings.Pairwise fun first second => first.precedes second = true) :
    KeysAscend (engine.report unit findings) := by
  have ascend : ((engine.report unit findings).map Event.key).Pairwise fun first second =>
      first.text ≤ second.text := by
    rw [map_key_report, List.pairwise_map]
    apply (sorted.filter _).imp
    intro first second precedes
    rcases Finding.precedes_iff.1 precedes with less | ⟨same, -⟩
    · exact Std.le_of_lt less
    · exact same ▸ String.le_refl _
  rw [List.pairwise_map] at ascend
  exact ascend

/-- An event is about a node of one of the two units. -/
theorem exists_node_of_mem_report {engine : Engine} {unit : SourceUnit} {event : Event}
    (member : event ∈ engine.report unit (blocks before after)) :
    (∃ node ∈ before.nodes, node.key = event.key) ∨ ∃ node ∈ after.nodes, node.key = event.key := by
  have keyMem : event.key ∈ (engine.report unit (blocks before after)).map Event.key :=
    List.mem_map_of_mem member
  rw [map_key_report] at keyMem
  obtain ⟨finding, kept, sameKey⟩ := List.mem_map.1 keyMem
  obtain ⟨key, keyJoint, here⟩ := List.mem_flatMap.1 (List.mem_filter.1 kept).1
  rw [← sameKey, key_of_mem_blockOf here]
  simpa using mem_jointKeys_iff.1 keyJoint

/-- The events of two texts that can be read are in the order of their keys, and their keys
are those of definitions or that of the module. -/
theorem exists_diff_keysAscend (engine : Engine) {path revision old new : String}
    (supported : engine.supports path = true)
    (oldRead : SourceUnit.read path revision old = .ok before)
    (newRead : SourceUnit.read path revision new = .ok after) :
    ∃ events, engine.diff path (some old) (some new) revision = .ok events ∧ KeysAscend events ∧
      ∀ event ∈ events, event.key.IsOrderly ∧
        (event.key = .module ∨ Key.module.text < event.key.text) := by
  by_cases excluded : engine.isExcluded path = true
  · exact ⟨[], engine.diff_eq_nil_of_isExcluded supported excluded, List.Pairwise.nil, by simp⟩
  · have beforeRead := SourceUnit.isRead_of_read oldRead
    have afterRead := SourceUnit.isRead_of_read newRead
    refine ⟨engine.report after (blocks before after), ?_,
      engine.keysAscend_report after (pairwise_precedes_blocks beforeRead afterRead), ?_⟩
    · rw [engine.diff_eq_diffUnits supported (Bool.eq_false_of_not_eq_true excluded) oldRead newRead,
        engine.diffUnits_eq_report beforeRead afterRead]
      rfl
    · intro event member
      rcases exists_node_of_mem_report member with
        ⟨node, nodeMem, same⟩ | ⟨node, nodeMem, same⟩
      · rw [← same]
        exact ⟨beforeRead.isOrderly nodeMem, beforeRead.eq_module_or_lt nodeMem⟩
      · rw [← same]
        exact ⟨afterRead.isOrderly nodeMem, afterRead.eq_module_or_lt nodeMem⟩

/-- What is told about a definition and about all that is inside it stands together, the
definition itself first.  What is told about the module comes before everything else. -/
theorem diff_stands_together (engine : Engine) {path revision old new : String}
    (supported : engine.supports path = true)
    (oldRead : SourceUnit.read path revision old = .ok before)
    (newRead : SourceUnit.read path revision new = .ok after) :
    ∃ events, engine.diff path (some old) (some new) revision = .ok events ∧
      (∀ key, StandsTogether events key) ∧
      ∃ own others, events = own ++ others ∧ (∀ event ∈ own, event.key = .module) ∧
        ∀ event ∈ others, event.key ≠ .module := by
  obtain ⟨events, made, ascend, keys⟩ := engine.exists_diff_keysAscend supported oldRead newRead
  refine ⟨events, made, fun key => ascend.standsTogether (fun event member =>
    (keys event member).1) key, ascend.exists_append_eq ?_⟩
  intro event member early
  rcases (keys event member).2 with same | later
  · rw [same] at early
    exact String.lt_irrefl _ early
  · exact String.lt_irrefl _ (String.lt_trans early later)

/-- A class with a method, and another class whose name begins alike. -/
theorem diff_stands_together_with_method :
    let old := "class A:\n  def f(): 0\nclass AB: 0\n"
    let new := "import m\nclass A:\n  x = 1\n  def f(): 0 + 1\nclass AB: 0 + 1\n"
    ∃ before after events,
      SourceUnit.read "m.py" "r1" old = .ok before ∧
      SourceUnit.read "m.py" "r1" new = .ok after ∧
      default.diff "m.py" (some old) (some new) "r1" = .ok events ∧
      events.map Event.key = [.module, ⟨"A"⟩, ⟨"A.f"⟩, ⟨"AB"⟩] ∧
      StandsTogether events ⟨"A"⟩ := by
  intro old new
  have seen : ((SourceUnit.read "m.py" "r1" old).toOption.bind fun before =>
      (SourceUnit.read "m.py" "r1" new).toOption.map fun after =>
        (default.report after (blocks before after)).map Event.key) =
      some [.module, ⟨"A"⟩, ⟨"A.f"⟩, ⟨"AB"⟩] := by
    decide +kernel
  obtain ⟨before, after, oldRead, newRead, keys⟩ := exists_ok_of_bind_eq_some seen
  obtain ⟨events, made, together, -⟩ :=
    default.diff_stands_together (by decide +kernel) oldRead newRead
  refine ⟨before, after, events, oldRead, newRead, made, ?_, together ⟨"A"⟩⟩
  rw [default.diff_eq_diffUnits (by decide +kernel) (isExcluded_default _) oldRead newRead,
    default.diffUnits_eq_report (SourceUnit.isRead_of_read oldRead)
      (SourceUnit.isRead_of_read newRead)] at made
  rw [← Except.ok.inj made]
  exact keys

end Engine

end SemanticDiff
