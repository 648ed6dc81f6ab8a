import SemanticDiff.Proofs.Outline.Pairing
import SemanticDiff.Proofs.Outline.Units
import SemanticDiff.Proofs.Text.ByteOrder

/-!
# The full join of two collections

What the join of two collections is can be said without the way it is made: its keys
increase, every key of either collection has a pair, and the pair has the last items of
the key.  There is only one such list.  So it does not matter which of the collections
comes first, nor in which order one with distinct keys is given.  The nodes of a unit
have distinct keys, and each of them is in exactly one pair.
-/

namespace SemanticDiff.Outline

open SemanticDiff (SortedMap)
open SemanticDiff.Text (bytesOf bytesOf_lt_iff)

section

variable {α : Type}

/-! ## Last items -/

/-- The item is the last one of the key. -/
def IsLast (key : Key) (item : α) (items : List (Key × α)) : Prop :=
  ∃ earlier later, items = earlier ++ (key, item) :: later ∧ key ∉ later.map Prod.fst

variable {key : Key} {items : List (Key × α)}

theorem lastItem?_eq_none_iff : lastItem? key items = none ↔ key ∉ items.map Prod.fst := by
  induction items with
  | nil => simp [lastItem?]
  | cons first rest ih =>
      rw [lastItem?, Option.or_eq_none_iff, ih, List.map_cons, List.mem_cons, not_or, and_comm]
      simp [eq_comm]

theorem lastItem?_eq_some_iff_isLast {item : α} :
    lastItem? key items = some item ↔ IsLast key item items := by
  induction items with
  | nil => simp [lastItem?, IsLast]
  | cons first rest ih =>
      rw [lastItem?, Option.or_eq_some_iff, ih, lastItem?_eq_none_iff]
      constructor
      · rintro (⟨earlier, later, rfl, last⟩ | ⟨last, here⟩)
        · exact ⟨first :: earlier, later, rfl, last⟩
        · rw [Option.ite_none_right_eq_some] at here
          rcases here with ⟨rfl, same⟩
          cases same
          exact ⟨[], rest, rfl, last⟩
      · rintro ⟨earlier, later, split, last⟩
        cases earlier with
        | nil =>
            obtain ⟨rfl, rfl⟩ := List.cons.inj split
            exact Or.inr ⟨last, by simp⟩
        | cons other earlier =>
            obtain ⟨rfl, rfl⟩ := List.cons.inj split
            exact Or.inl ⟨earlier, later, rfl, last⟩

/-- The order of items with distinct keys does not matter. -/
theorem lastItem?_eq_of_perm {others : List (Key × α)} (perm : items.Perm others)
    (distinct : (items.map Prod.fst).Nodup) (key : Key) :
    lastItem? key others = lastItem? key items := by
  apply Option.ext
  intro item
  rw [lastItem?_eq_some_iff distinct,
    lastItem?_eq_some_iff ((perm.map Prod.fst).nodup_iff.1 distinct), perm.mem_iff]

/-! ## Joins -/

/-- The pairs are the join of two collections. -/
structure IsJoin (before after : List (Key × α)) (pairs : List (Pair α)) : Prop where
  increasing : pairs.Pairwise fun first second =>
    bytesOf first.key.text < bytesOf second.key.text
  occurs : ∀ key, key ∈ pairs.map Pair.key ↔
    key ∈ before.map Prod.fst ∨ key ∈ after.map Prod.fst
  matched : ∀ key old new, .matched key old new ∈ pairs ↔
    IsLast key old before ∧ IsLast key new after
  removed : ∀ key old, .removed key old ∈ pairs ↔
    IsLast key old before ∧ key ∉ after.map Prod.fst
  added : ∀ key new, .added key new ∈ pairs ↔
    key ∉ before.map Prod.fst ∧ IsLast key new after

variable {before after : List (Key × α)}

theorem matched_mem_pairByKey_iff {old new : α} :
    .matched key old new ∈ pairByKey before after ↔
      lastItem? key before = some old ∧ lastItem? key after = some new := by
  rw [mem_pairByKey_iff, Pair.key]
  cases lastItem? key before <;> cases lastItem? key after <;> simp [Pair.ofSides?]

theorem removed_mem_pairByKey_iff {old : α} :
    .removed key old ∈ pairByKey before after ↔
      lastItem? key before = some old ∧ lastItem? key after = none := by
  rw [mem_pairByKey_iff, Pair.key]
  cases lastItem? key before <;> cases lastItem? key after <;> simp [Pair.ofSides?]

theorem added_mem_pairByKey_iff {new : α} :
    .added key new ∈ pairByKey before after ↔
      lastItem? key before = none ∧ lastItem? key after = some new := by
  rw [mem_pairByKey_iff, Pair.key]
  cases lastItem? key before <;> cases lastItem? key after <;> simp [Pair.ofSides?]

theorem Pair.sides_of_ofSides? {old new : Option α} {pair : Pair α}
    (made : Pair.ofSides? key old new = some pair) : pair.before? = old ∧ pair.after? = new := by
  cases old <;> cases new <;> cases made <;> exact ⟨rfl, rfl⟩

/-- The sides of a pair are the last items of its key. -/
theorem sides_of_mem_pairByKey {pair : Pair α} (member : pair ∈ pairByKey before after) :
    pair.before? = lastItem? pair.key before ∧ pair.after? = lastItem? pair.key after :=
  Pair.sides_of_ofSides? (mem_pairByKey_iff.1 member)

/-- A pair is that of a key with at least one item. -/
theorem mem_map_key_pairByKey_iff :
    key ∈ (pairByKey before after).map Pair.key ↔
      key ∈ before.map Prod.fst ∨ key ∈ after.map Prod.fst := by
  rw [← not_iff_not, not_or, ← lastItem?_eq_none_iff, ← lastItem?_eq_none_iff, List.mem_map]
  constructor
  · intro absent
    cases old : lastItem? key before with
    | none =>
        cases new : lastItem? key after with
        | none => exact ⟨rfl, rfl⟩
        | some _ => exact absurd ⟨_, added_mem_pairByKey_iff.2 ⟨old, new⟩, rfl⟩ absent
    | some _ =>
        cases new : lastItem? key after with
        | none => exact absurd ⟨_, removed_mem_pairByKey_iff.2 ⟨old, new⟩, rfl⟩ absent
        | some _ => exact absurd ⟨_, matched_mem_pairByKey_iff.2 ⟨old, new⟩, rfl⟩ absent
  · rintro ⟨noOld, noNew⟩ ⟨pair, member, rfl⟩
    rw [mem_pairByKey_iff, noOld, noNew] at member
    cases member

theorem isJoin_pairByKey (before after : List (Key × α)) :
    IsJoin before after (pairByKey before after) where
  increasing := (pairwise_pairByKey before after).imp fun less => bytesOf_lt_iff.2 less
  occurs key := mem_map_key_pairByKey_iff
  matched key old new := by
    rw [matched_mem_pairByKey_iff, lastItem?_eq_some_iff_isLast, lastItem?_eq_some_iff_isLast]
  removed key old := by
    rw [removed_mem_pairByKey_iff, lastItem?_eq_some_iff_isLast, lastItem?_eq_none_iff]
  added key new := by
    rw [added_mem_pairByKey_iff, lastItem?_eq_some_iff_isLast, lastItem?_eq_none_iff]

/-- There is one list of increasing keys with given pairs. -/
theorem eq_of_increasing_key {pairs others : List (Pair α)}
    (increasing : pairs.Pairwise fun first second => first.key.text < second.key.text)
    (othersIncreasing : others.Pairwise fun first second => first.key.text < second.key.text)
    (same : ∀ pair, pair ∈ pairs ↔ pair ∈ others) : pairs = others :=
  SortedMap.eq_of_increasing (fun first second : Pair α => first.key.text < second.key.text)
    (fun pair => String.lt_irrefl pair.key.text) String.lt_trans increasing othersIncreasing same

/-- The join depends on the last items only. -/
theorem pairByKey_congr {before' after' : List (Key × α)}
    (sameBefore : ∀ key, lastItem? key before' = lastItem? key before)
    (sameAfter : ∀ key, lastItem? key after' = lastItem? key after) :
    pairByKey before' after' = pairByKey before after := by
  apply eq_of_increasing_key (pairwise_pairByKey before' after') (pairwise_pairByKey before after)
  intro pair
  rw [mem_pairByKey_iff, mem_pairByKey_iff, sameBefore, sameAfter]

/-! ## The two sides -/

namespace Pair

/-- The pair seen from the other side. -/
def swap : Pair α → Pair α
  | added key after => removed key after
  | removed key before => added key before
  | matched key before after => matched key after before

@[simp]
theorem swap_swap (pair : Pair α) : pair.swap.swap = pair := by
  cases pair <;> rfl

@[simp]
theorem key_swap (pair : Pair α) : pair.swap.key = pair.key := by
  cases pair <;> rfl

theorem mem_map_swap_iff {pairs : List (Pair α)} {pair : Pair α} :
    pair ∈ pairs.map swap ↔ pair.swap ∈ pairs := by
  constructor
  · intro member
    rcases List.mem_map.1 member with ⟨other, otherMem, rfl⟩
    rwa [swap_swap]
  · intro member
    exact List.mem_map.2 ⟨pair.swap, member, pair.swap_swap⟩

end Pair

/-- The collections can change sides. -/
theorem pairByKey_swap (before after : List (Key × α)) :
    pairByKey after before = (pairByKey before after).map Pair.swap := by
  apply eq_of_increasing_key (pairwise_pairByKey after before)
  · apply List.pairwise_map.2
    apply (pairwise_pairByKey before after).imp
    intro first second less
    rwa [Pair.key_swap, Pair.key_swap]
  · intro pair
    rw [Pair.mem_map_swap_iff]
    cases pair with
    | added key new =>
        rw [Pair.swap, added_mem_pairByKey_iff, removed_mem_pairByKey_iff, and_comm]
    | removed key old =>
        rw [Pair.swap, added_mem_pairByKey_iff, removed_mem_pairByKey_iff, and_comm]
    | matched key old new =>
        rw [Pair.swap, matched_mem_pairByKey_iff, matched_mem_pairByKey_iff, and_comm]

end

/-! ## Nodes of units -/

namespace SourceUnit

variable {unit before after : SourceUnit}

/-- The last node of a key is the node of the key. -/
theorem IsRead.lastItem?_eq_some_iff (isRead : unit.IsRead) {key : Key} {node : Node} :
    lastItem? key (unit.nodes.map fun node => (node.key, node)) = some node ↔
      node ∈ unit.nodes ∧ node.key = key := by
  rw [Outline.lastItem?_eq_some_iff]
  · constructor
    · intro member
      rcases List.mem_map.1 member with ⟨other, otherMem, same⟩
      cases same
      exact ⟨otherMem, rfl⟩
    · rintro ⟨member, rfl⟩
      exact List.mem_map.2 ⟨node, member, rfl⟩
  · rw [List.map_map]
    exact isRead.nodup_keys

theorem IsRead.lastItem?_eq_none_iff (isRead : unit.IsRead) {key : Key} :
    lastItem? key (unit.nodes.map fun node => (node.key, node)) = none ↔
      ∀ node ∈ unit.nodes, node.key ≠ key := by
  rw [Option.eq_none_iff_forall_ne_some]
  simp only [ne_eq, isRead.lastItem?_eq_some_iff, not_and]

/-- On one side of the pairs that have the last nodes of their keys there, every node stands
once. -/
theorem IsRead.existsUnique_side (isRead : unit.IsRead) {pairs : List (Pair Node)}
    (increasing : pairs.Pairwise fun first second => first.key.text < second.key.text)
    {side : Pair Node → Option Node}
    (holds : ∀ pair ∈ pairs, side pair =
      lastItem? pair.key (unit.nodes.map fun node => (node.key, node)))
    (present : ∀ node ∈ unit.nodes, node.key ∈ pairs.map Pair.key) {node : Node}
    (member : node ∈ unit.nodes) :
    ∃! i : Fin pairs.length, side (pairs.get i) = some node := by
  have here (i) : side (pairs.get i) = some node ↔ (pairs.get i).key = node.key := by
    rw [holds _ (List.get_mem pairs i), isRead.lastItem?_eq_some_iff, and_iff_right member, eq_comm]
  obtain ⟨pair, pairMem, sameKey⟩ := List.mem_map.1 (present node member)
  obtain ⟨i, rfl⟩ := List.get_of_mem pairMem
  refine ⟨i, (here i).2 sameKey, ?_⟩
  intro j otherHolds
  have same : (pairs.get j).key.text = (pairs.get i).key.text := by
    rw [(here j).1 otherHolds, sameKey]
  have apart := List.pairwise_iff_get.1 increasing
  rcases Nat.lt_trichotomy j i with less | equal | greater
  · exact absurd (same ▸ apart j i less) (String.lt_irrefl _)
  · exact Fin.ext equal
  · exact absurd (same ▸ apart i j greater) (String.lt_irrefl _)

end SourceUnit

section

variable {before after : SourceUnit}

theorem matched_mem_matchUnits_iff (beforeRead : before.IsRead) (afterRead : after.IsRead)
    {key : Key} {old new : Node} :
    .matched key old new ∈ matchUnits before after ↔
      (old ∈ before.nodes ∧ old.key = key) ∧ new ∈ after.nodes ∧ new.key = key := by
  rw [matchUnits, matched_mem_pairByKey_iff, beforeRead.lastItem?_eq_some_iff,
    afterRead.lastItem?_eq_some_iff]

theorem removed_mem_matchUnits_iff (beforeRead : before.IsRead) (afterRead : after.IsRead)
    {key : Key} {old : Node} :
    .removed key old ∈ matchUnits before after ↔
      (old ∈ before.nodes ∧ old.key = key) ∧ ∀ new ∈ after.nodes, new.key ≠ key := by
  rw [matchUnits, removed_mem_pairByKey_iff, beforeRead.lastItem?_eq_some_iff,
    afterRead.lastItem?_eq_none_iff]

theorem added_mem_matchUnits_iff (beforeRead : before.IsRead) (afterRead : after.IsRead)
    {key : Key} {new : Node} :
    .added key new ∈ matchUnits before after ↔
      (new ∈ after.nodes ∧ new.key = key) ∧ ∀ old ∈ before.nodes, old.key ≠ key := by
  rw [matchUnits, added_mem_pairByKey_iff, beforeRead.lastItem?_eq_none_iff,
    afterRead.lastItem?_eq_some_iff, and_comm]

/-- The pairs of two units have every node of either unit on one side of one pair. -/
theorem existsUnique_pair_of_mem_nodes (beforeRead : before.IsRead) (afterRead : after.IsRead) :
    (∀ node ∈ before.nodes,
      ∃! i : Fin (matchUnits before after).length,
        ((matchUnits before after).get i).before? = some node) ∧
    ∀ node ∈ after.nodes,
      ∃! i : Fin (matchUnits before after).length,
        ((matchUnits before after).get i).after? = some node := by
  have increasing := pairwise_pairByKey (before.nodes.map fun node => (node.key, node))
    (after.nodes.map fun node => (node.key, node))
  constructor
  · intro node member
    apply beforeRead.existsUnique_side increasing
      (fun pair pairMem => (sides_of_mem_pairByKey pairMem).1) _ member
    intro other otherMem
    apply mem_map_key_pairByKey_iff.2
    exact Or.inl (by simpa using ⟨other, otherMem, rfl⟩)
  · intro node member
    apply afterRead.existsUnique_side increasing
      (fun pair pairMem => (sides_of_mem_pairByKey pairMem).2) _ member
    intro other otherMem
    apply mem_map_key_pairByKey_iff.2
    exact Or.inr (by simpa using ⟨other, otherMem, rfl⟩)

end

/-- Pairing makes the join of two collections.  If these change sides, so do the items of
every pair, and a collection with distinct keys can be given in any order.  Every node of
two units is in exactly one pair. -/
theorem pairByKey_isFullJoin :
    (∀ (α : Type) (before after : List (Key × α)),
      IsJoin before after (pairByKey before after) ∧
      pairByKey after before = (pairByKey before after).map Pair.swap ∧
      (∀ others, before.Perm others → (before.map Prod.fst).Nodup →
        pairByKey others after = pairByKey before after) ∧
      ∀ others, after.Perm others → (after.map Prod.fst).Nodup →
        pairByKey before others = pairByKey before after) ∧
    ∀ before after : SourceUnit, before.IsRead → after.IsRead →
      (∀ node ∈ before.nodes,
        ∃! i : Fin (matchUnits before after).length,
          ((matchUnits before after).get i).before? = some node) ∧
      ∀ node ∈ after.nodes,
        ∃! i : Fin (matchUnits before after).length,
          ((matchUnits before after).get i).after? = some node := by
  constructor
  · intro α before after
    refine ⟨isJoin_pairByKey before after, pairByKey_swap before after, ?_, ?_⟩
    · intro others perm distinct
      exact pairByKey_congr (lastItem?_eq_of_perm perm distinct) fun _ => rfl
    · intro others perm distinct
      exact pairByKey_congr (fun _ => rfl) (lastItem?_eq_of_perm perm distinct)
  · intro before after beforeRead afterRead
    exact existsUnique_pair_of_mem_nodes beforeRead afterRead

/-- A collection with a repeated key and one with distinct keys, then two units of which
each has a definition that the other one lacks. -/
theorem pairByKey_isFullJoin_repeated :
    (let before : List (Key × Nat) := [(⟨"b"⟩, 0), (⟨"a"⟩, 1), (⟨"b"⟩, 2)]
      let after : List (Key × Nat) := [(⟨"new"⟩, 3), (⟨"a"⟩, 4)]
      pairByKey before after = [.matched ⟨"a"⟩ 1 4, .removed ⟨"b"⟩ 2, .added ⟨"new"⟩ 3] ∧
        IsJoin before after (pairByKey before after) ∧
        pairByKey after before = (pairByKey before after).map Pair.swap ∧
        pairByKey after.reverse before = pairByKey after before ∧
        pairByKey before after.reverse = pairByKey before after) ∧
    ∃ before after, SourceUnit.read "m.py" "r1" "def f(): 0\ndef g(): 0\n" = .ok before ∧
      SourceUnit.read "m.py" "r1" "def g(): 0\nclass C: 0\n" = .ok after ∧
      (matchUnits before after).map Pair.key = [.module, ⟨"C"⟩, ⟨"f"⟩, ⟨"g"⟩] ∧
      before.root ∈ before.nodes ∧
      (∃! i : Fin (matchUnits before after).length,
        ((matchUnits before after).get i).before? = some before.root) ∧
      after.root ∈ after.nodes ∧
      ∃! i : Fin (matchUnits before after).length,
        ((matchUnits before after).get i).after? = some after.root := by
  constructor
  · intro before after
    have distinct : (after.map Prod.fst).Nodup := by decide
    obtain ⟨isJoin, swapped, -, ofAfter⟩ := pairByKey_isFullJoin.1 Nat before after
    obtain ⟨-, -, ofBefore, -⟩ := pairByKey_isFullJoin.1 Nat after before
    have perm : after.Perm after.reverse := after.reverse_perm.symm
    exact ⟨by decide +kernel, isJoin, swapped, ofBefore _ perm distinct, ofAfter _ perm distinct⟩
  · have seen : ((SourceUnit.read "m.py" "r1" "def f(): 0\ndef g(): 0\n").toOption.bind
        fun before => (SourceUnit.read "m.py" "r1" "def g(): 0\nclass C: 0\n").toOption.map
          fun after => (matchUnits before after).map Pair.key) =
        some [.module, ⟨"C"⟩, ⟨"f"⟩, ⟨"g"⟩] := by
      decide +kernel
    obtain ⟨before, after, oldMade, newMade, keys⟩ := exists_ok_of_bind_eq_some seen
    have beforeRead := SourceUnit.isRead_of_read oldMade
    have afterRead := SourceUnit.isRead_of_read newMade
    obtain ⟨ofBefore, ofAfter⟩ := pairByKey_isFullJoin.2 before after beforeRead afterRead
    exact ⟨before, after, oldMade, newMade, keys, beforeRead.root_mem_nodes,
      ofBefore _ beforeRead.root_mem_nodes, afterRead.root_mem_nodes,
      ofAfter _ afterRead.root_mem_nodes⟩

end SemanticDiff.Outline
