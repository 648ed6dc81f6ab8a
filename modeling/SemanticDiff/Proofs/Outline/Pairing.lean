import Mathlib.Data.List.Nodup
import SemanticDiff.Outline.Pairing
import SemanticDiff.Proofs.Collection.SortedMap

/-!
# Pairing as a join

Pairing two collections gives one pair for every key that occurs in either of
them.  The pair holds the last item of the key on each side.
-/

namespace SemanticDiff.Outline

open SemanticDiff (SortedMap)

variable {α : Type}

/-- The last item of a key. -/
def lastItem? (key : Key) : List (Key × α) → Option α
  | [] => none
  | item :: items =>
      (lastItem? key items).or (if item.1 = key then some item.2 else none)

theorem mem_of_lastItem?_eq_some {key : Key} {items : List (Key × α)} {item : α}
    (found : lastItem? key items = some item) : (key, item) ∈ items := by
  induction items with
  | nil => simp [lastItem?] at found
  | cons first rest ih =>
      rw [lastItem?, Option.or_eq_some_iff] at found
      rcases found with later | ⟨-, here⟩
      · exact List.mem_cons_of_mem _ (ih later)
      · rw [Option.ite_none_right_eq_some] at here
        rcases here with ⟨rfl, same⟩
        cases same
        exact List.mem_cons_self

theorem exists_lastItem?_eq_some {key : Key} {items : List (Key × α)} {item : α}
    (member : (key, item) ∈ items) : ∃ last, lastItem? key items = some last := by
  induction items with
  | nil => simp at member
  | cons first rest ih =>
      rcases List.mem_cons.1 member with rfl | later
      · cases found : lastItem? key rest with
        | none => exact ⟨item, by simp [lastItem?, found]⟩
        | some last => exact ⟨last, by simp [lastItem?, found]⟩
      · obtain ⟨last, found⟩ := ih later
        exact ⟨last, by simp [lastItem?, found]⟩

/-- In a collection with distinct keys every item is the last one of its key. -/
theorem lastItem?_eq_some_iff {key : Key} {items : List (Key × α)} {item : α}
    (distinct : (items.map (·.1)).Nodup) :
    lastItem? key items = some item ↔ (key, item) ∈ items := by
  constructor
  · exact mem_of_lastItem?_eq_some
  · intro member
    obtain ⟨last, found⟩ := exists_lastItem?_eq_some member
    have sameItem := List.inj_on_of_nodup_map distinct member (mem_of_lastItem?_eq_some found) rfl
    rw [found, (Prod.mk.inj sameItem).2]

/-- Storing items one after the other, where a later item of a key covers an
earlier one, leaves the last item of every key. -/
theorem get?_foldl_store {β : Type} (store : β → α → β) (none : β)
    (covers : ∀ held first second, store (store held first) second = store held second)
    (items : List (Key × α)) (map : SortedMap β) (key : Key) :
    (items.foldl (fun map item => map.insert item.1.text
        (store ((map.get? item.1.text).getD none) item.2)) map).get? key.text =
      match lastItem? key items with
      | .none => map.get? key.text
      | some item => some (store ((map.get? key.text).getD none) item) := by
  induction items generalizing map with
  | nil => rfl
  | cons first rest ih =>
      rw [List.foldl_cons, ih, lastItem?]
      have sameKey : key.text = first.1.text ↔ first.1 = key := by
        rcases key with ⟨text⟩
        rcases first with ⟨⟨other⟩, item⟩
        simp [eq_comm]
      by_cases same : first.1 = key
      · cases lastItem? key rest <;> simp [sameKey.2 same, same, covers]
      · have different : key.text ≠ first.1.text := fun equal => same (sameKey.1 equal)
        cases lastItem? key rest <;> simp [different, same]

/-- The sides of a key are its last items. -/
theorem get?_sides (before after : List (Key × α)) (key : Key) :
    (sides before after).get? key.text =
      match lastItem? key before, lastItem? key after with
      | none, none => none
      | old, new => some (old, new) := by
  have storeBefore := get?_foldl_store
    (fun (held : Option α × Option α) item => (some item, held.2)) (none, none)
    (fun _ _ _ => rfl) before SortedMap.empty key
  rw [sides, get?_foldl_store
    (fun (held : Option α × Option α) item => (held.1, some item)) (none, none)
    (fun _ _ _ => rfl) after _ key]
  rw [storeBefore]
  cases lastItem? key before <;> cases lastItem? key after <;> simp

/-- A pair is found exactly when it is made of the last items of its key. -/
theorem mem_pairByKey_iff {before after : List (Key × α)} {pair : Pair α} :
    pair ∈ pairByKey before after ↔
      Pair.ofSides? pair.key (lastItem? pair.key before) (lastItem? pair.key after) =
        some pair := by
  simp only [pairByKey, List.mem_filterMap]
  constructor
  · rintro ⟨⟨text, old, new⟩, member, made⟩
    have keyEq : pair.key = { text } := by
      cases old <;> cases new <;> simp [Pair.ofSides?] at made <;> rw [← made] <;> rfl
    have found := SortedMap.mem_entries_iff.1 member
    rw [show text = pair.key.text by rw [keyEq], get?_sides] at found
    cases oldEq : lastItem? pair.key before <;> cases newEq : lastItem? pair.key after <;>
      simp only [oldEq, newEq, Option.some.injEq, Prod.mk.injEq, reduceCtorEq] at found
    all_goals
      rcases found with ⟨rfl, rfl⟩
      rw [keyEq]
      exact made
  · intro made
    refine ⟨(pair.key.text, lastItem? pair.key before, lastItem? pair.key after), ?_, made⟩
    rw [SortedMap.mem_entries_iff, get?_sides]
    cases oldEq : lastItem? pair.key before <;> cases newEq : lastItem? pair.key after
    all_goals first | rfl | simp [oldEq, newEq, Pair.ofSides?] at made

theorem Pair.key_of_ofSides? {key : Key} {old new : Option α} {pair : Pair α}
    (made : Pair.ofSides? key old new = some pair) : pair.key = key := by
  cases old <;> cases new <;> cases made <;> rfl

/-- The keys of pairs increase. -/
theorem pairwise_pairByKey (before after : List (Key × α)) :
    (pairByKey before after).Pairwise fun first second => first.key.text < second.key.text := by
  apply List.pairwise_filterMap.2
  apply (sides before after).increasing.imp
  intro first second less pair made other otherMade
  rw [Pair.key_of_ofSides? made, Pair.key_of_ofSides? otherMade]
  exact less

end SemanticDiff.Outline
