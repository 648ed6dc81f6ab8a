import SemanticDiff.Collection.SortedMap

/-!
# Lookups in sorted maps

A sorted map is determined by its lookups.  An insertion changes the lookup of
one key, and an entry stands in a map exactly when the lookup of its key gives
its value.
-/

namespace SemanticDiff.SortedMap

variable {α : Type}

@[simp]
theorem get?_empty (key : String) : (empty : SortedMap α).get? key = none :=
  rfl

theorem find?_insertEntry (key other : String) (value : α) (entries : List (String × α)) :
    ((insertEntry key value entries).find? fun entry => entry.1 == other) =
      if other = key then some (key, value)
      else entries.find? fun entry => entry.1 == other := by
  induction entries with
  | nil =>
      by_cases same : other = key
      · simp [insertEntry, same]
      · simp [insertEntry, same, Ne.symm same]
  | cons first rest ih =>
      simp only [insertEntry]
      by_cases same : other = key
      · subst other
        split
        · simp
        · split
          · simp
          · rename_i different
            rw [List.find?_cons_of_neg (by simpa using Ne.symm different), ih]
            simp
      · simp only [same, if_false] at ih ⊢
        split
        · rw [List.find?_cons_of_neg (by simpa using Ne.symm same)]
        · split
          · rename_i replaced
            rw [List.find?_cons_of_neg (by simpa using Ne.symm same),
              List.find?_cons_of_neg (by simpa [← replaced] using Ne.symm same)]
          · rw [List.find?_cons, List.find?_cons, ih]

/-- An insertion changes the lookup of its own key only. -/
@[simp]
theorem get?_insert (map : SortedMap α) (key other : String) (value : α) :
    (map.insert key value).get? other = if other = key then some value else map.get? other := by
  simp only [get?, insert, find?_insertEntry]
  split <;> rfl

/-- An entry stands in a map exactly when it is what its key leads to. -/
theorem mem_entries_iff {map : SortedMap α} {key : String} {value : α} :
    (key, value) ∈ map.entries ↔ map.get? key = some value := by
  rcases map with ⟨entries, increasing⟩
  simp only [get?]
  induction entries with
  | nil => simp
  | cons first rest ih =>
      rcases List.pairwise_cons.1 increasing with ⟨smallest, restIncreasing⟩
      rcases first with ⟨name, held⟩
      by_cases same : name = key
      · subst name
        have absent : (key, value) ∉ rest := fun member =>
          String.lt_irrefl key (smallest _ member)
        simp [absent, eq_comm]
      · rw [List.find?_cons_of_neg (by simpa using same), ← ih restIncreasing]
        simp [Ne.symm same]

theorem mem_keys_iff {map : SortedMap α} {key : String} :
    key ∈ map.keys ↔ map.contains key = true := by
  simp [keys, contains]

/-- The keys of a map increase strictly. -/
theorem pairwise_keys (map : SortedMap α) : map.keys.Pairwise (· < ·) :=
  List.pairwise_map.2 map.increasing

/-- Two lists that increase strictly and have the same members are equal. -/
theorem eq_of_increasing {β : Type} (before : β → β → Prop) {first second : List β}
    (irreflexive : ∀ item, ¬ before item item)
    (transitive : ∀ {a b c}, before a b → before b c → before a c)
    (firstIncreasing : first.Pairwise before) (secondIncreasing : second.Pairwise before)
    (same : ∀ item, item ∈ first ↔ item ∈ second) : first = second := by
  have nodup {items : List β} (increasing : items.Pairwise before) : items.Nodup := by
    apply increasing.imp
    rintro a _ less rfl
    exact irreflexive a less
  refine List.Perm.eq_of_pairwise (fun a b _ _ ab ba => ?_) firstIncreasing secondIncreasing
    ((List.perm_ext_iff_of_nodup (nodup firstIncreasing) (nodup secondIncreasing)).2 same)
  exact absurd (transitive ab ba) (irreflexive a)

/-- A map is determined by its lookups. -/
theorem ext_get? {first second : SortedMap α}
    (same : ∀ key, first.get? key = second.get? key) : first = second := by
  apply SortedMap.ext
  refine eq_of_increasing (fun a b : String × α => a.1 < b.1)
    (fun entry => String.lt_irrefl entry.1) String.lt_trans first.increasing
    second.increasing ?_
  rintro ⟨key, value⟩
  rw [mem_entries_iff, mem_entries_iff, same]

/-- Storing entries one after the other keeps what is stored under other keys. -/
theorem get?_foldl_insert {entries : List (String × α)} (distinct : (entries.map Prod.fst).Nodup)
    (map : SortedMap α) (key : String) (value : α) :
    (entries.foldl (fun map entry => map.insert entry.1 entry.2) map).get? key = some value ↔
      (key, value) ∈ entries ∨ key ∉ entries.map Prod.fst ∧ map.get? key = some value := by
  induction entries generalizing map with
  | nil => simp
  | cons entry rest ih =>
      rcases List.nodup_cons.1 distinct with ⟨new, restDistinct⟩
      rcases entry with ⟨name, held⟩
      rw [List.foldl_cons, ih restDistinct, get?_insert]
      by_cases same : key = name
      · subst name
        have absent : (key, value) ∉ rest := fun member =>
          new (List.mem_map.2 ⟨_, member, rfl⟩)
        simp [absent, show key ∉ rest.map Prod.fst from new, eq_comm]
      · simp [same]

/-- A map made of entries with distinct keys has just these entries. -/
theorem get?_ofList_eq_some_iff {entries : List (String × α)}
    (distinct : (entries.map Prod.fst).Nodup) {key : String} {value : α} :
    (ofList entries).get? key = some value ↔ (key, value) ∈ entries := by
  rw [ofList, get?_foldl_insert distinct]
  simp

section

variable {β : Type} (change : α → β) (map : SortedMap α)

theorem get?_map (key : String) : (map.map change).get? key = (map.get? key).map change := by
  rw [get?, SortedMap.map, List.find?_map, Option.map_map, get?, Option.map_map]
  rfl

theorem values_map : (map.map change).values = map.values.map change := by
  rw [values, SortedMap.map, List.map_map, values, List.map_map]
  rfl

end

/-- Maps have the same list of keys exactly when they have values for the same
keys. -/
theorem keys_eq_keys_iff {β : Type} {first : SortedMap α} {second : SortedMap β} :
    first.keys = second.keys ↔
      ∀ key, first.contains key = true ↔ second.contains key = true := by
  constructor
  · intro same key
    rw [← mem_keys_iff, ← mem_keys_iff, same]
  · intro same
    refine eq_of_increasing (· < ·) String.lt_irrefl String.lt_trans first.pairwise_keys
      second.pairwise_keys fun key => ?_
    rw [mem_keys_iff, mem_keys_iff, same]

end SemanticDiff.SortedMap
