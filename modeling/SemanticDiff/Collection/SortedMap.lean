/-!
# Sorted maps

A finite map from texts to values, kept as a list of entries with strictly
increasing keys.  Since UTF-8 keeps the order of code points, the order of keys
is also that of their bytes.  Two maps are equal exactly when their entries are.
-/

namespace SemanticDiff

/-- The keys of a list of entries increase strictly. -/
def IncreasingKeys {α : Type} (entries : List (String × α)) : Prop :=
  entries.Pairwise fun first second => first.1 < second.1

/-- A map from texts to values with its entries in the order of their keys. -/
structure SortedMap (α : Type) where
  entries : List (String × α)
  increasing : IncreasingKeys entries

namespace SortedMap

variable {α : Type}

instance [DecidableEq α] : DecidableEq (SortedMap α) := fun first second =>
  decidable_of_iff (first.entries = second.entries)
    ⟨fun same => by cases first; cases second; cases same; rfl, fun same => by rw [same]⟩

/-- Maps with the same entries are equal. -/
@[ext]
theorem ext {first second : SortedMap α} (same : first.entries = second.entries) :
    first = second := by
  cases first; cases second; cases same; rfl

/-- The map without entries. -/
def empty : SortedMap α where
  entries := []
  increasing := List.Pairwise.nil

/-- Put an entry into its place; the entry with the same key is replaced. -/
def insertEntry (key : String) (value : α) : List (String × α) → List (String × α)
  | [] => [(key, value)]
  | entry :: rest =>
      if key < entry.1 then (key, value) :: entry :: rest
      else if key = entry.1 then (key, value) :: rest
      else entry :: insertEntry key value rest

/-- The entries after an insertion are the new one and older ones. -/
theorem mem_insertEntry {key : String} {value : α} {entries : List (String × α)}
    {entry : String × α} (member : entry ∈ insertEntry key value entries) :
    entry = (key, value) ∨ entry ∈ entries := by
  induction entries with
  | nil => simpa [insertEntry] using member
  | cons first rest ih =>
      simp only [insertEntry] at member
      split at member
      · simpa using member
      · split at member
        · rcases List.mem_cons.1 member with same | older
          · exact Or.inl same
          · exact Or.inr (List.mem_cons_of_mem _ older)
        · rcases List.mem_cons.1 member with same | older
          · exact Or.inr (same ▸ List.mem_cons_self)
          · rcases ih older with same | older
            · exact Or.inl same
            · exact Or.inr (List.mem_cons_of_mem _ older)

/-- An insertion keeps the keys increasing. -/
theorem increasing_insertEntry {key : String} {value : α} {entries : List (String × α)}
    (increasing : IncreasingKeys entries) :
    IncreasingKeys (insertEntry key value entries) := by
  induction entries with
  | nil => simp [insertEntry, IncreasingKeys]
  | cons first rest ih =>
      obtain ⟨smallest, restIncreasing⟩ := List.pairwise_cons.1 increasing
      simp only [insertEntry]
      split
      · rename_i before
        refine List.pairwise_cons.2 ⟨fun entry member => ?_, increasing⟩
        rcases List.mem_cons.1 member with same | later
        · exact same ▸ before
        · exact String.lt_trans before (smallest entry later)
      · split
        · rename_i same
          exact List.pairwise_cons.2
            ⟨fun entry member => by simpa [same] using smallest entry member, restIncreasing⟩
        · rename_i notBefore notSame
          refine List.pairwise_cons.2 ⟨fun entry member => ?_, ih restIncreasing⟩
          rcases mem_insertEntry member with same | later
          · rcases Std.lt_trichotomy first.1 key with before | equal | after
            · exact same ▸ before
            · exact absurd equal.symm notSame
            · exact absurd after notBefore
          · exact smallest entry later

/-- Set the value of a key. -/
def insert (map : SortedMap α) (key : String) (value : α) : SortedMap α where
  entries := insertEntry key value map.entries
  increasing := increasing_insertEntry map.increasing

/-- The value of a key. -/
def get? (map : SortedMap α) (key : String) : Option α :=
  (map.entries.find? fun entry => entry.1 == key).map (·.2)

/-- Whether a key has a value. -/
def contains (map : SortedMap α) (key : String) : Bool :=
  map.entries.any fun entry => entry.1 == key

/-- The keys in increasing order. -/
def keys (map : SortedMap α) : List String :=
  map.entries.map (·.1)

/-- The values in the order of their keys. -/
def values (map : SortedMap α) : List α :=
  map.entries.map (·.2)

/-- Change all values. -/
def map {β : Type} (change : α → β) (map : SortedMap α) : SortedMap β where
  entries := map.entries.map fun entry => (entry.1, change entry.2)
  increasing := List.pairwise_map.2 (map.increasing.imp id)

/-- The map of a list of entries; of entries with one key the last one stays. -/
def ofList (entries : List (String × α)) : SortedMap α :=
  entries.foldl (fun map entry => map.insert entry.1 entry.2) empty

end SortedMap

end SemanticDiff
