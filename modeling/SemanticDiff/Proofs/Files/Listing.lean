import Mathlib.Data.List.Nodup
import SemanticDiff.Files.Disk

/-!
# What stands below a directory

Names lead from a directory to what stands below it.  Where the entries of every directory
have different names, the names lead to one entry at most, and this is the entry that is
found by following them.  The files that are listed are those that some names lead to,
without going through a directory that is not entered.
-/

namespace SemanticDiff.Files

/-- A text that can be the name of an entry. -/
structure IsFileName (name : String) : Prop where
  nonempty : name ≠ ""
  here : name ≠ "."
  up : name ≠ ".."
  slash : '/' ∉ name.toList

instance (name : String) : Decidable (IsFileName name) :=
  decidable_of_iff (name ≠ "" ∧ name ≠ "." ∧ name ≠ ".." ∧ '/' ∉ name.toList)
    ⟨fun ⟨nonempty, here, up, slash⟩ => ⟨nonempty, here, up, slash⟩,
      fun ⟨nonempty, here, up, slash⟩ => ⟨nonempty, here, up, slash⟩⟩

namespace Entry

/-- Names lead from an entry to one that stands below it. -/
inductive Reaches : Entry → List String → Entry → Prop
  | here (entry : Entry) : Reaches entry [] entry
  | under {entries : List (String × Entry)} {name : String} {names : List String}
      {child own : Entry} (listed : (name, child) ∈ entries) (reaches : Reaches child names own) :
      Reaches (.directory entries) (name :: names) own

/-- The entry is made of regular files and directories, and the entries of a directory
have names of their own. -/
inductive IsTree : Entry → Prop
  | file (content : ByteArray) : IsTree (.file content)
  | directory {entries : List (String × Entry)} (distinct : (entries.map Prod.fst).Nodup)
      (named : ∀ entry ∈ entries, IsFileName entry.1) (inside : ∀ entry ∈ entries, IsTree entry.2) :
      IsTree (.directory entries)

section

variable {entry own : Entry} {entries : List (String × Entry)} {name : String}
  {names : List String}

theorem reaches_nil_iff : entry.Reaches [] own ↔ own = entry := by
  constructor
  · rintro ⟨⟩
    rfl
  · rintro rfl
    exact .here own

theorem reaches_cons_iff : (directory entries).Reaches (name :: names) own ↔
    ∃ child, (name, child) ∈ entries ∧ child.Reaches names own := by
  constructor
  · intro reaches
    cases reaches with
    | under listed reaches => exact ⟨_, listed, reaches⟩
  · rintro ⟨child, listed, reaches⟩
    exact .under listed reaches

/-- Only directories have entries. -/
theorem Reaches.eq_nil {content : ByteArray} (reaches : (file content).Reaches names own) :
    names = [] := by
  cases reaches
  rfl

/-- A file stands below the first entry of a directory or below another one. -/
theorem reaches_file_cons_iff {entry : String × Entry} {content : ByteArray} :
    (directory (entry :: entries)).Reaches names (.file content) ↔
      (∃ rest, names = entry.1 :: rest ∧ entry.2.Reaches rest (.file content)) ∨
        (directory entries).Reaches names (.file content) := by
  cases names with
  | nil => simp [reaches_nil_iff]
  | cons name names =>
      rcases entry with ⟨first, own⟩
      simp only [reaches_cons_iff, List.mem_cons, Prod.mk.injEq, List.cons.injEq]
      constructor
      · rintro ⟨child, ⟨rfl, rfl⟩ | listed, reaches⟩
        · exact Or.inl ⟨names, ⟨rfl, rfl⟩, reaches⟩
        · exact Or.inr ⟨child, listed, reaches⟩
      · rintro (⟨rest, ⟨rfl, rfl⟩, reaches⟩ | ⟨child, listed, reaches⟩)
        · exact ⟨own, Or.inl ⟨rfl, rfl⟩, reaches⟩
        · exact ⟨child, Or.inr listed, reaches⟩

theorem not_reaches_file_of_nullDevice {content : ByteArray} :
    ¬nullDevice.Reaches names (.file content) := by
  intro reaches
  cases reaches

/-- An entry whose name no other one has is found by its name. -/
theorem lookup_eq_some_iff (distinct : (entries.map Prod.fst).Nodup) :
    entries.lookup name = some own ↔ (name, own) ∈ entries := by
  induction entries with
  | nil => simp
  | cons entry entries ih =>
      rcases entry with ⟨first, content⟩
      rcases List.nodup_cons.1 distinct with ⟨new, rest⟩
      by_cases same : name = first
      · subst first
        have absent : (name, own) ∉ entries := fun listed =>
          new (List.mem_map.2 ⟨_, listed, rfl⟩)
        simp [absent, eq_comm]
      · have different : (name == first) = false := beq_eq_false_iff_ne.2 same
        rw [List.lookup_cons, different, ih rest]
        simp [same]

/-- Following names comes to the entry that they lead to. -/
theorem IsTree.get?_eq_some_iff (tree : entry.IsTree) :
    entry.get? names = some own ↔ entry.Reaches names own := by
  induction tree generalizing names with
  | file content =>
      cases names with
      | nil => rw [reaches_nil_iff, get?, Option.some.injEq, eq_comm]
      | cons name names => exact iff_of_false nofun fun reaches => by cases reaches.eq_nil
  | @directory entries distinct _ _ ih =>
      cases names with
      | nil => rw [reaches_nil_iff, get?, Option.some.injEq, eq_comm]
      | cons name names =>
          rw [reaches_cons_iff, get?, child?, Option.bind_eq_some_iff]
          refine exists_congr fun child => ?_
          rw [lookup_eq_some_iff distinct]
          exact and_congr_right fun listed => ih _ listed

/-- Names lead to one entry at most. -/
theorem IsTree.eq_of_reaches (tree : entry.IsTree) {other : Entry}
    (first : entry.Reaches names own) (second : entry.Reaches names other) : own = other :=
  Option.some.inj ((tree.get?_eq_some_iff.2 first).symm.trans (tree.get?_eq_some_iff.2 second))

/-- What stands below a tree is a tree, under names that are such. -/
theorem IsTree.of_reaches (tree : entry.IsTree) (reaches : entry.Reaches names own) :
    own.IsTree ∧ ∀ name ∈ names, IsFileName name := by
  induction reaches with
  | here => exact ⟨tree, List.forall_mem_nil _⟩
  | under listed _ ih =>
      cases tree with
      | directory _ named inside =>
          obtain ⟨ownTree, others⟩ := ih (inside _ listed)
          exact ⟨ownTree, List.forall_mem_cons.2 ⟨named _ listed, others⟩⟩

end

/-! ## Listed files -/

section

variable {enters : String → Bool}

mutual

/-- The names that are listed for an entry lead to files, and not through a directory that
is not entered. -/
theorem mem_filesAt_iff {name : String} {names : List String} : (entry : Entry) →
    (names ∈ entry.filesAt enters name ↔
      ∃ rest, names = name :: rest ∧ (∃ content, entry.Reaches rest (.file content)) ∧
        ∀ directory ∈ names.dropLast, enters directory = true)
  | .file content => by
      rw [filesAt, List.mem_singleton]
      constructor
      · rintro rfl
        exact ⟨[], rfl, ⟨content, .here _⟩, by simp⟩
      · rintro ⟨rest, rfl, ⟨own, reaches⟩, -⟩
        rw [reaches.eq_nil]
  | .directory entries => by
      have inside {rest : List String} := @mem_filesAmong_iff rest entries
      rw [filesAt]
      split
      · rename_i entered
        rw [List.mem_map]
        refine exists_congr fun rest => ?_
        rw [inside, eq_comm, and_comm, and_congr_right_iff]
        rintro rfl
        rw [and_congr_right_iff]
        rintro ⟨content, reaches⟩
        cases reaches with
        | under => rw [List.dropLast_cons_cons, List.forall_mem_cons, and_iff_right entered]
      · rename_i shut
        refine iff_of_false (List.not_mem_nil) ?_
        rintro ⟨rest, rfl, ⟨content, reaches⟩, entered⟩
        cases reaches with
        | under => exact shut (entered name List.mem_cons_self)
  | .nullDevice => by
      rw [filesAt]
      refine iff_of_false List.not_mem_nil ?_
      rintro ⟨rest, rfl, ⟨content, reaches⟩, -⟩
      exact not_reaches_file_of_nullDevice reaches

theorem mem_filesAmong_iff {names : List String} : (entries : List (String × Entry)) →
    (names ∈ filesAmong enters entries ↔
      (∃ content, (directory entries).Reaches names (.file content)) ∧
        ∀ directory ∈ names.dropLast, enters directory = true)
  | [] => by
      refine iff_of_false List.not_mem_nil ?_
      rintro ⟨⟨content, reaches⟩, -⟩
      cases reaches with
      | under listed => cases listed
  | entry :: entries => by
      rw [filesAmong, List.mem_append, mem_filesOf_iff entry, mem_filesAmong_iff entries]
      simp only [reaches_file_cons_iff, exists_or, or_and_right]
      refine or_congr ?_ Iff.rfl
      constructor
      · rintro ⟨rest, same, ⟨content, reaches⟩, entered⟩
        exact ⟨⟨content, rest, same, reaches⟩, entered⟩
      · rintro ⟨⟨content, rest, same, reaches⟩, entered⟩
        exact ⟨rest, same, ⟨content, reaches⟩, entered⟩

theorem mem_filesOf_iff {names : List String} : (entry : String × Entry) →
    (names ∈ filesOf enters entry ↔
      ∃ rest, names = entry.1 :: rest ∧ (∃ content, entry.2.Reaches rest (.file content)) ∧
        ∀ directory ∈ names.dropLast, enters directory = true)
  | (name, entry) => by
      rw [filesOf]
      exact mem_filesAt_iff entry

end

/-- The files that are listed below a directory are those that some names lead to, without
going through a directory that is not entered. -/
theorem mem_filesBelow_iff {entry : Entry} {names : List String} :
    names ∈ entry.filesBelow enters ↔ names ≠ [] ∧
      (∃ content, entry.Reaches names (.file content)) ∧
        ∀ directory ∈ names.dropLast, enters directory = true := by
  cases entry with
  | file content =>
      refine iff_of_false List.not_mem_nil ?_
      rintro ⟨nonempty, ⟨own, reaches⟩, -⟩
      exact nonempty reaches.eq_nil
  | directory entries =>
      rw [filesBelow, mem_filesAmong_iff, iff_and_self]
      rintro ⟨⟨content, reaches⟩, -⟩ rfl
      cases reaches_nil_iff.1 reaches
  | nullDevice =>
      refine iff_of_false List.not_mem_nil ?_
      rintro ⟨-, ⟨content, reaches⟩, -⟩
      exact not_reaches_file_of_nullDevice reaches

end

end Entry

end SemanticDiff.Files
