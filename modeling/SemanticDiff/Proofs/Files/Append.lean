import SemanticDiff.Files.Disk

/-!
# Appending to a file

What is put under some names is found there again.  So a text that is appended to a
file comes after the bytes that were there, and where there was no file it is all
that is there.
-/

namespace SemanticDiff.Files

namespace Entry

/-- A name that is listed has the entry that took its place. -/
theorem lookup_map_replace {entries : List (String × Entry)} {name : String} (new : Entry)
    (listed : entries.any (fun entry => entry.1 == name) = true) :
    (entries.map fun entry => if entry.1 == name then (name, new) else entry).lookup name =
      some new := by
  induction entries with
  | nil => cases listed
  | cons entry entries ih =>
      rcases entry with ⟨first, content⟩
      by_cases same : first = name
      · simp [same]
      · have later : entries.any (fun entry => entry.1 == name) = true := by
          simpa [same] using listed
        have different : (name == first) = false := beq_eq_false_iff_ne.2 (Ne.symm same)
        rw [List.map_cons, if_neg (by simpa using same), List.lookup_cons, different]
        exact ih later

/-- A name that is not listed has the entry that was added for it. -/
theorem lookup_append_new {entries : List (String × Entry)} {name : String} (new : Entry)
    (unlisted : ¬ entries.any (fun entry => entry.1 == name) = true) :
    (entries ++ [(name, new)]).lookup name = some new := by
  induction entries with
  | nil => simp
  | cons entry entries ih =>
      rcases entry with ⟨first, content⟩
      rw [List.any_cons, Bool.or_eq_true, not_or] at unlisted
      have different : (name == first) = false :=
        beq_eq_false_iff_ne.2 fun same => unlisted.1 (beq_iff_eq.2 same.symm)
      rw [List.cons_append, List.lookup_cons, different]
      exact ih unlisted.2

/-- What was put under a name stands there. -/
theorem child?_setChild (entries : List (String × Entry)) (name : String) (new : Entry) :
    ((directory entries).setChild name new).child? name = some new := by
  by_cases listed : entries.any (fun entry => entry.1 == name) = true
  · rw [setChild, if_pos listed]
    exact lookup_map_replace new listed
  · rw [setChild, if_neg listed]
    exact lookup_append_new new listed

/-- Something stands under some names, or a directory in which it could be made. -/
def HasPlace (entry : Entry) (names : List String) : Prop :=
  (∃ own, entry.get? names = some own) ∨
    ∃ entries, entry.get? names.dropLast = some (.directory entries)

/-- Only a directory has a place under a name. -/
theorem HasPlace.directory {entry : Entry} {name : String} {names : List String}
    (place : entry.HasPlace (name :: names)) :
    ∃ entries, entry = .directory entries ∧
      (names = [] ∨ ∃ child, entry.child? name = some child ∧ child.HasPlace names) := by
  have isDirectory {child : Entry} (here : entry.child? name = some child) :
      ∃ entries, entry = .directory entries := by
    cases entry with
    | directory entries => exact ⟨entries, rfl⟩
    | file _ | nullDevice => cases here
  rcases place with ⟨own, found⟩ | ⟨entries, found⟩
  · obtain ⟨child, here, below⟩ := Option.bind_eq_some_iff.1 found
    obtain ⟨entries, rfl⟩ := isDirectory here
    exact ⟨entries, rfl, Or.inr ⟨child, here, Or.inl ⟨own, below⟩⟩⟩
  · cases names with
    | nil => exact ⟨entries, Option.some.inj found, Or.inl rfl⟩
    | cons next names =>
        obtain ⟨child, here, below⟩ := Option.bind_eq_some_iff.1 found
        obtain ⟨own, rfl⟩ := isDirectory here
        exact ⟨own, rfl, Or.inr ⟨child, here, Or.inr ⟨entries, below⟩⟩⟩

/-- What was put under some names stands there. -/
theorem get?_set {entry : Entry} {names : List String} (place : entry.HasPlace names)
    (new : Entry) : (entry.set names new).get? names = some new := by
  induction names generalizing entry with
  | nil => rfl
  | cons name names ih =>
      obtain ⟨entries, rfl, below⟩ := place.directory
      rw [set, get?, child?_setChild, Option.bind_some]
      rcases below with rfl | ⟨child, here, belowPlace⟩
      · rfl
      · rw [here, Option.getD_some]
        exact ih belowPlace

end Entry

namespace Disk

/-- The bytes of the file under some names; where there is no file there are none. -/
def contentAt (disk : Disk) (names : List String) : ByteArray :=
  match disk.root.get? names with
  | some (.file content) => content
  | _ => .empty

theorem contentAt_of_get? {disk : Disk} {names : List String} {content : ByteArray}
    (here : disk.root.get? names = some (.file content)) : disk.contentAt names = content := by
  rw [contentAt, here]

/-- Appending that succeeds comes to a null device, where nothing is kept, or to a place
for a file, which then has the text after all that it had. -/
theorem appendText_eq_ok {disk after : Disk} {path text : String}
    (appended : disk.appendText path text = .ok after) :
    ∃ names, disk.locate (withoutFinalSlashes path) = .ok names ∧
      (disk.root.get? names = some .nullDevice ∧ after = disk ∨
        disk.root.HasPlace names ∧
          after = { disk with
            root := disk.root.set names (.file (disk.contentAt names ++ text.toUTF8)) }) := by
  cases located : disk.locate (withoutFinalSlashes path) with
  | error error => simp [appendText, located, bind, Except.bind] at appended
  | ok names =>
      refine ⟨names, rfl, ?_⟩
      by_cases slash : path.toList.getLast? = some '/'
      · simp [appendText, located, slash, bind, Except.bind] at appended
      simp only [appendText, located, slash, if_false, bind, Except.bind, pure, Except.pure]
        at appended
      cases here : disk.root.get? names with
      | some entry =>
          rw [here] at appended
          cases entry with
          | file content =>
              obtain rfl := Except.ok.inj appended
              rw [contentAt_of_get? here]
              exact Or.inr ⟨Or.inl ⟨_, here⟩, rfl⟩
          | directory entries => cases appended
          | nullDevice => exact Or.inl ⟨rfl, (Except.ok.inj appended).symm⟩
      | none =>
          rw [here] at appended
          cases parent : disk.root.get? names.dropLast with
          | some entry =>
              rw [parent] at appended
              cases entry with
              | directory entries =>
                  obtain rfl := Except.ok.inj appended
                  rw [contentAt, here, ByteArray.empty_append]
                  exact Or.inr ⟨Or.inr ⟨_, parent⟩, rfl⟩
              | file _ | nullDevice => cases appended
          | none =>
              rw [parent] at appended
              cases appended

/-- A text that was appended to a file stands after what was there before. -/
theorem get?_appendText {disk after : Disk} {path text : String} {names : List String}
    (located : disk.locate (withoutFinalSlashes path) = .ok names)
    (plain : disk.root.get? names ≠ some .nullDevice)
    (appended : disk.appendText path text = .ok after) :
    after.root.get? names = some (.file (disk.contentAt names ++ text.toUTF8)) := by
  obtain ⟨found, same, ⟨device, -⟩ | ⟨place, rfl⟩⟩ := appendText_eq_ok appended
  all_goals obtain rfl := Except.ok.inj (located.symm.trans same)
  · exact absurd device plain
  · exact Entry.get?_set place _

end Disk

end SemanticDiff.Files
