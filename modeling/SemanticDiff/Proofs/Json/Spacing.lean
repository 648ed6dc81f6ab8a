import SemanticDiff.Json.Basic
import SemanticDiff.Json.Reading

/-!
# Values with blanks between their tokens

The two ways of writing a value differ in the blanks between its tokens only.  Both
are cases of one writer that is told what to put there, so what is shown of that
writer holds of either of them.
-/

namespace SemanticDiff.Json

/-- All characters may stand between tokens. -/
def AreBlanks (chars : List Char) : Prop :=
  ∀ c ∈ chars, isBlank c = true

theorem AreBlanks.nil : AreBlanks [] :=
  List.forall_mem_nil _

theorem AreBlanks.skipBlanks_append {blanks : List Char} (areBlanks : AreBlanks blanks)
    (rest : List Char) : skipBlanks (blanks ++ rest) = skipBlanks rest :=
  List.dropWhile_append_of_pos areBlanks

/-- What is written between tokens: before all that stands at a level, and after a
colon. -/
structure Spacing where
  gap : Nat → List Char
  afterColon : List Char
  areBlanks_gap : ∀ level, AreBlanks (gap level)
  areBlanks_afterColon : AreBlanks afterColon

namespace Spacing

/-- No blanks at all. -/
def none : Spacing where
  gap := fun _ => []
  afterColon := []
  areBlanks_gap := fun _ => .nil
  areBlanks_afterColon := .nil

theorem areBlanks_newLine (level : Nat) : AreBlanks (newLine level) := by
  intro c member
  rcases List.mem_cons.1 member with rfl | indented
  · rfl
  · rw [List.eq_of_mem_replicate indented]
    rfl

/-- A line for everything, indented by its level. -/
def lines : Spacing where
  gap := newLine
  afterColon := [' ']
  areBlanks_gap := areBlanks_newLine
  areBlanks_afterColon := by simp [AreBlanks, isBlank]

end Spacing

/-- Texts with a comma and a gap before each of them. -/
def following (inner : List Char) (texts : List (List Char)) : List Char :=
  texts.flatMap fun next => ',' :: (inner ++ next)

/-- Texts with commas between them.  Each of them has a gap before it, and another gap
comes after the last one. -/
def enclosed (inner outer : List Char) : List (List Char) → List Char
  | [] => []
  | first :: texts => inner ++ (first ++ (following inner texts ++ outer))

theorem following_cons (inner first : List Char) (texts : List (List Char)) :
    following inner (first :: texts) = ',' :: (inner ++ (first ++ following inner texts)) := by
  simp [following]

/-- A list holds at most one text more than it has characters. -/
theorem length_le_length_enclosed (inner outer : List Char) (texts : List (List Char)) :
    texts.length ≤ (enclosed inner outer texts).length + 1 := by
  have others (texts : List (List Char)) : texts.length ≤ (following inner texts).length := by
    induction texts with
    | nil => exact Nat.zero_le _
    | cons first texts ih =>
        simp only [following_cons, List.length_append, List.length_cons]
        omega
  cases texts with
  | nil => exact Nat.zero_le _
  | cons first texts =>
      have short := others texts
      simp only [enclosed, List.length_append, List.length_cons]
      omega

mutual

/-- The value at a level. -/
def spaced (spacing : Spacing) (level : Nat) : Json → List Char
  | flag set => word set
  | int number => digits number
  | text content => quoted content
  | list items =>
      '[' :: enclosed (spacing.gap (level + 1)) (spacing.gap level)
        (spacedItems spacing (level + 1) items) ++ [']']
  | record fields =>
      '\x7b' :: enclosed (spacing.gap (level + 1)) (spacing.gap level)
        (spacedFields spacing (level + 1) fields) ++ ['\x7d']
termination_by structural value => value

/-- Each of some values at a level. -/
def spacedItems (spacing : Spacing) (level : Nat) : List Json → List (List Char)
  | [] => []
  | item :: items => spaced spacing level item :: spacedItems spacing level items
termination_by structural items => items

/-- Each of some fields at a level. -/
def spacedFields (spacing : Spacing) (level : Nat) : List (String × Json) → List (List Char)
  | [] => []
  | field :: fields => spacedField spacing level field :: spacedFields spacing level fields
termination_by structural fields => fields

/-- A field with its value. -/
def spacedField (spacing : Spacing) (level : Nat) : String × Json → List Char
  | (name, value) => quoted name ++ (':' :: spacing.afterColon ++ spaced spacing level value)
termination_by structural field => field

end

theorem spacedItems_eq_map (spacing : Spacing) (level : Nat) (items : List Json) :
    spacedItems spacing level items = items.map (spaced spacing level) := by
  induction items with
  | nil => rfl
  | cons item items ih => rw [spacedItems, ih, List.map_cons]

theorem spacedFields_eq_map (spacing : Spacing) (level : Nat) (fields : List (String × Json)) :
    spacedFields spacing level fields = fields.map (spacedField spacing level) := by
  induction fields with
  | nil => rfl
  | cons field fields ih => rw [spacedFields, ih, List.map_cons]

/-! ## One line -/

mutual

/-- On one line there are no blanks. -/
theorem compactChars_eq_spaced (level : Nat) : (value : Json) →
    compactChars value = spaced .none level value
  | flag _ | int _ | text _ => rfl
  | list items => by
      rw [compactChars, spaced, compactItems_eq_enclosed (level + 1) items]
      rfl
  | record fields => by
      rw [compactChars, spaced, compactFields_eq_enclosed (level + 1) fields]
      rfl

theorem compactItems_eq_enclosed (level : Nat) : (items : List Json) →
    compactItems items = enclosed [] [] (spacedItems .none level items)
  | [] => rfl
  | [item] => by simp [compactItems, spacedItems, enclosed, following, compactChars_eq_spaced level item]
  | item :: next :: items => by
      rw [compactItems, compactChars_eq_spaced level item,
        compactItems_eq_enclosed level (next :: items)]
      · simp [spacedItems, enclosed, following_cons]
      · simp

theorem compactFields_eq_enclosed (level : Nat) : (fields : List (String × Json)) →
    compactFields fields = enclosed [] [] (spacedFields .none level fields)
  | [] => rfl
  | [field] => by simp [compactFields, spacedFields, enclosed, following, compactField_eq_spacedField level field]
  | field :: next :: fields => by
      rw [compactFields, compactField_eq_spacedField level field,
        compactFields_eq_enclosed level (next :: fields)]
      · simp [spacedFields, enclosed, following_cons]
      · simp

theorem compactField_eq_spacedField (level : Nat) : (field : String × Json) →
    compactField field = spacedField .none level field
  | (name, value) => by
      rw [compactField, spacedField, compactChars_eq_spaced level value]
      rfl

end

/-! ## Several lines -/

mutual

/-- On several lines everything has a line of its own. -/
theorem indentedChars_eq_spaced (level : Nat) : (value : Json) →
    indentedChars level value = spaced .lines level value
  | flag _ | int _ | text _ | list [] | record [] => rfl
  | list (item :: items) => by
      have inner := newLine_append_indentedItems (level + 1) (newLine level) (item :: items)
        (List.cons_ne_nil _ _)
      rw [indentedChars, spaced, List.cons_append, List.cons_append, List.cons_append, inner]
      rfl
  | record (field :: fields) => by
      have inner := newLine_append_indentedFields (level + 1) (newLine level) (field :: fields)
        (List.cons_ne_nil _ _)
      rw [indentedChars, spaced, List.cons_append, List.cons_append, List.cons_append, inner]
      rfl

theorem newLine_append_indentedItems (level : Nat) (outer : List Char) : (items : List Json) →
    items ≠ [] →
    newLine level ++ indentedItems level items ++ outer =
      enclosed (newLine level) outer (spacedItems .lines level items)
  | [], nonempty => absurd rfl nonempty
  | [item], _ => by
      simp [indentedItems, spacedItems, enclosed, following, indentedChars_eq_spaced level item]
  | item :: next :: items, _ => by
      have later := newLine_append_indentedItems level outer (next :: items) (List.cons_ne_nil _ _)
      rw [indentedItems, indentedChars_eq_spaced level item]
      · simp_all [spacedItems, enclosed, following_cons]
      · simp

theorem newLine_append_indentedFields (level : Nat) (outer : List Char) :
    (fields : List (String × Json)) → fields ≠ [] →
    newLine level ++ indentedFields level fields ++ outer =
      enclosed (newLine level) outer (spacedFields .lines level fields)
  | [], nonempty => absurd rfl nonempty
  | [field], _ => by
      simp [indentedFields, spacedFields, enclosed, following, indentedField_eq_spacedField level field]
  | field :: next :: fields, _ => by
      have later := newLine_append_indentedFields level outer (next :: fields)
        (List.cons_ne_nil _ _)
      rw [indentedFields, indentedField_eq_spacedField level field]
      · simp_all [spacedFields, enclosed, following_cons]
      · simp

theorem indentedField_eq_spacedField (level : Nat) : (field : String × Json) →
    indentedField level field = spacedField .lines level field
  | (name, value) => by
      rw [indentedField, spacedField, indentedChars_eq_spaced level value]
      rfl

end

end SemanticDiff.Json
