import SemanticDiff.Event.Log
import SemanticDiff.Proofs.Text.Quoted

/-!
# Details as they are shown

The details of an event are shown to a reader as `name=value`, parted by blanks.  A value
in quotation marks may hold blanks and signs of equality itself, and yet details are shown
the same only if they are the same: a name ends at the first sign of equality, a text at
its closing quotation mark, and any other value at the next blank.
-/

namespace SemanticDiff

/-! ## Values -/

namespace Detail

/-- What stands behind a value: nothing, or a blank. -/
def IsBehind (rest : List Char) : Prop :=
  rest = [] ∨ ∃ others, rest = ' ' :: others

/-- Whether a value is shown in quotation marks. -/
def isQuoted : Detail → Bool
  | text _ => true
  | _ => false

/-- The value that is shown by a word. -/
def ofWord (word : List Char) : Detail :=
  match word with
  | ['t', 'r', 'u', 'e'] => flag true
  | ['f', 'a', 'l', 's', 'e'] => flag false
  | '-' :: digits => int (-(Nat.ofDigitChars 10 digits 0))
  | digits => int (Nat.ofDigitChars 10 digits 0)

theorem isDigit_of_mem_toDigits {number : Nat} {c : Char}
    (member : c ∈ Nat.toDigits 10 number) : c.isDigit = true :=
  Nat.isDigit_of_mem_toDigits (by decide) (by decide) member

/-- A natural number is read off from its digits. -/
theorem ofWord_toDigits (number : Nat) : ofWord (Nat.toDigits 10 number) = int number := by
  obtain ⟨first, others, digits, isDigit⟩ := Json.exists_toDigits_append_eq_cons number []
  rw [List.append_nil] at digits
  have value := Nat.ofDigitChars_ten_toDigits (n := number)
  rw [digits] at value ⊢
  rw [ofWord]
  · rw [value]
  · rintro ⟨⟩
    cases isDigit
  · rintro ⟨⟩
    cases isDigit
  · rintro _ ⟨⟩
    cases isDigit

/-- A value that is not quoted is read off from the word by which it is shown. -/
theorem ofWord_shown {detail : Detail} (unquoted : detail.isQuoted = false) :
    ofWord detail.shown.toList = detail := by
  cases detail with
  | flag set => cases set <;> rfl
  | text content => cases unquoted
  | int number =>
      rw [shown, String.toList_ofList]
      cases number with
      | ofNat number => exact ofWord_toDigits number
      | negSucc number =>
          rw [Json.digits, ofWord, Nat.ofDigitChars_ten_toDigits]
          rfl

/-- Such a word holds no blank, and does not begin with a quotation mark. -/
theorem isWord_shown {detail : Detail} (unquoted : detail.isQuoted = false) :
    ' ' ∉ detail.shown.toList ∧ detail.shown.toList.head? ≠ some '"' := by
  cases detail with
  | flag set => cases set <;> decide
  | text content => cases unquoted
  | int number =>
      have other {number : Nat} {c : Char} (noDigit : c.isDigit = false) :
          c ∉ Nat.toDigits 10 number := by
        intro member
        rw [isDigit_of_mem_toDigits member] at noDigit
        cases noDigit
      rw [shown, String.toList_ofList]
      cases number with
      | ofNat number =>
          exact ⟨other rfl, fun first => other rfl (List.mem_of_head? first)⟩
      | negSucc number =>
          rw [Json.digits]
          refine ⟨fun member => ?_, by simp⟩
          rcases List.mem_cons.1 member with same | later
          · cases same
          · exact other rfl later

/-- A word ends at the next blank. -/
theorem takeWhile_of_isBehind {word rest : List Char} (noBlank : ' ' ∉ word)
    (behind : IsBehind rest) : (word ++ rest).takeWhile (· != ' ') = word := by
  have allPass : ∀ c ∈ word, (c != ' ') = true := by
    intro c member
    rw [bne_iff_ne]
    rintro rfl
    exact noBlank member
  rw [List.takeWhile_append_of_pos allPass]
  rcases behind with rfl | ⟨others, rfl⟩
  · rw [List.takeWhile_nil, List.append_nil]
  · rw [List.takeWhile_cons_of_neg (by simp), List.append_nil]

theorem head?_toList_quoted (content : String) :
    (Text.quoted content).toList.head? = some '"' := by
  rw [Text.quoted, String.toList_ofList]
  rfl

/-- A quoted value is not taken for a word. -/
theorem shown_append_ne_of_isQuoted {first second : Detail} (quoted : first.isQuoted = true)
    (unquoted : second.isQuoted = false) {rest rest' : List Char} (behind : IsBehind rest') :
    first.shown.toList ++ rest ≠ second.shown.toList ++ rest' := by
  intro same
  cases first with
  | flag => cases quoted
  | int => cases quoted
  | text content =>
      have heads := congrArg List.head? same
      rw [List.head?_append, shown, head?_toList_quoted, Option.some_or] at heads
      cases word : second.shown.toList with
      | nil =>
          rw [word] at heads
          rcases behind with rfl | ⟨others, rfl⟩ <;> cases heads
      | cons c others =>
          have begins := (isWord_shown unquoted).2
          rw [word] at heads begins
          exact begins heads.symm

/-- Values with something behind them can be told apart. -/
theorem shown_append_inj {first second : Detail} {rest rest' : List Char}
    (behind : IsBehind rest) (behind' : IsBehind rest')
    (same : first.shown.toList ++ rest = second.shown.toList ++ rest') :
    first = second ∧ rest = rest' := by
  cases quoted : first.isQuoted with
  | true =>
      cases quoted' : second.isQuoted with
      | false => exact absurd same (shown_append_ne_of_isQuoted quoted quoted' behind')
      | true =>
          cases first with
          | flag => cases quoted
          | int => cases quoted
          | text content =>
              cases second with
              | flag => cases quoted'
              | int => cases quoted'
              | text content' =>
                  obtain ⟨rfl, others⟩ := Text.quoted_append_inj same
                  exact ⟨rfl, others⟩
  | false =>
      cases quoted' : second.isQuoted with
      | true => exact absurd same.symm (shown_append_ne_of_isQuoted quoted' quoted behind)
      | false =>
          have word := congrArg (List.takeWhile (· != ' ')) same
          rw [takeWhile_of_isBehind (isWord_shown quoted).1 behind,
            takeWhile_of_isBehind (isWord_shown quoted').1 behind'] at word
          have equal : first = second := by
            rw [← ofWord_shown quoted, word, ofWord_shown quoted']
          subst equal
          exact ⟨rfl, List.append_cancel_left same⟩

end Detail

/-! ## Maps of details -/

namespace Details

/-- A name that is not mistaken for a part of a value. -/
def IsName (name : String) : Prop :=
  name ≠ "" ∧ '=' ∉ name.toList ∧ ' ' ∉ name.toList

instance (name : String) : Decidable (IsName name) :=
  inferInstanceAs (Decidable (_ ∧ _ ∧ _))

/-- How one detail is shown. -/
def shownEntry (entry : String × Detail) : List Char :=
  entry.1.toList ++ '=' :: entry.2.shown.toList

/-- How details are shown after others. -/
def shownAfter (entries : List (String × Detail)) : List Char :=
  entries.flatMap fun entry => ' ' :: shownEntry entry

theorem isBehind_shownAfter (entries : List (String × Detail)) :
    Detail.IsBehind (shownAfter entries) := by
  cases entries with
  | nil => exact Or.inl rfl
  | cons entry entries => exact Or.inr ⟨_, rfl⟩

/-- The first of some details is shown without a blank before it. -/
theorem toList_shown (details : Details) :
    details.shown.toList =
      match details.entries with
      | [] => []
      | entry :: entries => shownEntry entry ++ shownAfter entries := by
  have joined (entry : String × Detail) (entries : List (String × Detail)) :
      [' '].intercalate ((entry :: entries).map shownEntry) =
        shownEntry entry ++ shownAfter entries := by
    induction entries generalizing entry with
    | nil => simp [shownAfter]
    | cons next entries ih =>
        rw [List.map_cons, List.map_cons, List.intercalate_cons_cons, ← List.map_cons, ih]
        simp [shownAfter]
  have shownEntries : details.shown.toList = [' '].intercalate (details.entries.map shownEntry) := by
    rw [shown, String.toList_intercalate, List.map_map]
    congr 2
    funext entry
    simp [shownEntry]
  rw [shownEntries]
  cases details.entries with
  | nil => rfl
  | cons entry entries => exact joined entry entries

/-- A name ends at the first sign of equality. -/
theorem shownEntry_append_inj {first second : String × Detail} {rest rest' : List Char}
    (named : '=' ∉ first.1.toList) (named' : '=' ∉ second.1.toList)
    (behind : Detail.IsBehind rest) (behind' : Detail.IsBehind rest')
    (same : shownEntry first ++ rest = shownEntry second ++ rest') :
    first = second ∧ rest = rest' := by
  have ends {name others : List Char} (named : '=' ∉ name) :
      (name ++ '=' :: others).takeWhile (· != '=') = name := by
    have allPass : ∀ c ∈ name, (c != '=') = true := by
      intro c member
      rw [bne_iff_ne]
      rintro rfl
      exact named member
    rw [List.takeWhile_append_of_pos allPass, List.takeWhile_cons_of_neg (by simp),
      List.append_nil]
  rw [shownEntry, shownEntry, List.append_assoc, List.append_assoc, List.cons_append,
    List.cons_append] at same
  have names := congrArg (List.takeWhile (· != '=')) same
  rw [ends named, ends named'] at names
  rw [names] at same
  have values := (List.cons.inj (List.append_cancel_left same)).2
  obtain ⟨value, others⟩ := Detail.shown_append_inj behind behind' values
  exact ⟨Prod.ext (String.toList_inj.1 names) value, others⟩

theorem shownAfter_inj {first second : List (String × Detail)}
    (named : ∀ entry ∈ first, '=' ∉ entry.1.toList)
    (named' : ∀ entry ∈ second, '=' ∉ entry.1.toList)
    (same : shownAfter first = shownAfter second) : first = second := by
  induction first generalizing second with
  | nil =>
      cases second with
      | nil => rfl
      | cons entry second => cases same
  | cons entry first ih =>
      cases second with
      | nil => cases same
      | cons other second =>
          obtain ⟨own, others⟩ := List.forall_mem_cons.1 named
          obtain ⟨own', others'⟩ := List.forall_mem_cons.1 named'
          obtain ⟨rfl, rest⟩ := shownEntry_append_inj own own' (isBehind_shownAfter first)
            (isBehind_shownAfter second) (List.cons.inj same).2
          rw [ih others others' rest]

/-- Details are shown the same only if they are the same. -/
theorem shown_eq_shown_iff {first second : Details} (named : ∀ name ∈ first.keys, IsName name)
    (named' : ∀ name ∈ second.keys, IsName name) :
    first.shown = second.shown ↔ first = second := by
  refine ⟨fun same => ?_, congrArg shown⟩
  have plain {details : Details} (named : ∀ name ∈ details.keys, IsName name) :
      ∀ entry ∈ details.entries, '=' ∉ entry.1.toList := fun entry member =>
    (named entry.1 (List.mem_map_of_mem member)).2.1
  have chars := congrArg String.toList same
  rw [toList_shown, toList_shown] at chars
  apply SortedMap.ext
  apply shownAfter_inj (plain named) (plain named')
  cases entries : first.entries with
  | nil =>
      cases entries' : second.entries with
      | nil => rfl
      | cons entry others => simp [entries, entries', shownEntry] at chars
  | cons entry others =>
      cases entries' : second.entries with
      | nil => simp [entries, entries', shownEntry] at chars
      | cons entry' others' =>
          rw [entries, entries'] at chars
          exact congrArg (' ' :: ·) chars

end Details

end SemanticDiff
