import SemanticDiff.Proofs.Json.RoundTrip
import SemanticDiff.Text.Quoted

/-!
# Quoted texts can be told apart

Each character inside quotation marks can be read off from the way it is shown, and so can
the end of the text.  So two quoted texts are the same only if the texts are, whatever
stands behind them.
-/

namespace SemanticDiff.Text

/-! ## Code points -/

theorem exists_digitChar_of_mem_toDigits {base number : Nat} (proper : 1 < base) {c : Char}
    (member : c ∈ Nat.toDigits base number) : ∃ digit < base, digit.digitChar = c := by
  induction number using Nat.strong_induction_on with
  | _ number ih =>
      by_cases small : number < base
      · rw [Nat.toDigits_of_lt_base small, List.mem_singleton] at member
        exact ⟨number, small, member.symm⟩
      · have large : base ≤ number := Nat.le_of_not_lt small
        rw [Nat.toDigits_of_base_le proper large, List.mem_append, List.mem_singleton] at member
        rcases member with earlier | rfl
        · exact ih _ (Nat.div_lt_self (by omega) proper) earlier
        · exact ⟨number % base, Nat.mod_lt _ (by omega), rfl⟩

/-- The number that digits to the base sixteen stand for. -/
def codeOf (digits : List Char) : Nat :=
  digits.foldl (fun code digit => 16 * code + (Json.hexValue? digit).getD 0) 0

theorem codeOf_toDigits (number : Nat) : codeOf (Nat.toDigits 16 number) = number := by
  induction number using Nat.strong_induction_on with
  | _ number ih =>
      by_cases small : number < 16
      · have only : Json.hexValue? number.digitChar = some number :=
          Json.hexValue?_hexDigit number small
        rw [Nat.toDigits_of_lt_base small]
        simp [codeOf, only]
      · have last : Json.hexValue? (number % 16).digitChar = some (number % 16) :=
          Json.hexValue?_hexDigit _ (Nat.mod_lt _ (by decide))
        have earlier := ih (number / 16) (by omega)
        rw [codeOf] at earlier
        rw [Nat.toDigits_of_base_le (by decide) (by omega), codeOf, List.foldl_append, earlier,
          List.foldl_cons, List.foldl_nil, last, Option.getD_some]
        omega

/-! ## Characters -/

/-- The character that a letter after a backslash stands for. -/
def letterOf? : Char → Option Char
  | '0' => some '\x00'
  | 't' => some '\t'
  | 'r' => some '\r'
  | 'n' => some '\n'
  | '"' => some '"'
  | '\\' => some '\\'
  | _ => none

/-- Read the first character off from the way it is shown. -/
def readShown : List Char → Option (Char × List Char)
  | [] => none
  | '\\' :: 'u' :: '\x7b' :: rest =>
      let digits := rest.takeWhile (· != '\x7d')
      some (Char.ofNat (codeOf digits), rest.drop (digits.length + 1))
  | '\\' :: letter :: rest => (letterOf? letter).map fun c => (c, rest)
  | c :: rest => some (c, rest)

/-- A character is shown by a letter after a backslash, as it is, or by its code point. -/
theorem shown_cases (c : Char) :
    (∃ letter, letterOf? letter = some c ∧ shown c = ['\\', letter]) ∨
      (c ≠ '\\' ∧ c ≠ '"' ∧ shown c = [c]) ∨ shown c = codePoint c := by
  unfold shown
  split_ifs with null tab carriage feed quote backslash printable
  · exact Or.inl ⟨'0', by rw [null]; rfl, rfl⟩
  · exact Or.inl ⟨'t', by rw [tab]; rfl, rfl⟩
  · exact Or.inl ⟨'r', by rw [carriage]; rfl, rfl⟩
  · exact Or.inl ⟨'n', by rw [feed]; rfl, rfl⟩
  · exact Or.inl ⟨'"', by rw [quote]; rfl, rfl⟩
  · exact Or.inl ⟨'\\', by rw [backslash]; rfl, rfl⟩
  · exact Or.inr (Or.inl ⟨backslash, quote, rfl⟩)
  · exact Or.inr (Or.inr rfl)

theorem readShown_letter {letter c : Char} (stands : letterOf? letter = some c)
    (rest : List Char) : readShown ('\\' :: letter :: rest) = some (c, rest) := by
  have other : letter ≠ 'u' := by
    rintro rfl
    cases stands
  rw [readShown]
  · rw [stands, Option.map_some]
  · intro _ same _
    exact other same

theorem readShown_plain {c : Char} (noBackslash : c ≠ '\\') (rest : List Char) :
    readShown (c :: rest) = some (c, rest) := by
  rw [readShown]
  · intro _ same _
    exact noBackslash same
  · intro _ _ same _
    exact noBackslash same

theorem readShown_codePoint (c : Char) (rest : List Char) :
    readShown (codePoint c ++ rest) = some (c, rest) := by
  have noBrace : ∀ digit ∈ Nat.toDigits 16 c.toNat, (digit != '\x7d') = true := by
    intro digit member
    obtain ⟨value, small, rfl⟩ := exists_digitChar_of_mem_toDigits (by decide) member
    have none : ∀ value < 16, (Nat.digitChar value != '\x7d') = true := by decide
    exact none value small
  have written : codePoint c ++ rest =
      '\\' :: 'u' :: '\x7b' :: (Nat.toDigits 16 c.toNat ++ '\x7d' :: rest) := by
    simp [codePoint]
  have taken : (Nat.toDigits 16 c.toNat ++ '\x7d' :: rest).takeWhile (· != '\x7d') =
      Nat.toDigits 16 c.toNat := by
    rw [List.takeWhile_append_of_pos noBrace]
    simp
  rw [written, readShown]
  simp only [taken, codeOf_toDigits, Char.ofNat_toNat]
  simp [List.drop_append]

/-- A character is read off from the way it is shown. -/
theorem readShown_shown (c : Char) (rest : List Char) :
    readShown (shown c ++ rest) = some (c, rest) := by
  rcases shown_cases c with ⟨letter, stands, form⟩ | ⟨noBackslash, -, form⟩ | form
  · rw [form]
    exact readShown_letter stands rest
  · rw [form]
    exact readShown_plain noBackslash rest
  · rw [form]
    exact readShown_codePoint c rest

/-! ## Texts -/

/-- No character is shown so that it begins like the end of a text. -/
theorem shown_append_ne_quote (c : Char) (others rest : List Char) :
    shown c ++ others ≠ '"' :: rest := by
  rcases shown_cases c with ⟨letter, -, form⟩ | ⟨-, noQuote, form⟩ | form
  · simp [form]
  · simp [form, noQuote]
  · simp [form, codePoint]

/-- Two texts that are shown the same up to their closing quotation marks are the same, and
so is what follows. -/
theorem flatMap_shown_inj {first second rest rest' : List Char}
    (same : first.flatMap shown ++ '"' :: rest = second.flatMap shown ++ '"' :: rest') :
    first = second ∧ rest = rest' := by
  induction first generalizing second with
  | nil =>
      cases second with
      | nil => exact ⟨rfl, (List.cons.inj same).2⟩
      | cons d second =>
          rw [List.flatMap_cons, List.append_assoc] at same
          exact absurd same.symm (shown_append_ne_quote d _ _)
  | cons c first ih =>
      rw [List.flatMap_cons, List.append_assoc] at same
      cases second with
      | nil => exact absurd same (shown_append_ne_quote c _ _)
      | cons d second =>
          rw [List.flatMap_cons, List.append_assoc] at same
          have read := congrArg readShown same
          rw [readShown_shown, readShown_shown, Option.some.injEq, Prod.mk.injEq] at read
          obtain ⟨rfl, others⟩ := read
          obtain ⟨rfl, rfl⟩ := ih others
          exact ⟨rfl, rfl⟩

/-- Quoted texts with something behind them can be told apart. -/
theorem quoted_append_inj {first second : String} {rest rest' : List Char}
    (same : (quoted first).toList ++ rest = (quoted second).toList ++ rest') :
    first = second ∧ rest = rest' := by
  simp only [quoted, String.toList_ofList, List.cons_append, List.append_assoc,
    List.nil_append, List.cons.injEq, true_and] at same
  obtain ⟨chars, others⟩ := flatMap_shown_inj same
  exact ⟨String.toList_inj.1 chars, others⟩

end SemanticDiff.Text
