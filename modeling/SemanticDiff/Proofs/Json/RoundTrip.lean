import Mathlib.Data.Nat.Digits.Defs
import SemanticDiff.Proofs.Json.Spacing

/-!
# Reading what was written

The readers of texts, of numbers, of lists and of records recover what was written,
whatever blanks stand between the tokens and whatever follows in a document.  No
character of a value on one line is a control character, so that lines can be told
apart.
-/

namespace SemanticDiff.Json

variable {α σ : Type}

/-! ## Texts -/

theorem readChars_quote (rest : List Char) : readChars ('"' :: rest) = .ok ([], rest) := by
  rw [readChars.eq_def]
  rfl

theorem readChars_letter {letter c : Char} (stands : escaped? letter = some c)
    (rest : List Char) :
    readChars ('\\' :: letter :: rest) = consChar c (readChars rest) := by
  rw [readChars.eq_def]
  simp [stands]

theorem readChars_unit {a b c d : Char} {unit : Nat} (value : hexUnit? a b c d = some unit)
    (single : unit < 0xD800) (rest : List Char) :
    readChars ('\\' :: 'u' :: a :: b :: c :: d :: rest) =
      consChar (Char.ofNat unit) (readChars rest) := by
  have noTrailing : isTrailing unit = false := by simp [isTrailing]; omega
  have noLeading : isLeading unit = false := by simp [isLeading]; omega
  rw [readChars.eq_def]
  simp [escaped?, value, noTrailing, noLeading]

theorem readChars_plain {c : Char} (noQuote : c ≠ '"') (noBackslash : c ≠ '\\')
    (visible : ¬ c.toNat < 32) (rest : List Char) :
    readChars (c :: rest) = consChar c (readChars rest) := by
  rw [readChars.eq_def]
  simp [noQuote, noBackslash, visible]

theorem hexValue?_hexDigit : ∀ digit < 16, hexValue? (hexDigit digit) = some digit := by
  decide

theorem hexUnit?_control {code : Nat} (control : code < 32) :
    hexUnit? '0' '0' (hexDigit (code / 16)) (hexDigit (code % 16)) = some code := by
  have zero : hexValue? '0' = some 0 := by decide
  simp only [hexUnit?, zero, hexValue?_hexDigit (code / 16) (by omega),
    hexValue?_hexDigit (code % 16) (by omega)]
  exact congrArg some (by omega)

/-- A character that was written inside quotation marks is read as itself. -/
theorem readChars_escape (c : Char) (rest : List Char) :
    readChars (escape c ++ rest) = consChar c (readChars rest) := by
  unfold escape
  split
  · subst c; exact readChars_letter rfl rest
  split
  · subst c; exact readChars_letter rfl rest
  split
  · subst c; exact readChars_letter rfl rest
  split
  · subst c; exact readChars_letter rfl rest
  split
  · subst c; exact readChars_letter rfl rest
  split
  · subst c; exact readChars_letter rfl rest
  split
  · subst c; exact readChars_letter rfl rest
  split
  · rename_i control
    have read := readChars_unit (hexUnit?_control control) (by omega) rest
    rwa [Char.ofNat_toNat] at read
  · rename_i noQuote noBackslash _ _ _ _ _ visible
    exact readChars_plain noQuote noBackslash visible rest

theorem readChars_flatMap_escape (text rest : List Char) :
    readChars (text.flatMap escape ++ '"' :: rest) = .ok (text, rest) := by
  induction text with
  | nil => exact readChars_quote rest
  | cons c text ih =>
      rw [List.flatMap_cons, List.append_assoc, readChars_escape, ih]
      rfl

/-- A text is read back after its opening quotation mark. -/
theorem readText_flatMap_escape (text : String) (rest : List Char) :
    readText (text.toList.flatMap escape ++ '"' :: rest) = .ok (text, rest) := by
  rw [readText, readChars_flatMap_escape]
  simp [Except.map]

/-! ## Digits -/

/-- The first digit of a number is zero for zero only. -/
theorem exists_toDigits_eq_cons {number : Nat} (positive : 0 < number) :
    ∃ first rest, Nat.toDigits 10 number = first :: rest ∧ first ≠ '0' := by
  induction number using Nat.strong_induction_on with
  | _ number ih =>
      by_cases small : number < 10
      · refine ⟨_, [], Nat.toDigits_of_lt_base small, ?_⟩
        rw [ne_eq, Nat.digitChar_eq_zero]
        omega
      · obtain ⟨first, rest, shorter, nonzero⟩ := ih (number / 10) (by omega) (by omega)
        refine ⟨first, rest ++ [(number % 10).digitChar], ?_, nonzero⟩
        rw [Nat.toDigits_of_base_le (by decide) (by omega), shorter]
        rfl

/-- What may stand after a value in a document. -/
def IsAfterValue (rest : List Char) : Prop :=
  ∀ c ∈ rest.head?, c = ',' ∨ c = ']' ∨ c = '\x7d' ∨ isBlank c = true

theorem IsAfterValue.comma (others : List Char) : IsAfterValue (',' :: others) := by
  simp [IsAfterValue]

theorem IsAfterValue.listEnd (others : List Char) : IsAfterValue (']' :: others) := by
  simp [IsAfterValue]

theorem IsAfterValue.recordEnd (others : List Char) : IsAfterValue ('\x7d' :: others) := by
  simp [IsAfterValue]

theorem AreBlanks.isAfterValue_append {blanks rest : List Char} (areBlanks : AreBlanks blanks)
    (after : IsAfterValue rest) : IsAfterValue (blanks ++ rest) := by
  cases blanks with
  | nil => exact after
  | cons c blanks =>
      intro first here
      obtain rfl : c = first := by simpa using here
      exact Or.inr (Or.inr (Or.inr (areBlanks c List.mem_cons_self)))

/-- What stands after a number does not go on with it. -/
theorem IsAfterValue.ends_number {c : Char} {others : List Char}
    (after : IsAfterValue (c :: others)) : c.isDigit = false ∧ c ≠ '.' ∧ c ≠ 'e' ∧ c ≠ 'E' := by
  have here := after c rfl
  simp only [isBlank, Bool.or_eq_true, beq_iff_eq] at here
  rcases here with rfl | rfl | rfl | ((rfl | rfl) | rfl) | rfl <;> decide

theorem readNumeral_toDigits (negative : Bool) (number : Nat) {rest : List Char}
    (after : IsAfterValue rest) :
    readNumeral negative (Nat.toDigits 10 number ++ rest) =
      .ok (⟨negative, Nat.toDigits 10 number, [], false, none⟩, rest) := by
  have areDigits : ∀ c ∈ Nat.toDigits 10 number, c.isDigit = true := fun c =>
    Nat.isDigit_of_mem_toDigits (by decide) (by decide)
  have stops : rest.takeWhile Char.isDigit = [] ∧ rest.dropWhile Char.isDigit = rest := by
    cases rest with
    | nil => exact ⟨rfl, rfl⟩
    | cons c others => simp [after.ends_number.1]
  have taken : (Nat.toDigits 10 number ++ rest).takeWhile Char.isDigit = Nat.toDigits 10 number := by
    rw [List.takeWhile_append_of_pos areDigits, stops.1, List.append_nil]
  have dropped : (Nat.toDigits 10 number ++ rest).dropWhile Char.isDigit = rest := by
    rw [List.dropWhile_append_of_pos areDigits, stops.2]
  have shape : (∃ digit, Nat.toDigits 10 number = [digit]) ∨
      ∃ first digits, Nat.toDigits 10 number = first :: digits ∧ first ≠ '0' := by
    rcases Nat.eq_zero_or_pos number with rfl | positive
    · exact Or.inl ⟨'0', rfl⟩
    · exact Or.inr (exists_toDigits_eq_cons positive)
  unfold readNumeral
  simp only [taken, dropped]
  cases rest with
  | nil =>
      rcases shape with ⟨digit, written⟩ | ⟨first, digits, written, nonzero⟩
      · simp [written]
        rfl
      · simp [written, nonzero]
        rfl
  | cons c others =>
      obtain ⟨-, noPoint, noLower, noUpper⟩ := after.ends_number
      rcases shape with ⟨digit, written⟩ | ⟨first, digits, written, nonzero⟩
      · simp [written, noPoint, noLower, noUpper, bind, Except.bind, pure, Except.pure]
      · simp [written, nonzero, noPoint, noLower, noUpper, bind, Except.bind, pure, Except.pure]

/-! ## Values -/

/-- A reader gives back a value that was written in a document, after blanks or
without any. -/
def Recovers (reader : Reader α) (value : α) (written : List Char) : Prop :=
  ∀ blanks rest, AreBlanks blanks → IsAfterValue rest →
    reader (blanks ++ (written ++ rest)) = .ok (value, rest)

theorem skipBlanks_quoted (text : String) (rest : List Char) :
    skipBlanks (quoted text ++ rest) = '"' :: (text.toList.flatMap escape ++ '"' :: rest) := by
  simp [skipBlanks, quoted, isBlank]

theorem recovers_readString (text : String) : Recovers readString text (quoted text) := by
  intro blanks rest areBlanks _
  rw [readString, areBlanks.skipBlanks_append, skipBlanks_quoted]
  exact readText_flatMap_escape text rest

theorem recovers_readNamed {ofName? : String → Option α} {name : String} {thing : α}
    (named : ofName? name = some thing) : Recovers (readNamed ofName?) thing (quoted name) := by
  intro blanks rest areBlanks _
  simp only [readNamed, areBlanks.skipBlanks_append, skipBlanks_quoted, readText_flatMap_escape,
    bind, Except.bind, named]
  rfl

/-- A value is there if it is not the word for none, which no text begins like. -/
theorem recovers_readOptional (text : String) :
    Recovers (readOptional readString) (some text) (quoted text) := by
  intro blanks rest areBlanks after
  have read := recovers_readString text [] rest .nil after
  rw [readOptional, areBlanks.skipBlanks_append, skipBlanks_quoted]
  simp only [List.nil_append, quoted, List.cons_append, List.append_assoc] at read
  simp [read, Except.map]

theorem isBlank_eq_false_of_isDigit {c : Char} (isDigit : c.isDigit = true) :
    isBlank c = false := by
  rw [Bool.eq_false_iff]
  intro blank
  simp only [isBlank, Bool.or_eq_true, beq_iff_eq] at blank
  rcases blank with ((rfl | rfl) | rfl) | rfl <;> revert isDigit <;> decide

theorem skipBlanks_cons {c : Char} (noBlank : isBlank c = false) (rest : List Char) :
    skipBlanks (c :: rest) = c :: rest :=
  List.dropWhile_cons_of_neg (by simp [noBlank])

/-- Nothing is stepped over before a digit. -/
theorem skipBlanks_cons_of_isDigit {c : Char} (isDigit : c.isDigit = true) (rest : List Char) :
    skipBlanks (c :: rest) = c :: rest :=
  skipBlanks_cons (isBlank_eq_false_of_isDigit isDigit) rest

theorem exists_toDigits_append_eq_cons (number : Nat) (rest : List Char) :
    ∃ first others, Nat.toDigits 10 number ++ rest = first :: others ∧ first.isDigit = true := by
  cases written : Nat.toDigits 10 number with
  | nil => exact absurd written Nat.toDigits_ne_nil
  | cons first digits =>
      refine ⟨first, digits ++ rest, rfl, ?_⟩
      apply Nat.isDigit_of_mem_toDigits (b := 10) (n := number) (by decide) (by decide)
      rw [written]
      exact List.mem_cons_self

theorem readNumber_natural {number : Nat} (bounded : number < Number.unsignedLimit)
    {rest : List Char} (after : IsAfterValue rest) :
    readNumber false (Nat.toDigits 10 number ++ rest) = .ok (.int number, rest) := by
  rw [readNumber, readNumeral_toDigits false number after]
  simp [bind, Except.bind, pure, Except.pure, Number.ofNumeral, Nat.ofDigitChars_ten_toDigits,
    bounded]

theorem readNumber_negative {number : Nat} (positive : number ≠ 0)
    (bounded : number ≤ Number.signedLimit) {rest : List Char} (after : IsAfterValue rest) :
    readNumber true (Nat.toDigits 10 number ++ rest) = .ok (.int (-number), rest) := by
  rw [readNumber, readNumeral_toDigits true number after]
  simp [bind, Except.bind, pure, Except.pure, Number.ofNumeral, Nat.ofDigitChars_ten_toDigits,
    positive, bounded]

theorem recovers_readNatural {number : Nat} (bounded : number < Number.unsignedLimit) :
    Recovers readNatural number (digits number) := by
  intro blanks rest areBlanks after
  change readNatural (blanks ++ (Nat.toDigits 10 number ++ rest)) = _
  have read := readNumber_natural bounded after
  obtain ⟨first, others, written, isDigit⟩ := exists_toDigits_append_eq_cons number rest
  rw [written] at read
  rw [written, readNatural, areBlanks.skipBlanks_append, skipBlanks_cons_of_isDigit isDigit]
  simp [isDigit, read, bind, Except.bind, pure, Except.pure]

/-- A whole document is read if its value is recovered. -/
theorem Recovers.readWhole {reader : Reader α} {value : α} {written : List Char}
    (read : Recovers reader value written) {after : List Char} (areBlanks : AreBlanks after) :
    Json.readWhole reader (String.ofList (written ++ after)) = .ok value := by
  have ends : IsAfterValue (after ++ []) := areBlanks.isAfterValue_append (by simp [IsAfterValue])
  have nothing : skipBlanks (after ++ []) = [] := areBlanks.skipBlanks_append []
  rw [List.append_nil] at ends nothing
  have made : reader (written ++ after) = .ok (value, after) := read [] after .nil ends
  rw [Json.readWhole, String.toList_ofList, made]
  simp [bind, Except.bind, nothing]
  rfl

/-! ## Lists -/

/-- After a text in a list or record comes another one or the end. -/
theorem AreBlanks.isAfterValue_following {inner outer : List Char} (areBlanks : AreBlanks outer)
    (texts : List (List Char)) {rest : List Char} (after : IsAfterValue rest) :
    IsAfterValue (following inner texts ++ (outer ++ rest)) := by
  cases texts with
  | nil => exact areBlanks.isAfterValue_append after
  | cons first texts => exact .comma _

variable {spacing : Spacing} {level : Nat}

/-- No value begins with a blank or like the end of a list. -/
theorem exists_spaced_eq_cons (spacing : Spacing) (level : Nat) (value : Json) :
    ∃ c others, spaced spacing level value = c :: others ∧ isBlank c = false ∧ c ≠ ']' := by
  cases value with
  | flag set => cases set <;> exact ⟨_, _, rfl, rfl, by decide⟩
  | int number =>
      cases number with
      | ofNat number =>
          obtain ⟨c, others, written, isDigit⟩ := exists_toDigits_append_eq_cons number []
          rw [List.append_nil] at written
          refine ⟨c, others, written, isBlank_eq_false_of_isDigit isDigit, ?_⟩
          rintro rfl
          revert isDigit
          decide
      | negSucc number => exact ⟨_, _, rfl, rfl, by decide⟩
  | text content => exact ⟨_, _, rfl, rfl, by decide⟩
  | list items => exact ⟨_, _, rfl, rfl, by decide⟩
  | record fields => exact ⟨_, _, rfl, rfl, by decide⟩

/-- An item is read after the comma before it, or without one as the first item. -/
theorem readItems_item {reader : Reader α} {value : α} {values : List α} {json : Json}
    (read : Recovers reader value (spaced spacing level json)) {blanks rest last : List Char}
    (areBlanks : AreBlanks blanks) (after : IsAfterValue rest) {budget : Nat} (first : Bool)
    (later : readItems reader budget false rest = .ok (values, last)) :
    readItems reader (budget + 1) first
        ((if first then [] else [',']) ++ (blanks ++ (spaced spacing level json ++ rest))) =
      .ok (value :: values, last) := by
  obtain ⟨c, others, written, noBlank, noEnd⟩ := exists_spaced_eq_cons spacing level json
  have made := read [] rest .nil after
  rw [List.nil_append, written, List.cons_append] at made
  rw [written, List.cons_append]
  have stepped : skipBlanks (blanks ++ c :: (others ++ rest)) = c :: (others ++ rest) := by
    rw [areBlanks.skipBlanks_append, skipBlanks_cons noBlank]
  have entered : readItems reader (budget + 1) first
        ((if first then [] else [',']) ++ (blanks ++ c :: (others ++ rest))) =
      (reader (c :: (others ++ rest)) >>= fun read =>
        readItems reader budget false read.2 >>= fun later =>
          pure (read.1 :: later.1, later.2)) := by
    rw [readItems]
    cases first with
    | true => simp [stepped, nextItem, skipBlanks_cons noBlank, noEnd, bind, Except.bind]
    | false => simp [stepped, nextItem, skipBlanks_cons (c := ',') rfl, noEnd, bind, Except.bind]
  rw [entered, made]
  simp [bind, Except.bind, later, pure, Except.pure]

variable {inner outer : List Char} {reader : Reader α} {toJson : α → Json}

/-- What is left of a list after its first item is read to its end. -/
theorem readItems_following {values : List α}
    (read : ∀ value ∈ values, Recovers reader value (spaced spacing level (toJson value)))
    (innerBlanks : AreBlanks inner) (outerBlanks : AreBlanks outer) {budget : Nat}
    (enough : values.length < budget) (rest : List Char) :
    readItems reader budget false
        (following inner (spacedItems spacing level (values.map toJson)) ++
          (outer ++ ']' :: rest)) =
      .ok (values, rest) := by
  induction values generalizing budget with
  | nil =>
      obtain ⟨budget, rfl⟩ := Nat.exists_eq_succ_of_ne_zero (Nat.ne_of_gt enough)
      have stops : skipBlanks (outer ++ ']' :: rest) = ']' :: rest := by
        rw [outerBlanks.skipBlanks_append, skipBlanks_cons rfl]
      simp [following, spacedItems, readItems, stops]
  | cons value values ih =>
      obtain ⟨budget, rfl⟩ := Nat.exists_eq_succ_of_ne_zero (Nat.ne_zero_of_lt enough)
      rcases List.forall_mem_cons.1 read with ⟨first, others⟩
      have stepped := readItems_item first innerBlanks
        (outerBlanks.isAfterValue_following _ (.listEnd rest)) false
        (ih others (Nat.lt_of_succ_lt_succ enough))
      simpa [spacedItems, following_cons] using stepped

/-- The items of a list are read to its end. -/
theorem readItems_enclosed {values : List α}
    (read : ∀ value ∈ values, Recovers reader value (spaced spacing level (toJson value)))
    (innerBlanks : AreBlanks inner) (outerBlanks : AreBlanks outer) {budget : Nat}
    (enough : values.length < budget) (rest : List Char) :
    readItems reader budget true
        (enclosed inner outer (spacedItems spacing level (values.map toJson)) ++ ']' :: rest) =
      .ok (values, rest) := by
  obtain ⟨budget, rfl⟩ := Nat.exists_eq_succ_of_ne_zero (Nat.ne_zero_of_lt enough)
  cases values with
  | nil => simp [enclosed, spacedItems, readItems, skipBlanks_cons (c := ']') rfl]
  | cons value values =>
      rcases List.forall_mem_cons.1 read with ⟨first, others⟩
      have stepped := readItems_item first innerBlanks
        (outerBlanks.isAfterValue_following _ (.listEnd rest)) true
        (readItems_following others innerBlanks outerBlanks (Nat.lt_of_succ_lt_succ enough) rest)
      simpa [enclosed, spacedItems] using stepped

/-- A list is read back if each of its items is. -/
theorem recovers_readList {values : List α}
    (read : ∀ value ∈ values, Recovers reader value (spaced spacing (level + 1) (toJson value))) :
    Recovers (readList reader) values (spaced spacing level (.list (values.map toJson))) := by
  intro blanks rest areBlanks _
  have opened : skipBlanks (blanks ++ (spaced spacing level (.list (values.map toJson)) ++ rest)) =
      '[' :: (enclosed (spacing.gap (level + 1)) (spacing.gap level)
        (spacedItems spacing (level + 1) (values.map toJson)) ++ ']' :: rest) := by
    rw [areBlanks.skipBlanks_append, spaced]
    simp [skipBlanks_cons (c := '[') rfl]
  rw [readList, opened]
  apply readItems_enclosed read (spacing.areBlanks_gap _) (spacing.areBlanks_gap level)
  have short := length_le_length_enclosed (spacing.gap (level + 1)) (spacing.gap level)
    (spacedItems spacing (level + 1) (values.map toJson))
  rw [spacedItems_eq_map, List.length_map, List.length_map] at short
  rw [spacedItems_eq_map, List.length_append, List.length_cons]
  omega

/-! ## Records -/

/-- What is written after the name of a field. -/
def afterName (spacing : Spacing) (level : Nat) (value : Json) : List Char :=
  ':' :: spacing.afterColon ++ spaced spacing level value

/-- The fields of a record are handed over one after the other, and each of them is
read completely. -/
inductive Gathers (spacing : Spacing) (level : Nat) (field : σ → String → Reader σ) :
    σ → List (String × Json) → σ → Prop where
  | done (gathered : σ) : Gathers spacing level field gathered [] gathered
  | next {gathered changed last : σ} {name : String} {value : Json}
      {fields : List (String × Json)} :
      Recovers (field gathered name) changed (afterName spacing level value) →
      Gathers spacing level field changed fields last →
      Gathers spacing level field gathered ((name, value) :: fields) last

variable {field : σ → String → Reader σ}

/-- A field is read after the comma before it, or without one as the first field. -/
theorem readFields_field {gathered changed : σ} {name : String} {value : Json}
    (read : Recovers (field gathered name) changed (afterName spacing level value))
    {blanks rest : List Char} (areBlanks : AreBlanks blanks) (after : IsAfterValue rest)
    (budget : Nat) (first : Bool) :
    readFields field (budget + 1) first gathered
        ((if first then [] else [',']) ++
          (blanks ++ (spacedField spacing level (name, value) ++ rest))) =
      readFields field budget false changed rest := by
  have stepped : skipBlanks (blanks ++ (spacedField spacing level (name, value) ++ rest)) =
      '"' :: (name.toList.flatMap escape ++ '"' :: (afterName spacing level value ++ rest)) := by
    rw [areBlanks.skipBlanks_append, spacedField, List.append_assoc, skipBlanks_quoted]
    rfl
  have entered : readFields field (budget + 1) first gathered
        ((if first then [] else [',']) ++
          (blanks ++ (spacedField spacing level (name, value) ++ rest))) =
      (readText (name.toList.flatMap escape ++ '"' :: (afterName spacing level value ++ rest)) >>=
        fun read => field gathered read.1 read.2 >>=
          fun next => readFields field budget false next.1 next.2) := by
    rw [readFields]
    cases first with
    | true => simp [stepped]
    | false => simp [stepped, skipBlanks_cons (c := ',') rfl]
  rw [entered, readText_flatMap_escape]
  change (field gathered name (afterName spacing level value ++ rest) >>= _) = _
  rw [show field gathered name (afterName spacing level value ++ rest) = .ok (changed, rest) from
    read [] rest .nil after]
  rfl

/-- What is left of a record after its first field is read to its end. -/
theorem Gathers.readFields_following {gathered last : σ} {fields : List (String × Json)}
    (gathers : Gathers spacing level field gathered fields last) (innerBlanks : AreBlanks inner)
    (outerBlanks : AreBlanks outer) {budget : Nat} (enough : fields.length < budget)
    (rest : List Char) :
    readFields field budget false gathered
        (following inner (spacedFields spacing level fields) ++ (outer ++ '\x7d' :: rest)) =
      .ok (last, rest) := by
  induction gathers generalizing budget with
  | done gathered =>
      obtain ⟨budget, rfl⟩ := Nat.exists_eq_succ_of_ne_zero (Nat.ne_of_gt enough)
      have stops : skipBlanks (outer ++ '\x7d' :: rest) = '\x7d' :: rest := by
        rw [outerBlanks.skipBlanks_append, skipBlanks_cons rfl]
      simp [following, spacedFields, readFields, stops]
  | @next gathered changed last name value fields read gathers ih =>
      obtain ⟨budget, rfl⟩ := Nat.exists_eq_succ_of_ne_zero (Nat.ne_zero_of_lt enough)
      have after : IsAfterValue
          (following inner (spacedFields spacing level fields) ++ (outer ++ '\x7d' :: rest)) :=
        outerBlanks.isAfterValue_following _ (.recordEnd rest)
      have stepped := readFields_field read innerBlanks after budget false
      rw [ih (Nat.lt_of_succ_lt_succ enough)] at stepped
      simpa [spacedFields, following_cons] using stepped

/-- The fields of a record are read to its end. -/
theorem Gathers.readFields_enclosed {gathered last : σ} {fields : List (String × Json)}
    (gathers : Gathers spacing level field gathered fields last) (innerBlanks : AreBlanks inner)
    (outerBlanks : AreBlanks outer) {budget : Nat} (enough : fields.length < budget)
    (rest : List Char) :
    readFields field budget true gathered
        (enclosed inner outer (spacedFields spacing level fields) ++ '\x7d' :: rest) =
      .ok (last, rest) := by
  obtain ⟨budget, rfl⟩ := Nat.exists_eq_succ_of_ne_zero (Nat.ne_zero_of_lt enough)
  cases gathers with
  | done => rfl
  | @next _ changed _ name value fields read gathers =>
      have after : IsAfterValue
          (following inner (spacedFields spacing level fields) ++ (outer ++ '\x7d' :: rest)) :=
        outerBlanks.isAfterValue_following _ (.recordEnd rest)
      have stepped := readFields_field read innerBlanks after budget true
      rw [gathers.readFields_following innerBlanks outerBlanks
        (Nat.lt_of_succ_lt_succ enough)] at stepped
      simpa [enclosed, spacedFields] using stepped

/-- The fields of a record are read from its opening bracket on. -/
theorem Gathers.readFields_record {gathered last : σ} {fields : List (String × Json)}
    (gathers : Gathers spacing (level + 1) field gathered fields last) {blanks : List Char}
    (areBlanks : AreBlanks blanks) (rest : List Char) :
    ∃ opened, skipBlanks (blanks ++ (spaced spacing level (.record fields) ++ rest)) =
        '\x7b' :: opened ∧
      readFields field (opened.length + 1) true gathered opened = .ok (last, rest) := by
  refine ⟨enclosed (spacing.gap (level + 1)) (spacing.gap level)
    (spacedFields spacing (level + 1) fields) ++ '\x7d' :: rest, ?_, ?_⟩
  · rw [areBlanks.skipBlanks_append, spaced]
    simp [skipBlanks_cons (c := '\x7b') rfl]
  · apply gathers.readFields_enclosed (spacing.areBlanks_gap _) (spacing.areBlanks_gap level)
    have short := length_le_length_enclosed (spacing.gap (level + 1)) (spacing.gap level)
      (spacedFields spacing (level + 1) fields)
    rw [spacedFields_eq_map, List.length_map] at short
    rw [spacedFields_eq_map, List.length_append, List.length_cons]
    omega

/-- A record is read back if its fields are gathered to all that its value needs. -/
theorem Gathers.recovers_readRecord {empty last : σ} {fields : List (String × Json)}
    (gathers : Gathers spacing (level + 1) field empty fields last) {complete : σ → Option α}
    {value : α} (completed : complete last = some value) (listed : Reader α) :
    Recovers (readRecord empty field complete listed) value
      (spaced spacing level (.record fields)) := by
  intro blanks rest areBlanks _
  obtain ⟨opened, entered, read⟩ := gathers.readFields_record areBlanks rest
  rw [readRecord, entered]
  simp [read, completed, bind, Except.bind, pure, Except.pure]

/-- A value that is recovered is also recovered after its colon, and can be stored
at once. -/
theorem Recovers.after_name {reader : Reader α} {value : α} {json : Json}
    (read : Recovers reader value (spaced spacing level json)) (store : α → σ) :
    Recovers
      (fun chars => do
        let chars ← readColon chars
        let (value, rest) ← reader chars
        return (store value, rest))
      (store value) (afterName spacing level json) := by
  intro blanks rest areBlanks after
  have colon : readColon (blanks ++ (afterName spacing level json ++ rest)) =
      .ok (spacing.afterColon ++ (spaced spacing level json ++ rest)) := by
    rw [readColon, areBlanks.skipBlanks_append]
    simp [afterName, skipBlanks_cons (c := ':') rfl]
  simp only [colon, bind, Except.bind, read _ rest spacing.areBlanks_afterColon after]
  rfl

/-- One more field is read that was not read before: its name tells what is read. -/
theorem Gathers.next_new {gathered last : σ} {name : String} {json : Json}
    {fields : List (String × Json)} {reader : Reader α} {store : α → σ} {value : α}
    (read : Recovers reader value (spaced spacing level json))
    (told : ∀ chars, field gathered name chars = readNew none reader store chars)
    (rest : Gathers spacing level field (store value) fields last) :
    Gathers spacing level field gathered ((name, json) :: fields) last := by
  apply Gathers.next _ rest
  rw [show field gathered name = _ from funext told]
  exact read.after_name store

/-! ## Lines -/

/-- No character is a control character. -/
def IsPrinted (chars : List Char) : Prop :=
  ∀ c ∈ chars, 32 ≤ c.toNat

instance (chars : List Char) : Decidable (IsPrinted chars) :=
  List.decidableBAll _ _

theorem IsPrinted.append {first second : List Char} (left : IsPrinted first)
    (right : IsPrinted second) : IsPrinted (first ++ second) := by
  intro c member
  rcases List.mem_append.1 member with early | late
  · exact left c early
  · exact right c late

theorem IsPrinted.cons {c : Char} {rest : List Char} (first : 32 ≤ c.toNat)
    (others : IsPrinted rest) : IsPrinted (c :: rest) :=
  List.forall_mem_cons.2 ⟨first, others⟩

theorem isPrinted_escape (c : Char) : IsPrinted (escape c) := by
  have hex : ∀ digit < 16, 32 ≤ (hexDigit digit).toNat := by decide
  unfold escape
  split_ifs with _ _ _ _ _ _ _ control
  · decide
  · decide
  · decide
  · decide
  · decide
  · decide
  · decide
  · simp [IsPrinted, hex (c.toNat / 16) (by omega), hex (c.toNat % 16) (by omega)]
  · simpa [IsPrinted] using control

theorem isPrinted_quoted (text : String) : IsPrinted (quoted text) := by
  apply IsPrinted.append _ (by decide)
  apply IsPrinted.cons (by decide)
  intro c member
  rcases List.mem_flatMap.1 member with ⟨source, -, here⟩
  exact isPrinted_escape source c here

theorem isPrinted_toDigits (number : Nat) : IsPrinted (Nat.toDigits 10 number) := by
  intro c member
  have isDigit := Nat.isDigit_of_mem_toDigits (by decide) (by decide) member
  have bounds := Char.isDigit_iff_toNat.1 isDigit
  exact Nat.le_trans (by decide) bounds.1

theorem isPrinted_digits (number : Int) : IsPrinted (digits number) := by
  cases number with
  | ofNat number => exact isPrinted_toDigits number
  | negSucc number => exact (isPrinted_toDigits (number + 1)).cons (by decide)

mutual

theorem isPrinted_compactChars : (value : Json) → IsPrinted (compactChars value)
  | flag set => by cases set <;> decide
  | int number => isPrinted_digits number
  | text content => isPrinted_quoted content
  | list items =>
      ((isPrinted_compactItems items).cons (by decide)).append (by decide)
  | record fields =>
      ((isPrinted_compactFields fields).cons (by decide)).append (by decide)

theorem isPrinted_compactItems : (items : List Json) → IsPrinted (compactItems items)
  | [] => by decide
  | [item] => isPrinted_compactChars item
  | item :: next :: items =>
      (isPrinted_compactChars item).append
        ((isPrinted_compactItems (next :: items)).cons (by decide))

theorem isPrinted_compactFields : (fields : List (String × Json)) →
    IsPrinted (compactFields fields)
  | [] => by decide
  | [field] => isPrinted_compactField field
  | field :: next :: fields =>
      (isPrinted_compactField field).append
        ((isPrinted_compactFields (next :: fields)).cons (by decide))

theorem isPrinted_compactField : (field : String × Json) → IsPrinted (compactField field)
  | (name, value) =>
      (isPrinted_quoted name).append ((isPrinted_compactChars value).cons (by decide))

end

end SemanticDiff.Json
