import SemanticDiff.Proofs.Source.Definition
import SemanticDiff.Text.Blank

/-!
# The texts of tokens

No token of a text is empty, and none begins or ends with white space.  For words,
operators and numbers this holds of every character.  A string literal may hold
anything, but it begins with a letter or a quotation mark and ends with a mark: the
reading only ever steps forward, and what closes a literal is one of the marks that
can open one.
-/

namespace SemanticDiff.Text

/-- The code points of white space. -/
def whiteSpaceCodes : List Nat :=
  List.range' 0x09 5 ++ [0x20, 0x85, 0xA0, 0x1680] ++ List.range' 0x2000 11 ++
    [0x2028, 0x2029, 0x202F, 0x205F, 0x3000]

theorem toNat_mem_whiteSpaceCodes {c : Char} (blank : isWhiteSpace c = true) :
    c.toNat ∈ whiteSpaceCodes := by
  simp only [isWhiteSpace, Bool.or_eq_true, Bool.and_eq_true, decide_eq_true_eq,
    beq_iff_eq] at blank
  simp only [whiteSpaceCodes, List.mem_append, List.mem_range'_1, List.mem_cons,
    List.not_mem_nil, or_false]
  omega

/-- A class of characters without white space in it. -/
theorem isWhiteSpace_eq_false {test : Char → Bool}
    (apart : ∀ code ∈ whiteSpaceCodes, test (Char.ofNat code) = false) {c : Char}
    (passes : test c = true) : isWhiteSpace c = false := by
  rw [← Bool.not_eq_true]
  intro blank
  have refused := apart c.toNat (toNat_mem_whiteSpaceCodes blank)
  rw [Char.ofNat_toNat, passes] at refused
  cases refused

theorem isWhiteSpace_of_isNameStart {c : Char} (starts : isNameStart c = true) :
    isWhiteSpace c = false :=
  isWhiteSpace_eq_false (by decide +kernel) starts

theorem isWhiteSpace_of_isNameContinue {c : Char} (goesOn : isNameContinue c = true) :
    isWhiteSpace c = false :=
  isWhiteSpace_eq_false (by decide +kernel) goesOn

end SemanticDiff.Text

namespace SemanticDiff.Source

open SemanticDiff.Text (isWhiteSpace)

/-- Whether a text is not empty and has no white space at its ends. -/
def isTight (text : String) : Bool :=
  text.toList.head?.any (!isWhiteSpace ·) && text.toList.getLast?.any (!isWhiteSpace ·)

theorem isTight_ofList {text : List Char} (present : text ≠ [])
    (visible : ∀ c ∈ text, isWhiteSpace c = false) : isTight (String.ofList text) = true := by
  rw [isTight, String.toList_ofList, Bool.and_eq_true, Option.any_eq_true, Option.any_eq_true]
  constructor
  · refine ⟨text.head present, List.head?_eq_some_head present, ?_⟩
    rw [visible _ (List.head_mem present)]
    rfl
  · refine ⟨text.getLast present, List.getLast?_eq_some_getLast present, ?_⟩
    rw [visible _ (List.getLast_mem present)]
    rfl

/-- The characters in the front of a text are no white space. -/
def VisibleFor (count : Nat) (text : List Char) : Prop :=
  ∀ c ∈ text.take count, isWhiteSpace c = false

@[simp]
theorem visibleFor_zero (text : List Char) : VisibleFor 0 text := by
  simp [VisibleFor]

@[simp]
theorem visibleFor_cons {count : Nat} {c : Char} {rest : List Char} :
    VisibleFor (1 + count) (c :: rest) ↔ isWhiteSpace c = false ∧ VisibleFor count rest := by
  simp [VisibleFor, Nat.add_comm 1 count]

theorem visibleFor_add {first second : Nat} {text : List Char} :
    VisibleFor (first + second) text ↔
      VisibleFor first text ∧ VisibleFor second (text.drop first) := by
  simp only [VisibleFor, List.take_add, List.mem_append, or_imp, forall_and]

/-! ## Numbers -/

namespace Lexeme

theorem visibleFor_digitGroupsAfter (afterDigit : Bool) (text : List Char) :
    VisibleFor (digitGroupsAfter afterDigit text) text := by
  induction text generalizing afterDigit with
  | nil => simp [digitGroupsAfter]
  | cons c rest ih =>
      rw [digitGroupsAfter]
      split
      · rename_i digit
        exact visibleFor_cons.2 ⟨Text.isWhiteSpace_eq_false (by decide) digit, ih true⟩
      · split
        · rename_i underscore
          rw [Bool.and_eq_true, decide_eq_true_eq] at underscore
          cases underscore.1
          exact visibleFor_cons.2 ⟨rfl, ih false⟩
        · exact visibleFor_zero _

theorem visibleFor_digitGroups (text : List Char) : VisibleFor (digitGroups text) text :=
  visibleFor_digitGroupsAfter false text

theorem visibleFor_basedDigits {digit : Char → Bool}
    (apart : ∀ code ∈ Text.whiteSpaceCodes, digit (Char.ofNat code) = false)
    (text : List Char) : VisibleFor (basedDigits digit text) text := by
  induction text with
  | nil => simp [basedDigits]
  | cons c rest ih =>
      rw [basedDigits]
      split
      · rename_i allowed
        rw [Bool.or_eq_true, Bool.and_eq_true, decide_eq_true_eq] at allowed
        refine visibleFor_cons.2 ⟨?_, ih⟩
        rcases allowed with own | ⟨rfl, -⟩
        · exact Text.isWhiteSpace_eq_false apart own
        · rfl
      · exact visibleFor_zero _

theorem visibleFor_suffix {marks : List Char}
    (visible : (marks.all fun c => !isWhiteSpace c) = true) (text : List Char) :
    VisibleFor (suffix marks text) text := by
  cases text with
  | nil => simp [suffix]
  | cons c rest =>
      rw [suffix]
      split
      · rename_i listed
        have own := List.all_eq_true.1 visible c (List.contains_iff_mem.1 listed)
        exact visibleFor_cons.2 ⟨by simpa using own, visibleFor_zero _⟩
      · exact visibleFor_zero _

theorem isWhiteSpace_of_either {c first second : Char}
    (either : (decide (c = first) || decide (c = second)) = true)
    (firstVisible : isWhiteSpace first = false) (secondVisible : isWhiteSpace second = false) :
    isWhiteSpace c = false := by
  rw [Bool.or_eq_true, decide_eq_true_eq, decide_eq_true_eq] at either
  rcases either with rfl | rfl
  · exact firstVisible
  · exact secondVisible

theorem visibleFor_exponent (text : List Char) : VisibleFor (exponent text) text := by
  unfold exponent
  split
  · rename_i mark sign rest
    split
    · rename_i marked
      have markVisible := isWhiteSpace_of_either marked (by decide) (by decide)
      split
      · rename_i signed
        have signVisible := isWhiteSpace_of_either signed (by decide) (by decide)
        dsimp only
        split
        · exact visibleFor_zero _
        · rw [show digitGroups rest + 2 = 1 + (1 + digitGroups rest) by omega]
          exact visibleFor_cons.2 ⟨markVisible,
            visibleFor_cons.2 ⟨signVisible, visibleFor_digitGroups rest⟩⟩
      · dsimp only
        split
        · exact visibleFor_zero _
        · rw [Nat.add_comm]
          exact visibleFor_cons.2 ⟨markVisible, visibleFor_digitGroups _⟩
    · exact visibleFor_zero _
  · exact visibleFor_zero _

theorem visibleFor_decimalInteger (text : List Char) :
    VisibleFor (decimalInteger text) text := by
  simp only [decimalInteger]
  split
  · exact visibleFor_zero _
  · exact visibleFor_add.2 ⟨visibleFor_digitGroups text, visibleFor_suffix (by decide) _⟩

theorem visibleFor_fraction (text : List Char) : VisibleFor (fraction text) text := by
  have whole := visibleFor_digitGroups text
  simp only [fraction]
  split
  · rename_i rest here
    split
    · exact visibleFor_zero _
    · have tail : VisibleFor
          (1 + (digitGroups rest +
            (exponent (rest.drop (digitGroups rest)) +
              suffix ['j', 'J']
                (rest.drop (digitGroups rest + exponent (rest.drop (digitGroups rest)))))))
          (text.drop (digitGroups text)) := by
        rw [here, visibleFor_cons, visibleFor_add, visibleFor_add, List.drop_drop]
        exact ⟨rfl, visibleFor_digitGroups rest, visibleFor_exponent _,
          visibleFor_suffix (by decide) _⟩
      have both := visibleFor_add.2 ⟨whole, tail⟩
      simpa only [Nat.add_assoc] using both
  · split
    · exact visibleFor_zero _
    · rw [visibleFor_add, visibleFor_add, ← List.drop_drop]
      exact ⟨⟨whole, visibleFor_exponent _⟩, visibleFor_suffix (by decide) _⟩

/-- One of the marks of a base, and the digits after it. -/
theorem visibleFor_marked {digit : Char → Bool} {mark small large : Char} {rest : List Char}
    {other : Nat} (apart : ∀ code ∈ Text.whiteSpaceCodes, digit (Char.ofNat code) = false)
    (smallVisible : isWhiteSpace small = false) (largeVisible : isWhiteSpace large = false)
    (otherwise : other ≠ 0 → VisibleFor other rest ∧ isWhiteSpace mark = false)
    (present : (if mark = small || mark = large then basedDigits digit rest else other) ≠ 0) :
    VisibleFor (if mark = small || mark = large then basedDigits digit rest else other) rest ∧
      isWhiteSpace mark = false := by
  split at present
  · rename_i marked
    rw [if_pos marked]
    exact ⟨visibleFor_basedDigits apart rest,
      isWhiteSpace_of_either marked smallVisible largeVisible⟩
  · rename_i unmarked
    rw [if_neg unmarked]
    exact otherwise present

theorem visibleFor_basedInteger (text : List Char) : VisibleFor (basedInteger text) text := by
  unfold basedInteger
  split
  · rename_i mark rest
    dsimp only
    generalize digitsEq : (if mark = 'x' || mark = 'X' then basedDigits isHexDigit rest
      else if mark = 'o' || mark = 'O' then basedDigits (fun c => '0' ≤ c && c ≤ '7') rest
      else if mark = 'b' || mark = 'B' then basedDigits (fun c => c = '0' || c = '1') rest
      else 0) = digits
    split
    · exact visibleFor_zero _
    · rename_i present
      obtain ⟨digitsVisible, markVisible⟩ :
          VisibleFor digits rest ∧ isWhiteSpace mark = false := by
        subst digitsEq
        refine visibleFor_marked ?_ ?_ ?_ (visibleFor_marked ?_ ?_ ?_
          (visibleFor_marked ?_ ?_ ?_ (absurd rfl ·))) present
        all_goals decide
      have shifted : VisibleFor
          (1 + (1 + (digits + suffix ['l', 'L'] (rest.drop digits)))) ('0' :: mark :: rest) :=
        visibleFor_cons.2 ⟨rfl, visibleFor_cons.2 ⟨markVisible,
          visibleFor_add.2 ⟨digitsVisible, visibleFor_suffix (by decide) _⟩⟩⟩
      rw [show ∀ more : Nat, 2 + digits + more = 1 + (1 + (digits + more)) by omega]
      exact shifted
  · exact visibleFor_zero _

/-- A number literal is an integer or not, and it holds no white space. -/
theorem visibleFor_number {text : List Char} {kind : Kind} {length : Nat}
    (read : number text = some (kind, length)) :
    (kind = .integer ∨ kind = .float) ∧ length ≠ 0 ∧ VisibleFor length text := by
  simp only [number, bne_iff_ne] at read
  split at read
  · rename_i present
    cases read
    exact ⟨Or.inl rfl, present, visibleFor_basedInteger text⟩
  · split at read
    · rename_i present
      cases read
      exact ⟨Or.inr rfl, present, visibleFor_fraction text⟩
    · split at read
      · rename_i present
        cases read
        exact ⟨Or.inl rfl, present, visibleFor_decimalInteger text⟩
      · cases read

theorem ne_nil_of_number {text : List Char} {kind : Kind} {length : Nat}
    (read : number text = some (kind, length)) : text ≠ [] := by
  rintro rfl
  cases read

theorem isTight_of_mem_operators {text : String} (listed : text ∈ operators) :
    isTight text = true := by
  have all : ∀ text ∈ operators, isTight text = true := by decide +kernel
  exact all text listed

/-- An operator that is read stands at the front of the text. -/
theorem operator_eq_some {text : List Char} {operator : String}
    (read : Lexeme.operator text = some operator) :
    operator ∈ operators ∧ operator.toList <+: text := by
  rcases Option.map_eq_some_iff.1 read with ⟨spelled, found, rfl⟩
  have listed := List.mem_of_find?_eq_some found
  have here := List.find?_some found
  rcases List.mem_map.1 listed with ⟨operator, operatorMem, rfl⟩
  exact ⟨operatorMem, List.isPrefixOf_iff_prefix.1 here⟩

end Lexeme

/-! ## Tokens that stand for themselves, words and numbers -/

namespace Rule

variable {σ : Type} {grammar : σ → Rule σ}

theorem text_tokenLeaf (label : Label) (length : Nat) (state : State) :
    (tokenLeaf label length state).text = String.ofList (state.cursor.rest.take length) :=
  state.cursor.textTo_advance length

/-- A token that is spelled at the front of the text has this text. -/
theorem text_tokenLeaf_of_isPrefix {label : Label} {text : String} {state : State}
    (here : text.toList <+: state.cursor.rest) :
    (tokenLeaf label text.length state).text = text := by
  rw [text_tokenLeaf, ← String.length_toList, ← List.prefix_iff_eq_take.1 here,
    String.ofList_toList]

theorem prefix_of_word_eq {text : String} {rest : List Char}
    (next : Lexeme.word rest = text.toList) : text.toList <+: rest := by
  rw [← next, List.prefix_iff_eq_take, Lexeme.take_length_word]

theorem isTight_nameLeaf {state : State} (present : Lexeme.word state.cursor.rest ≠ []) :
    isTight (tokenLeaf (.construct .identifier) (Lexeme.word state.cursor.rest).length
      state).text = true := by
  rw [text_tokenLeaf, Lexeme.take_length_word]
  apply isTight_ofList present
  intro c member
  rcases Lexeme.isName_of_mem_word member with starts | goesOn
  · exact Text.isWhiteSpace_of_isNameStart starts
  · exact Text.isWhiteSpace_of_isNameContinue goesOn

theorem isTight_numberLeaf {state : State} {kind : Kind} {length : Nat}
    (next : Lexeme.number state.cursor.rest = some (kind, length)) :
    isTight (tokenLeaf (.construct kind) length state).text = true := by
  rw [text_tokenLeaf]
  obtain ⟨-, present, visible⟩ := Lexeme.visibleFor_number next
  refine isTight_ofList ?_ visible
  simpa [List.take_eq_nil_iff, present] using Lexeme.ne_nil_of_number next

end Rule

/-! ## Stepping forward -/

namespace Cursor

theorem advance_add (first second : Nat) (cursor : Cursor) :
    cursor.advance (first + second) = (cursor.advance first).advance second := by
  induction first generalizing cursor with
  | zero => rw [Nat.zero_add, advance]
  | succ first ih =>
      rw [Nat.add_right_comm, advance, advance]
      split
      · rename_i ended
        cases second with
        | zero => rfl
        | succ second =>
            rw [advance]
            simp only [ended]
      · exact ih _

theorem rest_advance (count : Nat) (cursor : Cursor) :
    (cursor.advance count).rest = cursor.rest.drop count := by
  induction count generalizing cursor with
  | zero => rfl
  | succ count ih =>
      rw [advance]
      split
      · rename_i ended
        simp [ended]
      · rename_i c rest here
        rw [ih, here, List.drop_succ_cons]

end Cursor

/-- A place is reached by stepping forward from another. -/
def Cursor.Reaches (first last : Cursor) : Prop :=
  ∃ count, last = first.advance count

namespace Cursor.Reaches

theorem refl (cursor : Cursor) : cursor.Reaches cursor :=
  ⟨0, rfl⟩

theorem advance (cursor : Cursor) (count : Nat) : cursor.Reaches (cursor.advance count) :=
  ⟨count, rfl⟩

theorem trans {first second third : Cursor} (left : first.Reaches second)
    (right : second.Reaches third) : first.Reaches third := by
  rcases left with ⟨count, rfl⟩
  rcases right with ⟨more, rfl⟩
  exact ⟨count + more, (advance_add count more first).symm⟩

end Cursor.Reaches

theorem Layout.reaches_of_skipGap {gap : Gap} {current : Nat} {inFormat : Bool} {budget : Nat}
    {trees trees' : List Tree} {cursor cursor' : Cursor}
    (skipped : skipGap gap current inFormat budget trees cursor = some (trees', cursor')) :
    cursor.Reaches cursor' := by
  induction budget generalizing trees cursor with
  | zero =>
      cases skipped
      exact .refl _
  | succ budget ih =>
      have blanks : cursor.Reaches (skipBlanks cursor) := .advance _ _
      simp only [skipGap] at skipped
      split at skipped
      · cases skipped
      · cases skipped
        exact .refl _
      · split at skipped
        · exact blanks.trans ((Cursor.Reaches.advance _ _).trans (ih skipped))
        · cases skipped
          exact blanks

/-! ## String literals -/

namespace Quote

/-- The quotation marks. -/
def marks : List Char :=
  ['\x60', '\'', '"']

theorem isWhiteSpace_of_mem_marks {c : Char} (mark : c ∈ marks) : isWhiteSpace c = false := by
  have all : (marks.all fun c => !isWhiteSpace c) = true := by decide
  simpa using List.all_eq_true.1 all c mark

/-- The letters before a quotation mark are no white space, nor is the mark. -/
theorem head_visible {text : List Char} {mark : Char} {rest : List Char}
    (here : text.drop (text.takeWhile isFlag).length = mark :: rest) (known : mark ∈ marks) :
    text.head?.any (!isWhiteSpace ·) = true := by
  cases text with
  | nil => simp at here
  | cons first later =>
      have visible : isWhiteSpace first = false := by
        cases flag : isFlag first with
        | true => exact Text.isWhiteSpace_eq_false (by decide) flag
        | false =>
            rw [List.takeWhile_cons_of_neg (by simp [flag])] at here
            cases here
            exact isWhiteSpace_of_mem_marks known
      simp [visible]

/-- What opens a literal is a quotation mark, with letters before it. -/
theorem opening?_eq_some {text : List Char} {quote : Quote} {length : Nat}
    (read : opening? text = some (quote, length)) :
    quote.mark ∈ marks ∧ length ≠ 0 ∧ text.head?.any (!isWhiteSpace ·) = true := by
  simp only [opening?] at read
  split at read <;> cases read
  all_goals
    rename_i here
    exact ⟨by simp [marks], by omega, head_visible here (by simp [marks])⟩

/-- What closes a literal ends with its quotation mark. -/
theorem closing?_eq_some {quote : Quote} {text : List Char} {length : Nat}
    (read : quote.closing? text = some length) :
    (text.take length).getLast? = some quote.mark := by
  unfold closing? at read
  split at read
  · split at read
    · simp only [Option.ite_none_right_eq_some, Bool.and_eq_true, decide_eq_true_eq] at read
      rcases read with ⟨⟨⟨-, -⟩, rfl⟩, same⟩
      cases same
      rfl
    · rw [Option.ite_none_right_eq_some] at read
      rcases read with ⟨rfl, same⟩
      cases same
      rfl
  · simp only [Option.ite_none_right_eq_some, Bool.and_eq_true, decide_eq_true_eq] at read
    rcases read with ⟨⟨-, rfl⟩, same⟩
    cases same
    rfl
  · cases read

end Quote

namespace Rule

variable {σ : Type} {grammar : σ → Rule σ}

/-- Every open literal was opened by a quotation mark. -/
def State.IsMarked (state : State) : Prop :=
  ∀ quote ∈ state.quotes, quote.mark ∈ Quote.marks

/-- A state is reached by reading on from another. -/
structure State.Onward (first last : State) : Prop where
  reaches : first.cursor.Reaches last.cursor
  marked : first.IsMarked → last.IsMarked

namespace State.Onward

variable {first second third : State}

theorem refl (state : State) : state.Onward state :=
  ⟨.refl _, id⟩

theorem trans (left : first.Onward second) (right : second.Onward third) : first.Onward third :=
  ⟨left.reaches.trans right.reaches, right.marked ∘ left.marked⟩

end State.Onward

theorem Spells.onward {rule : Rule σ} {state opened : State} {label : Label} {length : Nat}
    (spells : Spells rule state label length opened) :
    state.Onward (opened.moveTo (opened.cursor.advance length)) := by
  constructor
  · rw [spells.cursor_eq]
    exact .advance _ _
  · intro marked
    cases spells with
    | openQuote next =>
        exact List.forall_mem_cons.2 ⟨(Quote.opening?_eq_some next).1, marked⟩
    | closeQuote next => exact fun quote member => marked quote (List.mem_of_mem_tail member)
    | _ => exact marked

theorem Skips.onward {gap : Gap} {trees trees' : List Tree} {state state' : State}
    (skips : Skips gap trees state trees' state') : state.Onward state' := by
  rcases skips with ⟨budget, cursor, skipped, rfl⟩
  exact ⟨Layout.reaches_of_skipGap skipped, id⟩

/-- Reading a rule leads onward. -/
theorem Reads.onward {rule : Rule σ} {mode : Mode} {trees trees' : List Tree}
    {state state' : State} (reads : Reads grammar rule mode trees state trees' state') :
    state.Onward state' := by
  induction reads with
  | empty | check | lineEnd | textEnd | role | targets | emptyBlock => exact .refl _
  | indent | dedent | manyNone => exact ⟨.refl _, id⟩
  | token spells => exact spells.onward
  | gap skips | follow skips | resume skips => exact skips.onward
  | seq _ _ left right => exact left.trans right
  | first _ taken | manyLast _ taken | scope _ taken | wrap _ taken | wrapBySome _ _ taken
  | wrapByNone _ _ taken | literal _ taken | within _ taken | conditional _ _ taken
  | call _ taken => exact taken
  | branchYes _ _ _ taken => exact taken
  | second _ taken | branchNo _ taken => exact ⟨taken.reaches, taken.marked⟩
  | manyMore _ _ once more => exact once.trans more

/-- The text from an opening to a closing quotation mark. -/
theorem isTight_textTo {first middle : Cursor} {quote closed : Quote} {length count more : Nat}
    (opens : Quote.opening? first.rest = some (quote, length))
    (between : middle = (first.advance length).advance count)
    (closes : closed.closing? middle.rest = some more) (known : closed.mark ∈ Quote.marks) :
    isTight (first.textTo (middle.advance more)) = true := by
  obtain ⟨-, present, visible⟩ := Quote.opening?_eq_some opens
  have last := Quote.closing?_eq_some closes
  rw [← Cursor.advance_add] at between
  rw [between, Cursor.rest_advance] at last
  rw [between, ← Cursor.advance_add, Cursor.textTo_advance, isTight, String.toList_ofList,
    List.head?_take, if_neg (by omega), List.take_add, List.getLast?_append, last, visible]
  simp [Quote.isWhiteSpace_of_mem_marks known]

/-- A literal is read from its opening to its closing mark. -/
theorem isTight_of_quoted {middle : Rule σ} {mode : Mode} {state state' : State}
    {inner : List Tree} (marked : state.IsMarked)
    (reads : Reads grammar (.seq .openQuote (.seq middle .closeQuote)) mode [] state inner
      state') :
    isTight (state.cursor.textTo state'.cursor) = true := by
  cases reads with
  | token spells => cases spells
  | seq readsOpen readsRest =>
      cases readsRest with
      | token spells => cases spells
      | seq readsMiddle readsClose =>
          have onward := readsOpen.onward.trans readsMiddle.onward
          cases readsOpen with
          | token spells =>
              cases spells with
              | openQuote opens =>
                  cases readsClose with
                  | token spells =>
                      cases spells with
                      | closeQuote closes =>
                          obtain ⟨count, between⟩ := readsMiddle.onward.reaches
                          rcases Option.bind_eq_some_iff.1 closes with ⟨quote, head, found⟩
                          exact isTight_textTo opens between found
                            (onward.marked marked quote (List.mem_of_mem_head? head))

end Rule

end SemanticDiff.Source
