import SemanticDiff.Source.Rule

/-!
# What a rule can read

`Rule.run` reads a rule within a budget.  `Reads` says the same without a budget:
which nodes and which state can come of reading a rule.  Every successful run is
such a reading, so what holds of all readings holds of all runs.
-/

namespace SemanticDiff.Source.Rule

variable {σ : Type}

/-- A token that a rule reads: its label, its length, and the state in which it is
read. -/
inductive Spells : Rule σ → State → Label → Nat → State → Prop
  | operator {texts : List String} {kind : Option Kind} {state : State} {text : String}
      (next : Lexeme.operator state.cursor.rest = some text) (listed : texts.contains text) :
      Spells (.operator texts kind) state ((kind.map Label.construct).getD (.literal text))
        text.length state
  | exactly {text : String} {state : State}
      (next : text.toList.isPrefixOf state.cursor.rest) :
      Spells (.exactly text) state (.literal text) text.length state
  | word {text : String} {kind : Option Kind} {state : State}
      (next : Lexeme.word state.cursor.rest = text.toList) :
      Spells (.word text kind) state ((kind.map Label.construct).getD (.literal text))
        text.length state
  | name {reserved : List String} {state : State}
      (present : Lexeme.word state.cursor.rest ≠ [])
      (free : String.ofList (Lexeme.word state.cursor.rest) ∉ reserved) :
      Spells (.name reserved) state (.construct .identifier)
        (Lexeme.word state.cursor.rest).length state
  | number {state : State} {kind : Kind} {length : Nat}
      (next : Lexeme.number state.cursor.rest = some (kind, length)) :
      Spells .number state (.construct kind) length state
  | openQuote {state : State} {quote : Quote} {length : Nat}
      (next : Quote.opening? state.cursor.rest = some (quote, length)) :
      Spells .openQuote state (.construct .stringStart) length
        { state with quotes := quote :: state.quotes, inFormat := quote.format }
  | quotedText {state : State} {length : Nat}
      (next : state.quotes.head?.bind (·.content? state.cursor.rest) = some length) :
      Spells .quotedText state (.construct .stringContent) length state
  | closeQuote {state : State} {length : Nat}
      (next : state.quotes.head?.bind (·.closing? state.cursor.rest) = some length) :
      Spells .closeQuote state (.construct .stringEnd) length
        { state with quotes := state.quotes.tail, inFormat := false }
  | conversion {state : State} {c : Char} {rest : List Char}
      (next : state.cursor.rest = '!' :: c :: rest) (letter : 'a' ≤ c ∧ c ≤ 'z') :
      Spells .conversion state (.construct .typeConversion) 2 state
  | formatText {state : State} {text : List Char} (present : text ≠ [])
      (next : text = state.cursor.rest.takeWhile fun c =>
        c != '{' && c != '}' && c != '\n' && c != '\x00') :
      Spells .formatText state (.literal (String.ofList text)) text.length state

/-- A token is read where its rule begins. -/
theorem Spells.cursor_eq {rule : Rule σ} {state opened : State} {label : Label} {length : Nat}
    (spells : Spells rule state label length opened) : opened.cursor = state.cursor := by
  cases spells <;> rfl

/-- The leaf of a token. -/
def tokenLeaf (label : Label) (length : Nat) (state : State) : Tree :=
  Tree.leaf label (state.cursor.spanTo (state.cursor.advance length))
    (state.cursor.textTo (state.cursor.advance length))

/-- A gap that can be passed over, with the comments and continued lines in it. -/
def Skips (gap : Gap) (trees : List Tree) (state : State) (trees' : List Tree)
    (state' : State) : Prop :=
  ∃ budget cursor,
    Layout.skipGap gap state.indent state.inFormat budget trees state.cursor =
        some (trees', cursor) ∧
      state' = state.moveTo cursor

/-- The nodes in scope and the state that reading a rule can lead to. -/
inductive Reads (grammar : σ → Rule σ) :
    Rule σ → Mode → List Tree → State → List Tree → State → Prop
  | empty {mode trees state} : Reads grammar .empty mode trees state trees state
  | token {rule mode trees state label length opened}
      (spells : Spells rule state label length opened) :
      Reads grammar rule mode trees state (tokenLeaf label length opened :: trees)
        (opened.moveTo (opened.cursor.advance length))
  | gap {kind mode trees state trees' state'} (skips : Skips kind trees state trees' state') :
      Reads grammar (.gap kind) mode trees state trees' state'
  | follow {mode trees state trees' state'}
      (skips : Skips mode.follow trees state trees' state') :
      Reads grammar .follow mode trees state trees' state'
  | resume {mode trees state trees' state'}
      (skips : Skips mode.resume trees state trees' state') :
      Reads grammar .resume mode trees state trees' state'
  | seq {first second mode trees state trees₁ state₁ trees₂ state₂}
      (left : Reads grammar first mode trees state trees₁ state₁)
      (right : Reads grammar second mode trees₁ state₁ trees₂ state₂) :
      Reads grammar (.seq first second) mode trees state trees₂ state₂
  | first {first second mode trees state trees' state'}
      (taken : Reads grammar first mode trees state trees' state') :
      Reads grammar (.alt first second) mode trees state trees' state'
  | second {first second mode trees state reach trees' state'}
      (taken : Reads grammar second mode trees (state.reaching reach) trees' state') :
      Reads grammar (.alt first second) mode trees state trees' state'
  | branchYes {probe yes no mode trees state probed after trees' state'}
      (tried : Reads grammar probe mode trees state probed after)
      (taken : Reads grammar yes mode trees state trees' state') :
      Reads grammar (.branch probe yes no) mode trees state trees' state'
  | branchNo {probe yes no mode trees state reach trees' state'}
      (taken : Reads grammar no mode trees (state.reaching reach) trees' state') :
      Reads grammar (.branch probe yes no) mode trees state trees' state'
  | manyNone {rule mode trees state reach} :
      Reads grammar (.many rule) mode trees state trees (state.reaching reach)
  | manyLast {rule mode trees state trees' state'}
      (once : Reads grammar rule mode trees state trees' state') :
      Reads grammar (.many rule) mode trees state trees' state'
  | manyMore {rule mode trees state trees₁ state₁ trees₂ state₂}
      (once : Reads grammar rule mode trees state trees₁ state₁)
      (more : Reads grammar (.many rule) mode trees₁ state₁ trees₂ state₂) :
      Reads grammar (.many rule) mode trees state trees₂ state₂
  | scope {rule mode trees state inner state'}
      (inside : Reads grammar rule mode [] state inner state') :
      Reads grammar (.scope rule) mode trees state (inner ++ trees) state'
  | wrap {label rule mode trees state trees' state'}
      (inside : Reads grammar rule mode trees state trees' state') :
      Reads grammar (.wrap label rule) mode trees state [gather label "" trees' state'] state'
  | wrapBySome {kind rule mode trees state trees' state' made}
      (inside : Reads grammar rule mode trees state trees' state')
      (told : kind trees'.reverse = some made) :
      Reads grammar (.wrapBy kind rule) mode trees state
        [gather (.construct made) "" trees' state'] state'
  | wrapByNone {kind rule mode trees state trees' state'}
      (inside : Reads grammar rule mode trees state trees' state')
      (told : kind trees'.reverse = none) :
      Reads grammar (.wrapBy kind rule) mode trees state trees' state'
  | literal {rule mode trees state inner state'}
      (inside : Reads grammar rule mode [] state inner state') :
      Reads grammar (.literal rule) mode trees state
        (gather (.construct .string) (state.cursor.textTo state'.cursor) inner state' :: trees)
        state'
  | role {field mode trees state} :
      Reads grammar (.role field) mode trees state (trees.map (Tree.withField field)) state
  | targets {mode trees state patterns} (turned : retarget trees state = some patterns) :
      Reads grammar .targets mode trees state patterns state
  | check {test mode trees state} (passed : test trees.reverse) :
      Reads grammar (.check test) mode trees state trees state
  | within {after allowed rule mode trees state trees' state'}
      (inside : Reads grammar rule { follow := after, conditional := allowed } trees state
        trees' state') :
      Reads grammar (.within after allowed rule) mode trees state trees' state'
  | conditional {rule mode trees state trees' state'} (allowed : mode.conditional)
      (inside : Reads grammar rule mode trees state trees' state') :
      Reads grammar (.conditional rule) mode trees state trees' state'
  | lineEnd {mode trees state} (ended : Layout.lineEnds state.cursor.rest) :
      Reads grammar .lineEnd mode trees state trees state
  | indent {mode trees state columns}
      (begun : Layout.blockBegins? state.indent state.cursor.rest = some columns) :
      Reads grammar .indent mode trees state trees
        { state with indents := columns % 256 :: state.indents }
  | dedent {mode trees state}
      (ended : !state.inFormat && Layout.blockEnds state.indent state.cursor.rest) :
      Reads grammar .dedent mode trees state trees { state with indents := state.indents.tail }
  | emptyBlock {mode trees state} :
      Reads grammar .emptyBlock mode trees state
        (gather (.construct .block) "" [] state :: trees) state
  | textEnd {mode trees state} (ended : state.cursor.rest = []) :
      Reads grammar .textEnd mode trees state trees state
  | call {symbol mode trees state trees' state'}
      (inside : Reads grammar (grammar symbol) mode trees state trees' state') :
      Reads grammar (.call symbol) mode trees state trees' state'

/-! ## Runs are readings -/

theorem token_eq_read {label : Label} {length : Nat} {trees trees' : List Tree}
    {state state' : State} (ran : token label length trees state = .read trees' state') :
    trees' = tokenLeaf label length state :: trees ∧
      state' = state.moveTo (state.cursor.advance length) := by
  obtain ⟨rfl, rfl⟩ := Outcome.read.inj ran
  exact ⟨rfl, rfl⟩

/-- A rule that reads a token it spells reads as it runs. -/
theorem Spells.reads_of_token {grammar : σ → Rule σ} {rule : Rule σ} {mode : Mode}
    {label : Label} {length : Nat} {trees trees' : List Tree} {state opened state' : State}
    (spells : Spells rule state label length opened)
    (ran : Rule.token label length trees opened = .read trees' state') :
    Reads grammar rule mode trees state trees' state' := by
  obtain ⟨rfl, rfl⟩ := token_eq_read ran
  exact .token spells

theorem skips_of_readGap {gap : Gap} {budget : Nat} {trees trees' : List Tree}
    {state state' : State} (ran : readGap gap budget trees state = .read trees' state') :
    Skips gap trees state trees' state' := by
  rw [readGap] at ran
  split at ran
  · rename_i skipped
    obtain ⟨rfl, rfl⟩ := Outcome.read.inj ran
    exact ⟨budget, _, skipped, rfl⟩
  · cases ran

/-! A rule is refused where its guard fails, and where a rule inside it is refused. -/

section

variable {trees trees' : List Tree} {state state' : State}

theorem of_guard {condition : Prop} [Decidable condition] {outcome : Outcome}
    (ran : (if condition then outcome else refuse state) = .read trees' state') :
    condition ∧ outcome = .read trees' state' := by
  split at ran
  · rename_i holds
    exact ⟨holds, ran⟩
  · simp [refuse] at ran

theorem of_passed {outcome : Outcome} {later : List Tree → State → Outcome}
    (ran : (match outcome with
      | .read trees state => later trees state
      | .refused reach => .refused reach) = .read trees' state') :
    ∃ trees state, outcome = .read trees state ∧ later trees state = .read trees' state' := by
  cases outcome with
  | read trees state => exact ⟨trees, state, rfl, ran⟩
  | refused reach => cases ran

end

/-- Every successful run is a reading. -/
theorem reads_of_run {grammar : σ → Rule σ} {budget : Nat} {rule : Rule σ} {mode : Mode}
    {trees trees' : List Tree} {state state' : State}
    (ran : run grammar budget rule mode trees state = .read trees' state') :
    Reads grammar rule mode trees state trees' state' := by
  induction budget generalizing rule mode trees state trees' state' with
  | zero => simp [run] at ran
  | succ budget ih =>
      cases rule with
      | empty =>
          obtain ⟨rfl, rfl⟩ := Outcome.read.inj ran
          exact .empty
      | fail => simp [run, refuse] at ran
      | operator texts kind =>
          simp only [run] at ran
          split at ran
          · rename_i text next
            rcases of_guard ran with ⟨listed, made⟩
            exact (Spells.operator next listed).reads_of_token made
          · simp [refuse] at ran
      | exactly text =>
          rcases of_guard ran with ⟨next, made⟩
          exact (Spells.exactly next).reads_of_token made
      | word text kind =>
          rcases of_guard ran with ⟨next, made⟩
          exact (Spells.word next).reads_of_token made
      | name reserved =>
          simp only [run] at ran
          split at ran
          · simp [refuse] at ran
          · rename_i allowed
            simp only [Bool.or_eq_true, List.isEmpty_iff, List.contains_iff_mem, not_or] at allowed
            exact (Spells.name allowed.1 allowed.2).reads_of_token ran
      | number =>
          simp only [run] at ran
          split at ran
          · rename_i kind length next
            exact (Spells.number next).reads_of_token ran
          · simp [refuse] at ran
      | openQuote =>
          simp only [run] at ran
          split at ran
          · rename_i quote length next
            exact (Spells.openQuote next).reads_of_token ran
          · simp [refuse] at ran
      | quotedText =>
          simp only [run] at ran
          split at ran
          · rename_i length next
            exact (Spells.quotedText next).reads_of_token ran
          · simp [refuse] at ran
      | closeQuote =>
          simp only [run] at ran
          split at ran
          · rename_i length next
            exact (Spells.closeQuote next).reads_of_token ran
          · simp [refuse] at ran
      | conversion =>
          simp only [run] at ran
          split at ran
          · rename_i c rest next
            rcases of_guard ran with ⟨letter, made⟩
            exact (Spells.conversion next (by simpa using letter)).reads_of_token made
          · simp [refuse] at ran
      | formatText =>
          simp only [run] at ran
          split at ran
          · simp [refuse] at ran
          · rename_i present
            exact (Spells.formatText (by simpa using present) rfl).reads_of_token ran
      | gap kind => exact .gap (skips_of_readGap ran)
      | follow => exact .follow (skips_of_readGap ran)
      | resume => exact .resume (skips_of_readGap ran)
      | seq first second =>
          rcases of_passed ran with ⟨trees₁, state₁, left, right⟩
          exact .seq (ih left) (ih right)
      | alt first second =>
          simp only [run] at ran
          split at ran
          · rename_i taken
            obtain ⟨rfl, rfl⟩ := Outcome.read.inj ran
            exact .first (ih taken)
          · exact .second (ih ran)
      | branch probe yes no =>
          simp only [run] at ran
          split at ran
          · rename_i tried
            exact .branchYes (ih tried) (ih ran)
          · exact .branchNo (ih ran)
      | many rule =>
          simp only [run] at ran
          split at ran
          · rename_i once
            split at ran
            · obtain ⟨rfl, rfl⟩ := Outcome.read.inj ran
              exact .manyLast (ih once)
            · exact .manyMore (ih once) (ih ran)
          · obtain ⟨rfl, rfl⟩ := Outcome.read.inj ran
            exact .manyNone
      | scope rule =>
          rcases of_passed ran with ⟨inner, after, inside, made⟩
          obtain ⟨rfl, rfl⟩ := Outcome.read.inj made
          exact .scope (ih inside)
      | wrap label rule =>
          rcases of_passed ran with ⟨inner, after, inside, made⟩
          obtain ⟨rfl, rfl⟩ := Outcome.read.inj made
          exact .wrap (ih inside)
      | wrapBy kind rule =>
          rcases of_passed ran with ⟨inner, after, inside, made⟩
          cases told : kind inner.reverse with
          | none =>
              rw [told] at made
              obtain ⟨rfl, rfl⟩ := Outcome.read.inj made
              exact .wrapByNone (ih inside) told
          | some found =>
              rw [told] at made
              obtain ⟨rfl, rfl⟩ := Outcome.read.inj made
              exact .wrapBySome (ih inside) told
      | literal rule =>
          rcases of_passed ran with ⟨inner, after, inside, made⟩
          obtain ⟨rfl, rfl⟩ := Outcome.read.inj made
          exact .literal (ih inside)
      | role field =>
          obtain ⟨rfl, rfl⟩ := Outcome.read.inj ran
          exact .role
      | targets =>
          simp only [run] at ran
          split at ran
          · rename_i turned
            obtain ⟨rfl, rfl⟩ := Outcome.read.inj ran
            exact .targets turned
          · simp [refuse] at ran
      | check test =>
          rcases of_guard ran with ⟨passed, made⟩
          obtain ⟨rfl, rfl⟩ := Outcome.read.inj made
          exact .check passed
      | within after allowed rule => exact .within (ih ran)
      | conditional rule =>
          rcases of_guard ran with ⟨allowed, inside⟩
          exact .conditional allowed (ih inside)
      | lineEnd =>
          rcases of_guard ran with ⟨ended, made⟩
          obtain ⟨rfl, rfl⟩ := Outcome.read.inj made
          exact .lineEnd ended
      | indent =>
          simp only [run] at ran
          split at ran
          · rename_i begun
            obtain ⟨rfl, rfl⟩ := Outcome.read.inj ran
            exact .indent begun
          · simp [refuse] at ran
      | dedent =>
          rcases of_guard ran with ⟨ended, made⟩
          obtain ⟨rfl, rfl⟩ := Outcome.read.inj made
          exact .dedent ended
      | emptyBlock =>
          obtain ⟨rfl, rfl⟩ := Outcome.read.inj ran
          exact .emptyBlock
      | textEnd =>
          rcases of_guard ran with ⟨ended, made⟩
          obtain ⟨rfl, rfl⟩ := Outcome.read.inj made
          exact .textEnd (by simpa using ended)
      | call symbol => exact .call (ih ran)

end SemanticDiff.Source.Rule
