import SemanticDiff.Source.Layout
import SemanticDiff.Source.Quote
import SemanticDiff.Source.Target

/-!
# Grammar rules and how they are read

A grammar gives every symbol a rule, and a rule says how a stretch of text is
read into nodes.  Choices are ordered: the first alternative that can be read is
taken.  The nodes read so far in the current scope are at hand, so that a rule
can wrap what stands to its left: this is how `a + b + c` grows to the left
without left recursion.

`Rule.run` is total.  Its budget bounds the depth of the reading, and `parse`
computes a budget from the length of the text.
-/

namespace SemanticDiff.Source

/-- How text is read, over the symbols `σ` of a grammar. -/
inductive Rule (σ : Type) where
  /-- Read nothing. -/
  | empty
  /-- Refuse. -/
  | fail
  /-- One of the operators, read as long as possible. -/
  | operator (texts : List String) (kind : Option Kind)
  /-- Exactly these characters. -/
  | exactly (text : String)
  /-- This word, as a keyword or as a construct of its own. -/
  | word (text : String) (kind : Option Kind)
  /-- A name other than these words. -/
  | name (reserved : List String)
  /-- A number literal. -/
  | number
  /-- The opening mark of a string literal. -/
  | openQuote
  /-- Text inside a string literal. -/
  | quotedText
  /-- The closing mark of a string literal. -/
  | closeQuote
  /-- The conversion mark of an interpolation. -/
  | conversion
  /-- Plain text of a format specifier. -/
  | formatText
  /-- Blanks, comments and continued lines. -/
  | gap (kind : Gap)
  /-- The gap after a finished expression. -/
  | follow
  /-- The gap after a token that may be the last one. -/
  | resume
  /-- One rule after the other. -/
  | seq (first second : Rule σ)
  /-- The first rule, or else the second. -/
  | alt (first second : Rule σ)
  /-- If the probe can be read, the second rule, or else the third. -/
  | branch (probe yes no : Rule σ)
  /-- The rule as often as it can be read. -/
  | many (rule : Rule σ)
  /-- Read the rule with a scope of its own. -/
  | scope (rule : Rule σ)
  /-- Read the rule, then make one node of all that is in scope. -/
  | wrap (label : Label) (rule : Rule σ)
  /-- Read the rule, then make one node of all that is in scope if its kind can
  be told. -/
  | wrapBy (kind : List Tree → Option Kind) (rule : Rule σ)
  /-- Make a string literal of the rule. -/
  | literal (rule : Rule σ)
  /-- Give a role to all that is in scope. -/
  | role (field : Field)
  /-- Turn all that is in scope into targets. -/
  | targets
  /-- Refuse unless all that is in scope satisfies a test. -/
  | check (test : List Tree → Bool)
  /-- Say what a line break after an expression means, and whether a conditional
  expression may be read. -/
  | within (follow : Gap) (conditional : Bool) (rule : Rule σ)
  /-- The rule, where a conditional expression may be read. -/
  | conditional (rule : Rule σ)
  /-- The end of a line. -/
  | lineEnd
  /-- The beginning of an indented block; its indentation is kept modulo 256. -/
  | indent
  /-- The end of an indented block. -/
  | dedent
  /-- A block without statements. -/
  | emptyBlock
  /-- The end of the text. -/
  | textEnd
  /-- The rule of a symbol. -/
  | call (symbol : σ)

namespace Rule

variable {σ : Type}

/-- Read rules one after the other. -/
def chain : List (Rule σ) → Rule σ
  | [] => .empty
  | [rule] => rule
  | rule :: rules => .seq rule (chain rules)

/-- Read the first rule that can be read. -/
def oneOf : List (Rule σ) → Rule σ
  | [] => .fail
  | [rule] => rule
  | rule :: rules => .alt rule (oneOf rules)

/-- The rule or nothing. -/
def opt (rule : Rule σ) : Rule σ :=
  .alt rule .empty

/-- A node of the given kind. -/
def node (kind : Kind) (rule : Rule σ) : Rule σ :=
  .scope (.wrap (.construct kind) rule)

/-- A construct made of what is in scope and the rule. -/
def grow (kind : Kind) (rule : Rule σ) : Rule σ :=
  .wrap (.construct kind) rule

/-- The rule in a role. -/
def inRole (field : Field) (rule : Rule σ) : Rule σ :=
  .scope (.seq rule (.role field))

/-- An operator or bracket. -/
def op (text : String) : Rule σ :=
  .operator [text] none

/-- A keyword. -/
def keyword (text : String) : Rule σ :=
  .word text none

/-- If one of the words comes next, the first rule, or else the second. -/
def onWord (words : List String) (yes no : Rule σ) : Rule σ :=
  .branch (oneOf (words.map keyword)) yes no

/-- What the reading of an expression depends on: what a line break after it
means, and whether a conditional expression may be read. -/
structure Mode where
  follow : Gap
  conditional : Bool

namespace Mode

/-- The gap after a token that may be the last one: where nothing can end, a
value has to follow. -/
def resume (mode : Mode) : Gap :=
  match mode.follow with
  | .join => .value
  | other => other

end Mode

/-- How far the reading has come: the place, the indentation of the blocks
around it, the string literals around it, whether the innermost text is that of
a formatted literal, and the furthest place where a token was refused. -/
structure State where
  cursor : Cursor
  indents : List Nat
  quotes : List Quote
  inFormat : Bool
  reach : Nat

namespace State

/-- The indentation of the innermost block. -/
def indent (state : State) : Nat :=
  state.indents.headD 0

/-- Move to another place. -/
def moveTo (state : State) (cursor : Cursor) : State :=
  { state with cursor }

/-- Record that a token was refused at another place. -/
def reaching (state : State) (place : Nat) : State :=
  { state with reach := max state.reach place }

end State

/-- The outcome of reading a rule: the nodes in scope, newest first, with the
state reached; or the furthest place where a token was refused. -/
inductive Outcome where
  | read (trees : List Tree) (state : State)
  | refused (reach : Nat)

/-- Refuse a token here. -/
def refuse (state : State) : Outcome :=
  .refused (max state.reach state.cursor.offset)

/-- Read a token of the given length. -/
def token (label : Label) (length : Nat) (trees : List Tree) (state : State) : Outcome :=
  let finish := state.cursor.advance length
  .read (Tree.leaf label (state.cursor.spanTo finish) (state.cursor.textTo finish) :: trees)
    (state.moveTo finish)

/-- Read a gap. -/
def readGap (gap : Gap) (budget : Nat) (trees : List Tree) (state : State) : Outcome :=
  match Layout.skipGap gap state.indent state.inFormat budget trees state.cursor with
  | some (trees, cursor) => .read trees (state.moveTo cursor)
  | none => refuse state

/-- Make one node of the trees in scope. -/
def gather (label : Label) (text : String) (trees : List Tree) (state : State) : Tree :=
  let children := trees.reverse
  Tree.node label none
    (Tree.spanOf (state.cursor.spanTo state.cursor) children) text children

/-- Turn the trees in scope into targets: one target, or a list of them where
commas part them. -/
def retarget (trees : List Tree) (state : State) : Option (List Tree) :=
  (Tree.toTargets? trees).map fun targets =>
    if targets.any (·.isLiteral ",") then
      [gather (.construct .patternList) "" targets state]
    else targets

/-- Read a rule of a grammar. -/
def run (grammar : σ → Rule σ) :
    (budget : Nat) → Rule σ → Mode → List Tree → State → Outcome
  | 0, _, _, _, state => .refused state.reach
  | budget + 1, rule, mode, trees, state =>
      match rule with
      | .empty => .read trees state
      | .fail => refuse state
      | .operator texts kind =>
          match Lexeme.operator state.cursor.rest with
          | some text =>
              if texts.contains text then
                token ((kind.map Label.construct).getD (.literal text)) text.length trees state
              else refuse state
          | none => refuse state
      | .exactly text =>
          if text.toList.isPrefixOf state.cursor.rest then
            token (.literal text) text.length trees state
          else refuse state
      | .word text kind =>
          if Lexeme.word state.cursor.rest = text.toList then
            token ((kind.map Label.construct).getD (.literal text)) text.length trees state
          else refuse state
      | .name reserved =>
          let word := Lexeme.word state.cursor.rest
          if word.isEmpty || reserved.contains (String.ofList word) then refuse state
          else token (.construct .identifier) word.length trees state
      | .number =>
          match Lexeme.number state.cursor.rest with
          | some (kind, length) => token (.construct kind) length trees state
          | none => refuse state
      | .openQuote =>
          match Quote.opening? state.cursor.rest with
          | some (quote, length) =>
              token (.construct .stringStart) length trees
                { state with quotes := quote :: state.quotes, inFormat := quote.format }
          | none => refuse state
      | .quotedText =>
          match state.quotes.head?.bind (·.content? state.cursor.rest) with
          | some length => token (.construct .stringContent) length trees state
          | none => refuse state
      | .closeQuote =>
          match state.quotes.head?.bind (·.closing? state.cursor.rest) with
          | some length =>
              token (.construct .stringEnd) length trees
                { state with quotes := state.quotes.tail, inFormat := false }
          | none => refuse state
      | .conversion =>
          match state.cursor.rest with
          | '!' :: c :: _ =>
              if 'a' ≤ c && c ≤ 'z' then token (.construct .typeConversion) 2 trees state
              else refuse state
          | _ => refuse state
      | .formatText =>
          let text := state.cursor.rest.takeWhile fun c =>
            c != '{' && c != '}' && c != '\n' && c != '\x00'
          if text.isEmpty then refuse state
          else token (.literal (String.ofList text)) text.length trees state
      | .gap kind => readGap kind budget trees state
      | .follow => readGap mode.follow budget trees state
      | .resume => readGap mode.resume budget trees state
      | .seq first second =>
          match run grammar budget first mode trees state with
          | .read trees state => run grammar budget second mode trees state
          | .refused reach => .refused reach
      | .alt first second =>
          match run grammar budget first mode trees state with
          | .read trees state => .read trees state
          | .refused reach => run grammar budget second mode trees (state.reaching reach)
      | .branch probe yes no =>
          match run grammar budget probe mode trees state with
          | .read _ _ => run grammar budget yes mode trees state
          | .refused reach => run grammar budget no mode trees (state.reaching reach)
      | .many rule =>
          match run grammar budget rule mode trees state with
          | .read trees' state' =>
              if state'.cursor.offset = state.cursor.offset then .read trees' state'
              else run grammar budget (.many rule) mode trees' state'
          | .refused reach => .read trees (state.reaching reach)
      | .scope rule =>
          match run grammar budget rule mode [] state with
          | .read inner state => .read (inner ++ trees) state
          | .refused reach => .refused reach
      | .wrap label rule =>
          match run grammar budget rule mode trees state with
          | .read trees state => .read [gather label "" trees state] state
          | .refused reach => .refused reach
      | .wrapBy kind rule =>
          match run grammar budget rule mode trees state with
          | .read trees state =>
              match kind trees.reverse with
              | some kind => .read [gather (.construct kind) "" trees state] state
              | none => .read trees state
          | .refused reach => .refused reach
      | .literal rule =>
          match run grammar budget rule mode [] state with
          | .read inner state' =>
              let text := state.cursor.textTo state'.cursor
              .read (gather (.construct .string) text inner state' :: trees) state'
          | .refused reach => .refused reach
      | .role field => .read (trees.map (Tree.withField field)) state
      | .targets =>
          match retarget trees state with
          | some patterns => .read patterns state
          | none => refuse state
      | .check test => if test trees.reverse then .read trees state else refuse state
      | .within after allowed rule =>
          run grammar budget rule { follow := after, conditional := allowed } trees state
      | .conditional rule =>
          if mode.conditional then run grammar budget rule mode trees state else refuse state
      | .lineEnd =>
          if Layout.lineEnds state.cursor.rest then .read trees state else refuse state
      | .indent =>
          match Layout.blockBegins? state.indent state.cursor.rest with
          | some columns => .read trees { state with indents := columns % 256 :: state.indents }
          | none => refuse state
      | .dedent =>
          if !state.inFormat && Layout.blockEnds state.indent state.cursor.rest then
            .read trees { state with indents := state.indents.tail }
          else refuse state
      | .emptyBlock =>
          .read (gather (.construct .block) "" [] state :: trees) state
      | .textEnd => if state.cursor.rest.isEmpty then .read trees state else refuse state
      | .call symbol => run grammar budget (grammar symbol) mode trees state

end Rule

end SemanticDiff.Source
