import SemanticDiff.Source.Tree

/-!
# Layout

Line breaks and indentation carry meaning only where the grammar looks for
them.  Between two tokens lies a gap of blanks, comments and continued lines;
what a line break in a gap means depends on what may stand next:

* inside brackets that can be closed here it means nothing;
* where a statement can end, it ends the statement;
* between statements, a line indented less than the block ends the block;
* where an expression has to go on, the text may go on in the next line, as long
  as that line is not indented less than the block.

Comments and continued lines become nodes of the tree.
-/

namespace SemanticDiff.Source

/-- What a line break in a gap means. -/
inductive Gap where
  /-- Inside brackets: nothing. -/
  | free
  /-- A statement may end here. -/
  | line
  /-- Between the statements of a block. -/
  | statement
  /-- A value has to follow; it may be a string in a line indented less. -/
  | value
  /-- A word or an operator has to follow. -/
  | join
deriving DecidableEq, Repr

namespace Layout

/-- What lies between a place and the next token: whether a line ended, how far
the token's line is indented, and how far the first comment line before it
is. -/
structure Lookahead where
  lineEnded : Bool
  indent : Nat
  comment : Option Nat
  quoteNext : Bool

/-- Look past blanks, line breaks and continued lines.  A tab counts for eight
columns, and a carriage return or form feed starts the count again.  Comment
lines are passed if `comments` is set; a comment at the end of a line that holds
a token gives no lookahead, nor does a stray backslash.  The end of the text
ends a line. -/
def lookaheadFrom (comments inComment lineEnded : Bool) (indent : Nat)
    (comment : Option Nat) : List Char → Option Lookahead
  | [] => some { lineEnded := true, indent := 0, comment, quoteNext := false }
  | c :: rest =>
      if inComment then
        lookaheadFrom comments (c != '\n') lineEnded 0 comment rest
      else if c = '\n' then lookaheadFrom comments false true 0 comment rest
      else if c = ' ' then lookaheadFrom comments false lineEnded (indent + 1) comment rest
      else if c = '\r' || c = '\x0c' then
        lookaheadFrom comments false lineEnded 0 comment rest
      else if c = '\t' then lookaheadFrom comments false lineEnded (indent + 8) comment rest
      else if c = '#' && comments then
        if lineEnded then
          lookaheadFrom comments true lineEnded 0 (some (comment.getD indent)) rest
        else none
      else if c = '\\' then
        match rest with
        | [] => some { lineEnded := true, indent := 0, comment, quoteNext := false }
        | '\n' :: rest' => lookaheadFrom comments false lineEnded indent comment rest'
        | ['\r'] => some { lineEnded := true, indent := 0, comment, quoteNext := false }
        | '\r' :: '\n' :: rest' => lookaheadFrom comments false lineEnded indent comment rest'
        | _ => none
      else
        some { lineEnded, indent, comment, quoteNext := ['"', '\'', '\x60'].contains c }

/-- Look ahead from a place. -/
def lookahead (comments : Bool) (text : List Char) : Option Lookahead :=
  lookaheadFrom comments false false 0 none text

/-- Whether the line ends before the next token. -/
def lineEnds (text : List Char) : Bool :=
  (lookahead true text).any (·.lineEnded)

/-- Whether the block indented by `current` ends before the next token.  Comment
lines that are indented as far as the block still belong to it. -/
def blockEnds (current : Nat) (text : List Char) : Bool :=
  (lookahead true text).any fun next =>
    next.lineEnded && next.indent < current && next.comment.all (· < current)

/-- The indentation of the block that begins here, if the next line is indented
further than `current`. -/
def blockBegins? (current : Nat) (text : List Char) : Option Nat :=
  match lookahead true text with
  | some next => if next.lineEnded && current < next.indent then some next.indent else none
  | none => none

/-- Whether the next token stands in a line that is indented too little to
continue an unfinished expression. -/
def fallsOut (current : Nat) (quotes : Bool) (text : List Char) : Bool :=
  (lookahead false text).any fun next =>
    next.lineEnded && next.indent < current && !(quotes && next.quoteNext)

/-- Characters that separate tokens and mean nothing else. -/
def isBlank (c : Char) : Bool :=
  c = ' ' || ('\t' ≤ c && c ≤ '\r') || c = '\uFEFF' || c = '\u2060' || c = '\u200B'

/-- Pass over the blanks at the front. -/
def skipBlanks (cursor : Cursor) : Cursor :=
  cursor.advance (cursor.rest.takeWhile isBlank).length

/-- The comment or continued line at the front of a text, with its length.  A
comment ends with its line, or before a null character. -/
def extra? : List Char → Option (Kind × Nat)
  | '#' :: rest =>
      some (.comment, 1 + (rest.takeWhile fun c => c != '\n' && c != '\x00').length)
  | '\\' :: '\n' :: _ => some (.lineContinuation, 2)
  | '\\' :: '\r' :: '\n' :: _ => some (.lineContinuation, 3)
  | _ => none

/-- Whether a gap goes on at this place, stops here, or may not be here. -/
inductive Step where
  | goOn | stop | refuse

/-- What a gap does at a place in a block indented by `current`; inside a
formatted string no line falls out of the block. -/
def step (gap : Gap) (current : Nat) (inFormat : Bool) (text : List Char) : Step :=
  match gap with
  | .free => .goOn
  | .line => if lineEnds text then .stop else .goOn
  | .statement => if !inFormat && blockEnds current text then .stop else .goOn
  | .value => if !inFormat && fallsOut current true text then .refuse else .goOn
  | .join => if !inFormat && fallsOut current false text then .refuse else .goOn

/-- Pass over a gap, gathering its comments and continued lines, newest first.
There is no result where the gap is refused.  `budget` bounds the number of
comments and continued lines. -/
def skipGap (gap : Gap) (current : Nat) (inFormat : Bool) :
    (budget : Nat) → List Tree → Cursor → Option (List Tree × Cursor)
  | 0, trees, cursor => some (trees, cursor)
  | budget + 1, trees, cursor =>
      match step gap current inFormat cursor.rest with
      | .refuse => none
      | .stop => some (trees, cursor)
      | .goOn =>
          let start := skipBlanks cursor
          match extra? start.rest with
          | some (kind, length) =>
              let finish := start.advance length
              let leaf := Tree.leaf (.construct kind) (start.spanTo finish) (start.textTo finish)
              skipGap gap current inFormat budget (leaf :: trees) finish
          | none => some (trees, start)

end Layout

end SemanticDiff.Source
