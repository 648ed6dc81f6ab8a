/-!
# Positions and spans

A cursor is a place in a text, with the number of UTF-8 bytes before it and the
number of its line.  A span is what lies between two cursors.
-/

namespace SemanticDiff.Source

/-- A stretch of source text: a half-open interval of bytes and the first and
last line it touches, counted from one. -/
structure Span where
  startByte : Nat
  endByte : Nat
  startLine : Nat
  endLine : Nat
deriving DecidableEq, Repr

namespace Span

/-- The span from the beginning of one span to the end of another. -/
def cover (first last : Span) : Span where
  startByte := first.startByte
  endByte := last.endByte
  startLine := first.startLine
  endLine := last.endLine

/-- The lines of a span as they are shown to a reader. -/
def linesText (span : Span) : String :=
  s!"{span.startLine}-{span.endLine}"

end Span

/-- A place in a text: what is left to read, how many bytes were read, and the
line reached. -/
structure Cursor where
  rest : List Char
  offset : Nat
  line : Nat

namespace Cursor

/-- The beginning of a text.  A byte order mark is stepped over. -/
def start (text : String) : Cursor :=
  match text.toList with
  | '\uFEFF' :: rest => { rest := rest, offset := 3, line := 1 }
  | rest => { rest := rest, offset := 0, line := 1 }

/-- Step over a number of characters; lines are counted by line feeds. -/
def advance : Nat → Cursor → Cursor
  | 0, cursor => cursor
  | count + 1, cursor =>
      match cursor.rest with
      | [] => cursor
      | c :: rest =>
          advance count
            { rest := rest
              offset := cursor.offset + c.utf8Size
              line := if c = '\n' then cursor.line + 1 else cursor.line }

/-- The span between two cursors of one text. -/
def spanTo (first last : Cursor) : Span where
  startByte := first.offset
  endByte := last.offset
  startLine := first.line
  endLine := last.line

/-- The characters that fill a number of bytes. -/
def takeBytes : Nat → List Char → List Char
  | _, [] => []
  | count, c :: rest => if count = 0 then [] else c :: takeBytes (count - c.utf8Size) rest

/-- The characters between two cursors of one text. -/
def textTo (first last : Cursor) : String :=
  String.ofList (takeBytes (last.offset - first.offset) first.rest)

end Cursor

end SemanticDiff.Source
