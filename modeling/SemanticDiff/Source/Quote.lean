import SemanticDiff.Source.Lexeme

/-!
# String literals

A literal is opened by a quotation mark with letters before it, and closed by
the same mark.  The letters decide whether a backslash escapes and whether
braces hold expressions.  Between the marks lies text, which is read here as far
as the closing mark or the next brace that opens an expression.
-/

namespace SemanticDiff.Source

/-- How a string literal was opened. -/
structure Quote where
  mark : Char
  triple : Bool
  raw : Bool
  format : Bool
  bytes : Bool

namespace Quote

/-- Whether a letter may stand before the opening mark. -/
def isFlag (c : Char) : Bool :=
  ['f', 'F', 'r', 'R', 'b', 'B', 'u', 'U'].contains c

/-- The opening of a literal at the front of a text, with its length.  A mark
written three times opens a literal that may span lines; a backquote never
does. -/
def opening? (text : List Char) : Option (Quote × Nat) :=
  let flags := text.takeWhile isFlag
  let has (lower upper : Char) := flags.contains lower || flags.contains upper
  let quote (mark : Char) (triple : Bool) : Quote :=
    { mark, triple, raw := has 'r' 'R', format := has 'f' 'F', bytes := has 'b' 'B' }
  match text.drop flags.length with
  | '\x60' :: _ => some (quote '\x60' false, flags.length + 1)
  | '\'' :: '\'' :: '\'' :: _ => some (quote '\'' true, flags.length + 3)
  | '\'' :: _ => some (quote '\'' false, flags.length + 1)
  | '"' :: '"' :: '"' :: _ => some (quote '"' true, flags.length + 3)
  | '"' :: _ => some (quote '"' false, flags.length + 1)
  | _ => none

/-- The length of the closing mark, if the text begins with it. -/
def closing? (quote : Quote) : List Char → Option Nat
  | a :: b :: c :: _ =>
      if quote.triple then
        if a = quote.mark && b = quote.mark && c = quote.mark then some 3 else none
      else if a = quote.mark then some 1 else none
  | a :: _ => if !quote.triple && a = quote.mark then some 1 else none
  | [] => none

/-- Whether the text begins with a number of hexadecimal digits. -/
def startsWithHex (count : Nat) (text : List Char) : Bool :=
  (text.take count).length == count && (text.take count).all Lexeme.isHexDigit

/-- The length of what an escaping backslash covers, itself included.  A
backslash before anything else covers only itself. -/
def escape : List Char → Nat
  | '\\' :: rest =>
      match rest with
      | '\n' :: _ => 2
      | '\r' :: '\n' :: _ => 3
      | 'u' :: rest' => if startsWithHex 4 rest' then 6 else 1
      | 'U' :: rest' => if startsWithHex 8 rest' then 10 else 1
      | 'x' :: rest' => if startsWithHex 2 rest' then 4 else 1
      | 'N' :: '{' :: rest' =>
          let name := rest'.takeWhile (· != '}')
          if name.isEmpty || name.length == rest'.length then 1 else name.length + 4
      | c :: _ =>
          if c.isDigit then 1 + ((rest.take 3).takeWhile Char.isDigit).length
          else if ['\'', '"', 'a', 'b', 'f', 'r', 'n', 't', 'v', '\\'].contains c then 2
          else 1
      | [] => 1
  | _ => 0

/-- What a backslash covers in a raw literal: itself, a quotation mark or
backslash after it, and a line break after that. -/
def rawEscape (quote : Quote) : List Char → Nat
  | '\\' :: rest =>
      let (covered, rest) :=
        match rest with
        | c :: rest' => if c = quote.mark || c = '\\' then (2, rest') else (1, rest)
        | [] => (1, [])
      match rest with
      | '\r' :: '\n' :: _ => covered + 2
      | '\r' :: _ => covered + 1
      | '\n' :: _ => covered + 1
      | _ => covered
  | _ => 0

/-- Read text up to the closing mark or a brace that opens an expression, and
give its length.  `fresh` says that no ordinary text stands since the last
escape: only there may a line break occur in a literal of one line.  `skip`
counts characters already spoken for.  A text that ends inside the literal has
no length, nor has one with a null character. -/
def contentFrom (quote : Quote) (fresh : Bool) (skip : Nat) : List Char → Option Nat
  | [] => none
  | c :: rest =>
      match skip with
      | skip + 1 =>
          if c = '\x00' then none else (contentFrom quote fresh skip rest).map (· + 1)
      | 0 =>
          if c = '\x00' then none
          else if quote.format && (c = '{' || c = '}') then
            if rest.head? = some c then (contentFrom quote true 1 rest).map (· + 1)
            else some 0
          else if c = '\\' then
            if quote.raw then
              (contentFrom quote fresh (rawEscape quote (c :: rest) - 1) rest).map (· + 1)
            else if quote.bytes && (rest.take 1).any (['N', 'u', 'U'].contains ·) then
              (contentFrom quote false 2 rest).map (· + 1)
            else (contentFrom quote true (escape (c :: rest) - 1) rest).map (· + 1)
          else if c = quote.mark then
            if (closing? quote (c :: rest)).isSome then some 0
            else if rest.head? = some quote.mark then
              (contentFrom quote true 1 rest).map (· + 1)
            else (contentFrom quote true 0 rest).map (· + 1)
          else if c = '\n' && !fresh && !quote.triple then none
          else (contentFrom quote false 0 rest).map (· + 1)

/-- The length of the text at the front, as far as it reaches; nothing if there
is none or the literal is malformed. -/
def content? (quote : Quote) (text : List Char) : Option Nat :=
  match contentFrom quote true 0 text with
  | some (length + 1) => some (length + 1)
  | _ => none

end Quote

end SemanticDiff.Source
