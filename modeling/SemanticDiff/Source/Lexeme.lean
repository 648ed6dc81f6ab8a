import SemanticDiff.Source.Kind
import SemanticDiff.Text.Identifier

/-!
# Words, operators and numbers

How far a token reaches from the front of a text.  A word is as long as
possible, an operator is the longest one of the language, and a number is the
longest literal.  Whether a word is a keyword is decided by the place in the
grammar where it stands, not here.
-/

namespace SemanticDiff.Source.Lexeme

open SemanticDiff.Text

/-- The word at the front of a text; empty if none begins there. -/
def word : List Char → List Char
  | [] => []
  | c :: rest => if isNameStart c then c :: rest.takeWhile isNameContinue else []

/-- The operators and brackets.  A longer operator stands before the shorter
ones that it begins with. -/
def operators : List String :=
  ["**=", "//=", ">>=", "<<=", "...",
    "**", "//", ">>", "<<", "<=", "==", "!=", ">=", "<>", "->", ":=",
    "+=", "-=", "*=", "/=", "@=", "%=", "&=", "^=", "|=",
    "+", "-", "*", "/", "@", "%", "&", "^", "|", "~", "<", ">", "=",
    ".", ",", ":", ";", "(", ")", "[", "]", "\x7b", "\x7d"]

/-- The operators with their characters. -/
def spelledOperators : List (List Char × String) :=
  operators.map fun operator => (operator.toList, operator)

/-- The longest operator at the front of a text. -/
def operator (text : List Char) : Option String :=
  (spelledOperators.find? fun candidate => candidate.1.isPrefixOf text).map (·.2)

/-! ## Numbers -/

/-- Digits in groups that may be parted, and ended, by single underscores.
`afterDigit` says that the character before was a digit.  The result is the
number of characters read. -/
def digitGroupsAfter (afterDigit : Bool) : List Char → Nat
  | [] => 0
  | c :: rest =>
      if c.isDigit then 1 + digitGroupsAfter true rest
      else if c = '_' && afterDigit then 1 + digitGroupsAfter false rest
      else 0

/-- The digits at the front of a text, in groups. -/
def digitGroups (text : List Char) : Nat :=
  digitGroupsAfter false text

/-- Digits of another base after its mark: an underscore may stand before any
digit. -/
def basedDigits (digit : Char → Bool) : List Char → Nat
  | [] => 0
  | c :: rest =>
      if digit c || (c = '_' && rest.head?.any digit) then 1 + basedDigits digit rest
      else 0

/-- An exponent: its mark, an optional sign and digits. -/
def exponent : List Char → Nat
  | mark :: sign :: rest =>
      if mark = 'e' || mark = 'E' then
        if sign = '+' || sign = '-' then
          let digits := digitGroups rest
          if digits = 0 then 0 else digits + 2
        else
          let digits := digitGroups (sign :: rest)
          if digits = 0 then 0 else digits + 1
      else 0
  | _ => 0

/-- One if the text begins with one of the characters, else zero. -/
def suffix (marks : List Char) : List Char → Nat
  | c :: _ => if marks.contains c then 1 else 0
  | [] => 0

/-- Whether a character is a hexadecimal digit. -/
def isHexDigit (c : Char) : Bool :=
  c.isDigit || ('a' ≤ c && c ≤ 'f') || ('A' ≤ c && c ≤ 'F')

/-- An integer written in base sixteen, eight or two. -/
def basedInteger : List Char → Nat
  | '0' :: mark :: rest =>
      let digits :=
        if mark = 'x' || mark = 'X' then basedDigits isHexDigit rest
        else if mark = 'o' || mark = 'O' then basedDigits (fun c => '0' ≤ c && c ≤ '7') rest
        else if mark = 'b' || mark = 'B' then basedDigits (fun c => c = '0' || c = '1') rest
        else 0
      if digits = 0 then 0
      else 2 + digits + suffix ['l', 'L'] (rest.drop digits)
  | _ => 0

/-- A fraction: a point with digits after it, or before it, or both, and an
exponent; or digits with an exponent alone.  The imaginary mark may follow. -/
def fraction (text : List Char) : Nat :=
  let whole := digitGroups text
  match text.drop whole with
  | '.' :: rest =>
      let decimals := digitGroups rest
      if whole = 0 && decimals = 0 then 0
      else
        let mantissa := whole + 1 + decimals
        let power := exponent (rest.drop decimals)
        mantissa + power + suffix ['j', 'J'] (rest.drop (decimals + power))
  | rest =>
      let power := exponent rest
      if whole = 0 || power = 0 then 0
      else whole + power + suffix ['j', 'J'] (rest.drop power)

/-- A whole number in base ten, with an optional mark for long or imaginary. -/
def decimalInteger (text : List Char) : Nat :=
  let digits := digitGroups text
  if digits = 0 then 0 else digits + suffix ['l', 'L', 'j', 'J'] (text.drop digits)

/-- The number literal at the front of a text: its kind and its length. -/
def number (text : List Char) : Option (Kind × Nat) :=
  let based := basedInteger text
  let fractional := fraction text
  let whole := decimalInteger text
  if based != 0 then some (.integer, based)
  else if fractional != 0 then some (.float, fractional)
  else if whole != 0 then some (.integer, whole)
  else none

end SemanticDiff.Source.Lexeme
