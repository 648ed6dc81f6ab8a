/-!
# Reading JSON

A reader takes characters from the beginning of a text.  It stops at the first
fault it meets, and tells a text that is malformed from one that ends too early
and from one that holds another kind of value than was asked for.
-/

namespace SemanticDiff.Json

/-- Why a text cannot be read. -/
inductive ReadError where
  /-- The text is not JSON. -/
  | malformed
  /-- The text holds something else than what was asked for. -/
  | unexpected
  /-- The text ends too early. -/
  | truncated
deriving DecidableEq, Repr

/-- What is read from the beginning of a text, and what is left. -/
abbrev Reader (α : Type) := List Char → Except ReadError (α × List Char)

/-! ## Blanks and words -/

/-- Whether a character may stand between tokens. -/
def isBlank (c : Char) : Bool :=
  c == ' ' || c == '\n' || c == '\t' || c == '\r'

/-- Step over blanks. -/
def skipBlanks (chars : List Char) : List Char :=
  chars.dropWhile isBlank

/-- Read exactly these characters. -/
def readWord : List Char → List Char → Except ReadError (List Char)
  | [], chars => .ok chars
  | _ :: _, [] => .error .truncated
  | c :: word, d :: chars => if c = d then readWord word chars else .error .malformed

/-! ## Texts -/

/-- The value of a digit to the base sixteen. -/
def hexValue? (c : Char) : Option Nat :=
  if '0' ≤ c && c ≤ '9' then some (c.toNat - '0'.toNat)
  else if 'a' ≤ c && c ≤ 'f' then some (c.toNat - 'a'.toNat + 10)
  else if 'A' ≤ c && c ≤ 'F' then some (c.toNat - 'A'.toNat + 10)
  else none

/-- The value of four digits to the base sixteen. -/
def hexUnit? (a b c d : Char) : Option Nat := do
  let high ← hexValue? a
  let second ← hexValue? b
  let third ← hexValue? c
  let low ← hexValue? d
  return ((high * 16 + second) * 16 + third) * 16 + low

/-- The fault of an escape that has fewer than four characters after it. -/
def shortEscape (chars : List Char) : ReadError :=
  if (String.ofList chars).utf8ByteSize < 4 then .truncated else .malformed

/-- The character that a letter after a backslash stands for. -/
def escaped? (c : Char) : Option Char :=
  if c = '"' || c = '\\' || c = '/' then some c
  else if c = 'b' then some '\x08'
  else if c = 'f' then some '\x0c'
  else if c = 'n' then some '\n'
  else if c = 'r' then some '\r'
  else if c = 't' then some '\t'
  else none

/-- Whether a unit is the first half of a pair. -/
def isLeading (unit : Nat) : Bool :=
  0xD800 ≤ unit && unit < 0xDC00

/-- Whether a unit is the second half of a pair. -/
def isTrailing (unit : Nat) : Bool :=
  0xDC00 ≤ unit && unit < 0xE000

/-- The character of a pair of units. -/
def pairedChar (leading trailing : Nat) : Char :=
  Char.ofNat (0x10000 + (leading - 0xD800) * 0x400 + (trailing - 0xDC00))

/-- Put a character in front of what was read. -/
def consChar (c : Char) (read : Except ReadError (List Char × List Char)) :
    Except ReadError (List Char × List Char) :=
  read.map fun result => (c :: result.1, result.2)

/-- Read a text up to its closing quotation mark. -/
def readChars : List Char → Except ReadError (List Char × List Char)
  | [] => .error .truncated
  | c :: rest =>
      if c = '"' then .ok ([], rest)
      else if c = '\\' then
        match rest with
        | [] => .error .truncated
        | letter :: rest =>
            match escaped? letter with
            | some character => consChar character (readChars rest)
            | none =>
                if letter = 'u' then
                  match rest with
                  | a :: b :: c :: d :: rest =>
                      match hexUnit? a b c d with
                      | none => .error .malformed
                      | some unit =>
                          if isTrailing unit then .error .malformed
                          else if isLeading unit then
                            match rest with
                            | '\\' :: 'u' :: a :: b :: c :: d :: rest =>
                                match hexUnit? a b c d with
                                | none => .error .malformed
                                | some second =>
                                    if isTrailing second then
                                      consChar (pairedChar unit second) (readChars rest)
                                    else .error .malformed
                            | '\\' :: 'u' :: short => .error (shortEscape short)
                            | ['\\'] => .error .truncated
                            | [] => .error .truncated
                            | _ => .error .malformed
                          else consChar (Char.ofNat unit) (readChars rest)
                  | short => .error (shortEscape short)
                else .error .malformed
      else if c.toNat < 32 then .error .malformed
      else consChar c (readChars rest)

/-- Step over a text up to its closing quotation mark; halves of pairs are not
put together. -/
def skipChars : List Char → Except ReadError (List Char)
  | [] => .error .truncated
  | c :: rest =>
      if c = '"' then .ok rest
      else if c = '\\' then
        match rest with
        | [] => .error .truncated
        | letter :: rest =>
            if (escaped? letter).isSome then skipChars rest
            else if letter = 'u' then
              match rest with
              | a :: b :: c :: d :: rest =>
                  if (hexUnit? a b c d).isSome then skipChars rest else .error .malformed
              | short => .error (shortEscape short)
            else .error .malformed
      else if c.toNat < 32 then .error .malformed
      else skipChars rest

/-- Read a text after its opening quotation mark. -/
def readText : Reader String := fun chars =>
  (readChars chars).map fun result => (String.ofList result.1, result.2)

/-! ## Numbers -/

/-- A number as it is written. -/
structure Numeral where
  negative : Bool
  whole : List Char
  fraction : List Char
  hasFraction : Bool
  exponent : Option Int

/-- Read the digits of an exponent after its letter. -/
def readExponent (chars : List Char) : Except ReadError (Int × List Char) :=
  let (negative, chars) :=
    match chars with
    | '-' :: rest => (true, rest)
    | '+' :: rest => (false, rest)
    | _ => (false, chars)
  match chars with
  | [] => .error .truncated
  | c :: _ =>
      if c.isDigit then
        let value : Nat := Nat.ofDigitChars 10 (chars.takeWhile Char.isDigit) 0
        .ok (if negative then -value else value, chars.dropWhile Char.isDigit)
      else .error .malformed

/-- Read a number after its sign. -/
def readNumeral (negative : Bool) (chars : List Char) :
    Except ReadError (Numeral × List Char) := do
  let whole := chars.takeWhile Char.isDigit
  let rest := chars.dropWhile Char.isDigit
  match whole, chars with
  | [], [] => .error .truncated
  | [], _ :: _ => .error .malformed
  | '0' :: _ :: _, _ => .error .malformed
  | _, _ =>
      let (fraction, hasFraction, rest) ←
        match rest with
        | '.' :: rest =>
            let fraction := rest.takeWhile Char.isDigit
            if fraction.isEmpty then
              if rest.isEmpty then .error .truncated else .error .malformed
            else .ok (fraction, true, rest.dropWhile Char.isDigit)
        | _ => .ok ([], false, rest)
      match rest with
      | c :: after =>
          if c = 'e' || c = 'E' then
            let (exponent, rest) ← readExponent after
            return ({ negative, whole, fraction, hasFraction, exponent := some exponent }, rest)
          else return ({ negative, whole, fraction, hasFraction, exponent := none }, rest)
      | [] => return ({ negative, whole, fraction, hasFraction, exponent := none }, rest)

/-- A number: whole numbers of 64 bits are told from all others. -/
inductive Number where
  | int (value : Int)
  | real
deriving DecidableEq, Repr

namespace Number

/-- Whole numbers of 64 bits without a sign lie below this power of two. -/
def unsignedLimit : Nat := 18446744073709551616

/-- Whole numbers of 64 bits with a sign lie below this power of two. -/
def signedLimit : Nat := 9223372036854775808

/-- The number nearest to a natural number that has at most 53 significant
binary digits; a tie goes to the even one. -/
def nearest (number : Nat) : Nat :=
  let shift := number.log2 - 52
  let unit := 1 <<< shift
  let quotient := number / unit
  let remainder := number % unit
  let up := 2 * remainder > unit || (2 * remainder == unit && quotient % 2 == 1)
  (if shift > 0 && up then quotient + 1 else quotient) * unit

/-- Add digits to a significand as long as it fits in 64 bits.  The second
component counts the digits that were left out. -/
def absorb (significand : Nat) : List Char → Nat × Nat
  | [] => (significand, 0)
  | digit :: digits =>
      let next := significand * 10 + (digit.toNat - '0'.toNat)
      if next < unsignedLimit then absorb next digits else (significand, digits.length + 1)

/-- Whether a number is too large for a floating-point number of 64 bits. -/
def isTooLarge (numeral : Numeral) : Bool :=
  let (whole, dropped) := absorb 0 numeral.whole
  let (significand, ignored) := absorb whole numeral.fraction
  let scale : Int :=
    dropped - (numeral.fraction.length - ignored : Nat) + numeral.exponent.getD 0
  significand != 0 &&
    (scale > 308 ||
      (scale ≥ 0 &&
        nearest significand * nearest (Nat.pow 10 scale.toNat) ≥ (1 <<< 1024) - (1 <<< 970)))

/-- The number that a numeral stands for. -/
def ofNumeral (numeral : Numeral) : Except ReadError Number :=
  let value := Nat.ofDigitChars 10 numeral.whole 0
  if numeral.hasFraction || numeral.exponent.isSome then
    if isTooLarge numeral then .error .malformed else .ok real
  else if numeral.negative then
    if value = 0 then .ok real
    else if value ≤ signedLimit then .ok (int (-value))
    else if isTooLarge numeral then .error .malformed
    else .ok real
  else if value < unsignedLimit then .ok (int value)
  else if isTooLarge numeral then .error .malformed
  else .ok real

end Number

/-- Read a number after its sign. -/
def readNumber (negative : Bool) : Reader Number := fun chars => do
  let (numeral, rest) ← readNumeral negative chars
  return (← Number.ofNumeral numeral, rest)

/-! ## Values that are not kept -/

/-- How thoroughly a value that is not kept is checked. -/
inductive Scrutiny where
  /-- Texts and numbers must have a meaning, and brackets nest at most this
  deep. -/
  | full (depth : Nat)
  /-- Only the form matters. -/
  | form

namespace Scrutiny

/-- The scrutiny inside another pair of brackets. -/
def inner? : Scrutiny → Option Scrutiny
  | full 0 => none
  | full (depth + 1) => some (full depth)
  | form => some form

/-- Step over a text. -/
def skipText : Scrutiny → List Char → Except ReadError (List Char)
  | full _, chars => (readChars chars).map (·.2)
  | form, chars => skipChars chars

/-- Step over a number.  If only the form matters, an unfinished number is
malformed. -/
def skipNumber (negative : Bool) : Scrutiny → List Char → Except ReadError (List Char)
  | full _, chars => (readNumber negative chars).map (·.2)
  | form, chars =>
      match readNumeral negative chars with
      | .ok (_, rest) => .ok rest
      | .error _ => .error .malformed

end Scrutiny

mutual

/-- Step over a value. -/
def skipValue (scrutiny : Scrutiny) : Nat → List Char → Except ReadError (List Char)
  | 0, _ => .error .malformed
  | budget + 1, chars =>
      match skipBlanks chars with
      | [] => .error .truncated
      | c :: rest =>
          if c = 'n' then readWord ['u', 'l', 'l'] rest
          else if c = 't' then readWord ['r', 'u', 'e'] rest
          else if c = 'f' then readWord ['a', 'l', 's', 'e'] rest
          else if c = '-' then scrutiny.skipNumber true rest
          else if c.isDigit then scrutiny.skipNumber false (c :: rest)
          else if c = '"' then scrutiny.skipText rest
          else if c = '[' then
            match scrutiny.inner? with
            | none => .error .malformed
            | some inner =>
                match skipBlanks rest with
                | ']' :: rest => .ok rest
                | rest => skipItems inner budget rest
          else if c = '\x7b' then
            match scrutiny.inner? with
            | none => .error .malformed
            | some inner =>
                match skipBlanks rest with
                | '\x7d' :: rest => .ok rest
                | rest => skipFields inner budget rest
          else .error .malformed

/-- Step over the items of a list and its closing bracket. -/
def skipItems (scrutiny : Scrutiny) : Nat → List Char → Except ReadError (List Char)
  | 0, _ => .error .malformed
  | budget + 1, chars => do
      let rest ← skipValue scrutiny budget chars
      match skipBlanks rest with
      | [] => .error .truncated
      | ',' :: rest => skipItems scrutiny budget rest
      | ']' :: rest => .ok rest
      | _ => .error .malformed

/-- Step over the fields of a record and its closing bracket. -/
def skipFields (scrutiny : Scrutiny) : Nat → List Char → Except ReadError (List Char)
  | 0, _ => .error .malformed
  | budget + 1, chars =>
      match skipBlanks chars with
      | [] => .error .truncated
      | '"' :: rest => do
          let rest ← scrutiny.skipText rest
          match skipBlanks rest with
          | [] => .error .truncated
          | ':' :: rest =>
              let rest ← skipValue scrutiny budget rest
              match skipBlanks rest with
              | [] => .error .truncated
              | ',' :: rest => skipFields scrutiny budget rest
              | '\x7d' :: rest => .ok rest
              | _ => .error .malformed
          | _ => .error .malformed
      | _ => .error .malformed

end

/-- Step over a value of which nothing is kept. -/
def skip (scrutiny : Scrutiny) (chars : List Char) : Except ReadError (List Char) :=
  skipValue scrutiny (2 * chars.length + 2) chars

/-! ## Values of a known shape -/

/-- The fault of a value that is none of what was asked for.  A malformed value
is reported as such. -/
def mismatchAt (chars : List Char) : ReadError :=
  let after (read : Except ReadError (List Char)) : ReadError :=
    match read with
    | .ok _ => .unexpected
    | .error error => error
  match chars with
  | [] => .truncated
  | c :: rest =>
      if c = '[' || c = '\x7b' then .unexpected
      else after (skipValue (.full 0) 1 (c :: rest))

/-- Read a text. -/
def readString : Reader String := fun chars =>
  match skipBlanks chars with
  | '"' :: rest => readText rest
  | other => .error (mismatchAt other)

/-- Read a natural number of 64 bits. -/
def readNatural : Reader Nat := fun chars =>
  match skipBlanks chars with
  | [] => .error .truncated
  | c :: rest =>
      if c.isDigit then do
        match ← readNumber false (c :: rest) with
        | (.int value, rest) => return (value.toNat, rest)
        | (.real, _) => .error .unexpected
      else .error (mismatchAt (c :: rest))

/-- Step over the colon between a name and its value. -/
def readColon (chars : List Char) : Except ReadError (List Char) :=
  match skipBlanks chars with
  | [] => .error .truncated
  | ':' :: rest => .ok rest
  | _ => .error .malformed

/-- Read one of several named things: its name, or a record with the name as
its only field. -/
def readNamed {α : Type} (ofName? : String → Option α) : Reader α := fun chars =>
  let named (name : String) : Except ReadError α :=
    match ofName? name with
    | some thing => .ok thing
    | none => .error .unexpected
  match skipBlanks chars with
  | [] => .error .truncated
  | '"' :: rest => do
      let (name, rest) ← readText rest
      return (← named name, rest)
  | '\x7b' :: rest => do
      let (name, rest) ← readString rest
      let thing ← named name
      let rest ← readColon rest
      let rest ←
        match skipBlanks rest with
        | 'n' :: rest => readWord ['u', 'l', 'l'] rest
        | other => .error (mismatchAt other)
      match skipBlanks rest with
      | [] => .error .truncated
      | '\x7d' :: rest => return (thing, rest)
      | _ => .error .malformed
  | _ => .error .malformed

/-- Read the fields of a record after its opening bracket.  Every name is handed
on together with what has been gathered; what is read there begins with the
colon. -/
def readFields {σ : Type} (field : σ → String → Reader σ) :
    Nat → Bool → σ → Reader σ
  | 0, _, _, _ => .error .malformed
  | budget + 1, first, gathered, chars =>
      let entry (rest : List Char) : Except ReadError (σ × List Char) := do
        let (name, rest) ← readText rest
        let (gathered, rest) ← field gathered name rest
        readFields field budget false gathered rest
      match skipBlanks chars with
      | [] => .error .truncated
      | c :: rest =>
          if c = '\x7d' then .ok (gathered, rest)
          else if first then
            if c = '"' then entry rest else .error .malformed
          else if c = ',' then
            match skipBlanks rest with
            | [] => .error .truncated
            | '"' :: rest => entry rest
            | _ => .error .malformed
          else .error .malformed

/-- Read the value of a field that has not been read before, and store it. -/
def readNew {α σ : Type} (old : Option α) (reader : Reader α) (store : α → σ) :
    Reader σ := fun chars =>
  match old with
  | some _ => .error .unexpected
  | none => do
      let chars ← readColon chars
      let (value, rest) ← reader chars
      return (store value, rest)

/-- Step over the value of a field that was not asked for. -/
def skipField {σ : Type} (gathered : σ) : Reader σ := fun chars => do
  let chars ← readColon chars
  let rest ← skip .form chars
  return (gathered, rest)

/-- Read a value that is written as a record, or as a list of its parts.  The
fields of a record are gathered, and must be enough for a value. -/
def readRecord {α σ : Type} (empty : σ) (field : σ → String → Reader σ)
    (complete : σ → Option α) (listed : Reader α) : Reader α := fun chars =>
  match skipBlanks chars with
  | '\x7b' :: rest => do
      let (gathered, rest) ← readFields field (rest.length + 1) true empty rest
      match complete gathered with
      | some value => return (value, rest)
      | none => .error .unexpected
  | '[' :: rest => listed rest
  | other => .error (mismatchAt other)

/-- Step to the next item of a list.  A list that ends here is too short. -/
def nextItem (first : Bool) (chars : List Char) : Except ReadError (List Char) :=
  match skipBlanks chars with
  | [] => .error .truncated
  | c :: rest =>
      if c = ']' then .error .unexpected
      else if first then .ok (c :: rest)
      else if c = ',' then
        match skipBlanks rest with
        | [] => .error .truncated
        | ']' :: _ => .error .malformed
        | rest => .ok rest
      else .error .malformed

/-- Step over the end of a list. -/
def endList (chars : List Char) : Except ReadError (List Char) :=
  match skipBlanks chars with
  | [] => .error .truncated
  | ']' :: rest => .ok rest
  | _ => .error .malformed

/-- Read the items of a list after its opening bracket. -/
def readItems {α : Type} (reader : Reader α) : Nat → Bool → Reader (List α)
  | 0, _, _ => .error .malformed
  | budget + 1, first, chars =>
      match skipBlanks chars with
      | ']' :: rest => .ok ([], rest)
      | chars => do
          let (value, rest) ← reader (← nextItem first chars)
          let (values, rest) ← readItems reader budget false rest
          return (value :: values, rest)

/-- Read a list of any length. -/
def readList {α : Type} (reader : Reader α) : Reader (List α) := fun chars =>
  match skipBlanks chars with
  | '[' :: rest => readItems reader (rest.length + 1) true rest
  | other => .error (mismatchAt other)

/-- Read a value, or the word for none. -/
def readOptional {α : Type} (reader : Reader α) : Reader (Option α) := fun chars =>
  match skipBlanks chars with
  | 'n' :: rest => (readWord ['u', 'l', 'l'] rest).map fun rest => (none, rest)
  | chars => (reader chars).map fun result => (some result.1, result.2)

/-- Read a whole text; nothing but blanks may follow. -/
def readWhole {α : Type} (reader : Reader α) (text : String) : Except ReadError α := do
  let (value, rest) ← reader text.toList
  if (skipBlanks rest).isEmpty then return value else .error .malformed

end SemanticDiff.Json
