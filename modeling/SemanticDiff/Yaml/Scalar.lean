/-!
# YAML scalars

A place in a text knows its line and column, since indentation matters.  The
readers of this module take one scalar from a place: a plain one, a quoted one, or
a block of lines.
-/

namespace SemanticDiff.Yaml

/-! ## Places -/

/-- A place in a text. -/
structure Place where
  rest : List Char
  index : Nat
  line : Nat
  column : Nat

/-- Whether a character may occur in a text at all. -/
def isAllowed (c : Char) : Bool :=
  let code := c.toNat
  code == 0x09 || code == 0x0A || code == 0x0D || (0x20 ≤ code && code ≤ 0x7E) ||
    code == 0x85 || (0xA0 ≤ code && code ≤ 0xFFFD && code != 0xFEFF) || 0x10000 ≤ code

/-- Whether a character ends a line. -/
def isBreak (c : Char) : Bool :=
  c == '\n' || c == '\r' || c == '\u0085' || c == '\u2028' || c == '\u2029'

/-- Whether a character is a blank within a line. -/
def isBlank (c : Char) : Bool :=
  c == ' ' || c == '\t'

/-- Whether a text is at a blank, at the end of a line, or at its own end. -/
def atBlankOrEnd : List Char → Bool
  | [] => true
  | c :: _ => isBlank c || isBreak c

/-- Whether a text is at the end of a line or at its own end. -/
def atLineEnd : List Char → Bool
  | [] => true
  | c :: _ => isBreak c

namespace Place

/-- The beginning of a text; a byte order mark is stepped over. -/
def start (text : String) : Place :=
  match text.toList with
  | '\uFEFF' :: rest => { rest, index := 0, line := 0, column := 0 }
  | rest => { rest, index := 0, line := 0, column := 0 }

/-- Step over one character within a line. -/
def step (place : Place) : Place :=
  match place.rest with
  | [] => place
  | _ :: rest => { place with rest, index := place.index + 1, column := place.column + 1 }

/-- Step over characters within a line. -/
def steps (count : Nat) (place : Place) : Place where
  rest := place.rest.drop count
  index := place.index + count
  line := place.line
  column := place.column + count

/-- Step over the end of a line. -/
def breakLine (place : Place) : Place :=
  match place.rest with
  | '\r' :: '\n' :: rest =>
      { rest, index := place.index + 2, line := place.line + 1, column := 0 }
  | _ :: rest => { rest, index := place.index + 1, line := place.line + 1, column := 0 }
  | [] => place

/-- The character that the end of a line stands for. -/
def breakText (place : Place) : List Char :=
  match place.rest with
  | c :: _ => if c == '\u2028' || c == '\u2029' then [c] else ['\n']
  | [] => []

/-- Step over the characters of a line that satisfy a test. -/
def skipWhile (test : Char → Bool) (place : Place) : Place :=
  place.steps (place.rest.takeWhile test).length

/-- Whether the place is at a mark between documents. -/
def atDocumentMark (place : Place) : Bool :=
  place.column == 0 &&
    match place.rest with
    | '-' :: '-' :: '-' :: rest => atBlankOrEnd rest
    | '.' :: '.' :: '.' :: rest => atBlankOrEnd rest
    | _ => false

end Place

/-! ## Folding -/

/-- White space inside a scalar: blanks of one line, or line breaks. -/
structure Fold where
  blanks : List Char := []
  firstBreak : List Char := []
  moreBreaks : List Char := []
  broken : Bool := false

namespace Fold

/-- What white space is folded into. -/
def text (fold : Fold) : List Char :=
  if fold.broken then
    if fold.firstBreak = ['\n'] then
      if fold.moreBreaks.isEmpty then [' '] else fold.moreBreaks
    else fold.firstBreak ++ fold.moreBreaks
  else fold.blanks

/-- Read white space.  Tabs left of a column are refused at the beginning of a
line. -/
def read (tabLimit : Nat) : Nat → Fold → Place → Option (Fold × Place)
  | 0, fold, place => some (fold, place)
  | budget + 1, fold, place =>
      match place.rest with
      | [] => some (fold, place)
      | c :: _ =>
          if isBlank c then
            if fold.broken then
              if c = '\t' && place.column < tabLimit then none
              else read tabLimit budget fold place.step
            else read tabLimit budget { fold with blanks := fold.blanks ++ [c] } place.step
          else if isBreak c then
            if fold.broken then
              read tabLimit budget
                { fold with moreBreaks := fold.moreBreaks ++ place.breakText } place.breakLine
            else
              read tabLimit budget
                { fold with blanks := [], firstBreak := place.breakText, broken := true }
                place.breakLine
          else some (fold, place)

end Fold

/-! ## Plain scalars -/

/-- Whether a character is a bracket or comma of a flow collection. -/
def isFlowMark (c : Char) : Bool :=
  c == ',' || c == '[' || c == ']' || c == '\x7b' || c == '\x7d'

/-- Read the characters of a plain scalar up to the next white space.  In a flow
collection, a colon right before a mark is refused. -/
def readPlainRun (inFlow : Bool) : List Char → Option (List Char)
  | [] => some []
  | c :: rest =>
      if isBlank c || isBreak c then some []
      else if inFlow && c = ':' &&
          (match rest with
          | d :: _ => isFlowMark d || d == '?'
          | [] => false) then none
      else if (c = ':' && atBlankOrEnd rest) || (inFlow && isFlowMark c) then some []
      else (readPlainRun inFlow rest).map (c :: ·)

/-- A scalar with the place after it.  The last component tells whether line
breaks were stepped over after it. -/
abbrev Scanned := List Char × Place × Bool

/-- Read a plain scalar whose further lines stand at a column or to the right of
it. -/
def readPlain (inFlow : Bool) (indent : Nat) :
    Nat → List Char → Fold → Place → Option Scanned
  | 0, _, _, _ => none
  | budget + 1, text, fold, place =>
      if place.atDocumentMark || place.rest.head? == some '#' then
        some (text, place, fold.broken)
      else do
        let run ← readPlainRun inFlow place.rest
        if run.isEmpty then return (text, place, fold.broken)
        let text := text ++ fold.text ++ run
        let place := place.steps run.length
        match place.rest with
        | [] => return (text, place, false)
        | c :: _ =>
            if !(isBlank c || isBreak c) then return (text, place, false)
            let (fold, place) ← Fold.read indent place.rest.length {} place
            if !inFlow && place.column < indent then return (text, place, fold.broken)
            readPlain inFlow indent budget text fold place

/-! ## Quoted scalars -/

/-- The character that a letter after a backslash stands for. -/
def escapedChar? (c : Char) : Option Char :=
  match c with
  | '0' => some '\x00'
  | 'a' => some '\x07'
  | 'b' => some '\x08'
  | 't' => some '\t'
  | '\t' => some '\t'
  | 'n' => some '\n'
  | 'v' => some '\x0b'
  | 'f' => some '\x0c'
  | 'r' => some '\r'
  | 'e' => some '\x1b'
  | ' ' => some ' '
  | '"' => some '"'
  | '/' => some '/'
  | '\\' => some '\\'
  | 'N' => some '\u0085'
  | '_' => some '\u00a0'
  | 'L' => some '\u2028'
  | 'P' => some '\u2029'
  | _ => none

/-- How many digits a letter after a backslash announces. -/
def escapedLength? (c : Char) : Option Nat :=
  match c with
  | 'x' => some 2
  | 'u' => some 4
  | 'U' => some 8
  | _ => none

/-- The value of a digit to the base sixteen. -/
def hexValue? (c : Char) : Option Nat :=
  if '0' ≤ c && c ≤ '9' then some (c.toNat - '0'.toNat)
  else if 'a' ≤ c && c ≤ 'f' then some (c.toNat - 'a'.toNat + 10)
  else if 'A' ≤ c && c ≤ 'F' then some (c.toNat - 'A'.toNat + 10)
  else none

/-- The character of a number of digits. -/
def charOfDigits? (digits : List Char) : Option Char := do
  let code ← digits.foldlM (fun value digit => do return value * 16 + (← hexValue? digit)) 0
  if code < 0xD800 || (0xE000 ≤ code && code ≤ 0x10FFFF) then some (Char.ofNat code) else none

/-- How reading a run of quoted characters ended. -/
inductive RunEnd where
  /-- At white space, or at the end of the text. -/
  | blank
  /-- At the closing mark. -/
  | closed
  /-- After an escaped line break. -/
  | continued

/-- Read quoted characters up to white space or the closing mark. -/
def readQuotedRun (single : Bool) :
    Nat → List Char → Place → Option (List Char × RunEnd × Place)
  | 0, _, _ => none
  | budget + 1, text, place =>
      match place.rest with
      | [] => some (text, .blank, place)
      | c :: rest =>
          if isBlank c || isBreak c then some (text, .blank, place)
          else if single then
            if c = '\'' then
              match rest with
              | '\'' :: _ => readQuotedRun single budget (text ++ ['\'']) (place.steps 2)
              | _ => some (text, .closed, place)
            else readQuotedRun single budget (text ++ [c]) place.step
          else if c = '"' then some (text, .closed, place)
          else if c = '\\' then
            match rest with
            | [] => none
            | d :: after =>
                if isBreak d then some (text, .continued, place.step.breakLine)
                else
                  match escapedChar? d with
                  | some character =>
                      readQuotedRun single budget (text ++ [character]) (place.steps 2)
                  | none =>
                      match escapedLength? d with
                      | none => none
                      | some count =>
                          if after.length < count then none
                          else
                            match charOfDigits? (after.take count) with
                            | none => none
                            | some character =>
                                readQuotedRun single budget (text ++ [character])
                                  (place.steps (2 + count))
          else readQuotedRun single budget (text ++ [c]) place.step

/-- Read a quoted scalar after its opening mark. -/
def readQuoted (single : Bool) : Nat → List Char → Place → Option Scanned
  | 0, _, _ => none
  | budget + 1, text, place =>
      if place.atDocumentMark || place.rest.isEmpty then none
      else do
        let (text, stop, place) ← readQuotedRun single (place.rest.length + 1) text place
        let closing := if single then '\'' else '"'
        let fold : Fold ←
          match stop with
          | .blank => some {}
          | .closed => some {}
          | .continued => some { broken := true }
        if place.rest.head? == some closing then return (text, place.step, false)
        let (fold, place) ← Fold.read 0 place.rest.length fold place
        readQuoted single budget (text ++ fold.text) place

/-! ## Block scalars -/

/-- What becomes of the line breaks at the end of a block. -/
inductive Chomping where
  | strip
  | clip
  | keep

/-- Step over empty lines and indentation.  If the indentation is not known yet
(zero), it is that of the deepest line met. -/
def readBreaks (least : Nat) :
    Nat → (indent deepest : Nat) → List Char → Place → Option (Nat × List Char × Place)
  | 0, _, _, _, _ => none
  | budget + 1, indent, deepest, breaks, place =>
      let blanks := (place.rest.takeWhile (· == ' ')).length
      let place :=
        place.steps (if indent = 0 then blanks else min blanks (indent - place.column))
      let deepest := max deepest place.column
      match place.rest with
      | c :: _ =>
          if c = '\t' && (indent = 0 || place.column < indent) then none
          else if isBreak c then
            readBreaks least budget indent deepest (breaks ++ place.breakText) place.breakLine
          else some (if indent = 0 then max deepest (max least 1) else indent, breaks, place)
      | [] => some (if indent = 0 then max deepest (max least 1) else indent, breaks, place)

/-- Read the lines of a block. -/
def readLines (literal : Bool) (least indent : Nat) :
    Nat → (text lineBreak breaks : List Char) → Bool → Place →
      Option (List Char × List Char × List Char × Place)
  | 0, _, _, _, _, _ => none
  | budget + 1, text, lineBreak, breaks, afterBlank, place =>
      if place.column != indent || place.rest.isEmpty then
        some (text, lineBreak, breaks, place)
      else do
        let atBlank := (place.rest.head?.map isBlank).getD false
        let joint :=
          if !literal && lineBreak = ['\n'] && !afterBlank && !atBlank then
            if breaks.isEmpty then [' '] else []
          else lineBreak
        let line := place.rest.takeWhile (!isBreak ·)
        let text := text ++ joint ++ breaks ++ line
        let place := place.steps line.length
        let (_, breaks, next) ←
          readBreaks least (place.rest.length + 1) indent 0 [] place.breakLine
        readLines literal least indent budget text place.breakText breaks atBlank next

/-- The head of a block scalar: what becomes of its end, and how far it is
indented if that is said. -/
def readBlockHead (chars : List Char) : Option (Chomping × Nat × Nat) :=
  let chomping? (c : Char) : Option Chomping :=
    if c = '+' then some .keep else if c = '-' then some .strip else none
  let digit? (c : Char) : Option Nat :=
    if c.isDigit then some (c.toNat - '0'.toNat) else none
  match chars with
  | [] => some (.clip, 0, 0)
  | c :: rest =>
      match chomping? c, digit? c with
      | some chomping, _ =>
          match rest.head?.bind digit? with
          | some 0 => none
          | some increment => some (chomping, increment, 2)
          | none => some (chomping, 0, 1)
      | none, some 0 => none
      | none, some increment =>
          match rest.head?.bind chomping? with
          | some chomping => some (chomping, increment, 2)
          | none => some (.clip, increment, 1)
      | none, none => some (.clip, 0, 0)

/-- Read a block scalar after its indicator.  Its lines stand right of the
indentation around it, which has this many columns, or one less than none. -/
def readBlock (literal : Bool) (around : Nat) (place : Place) : Option Scanned := do
  let (chomping, increment, size) ← readBlockHead place.rest
  let place := (place.steps size).skipWhile isBlank
  let place := if place.rest.head? == some '#' then place.skipWhile (!isBreak ·) else place
  if !atLineEnd place.rest then none
  let place := place.breakLine
  let least := around
  let given := if increment = 0 then 0 else (around - 1) + increment
  let (indent, breaks, place) ← readBreaks least (place.rest.length + 1) given 0 [] place
  let (text, lineBreak, breaks, place) ←
    readLines literal least indent (place.rest.length + 1) [] [] breaks false place
  let tail :=
    match chomping with
    | .strip => []
    | .clip => lineBreak
    | .keep => lineBreak ++ breaks
  return (text ++ tail, place, true)

end SemanticDiff.Yaml
