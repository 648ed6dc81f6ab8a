import SemanticDiff.Yaml.Scalar

/-!
# YAML tokens

A text is cut into tokens.  Indentation shows in tokens that open and close blocks.
That something is a key is seen only at the colon after it, so every place where a
key may begin is remembered until then.
-/

namespace SemanticDiff.Yaml

/-- A token. -/
inductive Token where
  | directive
  | documentStart
  | documentEnd
  | sequenceStart
  | mappingStart
  | blockEnd
  | flowSequenceStart
  | flowSequenceEnd
  | flowMappingStart
  | flowMappingEnd
  | entry
  | separator
  | key
  | value
  | anchor (name : String)
  | alias (name : String)
  | tag
  | scalar (plain : Bool) (text : String)
deriving DecidableEq, Repr

/-- A place where a key may begin. -/
structure KeyMark where
  /-- How many tokens precede it. -/
  tokens : Nat
  index : Nat
  line : Nat
  column : Nat
  /-- Whether nothing but a key can stand here. -/
  required : Bool

/-- How far a text has been cut into tokens. -/
structure Lexer where
  place : Place
  /-- The tokens so far, the last one first. -/
  tokens : List Token
  /-- The columns of the open blocks, the innermost first. -/
  indents : List Nat
  /-- The possible key of every open flow collection, the innermost first, and
  that of the block around them. -/
  keys : List (Option KeyMark)
  /-- Whether a key may begin here. -/
  keyAllowed : Bool

namespace Lexer

/-- The beginning of a text. -/
def start (text : String) : Lexer where
  place := Place.start text
  tokens := []
  indents := []
  keys := [none]
  keyAllowed := true

/-- Whether a flow collection is open. -/
def inFlow (lexer : Lexer) : Bool :=
  lexer.keys.length > 1

/-- The first column that lies inside the innermost block. -/
def innerColumn (lexer : Lexer) : Nat :=
  match lexer.indents with
  | [] => 0
  | column :: _ => column + 1

/-- Add a token. -/
def push (lexer : Lexer) (token : Token) : Lexer :=
  { lexer with tokens := token :: lexer.tokens }

/-- Insert tokens after a number of others; the first of them comes last. -/
def insertAt (lexer : Lexer) (count : Nat) (tokens : List Token) : Lexer :=
  let after := lexer.tokens.length - count
  { lexer with
    tokens := lexer.tokens.take after ++ tokens ++ lexer.tokens.drop after }

/-! ## White space -/

/-- Step over blanks, comments and line breaks. -/
def skipSpace : Nat → Lexer → Lexer
  | 0, lexer => lexer
  | budget + 1, lexer =>
      let tabs := lexer.inFlow || !lexer.keyAllowed
      let place := lexer.place.skipWhile fun c => c == ' ' || (tabs && c == '\t')
      let place := if place.rest.head? == some '#' then place.skipWhile (!isBreak ·) else place
      match place.rest with
      | [] => { lexer with place }
      | c :: _ =>
          if isBreak c then
            skipSpace budget
              { lexer with
                place := place.breakLine, keyAllowed := lexer.keyAllowed || !lexer.inFlow }
          else { lexer with place }

/-! ## Keys and blocks -/

/-- Whether a key that begins at a mark can no longer end here. -/
def isStale (place : Place) (mark : KeyMark) : Bool :=
  mark.line < place.line || mark.index + 1024 < place.index

/-- Forget keys that can no longer end.  One that was required is missing. -/
def dropStale (lexer : Lexer) : Option Lexer := do
  let keys ← lexer.keys.mapM fun
    | some mark =>
        if isStale lexer.place mark then if mark.required then none else some none
        else some (some mark)
    | none => some none
  return { lexer with keys }

/-- Forget the innermost possible key. -/
def removeKey (lexer : Lexer) : Option Lexer :=
  match lexer.keys with
  | some mark :: keys => if mark.required then none else some { lexer with keys := none :: keys }
  | _ => some lexer

/-- Remember that a key may begin here. -/
def saveKey (lexer : Lexer) : Option Lexer :=
  if lexer.keyAllowed then do
    let place := lexer.place
    let required := !lexer.inFlow && lexer.indents.head? == some place.column
    let lexer ← lexer.removeKey
    let mark : KeyMark :=
      { tokens := lexer.tokens.length, index := place.index, line := place.line
        column := place.column, required }
    return { lexer with keys := some mark :: lexer.keys.drop 1 }
  else some lexer

/-- Open a block at a column, unless one is open there. -/
def openBlock (lexer : Lexer) (column : Nat) (token : Token) : Lexer :=
  if !lexer.inFlow && lexer.innerColumn ≤ column then
    { lexer.push token with indents := column :: lexer.indents }
  else lexer

/-- Close blocks whose column satisfies a test. -/
def closeBlocks (test : Nat → Bool) (lexer : Lexer) : Lexer :=
  if lexer.inFlow then lexer
  else
    let closed := lexer.indents.takeWhile test
    { lexer with
      indents := lexer.indents.drop closed.length
      tokens := closed.map (fun _ => Token.blockEnd) ++ lexer.tokens }

/-! ## Single tokens -/

/-- A mark between documents, or a directive. -/
def readOutside (lexer : Lexer) (token : Token) (place : Place) : Option Lexer := do
  let lexer ← (lexer.closeBlocks fun _ => true).removeKey
  return { lexer.push token with place, keyAllowed := false }

/-- A directive.  Only the version of the format can be declared. -/
def readDirective (lexer : Lexer) : Option Lexer := do
  let line := lexer.place.rest.takeWhile (!isBreak ·)
  let content := line.takeWhile (· != '#')
  let words := (String.ofList content).splitOn " " |>.filter (!·.isEmpty)
  if words == ["%YAML", "1.1"] || words == ["%YAML", "1.2"] then
    lexer.readOutside .directive (lexer.place.steps line.length)
  else none

/-- The beginning of a flow collection. -/
def openFlow (lexer : Lexer) (token : Token) : Option Lexer := do
  let lexer ← lexer.saveKey
  return { lexer.push token with
    keys := none :: lexer.keys, keyAllowed := true, place := lexer.place.step }

/-- The end of a flow collection. -/
def closeFlow (lexer : Lexer) (token : Token) : Option Lexer := do
  let lexer ← lexer.removeKey
  return { lexer.push token with
    keys := if lexer.inFlow then lexer.keys.drop 1 else lexer.keys
    keyAllowed := false, place := lexer.place.step }

/-- A comma between items. -/
def readSeparator (lexer : Lexer) : Option Lexer := do
  let lexer ← lexer.removeKey
  return { lexer.push .separator with keyAllowed := true, place := lexer.place.step }

/-- A dash before an item. -/
def readEntry (lexer : Lexer) : Option Lexer := do
  if !lexer.inFlow && !lexer.keyAllowed then none
  let lexer ← (lexer.openBlock lexer.place.column .sequenceStart).removeKey
  return { lexer.push .entry with keyAllowed := true, place := lexer.place.step }

/-- A question mark before a key. -/
def readKey (lexer : Lexer) : Option Lexer := do
  if !lexer.inFlow && !lexer.keyAllowed then none
  let lexer ← (lexer.openBlock lexer.place.column .mappingStart).removeKey
  return { lexer.push .key with keyAllowed := !lexer.inFlow, place := lexer.place.step }

/-- A colon before a value. -/
def readValue (lexer : Lexer) : Option Lexer :=
  match lexer.keys with
  | some mark :: keys =>
      let opens := !lexer.inFlow && lexer.innerColumn ≤ mark.column
      let tokens := if opens then [Token.key, Token.mappingStart] else [Token.key]
      let lexer := lexer.insertAt mark.tokens tokens
      some { lexer.push .value with
        indents := if opens then mark.column :: lexer.indents else lexer.indents
        keys := none :: keys, keyAllowed := false, place := lexer.place.step }
  | _ =>
      if !lexer.inFlow && !lexer.keyAllowed then none
      else
        let lexer := lexer.openBlock lexer.place.column .mappingStart
        some { lexer.push .value with
          keyAllowed := !lexer.inFlow, place := lexer.place.step }

/-- Whether a character may be part of the name of an anchor. -/
def isNameChar (c : Char) : Bool :=
  c.isAlphanum || c == '-' || c == '_'

/-- An anchor, or a reference to one. -/
def readAnchor (lexer : Lexer) (token : String → Token) : Option Lexer := do
  let lexer ← lexer.saveKey
  let place := lexer.place.step
  let name := place.rest.takeWhile isNameChar
  let place := place.steps name.length
  let ended := atBlankOrEnd place.rest ||
    (place.rest.head?.map fun c =>
      ['?', ':', ',', ']', '\x7d', '%', '@', '\x60'].contains c).getD false
  if name.isEmpty || !ended then none
  return { lexer.push (token (String.ofList name)) with keyAllowed := false, place }

/-- A tag.  What it says has no effect. -/
def readTag (lexer : Lexer) : Option Lexer := do
  let lexer ← lexer.saveKey
  let place := lexer.place.skipWhile fun c =>
    !isBlank c && !isBreak c && !(lexer.inFlow && isFlowMark c)
  return { lexer.push .tag with keyAllowed := false, place }

/-- A scalar of one of the kinds that may be a key. -/
def readKeyScalar (lexer : Lexer) (plain : Bool) (read : Place → Option Scanned) :
    Option Lexer := do
  let lexer ← lexer.saveKey
  let (text, place, broken) ← read lexer.place
  return { lexer.push (.scalar plain (String.ofList text)) with keyAllowed := broken, place }

/-- A scalar of several lines. -/
def readBlockScalar (lexer : Lexer) (literal : Bool) : Option Lexer := do
  let lexer ← lexer.removeKey
  let (text, place, _) ← readBlock literal lexer.innerColumn lexer.place.step
  return { lexer.push (.scalar false (String.ofList text)) with keyAllowed := true, place }

/-- Whether a plain scalar may begin with a character, seen with what follows. -/
def beginsPlain (inFlow : Bool) (c : Char) (rest : List Char) : Bool :=
  if c = '-' then !(rest.head?.map isBlank).getD false
  else if c = '?' || c = ':' then !inFlow && !atBlankOrEnd rest
  else
    !(isFlowMark c || ['#', '&', '*', '!', '|', '>', '\'', '"', '%', '@', '\x60'].contains c)

/-- Read the next token from a place that is at none of the white space. -/
def readToken (lexer : Lexer) (c : Char) (rest : List Char) : Option Lexer :=
  let size := lexer.place.rest.length + 1
  if lexer.place.column = 0 && c = '%' then lexer.readDirective
  else if lexer.place.atDocumentMark then
    lexer.readOutside (if c = '-' then .documentStart else .documentEnd) (lexer.place.steps 3)
  else if c = '[' then lexer.openFlow .flowSequenceStart
  else if c = '\x7b' then lexer.openFlow .flowMappingStart
  else if c = ']' then lexer.closeFlow .flowSequenceEnd
  else if c = '\x7d' then lexer.closeFlow .flowMappingEnd
  else if c = ',' then lexer.readSeparator
  else if c = '-' && atBlankOrEnd rest then lexer.readEntry
  else if c = '?' && (lexer.inFlow || atBlankOrEnd rest) then lexer.readKey
  else if c = ':' && (lexer.inFlow || atBlankOrEnd rest) then lexer.readValue
  else if c = '*' then lexer.readAnchor .alias
  else if c = '&' then lexer.readAnchor .anchor
  else if c = '!' then lexer.readTag
  else if c = '|' && !lexer.inFlow then lexer.readBlockScalar true
  else if c = '>' && !lexer.inFlow then lexer.readBlockScalar false
  else if c = '\'' then
    lexer.readKeyScalar false fun place => readQuoted true size [] place.step
  else if c = '"' then
    lexer.readKeyScalar false fun place => readQuoted false size [] place.step
  else if beginsPlain lexer.inFlow c rest then
    lexer.readKeyScalar true fun place =>
      readPlain lexer.inFlow lexer.innerColumn size [] {} place
  else none

/-- Read tokens up to the end of the text. -/
def run : Nat → Lexer → Option (List Token)
  | 0, _ => none
  | budget + 1, lexer => do
      let lexer ← (lexer.skipSpace (lexer.place.rest.length + 1)).dropStale
      let column := lexer.place.column
      match lexer.place.rest with
      | [] =>
          let lexer ← (lexer.closeBlocks fun _ => true).removeKey
          return lexer.tokens.reverse
      | c :: rest => run budget (← (lexer.closeBlocks (column < ·)).readToken c rest)

end Lexer

/-- Cut a text into tokens. -/
def tokens (text : String) : Option (List Token) :=
  let lexer := Lexer.start text
  if lexer.place.rest.all isAllowed then lexer.run (lexer.place.rest.length + 2) else none

end SemanticDiff.Yaml
