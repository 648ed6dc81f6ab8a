/-!
# JSON values and their text

Values are written in two ways: on one line without blanks, and on several lines
with two blanks for every level.  The fields of a record are written in the order
in which they are listed.
-/

namespace SemanticDiff

/-- A JSON value, as far as one is written. -/
inductive Json where
  | flag (set : Bool)
  | int (number : Int)
  | text (content : String)
  | list (items : List Json)
  | record (fields : List (String × Json))

namespace Json

/-! ## Texts and numbers -/

/-- A digit of a number to the base sixteen. -/
def hexDigit (digit : Nat) : Char :=
  digit.digitChar

/-- How a character is written inside quotation marks. -/
def escape (c : Char) : List Char :=
  if c = '"' then ['\\', '"']
  else if c = '\\' then ['\\', '\\']
  else if c = '\x08' then ['\\', 'b']
  else if c = '\x0c' then ['\\', 'f']
  else if c = '\n' then ['\\', 'n']
  else if c = '\r' then ['\\', 'r']
  else if c = '\t' then ['\\', 't']
  else if c.toNat < 32 then
    ['\\', 'u', '0', '0', hexDigit (c.toNat / 16), hexDigit (c.toNat % 16)]
  else [c]

/-- A text in quotation marks. -/
def quoted (text : String) : List Char :=
  '"' :: text.toList.flatMap escape ++ ['"']

/-- A whole number in decimal digits. -/
def digits : Int → List Char
  | .ofNat number => Nat.toDigits 10 number
  | .negSucc number => '-' :: Nat.toDigits 10 (number + 1)

/-- A truth value as a word. -/
def word (set : Bool) : List Char :=
  if set then ['t', 'r', 'u', 'e'] else ['f', 'a', 'l', 's', 'e']

/-! ## One line -/

mutual

/-- The value on one line. -/
def compactChars : Json → List Char
  | flag set => word set
  | int number => digits number
  | text content => quoted content
  | list items => '[' :: compactItems items ++ [']']
  | record fields => '\x7b' :: compactFields fields ++ ['\x7d']
termination_by structural value => value

/-- Values with commas between them. -/
def compactItems : List Json → List Char
  | [] => []
  | [item] => compactChars item
  | item :: items => compactChars item ++ ',' :: compactItems items
termination_by structural items => items

/-- Fields with commas between them. -/
def compactFields : List (String × Json) → List Char
  | [] => []
  | [field] => compactField field
  | field :: fields => compactField field ++ ',' :: compactFields fields
termination_by structural fields => fields

/-- A field with its value. -/
def compactField : String × Json → List Char
  | (name, value) => quoted name ++ ':' :: compactChars value
termination_by structural field => field

end

/-- The value as a text of one line. -/
def compact (value : Json) : String :=
  String.ofList (compactChars value)

/-! ## Several lines -/

/-- A new line with the blanks of a level. -/
def newLine (level : Nat) : List Char :=
  '\n' :: List.replicate (2 * level) ' '

mutual

/-- The value on several lines, at a level. -/
def indentedChars (level : Nat) : Json → List Char
  | flag set => word set
  | int number => digits number
  | text content => quoted content
  | list [] => ['[', ']']
  | list (item :: items) =>
      '[' :: newLine (level + 1) ++ indentedItems (level + 1) (item :: items) ++
        newLine level ++ [']']
  | record [] => ['\x7b', '\x7d']
  | record (field :: fields) =>
      '\x7b' :: newLine (level + 1) ++ indentedFields (level + 1) (field :: fields) ++
        newLine level ++ ['\x7d']
termination_by structural value => value

/-- Values on lines of their own. -/
def indentedItems (level : Nat) : List Json → List Char
  | [] => []
  | [item] => indentedChars level item
  | item :: items =>
      indentedChars level item ++ ',' :: newLine level ++ indentedItems level items
termination_by structural items => items

/-- Fields on lines of their own. -/
def indentedFields (level : Nat) : List (String × Json) → List Char
  | [] => []
  | [field] => indentedField level field
  | field :: fields =>
      indentedField level field ++ ',' :: newLine level ++ indentedFields level fields
termination_by structural fields => fields

/-- A field with its value. -/
def indentedField (level : Nat) : String × Json → List Char
  | (name, value) => quoted name ++ ':' :: ' ' :: indentedChars level value
termination_by structural field => field

end

/-- The value as a text of several lines. -/
def indented (value : Json) : String :=
  String.ofList (indentedChars 0 value)

end Json

end SemanticDiff
