/-!
# Globs

A glob describes paths.  It is made of pieces; each piece takes some bytes off
the front of a path, and a glob matches a path if its pieces can take all of it.
-/

namespace SemanticDiff

namespace Glob

/-- A piece of a glob. -/
inductive Piece where
  /-- This character. -/
  | char (c : Char)
  /-- Any one byte. -/
  | any
  /-- Any bytes. -/
  | star
  /-- Directories at the beginning of a path. -/
  | leadingDirectories
  /-- Everything below a directory. -/
  | everythingBelow
  /-- A slash, with directories after it. -/
  | innerDirectories
  /-- One byte of a set of characters, or one byte outside of it. -/
  | set (negated : Bool) (ranges : List (Char × Char))
  /-- One of several runs of pieces. -/
  | choice (alternatives : List (List Piece))

/-- Why a text is no glob. -/
inductive Fault where
  | unclosedSet
  | invalidRange (first last : Char)
  | unclosedChoice
  | unopenedChoice
  | danglingEscape
deriving DecidableEq, Repr

namespace Fault

/-- What is wrong. -/
def message : Fault → String
  | unclosedSet => "unclosed character class; missing ']'"
  | invalidRange first last =>
      "invalid range; '" ++ String.singleton first ++ "' > '" ++ String.singleton last ++ "'"
  | unclosedChoice =>
      "unclosed alternate group; missing '\x7d' (maybe escape '\x7b' with '[\x7b]'?)"
  | unopenedChoice =>
      "unopened alternate group; missing '\x7b' (maybe escape '\x7d' with '[\x7d]'?)"
  | danglingEscape => "dangling '\\'"

end Fault

/-! ## Bytes -/

/-- The bytes of a character. -/
def bytesOf (c : Char) : List UInt8 :=
  c.toString.toUTF8.toList

/-- A range of bytes, its ends included. -/
abbrev ByteRange := UInt8 × UInt8

/-- The byte ranges of a range of characters.  Only single bytes can be told
apart in a set: the range reaches from the last byte of its first character to
the first byte of its last one, and all other bytes stand for themselves. -/
def byteRanges (range : Char × Char) : List ByteRange :=
  let single (bytes : List UInt8) : List ByteRange := bytes.map fun byte => (byte, byte)
  if range.1 = range.2 then single (bytesOf range.1)
  else
    match (bytesOf range.1).reverse, bytesOf range.2 with
    | last :: before, first :: after => single before ++ [(last, first)] ++ single after
    | _, _ => []

/-- Whether a byte lies in a set. -/
def inSet (negated : Bool) (ranges : List (Char × Char)) (byte : UInt8) : Bool :=
  negated !=
    (ranges.flatMap byteRanges).any fun range => range.1 ≤ byte && byte ≤ range.2

/-! ## Matching -/

/-- All ends of a run of bytes, the run itself included. -/
def ends : List UInt8 → List (List UInt8)
  | [] => [[]]
  | byte :: bytes => (byte :: bytes) :: ends bytes

/-- What is left after each slash. -/
def afterSlashes : List UInt8 → List (List UInt8)
  | [] => []
  | byte :: bytes =>
      if byte = 47 then bytes :: afterSlashes bytes else afterSlashes bytes

/-- What is left after these bytes. -/
def afterBytes : List UInt8 → List UInt8 → List (List UInt8)
  | [], bytes => [bytes]
  | _ :: _, [] => []
  | expected :: others, byte :: bytes =>
      if expected = byte then afterBytes others bytes else []

mutual

/-- Whether a piece takes nothing because it has nothing to choose from. -/
def isVoid : Piece → Bool
  | .choice alternatives => areVoid alternatives
  | _ => false

/-- Whether all pieces of a run are void. -/
def isVoidRun : List Piece → Bool
  | [] => true
  | piece :: pieces => isVoid piece && isVoidRun pieces

/-- Whether all runs of pieces are void. -/
def areVoid : List (List Piece) → Bool
  | [] => true
  | run :: runs => isVoidRun run && areVoid runs

end

mutual

/-- What can be left of a path after a piece. -/
def Piece.rests (bytes : List UInt8) : Piece → List (List UInt8)
  | .char c => afterBytes (bytesOf c) bytes
  | .any => bytes.tail?.toList
  | .star => ends bytes
  | .leadingDirectories => bytes :: afterSlashes bytes
  | .everythingBelow =>
      match bytes with
      | byte :: below => if byte = 47 then ends below else []
      | [] => []
  | .innerDirectories =>
      match bytes with
      | byte :: below => if byte = 47 then below :: afterSlashes below else []
      | [] => []
  | .set negated ranges =>
      match bytes with
      | byte :: below => if inSet negated ranges byte then [below] else []
      | [] => []
  | .choice alternatives =>
      if areVoid alternatives then [bytes] else restsOfAny [bytes] alternatives

/-- What can be left of some paths after a run of pieces. -/
def restsOfRun (paths : List (List UInt8)) : List Piece → List (List UInt8)
  | [] => paths
  | piece :: pieces =>
      restsOfRun (paths.flatMap fun path => Piece.rests path piece).eraseDups pieces

/-- What can be left of some paths after one of several runs of pieces; a run
that is void is none of them. -/
def restsOfAny (paths : List (List UInt8)) : List (List Piece) → List (List UInt8)
  | [] => []
  | run :: runs =>
      (if isVoidRun run then [] else restsOfRun paths run) ++ restsOfAny paths runs

end

end Glob

/-- A description of paths. -/
structure Glob where
  pieces : List Glob.Piece

namespace Glob

/-- Whether a path is described. -/
def isMatch (glob : Glob) (path : String) : Bool :=
  match glob.pieces with
  | [.leadingDirectories] => true
  | pieces => (restsOfRun [path.toUTF8.toList] pieces).any List.isEmpty

end Glob

end SemanticDiff
