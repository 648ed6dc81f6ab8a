import SemanticDiff.Glob.Basic

/-!
# Reading globs

Two stars stand for directories only where they fill a component of the path;
elsewhere they are two stars.  Inside braces a comma parts alternatives, and
braces may nest.
-/

namespace SemanticDiff.Glob

/-! ## Sets -/

/-- Close the range that was begun last. -/
def closeRange (last : Char) : List (Char × Char) → Except Fault (List (Char × Char))
  | [] => .ok []
  | (first, _) :: ranges =>
      if last < first then .error (.invalidRange first last) else .ok ((first, last) :: ranges)

/-- Read a set up to its closing bracket.  The ranges found so far are listed
with the last one first. -/
def readSet (first inRange : Bool) (ranges : List (Char × Char)) :
    List Char → Except Fault (List (Char × Char) × List Char)
  | [] => .error .unclosedSet
  | c :: rest =>
      if c = ']' && !first then
        .ok ((if inRange then ('-', '-') :: ranges else ranges).reverse, rest)
      else if c = '-' && !first && !inRange then readSet false true ranges rest
      else if inRange then do
        let ranges ← closeRange c ranges
        readSet false false ranges rest
      else readSet false false ((c, c) :: ranges) rest

/-- Read a set after its opening bracket. -/
def readWholeSet (chars : List Char) : Except Fault (Piece × List Char) := do
  let (negated, chars) :=
    match chars with
    | '!' :: rest => (true, rest)
    | '^' :: rest => (true, rest)
    | _ => (false, chars)
  let (ranges, rest) ← readSet true false [] chars
  return (.set negated ranges, rest)

/-! ## Pieces -/

/-- An open choice: the pieces before it and the alternatives that are complete. -/
structure Group where
  before : List Piece
  alternatives : List (List Piece)

/-- How far a glob has been read: the pieces of the innermost open alternative,
last one first, and the open choices around it. -/
structure Progress where
  pieces : List Piece
  groups : List Group

namespace Progress

/-- Add a piece. -/
def push (progress : Progress) (piece : Piece) : Progress :=
  { progress with pieces := piece :: progress.pieces }

/-- Begin a choice. -/
def openChoice (progress : Progress) : Progress where
  pieces := []
  groups := { before := progress.pieces, alternatives := [] } :: progress.groups

/-- End a choice. -/
def closeChoice (progress : Progress) : Except Fault Progress :=
  match progress.groups with
  | [] => .error .unopenedChoice
  | group :: groups =>
      .ok {
        pieces := .choice (progress.pieces.reverse :: group.alternatives) :: group.before
        groups }

/-- A comma: it begins another alternative inside a choice. -/
def comma (progress : Progress) : Progress :=
  match progress.groups with
  | [] => progress.push (.char ',')
  | group :: groups =>
      { pieces := []
        groups :=
          { group with alternatives := progress.pieces.reverse :: group.alternatives } ::
            groups }

/-- Two stars that fill a component after others.  They take the place of the
slash before them. -/
def pushDirectories (progress : Progress) (last : Bool) : Progress :=
  match progress.pieces with
  | .leadingDirectories :: _ => progress
  | .everythingBelow :: _ => progress
  | _ :: pieces =>
      { progress with
        pieces := (if last then .everythingBelow else .innerDirectories) :: pieces }
  | [] => progress

end Progress

/-- Two stars, with the character before them and what follows them. -/
def readStars (progress : Progress) (previous : Option Char) (chars : List Char) :
    Progress × List Char :=
  let plain := ((progress.push .star).push .star, chars)
  if progress.pieces.isEmpty then
    match chars with
    | [] => (progress.push .leadingDirectories, [])
    | c :: rest => if c = '/' then (progress.push .leadingDirectories, rest) else plain
  else
    let inChoice := !progress.groups.isEmpty
    let fillsBefore :=
      previous == some '/' || (inChoice && (previous == some ',' || previous == some '\x7b'))
    if fillsBefore then
      match chars with
      | [] => (progress.pushDirectories true, [])
      | c :: rest =>
          if inChoice && (c = ',' || c = '\x7d') then (progress.pushDirectories true, chars)
          else if c = '/' then (progress.pushDirectories false, rest)
          else plain
    else plain

/-- Read pieces up to the end of a text. -/
def readPieces : Nat → Progress → Option Char → List Char → Except Fault Progress
  | 0, progress, _, _ => .ok progress
  | _ + 1, progress, _, [] => .ok progress
  | budget + 1, progress, previous, c :: rest =>
      let next (progress : Progress) (rest : List Char) (last : Char) :=
        readPieces budget progress (some last) rest
      if c = '?' then next (progress.push .any) rest c
      else if c = '*' then
        match rest with
        | '*' :: after =>
            let (progress, left) := readStars progress previous after
            next progress left (if left.length < after.length then '/' else '*')
        | _ => next (progress.push .star) rest c
      else if c = '[' then do
        let (piece, rest) ← readWholeSet rest
        next (progress.push piece) rest ']'
      else if c = '\x7b' then next progress.openChoice rest c
      else if c = '\x7d' then do
        let progress ← progress.closeChoice
        next progress rest c
      else if c = ',' then next progress.comma rest c
      else if c = '\\' then
        match rest with
        | [] => .error .danglingEscape
        | escaped :: rest => next (progress.push (.char escaped)) rest escaped
      else next (progress.push (.char c)) rest c

/-- Read a glob. -/
def parse (text : String) : Except Fault Glob := do
  let chars := text.toList
  let progress ← readPieces (chars.length + 1) { pieces := [], groups := [] } none chars
  if progress.groups.isEmpty then return { pieces := progress.pieces.reverse }
  else .error .unclosedChoice

end SemanticDiff.Glob
