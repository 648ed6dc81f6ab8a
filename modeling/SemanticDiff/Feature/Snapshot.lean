import SemanticDiff.Feature.Basic

/-!
# Snapshots

A snapshot holds one value for every feature of a vocabulary.  Reading a feature
that is outside the vocabulary, or in the wrong shape, is an error rather than a
default.
-/

namespace SemanticDiff.Feature

/-- A feature was asked for in a shape that the snapshot does not hold. -/
structure Mismatch where
  feature : Feature
  expected : ValueKind
  found : Option ValueKind
deriving DecidableEq, Repr

namespace Mismatch

/-- The text of the error. -/
def message (mismatch : Mismatch) : String :=
  "feature `" ++ mismatch.feature.name ++ "` requested as " ++ mismatch.expected.name ++
    " but extractor vocabulary v" ++ toString vocabularyVersion ++ " has " ++
    (mismatch.found.map ValueKind.name).getD "nothing"

end Mismatch

/-- The values of the features of one node. -/
structure Snapshot where
  get? : Feature → Option Value

namespace Snapshot

/-- The snapshot over a vocabulary in which nothing was found. -/
def zero (vocabulary : List Feature) : Snapshot where
  get? feature :=
    if vocabulary.contains feature then some (Value.zero feature.kind) else none

/-- Whether the snapshot holds a value for a feature. -/
def contains (snapshot : Snapshot) (feature : Feature) : Bool :=
  (snapshot.get? feature).isSome

/-- Replace the value of a feature by one of the same shape. -/
def set (snapshot : Snapshot) (feature : Feature) (value : Value) :
    Except Mismatch Snapshot :=
  match snapshot.get? feature with
  | some held =>
      if held.kind = value.kind then
        .ok { get? := fun other =>
          if other = feature then some value else snapshot.get? other }
      else .error { feature, expected := value.kind, found := some held.kind }
  | none => .error { feature, expected := value.kind, found := none }

/-- Read a feature as a count. -/
def count (snapshot : Snapshot) (feature : Feature) : Except Mismatch Nat :=
  match snapshot.get? feature with
  | some (.count number) => .ok number
  | other => .error { feature, expected := .count, found := other.map Value.kind }

/-- Read a feature as a flag. -/
def flag (snapshot : Snapshot) (feature : Feature) : Except Mismatch Bool :=
  match snapshot.get? feature with
  | some (.flag set) => .ok set
  | other => .error { feature, expected := .flag, found := other.map Value.kind }

/-- Read a feature as a tally. -/
def tally (snapshot : Snapshot) (feature : Feature) : Except Mismatch Tally :=
  match snapshot.get? feature with
  | some (.tally names) => .ok names
  | other => .error { feature, expected := .tally, found := other.map Value.kind }

/-- Read a feature as a text. -/
def text (snapshot : Snapshot) (feature : Feature) : Except Mismatch String :=
  match snapshot.get? feature with
  | some (.text text) => .ok text
  | other => .error { feature, expected := .text, found := other.map Value.kind }

/-- The features with their values, in the order of the vocabulary. -/
def entries (snapshot : Snapshot) : List (Feature × Value) :=
  Feature.all.filterMap fun feature =>
    (snapshot.get? feature).map fun value => (feature, value)

/-- Replace values one after the other; one that is refused changes nothing. -/
def setAll (snapshot : Snapshot) (values : List (Feature × Value)) : Snapshot :=
  values.foldl
    (fun snapshot entry =>
      match snapshot.set entry.1 entry.2 with
      | .ok changed => changed
      | .error _ => snapshot)
    snapshot

end Snapshot

end SemanticDiff.Feature
