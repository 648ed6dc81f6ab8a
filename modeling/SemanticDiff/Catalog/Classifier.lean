import SemanticDiff.Catalog.Context

/-!
# Classifiers

The functions behind the rules.  A classifier reads features of both sides of a
context and reports drafts; it reads nothing where a side is missing.
-/

namespace SemanticDiff.Catalog

open SemanticDiff.Feature (Mismatch Snapshot Tally)

/-- What a rule finds in a context. -/
abbrev Classifier := Context → Except Mismatch (List Draft)

namespace Classifier

/-- A classifier that compares the features of two sides. -/
def comparing (compare : Snapshot → Snapshot → Except Mismatch (List Draft)) : Classifier :=
  fun context =>
    match context.snapshots? with
    | some (before, after) => compare before after
    | none => .ok []

/-! ## Additions and removals -/

/-- Report where a node stands. -/
def placeDrafts (type : EventType) (context : Context) (side : Option Side) : List Draft :=
  match side with
  | some side =>
      [(((Draft.ofType type).withDetail "kind" (.text context.kind.name)).withDetail
        "start_line" (.int side.span.startLine)).withDetail "end_line" (.int side.span.endLine)]
  | none => []

/-- A node was added. -/
def nodeAdded : Classifier := fun context =>
  .ok (placeDrafts .nodeAdded context context.after)

/-- A node was removed. -/
def nodeRemoved : Classifier := fun context =>
  .ok (placeDrafts .nodeRemoved context context.before)

/-! ## Comparisons -/

/-- Report two counts that differ. -/
def countDrafts (type : EventType) (before after : Nat) : List Draft :=
  if before = after then [] else [.transition type (.int before) (.int after)]

/-- Report a count that begins or ceases to be zero. -/
def presenceDrafts (appeared disappeared : EventType) (before after : Nat) : List Draft :=
  if before = 0 && after != 0 then [.transition appeared (.int before) (.int after)]
  else if before != 0 && after = 0 then [.transition disappeared (.int before) (.int after)]
  else []

/-- Report two texts that differ. -/
def textDrafts (type : EventType) (before after : String) : List Draft :=
  if before = after then [] else [.transition type (.text before) (.text after)]

/-- Report a flag that was set or cleared. -/
def flagDrafts (raised cleared : EventType) (before after : Bool) : List Draft :=
  match before, after with
  | false, true => [.ofType raised]
  | true, false => [.ofType cleared]
  | _, _ => []

/-- The names of one tally that another one lacks, in their order. -/
def namesOnlyIn (names others : Tally) : List String :=
  names.keys.filter fun name => !others.contains name

/-- Report names that appeared, then names that disappeared. -/
def nameDrafts (detail : String) (added removed : EventType) (before after : Tally) :
    List Draft :=
  ((namesOnlyIn after before).map fun name =>
      (Draft.ofType added).withDetail detail (.text name)) ++
    (namesOnlyIn before after).map fun name =>
      (Draft.ofType removed).withDetail detail (.text name)

/-- Compare a count. -/
def count (feature : Feature) (type : EventType) : Classifier :=
  comparing fun before after => do
    let old ← before.count feature
    let new ← after.count feature
    return countDrafts type old new

/-- Compare whether a count is zero. -/
def presence (feature : Feature) (appeared disappeared : EventType) : Classifier :=
  comparing fun before after => do
    let old ← before.count feature
    let new ← after.count feature
    return presenceDrafts appeared disappeared old new

/-- Compare whether a count is zero, and then the count. -/
def presenceAndCount (feature : Feature) (appeared disappeared changed : EventType) :
    Classifier :=
  comparing fun before after => do
    let old ← before.count feature
    let new ← after.count feature
    return presenceDrafts appeared disappeared old new ++ countDrafts changed old new

/-- Compare a text. -/
def text (feature : Feature) (type : EventType) : Classifier :=
  comparing fun before after => do
    let old ← before.text feature
    let new ← after.text feature
    return textDrafts type old new

/-- Compare a flag. -/
def flag (feature : Feature) (raised cleared : EventType) : Classifier :=
  comparing fun before after => do
    let old ← before.flag feature
    let new ← after.flag feature
    return flagDrafts raised cleared old new

/-- Compare the names of a tally. -/
def names (feature : Feature) (detail : String) (added removed : EventType) : Classifier :=
  comparing fun before after => do
    let old ← before.tally feature
    let new ← after.tally feature
    return nameDrafts detail added removed old new

/-- Compare the exceptions caught by code that handled errors before and after. -/
def exceptionHandling : Classifier :=
  comparing fun before after => do
    let old ← before.count .exceptionHandlers
    if old = 0 then return []
    let new ← after.count .exceptionHandlers
    if new = 0 then return []
    let oldTypes ← before.tally .handlerTypes
    let newTypes ← after.tally .handlerTypes
    return nameDrafts "exception_type" .exceptionHandlingAdded .exceptionHandlingRemoved
      oldTypes newTypes

/-- Compare several counts, one after the other. -/
def counts : List (Feature × EventType) → Classifier
  | [], _ => .ok []
  | (feature, type) :: rest, context => do
      let first ← count feature type context
      let others ← counts rest context
      return first ++ others

end Classifier

end SemanticDiff.Catalog
