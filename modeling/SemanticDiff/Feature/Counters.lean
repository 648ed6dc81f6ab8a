import SemanticDiff.Feature.Extraction

/-!
# Counting in words

A machine counts in words of 32 bits.  The walk over a definition raises counters and the
entries of tallies one by one, and a word that is full cannot be raised.  The sums of
counters are made at the end, and they have to fit in a word as well.
-/

namespace SemanticDiff.Feature

open SemanticDiff.Source (Tree)
open SemanticDiff.Outline (Node SourceUnit)

/-! ## Words -/

/-- Add two words, if the sum fits in a word. -/
def addWords? (first second : UInt32) : Option UInt32 :=
  if first.toNat + second.toNat < UInt32.size then some (first + second) else none

/-- Add words, one after the other. -/
def sumWords? (words : List UInt32) : Option UInt32 :=
  words.foldlM addWords? 0

/-- What a walk raises: the counter of a feature, or a name in the tally of a feature. -/
inductive Cell where
  | counter (feature : Feature)
  | entry (feature : Feature) (name : String)
deriving DecidableEq

/-- Counters and tallies of words. -/
structure Counters where
  counts : Feature → UInt32
  tallies : Feature → SortedMap UInt32

namespace Counters

/-- Nothing counted. -/
def zero : Counters where
  counts _ := 0
  tallies _ := SortedMap.empty

/-- Set a counter. -/
def setCount (counters : Counters) (feature : Feature) (word : UInt32) : Counters :=
  { counters with
    counts := fun other => if other = feature then word else counters.counts other }

/-- Set a tally. -/
def setTally (counters : Counters) (feature : Feature) (tally : SortedMap UInt32) : Counters :=
  { counters with
    tallies := fun other => if other = feature then tally else counters.tallies other }

/-- Set the counters that are sums of others. -/
def setSums (counters : Counters) (complexity markers decorators : UInt32) : Counters :=
  ((counters.setCount .complexity complexity).setCount .functionalMarkers markers).setCount
    .decorators decorators

/-- Count one more. -/
def raise? (counters : Counters) : Cell → Option Counters
  | .counter feature => (addWords? (counters.counts feature) 1).map (counters.setCount feature)
  | .entry feature name =>
      let tally := counters.tallies feature
      (addWords? ((tally.get? name).getD 0) 1).map fun word =>
        counters.setTally feature (tally.insert name word)

/-- Count one thing after the other. -/
def raiseAll? (counters : Counters) (cells : List Cell) : Option Counters :=
  cells.foldlM raise? counters

end Counters

/-! ## The walk in steps -/

mutual

/-- What a walk finds in a tree, construct by construct. -/
def stepsOf : Tree → List Facts
  | .node label _ _ _ children =>
      match label with
      | .literal _ => []
      | .construct .functionDefinition => [nestedFacts label]
      | .construct .classDefinition => [nestedFacts label]
      | .construct .decoratedDefinition =>
          ((children.find? fun child => child.field == some .definition).map
            fun definition => nestedFacts definition.label).toList
      | .construct .type => []
      | .construct .comment => []
      | .construct kind => ownFacts kind children :: stepsOfAll children

/-- What a walk finds in a run of trees. -/
def stepsOfAll : List Tree → List Facts
  | [] => []
  | tree :: trees => stepsOf tree ++ stepsOfAll trees

end

/-- What a walk finds in the part of a definition that plays a role and stands outside its
body. -/
def headSteps (definition : Tree) (role : Source.Field) : List Facts :=
  ((definition.childWith? role).map fun part => stepsOfAll part.children).getD []

/-- What a walk finds in a body. -/
def scopeSteps (body : Tree) : List Facts :=
  stepsOfAll (withoutDocstring body.children)

/-- What a walk finds in the body of a definition. -/
def bodySteps (definition : Tree) : List Facts :=
  ((definition.childWith? .body).map scopeSteps).getD []

/-- The head of a node of an outline, and what the walk over the node finds. -/
def measureSteps (tree : Tree) (node : Node) : Header × List Facts :=
  match node.kind with
  | .module => ({}, scopeSteps tree)
  | .functionDef =>
      match locate .functionDefinition node.span none tree with
      | some located =>
          (functionHeader located, headSteps located.tree .parameters ++ bodySteps located.tree)
      | none => ({}, [])
  | .classDef =>
      match locate .classDefinition node.span none tree with
      | some located =>
          (classHeader located, headSteps located.tree .superclasses ++ bodySteps located.tree)
      | none => ({}, [])

/-! ## What is raised -/

/-- Whether a feature is not counted but made by adding others up. -/
def isSummed : Feature → Bool
  | .complexity | .functionalMarkers | .decorators => true
  | _ => false

/-- What is raised for the value of a feature. -/
def cellsOfValue (feature : Feature) : Value → List Cell
  | .count number => if isSummed feature then [] else List.replicate number (.counter feature)
  | .tally names =>
      names.entries.flatMap fun entry => List.replicate entry.2 (.entry feature entry.1)
  | .flag _ | .text _ => []

/-- What is raised for the values of features. -/
def cellsOf (entries : List (Feature × Value)) : List Cell :=
  entries.flatMap fun entry => cellsOfValue entry.1 entry.2

/-- What is raised for a node of an outline. -/
def raised (tree : Tree) (node : Node) : List Cell :=
  let (header, steps) := measureSteps tree node
  cellsOf (values header .zero) ++ steps.flatMap fun facts => cellsOf (values {} facts)

/-- The features that are added up to the complexity. -/
def complexitySummands : List Feature :=
  [.controlFlow, .returns, .yields, .exceptionHandlers]

/-- The features that are added up to the functional markers. -/
def markerSummands : List Feature :=
  [.lambdas, .comprehensions]

/-- The counters of a node of a unit, with those that are sums of others.  There are none
if some number does not fit in a word. -/
def extractWords? (unit : SourceUnit) (node : Node) : Option Counters := do
  let counters ← Counters.zero.raiseAll? (raised unit.tree node)
  let complexity ← sumWords? (complexitySummands.map counters.counts)
  let markers ← sumWords? (markerSummands.map counters.counts)
  let decorators ← sumWords? (counters.tallies .decoratorNames).values
  return counters.setSums complexity markers decorators

end SemanticDiff.Feature
