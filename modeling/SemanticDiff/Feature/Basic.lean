import SemanticDiff.Collection.SortedMap

/-!
# Features

The closed vocabulary of what is measured about a module, class or function, the
shape of each measurement, and the values it can take.
-/

namespace SemanticDiff.Feature

/-- The shape of a feature's value. -/
inductive ValueKind where
  | count
  | flag
  | tally
  | text
deriving DecidableEq, Repr

namespace ValueKind

/-- The name of a shape. -/
def name : ValueKind → String
  | .count => "count"
  | .flag => "flag"
  | .tally => "tally"
  | .text => "text"

/-- All shapes. -/
def all : List ValueKind :=
  [.count, .flag, .tally, .text]

/-- The shape of a name. -/
def ofName? (text : String) : Option ValueKind :=
  all.find? fun kind => kind.name == text

end ValueKind

end SemanticDiff.Feature

namespace SemanticDiff

/-- What is measured about a node. -/
inductive Feature where
  | controlFlow
  | returns
  | yields
  | exceptionHandlers
  | complexity
  | handlerTypes
  | lambdas
  | comprehensions
  | functionalMarkers
  | typeAnnotations
  | decorators
  | decoratorNames
  | defaultParameters
  | starredExpressions
  | slices
  | nestedClasses
  | nestedFunctions
  | stringLiterals
  | numericLiterals
  | booleanLiterals
  | noneLiterals
  | assertions
  | scopeDeclarations
  | async
  | imports
  | signature
  | baseClasses
deriving DecidableEq, Repr

namespace Feature

/-- All features, in the order in which they are listed to a reader. -/
def all : List Feature :=
  [.controlFlow, .returns, .yields, .exceptionHandlers, .complexity, .handlerTypes,
    .lambdas, .comprehensions, .functionalMarkers, .typeAnnotations, .decorators,
    .decoratorNames, .defaultParameters, .starredExpressions, .slices, .nestedClasses,
    .nestedFunctions, .stringLiterals, .numericLiterals, .booleanLiterals, .noneLiterals,
    .assertions, .scopeDeclarations, .async, .imports, .signature, .baseClasses]

/-- Every feature is listed. -/
theorem mem_all (feature : Feature) : feature ∈ all := by
  cases feature <;> decide

/-- The version of the vocabulary. -/
def vocabularyVersion : Nat :=
  1

/-- The name of a feature. -/
def name : Feature → String
  | .controlFlow => "control_flow"
  | .returns => "returns"
  | .yields => "yields"
  | .exceptionHandlers => "exception_handlers"
  | .complexity => "complexity"
  | .handlerTypes => "handler_types"
  | .lambdas => "lambdas"
  | .comprehensions => "comprehensions"
  | .functionalMarkers => "functional_markers"
  | .typeAnnotations => "type_annotations"
  | .decorators => "decorators"
  | .decoratorNames => "decorator_names"
  | .defaultParameters => "default_parameters"
  | .starredExpressions => "starred_expressions"
  | .slices => "slices"
  | .nestedClasses => "nested_classes"
  | .nestedFunctions => "nested_functions"
  | .stringLiterals => "string_literals"
  | .numericLiterals => "numeric_literals"
  | .booleanLiterals => "boolean_literals"
  | .noneLiterals => "none_literals"
  | .assertions => "assertions"
  | .scopeDeclarations => "scope_declarations"
  | .async => "async"
  | .imports => "imports"
  | .signature => "signature"
  | .baseClasses => "base_classes"

/-- The feature of a name. -/
def ofName? (text : String) : Option Feature :=
  all.find? fun feature => feature.name == text

/-- The shape of a feature's values. -/
def kind : Feature → ValueKind
  | .typeAnnotations | .async => .flag
  | .handlerTypes | .decoratorNames | .imports => .tally
  | .signature | .baseClasses => .text
  | _ => .count

/-- How often each name occurs. -/
abbrev Tally := SortedMap Nat

namespace Tally

/-- Count a name some more times. -/
def bump (tally : Tally) (name : String) (times : Nat) : Tally :=
  tally.insert name ((tally.get? name).getD 0 + times)

/-- The tally of two runs of names together. -/
def add (first second : Tally) : Tally :=
  second.entries.foldl (fun tally entry => bump tally entry.1 entry.2) first

/-- The tally of a list of names. -/
def ofNames (names : List String) : Tally :=
  names.foldl (fun tally name => bump tally name 1) SortedMap.empty

/-- How many names were counted in all. -/
def total (tally : Tally) : Nat :=
  tally.values.foldl (· + ·) 0

end Tally

/-- The value of a feature. -/
inductive Value where
  | count (number : Nat)
  | flag (set : Bool)
  | tally (names : Tally)
  | text (text : String)
deriving DecidableEq

namespace Value

/-- The value of a shape when nothing was found. -/
def zero : ValueKind → Value
  | .count => .count 0
  | .flag => .flag false
  | .tally => .tally SortedMap.empty
  | .text => .text ""

/-- The shape of a value. -/
def kind : Value → ValueKind
  | .count _ => .count
  | .flag _ => .flag
  | .tally _ => .tally
  | .text _ => .text

/-- The value of a shape when nothing was found has that shape. -/
@[simp]
theorem kind_zero (kind : ValueKind) : (zero kind).kind = kind := by
  cases kind <;> rfl

end Value

end Feature

end SemanticDiff
