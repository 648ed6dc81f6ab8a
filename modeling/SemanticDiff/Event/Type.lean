/-!
# Event types

The closed list of changes that are reported.
-/

namespace SemanticDiff

/-- The type of a reported change. -/
inductive EventType where
  | nodeAdded
  | nodeRemoved
  | signatureChanged
  | decoratorAdded
  | decoratorRemoved
  | errorHandlingIntroduced
  | errorHandlingRemoved
  | exceptionHandlingAdded
  | exceptionHandlingRemoved
  | functionComplexityChanged
  | returnPatternChanged
  | yieldPatternChanged
  | functionalProgrammingAdopted
  | functionalProgrammingRemoved
  | lambdaUsageChanged
  | comprehensionUsageChanged
  | typeAnnotationsIntroduced
  | typeAnnotationsRemoved
  | defaultParametersAdded
  | defaultParametersRemoved
  | defaultParametersChanged
  | starredExpressionsChanged
  | sliceUsageChanged
  | nestedClassAdded
  | nestedClassRemoved
  | nestedClassChanged
  | stringLiteralUsageChanged
  | numericLiteralUsageChanged
  | booleanLiteralUsageChanged
  | noneLiteralUsageChanged
  | assertionUsageChanged
  | functionMadeAsync
  | functionMadeSync
  | globalUsageChanged
  | inheritanceChanged
  | dependencyAdded
  | dependencyRemoved
deriving DecidableEq, Repr

namespace EventType

/-- All event types, in the order in which they are listed to a reader. -/
def all : List EventType :=
  [.nodeAdded, .nodeRemoved, .signatureChanged, .decoratorAdded, .decoratorRemoved,
    .errorHandlingIntroduced, .errorHandlingRemoved, .exceptionHandlingAdded,
    .exceptionHandlingRemoved, .functionComplexityChanged, .returnPatternChanged,
    .yieldPatternChanged, .functionalProgrammingAdopted, .functionalProgrammingRemoved,
    .lambdaUsageChanged, .comprehensionUsageChanged, .typeAnnotationsIntroduced,
    .typeAnnotationsRemoved, .defaultParametersAdded, .defaultParametersRemoved,
    .defaultParametersChanged, .starredExpressionsChanged, .sliceUsageChanged,
    .nestedClassAdded, .nestedClassRemoved, .nestedClassChanged, .stringLiteralUsageChanged,
    .numericLiteralUsageChanged, .booleanLiteralUsageChanged, .noneLiteralUsageChanged,
    .assertionUsageChanged, .functionMadeAsync, .functionMadeSync, .globalUsageChanged,
    .inheritanceChanged, .dependencyAdded, .dependencyRemoved]

/-- Every event type is listed. -/
theorem mem_all (type : EventType) : type ∈ all := by
  cases type <;> decide

/-- The name of an event type. -/
def name : EventType → String
  | .nodeAdded => "node_added"
  | .nodeRemoved => "node_removed"
  | .signatureChanged => "signature_changed"
  | .decoratorAdded => "decorator_added"
  | .decoratorRemoved => "decorator_removed"
  | .errorHandlingIntroduced => "error_handling_introduced"
  | .errorHandlingRemoved => "error_handling_removed"
  | .exceptionHandlingAdded => "exception_handling_added"
  | .exceptionHandlingRemoved => "exception_handling_removed"
  | .functionComplexityChanged => "function_complexity_changed"
  | .returnPatternChanged => "return_pattern_changed"
  | .yieldPatternChanged => "yield_pattern_changed"
  | .functionalProgrammingAdopted => "functional_programming_adopted"
  | .functionalProgrammingRemoved => "functional_programming_removed"
  | .lambdaUsageChanged => "lambda_usage_changed"
  | .comprehensionUsageChanged => "comprehension_usage_changed"
  | .typeAnnotationsIntroduced => "type_annotations_introduced"
  | .typeAnnotationsRemoved => "type_annotations_removed"
  | .defaultParametersAdded => "default_parameters_added"
  | .defaultParametersRemoved => "default_parameters_removed"
  | .defaultParametersChanged => "default_parameters_changed"
  | .starredExpressionsChanged => "starred_expressions_changed"
  | .sliceUsageChanged => "slice_usage_changed"
  | .nestedClassAdded => "nested_class_added"
  | .nestedClassRemoved => "nested_class_removed"
  | .nestedClassChanged => "nested_class_changed"
  | .stringLiteralUsageChanged => "string_literal_usage_changed"
  | .numericLiteralUsageChanged => "numeric_literal_usage_changed"
  | .booleanLiteralUsageChanged => "boolean_literal_usage_changed"
  | .noneLiteralUsageChanged => "none_literal_usage_changed"
  | .assertionUsageChanged => "assertion_usage_changed"
  | .functionMadeAsync => "function_made_async"
  | .functionMadeSync => "function_made_sync"
  | .globalUsageChanged => "global_usage_changed"
  | .inheritanceChanged => "inheritance_changed"
  | .dependencyAdded => "dependency_added"
  | .dependencyRemoved => "dependency_removed"

/-- The event type of a name. -/
def ofName? (text : String) : Option EventType :=
  all.find? fun type => type.name == text

/-- Whether the event may be reported for a node that did not exist before. -/
def isAdditionSafe (type : EventType) : Bool :=
  type == .nodeAdded

/-- The text of the error for a name that is none of an event type. -/
def unknownMessage (text : String) : String :=
  "unknown event type: " ++ text

end EventType

end SemanticDiff
