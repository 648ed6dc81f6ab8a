import SemanticDiff.Catalog.Classifier

/-!
# The catalog of rules

The rules in the order in which they are applied, each with what it applies to,
the features it reads and the events it can report.
-/

namespace SemanticDiff.Catalog

open SemanticDiff.Feature (Mismatch)
open SemanticDiff.Outline (NodeKind)

/-- A rule with its contract. -/
structure Rule where
  name : String
  scope : Scope
  kinds : List NodeKind
  reads : List Feature
  emits : List EventType
  classify : Classifier

namespace Rule

/-- Whether a rule applies to a context. -/
def appliesTo (rule : Rule) (context : Context) : Bool :=
  rule.scope == context.scope && rule.kinds.contains context.kind

end Rule

/-- Modules, classes and functions. -/
def allKinds : List NodeKind := [.module, .classDef, .functionDef]

/-- Functions and classes. -/
def definitions : List NodeKind := [.functionDef, .classDef]

/-- Functions. -/
def functions : List NodeKind := [.functionDef]

/-- Classes. -/
def classes : List NodeKind := [.classDef]

/-- Functions and modules. -/
def functionsAndModules : List NodeKind := [.functionDef, .module]

/-- The literals that are counted, with the event for each. -/
def literalKinds : List (Feature × EventType) :=
  [(.stringLiterals, .stringLiteralUsageChanged),
    (.numericLiterals, .numericLiteralUsageChanged),
    (.booleanLiterals, .booleanLiteralUsageChanged),
    (.noneLiterals, .noneLiteralUsageChanged)]

/-- A rule that reports every change of a count. -/
def countRule (name : String) (kinds : List NodeKind) (feature : Feature)
    (type : EventType) : Rule where
  name := name
  scope := .changed
  kinds := kinds
  reads := [feature]
  emits := [type]
  classify := .count feature type

/-- All rules, in the order in which they are applied. -/
def rules : List Rule :=
  [{ name := "node_added", scope := .added, kinds := definitions, reads := [],
     emits := [.nodeAdded], classify := .nodeAdded },
    { name := "node_removed", scope := .removed, kinds := definitions, reads := [],
      emits := [.nodeRemoved], classify := .nodeRemoved },
    { name := "signature", scope := .changed, kinds := functions, reads := [.signature],
      emits := [.signatureChanged], classify := .text .signature .signatureChanged },
    { name := "decorators", scope := .changed, kinds := definitions,
      reads := [.decoratorNames], emits := [.decoratorAdded, .decoratorRemoved],
      classify := .names .decoratorNames "decorator" .decoratorAdded .decoratorRemoved },
    { name := "error_handling", scope := .changed, kinds := functionsAndModules,
      reads := [.exceptionHandlers],
      emits := [.errorHandlingIntroduced, .errorHandlingRemoved],
      classify :=
        .presence .exceptionHandlers .errorHandlingIntroduced .errorHandlingRemoved },
    { name := "exception_handling", scope := .changed, kinds := functionsAndModules,
      reads := [.exceptionHandlers, .handlerTypes],
      emits := [.exceptionHandlingAdded, .exceptionHandlingRemoved],
      classify := .exceptionHandling },
    countRule "complexity" functions .complexity .functionComplexityChanged,
    countRule "return_pattern" functions .returns .returnPatternChanged,
    countRule "yield_pattern" functions .yields .yieldPatternChanged,
    { name := "functional_style", scope := .changed, kinds := allKinds,
      reads := [.functionalMarkers],
      emits := [.functionalProgrammingAdopted, .functionalProgrammingRemoved],
      classify :=
        .presence .functionalMarkers .functionalProgrammingAdopted
          .functionalProgrammingRemoved },
    countRule "lambda_usage" allKinds .lambdas .lambdaUsageChanged,
    countRule "comprehension_usage" allKinds .comprehensions .comprehensionUsageChanged,
    { name := "type_annotations", scope := .changed, kinds := allKinds,
      reads := [.typeAnnotations],
      emits := [.typeAnnotationsIntroduced, .typeAnnotationsRemoved],
      classify :=
        .flag .typeAnnotations .typeAnnotationsIntroduced .typeAnnotationsRemoved },
    { name := "default_parameters", scope := .changed, kinds := functions,
      reads := [.defaultParameters],
      emits := [.defaultParametersAdded, .defaultParametersRemoved,
        .defaultParametersChanged],
      classify :=
        .presenceAndCount .defaultParameters .defaultParametersAdded
          .defaultParametersRemoved .defaultParametersChanged },
    countRule "starred_expressions" allKinds .starredExpressions .starredExpressionsChanged,
    countRule "slice_usage" allKinds .slices .sliceUsageChanged,
    { name := "nested_classes", scope := .changed, kinds := definitions,
      reads := [.nestedClasses],
      emits := [.nestedClassAdded, .nestedClassRemoved, .nestedClassChanged],
      classify :=
        .presenceAndCount .nestedClasses .nestedClassAdded .nestedClassRemoved
          .nestedClassChanged },
    { name := "literal_usage", scope := .changed, kinds := allKinds,
      reads := literalKinds.map (·.1), emits := literalKinds.map (·.2),
      classify := .counts literalKinds },
    countRule "assertions" allKinds .assertions .assertionUsageChanged,
    { name := "async_conversion", scope := .changed, kinds := functions,
      reads := [.async], emits := [.functionMadeAsync, .functionMadeSync],
      classify := .flag .async .functionMadeAsync .functionMadeSync },
    countRule "scope_declarations" allKinds .scopeDeclarations .globalUsageChanged,
    { name := "inheritance", scope := .changed, kinds := classes, reads := [.baseClasses],
      emits := [.inheritanceChanged],
      classify := .text .baseClasses .inheritanceChanged },
    { name := "dependencies", scope := .changed, kinds := allKinds, reads := [.imports],
      emits := [.dependencyAdded, .dependencyRemoved],
      classify := .names .imports "module" .dependencyAdded .dependencyRemoved }]

/-- The rules with their positions. -/
def numberedRules : List (Nat × Rule) :=
  rules.mapIdx fun index rule => (index, rule)

/-- The rule of a name, with its position. -/
def find? (name : String) : Option (Nat × Rule) :=
  numberedRules.find? fun numbered => numbered.2.name == name

/-- All features that rules declare to read, in the order of the catalog. -/
def allReads : List Feature :=
  rules.flatMap Rule.reads

/-- Check that a vocabulary has every feature that a rule reads. -/
def validate (vocabulary : List Feature) : Except Mismatch Unit :=
  match allReads.find? fun feature => !vocabulary.contains feature with
  | some feature => .error { feature, expected := feature.kind, found := none }
  | none => .ok ()

end SemanticDiff.Catalog
