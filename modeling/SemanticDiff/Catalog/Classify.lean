import SemanticDiff.Catalog.Table
import SemanticDiff.Event.Assembly

/-!
# Classification

Every rule that applies to a context is run on it, in the order of the catalog.
-/

namespace SemanticDiff.Catalog

open SemanticDiff.Feature (Mismatch)

/-- What a rule finds in a context, if it applies. -/
def findingsOf (context : Context) (index : Nat) (rule : Rule) :
    Except Mismatch (List Finding) :=
  if rule.appliesTo context then do
    let drafts ← rule.classify context
    return drafts.map fun draft =>
      { key := context.key, kind := context.kind, ruleIndex := index, rule := rule.name, draft }
  else .ok []

/-- What a run of rules finds in a context. -/
def classifyWith (context : Context) : List (Nat × Rule) → Except Mismatch (List Finding)
  | [] => .ok []
  | (index, rule) :: others => do
      let first ← findingsOf context index rule
      let rest ← classifyWith context others
      return first ++ rest

/-- What all rules find in a context. -/
def classify (context : Context) : Except Mismatch (List Finding) :=
  classifyWith context numberedRules

/-- What all rules find in a run of contexts. -/
def classifyAll : List Context → Except Mismatch (List Finding)
  | [] => .ok []
  | context :: others => do
      let first ← classify context
      let rest ← classifyAll others
      return first ++ rest

end SemanticDiff.Catalog
