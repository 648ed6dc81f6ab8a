import SemanticDiff.Event.Basic

/-!
# Assembly of events

The findings of all rules become the event list of a file: ordered by key, then
by the position of the rule, and without repetitions.
-/

namespace SemanticDiff

open SemanticDiff.Outline (Key NodeKind)

/-- A draft together with the node and the rule it came from. -/
structure Finding where
  key : Key
  kind : NodeKind
  ruleIndex : Nat
  rule : String
  draft : Draft
deriving DecidableEq

namespace Finding

/-- Findings are ordered by key, then by the position of the rule. -/
def precedes (first second : Finding) : Bool :=
  if first.key.text = second.key.text then first.ruleIndex ≤ second.ruleIndex
  else first.key.text < second.key.text

/-- Whether two findings report the same change of the same node. -/
def sameReport (first second : Finding) : Bool :=
  first.key == second.key && first.draft == second.draft

/-- Keep the first of all findings that report the same. -/
def keepFirst (seen : List Finding) : List Finding → List Finding
  | [] => []
  | finding :: findings =>
      if seen.any (sameReport finding) then keepFirst seen findings
      else finding :: keepFirst (finding :: seen) findings

/-- The event of a finding. -/
def toEvent (path revision : String) (finding : Finding) (order : Nat) : Event where
  type := finding.draft.type
  key := finding.key
  path := path
  kind := finding.kind
  details := finding.draft.details
  revision := revision
  rule := finding.rule
  order := order

end Finding

/-- Turn the findings for one file into its event list. -/
def assemble (path revision : String) (findings : List Finding) : List Event :=
  (Finding.keepFirst [] (findings.mergeSort Finding.precedes)).mapIdx fun order finding =>
    finding.toEvent path revision order

end SemanticDiff
