import Mathlib.Data.Finset.Basic
import SemanticDiff.Proofs.Catalog.Fingerprint

/-!
# Ledgers of features

The drafts about a node can be followed on a ledger of its features.  A change of a
count or a text starts from what the ledger says, a flag is turned over, a name is
added that is missing or removed that is there.  Drafts that carry different
features from one ledger to another can be followed one after the other.
-/

namespace SemanticDiff

open SemanticDiff.Catalog (nameSet)

/-! ## Ledgers -/

/-- What is known about a feature: of a tally only the names. -/
inductive Known where
  | value (detail : Detail)
  | names (names : Finset String)
deriving DecidableEq

/-- What a value says about its feature. -/
def Known.ofValue : Feature.Value → Known
  | .count number => .value (.int number)
  | .flag set => .value (.flag set)
  | .text text => .value (.text text)
  | .tally tally => .names (nameSet tally)

/-- What an event does to the feature that it is about. -/
inductive Effect where
  /-- The value changes from one detail to another. -/
  | move
  /-- The flag takes a value that it did not have. -/
  | flip (set : Bool)
  /-- The name in a detail appears. -/
  | insert (detail : String)
  /-- The name in a detail disappears. -/
  | erase (detail : String)
deriving DecidableEq

/-- The feature that events of a type are about, and what they do to it.  Events
that only tell that something began or ceased to exist have no effect. -/
def EventType.effect? : EventType → Option (Feature × Effect)
  | .signatureChanged => some (.signature, .move)
  | .decoratorAdded => some (.decoratorNames, .insert "decorator")
  | .decoratorRemoved => some (.decoratorNames, .erase "decorator")
  | .functionComplexityChanged => some (.complexity, .move)
  | .returnPatternChanged => some (.returns, .move)
  | .yieldPatternChanged => some (.yields, .move)
  | .lambdaUsageChanged => some (.lambdas, .move)
  | .comprehensionUsageChanged => some (.comprehensions, .move)
  | .typeAnnotationsIntroduced => some (.typeAnnotations, .flip true)
  | .typeAnnotationsRemoved => some (.typeAnnotations, .flip false)
  | .defaultParametersChanged => some (.defaultParameters, .move)
  | .starredExpressionsChanged => some (.starredExpressions, .move)
  | .sliceUsageChanged => some (.slices, .move)
  | .nestedClassChanged => some (.nestedClasses, .move)
  | .stringLiteralUsageChanged => some (.stringLiterals, .move)
  | .numericLiteralUsageChanged => some (.numericLiterals, .move)
  | .booleanLiteralUsageChanged => some (.booleanLiterals, .move)
  | .noneLiteralUsageChanged => some (.noneLiterals, .move)
  | .assertionUsageChanged => some (.assertions, .move)
  | .functionMadeAsync => some (.async, .flip true)
  | .functionMadeSync => some (.async, .flip false)
  | .globalUsageChanged => some (.scopeDeclarations, .move)
  | .inheritanceChanged => some (.baseClasses, .move)
  | .dependencyAdded => some (.imports, .insert "module")
  | .dependencyRemoved => some (.imports, .erase "module")
  | .nodeAdded | .nodeRemoved | .errorHandlingIntroduced | .errorHandlingRemoved
  | .exceptionHandlingAdded | .exceptionHandlingRemoved | .functionalProgrammingAdopted
  | .functionalProgrammingRemoved | .defaultParametersAdded | .defaultParametersRemoved
  | .nestedClassAdded | .nestedClassRemoved => none

/-- What is known after an event.  There is no result if the event does not fit
what was known. -/
def Effect.apply (details : Details) (known : Option Known) : Effect → Option Known
  | .move =>
      match details.get? "from", details.get? "to" with
      | some old, some new => if known = some (.value old) then some (.value new) else none
      | _, _ => none
  | .flip set =>
      if known = some (.value (.flag !set)) then some (.value (.flag set)) else none
  | .insert detail =>
      match details.get? detail, known with
      | some (.text name), some (.names names) =>
          if name ∈ names then none else some (.names (Insert.insert name names))
      | _, _ => none
  | .erase detail =>
      match details.get? detail, known with
      | some (.text name), some (.names names) =>
          if name ∈ names then some (.names (names.erase name)) else none
      | _, _ => none

/-- What is known about the features of a node. -/
abbrev Ledger := Feature → Option Known

namespace Ledger

/-- What a snapshot says. -/
def ofSnapshot (snapshot : Feature.Snapshot) : Ledger := fun feature =>
  (snapshot.get? feature).map Known.ofValue

/-- Follow one draft. -/
def follow (ledger : Ledger) (draft : Draft) : Option Ledger :=
  match draft.type.effect? with
  | some (feature, effect) =>
      (effect.apply draft.details (ledger feature)).map fun known =>
        Function.update ledger feature (some known)
  | none => some ledger

/-- Follow drafts one after the other. -/
def replay (ledger : Ledger) (drafts : List Draft) : Option Ledger :=
  drafts.foldlM follow ledger

@[simp]
theorem replay_nil (ledger : Ledger) : ledger.replay [] = some ledger :=
  rfl

theorem replay_cons (ledger : Ledger) (draft : Draft) (rest : List Draft) :
    ledger.replay (draft :: rest) = (ledger.follow draft).bind fun next => next.replay rest :=
  rfl

theorem replay_append (ledger : Ledger) (first second : List Draft) :
    ledger.replay (first ++ second) =
      (ledger.replay first).bind fun middle => middle.replay second := by
  rw [replay, List.foldlM_append]
  rfl

theorem follow_eq {ledger : Ledger} {draft : Draft} {feature : Feature} {effect : Effect}
    {known : Known} (acts : draft.type.effect? = some (feature, effect))
    (applied : effect.apply draft.details (ledger feature) = some known) :
    ledger.follow draft = some (Function.update ledger feature (some known)) := by
  rw [follow, acts]
  simp only [applied, Option.map_some]

/-- Take over some features from another ledger. -/
def overwrite (ledger : Ledger) (features : List Feature) (other : Ledger) : Ledger :=
  fun feature => if feature ∈ features then other feature else ledger feature

theorem overwrite_nil (ledger other : Ledger) : ledger.overwrite [] other = ledger := by
  funext feature
  simp [overwrite]

theorem overwrite_singleton (ledger other : Ledger) (feature : Feature) :
    ledger.overwrite [feature] other = Function.update ledger feature (other feature) := by
  funext third
  by_cases same : third = feature
  · simp [overwrite, same]
  · simp [overwrite, same]

theorem overwrite_append (ledger other : Ledger) (first second : List Feature) :
    (ledger.overwrite first other).overwrite second other =
      ledger.overwrite (first ++ second) other := by
  funext feature
  by_cases inFirst : feature ∈ first <;> by_cases inSecond : feature ∈ second <;>
    simp [overwrite, inFirst, inSecond]

/-- The drafts carry some features from one ledger to another, and leave all others
alone. -/
def Carries (drafts : List Draft) (features : List Feature) (old new : Ledger) : Prop :=
  ∀ ledger : Ledger, (∀ feature ∈ features, ledger feature = old feature) →
    ledger.replay drafts = some (ledger.overwrite features new)

namespace Carries

variable {old new : Ledger}

theorem append {first second : List Draft} {firstFeatures secondFeatures : List Feature}
    (left : Carries first firstFeatures old new) (right : Carries second secondFeatures old new)
    (disjoint : ∀ feature ∈ firstFeatures, feature ∉ secondFeatures) :
    Carries (first ++ second) (firstFeatures ++ secondFeatures) old new := by
  intro ledger starts
  have middle : ∀ feature ∈ secondFeatures,
      ledger.overwrite firstFeatures new feature = old feature := by
    intro feature member
    have untouched : feature ∉ firstFeatures := fun here => disjoint feature here member
    rw [overwrite, if_neg untouched]
    exact starts feature (List.mem_append_right _ member)
  rw [replay_append, left ledger fun feature member =>
    starts feature (List.mem_append_left _ member), Option.bind_some, right _ middle,
    overwrite_append]

theorem of_effect?_eq_none {drafts : List Draft}
    (idle : ∀ draft ∈ drafts, draft.type.effect? = none) : Carries drafts [] old new := by
  intro ledger _
  rw [overwrite_nil]
  induction drafts with
  | nil => rfl
  | cons draft rest ih =>
      rcases List.forall_mem_cons.1 idle with ⟨own, others⟩
      rw [replay_cons, follow, own]
      exact ih others

/-- Drafts about one feature. -/
theorem of_update {drafts : List Draft} {feature : Feature}
    (reaches : ∀ ledger : Ledger, ledger feature = old feature →
      ledger.replay drafts = some (Function.update ledger feature (new feature))) :
    Carries drafts [feature] old new := by
  intro ledger starts
  rw [overwrite_singleton]
  exact reaches ledger (starts feature List.mem_cons_self)

/-- No drafts are needed for a feature that is the same. -/
theorem nil {feature : Feature} (same : old feature = new feature) :
    Carries [] [feature] old new := by
  apply of_update
  intro ledger starts
  rw [replay_nil, ← same, ← starts, Function.update_eq_self]

theorem singleton {draft : Draft} {feature : Feature} {effect : Effect} {known : Known}
    (acts : draft.type.effect? = some (feature, effect))
    (applied : effect.apply draft.details (old feature) = some known)
    (ends : new feature = some known) : Carries [draft] [feature] old new := by
  apply of_update
  intro ledger starts
  rw [replay_cons, follow_eq acts (starts ▸ applied), Option.bind_some, replay_nil, ends]

end Carries

end Ledger

end SemanticDiff
