import SemanticDiff.Catalog.Table
import SemanticDiff.Proofs.Catalog.Classifier
import SemanticDiff.Proofs.Collection.Result

/-!
# Contracts of rules

The catalog declares for every rule which features it reads and which events it
reports.  A rule about nodes on both sides keeps to this: features that it does not
declare cannot change what it says, it reports no other events, and it is silent
where a side is missing or where both sides agree in what it reads.
-/

namespace SemanticDiff.Feature.Snapshot

/-- Two snapshots have the same values for some features, or lack them both. -/
def AgreeOn (features : List Feature) (first second : Snapshot) : Prop :=
  ∀ feature ∈ features, first.get? feature = second.get? feature

instance (features : List Feature) (first second : Snapshot) :
    Decidable (AgreeOn features first second) :=
  inferInstanceAs (Decidable (∀ feature ∈ features, first.get? feature = second.get? feature))

variable {first second : Snapshot} {feature : Feature}

theorem count_eq_of_get?_eq (same : first.get? feature = second.get? feature) :
    first.count feature = second.count feature := by
  rw [count, same, count]

theorem flag_eq_of_get?_eq (same : first.get? feature = second.get? feature) :
    first.flag feature = second.flag feature := by
  rw [flag, same, flag]

theorem tally_eq_of_get?_eq (same : first.get? feature = second.get? feature) :
    first.tally feature = second.tally feature := by
  rw [tally, same, tally]

theorem text_eq_of_get?_eq (same : first.get? feature = second.get? feature) :
    first.text feature = second.text feature := by
  rw [text, same, text]

end SemanticDiff.Feature.Snapshot

namespace SemanticDiff.Catalog

open SemanticDiff.Feature (Mismatch Snapshot Tally)
open SemanticDiff.Feature.Snapshot (AgreeOn)
open SemanticDiff.Outline (NodeKind)

namespace Classifier

/-- A classifier compares two sides by some features and reports events of some
types, whatever else there is. -/
structure KeepsTo (classifier : Classifier) (reads : List Feature) (emits : List EventType)
    (drafts : Snapshot → Snapshot → List Draft) : Prop extends Compares classifier reads drafts where
  /-- Nothing but the features can be told from the result. -/
  confined : ∀ {context other : Context} {before after before' after' : Snapshot},
    context.snapshots? = some (before, after) → other.snapshots? = some (before', after') →
    AgreeOn reads before before' → AgreeOn reads after after' →
    classifier context = classifier other
  /-- No other events are reported. -/
  emitted : ∀ {context : Context} {reported : List Draft}, classifier context = .ok reported →
    ∀ draft ∈ reported, draft.type ∈ emits
  /-- Nothing is reported about a node that did not change. -/
  still : ∀ snapshot, drafts snapshot snapshot = []

section

variable {compare : Snapshot → Snapshot → Except Mismatch (List Draft)}

theorem confined_comparing {reads : List Feature}
    (same : ∀ {before after before' after' : Snapshot}, AgreeOn reads before before' →
      AgreeOn reads after after' → compare before after = compare before' after')
    {context other : Context} {before after before' after' : Snapshot}
    (sides : context.snapshots? = some (before, after))
    (otherSides : other.snapshots? = some (before', after'))
    (agreeBefore : AgreeOn reads before before') (agreeAfter : AgreeOn reads after after') :
    comparing compare context = comparing compare other := by
  rw [comparing, comparing, sides, otherSides]
  exact same agreeBefore agreeAfter

theorem emitted_comparing {emits : List EventType}
    (types : ∀ {before after : Snapshot} {reported : List Draft},
      compare before after = .ok reported → ∀ draft ∈ reported, draft.type ∈ emits)
    {context : Context} {reported : List Draft} (made : comparing compare context = .ok reported) :
    ∀ draft ∈ reported, draft.type ∈ emits := by
  rw [comparing] at made
  split at made
  · exact types made
  · cases made
    simp

end

namespace KeepsTo

variable {classifier : Classifier} {reads : List Feature} {emits : List EventType}
  {drafts : Snapshot → Snapshot → List Draft}

/-- Where both sides agree, the context cannot be told from one that did not change. -/
theorem eq_nil_of_agreeOn (keeps : KeepsTo classifier reads emits drafts) {context : Context}
    {before after : Side} (foundBefore : context.before = some before)
    (foundAfter : context.after = some after)
    (holds : ∀ feature ∈ reads, before.features.Holds feature)
    (agree : AgreeOn reads before.features after.features) : classifier context = .ok [] := by
  have sides : context.snapshots? = some (before.features, after.features) := by
    rw [Context.snapshots?, foundBefore, foundAfter]
  have unchanged : ({ context with after := some before } : Context).snapshots? =
      some (before.features, before.features) := by
    rw [Context.snapshots?, foundBefore]
  have agreeAfter : AgreeOn reads after.features before.features := fun feature member =>
    (agree feature member).symm
  calc
    classifier context = classifier { context with after := some before } :=
      keeps.confined sides unchanged (fun _ _ => rfl) agreeAfter
    _ = .ok (drafts before.features before.features) :=
      keeps.reports unchanged fun feature member => ⟨holds feature member, holds feature member⟩
    _ = .ok [] := by rw [keeps.still]

end KeepsTo

/-! ## Comparisons of one feature -/

/-- Comparing one feature that is read in some shape. -/
theorem keepsTo_reading {β : Type} {read : Snapshot → Except Mismatch β} {value : Snapshot → β}
    {feature : Feature} {emits : List EventType} (drafts : β → β → List Draft)
    (reads : ∀ snapshot : Snapshot, snapshot.Holds feature → read snapshot = .ok (value snapshot))
    (depends : ∀ first second : Snapshot, first.get? feature = second.get? feature →
      read first = read second)
    (types : ∀ old new, ∀ draft ∈ drafts old new, draft.type ∈ emits)
    (same : ∀ old, drafts old old = []) :
    KeepsTo
      (comparing fun before after => do
        let old ← read before
        let new ← read after
        return drafts old new)
      [feature] emits fun before after => drafts (value before) (value after) where
  toCompares := compares_reading reads drafts
  confined := by
    apply confined_comparing
    intro before after before' after' agreeBefore agreeAfter
    rw [depends _ _ (agreeBefore feature List.mem_cons_self),
      depends _ _ (agreeAfter feature List.mem_cons_self)]
  emitted := by
    apply emitted_comparing
    intro before after reported made
    obtain ⟨old, -, made⟩ := exists_of_bind_eq_ok made
    obtain ⟨new, -, made⟩ := exists_of_bind_eq_ok made
    cases made
    exact types old new
  still _ := same _

section

variable {feature : Feature} {type appeared disappeared : EventType}

theorem keepsTo_count (shape : feature.kind = .count) (type : EventType) :
    KeepsTo (count feature type) [feature] [type] fun before after =>
      countDrafts type (before.countOf feature) (after.countOf feature) := by
  apply keepsTo_reading (countDrafts type) (fun _ holds => holds.count_eq shape)
    fun _ _ => Snapshot.count_eq_of_get?_eq
  · intro old new draft member
    exact List.mem_singleton.2 (type_of_mem_countDrafts member)
  · intro old
    exact countDrafts_eq_nil_iff.2 rfl

theorem keepsTo_presence (shape : feature.kind = .count) (appeared disappeared : EventType) :
    KeepsTo (presence feature appeared disappeared) [feature] [appeared, disappeared]
      fun before after =>
        presenceDrafts appeared disappeared (before.countOf feature) (after.countOf feature) := by
  apply keepsTo_reading (presenceDrafts appeared disappeared)
    (fun _ holds => holds.count_eq shape) fun _ _ => Snapshot.count_eq_of_get?_eq
  · intro old new draft member
    simpa using type_of_mem_presenceDrafts member
  · intro old
    exact presenceDrafts_eq_nil_iff.2 Iff.rfl

theorem keepsTo_presenceAndCount (shape : feature.kind = .count)
    (appeared disappeared type : EventType) :
    KeepsTo (presenceAndCount feature appeared disappeared type) [feature]
      [appeared, disappeared, type] fun before after =>
        presenceDrafts appeared disappeared (before.countOf feature) (after.countOf feature) ++
          countDrafts type (before.countOf feature) (after.countOf feature) := by
  apply keepsTo_reading
    (fun old new => presenceDrafts appeared disappeared old new ++ countDrafts type old new)
    (fun _ holds => holds.count_eq shape) fun _ _ => Snapshot.count_eq_of_get?_eq
  · intro old new draft member
    rcases List.mem_append.1 member with here | here
    · rcases type_of_mem_presenceDrafts here with same | same <;> simp [same]
    · simp [type_of_mem_countDrafts here]
  · intro old
    rw [presenceDrafts_eq_nil_iff.2 Iff.rfl, countDrafts_eq_nil_iff.2 rfl, List.append_nil]

theorem keepsTo_text (shape : feature.kind = .text) (type : EventType) :
    KeepsTo (text feature type) [feature] [type] fun before after =>
      textDrafts type (before.textOf feature) (after.textOf feature) := by
  apply keepsTo_reading (textDrafts type) (fun _ holds => holds.text_eq shape)
    fun _ _ => Snapshot.text_eq_of_get?_eq
  · intro old new draft member
    exact List.mem_singleton.2 (type_of_mem_textDrafts member)
  · intro old
    exact textDrafts_eq_nil_iff.2 rfl

theorem keepsTo_flag (shape : feature.kind = .flag) (appeared disappeared : EventType) :
    KeepsTo (flag feature appeared disappeared) [feature] [appeared, disappeared]
      fun before after =>
        flagDrafts appeared disappeared (before.flagOf feature) (after.flagOf feature) := by
  apply keepsTo_reading (flagDrafts appeared disappeared) (fun _ holds => holds.flag_eq shape)
    fun _ _ => Snapshot.flag_eq_of_get?_eq
  · intro old new draft member
    simpa using type_of_mem_flagDrafts member
  · intro old
    exact flagDrafts_eq_nil_iff.2 rfl

theorem keepsTo_names (shape : feature.kind = .tally) (detail : String)
    (appeared disappeared : EventType) :
    KeepsTo (names feature detail appeared disappeared) [feature] [appeared, disappeared]
      fun before after =>
        nameDrafts detail appeared disappeared (before.tallyOf feature) (after.tallyOf feature) := by
  apply keepsTo_reading (nameDrafts detail appeared disappeared)
    (fun _ holds => holds.tally_eq shape) fun _ _ => Snapshot.tally_eq_of_get?_eq
  · intro old new draft member
    simpa using type_of_mem_nameDrafts member
  · intro old
    exact nameDrafts_eq_nil_iff.2 rfl

end

/-! ## Comparisons of several features -/

theorem keepsTo_exceptionHandling :
    KeepsTo exceptionHandling [.exceptionHandlers, .handlerTypes]
      [.exceptionHandlingAdded, .exceptionHandlingRemoved] exceptionDrafts where
  toCompares := compares_exceptionHandling
  confined := by
    apply confined_comparing
    intro before after before' after' agreeBefore agreeAfter
    have handlers {first second : Snapshot}
        (agree : AgreeOn [.exceptionHandlers, .handlerTypes] first second) :=
      Snapshot.count_eq_of_get?_eq (agree .exceptionHandlers (by simp))
    have types {first second : Snapshot}
        (agree : AgreeOn [.exceptionHandlers, .handlerTypes] first second) :=
      Snapshot.tally_eq_of_get?_eq (agree .handlerTypes (by simp))
    rw [handlers agreeBefore, handlers agreeAfter, types agreeBefore, types agreeAfter]
  emitted := by
    apply emitted_comparing
    intro before after reported made
    -- The comparison may stop early, after the handlers of the one side or the other.
    obtain ⟨old, -, made⟩ := exists_of_bind_eq_ok made
    split at made
    · cases made
      simp
    obtain ⟨new, -, made⟩ := exists_of_bind_eq_ok made
    split at made
    · cases made
      simp
    obtain ⟨oldTypes, -, made⟩ := exists_of_bind_eq_ok made
    obtain ⟨newTypes, -, made⟩ := exists_of_bind_eq_ok made
    cases made
    intro draft member
    simpa using type_of_mem_nameDrafts member
  still snapshot := by
    rw [exceptionDrafts]
    split
    · rfl
    · exact nameDrafts_eq_nil_iff.2 rfl

theorem keepsTo_counts {kinds : List (Feature × EventType)}
    (shapes : ∀ kind ∈ kinds, kind.1.kind = .count) :
    KeepsTo (counts kinds) (kinds.map (·.1)) (kinds.map (·.2)) (countsDrafts kinds) where
  toCompares := compares_counts shapes
  confined := by
    intro context other before after before' after' sides otherSides agreeBefore agreeAfter
    induction kinds with
    | nil => rfl
    | cons kind kinds ih =>
        rcases List.forall_mem_cons.1 shapes with ⟨shape, restShapes⟩
        rcases List.forall_mem_cons.1 agreeBefore with ⟨ownBefore, restBefore⟩
        rcases List.forall_mem_cons.1 agreeAfter with ⟨ownAfter, restAfter⟩
        rw [counts, counts, ih restShapes restBefore restAfter,
          (keepsTo_count shape kind.2).confined sides otherSides (by simpa [AgreeOn] using ownBefore)
            (by simpa [AgreeOn] using ownAfter)]
  emitted := by
    intro context reported made
    induction kinds generalizing reported with
    | nil =>
        cases made
        simp
    | cons kind kinds ih =>
        rcases List.forall_mem_cons.1 shapes with ⟨shape, restShapes⟩
        obtain ⟨first, firstMade, made⟩ := exists_of_bind_eq_ok made
        obtain ⟨others, othersMade, made⟩ := exists_of_bind_eq_ok made
        cases made
        intro draft member
        rcases List.mem_append.1 member with here | later
        · exact List.mem_cons.2 (Or.inl
            (List.mem_singleton.1 ((keepsTo_count shape kind.2).emitted firstMade draft here)))
        · exact List.mem_cons_of_mem _ (ih restShapes othersMade draft later)
  still snapshot := by
    rw [countsDrafts, List.flatMap_eq_nil_iff]
    intro kind _
    exact countDrafts_eq_nil_iff.2 rfl

end Classifier

open Classifier

/-! ## The catalog -/

/-- The rules about nodes on both sides keep to what they declare. -/
theorem exists_keepsTo_of_mem_rules : ∀ rule ∈ rules, rule.scope = .changed →
    ∃ drafts, KeepsTo rule.classify rule.reads rule.emits drafts := by
  simp only [rules, List.forall_mem_cons, List.not_mem_nil, false_implies, implies_true, and_true]
  refine ⟨?added, ?removed, ?signature, ?decorators, ?errorHandling, ?exceptionHandling,
    ?complexity, ?returnPattern, ?yieldPattern, ?functionalStyle, ?lambdas, ?comprehensions,
    ?typeAnnotations, ?defaultParameters, ?starred, ?slices, ?nestedClasses, ?literals,
    ?assertions, ?asyncConversion, ?scopeDeclarations, ?inheritance, ?dependencies⟩
  case added | removed => nofun
  case signature | inheritance => exact fun _ => ⟨_, keepsTo_text rfl _⟩
  case decorators | dependencies => exact fun _ => ⟨_, keepsTo_names rfl _ _ _⟩
  case errorHandling | functionalStyle => exact fun _ => ⟨_, keepsTo_presence rfl _ _⟩
  case exceptionHandling => exact fun _ => ⟨_, keepsTo_exceptionHandling⟩
  case typeAnnotations | asyncConversion => exact fun _ => ⟨_, keepsTo_flag rfl _ _⟩
  case defaultParameters | nestedClasses =>
      exact fun _ => ⟨_, keepsTo_presenceAndCount rfl _ _ _⟩
  case literals => exact fun _ => ⟨_, keepsTo_counts (by decide)⟩
  all_goals exact fun _ => ⟨_, keepsTo_count rfl _⟩

/-- Only one rule is about nodes that were added. -/
theorem of_scope_added : ∀ rule ∈ rules, rule.scope = .added →
    rule.kinds = definitions ∧ rule.classify = nodeAdded ∧ rule.emits = [.nodeAdded] := by
  simp [rules, countRule]

/-- Only one rule is about nodes that were removed. -/
theorem of_scope_removed : ∀ rule ∈ rules, rule.scope = .removed →
    rule.kinds = definitions ∧ rule.classify = nodeRemoved ∧ rule.emits = [.nodeRemoved] := by
  simp [rules, countRule]

/-- A rule reports no events but those that it declares. -/
theorem type_mem_emits_of_classify {rule : Rule} (member : rule ∈ rules) {context : Context}
    {drafts : List Draft} (made : rule.classify context = .ok drafts) :
    ∀ draft ∈ drafts, draft.type ∈ rule.emits := by
  cases scope : rule.scope with
  | added =>
      obtain ⟨-, classify, emits⟩ := of_scope_added rule member scope
      rw [classify] at made
      cases made
      intro draft here
      rw [emits, type_of_mem_placeDrafts here]
      exact List.mem_cons_self
  | removed =>
      obtain ⟨-, classify, emits⟩ := of_scope_removed rule member scope
      rw [classify] at made
      cases made
      intro draft here
      rw [emits, type_of_mem_placeDrafts here]
      exact List.mem_cons_self
  | changed =>
      obtain ⟨drafts, keeps⟩ := exists_keepsTo_of_mem_rules rule member scope
      exact keeps.emitted made

/-- The rules keep their contracts.  What a rule about both sides says depends on
nothing but the features that it declares to read; it says nothing where a side is
missing, nor where both sides have the same values of these features.  No rule reports
an event that it does not declare to emit. -/
theorem rules_keep_contracts :
    (∀ rule ∈ rules, rule.scope = .changed →
      (∀ {context other : Context} {before after before' after' : Side},
        context.before = some before → context.after = some after →
        other.before = some before' → other.after = some after' →
        AgreeOn rule.reads before.features before'.features →
        AgreeOn rule.reads after.features after'.features →
        rule.classify context = rule.classify other) ∧
      (∀ {context : Context}, context.before = none ∨ context.after = none →
        rule.classify context = .ok []) ∧
      ∀ {context : Context} {before after : Side},
        context.before = some before → context.after = some after →
        (∀ feature ∈ rule.reads, before.features.Holds feature) →
        AgreeOn rule.reads before.features after.features → rule.classify context = .ok []) ∧
    ∀ rule ∈ rules, ∀ {context : Context} {drafts : List Draft},
      rule.classify context = .ok drafts → ∀ draft ∈ drafts, draft.type ∈ rule.emits := by
  refine ⟨?_, fun rule member context drafts => type_mem_emits_of_classify member⟩
  intro rule member scope
  obtain ⟨drafts, keeps⟩ := exists_keepsTo_of_mem_rules rule member scope
  refine ⟨?confined, ?silent, ?still⟩
  case confined =>
      intro context other before after before' after' foundBefore foundAfter foundBefore'
        foundAfter'
      apply keeps.confined
      · rw [Context.snapshots?, foundBefore, foundAfter]
      · rw [Context.snapshots?, foundBefore', foundAfter']
  case silent =>
      intro context missing
      apply keeps.silent
      rcases missing with missing | missing
      · rw [Context.snapshots?, missing]
      · rw [Context.snapshots?, missing]
        cases context.before <;> rfl
  case still =>
      intro context before after foundBefore foundAfter
      exact keeps.eq_nil_of_agreeOn foundBefore foundAfter

/-- A function and a module that differ in all that the rule on caught exceptions does
not read: the same exception is told about both. -/
theorem rules_keep_contracts_exceptions :
    ∃ rule ∈ rules, ∃ context other : Context, ∃ before after before' after' : Side,
      rule.name = "exception_handling" ∧ rule.scope = .changed ∧
      context = ⟨⟨"f"⟩, .functionDef, some before, some after⟩ ∧
      other = ⟨.module, .module, some before', some after'⟩ ∧
      AgreeOn rule.reads before.features before'.features ∧
      AgreeOn rule.reads after.features after'.features ∧
      before.features.count .lambdas = .ok 0 ∧ before'.features.count .lambdas = .ok 3 ∧
      rule.classify context = rule.classify other ∧
      rule.classify { context with after := none } = .ok [] ∧
      rule.classify { context with after := some before' } = .ok [] ∧
      ∃ draft, rule.classify context = .ok [draft] ∧ draft.type ∈ rule.emits := by
  let snapshot (lambdas : Nat) (caught : List String) : Snapshot :=
    (Snapshot.zero Feature.extracted).setAll [(.exceptionHandlers, .count 1),
      (.lambdas, .count lambdas), (.handlerTypes, .tally (.ofNames caught))]
  let before : Side := ⟨⟨0, 9, 1, 2⟩, snapshot 0 []⟩
  let after : Side := ⟨⟨0, 9, 1, 2⟩, snapshot 1 ["KeyError"]⟩
  let before' : Side := ⟨⟨0, 50, 1, 7⟩, snapshot 3 []⟩
  let after' : Side := ⟨⟨0, 60, 1, 8⟩, snapshot 2 ["KeyError"]⟩
  let context : Context := ⟨⟨"f"⟩, .functionDef, some before, some after⟩
  let other : Context := ⟨.module, .module, some before', some after'⟩
  have member : rules[5] ∈ rules := List.getElem_mem _
  have agreeBefore : AgreeOn rules[5].reads before.features before'.features := by decide +kernel
  have agreeAfter : AgreeOn rules[5].reads after.features after'.features := by decide +kernel
  have holds (feature : Feature) : before.features.Holds feature :=
    (Snapshot.holds_zero (Feature.mem_all feature)).setAll
  have told : rules[5].classify context = .ok
      [(Draft.ofType .exceptionHandlingAdded).withDetail "exception_type" (.text "KeyError")] :=
    rfl
  obtain ⟨confined, silent, still⟩ := rules_keep_contracts.1 rules[5] member rfl
  exact ⟨rules[5], member, context, other, before, after, before', after', rfl, rfl, rfl, rfl,
    agreeBefore, agreeAfter, rfl, rfl, confined rfl rfl rfl rfl agreeBefore agreeAfter,
    silent (Or.inr rfl), still rfl rfl (fun feature _ => holds feature) agreeBefore,
    _, told, rules_keep_contracts.2 rules[5] member told _ List.mem_cons_self⟩

end SemanticDiff.Catalog
