import SemanticDiff.Catalog.Table
import SemanticDiff.Proofs.Collection.Result
import SemanticDiff.Proofs.Event.Shown

/-!
# Names of details

The rules give their details names that are not mistaken for parts of a value.  So what a
reader is shown about a change tells one change from any other of its type.
-/

namespace SemanticDiff

open SemanticDiff.Details (IsName)
open SemanticDiff.Feature (Mismatch Snapshot Tally)

/-! ## Drafts -/

namespace Draft

/-- No detail of a draft has a name that could be mistaken. -/
def IsNamed (draft : Draft) : Prop :=
  ∀ name ∈ draft.details.keys, IsName name

theorem isNamed_ofType (type : EventType) : (ofType type).IsNamed := by
  intro name member
  cases member

theorem IsNamed.withDetail {draft : Draft} (named : draft.IsNamed) {name : String}
    (isName : IsName name) (detail : Detail) : (draft.withDetail name detail).IsNamed := by
  intro other member
  obtain ⟨entry, entryMem, rfl⟩ := List.mem_map.1 member
  rcases SortedMap.mem_insertEntry entryMem with rfl | older
  · exact isName
  · exact named entry.1 (List.mem_map_of_mem older)

theorem isNamed_transition (type : EventType) (before after : Detail) :
    (transition type before after).IsNamed :=
  ((isNamed_ofType type).withDetail (by decide) before).withDetail (by decide) after

end Draft

/-! ## Classifiers -/

namespace Catalog.Classifier

open Draft (isNamed_ofType isNamed_transition)

/-- All drafts of a classifier name their details so. -/
def NamesDetails (classifier : Classifier) : Prop :=
  ∀ {context : Context} {drafts : List Draft}, classifier context = .ok drafts →
    ∀ draft ∈ drafts, draft.IsNamed

section

variable {type appeared disappeared : EventType} {draft : Draft}

theorem isNamed_of_mem_placeDrafts {context : Context} {side : Option Side}
    (member : draft ∈ placeDrafts type context side) : draft.IsNamed := by
  cases side with
  | none => cases member
  | some side =>
      rw [List.mem_singleton.1 member]
      exact (((isNamed_ofType type).withDetail (by decide) _).withDetail (by decide) _).withDetail
        (by decide) _

theorem isNamed_of_mem_countDrafts {before after : Nat}
    (member : draft ∈ countDrafts type before after) : draft.IsNamed := by
  rw [countDrafts] at member
  split at member
  · cases member
  · rw [List.mem_singleton.1 member]
    exact isNamed_transition _ _ _

theorem isNamed_of_mem_textDrafts {before after : String}
    (member : draft ∈ textDrafts type before after) : draft.IsNamed := by
  rw [textDrafts] at member
  split at member
  · cases member
  · rw [List.mem_singleton.1 member]
    exact isNamed_transition _ _ _

theorem isNamed_of_mem_presenceDrafts {before after : Nat}
    (member : draft ∈ presenceDrafts appeared disappeared before after) : draft.IsNamed := by
  rw [presenceDrafts] at member
  split at member
  · rw [List.mem_singleton.1 member]
    exact isNamed_transition _ _ _
  · split at member
    · rw [List.mem_singleton.1 member]
      exact isNamed_transition _ _ _
    · cases member

theorem isNamed_of_mem_flagDrafts {before after : Bool}
    (member : draft ∈ flagDrafts appeared disappeared before after) : draft.IsNamed := by
  unfold flagDrafts at member
  split at member
  · rw [List.mem_singleton.1 member]
    exact isNamed_ofType _
  · rw [List.mem_singleton.1 member]
    exact isNamed_ofType _
  · cases member

theorem isNamed_of_mem_nameDrafts {detail : String} (isName : IsName detail)
    {before after : Tally} (member : draft ∈ nameDrafts detail appeared disappeared before after) :
    draft.IsNamed := by
  rw [nameDrafts, List.mem_append, List.mem_map, List.mem_map] at member
  rcases member with ⟨name, -, rfl⟩ | ⟨name, -, rfl⟩
  · exact (isNamed_ofType _).withDetail isName _
  · exact (isNamed_ofType _).withDetail isName _

end

theorem namesDetails_comparing {compare : Snapshot → Snapshot → Except Mismatch (List Draft)}
    (named : ∀ {before after : Snapshot} {drafts : List Draft},
      compare before after = .ok drafts → ∀ draft ∈ drafts, draft.IsNamed) :
    NamesDetails (comparing compare) := by
  intro context drafts made
  rw [comparing] at made
  split at made
  · exact named made
  · cases made
    simp

/-- Comparing one feature. -/
theorem namesDetails_reading {β : Type} {read : Snapshot → Except Mismatch β}
    {drafts : β → β → List Draft} (named : ∀ old new, ∀ draft ∈ drafts old new, draft.IsNamed) :
    NamesDetails (comparing fun before after => do
      let old ← read before
      let new ← read after
      return drafts old new) := by
  apply namesDetails_comparing
  intro before after reported made
  obtain ⟨old, -, made⟩ := exists_of_bind_eq_ok made
  obtain ⟨new, -, made⟩ := exists_of_bind_eq_ok made
  cases made
  exact named old new

theorem namesDetails_count (feature : Feature) (type : EventType) :
    NamesDetails (count feature type) :=
  namesDetails_reading fun _ _ _ => isNamed_of_mem_countDrafts

theorem namesDetails_presence (feature : Feature) (appeared disappeared : EventType) :
    NamesDetails (presence feature appeared disappeared) :=
  namesDetails_reading fun _ _ _ => isNamed_of_mem_presenceDrafts

theorem namesDetails_presenceAndCount (feature : Feature)
    (appeared disappeared changed : EventType) :
    NamesDetails (presenceAndCount feature appeared disappeared changed) := by
  apply namesDetails_reading
  intro old new draft member
  rcases List.mem_append.1 member with here | here
  · exact isNamed_of_mem_presenceDrafts here
  · exact isNamed_of_mem_countDrafts here

theorem namesDetails_text (feature : Feature) (type : EventType) :
    NamesDetails (text feature type) :=
  namesDetails_reading fun _ _ _ => isNamed_of_mem_textDrafts

theorem namesDetails_flag (feature : Feature) (raised cleared : EventType) :
    NamesDetails (flag feature raised cleared) :=
  namesDetails_reading fun _ _ _ => isNamed_of_mem_flagDrafts

theorem namesDetails_names (feature : Feature) {detail : String} (isName : IsName detail)
    (added removed : EventType) : NamesDetails (names feature detail added removed) :=
  namesDetails_reading fun _ _ _ => isNamed_of_mem_nameDrafts isName

theorem namesDetails_exceptionHandling : NamesDetails exceptionHandling := by
  apply namesDetails_comparing
  intro before after reported made
  -- The comparison may stop early, after the handlers of the one side or the other.
  obtain ⟨old, -, made⟩ := exists_of_bind_eq_ok made
  split at made
  · cases made
    simp
  obtain ⟨new, -, made⟩ := exists_of_bind_eq_ok made
  split at made
  · cases made
    simp
  obtain ⟨oldTypes, -, made⟩ := exists_of_bind_eq_ok made
  obtain ⟨newTypes, -, made⟩ := exists_of_bind_eq_ok made
  cases made
  exact fun _ => isNamed_of_mem_nameDrafts (by decide)

theorem namesDetails_counts (kinds : List (Feature × EventType)) :
    NamesDetails (counts kinds) := by
  induction kinds with
  | nil =>
      intro context drafts made
      cases made
      simp
  | cons kind kinds ih =>
      intro context drafts made
      obtain ⟨first, firstMade, made⟩ := exists_of_bind_eq_ok made
      obtain ⟨others, othersMade, made⟩ := exists_of_bind_eq_ok made
      cases made
      intro draft member
      rcases List.mem_append.1 member with here | later
      · exact namesDetails_count kind.1 kind.2 firstMade draft here
      · exact ih othersMade draft later

end Catalog.Classifier

/-! ## The catalog -/

namespace Catalog

open Classifier

theorem namesDetails_of_mem_rules : ∀ rule ∈ rules, NamesDetails rule.classify := by
  simp only [rules, List.forall_mem_cons, List.not_mem_nil, false_implies, implies_true, and_true]
  refine ⟨?added, ?removed, ?signature, ?decorators, ?errorHandling, ?exceptionHandling,
    ?complexity, ?returnPattern, ?yieldPattern, ?functionalStyle, ?lambdas, ?comprehensions,
    ?typeAnnotations, ?defaultParameters, ?starred, ?slices, ?nestedClasses, ?literals,
    ?assertions, ?asyncConversion, ?scopeDeclarations, ?inheritance, ?dependencies⟩
  case added | removed =>
      rintro context _ ⟨⟩
      exact fun _ => isNamed_of_mem_placeDrafts
  case signature | inheritance => exact namesDetails_text _ _
  case decorators | dependencies => exact namesDetails_names _ (by decide) _ _
  case errorHandling | functionalStyle => exact namesDetails_presence _ _ _
  case exceptionHandling => exact namesDetails_exceptionHandling
  case typeAnnotations | asyncConversion => exact namesDetails_flag _ _ _
  case defaultParameters | nestedClasses => exact namesDetails_presenceAndCount _ _ _ _
  case literals => exact namesDetails_counts _
  all_goals exact namesDetails_count _ _

/-- Details whose names hold neither a sign of equality nor a blank are shown the same only
if they are the same, whatever their values are, and the rules write only such details. -/
theorem details_told_apart :
    (∀ {first second : Details}, (∀ name ∈ first.keys, IsName name) →
      (∀ name ∈ second.keys, IsName name) → (first.shown = second.shown ↔ first = second)) ∧
    ∀ rule ∈ rules, ∀ {context : Context} {drafts : List Draft},
      rule.classify context = .ok drafts → ∀ draft ∈ drafts,
        ∀ name ∈ draft.details.keys, IsName name :=
  ⟨Details.shown_eq_shown_iff, fun rule member => namesDetails_of_mem_rules rule member⟩

/-- A text that holds what looks like the end of a text and another detail, and two texts;
and the details of a function that was added. -/
theorem details_told_apart_quoted :
    ∃ first second : Details, ∃ context : Context, ∃ draft : Draft,
      first = SortedMap.empty.insert "from" (.text "a\" to=\"\\u\x7bb\x7d") ∧
      second = (SortedMap.empty.insert "from" (.text "a")).insert "to" (.text "\\u\x7bb\x7d") ∧
      (∀ name ∈ first.keys, IsName name) ∧ (∀ name ∈ second.keys, IsName name) ∧
      first.shown ≠ second.shown ∧
      rules[0].classify context = .ok [draft] ∧
      draft.details.keys = ["end_line", "kind", "start_line"] ∧
      ∀ name ∈ draft.details.keys, IsName name := by
  let first : Details := SortedMap.empty.insert "from" (.text "a\" to=\"\\u\x7bb\x7d")
  let second : Details :=
    (SortedMap.empty.insert "from" (.text "a")).insert "to" (.text "\\u\x7bb\x7d")
  let side : Side := ⟨⟨0, 9, 1, 2⟩, Feature.Snapshot.zero []⟩
  have firstNamed : ∀ name ∈ first.keys, IsName name := by decide
  have secondNamed : ∀ name ∈ second.keys, IsName name := by decide
  have apart : first ≠ second := by decide
  have member : rules[0] ∈ rules := List.getElem_mem _
  have told : rules[0].classify ⟨⟨"f"⟩, .functionDef, none, some side⟩ = .ok [_] := rfl
  refine ⟨first, second, _, _, rfl, rfl, firstNamed, secondNamed, ?_, told, by decide, ?_⟩
  · intro same
    exact apart ((details_told_apart.1 firstNamed secondNamed).1 same)
  · exact details_told_apart.2 rules[0] member told _ List.mem_cons_self

end Catalog

end SemanticDiff
