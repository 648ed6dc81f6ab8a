import SemanticDiff.Catalog.Classifier
import SemanticDiff.Proofs.Collection.SortedMap
import SemanticDiff.Proofs.Feature.Snapshot

/-!
# What classifiers report

A classifier that reads only features that are held on both sides reports a
function of the two snapshots.  For each kind of comparison it is said when
nothing is reported, and of which types the reports are.
-/

namespace SemanticDiff.Catalog.Classifier

open SemanticDiff.Feature (Mismatch Snapshot Tally)

/-- A classifier reads some features, and what it reports is a function of the two
snapshots. -/
structure Compares (classifier : Classifier) (reads : List Feature)
    (drafts : Snapshot → Snapshot → List Draft) : Prop where
  silent : ∀ {context : Context}, context.snapshots? = none → classifier context = .ok []
  reports : ∀ {context : Context} {before after : Snapshot},
    context.snapshots? = some (before, after) →
    (∀ feature ∈ reads, before.Holds feature ∧ after.Holds feature) →
    classifier context = .ok (drafts before after)

theorem compares_comparing {compare : Snapshot → Snapshot → Except Mismatch (List Draft)}
    {reads : List Feature} {drafts : Snapshot → Snapshot → List Draft}
    (succeeds : ∀ before after : Snapshot,
      (∀ feature ∈ reads, before.Holds feature ∧ after.Holds feature) →
      compare before after = .ok (drafts before after)) :
    Compares (comparing compare) reads drafts := by
  constructor
  · intro context missing
    rw [comparing, missing]
  · intro context before after sides holds
    rw [comparing, sides]
    exact succeeds before after holds

/-! ## Classifiers -/

/-- Comparing one feature: it is read on both sides, and what is reported depends
on the two values. -/
theorem compares_reading {β : Type} {read : Snapshot → Except Mismatch β} {value : Snapshot → β}
    {feature : Feature}
    (reads : ∀ snapshot : Snapshot, snapshot.Holds feature → read snapshot = .ok (value snapshot))
    (drafts : β → β → List Draft) :
    Compares
      (comparing fun before after => do
        let old ← read before
        let new ← read after
        return drafts old new)
      [feature] fun before after => drafts (value before) (value after) := by
  apply compares_comparing
  intro before after holds
  obtain ⟨old, new⟩ := holds feature List.mem_cons_self
  rw [reads before old, reads after new]
  rfl

theorem compares_count {feature : Feature} (shape : feature.kind = .count) (type : EventType) :
    Compares (count feature type) [feature] fun before after =>
      countDrafts type (before.countOf feature) (after.countOf feature) :=
  compares_reading (fun _ holds => holds.count_eq shape) (countDrafts type)

theorem compares_presence {feature : Feature} (shape : feature.kind = .count)
    (appeared disappeared : EventType) :
    Compares (presence feature appeared disappeared) [feature] fun before after =>
      presenceDrafts appeared disappeared (before.countOf feature) (after.countOf feature) :=
  compares_reading (fun _ holds => holds.count_eq shape) (presenceDrafts appeared disappeared)

theorem compares_presenceAndCount {feature : Feature} (shape : feature.kind = .count)
    (appeared disappeared changed : EventType) :
    Compares (presenceAndCount feature appeared disappeared changed) [feature] fun before after =>
      presenceDrafts appeared disappeared (before.countOf feature) (after.countOf feature) ++
        countDrafts changed (before.countOf feature) (after.countOf feature) :=
  compares_reading (fun _ holds => holds.count_eq shape) fun old new =>
    presenceDrafts appeared disappeared old new ++ countDrafts changed old new

theorem compares_text {feature : Feature} (shape : feature.kind = .text) (type : EventType) :
    Compares (text feature type) [feature] fun before after =>
      textDrafts type (before.textOf feature) (after.textOf feature) :=
  compares_reading (fun _ holds => holds.text_eq shape) (textDrafts type)

theorem compares_flag {feature : Feature} (shape : feature.kind = .flag)
    (raised cleared : EventType) :
    Compares (flag feature raised cleared) [feature] fun before after =>
      flagDrafts raised cleared (before.flagOf feature) (after.flagOf feature) :=
  compares_reading (fun _ holds => holds.flag_eq shape) (flagDrafts raised cleared)

theorem compares_names {feature : Feature} (shape : feature.kind = .tally) (detail : String)
    (added removed : EventType) :
    Compares (names feature detail added removed) [feature] fun before after =>
      nameDrafts detail added removed (before.tallyOf feature) (after.tallyOf feature) :=
  compares_reading (fun _ holds => holds.tally_eq shape) (nameDrafts detail added removed)

/-- The reports on caught exceptions; there are none unless errors are handled on
both sides. -/
def exceptionDrafts (before after : Snapshot) : List Draft :=
  if before.countOf .exceptionHandlers = 0 ∨ after.countOf .exceptionHandlers = 0 then []
  else
    nameDrafts "exception_type" .exceptionHandlingAdded .exceptionHandlingRemoved
      (before.tallyOf .handlerTypes) (after.tallyOf .handlerTypes)

theorem compares_exceptionHandling :
    Compares exceptionHandling [.exceptionHandlers, .handlerTypes] exceptionDrafts := by
  apply compares_comparing
  intro before after holds
  obtain ⟨oldCount, newCount⟩ := holds .exceptionHandlers (by simp)
  obtain ⟨oldTypes, newTypes⟩ := holds .handlerTypes (by simp)
  rw [oldCount.count_eq rfl, newCount.count_eq rfl, oldTypes.tally_eq rfl, newTypes.tally_eq rfl,
    exceptionDrafts]
  by_cases noneBefore : before.countOf .exceptionHandlers = 0
  · simp [noneBefore, bind, Except.bind, pure, Except.pure]
  · by_cases noneAfter : after.countOf .exceptionHandlers = 0
    · simp [noneBefore, noneAfter, bind, Except.bind, pure, Except.pure]
    · simp [noneBefore, noneAfter, bind, Except.bind, pure, Except.pure]

/-- The reports on several counts. -/
def countsDrafts (kinds : List (Feature × EventType)) (before after : Snapshot) : List Draft :=
  kinds.flatMap fun kind => countDrafts kind.2 (before.countOf kind.1) (after.countOf kind.1)

theorem compares_counts {kinds : List (Feature × EventType)}
    (shapes : ∀ kind ∈ kinds, kind.1.kind = .count) :
    Compares (counts kinds) (kinds.map (·.1)) (countsDrafts kinds) := by
  induction kinds with
  | nil => exact ⟨fun _ => rfl, fun _ _ => rfl⟩
  | cons kind kinds ih =>
      rcases List.forall_mem_cons.1 shapes with ⟨shape, restShapes⟩
      have first := compares_count shape kind.2
      have rest := ih restShapes
      constructor
      · intro context missing
        rw [counts, first.silent missing, rest.silent missing]
        rfl
      · intro context before after sides holds
        rcases List.forall_mem_cons.1 holds with ⟨firstHolds, restHolds⟩
        rw [counts, first.reports sides (by simpa using firstHolds), rest.reports sides restHolds]
        rfl

/-! ## Silence -/

variable {type appeared disappeared : EventType}

@[simp]
theorem countDrafts_eq_nil_iff {before after : Nat} :
    countDrafts type before after = [] ↔ before = after := by
  simp [countDrafts]

@[simp]
theorem presenceDrafts_eq_nil_iff {before after : Nat} :
    presenceDrafts appeared disappeared before after = [] ↔ (before = 0 ↔ after = 0) := by
  rw [presenceDrafts]
  by_cases noneBefore : before = 0 <;> by_cases noneAfter : after = 0 <;>
    simp [noneBefore, noneAfter]

@[simp]
theorem textDrafts_eq_nil_iff {before after : String} :
    textDrafts type before after = [] ↔ before = after := by
  simp [textDrafts]

@[simp]
theorem flagDrafts_eq_nil_iff {before after : Bool} :
    flagDrafts appeared disappeared before after = [] ↔ before = after := by
  cases before <;> cases after <;> simp [flagDrafts]

theorem mem_namesOnlyIn_iff {names others : Tally} {name : String} :
    name ∈ namesOnlyIn names others ↔
      names.contains name = true ∧ ¬ others.contains name = true := by
  simp [namesOnlyIn, SortedMap.mem_keys_iff]

@[simp]
theorem nameDrafts_eq_nil_iff {detail : String} {before after : Tally} :
    nameDrafts detail appeared disappeared before after = [] ↔ before.keys = after.keys := by
  rw [nameDrafts, List.append_eq_nil_iff, List.map_eq_nil_iff, List.map_eq_nil_iff,
    SortedMap.keys_eq_keys_iff]
  simp only [List.eq_nil_iff_forall_not_mem, mem_namesOnlyIn_iff, not_and, not_not]
  constructor
  · rintro ⟨later, earlier⟩ name
    exact ⟨earlier name, later name⟩
  · intro same
    exact ⟨fun name => (same name).2, fun name => (same name).1⟩

/-! ## Types -/

theorem type_of_mem_countDrafts {before after : Nat} {draft : Draft}
    (member : draft ∈ countDrafts type before after) : draft.type = type := by
  rw [countDrafts] at member
  split at member
  · simp at member
  · rw [List.mem_singleton.1 member]
    rfl

theorem type_of_mem_textDrafts {before after : String} {draft : Draft}
    (member : draft ∈ textDrafts type before after) : draft.type = type := by
  rw [textDrafts] at member
  split at member
  · simp at member
  · rw [List.mem_singleton.1 member]
    rfl

theorem type_of_mem_presenceDrafts {before after : Nat} {draft : Draft}
    (member : draft ∈ presenceDrafts appeared disappeared before after) :
    draft.type = appeared ∨ draft.type = disappeared := by
  rw [presenceDrafts] at member
  split at member
  · rw [List.mem_singleton.1 member]
    exact Or.inl rfl
  · split at member
    · rw [List.mem_singleton.1 member]
      exact Or.inr rfl
    · simp at member

theorem type_of_mem_flagDrafts {before after : Bool} {draft : Draft}
    (member : draft ∈ flagDrafts appeared disappeared before after) :
    draft.type = appeared ∨ draft.type = disappeared := by
  unfold flagDrafts at member
  split at member
  · rw [List.mem_singleton.1 member]
    exact Or.inl rfl
  · rw [List.mem_singleton.1 member]
    exact Or.inr rfl
  · simp at member

theorem type_of_mem_nameDrafts {detail : String} {before after : Tally} {draft : Draft}
    (member : draft ∈ nameDrafts detail appeared disappeared before after) :
    draft.type = appeared ∨ draft.type = disappeared := by
  rw [nameDrafts, List.mem_append, List.mem_map, List.mem_map] at member
  rcases member with ⟨name, -, rfl⟩ | ⟨name, -, rfl⟩
  · exact Or.inl rfl
  · exact Or.inr rfl

theorem type_of_mem_exceptionDrafts {before after : Snapshot} {draft : Draft}
    (member : draft ∈ exceptionDrafts before after) :
    draft.type = .exceptionHandlingAdded ∨ draft.type = .exceptionHandlingRemoved := by
  rw [exceptionDrafts] at member
  split at member
  · simp at member
  · exact type_of_mem_nameDrafts member

theorem type_of_mem_placeDrafts {context : Context} {side : Option Side} {draft : Draft}
    (member : draft ∈ placeDrafts type context side) : draft.type = type := by
  cases side with
  | none => simp [placeDrafts] at member
  | some side =>
      rw [placeDrafts, List.mem_singleton] at member
      rw [member]
      rfl

end SemanticDiff.Catalog.Classifier
