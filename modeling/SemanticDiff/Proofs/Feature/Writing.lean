import SemanticDiff.Proofs.Feature.Snapshot

/-!
# Snapshots under a run of values

A snapshot keeps the vocabulary that it was made for, whatever is written to it.  A value is
accepted exactly if its feature is in the vocabulary and has its shape, and a refused one
changes nothing.  So every feature has the last value that was accepted for it, or that
with which it began.  A feature can be read in its own shape only.
-/

namespace SemanticDiff.Feature

namespace Snapshot

variable {vocabulary : List Feature} {snapshot changed : Snapshot} {feature : Feature}

/-! ## Vocabularies -/

/-- The snapshot has a value for each feature of the vocabulary and for no other one, and
every value has the shape of its feature. -/
structure IsOver (vocabulary : List Feature) (snapshot : Snapshot) : Prop where
  present : ∀ feature, snapshot.contains feature = true ↔ feature ∈ vocabulary
  shapes : ∀ feature value, snapshot.get? feature = some value → value.kind = feature.kind

theorem isOver_zero (vocabulary : List Feature) : (zero vocabulary).IsOver vocabulary where
  present feature := by
    by_cases member : feature ∈ vocabulary <;> simp [contains, zero, member]
  shapes feature value found := by
    by_cases member : feature ∈ vocabulary
    · simp only [zero, List.contains_iff_mem, member, if_true, Option.some.injEq] at found
      rw [← found, Value.kind_zero]
    · simp [zero, member] at found

theorem map_fst_entries (snapshot : Snapshot) :
    snapshot.entries.map Prod.fst = Feature.all.filter snapshot.contains := by
  rw [entries, List.map_filterMap, ← List.filterMap_eq_filter]
  congr 1
  funext feature
  cases found : snapshot.get? feature <;> simp [contains, found, Option.guard]

namespace IsOver

theorem kind_of_mem_entries {entry : Feature × Value} (isOver : snapshot.IsOver vocabulary)
    (member : entry ∈ snapshot.entries) : entry.2.kind = entry.1.kind := by
  obtain ⟨feature, -, paired⟩ := List.mem_filterMap.1 member
  obtain ⟨value, found, rfl⟩ := Option.map_eq_some_iff.1 paired
  exact isOver.shapes feature value found

/-- An accepted value has the shape of its feature. -/
theorem kind_of_set {written : Feature} {value : Value} (isOver : snapshot.IsOver vocabulary)
    (made : snapshot.set written value = .ok changed) : value.kind = written.kind := by
  obtain ⟨⟨held, found, sameShape⟩, -⟩ := get?_of_set made
  rw [← sameShape, isOver.shapes written held found]

theorem of_set {written : Feature} {value : Value} (isOver : snapshot.IsOver vocabulary)
    (made : snapshot.set written value = .ok changed) : changed.IsOver vocabulary := by
  have ownShape := isOver.kind_of_set made
  obtain ⟨⟨held, found, -⟩, reads⟩ := get?_of_set made
  constructor
  · intro feature
    rw [← isOver.present feature, contains, contains, reads]
    by_cases same : feature = written
    · simp [same, found]
    · rw [if_neg same]
  · intro feature other otherFound
    rw [reads] at otherFound
    by_cases same : feature = written
    · rw [if_pos same, Option.some.injEq] at otherFound
      rw [← otherFound, same, ownShape]
    · rw [if_neg same] at otherFound
      exact isOver.shapes feature other otherFound

theorem setAll (isOver : snapshot.IsOver vocabulary) (values : List (Feature × Value)) :
    (snapshot.setAll values).IsOver vocabulary :=
  setAll_induction of_set isOver values

/-- The values that are accepted. -/
theorem exists_set_iff {value : Value} (isOver : snapshot.IsOver vocabulary) :
    (∃ changed, snapshot.set feature value = .ok changed) ↔
      feature ∈ vocabulary ∧ value.kind = feature.kind := by
  constructor
  · rintro ⟨changed, made⟩
    obtain ⟨⟨held, found, -⟩, -⟩ := get?_of_set made
    have member := (isOver.present feature).1 (by rw [contains, found, Option.isSome_some])
    exact ⟨member, isOver.kind_of_set made⟩
  · rintro ⟨member, shape⟩
    obtain ⟨held, found⟩ := Option.isSome_iff_exists.1 ((isOver.present feature).2 member)
    exact Holds.exists_set ⟨held, found, isOver.shapes feature held found⟩ shape

end IsOver

/-! ## Runs of values -/

theorem eq_of_set_eq_error {value : Value} {error : Mismatch}
    (failed : snapshot.set feature value = .error error) :
    error = ⟨feature, value.kind, (snapshot.get? feature).map Value.kind⟩ := by
  rw [set] at failed
  split at failed
  · rename_i held found
    split at failed
    · cases failed
    · rw [found]
      exact (Except.error.inj failed).symm
  · rename_i found
    rw [found]
    exact (Except.error.inj failed).symm

theorem setAll_append_singleton (snapshot : Snapshot) (values : List (Feature × Value))
    (written : Feature) (value : Value) :
    snapshot.setAll (values ++ [(written, value)]) =
      match (snapshot.setAll values).set written value with
      | .ok changed => changed
      | .error _ => snapshot.setAll values := by
  rw [setAll, List.foldl_concat]
  rfl

/-- The values for a feature that are accepted in a run. -/
def accepted (snapshot : Snapshot) (feature : Feature) : List (Feature × Value) → List Value
  | [] => []
  | (written, value) :: values =>
      match snapshot.set written value with
      | .ok changed =>
          if written = feature then value :: changed.accepted feature values
          else changed.accepted feature values
      | .error _ => snapshot.accepted feature values

/-- A feature has the last value that was accepted for it, or that with which it began. -/
theorem get?_setAll (snapshot : Snapshot) (feature : Feature) (values : List (Feature × Value)) :
    (snapshot.setAll values).get? feature =
      (snapshot.accepted feature values).getLast?.or (snapshot.get? feature) := by
  induction values generalizing snapshot with
  | nil => rfl
  | cons entry rest ih =>
      rcases entry with ⟨written, value⟩
      rw [setAll_cons, accepted]
      cases made : snapshot.set written value with
      | error => exact ih snapshot
      | ok changed =>
          simp only [ih changed, (get?_of_set made).2]
          by_cases same : written = feature
          · rw [if_pos same, if_pos same.symm, List.getLast?_cons]
            cases (changed.accepted feature rest).getLast? <;> rfl
          · rw [if_neg same, if_neg (Ne.symm same)]

/-! ## Readings -/

/-- Reading in a shape gives what is held if it has this shape, and tells the shape of what
is held otherwise. -/
structure ReadsAs {α : Type} (snapshot : Snapshot) (shape : ValueKind) (make : α → Value)
    (read : Feature → Except Mismatch α) : Prop where
  covers : ∀ value, value.kind = shape ↔ ∃ content, make content = value
  reads : ∀ feature content, snapshot.get? feature = some (make content) →
    read feature = .ok content
  fails : ∀ feature, (∀ content, snapshot.get? feature ≠ some (make content)) →
    read feature = .error ⟨feature, shape, (snapshot.get? feature).map Value.kind⟩

theorem readsAs_count (snapshot : Snapshot) : snapshot.ReadsAs .count .count snapshot.count where
  covers value := by cases value <;> simp [Value.kind]
  reads feature content found := by simp [count, found]
  fails feature other := by
    unfold count
    split
    · exact absurd ‹_› (other _)
    · rfl

theorem readsAs_flag (snapshot : Snapshot) : snapshot.ReadsAs .flag .flag snapshot.flag where
  covers value := by cases value <;> simp [Value.kind]
  reads feature content found := by simp [flag, found]
  fails feature other := by
    unfold flag
    split
    · exact absurd ‹_› (other _)
    · rfl

theorem readsAs_tally (snapshot : Snapshot) : snapshot.ReadsAs .tally .tally snapshot.tally where
  covers value := by cases value <;> simp [Value.kind]
  reads feature content found := by simp [tally, found]
  fails feature other := by
    unfold tally
    split
    · exact absurd ‹_› (other _)
    · rfl

theorem readsAs_text (snapshot : Snapshot) : snapshot.ReadsAs .text .text snapshot.text where
  covers value := by cases value <;> simp [Value.kind]
  reads feature content found := by simp [text, found]
  fails feature other := by
    unfold text
    split
    · exact absurd ‹_› (other _)
    · rfl

theorem ReadsAs.ok_or_error {α : Type} {shape : ValueKind} {make : α → Value}
    {read : Feature → Except Mismatch α} (readsAs : snapshot.ReadsAs shape make read)
    (feature : Feature) :
    (∃ content, read feature = .ok content ∧ snapshot.get? feature = some (make content)) ∨
      read feature = .error ⟨feature, shape, (snapshot.get? feature).map Value.kind⟩ ∧
        ∀ content, snapshot.get? feature ≠ some (make content) := by
  by_cases found : ∃ content, snapshot.get? feature = some (make content)
  · obtain ⟨content, found⟩ := found
    exact Or.inl ⟨content, readsAs.reads feature content found, found⟩
  · rw [not_exists] at found
    exact Or.inr ⟨readsAs.fails feature found, found⟩

/-- The value of a feature of the vocabulary after a run: the last one that was accepted, or
zero. -/
def lastValue (vocabulary : List Feature) (values : List (Feature × Value)) (feature : Feature) :
    Value :=
  ((zero vocabulary).accepted feature values).getLast?.getD (Value.zero feature.kind)

theorem get?_setAll_zero (values : List (Feature × Value)) (member : feature ∈ vocabulary) :
    ((zero vocabulary).setAll values).get? feature = some (lastValue vocabulary values feature) := by
  have start : (zero vocabulary).get? feature = some (Value.zero feature.kind) := by
    simp [zero, member]
  rw [get?_setAll, start, lastValue]
  cases ((zero vocabulary).accepted feature values).getLast? <;> rfl

/-- What reading in a shape gives after a run of values over a vocabulary. -/
structure Recalls {α : Type} (vocabulary : List Feature) (values : List (Feature × Value))
    (shape : ValueKind) (make : α → Value) (read : Feature → Except Mismatch α) : Prop where
  succeeds : ∀ feature, (∃ content, read feature = .ok content) ↔
    feature ∈ vocabulary ∧ feature.kind = shape
  returns : ∀ feature content, read feature = .ok content →
    make content = lastValue vocabulary values feature
  reports : ∀ feature error, read feature = .error error →
    error = ⟨feature, shape, (((zero vocabulary).setAll values).get? feature).map Value.kind⟩

theorem ReadsAs.recalls {α : Type} {shape : ValueKind} {make : α → Value}
    {read : Feature → Except Mismatch α} {values : List (Feature × Value)}
    (readsAs : ((zero vocabulary).setAll values).ReadsAs shape make read) :
    Recalls vocabulary values shape make read := by
  have isOver := (isOver_zero vocabulary).setAll values
  have member {feature : Feature} {value : Value}
      (found : ((zero vocabulary).setAll values).get? feature = some value) :
      feature ∈ vocabulary := by
    rw [← isOver.present, contains, found, Option.isSome_some]
  constructor
  · intro feature
    constructor
    · rintro ⟨content, made⟩
      rcases readsAs.ok_or_error feature with ⟨_, -, found⟩ | ⟨failed, -⟩
      · refine ⟨member found, ?_⟩
        rw [← isOver.shapes feature _ found]
        exact (readsAs.covers _).2 ⟨_, rfl⟩
      · rw [made] at failed
        cases failed
    · rintro ⟨inside, shapeEq⟩
      have found := get?_setAll_zero values inside
      have kind := isOver.shapes feature _ found
      obtain ⟨content, same⟩ := (readsAs.covers _).1 (kind.trans shapeEq)
      exact ⟨content, readsAs.reads feature content (by rw [found, same])⟩
  · intro feature content made
    rcases readsAs.ok_or_error feature with ⟨other, madeOther, found⟩ | ⟨failed, -⟩
    · rw [made] at madeOther
      rw [get?_setAll_zero values (member found)] at found
      rw [Except.ok.inj madeOther]
      exact (Option.some.inj found).symm
    · rw [made] at failed
      cases failed
  · intro feature error failed
    rcases readsAs.ok_or_error feature with ⟨_, made, -⟩ | ⟨reported, -⟩
    · rw [made] at failed
      cases failed
    · rw [reported] at failed
      exact (Except.error.inj failed).symm

/-! ## Everything about a run -/

/-- The snapshot after a run of values over a vocabulary: what it holds, what becomes of one
more value, and what can be read from it. -/
structure Obeys (vocabulary : List Feature) (values : List (Feature × Value))
    (snapshot : Snapshot) : Prop where
  listed : snapshot.entries.map Prod.fst =
    Feature.all.filter fun feature => decide (feature ∈ vocabulary)
  isOver : snapshot.IsOver vocabulary
  accepts : ∀ feature value, (∃ changed, snapshot.set feature value = .ok changed) ↔
    feature ∈ vocabulary ∧ value.kind = feature.kind
  changes : ∀ feature value changed, snapshot.set feature value = .ok changed →
    (zero vocabulary).setAll (values ++ [(feature, value)]) = changed ∧
      changed.get? feature = some value ∧
      ∀ other, other ≠ feature → changed.get? other = snapshot.get? other
  refuses : ∀ feature value error, snapshot.set feature value = .error error →
    (zero vocabulary).setAll (values ++ [(feature, value)]) = snapshot ∧
      error = ⟨feature, value.kind, (snapshot.get? feature).map Value.kind⟩
  count : Recalls vocabulary values .count .count snapshot.count
  flag : Recalls vocabulary values .flag .flag snapshot.flag
  tally : Recalls vocabulary values .tally .tally snapshot.tally
  text : Recalls vocabulary values .text .text snapshot.text

/-- A run of values over a vocabulary, however often it names a feature, leaves the features of
the vocabulary with the last values that were accepted. -/
theorem obeys_setAll (vocabulary : List Feature) (values : List (Feature × Value)) :
    Obeys vocabulary values ((zero vocabulary).setAll values) := by
  have isOver := (isOver_zero vocabulary).setAll values
  constructor
  · rw [map_fst_entries]
    apply List.filter_congr
    intro feature _
    rw [Bool.eq_iff_iff, isOver.present, decide_eq_true_iff]
  · exact isOver
  · exact fun _ _ => isOver.exists_set_iff
  · intro feature value changed made
    obtain ⟨-, reads⟩ := get?_of_set made
    rw [setAll_append_singleton, made]
    refine ⟨rfl, by rw [reads, if_pos rfl], ?_⟩
    intro other different
    rw [reads, if_neg different]
  · intro feature value error failed
    rw [setAll_append_singleton, failed]
    exact ⟨rfl, eq_of_set_eq_error failed⟩
  · exact (readsAs_count _).recalls
  · exact (readsAs_flag _).recalls
  · exact (readsAs_tally _).recalls
  · exact (readsAs_text _).recalls

example :
    ((zero [.returns, .returns]).setAll
        [(.returns, .count 3), (.returns, .flag true), (.yields, .count 1)]).count .returns =
      .ok 3 :=
  rfl

end Snapshot

end SemanticDiff.Feature
