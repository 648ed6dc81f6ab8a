/-!
# Results

What has a result has one at every step, and what can be seen of a result shows that
there is one.
-/

namespace SemanticDiff

variable {ε ε' α β γ : Type}

theorem toOption_eq_some_iff {result : Except ε α} {value : α} :
    result.toOption = some value ↔ result = .ok value := by
  cases result <;> simp [Except.toOption]

theorem mapError_eq_ok_iff {result : Except ε α} {change : ε → ε'} {value : α} :
    result.mapError change = .ok value ↔ result = .ok value := by
  constructor
  · intro made
    cases result <;> cases made
    rfl
  · rintro rfl
    rfl

/-- What has a result has one at every step. -/
theorem exists_of_bind_eq_ok {first : Except ε α} {next : α → Except ε β} {value : β}
    (made : first >>= next = .ok value) : ∃ middle, first = .ok middle ∧ next middle = .ok value := by
  cases first with
  | error => cases made
  | ok middle => exact ⟨middle, rfl, made⟩

/-- A view of a result shows that there is one. -/
theorem exists_ok_of_map_eq_some {result : Except ε α} {view : α → β} {value : β}
    (seen : result.toOption.map view = some value) :
    ∃ made, result = .ok made ∧ view made = value := by
  obtain ⟨made, found, same⟩ := Option.map_eq_some_iff.1 seen
  exact ⟨made, toOption_eq_some_iff.1 found, same⟩

/-- A view of two results shows that there are both. -/
theorem exists_ok_of_bind_eq_some {first : Except ε α} {second : Except ε' β} {view : α → β → γ}
    {value : γ} (seen : (first.toOption.bind fun made => second.toOption.map (view made)) =
      some value) :
    ∃ made other, first = .ok made ∧ second = .ok other ∧ view made other = value := by
  obtain ⟨made, found, rest⟩ := Option.bind_eq_some_iff.1 seen
  obtain ⟨other, otherMade, same⟩ := exists_ok_of_map_eq_some rest
  exact ⟨made, other, toOption_eq_some_iff.1 found, otherMade, same⟩

end SemanticDiff
