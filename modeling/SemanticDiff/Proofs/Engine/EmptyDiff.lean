import SemanticDiff.Proofs.Engine.Agreement

/-!
# When there is nothing to tell

Texts that differ in layout only have no events between them, whatever the
settings.  With default settings there are no events exactly when the two units
agree, so that having no events between them is an equivalence of texts.
-/

namespace SemanticDiff.Engine

open SemanticDiff.Outline (SourceUnit)

/-- Two texts whose units agree have no events between them. -/
theorem diff_eq_nil_of_agree (engine : Engine) {path revision old new : String}
    {before after : SourceUnit} (supported : engine.supports path = true)
    (oldRead : SourceUnit.read path revision old = .ok before)
    (newRead : SourceUnit.read path revision new = .ok after) (agree : Agree before after) :
    engine.diff path (some old) (some new) revision = .ok [] := by
  have beforeRead := SourceUnit.isRead_of_read oldRead
  have afterRead := SourceUnit.isRead_of_read newRead
  cases excluded : engine.isExcluded path with
  | true => exact engine.diff_eq_nil_of_isExcluded supported excluded
  | false =>
      rw [engine.diff_eq_diffUnits supported excluded oldRead newRead, mapError_eq_ok_iff]
      exact engine.diffUnits_eq_nil_of_agree beforeRead afterRead agree

/-- Between two texts whose trees have one form there are no events, and so there
are none between a text and itself. -/
theorem diff_eq_nil_of_form_eq (engine : Engine) {path : String}
    (supported : engine.supports path = true) (revision : String) :
    (∀ {first second : String} {before after : SourceUnit},
      SourceUnit.read path revision first = .ok before →
      SourceUnit.read path revision second = .ok after →
      before.tree.form = after.tree.form →
      engine.diff path (some first) (some second) revision = .ok []) ∧
    ∀ {text : String} {unit : SourceUnit}, SourceUnit.read path revision text = .ok unit →
      engine.diff path (some text) (some text) revision = .ok [] := by
  constructor
  · intro first second before after firstRead secondRead sameForm
    exact engine.diff_eq_nil_of_agree supported firstRead secondRead
      (Agree.of_form_eq (SourceUnit.isRead_of_read firstRead)
        (SourceUnit.isRead_of_read secondRead) sameForm)
  · intro text unit made
    exact engine.diff_eq_nil_of_agree supported made made
      (Agree.refl (SourceUnit.isRead_of_read made))

theorem form_eq_of_parse {path revision first second : String} {before after : SourceUnit}
    (firstRead : SourceUnit.read path revision first = .ok before)
    (secondRead : SourceUnit.read path revision second = .ok after)
    (same : ((Source.parse first).toOption.bind fun tree =>
      (Source.parse second).toOption.map tree.sameForm) = some true) :
    before.tree.form = after.tree.form := by
  rw [(SourceUnit.read_eq_ok_iff.1 firstRead).2.2.1,
    (SourceUnit.read_eq_ok_iff.1 secondRead).2.2.1] at same
  exact (Source.Tree.sameForm_iff _ _).1 (Option.some.inj same)

/-- A function that is laid out in another way is the same function. -/
theorem diff_eq_nil_laid_out_again :
    ∃ before after : SourceUnit,
      default.supports "m.py" = true ∧
      SourceUnit.read "m.py" "r1" "def f(): pass\n" = .ok before ∧
      SourceUnit.read "m.py" "r1" "def f( ):\n  pass\n" = .ok after ∧
      before.tree.form = after.tree.form ∧
      default.diff "m.py" (some "def f(): pass\n") (some "def f( ):\n  pass\n") "r1" = .ok [] := by
  have supported : default.supports "m.py" = true := by decide +kernel
  obtain ⟨before, beforeRead⟩ :=
    exists_read "m.py" "r1" "def f(): pass\n" (by decide +kernel)
  obtain ⟨after, afterRead⟩ :=
    exists_read "m.py" "r1" "def f( ):\n  pass\n" (by decide +kernel)
  have sameForm := form_eq_of_parse beforeRead afterRead (by decide +kernel)
  exact ⟨before, after, supported, beforeRead, afterRead, sameForm,
    (diff_eq_nil_of_form_eq default supported "r1").1 beforeRead afterRead sameForm⟩

/-! ## Agreement -/

theorem diff_eq_nil_iff_agree {path revision old new : String} {before after : SourceUnit}
    (supported : default.supports path = true)
    (oldRead : SourceUnit.read path revision old = .ok before)
    (newRead : SourceUnit.read path revision new = .ok after) :
    default.diff path (some old) (some new) revision = .ok [] ↔ Agree before after := by
  have beforeRead := SourceUnit.isRead_of_read oldRead
  have afterRead := SourceUnit.isRead_of_read newRead
  rw [default.diff_eq_diffUnits supported (isExcluded_default path) oldRead newRead,
    mapError_eq_ok_iff, diffUnits_default_eq_nil_iff beforeRead afterRead,
    not_reports_iff_agree beforeRead afterRead]

/-- There are no events between two units exactly when they agree; so the texts of
a file fall into classes without events inside them. -/
theorem diffUnits_eq_nil_iff_agree :
    (∀ {before after : SourceUnit}, before.IsRead → after.IsRead →
      (default.diffUnits before after = .ok [] ↔ Agree before after)) ∧
    ∀ {path : String} (revision : String), default.supports path = true →
      Equivalence fun first second :
          { text : String // ∃ unit, SourceUnit.read path revision text = .ok unit } =>
        default.diff path (some first.1) (some second.1) revision = .ok [] := by
  constructor
  · intro before after beforeRead afterRead
    rw [diffUnits_default_eq_nil_iff beforeRead afterRead,
      not_reports_iff_agree beforeRead afterRead]
  · intro path revision supported
    constructor
    · rintro ⟨text, unit, made⟩
      rw [diff_eq_nil_iff_agree supported made made]
      exact Agree.refl (SourceUnit.isRead_of_read made)
    · rintro ⟨first, firstUnit, firstRead⟩ ⟨second, secondUnit, secondRead⟩
      rw [diff_eq_nil_iff_agree supported firstRead secondRead,
        diff_eq_nil_iff_agree supported secondRead firstRead]
      exact Agree.symm
    · rintro ⟨first, firstUnit, firstRead⟩ ⟨second, secondUnit, secondRead⟩
        ⟨third, thirdUnit, thirdRead⟩
      rw [diff_eq_nil_iff_agree supported firstRead secondRead,
        diff_eq_nil_iff_agree supported secondRead thirdRead,
        diff_eq_nil_iff_agree supported firstRead thirdRead]
      exact Agree.trans (SourceUnit.isRead_of_read firstRead)
        (SourceUnit.isRead_of_read secondRead)

/-- A statement that does nothing makes no event, and the two units agree; a
function makes one, and they do not. -/
theorem diffUnits_eq_nil_iff_agree_pass :
    ∃ empty idle full : SourceUnit,
      SourceUnit.read "m.py" "r1" "" = .ok empty ∧
      SourceUnit.read "m.py" "r1" "pass\n" = .ok idle ∧
      SourceUnit.read "m.py" "r1" "def f(): pass\n" = .ok full ∧
      Agree empty idle ∧ ¬ Agree empty full ∧
      default.diff "m.py" (some "pass\n") (some "") "r1" = .ok [] := by
  have supported : default.supports "m.py" = true := by decide +kernel
  obtain ⟨empty, emptyMade⟩ := exists_read "m.py" "r1" "" (by decide +kernel)
  obtain ⟨idle, idleMade⟩ := exists_read "m.py" "r1" "pass\n" (by decide +kernel)
  obtain ⟨full, fullMade⟩ := exists_read "m.py" "r1" "def f(): pass\n" (by decide +kernel)
  have emptyRead := SourceUnit.isRead_of_read emptyMade
  have idleRead := SourceUnit.isRead_of_read idleMade
  have fullRead := SourceUnit.isRead_of_read fullMade
  have silent : default.diff "m.py" (some "") (some "pass\n") "r1" = .ok [] := by decide +kernel
  have told : default.diff "m.py" (some "") (some "def f(): pass\n") "r1" ≠ .ok [] := by
    decide +kernel
  have swapped := (diffUnits_eq_nil_iff_agree.2 "r1" supported).symm
    (x := ⟨"", empty, emptyMade⟩) (y := ⟨"pass\n", idle, idleMade⟩) silent
  rw [default.diff_eq_diffUnits supported (isExcluded_default _) emptyMade idleMade,
    mapError_eq_ok_iff] at silent
  rw [default.diff_eq_diffUnits supported (isExcluded_default _) emptyMade fullMade, ne_eq,
    mapError_eq_ok_iff] at told
  exact ⟨empty, idle, full, emptyMade, idleMade, fullMade,
    (diffUnits_eq_nil_iff_agree.1 emptyRead idleRead).1 silent,
    fun agree => told ((diffUnits_eq_nil_iff_agree.1 emptyRead fullRead).2 agree), swapped⟩

end SemanticDiff.Engine
