import SemanticDiff.Proofs.Catalog.Blocks
import SemanticDiff.Proofs.Engine.History
import SemanticDiff.Proofs.Event.Interleaving

/-!
# The order of work

A comparison visits every context with every rule.  No two visits make findings that
are ordered by the place where they were found: what is about one key is told apart
by the rule.  So the visits can be made in any order, and more generally events
depend on the order of findings only as far as those of one rule about one key are
concerned.
-/

namespace SemanticDiff.Catalog

open SemanticDiff.Feature (Mismatch)
open SemanticDiff.Outline (Node SourceUnit)

/-! ## Visits -/

/-- A context together with a rule and its position. -/
abbrev Visit := Context × Nat × Rule

/-- What is found on visits that are made one after the other. -/
def findOn : List Visit → Except Mismatch (List Finding)
  | [] => .ok []
  | (context, index, rule) :: others => do
      let first ← findingsOf context index rule
      let rest ← findOn others
      return first ++ rest

/-- The visits of some contexts: every context with every rule. -/
def visits (contexts : List Context) : List Visit :=
  contexts.flatMap fun context => numberedRules.map fun entry => (context, entry)

theorem mem_visits_iff {contexts : List Context} {visit : Visit} :
    visit ∈ visits contexts ↔ visit.1 ∈ contexts ∧ visit.2 ∈ numberedRules := by
  rcases visit with ⟨context, entry⟩
  simp only [visits, List.mem_flatMap, List.mem_map, Prod.mk.injEq]
  constructor
  · rintro ⟨other, otherMem, found, foundMem, rfl, rfl⟩
    exact ⟨otherMem, foundMem⟩
  · rintro ⟨contextMem, entryMem⟩
    exact ⟨context, contextMem, entry, entryMem, rfl, rfl⟩

/-- What is found on a visit. -/
def Visit.findings (visit : Visit) : List Finding :=
  (visit.2.2.draftsIn visit.1).map fun draft =>
    ⟨visit.1.key, visit.1.kind, visit.2.1, visit.2.2.name, draft⟩

theorem flatMap_findings_visits (contexts : List Context) :
    (visits contexts).flatMap Visit.findings = contexts.flatMap Context.findings := by
  rw [visits, List.flatMap_assoc]
  apply List.flatMap_congr
  intro context _
  rw [List.flatMap_map]
  rfl

/-- Where all features can be read, no visit fails. -/
theorem findOn_eq {made : List Visit} (listed : ∀ visit ∈ made, visit.2 ∈ numberedRules)
    (holds : ∀ visit ∈ made, ∀ feature, visit.1.Holds feature) :
    findOn made = .ok (made.flatMap Visit.findings) := by
  induction made with
  | nil => rfl
  | cons visit others ih =>
      rcases List.forall_mem_cons.1 listed with ⟨ownListed, otherListed⟩
      rcases List.forall_mem_cons.1 holds with ⟨ownHolds, otherHolds⟩
      rw [findOn, findingsOf_eq ownHolds ownListed, ih otherListed otherHolds]
      rfl

/-! ## Visits in another order -/

/-- Runs of which at most one is not empty can be put together in any order. -/
theorem flatMap_eq_of_perm {α β : Type} {run : α → List β} {first second : List α}
    (perm : first.Perm second)
    (alone : ∀ a ∈ first, ∀ b ∈ first, run a ≠ [] → run b ≠ [] → a = b) :
    first.flatMap run = second.flatMap run := by
  induction perm with
  | nil => rfl
  | cons item _ ih =>
      rw [List.flatMap_cons, List.flatMap_cons, ih]
      intro a aMem b bMem
      exact alone a (List.mem_cons_of_mem _ aMem) b (List.mem_cons_of_mem _ bMem)
  | swap item other rest =>
      rw [List.flatMap_cons, List.flatMap_cons, List.flatMap_cons, List.flatMap_cons,
        ← List.append_assoc, ← List.append_assoc]
      congr 1
      by_cases none : run item = []
      · rw [none, List.append_nil, List.nil_append]
      · by_cases otherNone : run other = []
        · rw [otherNone, List.append_nil, List.nil_append]
        · rw [alone item (by simp) other (by simp) none otherNone]
  | trans firstPerm _ firstIh secondIh =>
      rw [firstIh alone]
      apply secondIh
      intro a aMem b bMem
      exact alone a (firstPerm.mem_iff.2 aMem) b (firstPerm.mem_iff.2 bMem)

/-- Contexts of one key are about different sides. -/
def ToldApart (contexts : List Context) : Prop :=
  ∀ first ∈ contexts, ∀ second ∈ contexts, first.key = second.key → first.scope = second.scope →
    first = second

theorem toldApart_contexts {before after : SourceUnit} (beforeRead : before.IsRead)
    (afterRead : after.IsRead) : ToldApart (contexts before after) := by
  intro first firstMem second secondMem sameKey sameScope
  rcases (mem_contexts_iff beforeRead afterRead).1 firstMem with
    ⟨old, oldMem, new, newMem, partners, rfl⟩ | ⟨old, oldMem, -, rfl⟩ | ⟨new, newMem, -, rfl⟩ <;>
    rcases (mem_contexts_iff beforeRead afterRead).1 secondMem with
      ⟨old', oldMem', new', newMem', partners', rfl⟩ | ⟨old', oldMem', -, rfl⟩ |
      ⟨new', newMem', -, rfl⟩
  · rw [afterRead.eq_of_key_eq newMem newMem' sameKey,
      beforeRead.eq_of_key_eq oldMem oldMem' (partners.1.trans (sameKey.trans partners'.1.symm))]
  · cases sameScope
  · cases sameScope
  · cases sameScope
  · rw [beforeRead.eq_of_key_eq oldMem oldMem' sameKey]
  · cases sameScope
  · cases sameScope
  · cases sameScope
  · rw [afterRead.eq_of_key_eq newMem newMem' sameKey]

/-- Findings of one rule about one key are made on one visit. -/
theorem eq_of_tied {contexts : List Context} (toldApart : ToldApart contexts)
    {first second : Visit} (firstMem : first ∈ visits contexts)
    (secondMem : second ∈ visits contexts) {finding other : Finding}
    (found : finding ∈ first.findings) (otherFound : other ∈ second.findings)
    (sameKey : finding.key = other.key) (sameRule : finding.ruleIndex = other.ruleIndex) :
    first = second := by
  rcases first with ⟨context, entry⟩
  rcases second with ⟨context', entry'⟩
  rcases mem_visits_iff.1 firstMem with ⟨contextMem, entryMem⟩
  rcases mem_visits_iff.1 secondMem with ⟨contextMem', entryMem'⟩
  rcases List.mem_map.1 found with ⟨draft, draftMem, rfl⟩
  rcases List.mem_map.1 otherFound with ⟨draft', draftMem', rfl⟩
  have positions : (numberedRules.map Prod.fst).Nodup :=
    List.pairwise_map.2 (pairwise_numberedRules.imp fun later => Nat.ne_of_lt later.1)
  obtain rfl : entry = entry' :=
    List.inj_on_of_nodup_map positions entryMem entryMem' sameRule
  have scope := (Rule.appliesTo_iff.1 (appliesTo_of_mem_draftsIn draftMem)).1
  have scope' := (Rule.appliesTo_iff.1 (appliesTo_of_mem_draftsIn draftMem')).1
  rw [toldApart context contextMem context' contextMem' sameKey (scope.symm.trans scope')]

theorem filter_tied_flatMap_findings {contexts : List Context} (toldApart : ToldApart contexts)
    {made : List Visit} (perm : made.Perm (visits contexts)) (finding : Finding) :
    (made.flatMap Visit.findings).filter (tied Finding.precedes finding) =
      (contexts.flatMap Context.findings).filter (tied Finding.precedes finding) := by
  rw [← flatMap_findings_visits, List.filter_flatMap, List.filter_flatMap]
  apply flatMap_eq_of_perm perm
  intro first firstMem second secondMem firstSome secondSome
  obtain ⟨one, oneMem⟩ := List.exists_mem_of_ne_nil _ firstSome
  obtain ⟨two, twoMem⟩ := List.exists_mem_of_ne_nil _ secondSome
  rcases List.mem_filter.1 oneMem with ⟨oneFound, oneTied⟩
  rcases List.mem_filter.1 twoMem with ⟨twoFound, twoTied⟩
  obtain ⟨oneKey, oneRule⟩ := Finding.tied_precedes_iff.1 oneTied
  obtain ⟨twoKey, twoRule⟩ := Finding.tied_precedes_iff.1 twoTied
  exact eq_of_tied toldApart (perm.mem_iff.1 firstMem) (perm.mem_iff.1 secondMem) oneFound twoFound
    (oneKey.symm.trans twoKey) (oneRule.symm.trans twoRule)

end SemanticDiff.Catalog

namespace SemanticDiff.Engine

open SemanticDiff.Catalog (Context ToldApart Visit contexts findOn visits)
open SemanticDiff.Outline (SourceUnit)

variable {before after : SourceUnit}

/-- Visits in any order succeed, and what is found has the same events. -/
theorem exists_findOn_of_perm (engine : Engine) (path revision : String)
    {contexts : List Context} (holds : ∀ context ∈ contexts, ∀ feature, context.Holds feature)
    (toldApart : ToldApart contexts) {made : List Visit} (perm : made.Perm (visits contexts)) :
    ∃ findings, findOn made = .ok findings ∧
      engine.finish path revision findings =
        engine.finish path revision (contexts.flatMap Context.findings) := by
  refine ⟨_, Catalog.findOn_eq ?_ ?_, ?_⟩
  · intro visit member
    exact (Catalog.mem_visits_iff.1 (perm.mem_iff.1 member)).2
  · intro visit member
    exact holds visit.1 (Catalog.mem_visits_iff.1 (perm.mem_iff.1 member)).1
  · rw [finish, finish, assemble_eq_of_filter_tied_eq path revision
      (Catalog.filter_tied_flatMap_findings toldApart perm)]

theorem toldApart_addedContexts (afterRead : after.IsRead) :
    ToldApart (addedContexts after) := by
  intro first firstMem second secondMem sameKey _
  rcases mem_addedContexts_iff.1 firstMem with ⟨new, newMem, rfl⟩
  rcases mem_addedContexts_iff.1 secondMem with ⟨new', newMem', rfl⟩
  rw [afterRead.eq_of_key_eq newMem newMem' sameKey]

/-- The order of work cannot be seen from the events.  Findings may be interleaved as
they like, and the contexts of a comparison and the rules of the catalog may be
visited in any order. -/
theorem events_of_any_order :
    (∀ (path revision : String) {first second : List Finding}, Finding.Interleaves first second →
      assemble path revision first = assemble path revision second) ∧
    ∀ (engine : Engine) {after : SourceUnit}, after.IsRead →
      (∀ {before : SourceUnit}, before.IsRead →
        ∀ {made : List Visit}, made.Perm (visits (contexts before after)) →
          ∃ findings, findOn made = .ok findings ∧ engine.diffUnits before after =
            .ok (engine.finish after.path after.revision findings)) ∧
      ∀ {made : List Visit}, made.Perm (visits (addedContexts after)) →
        ∃ findings, findOn made = .ok findings ∧ engine.addedUnit after =
          .ok (engine.finish after.path after.revision findings) := by
  refine ⟨fun path revision first second interleaves =>
    assemble_eq_of_filter_tied_eq path revision interleaves.filter_tied_eq, ?_⟩
  intro engine after afterRead
  constructor
  · intro before beforeRead made perm
    have holds : ∀ context ∈ contexts before after, ∀ feature, context.Holds feature :=
      fun context member => Catalog.holds_of_mem_contexts beforeRead afterRead member
    obtain ⟨findings, found, same⟩ := engine.exists_findOn_of_perm after.path after.revision
      holds (Catalog.toldApart_contexts beforeRead afterRead) perm
    refine ⟨findings, found, ?_⟩
    rw [engine.diffUnits_eq (Catalog.classifyAll_eq holds), same]
  · intro made perm
    have holds : ∀ context ∈ addedContexts after, ∀ feature, context.Holds feature := by
      intro context member
      rcases mem_addedContexts_iff.1 member with ⟨new, -, rfl⟩
      exact Context.holds_added new
    obtain ⟨findings, found, same⟩ := engine.exists_findOn_of_perm after.path after.revision
      holds (toldApart_addedContexts afterRead) perm
    refine ⟨findings, found, ?_⟩
    rw [addedUnit, Catalog.classifyAll_eq holds, same]
    rfl

/-- A change that a later rule tells first and an earlier rule again, and two units whose
contexts and rules are visited backwards. -/
theorem events_of_any_order_reversed :
    (∃ late other early : Finding, late.change = early.change ∧
      early.ruleIndex < late.ruleIndex ∧ Finding.SameSource late other ∧
      Finding.Interleaves [late, other, early] [early, late, other] ∧
      assemble "m.py" "r1" [late, other, early] = assemble "m.py" "r1" [early, late, other]) ∧
    ∃ (before after : SourceUnit) (findings additions : List Finding),
      SourceUnit.read "m.py" "r1" "def f(): pass\n" = .ok before ∧
      SourceUnit.read "m.py" "r1" "def g(): return lambda: 1\n" = .ok after ∧
      findOn (visits (contexts before after)).reverse = .ok findings ∧
      default.diffUnits before after = .ok (default.finish after.path after.revision findings) ∧
      findOn (visits (addedContexts after)).reverse = .ok additions ∧
      default.addedUnit after = .ok (default.finish after.path after.revision additions) := by
  constructor
  · let finding (index : Nat) (number : Int) : Finding :=
      ⟨⟨"f"⟩, .functionDef, index, "slices", .transition .sliceUsageChanged (.int 0) (.int number)⟩
    have interleaves : Finding.Interleaves [finding 9 2, finding 9 5, finding 3 2]
        [finding 3 2, finding 9 2, finding 9 5] :=
      ⟨(⟨(· + 1), (· + 2), (by decide : ∀ i : Fin 3, i + 1 + 2 = i),
        (by decide : ∀ i : Fin 3, i + 2 + 1 = i)⟩ : Fin 3 ≃ Fin 3), by decide, by decide⟩
    exact ⟨finding 9 2, finding 9 5, finding 3 2, rfl, by decide, ⟨rfl, rfl⟩, interleaves,
      events_of_any_order.1 "m.py" "r1" interleaves⟩
  · obtain ⟨before, oldMade⟩ := exists_read "m.py" "r1" "def f(): pass\n" (by decide +kernel)
    obtain ⟨after, newMade⟩ :=
      exists_read "m.py" "r1" "def g(): return lambda: 1\n" (by decide +kernel)
    obtain ⟨compare, add⟩ := events_of_any_order.2 default (SourceUnit.isRead_of_read newMade)
    obtain ⟨findings, found, same⟩ :=
      compare (SourceUnit.isRead_of_read oldMade) (List.reverse_perm _)
    obtain ⟨additions, added, sameAdded⟩ := add (List.reverse_perm _)
    exact ⟨before, after, findings, additions, oldMade, newMade, found, same, added, sameAdded⟩

end SemanticDiff.Engine
