import SemanticDiff.Feature.Facts
import SemanticDiff.Proofs.Collection.SortedMap

/-!
# Facts add up

Tallies, and with them facts, can be added in any order.  So the facts of a run of
trees depend neither on the order of the trees nor on trees without facts.
-/

namespace SemanticDiff.Feature

open SemanticDiff.Source (Tree Kind Label)
open SemanticDiff.Source.Tree

namespace Tally

/-- Counting further entries, each name once, adds to what was counted. -/
theorem get?_foldl_bump {entries : List (String × Nat)} (increasing : IncreasingKeys entries)
    (tally : Tally) (name : String) :
    (entries.foldl (fun tally entry => bump tally entry.1 entry.2) tally).get? name =
      Option.merge (· + ·) (tally.get? name)
        ((entries.find? fun entry => entry.1 == name).map (·.2)) := by
  induction entries generalizing tally with
  | nil => simp
  | cons entry rest ih =>
      rcases List.pairwise_cons.1 increasing with ⟨smallest, restIncreasing⟩
      rw [List.foldl_cons, ih restIncreasing, bump, SortedMap.get?_insert]
      by_cases same : name = entry.1
      · have absent : (rest.find? fun later => later.1 == entry.1) = none := by
          rw [List.find?_eq_none]
          intro later member
          simpa using (String.ne_of_lt (smallest later member)).symm
        subst name
        cases tally.get? entry.1 <;> simp [absent]
      · simp [same, Ne.symm same]

theorem get?_add (first second : Tally) (name : String) :
    (first.add second).get? name = Option.merge (· + ·) (first.get? name) (second.get? name) :=
  get?_foldl_bump second.increasing first name

theorem add_comm (first second : Tally) : first.add second = second.add first := by
  apply SortedMap.ext_get?
  intro name
  rw [get?_add, get?_add]
  exact Std.Commutative.comm _ _

theorem add_assoc (first second third : Tally) :
    (first.add second).add third = first.add (second.add third) := by
  apply SortedMap.ext_get?
  intro name
  rw [get?_add, get?_add, get?_add, get?_add]
  exact Std.Associative.assoc _ _ _

theorem add_empty (tally : Tally) : tally.add SortedMap.empty = tally :=
  rfl

end Tally

namespace Facts

theorem add_comm (first second : Facts) : first.add second = second.add first := by
  simp only [add, Nat.add_comm, Bool.or_comm, Tally.add_comm]

theorem add_assoc (first second third : Facts) :
    (first.add second).add third = first.add (second.add third) := by
  simp only [add, Nat.add_assoc, Bool.or_assoc, Tally.add_assoc]

theorem add_zero (facts : Facts) : facts.add zero = facts := by
  simp only [add, zero, Nat.add_zero, Bool.or_false, Tally.add_empty]

theorem zero_add (facts : Facts) : zero.add facts = facts := by
  rw [add_comm, add_zero]

end Facts

/-! ## Laws -/

/-- A property of facts that a node has by itself, whatever it counts for, and that passes
on from parts to the whole. -/
structure Facts.IsLaw (law : Facts → Prop) : Prop where
  zero : law .zero
  add : ∀ first second : Facts, law first → law second → law (first.add second)
  own : ∀ kind children, law (ownFacts kind children)
  nested : ∀ label, law (nestedFacts label)

namespace Facts.IsLaw

variable {law : Facts → Prop}

mutual

theorem factsOf (isLaw : IsLaw law) : (tree : Tree) → law (factsOf tree)
  | .node label field span text children => by
      unfold Feature.factsOf
      split
      case h_2 | h_3 => exact isLaw.nested _
      case h_4 =>
          cases children.find? fun child => child.field == some .definition with
          | none => exact isLaw.zero
          | some definition => exact isLaw.nested _
      case h_7 => exact isLaw.add _ _ (isLaw.own _ children) (isLaw.factsOfAll children)
      all_goals exact isLaw.zero

theorem factsOfAll (isLaw : IsLaw law) : (trees : List Tree) → law (factsOfAll trees)
  | [] => isLaw.zero
  | tree :: trees => by
      rw [Feature.factsOfAll]
      exact isLaw.add _ _ (isLaw.factsOf tree) (isLaw.factsOfAll trees)

end

end Facts.IsLaw

/-! ## Runs of trees -/

theorem factsOfAll_eq_of_perm {first second : List Tree} (perm : first.Perm second) :
    factsOfAll first = factsOfAll second := by
  induction perm with
  | nil => rfl
  | cons tree _ ih => rw [factsOfAll, ih, factsOfAll]
  | swap tree other trees =>
      rw [factsOfAll, factsOfAll, factsOfAll, factsOfAll, ← Facts.add_assoc, ← Facts.add_assoc,
        Facts.add_comm (factsOf tree)]
  | trans _ _ left right => rw [left, right]

/-- Trees without facts can be left out. -/
theorem factsOfAll_filter {test : Tree → Bool} {trees : List Tree}
    (idle : ∀ tree ∈ trees, test tree = false → factsOf tree = .zero) :
    factsOfAll (trees.filter test) = factsOfAll trees := by
  induction trees with
  | nil => rfl
  | cons tree trees ih =>
      rcases List.forall_mem_cons.1 idle with ⟨own, others⟩
      cases kept : test tree with
      | true => rw [List.filter_cons_of_pos kept, factsOfAll, factsOfAll, ih others]
      | false =>
          rw [List.filter_cons_of_neg (by simp [kept]), ih others, factsOfAll, own kept,
            Facts.zero_add]

/-! ## Statements of a scope -/

/-- Whether a child of a scope is a statement. -/
def isStatement (child : Tree) : Bool :=
  child.isNamed && !child.is .comment

/-- What is no statement has no facts. -/
theorem factsOf_of_not_isStatement {tree : Tree} (other : isStatement tree = false) :
    factsOf tree = .zero := by
  rcases tree with ⟨label, field, span, text, children⟩
  rw [isStatement, Bool.and_eq_false_iff] at other
  cases label with
  | literal => rfl
  | construct kind =>
      rcases other with unnamed | comment
      · cases unnamed
      · have same : kind = .comment := by simpa [is, Tree.label] using comment
        subst same
        rfl

theorem withoutDocstring_cons (tree : Tree) (trees : List Tree) :
    withoutDocstring (tree :: trees) =
      if isStatement tree then if isDocstring tree then trees else tree :: trees
      else tree :: withoutDocstring trees := by
  rw [withoutDocstring, isStatement]
  cases tree.isNamed <;> cases tree.is .comment <;> rfl

end SemanticDiff.Feature
