import SemanticDiff.Proofs.Source.Reading
import SemanticDiff.Source.Parse

/-!
# Where the nodes of a tree stand

In the tree of a text the children of every node stand one after the other, and
all of them inside the node.  This holds whatever the grammar says, since a rule
reads on from where the rule before it stopped.
-/

namespace SemanticDiff.Source

namespace Tree

mutual

/-- The children of every node stand one after the other inside the node. -/
def Placed : Tree → Prop
  | node _ _ span _ children => PlacedBetween span.startByte span.endByte children

/-- Trees stand one after the other between two places. -/
def PlacedBetween (low high : Nat) : List Tree → Prop
  | [] => low ≤ high
  | tree :: trees =>
      low ≤ tree.span.startByte ∧ tree.Placed ∧ PlacedBetween tree.span.endByte high trees

end

theorem placed_node {label : Label} {field : Option Field} {span : Span} {text : String}
    {children : List Tree} :
    (node label field span text children).Placed ↔
      PlacedBetween span.startByte span.endByte children := by
  rw [Placed]

@[simp]
theorem placedBetween_nil {low high : Nat} : PlacedBetween low high [] ↔ low ≤ high := by
  rw [PlacedBetween]

@[simp]
theorem placedBetween_cons {low high : Nat} {tree : Tree} {trees : List Tree} :
    PlacedBetween low high (tree :: trees) ↔
      low ≤ tree.span.startByte ∧ tree.Placed ∧
        PlacedBetween tree.span.endByte high trees := by
  rw [PlacedBetween]

mutual

/-- A placed tree does not end before it begins. -/
theorem Placed.start_le_end : {tree : Tree} → tree.Placed →
    tree.span.startByte ≤ tree.span.endByte
  | node _ _ _ _ _, placed => (placed_node.1 placed).le

/-- Trees can only stand between places in this order. -/
theorem PlacedBetween.le : {low high : Nat} → {trees : List Tree} →
    PlacedBetween low high trees → low ≤ high
  | _, _, [], placed => placedBetween_nil.1 placed
  | _, _, _ :: _, placed =>
      have ⟨begins, first, rest⟩ := placedBetween_cons.1 placed
      Nat.le_trans (Nat.le_trans begins first.start_le_end) rest.le

end

/-- Two runs of trees stand between two places exactly when some place parts
them. -/
theorem placedBetween_append {low high : Nat} {first second : List Tree} :
    PlacedBetween low high (first ++ second) ↔
      ∃ middle, PlacedBetween low middle first ∧ PlacedBetween middle high second := by
  induction first generalizing low with
  | nil =>
      simp only [List.nil_append, placedBetween_nil]
      constructor
      · intro placed
        exact ⟨low, Nat.le_refl low, placed⟩
      · rintro ⟨middle, ordered, placed⟩
        cases second with
        | nil => exact placedBetween_nil.2 (Nat.le_trans ordered (placedBetween_nil.1 placed))
        | cons tree trees =>
            rcases placedBetween_cons.1 placed with ⟨begins, rest⟩
            exact placedBetween_cons.2 ⟨Nat.le_trans ordered begins, rest⟩
  | cons tree trees ih =>
      simp only [List.cons_append, placedBetween_cons, ih]
      constructor
      · rintro ⟨begins, placed, middle, left, right⟩
        exact ⟨middle, ⟨begins, placed, left⟩, right⟩
      · rintro ⟨middle, ⟨begins, placed, left⟩, right⟩
        exact ⟨begins, placed, middle, left, right⟩

theorem PlacedBetween.placed {low high : Nat} {trees : List Tree}
    (between : PlacedBetween low high trees) : ∀ tree ∈ trees, tree.Placed := by
  intro tree member
  obtain ⟨before, after, rfl⟩ := List.append_of_mem member
  obtain ⟨middle, -, rest⟩ := placedBetween_append.1 between
  exact (placedBetween_cons.1 rest).2.1

/-- The places around a run of trees may lie further apart. -/
theorem PlacedBetween.widen {low high low' high' : Nat} {trees : List Tree}
    (placed : PlacedBetween low high trees) (lower : low' ≤ low) (higher : high ≤ high') :
    PlacedBetween low' high' trees := by
  have left : PlacedBetween low' low [] := placedBetween_nil.2 lower
  have right : PlacedBetween high high' [] := placedBetween_nil.2 higher
  have joined : PlacedBetween low' high' ([] ++ (trees ++ [])) :=
    placedBetween_append.2 ⟨low, left, placedBetween_append.2 ⟨high, placed, right⟩⟩
  simpa using joined

theorem placed_leaf {label : Label} {span : Span} {text : String}
    (ordered : span.startByte ≤ span.endByte) : (leaf label span text).Placed :=
  placed_node.2 (placedBetween_nil.2 ordered)

@[simp]
theorem span_withField (field : Field) (tree : Tree) :
    (tree.withField field).span = tree.span := by
  cases tree
  rfl

theorem Placed.withField {tree : Tree} (placed : tree.Placed) (field : Field) :
    (tree.withField field).Placed := by
  cases tree
  exact placed_node.2 (placed_node.1 placed)

/-- A change of trees that keeps where they stand keeps a run of them placed. -/
theorem PlacedBetween.map {low high : Nat} {trees : List Tree}
    (placed : PlacedBetween low high trees) (change : Tree → Tree)
    (keepsSpan : ∀ tree, (change tree).span = tree.span)
    (keepsPlaced : ∀ tree : Tree, tree.Placed → (change tree).Placed) :
    PlacedBetween low high (trees.map change) := by
  induction trees generalizing low with
  | nil => exact placed
  | cons tree trees ih =>
      rcases placedBetween_cons.1 placed with ⟨begins, own, rest⟩
      rw [List.map_cons, placedBetween_cons, keepsSpan]
      exact ⟨begins, keepsPlaced tree own, ih rest⟩

mutual

/-- A target stands where its expression stood. -/
theorem placed_of_toTarget? : {tree target : Tree} → tree.Placed →
    tree.toTarget? = some target → target.span = tree.span ∧ target.Placed
  | node label field span text children, target, placed, turned => by
      unfold toTarget? at turned
      split at turned
      case h_4 =>
          rw [Option.ite_none_right_eq_some] at turned
          rcases turned with ⟨-, same⟩
          cases same
          exact ⟨rfl, placed⟩
      case h_5 | h_6 | h_7 =>
          rcases Option.map_eq_some_iff.1 turned with ⟨targets, childrenTurned, rfl⟩
          exact ⟨rfl, placed_node.2
            (placedBetween_of_toTargets? (placed_node.1 placed) childrenTurned)⟩
      case h_11 => cases turned
      all_goals
        cases turned
        exact ⟨rfl, placed⟩

/-- Targets stand where their expressions stood. -/
theorem placedBetween_of_toTargets? : {low high : Nat} → {trees targets : List Tree} →
    PlacedBetween low high trees → toTargets? trees = some targets →
      PlacedBetween low high targets
  | _, _, [], _, placed, turned => by
      cases turned
      exact placed
  | _, _, tree :: trees, _, placed, turned => by
      rcases placedBetween_cons.1 placed with ⟨begins, own, rest⟩
      simp only [toTargets?, Option.bind_eq_bind, Option.bind_eq_some_iff, Option.pure_def,
        Option.some.injEq] at turned
      rcases turned with ⟨target, first, targets, others, rfl⟩
      obtain ⟨sameSpan, ownTarget⟩ := placed_of_toTarget? own first
      rw [placedBetween_cons, sameSpan]
      exact ⟨begins, ownTarget, placedBetween_of_toTargets? rest others⟩

end

theorem toTargets?_append {first second targets others : List Tree}
    (left : toTargets? first = some targets) (right : toTargets? second = some others) :
    toTargets? (first ++ second) = some (targets ++ others) := by
  induction first generalizing targets with
  | nil =>
      cases left
      exact right
  | cons tree trees ih =>
      simp only [toTargets?, Option.bind_eq_bind, Option.bind_eq_some_iff, Option.pure_def,
        Option.some.injEq] at left
      rcases left with ⟨target, first, rest, turned, rfl⟩
      simp [toTargets?, first, ih turned]

theorem toTargets?_reverse {trees targets : List Tree} (turned : toTargets? trees = some targets) :
    toTargets? trees.reverse = some targets.reverse := by
  induction trees generalizing targets with
  | nil =>
      cases turned
      rfl
  | cons tree trees ih =>
      simp only [toTargets?, Option.bind_eq_bind, Option.bind_eq_some_iff, Option.pure_def,
        Option.some.injEq] at turned
      rcases turned with ⟨target, first, rest, others, rfl⟩
      rw [List.reverse_cons, List.reverse_cons]
      exact toTargets?_append (ih others) (by simp [toTargets?, first])

end Tree

namespace Cursor

/-- Stepping over characters never leads back. -/
theorem offset_le_advance (count : Nat) (cursor : Cursor) :
    cursor.offset ≤ (cursor.advance count).offset := by
  induction count generalizing cursor with
  | zero => exact Nat.le_refl _
  | succ count ih =>
      rw [advance]
      split
      · exact Nat.le_refl _
      · exact Nat.le_trans (Nat.le_add_right _ _) (ih { rest := _, offset := _, line := _ })

end Cursor

open Source.Tree

/-- What is passed over in a gap stands after what was read before. -/
theorem Layout.placedBetween_of_skipGap {gap : Gap} {current : Nat} {inFormat : Bool}
    {budget low : Nat} {trees trees' : List Tree} {cursor cursor' : Cursor}
    (placed : PlacedBetween low cursor.offset trees.reverse)
    (skipped : skipGap gap current inFormat budget trees cursor = some (trees', cursor')) :
    PlacedBetween low cursor'.offset trees'.reverse := by
  induction budget generalizing trees cursor with
  | zero =>
      cases skipped
      exact placed
  | succ budget ih =>
      have blanks : cursor.offset ≤ (skipBlanks cursor).offset := Cursor.offset_le_advance _ _
      simp only [skipGap] at skipped
      split at skipped
      · cases skipped
      · cases skipped
        exact placed
      · split at skipped
        · rename_i kind length _
          refine ih ?_ skipped
          have ends := Cursor.offset_le_advance length (skipBlanks cursor)
          rw [List.reverse_cons]
          refine placedBetween_append.2 ⟨_, placed, ?_⟩
          exact placedBetween_cons.2 ⟨blanks, placed_leaf ends, placedBetween_nil.2 (Nat.le_refl _)⟩
        · cases skipped
          exact placed.widen (Nat.le_refl low) blanks

namespace Rule

/-- A node made of placed trees is placed where they stand. -/
theorem placedBetween_gather {label : Label} {text : String} {low : Nat} {trees : List Tree}
    {state : State} (placed : PlacedBetween low state.cursor.offset trees.reverse) :
    PlacedBetween low state.cursor.offset [gather label text trees state] := by
  rw [placedBetween_cons, placedBetween_nil, gather, placed_node]
  generalize trees.reverse = children at placed ⊢
  simp only [Tree.span]
  cases children with
  | nil =>
      have ordered := placed.le
      simp [spanOf, Cursor.spanTo, ordered]
  | cons first rest =>
      obtain ⟨front, last, parted⟩ : ∃ front last, first :: rest = front ++ [last] :=
        ⟨_, _, (List.dropLast_concat_getLast (List.cons_ne_nil first rest)).symm⟩
      have spanEq : spanOf (state.cursor.spanTo state.cursor) (first :: rest) =
          first.span.cover last.span := by
        have lastEq : (first :: rest).getLast? = some last := by simp [parted]
        simp only [spanOf, List.head?_cons, lastEq]
      rcases placedBetween_cons.1 placed with ⟨begins, own, others⟩
      have fromFirst : PlacedBetween first.span.startByte state.cursor.offset (first :: rest) :=
        placedBetween_cons.2 ⟨Nat.le_refl _, own, others⟩
      rw [parted] at fromFirst
      rcases placedBetween_append.1 fromFirst with ⟨middle, before, here⟩
      rcases placedBetween_cons.1 here with ⟨after, lastOwn, ends⟩
      rw [spanEq, parted]
      refine ⟨begins, placedBetween_append.2 ⟨middle, before, ?_⟩, ends.le⟩
      exact placedBetween_cons.2 ⟨after, lastOwn, placedBetween_nil.2 (Nat.le_refl _)⟩

theorem placedBetween_of_retarget {low : Nat} {trees patterns : List Tree} {state : State}
    (placed : PlacedBetween low state.cursor.offset trees.reverse)
    (turned : retarget trees state = some patterns) :
    PlacedBetween low state.cursor.offset patterns.reverse := by
  rcases Option.map_eq_some_iff.1 turned with ⟨targets, targetsEq, rfl⟩
  have targetsPlaced := placedBetween_of_toTargets? placed (toTargets?_reverse targetsEq)
  split
  · exact placedBetween_gather targetsPlaced
  · exact targetsPlaced

theorem placedBetween_token {label : Label} {length low : Nat} {trees : List Tree}
    {state : State} (placed : PlacedBetween low state.cursor.offset trees.reverse) :
    PlacedBetween low (state.cursor.advance length).offset
      (tokenLeaf label length state :: trees).reverse := by
  rw [List.reverse_cons]
  refine placedBetween_append.2 ⟨_, placed, ?_⟩
  exact placedBetween_cons.2 ⟨Nat.le_refl _, placed_leaf (Cursor.offset_le_advance _ _),
    placedBetween_nil.2 (Nat.le_refl _)⟩

theorem Skips.placedBetween {gap : Gap} {low : Nat} {trees trees' : List Tree}
    {state state' : State} (skips : Skips gap trees state trees' state')
    (placed : PlacedBetween low state.cursor.offset trees.reverse) :
    PlacedBetween low state'.cursor.offset trees'.reverse := by
  rcases skips with ⟨budget, cursor, skipped, rfl⟩
  exact Layout.placedBetween_of_skipGap placed skipped

variable {σ : Type} {grammar : σ → Rule σ}

/-- Reading a rule keeps the nodes in scope placed. -/
theorem Reads.placedBetween {rule : Rule σ} {mode : Mode} {trees trees' : List Tree}
    {state state' : State} (reads : Reads grammar rule mode trees state trees' state') {low : Nat}
    (placed : PlacedBetween low state.cursor.offset trees.reverse) :
    PlacedBetween low state'.cursor.offset trees'.reverse := by
  induction reads generalizing low with
  | empty | check | lineEnd | indent | dedent | textEnd | manyNone => exact placed
  | token spells =>
      rw [← spells.cursor_eq] at placed
      exact placedBetween_token placed
  | gap skips | follow skips | resume skips => exact skips.placedBetween placed
  | seq _ _ left right => exact right (left placed)
  | first _ taken | second _ taken | branchNo _ taken => exact taken placed
  | branchYes _ _ _ taken => exact taken placed
  | manyLast _ once => exact once placed
  | manyMore _ _ once more => exact more (once placed)
  | @scope rule mode trees state inner state' _ inside =>
      have innerPlaced := inside (placedBetween_nil.2 (Nat.le_refl state.cursor.offset))
      rw [List.reverse_append]
      exact placedBetween_append.2 ⟨_, placed, innerPlaced⟩
  | wrap _ inside | wrapBySome _ _ inside => exact placedBetween_gather (inside placed)
  | wrapByNone _ _ inside | within _ inside | conditional _ _ inside | call _ inside =>
      exact inside placed
  | @literal rule mode trees state inner state' _ inside =>
      have innerPlaced := inside (placedBetween_nil.2 (Nat.le_refl state.cursor.offset))
      rw [List.reverse_cons]
      exact placedBetween_append.2 ⟨_, placed, placedBetween_gather innerPlaced⟩
  | role =>
      rw [← List.map_reverse]
      exact placed.map _ (span_withField _) fun _ own => own.withField _
  | targets turned => exact placedBetween_of_retarget placed turned
  | @emptyBlock mode trees state =>
      rw [List.reverse_cons]
      exact placedBetween_append.2 ⟨_, placed,
        placedBetween_gather (placedBetween_nil.2 (Nat.le_refl state.cursor.offset))⟩

end Rule

/-- The tree of a text is made of a reading of its statements. -/
theorem exists_reads_of_parse {text : String} {tree : Tree} (parsed : parse text = .ok tree) :
    ∃ mode state trees state',
      Rule.Reads Grammar.rule (.seq (.call .statements) .textEnd) mode [] state trees state' ∧
      tree =
        let finish := state'.cursor.spanTo state'.cursor
        let start := (trees.reverse.head?.map Tree.span).getD finish
        .node (.construct .module) none (start.cover finish) "" trees.reverse := by
  unfold parse at parsed
  split at parsed
  · rename_i trees state read
    exact ⟨_, _, trees, state, Rule.reads_of_run read, (Except.ok.inj parsed).symm⟩
  · cases parsed

/-- The tree of a text is placed. -/
theorem placed_of_parse {text : String} {tree : Tree} (parsed : parse text = .ok tree) :
    tree.Placed := by
  obtain ⟨mode, state, trees, state', reads, rfl⟩ := exists_reads_of_parse parsed
  have placed := reads.placedBetween (placedBetween_nil.2 (Nat.le_refl state.cursor.offset))
  rw [placed_node]
  cases children : trees.reverse with
  | nil => exact placedBetween_nil.2 (Nat.le_refl _)
  | cons first rest =>
      rw [children] at placed
      rcases placedBetween_cons.1 placed with ⟨-, own, others⟩
      exact placedBetween_cons.2 ⟨Nat.le_refl _, own, others⟩

end SemanticDiff.Source
