import SemanticDiff.Proofs.Feature.Location
import SemanticDiff.Proofs.Source.Nesting

/-!
# Changes seen from outside

Two trees that differ at one place only, inside a definition, look the same from
everywhere else.  No scope sees into a nested definition, and no header holds one;
so the facts of all scopes around the place, and the profiles of all definitions
apart from the changed ones, are the same.
-/

namespace SemanticDiff.Feature

open SemanticDiff.Source (Tree Kind Label Field Span Rank)
open SemanticDiff.Source.Tree
open SemanticDiff.Outline (Key Node NodeKind definitionKind? definitionName)

/-! ## Differences -/

/-- The key that the definitions directly inside a node belong to. -/
def keyWithin (key : Key) (label : Label) (children : List Tree) : Key :=
  match definitionKind? label with
  | some _ => key.child (definitionName children)
  | none => key

/-- Two trees are the same but for one place, where they are related.  The key is
that of the definition around. -/
inductive Differs (edit : Key → Tree → Tree → Prop) : Key → Tree → Tree → Prop
  | here {key : Key} {old new : Tree} (edited : edit key old new) : Differs edit key old new
  | inside {key : Key} {label : Label} {field : Option Field} {span : Span} {text : String}
      {before after : List Tree} {old new : Tree}
      (differs : Differs edit (keyWithin key label (before ++ old :: after)) old new) :
      Differs edit key (.node label field span text (before ++ old :: after))
        (.node label field span text (before ++ new :: after))

/-- The decorators before a definition are the same. -/
def SameDecorators (parent parent' : Option Tree) : Prop :=
  ∀ tree tree' : Tree, namesOfDecorators ⟨tree, parent⟩ = namesOfDecorators ⟨tree', parent'⟩

/-- A change at a definition statement that cannot be seen from outside, but for
the profiles of some keys. -/
structure IsLocal (edit : Key → Tree → Tree → Prop) (inside : Key → Prop) : Prop where
  holds : ∀ {key old new}, edit key old new →
    old.holdsDefinition = true ∧ new.holdsDefinition = true
  statement : ∀ {key old new}, edit key old new →
    old.label.isDefinition = true ∨ old.label = .construct .decoratedDefinition
  facts : ∀ {key old new}, edit key old new → old.Nests → new.Nests → factsOf old = factsOf new
  profiles : ∀ {key old new}, edit key old new → old.Nests → new.Nests →
    ∀ {parent parent'}, SameDecorators parent parent' → ∀ profile, ¬ inside profile.1 →
      (profile ∈ profilesOf parent key old ↔ profile ∈ profilesOf parent' key new)

variable {edit : Key → Tree → Tree → Prop} {inside : Key → Prop} {key : Key} {old new : Tree}
  {before after : List Tree}

namespace Differs

theorem holds (isLocal : IsLocal edit inside) (differs : Differs edit key old new) :
    old.holdsDefinition = true ∧ new.holdsDefinition = true := by
  induction differs with
  | here edited => exact isLocal.holds edited
  | inside _ ih =>
      exact ⟨holdsDefinition_of_mem (by simp) ih.1, holdsDefinition_of_mem (by simp) ih.2⟩

end Differs

/-! ## Places of a definition -/

/-- A tree with definitions in it stands where its rank may stand. -/
theorem exists_rank_of_nests {label : Label} {field : Option Field} {span : Span} {text : String}
    {tree : Tree} (nests : (node label field span text (before ++ tree :: after)).Nests)
    (holds : tree.holdsDefinition = true) :
    tree.Nests ∧ ∃ rank, label.admits rank = true ∧ tree.HasRank rank := by
  rcases nests_node.1 nests with ⟨admitted, inside⟩
  exact ⟨allNest_iff.1 inside tree (by simp), admitted tree (by simp) holds⟩

theorem hasRank_body_of_admits {label : Label} {rank : Rank} {tree : Tree}
    (defines : label.isDefinition = true) (admits : label.admits rank = true)
    (has : tree.HasRank rank) : tree.HasRank .body := by
  rcases Label.isDefinition_iff.1 defines with rfl | rfl <;>
    · rw [of_decide_eq_true admits] at has
      exact has

theorem hasRank_decorated_of_admits {rank : Rank} {tree : Tree}
    (admits : Label.admits (.construct .decoratedDefinition) rank = true)
    (has : tree.HasRank rank) : tree.HasRank .decorated := by
  rw [of_decide_eq_true admits] at has
  exact has

/-- A tree with a rank is a statement and no docstring. -/
theorem isStatement_of_hasRank {rank : Rank} {tree : Tree} (has : tree.HasRank rank) :
    tree.isNamed = true ∧ tree.is .comment = false ∧ isDocstring tree = false := by
  have known : ∀ kind : Kind, (Label.construct kind).rank? ≠ none →
      kind ≠ .comment ∧ kind ≠ .expressionStatement := by
    intro kind ranked
    constructor <;> rintro rfl <;> exact ranked rfl
  have ranked : tree.label.rank? ≠ none := by
    cases rank with
    | decorated =>
        rcases Label.isDefinition_iff.1 has.1 with same | same <;>
          · rw [same]
            exact Option.some_ne_none _
    | body =>
        rw [has.1]
        exact Option.some_ne_none _
    | _ =>
        change tree.label.rank? = _ at has
        rw [has]
        exact Option.some_ne_none _
  rw [isNamed, is, isDocstring, is]
  cases label : tree.label with
  | literal text =>
      rw [label] at ranked
      exact absurd rfl ranked
  | construct kind =>
      rw [label] at ranked
      rcases known kind ranked with ⟨noComment, noExpression⟩
      simp [noComment, noExpression]

/-! ## Facts around a change -/

theorem factsOfAll_congr (same : factsOf old = factsOf new) :
    factsOfAll (before ++ old :: after) = factsOfAll (before ++ new :: after) := by
  induction before with
  | nil => rw [List.nil_append, List.nil_append, factsOfAll, factsOfAll, same]
  | cons tree before ih => rw [List.cons_append, List.cons_append, factsOfAll, factsOfAll, ih]

/-- The docstring of a body does not depend on a statement that is none. -/
theorem factsOfAll_withoutDocstring_congr (same : factsOf old = factsOf new) {rank rank' : Rank}
    (oldRank : old.HasRank rank) (newRank : new.HasRank rank') :
    factsOfAll (withoutDocstring (before ++ old :: after)) =
      factsOfAll (withoutDocstring (before ++ new :: after)) := by
  have kept {tree : Tree} {rank : Rank} (has : tree.HasRank rank) :
      withoutDocstring (tree :: after) = tree :: after := by
    obtain ⟨named, noComment, noDocstring⟩ := isStatement_of_hasRank has
    simp [withoutDocstring, named, noComment, noDocstring]
  induction before with
  | nil =>
      rw [List.nil_append, List.nil_append, kept oldRank, kept newRank, factsOfAll, factsOfAll,
        same]
  | cons tree before ih =>
      rw [List.cons_append, List.cons_append, withoutDocstring, withoutDocstring]
      split
      · rw [factsOfAll, factsOfAll, ih]
      · split
        · exact factsOfAll_congr same
        · rw [factsOfAll, factsOfAll, factsOfAll_congr same]

/-- A handler catches the same, whatever its block holds. -/
theorem caughtTypes_congr (oldBody : old.HasRank .body) (newBody : new.HasRank .body) :
    caughtTypes (before ++ old :: after) = caughtTypes (before ++ new :: after) := by
  have skipped {tree : Tree} (body : tree.HasRank .body) :
      ((before ++ tree :: after).filter Tree.isNamed).find?
          (fun child => !(child.is .block || child.is .comment)) =
        ((before ++ after).filter Tree.isNamed).find?
          fun child => !(child.is .block || child.is .comment) := by
    have block : tree.is .block = true := by rw [is, body.1, beq_self_eq_true]
    rw [List.filter_append, List.filter_append, List.find?_append, List.find?_append,
      List.filter_cons_of_pos (isStatement_of_hasRank body).1,
      List.find?_cons_of_neg (by simp [block])]
  simp only [caughtTypes, skipped oldBody, skipped newBody]

theorem ownFacts_congr {kind : Kind} {rank rank' : Rank}
    (oldAdmits : (Label.construct kind).admits rank = true) (oldRank : old.HasRank rank)
    (newAdmits : (Label.construct kind).admits rank' = true) (newRank : new.HasRank rank') :
    ownFacts kind (before ++ old :: after) = ownFacts kind (before ++ new :: after) := by
  cases kind with
  | exceptClause | exceptGroupClause =>
      rw [of_decide_eq_true oldAdmits] at oldRank
      rw [of_decide_eq_true newAdmits] at newRank
      simp only [ownFacts, caughtTypes_congr oldRank newRank]
  | assignment | importStatement | importFromStatement => cases oldAdmits
  | _ => rfl

theorem factsOf_of_isDefinition {tree : Tree} (defines : tree.label.isDefinition = true) :
    factsOf tree = nestedFacts tree.label := by
  rcases tree with ⟨label, field, span, text, children⟩
  change label.isDefinition = true at defines
  rcases Label.isDefinition_iff.1 defines with rfl | rfl <;> rfl

/-- What a definition behind decorators counts for depends on its label only. -/
theorem factsOf_decorated_congr {field : Option Field} {span : Span} {text : String}
    (same : factsOf old = factsOf new) (oldRank : old.HasRank .decorated)
    (newRank : new.HasRank .decorated) :
    factsOf (node (.construct .decoratedDefinition) field span text (before ++ old :: after)) =
      factsOf (node (.construct .decoratedDefinition) field span text
        (before ++ new :: after)) := by
  rw [factsOf_of_isDefinition oldRank.1, factsOf_of_isDefinition newRank.1] at same
  rw [factsOf, factsOf, List.find?_append, List.find?_append,
    List.find?_cons_of_pos (by simp [oldRank.2]), List.find?_cons_of_pos (by simp [newRank.2])]
  cases before.find? fun child => child.field == some .definition with
  | none => simpa using same
  | some definition => rfl

/-- The facts of a tree do not depend on what is changed in its definitions. -/
theorem Differs.factsOf_eq (isLocal : IsLocal edit inside) (differs : Differs edit key old new)
    (oldNests : old.Nests) (newNests : new.Nests) : factsOf old = factsOf new := by
  induction differs with
  | here edited => exact isLocal.facts edited oldNests newNests
  | @inside _ label field span text before after old new differs ih =>
      obtain ⟨oldInside, rank, oldAdmits, oldRank⟩ :=
        exists_rank_of_nests oldNests (differs.holds isLocal).1
      obtain ⟨newInside, rank', newAdmits, newRank⟩ :=
        exists_rank_of_nests newNests (differs.holds isLocal).2
      have same := ih oldInside newInside
      by_cases decorated : label = .construct .decoratedDefinition
      · subst label
        exact factsOf_decorated_congr same (hasRank_decorated_of_admits oldAdmits oldRank)
          (hasRank_decorated_of_admits newAdmits newRank)
      · unfold factsOf
        split
        case h_4 => exact absurd rfl decorated
        case h_7 =>
            rw [ownFacts_congr oldAdmits oldRank newAdmits newRank, factsOfAll_congr same]
        all_goals rfl

/-- The facts of a scope do not depend on what is changed in its definitions. -/
theorem Differs.scopeFacts_eq (isLocal : IsLocal edit inside) (differs : Differs edit key old new)
    (oldNests : old.Nests) (newNests : new.Nests) (scope : old.label.isDefinition = false)
    (plain : old.label ≠ .construct .decoratedDefinition) : scopeFacts old = scopeFacts new := by
  cases differs with
  | here edited =>
      rcases isLocal.statement edited with definition | decorated
      · rw [scope] at definition
        cases definition
      · exact absurd decorated plain
  | inside differs =>
      obtain ⟨oldInside, rank, -, oldRank⟩ :=
        exists_rank_of_nests oldNests (differs.holds isLocal).1
      obtain ⟨newInside, rank', -, newRank⟩ :=
        exists_rank_of_nests newNests (differs.holds isLocal).2
      exact factsOfAll_withoutDocstring_congr (differs.factsOf_eq isLocal oldInside newInside)
        oldRank newRank

/-! ## Headers around a change -/

theorem childWith?_congr {label : Label} {field : Option Field} {span : Span} {text : String}
    {role : Field} (oldBody : old.field = some .body) (newBody : new.field = some .body)
    (other : role ≠ .body) :
    (node label field span text (before ++ old :: after)).childWith? role =
      (node label field span text (before ++ new :: after)).childWith? role := by
  have skipped {tree : Tree} (body : tree.field = some .body) :
      (before ++ tree :: after).find? (fun child => child.field == some role) =
        (before ++ after).find? fun child => child.field == some role := by
    rw [List.find?_append, List.find?_append,
      List.find?_cons_of_neg (by simpa [body] using Ne.symm other)]
  exact (skipped oldBody).trans (skipped newBody).symm

theorem definitionName_congr (oldBody : old.field = some .body) (newBody : new.field = some .body) :
    definitionName (before ++ old :: after) = definitionName (before ++ new :: after) := by
  have same := @childWith?_congr old new before after (.literal "") none .nowhere "" .name oldBody
    newBody (by decide)
  exact congrArg (fun found => (found.map Tree.text).getD "") same

/-- What is measured about a definition depends on the facts of its body only. -/
theorem measureAt_congr {label : Label} {field : Option Field} {span : Span} {text : String}
    {parent parent' : Option Tree} (oldBody : old.HasRank .body) (newBody : new.HasRank .body)
    (same : scopeFacts old = scopeFacts new) (decorators : SameDecorators parent parent')
    {kind : NodeKind} (definition : kind ≠ .module) :
    measureAt kind ⟨node label field span text (before ++ old :: after), parent⟩ =
      measureAt kind ⟨node label field span text (before ++ new :: after), parent'⟩ := by
  have role {role : Field} (other : role ≠ .body) :
      (node label field span text (before ++ old :: after)).childWith? role =
        (node label field span text (before ++ new :: after)).childWith? role :=
    childWith?_congr oldBody.2 newBody.2 other
  have async : (before ++ old :: after).any (·.isLiteral "async") =
      (before ++ new :: after).any (·.isLiteral "async") := by
    simp [isLiteral, oldBody.1, newBody.1]
  have body : bodyFacts (node label field span text (before ++ old :: after)) =
      bodyFacts (node label field span text (before ++ new :: after)) := by
    rw [bodyFacts, bodyFacts, childWith?, childWith?, children, children, List.find?_append,
      List.find?_append, List.find?_cons_of_pos (by simp [oldBody.2]),
      List.find?_cons_of_pos (by simp [newBody.2])]
    cases before.find? fun child => child.field == some .body with
    | none => simpa using same
    | some found => rfl
  have head {role' : Field} (other : role' ≠ .body) :
      headFacts (node label field span text (before ++ old :: after)) role' =
        headFacts (node label field span text (before ++ new :: after)) role' := by
    rw [headFacts, role other, headFacts]
  cases kind with
  | module => exact absurd rfl definition
  | functionDef =>
      simp only [measureAt, functionHeader, children, decorators _ (node label field span text
        (before ++ new :: after)), role (by decide : Field.parameters ≠ .body),
        role (by decide : Field.returnType ≠ .body), async, body,
        head (by decide : Field.parameters ≠ .body)]
  | classDef =>
      simp only [measureAt, classHeader, decorators _ (node label field span text
        (before ++ new :: after)), role (by decide : Field.superclasses ≠ .body), body,
        head (by decide : Field.superclasses ≠ .body)]

/-! ## Profiles around a change -/

/-- The profile of a node itself, if it is a definition. -/
def ownProfiles (parent : Option Tree) (key : Key) (label : Label) (tree : Tree) :
    List (Key × NodeKind × Header × Facts) :=
  match definitionKind? label with
  | some kind => [(key.child (definitionName tree.children), kind, measureAt kind ⟨tree, parent⟩)]
  | none => []

theorem profilesOf_node (parent : Option Tree) (key : Key) (label : Label) (field : Option Field)
    (span : Span) (text : String) (children : List Tree) :
    profilesOf parent key (node label field span text children) =
      ownProfiles parent key label (node label field span text children) ++
        profilesOfAll (node label field span text children) (keyWithin key label children)
          children := by
  rw [profilesOf, sitesOf, ownProfiles, keyWithin]
  cases definitionKind? label <;> rfl

theorem profilesOfAll_append (parent : Tree) (key : Key) (first second : List Tree) :
    profilesOfAll parent key (first ++ second) =
      profilesOfAll parent key first ++ profilesOfAll parent key second := by
  induction first with
  | nil => rfl
  | cons tree first ih =>
      rw [List.cons_append, profilesOfAll_cons, profilesOfAll_cons, ih, List.append_assoc]

theorem measureAt_eq_of_sameDecorators {parent parent' : Option Tree}
    (same : SameDecorators parent parent') (kind : NodeKind) (tree : Tree) :
    measureAt kind ⟨tree, parent⟩ = measureAt kind ⟨tree, parent'⟩ := by
  cases kind with
  | module => rfl
  | functionDef => simp only [measureAt, functionHeader, same tree tree]
  | classDef => simp only [measureAt, classHeader, same tree tree]

/-- Of what is around a definition only its decorators matter. -/
theorem profilesOf_eq_of_sameDecorators {parent parent' : Option Tree}
    (same : SameDecorators parent parent') (key : Key) (tree : Tree) :
    profilesOf parent key tree = profilesOf parent' key tree := by
  rcases tree with ⟨label, field, span, text, children⟩
  rw [profilesOf_node, profilesOf_node, ownProfiles, ownProfiles]
  cases definitionKind? label with
  | none => rfl
  | some kind => simp only [measureAt_eq_of_sameDecorators same]

theorem profilesOfAll_eq_of_sameDecorators {parent parent' : Tree}
    (same : SameDecorators (some parent) (some parent')) (key : Key) (trees : List Tree) :
    profilesOfAll parent key trees = profilesOfAll parent' key trees := by
  induction trees with
  | nil => rfl
  | cons tree trees ih =>
      rw [profilesOfAll_cons, profilesOfAll_cons, profilesOf_eq_of_sameDecorators same, ih]

/-- A node that is no decorated definition has no decorators. -/
theorem sameDecorators_of_not_decorated {parent parent' : Tree}
    (first : parent.label ≠ .construct .decoratedDefinition)
    (second : parent'.label ≠ .construct .decoratedDefinition) :
    SameDecorators (some parent) (some parent') := by
  intro tree tree'
  simp [namesOfDecorators, is, first, second]

theorem sameDecorators_congr {field : Option Field} {span : Span} {text : String}
    (oldRank : old.HasRank .decorated) (newRank : new.HasRank .decorated) :
    SameDecorators
      (some (node (.construct .decoratedDefinition) field span text (before ++ old :: after)))
      (some (node (.construct .decoratedDefinition) field span text (before ++ new :: after))) := by
  have skipped {tree : Tree} (has : tree.HasRank .decorated) :
      ((before ++ tree :: after).filter isNamed).filter (·.is .decorator) =
        ((before ++ after).filter isNamed).filter (·.is .decorator) := by
    have other : tree.is .decorator = false := by
      rcases Label.isDefinition_iff.1 has.1 with same | same <;> rw [is, same] <;> rfl
    rw [List.filter_append, List.filter_append, List.filter_append, List.filter_append,
      List.filter_cons_of_pos (isStatement_of_hasRank has).1,
      List.filter_cons_of_neg (by simp [other])]
  intro tree tree'
  simp only [namesOfDecorators, namedChildren, children, skipped oldRank, skipped newRank]
  rfl

/-- A node has the same profiles as another one that differs in one child, if the
children have. -/
theorem mem_profilesOf_node_iff {label : Label} {field : Option Field} {span : Span} {text : String}
    {parent parent' : Option Tree} (decorators : SameDecorators parent parent')
    (around : SameDecorators (some (node label field span text (before ++ old :: after)))
      (some (node label field span text (before ++ new :: after))))
    (body : label.isDefinition = true →
      old.HasRank .body ∧ new.HasRank .body ∧ scopeFacts old = scopeFacts new)
    {profile : Key × NodeKind × Header × Facts}
    (same : ∀ parent,
      profile ∈ profilesOf parent (keyWithin key label (before ++ old :: after)) old ↔
        profile ∈ profilesOf parent (keyWithin key label (before ++ old :: after)) new) :
    profile ∈ profilesOf parent key (node label field span text (before ++ old :: after)) ↔
      profile ∈ profilesOf parent' key (node label field span text (before ++ new :: after)) := by
  have own : ownProfiles parent key label (node label field span text (before ++ old :: after)) =
      ownProfiles parent' key label (node label field span text (before ++ new :: after)) ∧
      keyWithin key label (before ++ old :: after) =
        keyWithin key label (before ++ new :: after) := by
    rw [ownProfiles, ownProfiles, keyWithin, keyWithin]
    cases defines : definitionKind? label with
    | none => exact ⟨rfl, rfl⟩
    | some kind =>
        obtain ⟨oldBody, newBody, sameFacts⟩ := body (isDefinition_of_definitionKind? defines)
        have sameName := @definitionName_congr old new before after oldBody.2 newBody.2
        simp only [children, sameName, measureAt_congr oldBody newBody sameFacts decorators
          (definitionKind?_ne_module defines), and_self]
  rw [profilesOf_node, profilesOf_node, own.1, ← own.2,
    profilesOfAll_eq_of_sameDecorators around, profilesOfAll_append, profilesOfAll_append,
    profilesOfAll_cons, profilesOfAll_cons]
  simp only [List.mem_append, same]

/-- The profiles of all definitions but for some keys do not depend on the change. -/
theorem Differs.mem_profilesOf_iff (isLocal : IsLocal edit inside)
    (differs : Differs edit key old new) (oldNests : old.Nests) (newNests : new.Nests)
    {parent parent' : Option Tree} (decorators : SameDecorators parent parent')
    {profile : Key × NodeKind × Header × Facts} (outside : ¬ inside profile.1) :
    profile ∈ profilesOf parent key old ↔ profile ∈ profilesOf parent' key new := by
  induction differs generalizing parent parent' with
  | here edited => exact isLocal.profiles edited oldNests newNests decorators profile outside
  | @inside key label field span text before after old new differs ih =>
      obtain ⟨oldInside, rank, oldAdmits, oldRank⟩ :=
        exists_rank_of_nests oldNests (differs.holds isLocal).1
      obtain ⟨newInside, rank', newAdmits, newRank⟩ :=
        exists_rank_of_nests newNests (differs.holds isLocal).2
      apply mem_profilesOf_node_iff decorators
      · by_cases decorated : label = .construct .decoratedDefinition
        · subst label
          exact sameDecorators_congr (hasRank_decorated_of_admits oldAdmits oldRank)
            (hasRank_decorated_of_admits newAdmits newRank)
        · exact sameDecorators_of_not_decorated decorated decorated
      · intro isDefinition
        have oldBody := hasRank_body_of_admits isDefinition oldAdmits oldRank
        have newBody := hasRank_body_of_admits isDefinition newAdmits newRank
        exact ⟨oldBody, newBody, differs.scopeFacts_eq isLocal oldInside newInside
          (by rw [oldBody.1]; rfl) (by rw [oldBody.1]; nofun)⟩
      · intro parent
        exact ih oldInside newInside fun _ _ => rfl

/-! ## Trees without definitions -/

mutual

theorem profilesOf_eq_nil (parent : Option Tree) (key : Key) : {tree : Tree} →
    tree.holdsDefinition = false → profilesOf parent key tree = []
  | .node label field span text children, quiet => by
      rcases holdsDefinition_node_eq_false_iff.1 quiet with ⟨other, inside⟩
      rw [profilesOf_node, ownProfiles, definitionKind?_eq_none_iff.2 other,
        profilesOfAll_eq_nil _ _ inside]
      rfl

theorem profilesOfAll_eq_nil (parent : Tree) (key : Key) : {trees : List Tree} →
    (∀ tree ∈ trees, tree.holdsDefinition = false) → profilesOfAll parent key trees = []
  | [], _ => rfl
  | tree :: trees, quiet => by
      rcases List.forall_mem_cons.1 quiet with ⟨own, others⟩
      rw [profilesOfAll_cons, profilesOf_eq_nil _ _ own, profilesOfAll_eq_nil _ _ others]
      rfl

end

end SemanticDiff.Feature
