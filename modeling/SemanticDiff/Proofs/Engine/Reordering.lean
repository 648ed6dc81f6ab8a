import SemanticDiff.Proofs.Engine.Locality
import SemanticDiff.Proofs.Feature.Sum

/-!
# The order of statements does not matter

If the statements of one scope, be it the module or the body of a definition, are
put into another order, nothing is reported, as long as the docstring of the scope
remains its docstring.  Facts add up in any order, and definitions are matched by
their keys.  Only what is a docstring depends on the order.
-/

namespace SemanticDiff

open SemanticDiff.Feature (Differs)
open SemanticDiff.Outline (Key NodeKind SourceUnit)
open SemanticDiff.Source (Tree Label Field Span)
open SemanticDiff.Source.Tree

/-! ## Statements -/

namespace Feature

/-- The statements of a scope. -/
def statements (scope : Tree) : List Tree :=
  scope.children.filter isStatement

/-- The docstring of a scope: its first statement, if it is nothing but a string. -/
def docstring? (scope : Tree) : Option Tree :=
  (statements scope).head?.filter isDocstring

/-- Two scopes have the same statements, in whatever order, and the same docstring.
Comments and separators may stand anywhere. -/
structure Rearranges (old new : Tree) : Prop where
  perm : (statements old).Perm (statements new)
  docstring : docstring? old = docstring? new

theorem statements_form (scope : Tree) : statements scope.form = (statements scope).map form := by
  rw [statements, children_form, filter_form _ (fun tree => by simp [isStatement]), statements]

theorem docstring?_form (scope : Tree) : docstring? scope.form = (docstring? scope).map form := by
  rw [docstring?, docstring?, statements_form, List.head?_map]
  cases (statements scope).head? with
  | none => rfl
  | some first => by_cases documents : isDocstring first <;> simp [Option.filter, documents]

/-! ## Facts of a rearranged scope -/

theorem filter_withoutDocstring (trees : List Tree) :
    (withoutDocstring trees).filter isStatement = withoutDocstring (trees.filter isStatement) := by
  induction trees with
  | nil => rfl
  | cons tree trees ih =>
      rw [withoutDocstring_cons]
      by_cases statement : isStatement tree
      · rw [if_pos statement, List.filter_cons_of_pos statement, withoutDocstring_cons,
          if_pos statement]
        split
        · rfl
        · rw [List.filter_cons_of_pos statement]
      · rw [if_neg statement, List.filter_cons_of_neg statement, List.filter_cons_of_neg statement,
          ih]

/-- The facts of a scope are those of its statements. -/
theorem scopeFacts_eq_statements (scope : Tree) :
    scopeFacts scope = factsOfAll (withoutDocstring (statements scope)) := by
  rw [statements, ← filter_withoutDocstring, factsOfAll_filter, scopeFacts]
  intro tree _ other
  exact factsOf_of_not_isStatement other

/-- Statements in another order are the same without the docstring too. -/
theorem perm_withoutDocstring {first second : List Tree}
    (statement : ∀ tree ∈ first, isStatement tree = true) (perm : first.Perm second)
    (same : first.head?.filter isDocstring = second.head?.filter isDocstring) :
    (withoutDocstring first).Perm (withoutDocstring second) := by
  cases first with
  | nil => rw [perm.nil_eq]
  | cons tree trees =>
      cases second with
      | nil => cases perm.eq_nil
      | cons tree' trees' =>
          rw [withoutDocstring_cons, withoutDocstring_cons,
            if_pos (statement tree List.mem_cons_self),
            if_pos (statement tree' (perm.mem_iff.2 List.mem_cons_self))]
          rw [List.head?_cons, List.head?_cons, Option.filter_some, Option.filter_some] at same
          -- Either both runs begin with the one docstring, or neither has any.
          by_cases documents : isDocstring tree <;> by_cases documents' : isDocstring tree'
          · rw [if_pos documents, if_pos documents'] at same ⊢
            cases same
            exact perm.cons_inv
          · rw [if_pos documents, if_neg documents'] at same
            cases same
          · rw [if_neg documents, if_pos documents'] at same
            cases same
          · rw [if_neg documents, if_neg documents']
            exact perm

namespace Rearranges

variable {old new : Tree}

theorem scopeFacts_eq (rearranges : Rearranges old new) : scopeFacts old = scopeFacts new := by
  rw [scopeFacts_eq_statements, scopeFacts_eq_statements]
  apply factsOfAll_eq_of_perm
  apply perm_withoutDocstring _ rearranges.perm rearranges.docstring
  intro tree member
  exact (List.mem_filter.1 member).2

end Rearranges

/-! ## Profiles of a rearranged scope -/

theorem mem_profilesOfAll_iff {parent : Tree} {key : Key} {trees : List Tree}
    {profile : Key × NodeKind × Header × Facts} :
    profile ∈ profilesOfAll parent key trees ↔
      ∃ tree ∈ trees, profile ∈ profilesOf (some parent) key tree := by
  induction trees with
  | nil => simp [profilesOfAll, sitesOfAll]
  | cons tree trees ih => simp [profilesOfAll_cons, ih]

/-- All definitions of a scope are in its statements. -/
theorem mem_profilesOfAll_statements_iff {scope parent : Tree} {key : Key} (nests : scope.Nests)
    {profile : Key × NodeKind × Header × Facts} :
    profile ∈ profilesOfAll parent key scope.children ↔
      profile ∈ profilesOfAll parent key (statements scope) := by
  rcases scope with ⟨label, field, span, text, children⟩
  rw [mem_profilesOfAll_iff, mem_profilesOfAll_iff]
  constructor
  · rintro ⟨tree, member, here⟩
    refine ⟨tree, List.mem_filter.2 ⟨member, ?_⟩, here⟩
    have holds : tree.holdsDefinition = true := by
      rw [← Bool.not_eq_false]
      intro quiet
      rw [profilesOf_eq_nil _ _ quiet] at here
      cases here
    obtain ⟨rank, -, has⟩ := (nests_node.1 nests).1 tree member holds
    obtain ⟨named, noComment, -⟩ := isStatement_of_hasRank has
    rw [isStatement, named, noComment]
    rfl
  · rintro ⟨tree, member, here⟩
    exact ⟨tree, List.mem_of_mem_filter member, here⟩

/-- The tree is a module or a block. -/
def IsScope (tree : Tree) : Prop :=
  tree.label = .construct .module ∨ tree.label = .construct .block

theorem mem_profilesOf_scope_iff {scope : Tree} (isScope : IsScope scope) (nests : scope.Nests)
    {parent : Option Tree} {key : Key} {profile : Key × NodeKind × Header × Facts} :
    profile ∈ profilesOf parent key scope ↔
      profile ∈ profilesOfAll scope key (statements scope) := by
  rw [← mem_profilesOfAll_statements_iff nests]
  rcases scope with ⟨label, field, span, text, children⟩
  rw [profilesOf_node]
  rcases isScope with same | same <;>
    · rw [Tree.label] at same
      subst same
      rfl

theorem Rearranges.mem_profilesOf_iff {old new : Tree} (rearranges : Rearranges old new)
    (oldScope : IsScope old) (newScope : IsScope new) (oldNests : old.Nests) (newNests : new.Nests)
    {parent parent' : Option Tree} {key : Key} {profile : Key × NodeKind × Header × Facts} :
    profile ∈ profilesOf parent key old ↔ profile ∈ profilesOf parent' key new := by
  have plain {scope : Tree} (isScope : IsScope scope) :
      scope.label ≠ .construct .decoratedDefinition := by
    rcases isScope with same | same <;> rw [same] <;> nofun
  rw [mem_profilesOf_scope_iff oldScope oldNests, mem_profilesOf_scope_iff newScope newNests,
    profilesOfAll_eq_of_sameDecorators
      (sameDecorators_of_not_decorated (plain oldScope) (plain newScope)),
    mem_profilesOfAll_iff, mem_profilesOfAll_iff]
  simp only [rearranges.perm.mem_iff]

/-! ## Rearranged bodies -/

/-- The definition is the same but for the order of the statements in its body. -/
inductive Reorders (key : Key) : Tree → Tree → Prop
  | body {label : Label} {field : Option Field} {span : Span} {text : String}
      {before after : List Tree} {old new : Tree} (defines : label.isDefinition = true)
      (oldBody : old.HasRank .body) (newBody : new.HasRank .body)
      (rearranges : Rearranges old new) :
      Reorders key (.node label field span text (before ++ old :: after))
        (.node label field span text (before ++ new :: after))

/-- The order of statements cannot be seen from anywhere. -/
theorem isLocal_reorders : IsLocal Reorders fun _ => False where
  holds := by
    rintro key _ _ ⟨defines⟩
    constructor <;>
      · rw [holdsDefinition, defines]
        rfl
  statement := by
    rintro key _ _ ⟨defines⟩
    exact Or.inl defines
  facts := by
    intro key old new edited _ _
    cases edited with
    | @body label field span text _ _ _ _ defines =>
        have own (children : List Tree) :
            factsOf (node label field span text children) = nestedFacts label :=
          factsOf_of_isDefinition defines
        rw [own, own]
  profiles := by
    intro key old new edited oldNests newNests parent parent' decorators profile _
    cases edited with
    | @body label _ _ _ _ _ _ _ defines oldBody newBody rearranges =>
        have plain : label ≠ .construct .decoratedDefinition := by
          rintro rfl
          cases defines
        apply mem_profilesOf_node_iff decorators
        · exact sameDecorators_of_not_decorated plain plain
        · intro _
          exact ⟨oldBody, newBody, rearranges.scopeFacts_eq⟩
        · intro _
          exact rearranges.mem_profilesOf_iff (Or.inr oldBody.1) (Or.inr newBody.1)
            (allNest_iff.1 (nests_node.1 oldNests).2 _ (by simp))
            (allNest_iff.1 (nests_node.1 newNests).2 _ (by simp))

end Feature

/-! ## Units -/

/-- The units are the same but for the order of the statements in one scope: the
module or the body of a definition. -/
inductive Outline.SourceUnit.Reordered (before after : SourceUnit) : Prop
  | module (rearranges : Feature.Rearranges before.tree.form after.tree.form)
  | definition (differs : Differs Feature.Reorders .module before.tree.form after.tree.form)

variable {before after : SourceUnit}

/-- Units with the same statements in another order agree. -/
theorem Agree.of_reordered (beforeRead : before.IsRead) (afterRead : after.IsRead)
    (reordered : before.Reordered after) : Agree before after := by
  apply of_mem_profiles_iff beforeRead afterRead
  intro profile
  cases reordered with
  | module rearranges =>
      have isScope {unit : SourceUnit} (isRead : unit.IsRead) : Feature.IsScope unit.tree.form := by
        rw [isRead.form_eq]
        exact Or.inl rfl
      rw [beforeRead.profiles_eq_cons, afterRead.profiles_eq_cons, List.mem_cons, List.mem_cons,
        rearranges.scopeFacts_eq, rearranges.mem_profilesOf_iff (isScope beforeRead)
          (isScope afterRead) beforeRead.nests_form afterRead.nests_form]
  | definition differs =>
      exact SourceUnit.mem_profiles_iff_of_differs Feature.isLocal_reorders beforeRead afterRead
        differs id

namespace Engine

/-- Nothing is reported about statements that were put into another order, in
either direction and whatever the settings. -/
theorem diffUnits_of_reordered (engine : Engine) (beforeRead : before.IsRead)
    (afterRead : after.IsRead) (reordered : before.Reordered after) :
    engine.diffUnits before after = .ok [] ∧ engine.diffUnits after before = .ok [] := by
  have agree := Agree.of_reordered beforeRead afterRead reordered
  exact ⟨engine.diffUnits_eq_nil_of_agree beforeRead afterRead agree,
    engine.diffUnits_eq_nil_of_agree afterRead beforeRead agree.symm⟩

/-- Two functions that change places. -/
theorem diffUnits_of_reordered_functions :
    ∃ before after,
      SourceUnit.read "m.py" "r1" "def f(): pass\ndef g(): pass\n" = .ok before ∧
      SourceUnit.read "m.py" "r1" "def g(): pass\ndef f(): pass\n" = .ok after ∧
      default.diffUnits before after = .ok [] ∧ default.diffUnits after before = .ok [] := by
  have seen : ((SourceUnit.read "m.py" "r1" "def f(): pass\ndef g(): pass\n").toOption.bind
      fun before => (SourceUnit.read "m.py" "r1" "def g(): pass\ndef f(): pass\n").toOption.map
        fun after => sameFormAll (Feature.statements before.tree)
            (Feature.statements after.tree).reverse &&
          (Feature.docstring? before.tree).isNone && (Feature.docstring? after.tree).isNone) =
      some true := by
    decide +kernel
  obtain ⟨before, after, oldRead, newRead, view⟩ := exists_ok_of_bind_eq_some seen
  rw [Bool.and_eq_true, Bool.and_eq_true, sameFormAll_iff, formAll_eq_map, formAll_eq_map,
    Option.isNone_iff_eq_none, Option.isNone_iff_eq_none] at view
  rcases view with ⟨⟨swapped, oldPlain⟩, newPlain⟩
  have rearranges : Feature.Rearranges before.tree.form after.tree.form := by
    constructor
    · rw [Feature.statements_form, Feature.statements_form, swapped, List.map_reverse]
      exact List.reverse_perm _
    · rw [Feature.docstring?_form, Feature.docstring?_form, oldPlain, newPlain]
  exact ⟨before, after, oldRead, newRead, default.diffUnits_of_reordered
    (SourceUnit.isRead_of_read oldRead) (SourceUnit.isRead_of_read newRead) (.module rearranges)⟩

end Engine

end SemanticDiff
