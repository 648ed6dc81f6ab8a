import SemanticDiff.Feature.Extraction
import SemanticDiff.Proofs.Source.Form

/-!
# Features depend on the form only

Renderings, facts and headers are the same for all trees of one form.  Where a
definition stands matters only for finding it.
-/

namespace SemanticDiff.Feature

open SemanticDiff.Source (Tree Kind Label Span Field)
open SemanticDiff.Source.Tree

/-! ## Renderings -/

theorem isTrailingComma_form (around : Label) (tree : Tree) (next : Option Tree) :
    isTrailingComma around tree.form (next.map form) = isTrailingComma around tree next := by
  cases next <;> simp [isTrailingComma]

mutual

theorem tokens_form (parent : Option Kind) : (tree : Tree) →
    tokens parent tree.form = tokens parent tree
  | .node label field span text children => by
      rw [form_node, tokens, tokens, tokensAll_form label children, List.isEmpty_map]

theorem tokensAll_form (around : Label) : (trees : List Tree) →
    tokensAll around (trees.map form) = tokensAll around trees
  | [] => rfl
  | tree :: trees => by
      rw [List.map_cons, tokensAll, tokensAll, List.head?_map, isTrailingComma_form,
        tokens_form (kindOf? around) tree, tokensAll_form around trees]

end

@[simp]
theorem render_form (tree : Tree) : render tree.form = render tree := by
  rw [render, tokens_form, render]

theorem map_render_form (trees : List Tree) : (trees.map form).map render = trees.map render := by
  rw [List.map_map]
  congr 1
  exact funext render_form

/-! ## Facts -/

mutual

theorem unwrap_form : (tree : Tree) → unwrap tree.form = (unwrap tree).form
  | .node label field span text children => by
      rw [form_node, unwrap, unwrap, unwrapFirst_form children]
      split
      · cases unwrapFirst children <;> simp [form_node]
      · rw [form_node]

theorem unwrapFirst_form : (trees : List Tree) →
    unwrapFirst (trees.map form) = (unwrapFirst trees).map form
  | [] => rfl
  | tree :: trees => by
      rw [List.map_cons, unwrapFirst, unwrapFirst, isNamed_form, unwrap_form tree,
        unwrapFirst_form trees]
      split <;> rfl

end

theorem headD_form (trees : List Tree) (fallback : Tree) :
    (trees.map form).headD fallback.form = (trees.headD fallback).form := by
  cases trees <;> rfl

theorem caughtTypes_form (children : List Tree) :
    caughtTypes (children.map form) = caughtTypes children := by
  have notComment (trees : List Tree) :
      (trees.map form).filter (fun child => !child.is .comment) =
        (trees.filter fun child => !child.is .comment).map form :=
    filter_form _ (fun tree => by rw [is_form]) trees
  unfold caughtTypes
  rw [filter_form _ isNamed_form, find?_form _ (fun tree => by rw [is_form, is_form])]
  cases (children.filter Tree.isNamed).find? fun child =>
      !(child.is .block || child.is .comment) with
  | none => rfl
  | some expression =>
      simp only [Option.map_some, is_form, namedChildren_form, headD_form, ← apply_ite form,
        unwrap_form, notComment, map_render_form, render_form]

theorem importedModules_form (children : List Tree) :
    importedModules (children.map form) = importedModules children := by
  rw [importedModules, filter_form _ isNamed_form, List.filterMap_map, importedModules]
  congr 1
  funext child
  simp only [Function.comp_def, is_form, render_form, childWith?_form, Option.map_map]

theorem importedFrom_form (children : List Tree) :
    importedFrom (children.map form) = importedFrom children := by
  rw [importedFrom, find?_form _ (fun tree => by rw [field_form]), Option.map_map, importedFrom]
  congr 2
  exact funext render_form

theorem ownFacts_form (kind : Kind) (children : List Tree) :
    ownFacts kind (children.map form) = ownFacts kind children := by
  have declared : (children.map form).any (fun child => child.field == some .declaredType) =
      children.any fun child => child.field == some .declaredType :=
    any_form _ (fun tree => by rw [field_form]) children
  simp only [ownFacts, caughtTypes_form, importedModules_form, importedFrom_form, declared]

mutual

theorem factsOf_form : (tree : Tree) → factsOf tree.form = factsOf tree
  | .node label field span text children => by
      rw [form_node]
      unfold factsOf
      split
      case h_4 =>
          rw [find?_form _ (fun tree => by rw [field_form]), Option.map_map]
          simp only [Function.comp_def, label_form]
      case h_7 kind _ _ _ _ _ => rw [ownFacts_form, factsOfAll_form children]
      all_goals rfl

theorem factsOfAll_form : (trees : List Tree) → factsOfAll (trees.map form) = factsOfAll trees
  | [] => rfl
  | tree :: trees => by
      rw [List.map_cons, factsOfAll, factsOfAll, factsOf_form tree, factsOfAll_form trees]

end

@[simp]
theorem isDocstring_form (statement : Tree) : isDocstring statement.form = isDocstring statement := by
  rw [isDocstring, isDocstring, is_form, namedChildren_form]
  cases statement.namedChildren with
  | nil => rfl
  | cons first rest =>
      cases rest with
      | nil => simp
      | cons => rfl

theorem withoutDocstring_form (trees : List Tree) :
    withoutDocstring (trees.map form) = (withoutDocstring trees).map form := by
  induction trees with
  | nil => rfl
  | cons tree trees ih =>
      rw [List.map_cons, withoutDocstring, withoutDocstring, isNamed_form, is_form, ih,
        isDocstring_form]
      split
      · rfl
      · split <;> rfl

@[simp]
theorem scopeFacts_form (body : Tree) : scopeFacts body.form = scopeFacts body := by
  rw [scopeFacts, children_form, withoutDocstring_form, factsOfAll_form, scopeFacts]

/-! ## Headers -/

/-- A definition without its place. -/
def Located.form (located : Located) : Located where
  tree := located.tree.form
  parent := located.parent.map Tree.form

theorem namesOfDecorators_form (located : Located) :
    namesOfDecorators located.form = namesOfDecorators located := by
  rcases located with ⟨tree, parent⟩
  cases parent with
  | none => rfl
  | some parent =>
      simp only [namesOfDecorators, Located.form, Option.map_some, is_form, namedChildren_form]
      rw [filter_form _ (is_form _), List.filterMap_map]
      congr 2
      funext decorator
      simp only [Function.comp_def, namedChildren_form, List.head?_map, Option.map_map, is_form,
        childWith?_form]
      congr 1
      funext expression
      split
      · cases expression.childWith? .callee <;> simp
      · exact render_form expression

theorem listedItems_form (list : Tree) : listedItems list.form = (listedItems list).map form := by
  rw [listedItems, namedChildren_form, filter_form _ (fun tree => by rw [is_form]), listedItems]

theorem renderItems_form (list : Tree) : renderItems list.form = renderItems list := by
  rw [renderItems, listedItems_form, map_render_form, renderItems]

theorem functionHeader_form (located : Located) :
    functionHeader located.form = functionHeader located := by
  have async : located.form.tree.children.any (·.isLiteral "async") =
      located.tree.children.any (·.isLiteral "async") := by
    rw [Located.form, children_form, any_form _ (isLiteral_form "async")]
  have defaults (items : List Tree) :
      ((items.map form).filter hasDefault).length = (items.filter hasDefault).length := by
    rw [filter_form _ (fun tree => by simp only [hasDefault, is_form]), List.length_map]
  have annotated (items : List Tree) : (items.map form).any isAnnotated = items.any isAnnotated :=
    any_form _ (fun tree => by simp only [isAnnotated, is_form]) items
  have parameters : located.form.tree.childWith? .parameters =
      (located.tree.childWith? .parameters).map form := childWith?_form _ _
  have result : located.form.tree.childWith? .returnType =
      (located.tree.childWith? .returnType).map form := childWith?_form _ _
  simp only [functionHeader, namesOfDecorators_form, async, parameters, result]
  cases located.tree.childWith? .parameters <;> cases located.tree.childWith? .returnType <;>
    simp [listedItems_form, renderItems_form, defaults, annotated]

theorem classHeader_form (located : Located) :
    classHeader located.form = classHeader located := by
  have superclasses : located.form.tree.childWith? .superclasses =
      (located.tree.childWith? .superclasses).map form := childWith?_form _ _
  rw [classHeader, namesOfDecorators_form, superclasses, classHeader]
  cases located.tree.childWith? .superclasses <;> simp [renderItems_form]

theorem headFacts_form (definition : Tree) (role : Field) :
    headFacts definition.form role = headFacts definition role := by
  rw [headFacts, childWith?_form, Option.map_map, headFacts]
  congr 2
  funext part
  rw [Function.comp_apply, children_form, factsOfAll_form]

theorem bodyFacts_form (definition : Tree) : bodyFacts definition.form = bodyFacts definition := by
  rw [bodyFacts, childWith?_form, Option.map_map, bodyFacts]
  congr 2
  exact funext scopeFacts_form

end SemanticDiff.Feature
