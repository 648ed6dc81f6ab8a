import SemanticDiff.Proofs.Feature.Form
import SemanticDiff.Proofs.Outline.Descent
import SemanticDiff.Proofs.Source.Definition

/-!
# Definitions are found again

Every node of an outline stands for a definition of the syntax tree, and the
search by its place leads back to this definition.  Two definitions never fill
the same bytes, since a definition begins with a keyword of its own.  So what is
measured about the nodes of an outline depends on the form of the tree only.
-/

namespace SemanticDiff.Feature

open SemanticDiff.Source (Tree Kind Label Span IsHead)
open SemanticDiff.Source.Tree
open SemanticDiff.Outline (Key Node NodeKind definitionKind? definitionName definitionsOf
  definitionsOfAll)

/-! ## Sites -/

/-- A node of an outline with the definition it stands for. -/
structure Site where
  node : Node
  located : Located

mutual

/-- The sites of all definitions of a tree, in the order of their nodes. -/
def sitesOf (parent : Option Tree) (key : Key) : Tree → List Site
  | .node label field span text children =>
      let tree : Tree := .node label field span text children
      match definitionKind? label with
      | some kind =>
          let name := definitionName children
          let own := key.child name
          ⟨.mk own name kind span (definitionsOfAll own children), ⟨tree, parent⟩⟩ ::
            sitesOfAll tree own children
      | none => sitesOfAll tree key children

/-- The sites of all definitions of a run of trees. -/
def sitesOfAll (parent : Tree) (key : Key) : List Tree → List Site
  | [] => []
  | tree :: trees => sitesOf (some parent) key tree ++ sitesOfAll parent key trees

end

mutual

/-- The nodes of the sites are those of the outline. -/
theorem map_node_sitesOf (parent : Option Tree) (key : Key) : (tree : Tree) →
    (sitesOf parent key tree).map Site.node = Node.preorderAll (definitionsOf key tree)
  | .node label field span text children => by
      rw [sitesOf, definitionsOf]
      cases definitionKind? label with
      | none => exact map_node_sitesOfAll _ key children
      | some kind =>
          simp only [List.map_cons, Node.preorderAll, Node.preorder, List.append_nil]
          rw [map_node_sitesOfAll _ _ children]

theorem map_node_sitesOfAll (parent : Tree) (key : Key) : (trees : List Tree) →
    (sitesOfAll parent key trees).map Site.node = Node.preorderAll (definitionsOfAll key trees)
  | [] => rfl
  | tree :: trees => by
      rw [sitesOfAll, definitionsOfAll, List.map_append, Node.preorderAll_append,
        map_node_sitesOf (some parent) key tree, map_node_sitesOfAll parent key trees]

end

/-- The node of a site has the kind and the span of its definition, and the definitions
inside it are those inside the definition. -/
structure Site.Fits (site : Site) : Prop where
  kind : definitionKind? site.located.tree.label = some site.node.kind
  span : site.node.span = site.located.tree.span
  children : site.node.children = definitionsOfAll site.node.key site.located.tree.children

mutual

/-- A site stands for its definition.  What holds of a tree and passes on to children
holds of its definitions. -/
theorem fits_of_mem_sitesOf {good : Tree → Prop}
    (passes : ∀ tree : Tree, good tree → ∀ child ∈ tree.children, good child)
    {site : Site} {parent : Option Tree} {key : Key} : {tree : Tree} → good tree →
    site ∈ sitesOf parent key tree → site.Fits ∧ good site.located.tree
  | .node label field span text children, holds, member => by
      rw [sitesOf] at member
      cases defines : definitionKind? label with
      | none =>
          simp only [defines] at member
          exact fits_of_mem_sitesOfAll passes (passes _ holds) member
      | some kind =>
          simp only [defines] at member
          rcases List.mem_cons.1 member with rfl | below
          · exact ⟨⟨defines, rfl, rfl⟩, holds⟩
          · exact fits_of_mem_sitesOfAll passes (passes _ holds) below

theorem fits_of_mem_sitesOfAll {good : Tree → Prop}
    (passes : ∀ tree : Tree, good tree → ∀ child ∈ tree.children, good child)
    {site : Site} {parent : Tree} {key : Key} : {trees : List Tree} →
    (∀ tree ∈ trees, good tree) → site ∈ sitesOfAll parent key trees →
    site.Fits ∧ good site.located.tree
  | [], _, member => by simp [sitesOfAll] at member
  | tree :: trees, holds, member => by
      rcases List.forall_mem_cons.1 holds with ⟨own, others⟩
      rw [sitesOfAll] at member
      rcases List.mem_append.1 member with here | later
      · exact fits_of_mem_sitesOf passes own here
      · exact fits_of_mem_sitesOfAll passes others later

end

/-! ## The search -/

/-- The construct that a node of a kind stands for. -/
def construct : NodeKind → Kind
  | .module => .module
  | .classDef => .classDefinition
  | .functionDef => .functionDefinition

theorem label_of_definitionKind? {label : Label} {kind : NodeKind}
    (defines : definitionKind? label = some kind) : label = .construct (construct kind) := by
  unfold definitionKind? at defines
  split at defines <;> cases defines <;> rfl

theorem isDefinition_of_definitionKind? {label : Label} {kind : NodeKind}
    (defines : definitionKind? label = some kind) : label.isDefinition = true := by
  unfold definitionKind? at defines
  split at defines <;> cases defines <;> rfl

theorem definitionKind?_eq_none_iff {label : Label} :
    definitionKind? label = none ↔ label.isDefinition = false := by
  constructor
  · intro none
    rw [← Bool.not_eq_true, Label.isDefinition_iff]
    rintro (rfl | rfl) <;> cases none
  · intro other
    rw [Option.eq_none_iff_forall_ne_some]
    intro kind defines
    rw [isDefinition_of_definitionKind? defines] at other
    cases other

/-- A definition is not empty: its keyword is not. -/
theorem start_lt_end_of_isHead {low high : Nat} {children : List Tree}
    (placed : PlacedBetween low high children) (head : IsHead children) : low < high := by
  rcases head.keyword with ⟨first, rest, rfl, keyword⟩
  rcases placedBetween_cons.1 placed with ⟨begins, -, others⟩
  have nonempty := keyword.nonempty
  have after := others.le
  omega

mutual

/-- The definitions of a tree lie inside it, and none of them is empty. -/
theorem within_of_mem_sitesOf {site : Site} {parent : Option Tree} {key : Key} :
    {tree : Tree} → tree.Placed → tree.HeadsDefinitions → site ∈ sitesOf parent key tree →
    tree.span.startByte ≤ site.node.span.startByte ∧
      site.node.span.startByte < site.node.span.endByte ∧
      site.node.span.endByte ≤ tree.span.endByte
  | .node label field span text children, placed, heads, member => by
      rw [placed_node] at placed
      rcases headsDefinitions_node.1 heads with ⟨head, inside⟩
      rw [sitesOf] at member
      cases defines : definitionKind? label with
      | none =>
          simp only [defines] at member
          exact within_of_mem_sitesOfAll placed inside member
      | some kind =>
          simp only [defines] at member
          rcases List.mem_cons.1 member with rfl | below
          · exact ⟨Nat.le_refl _,
              start_lt_end_of_isHead placed (head (isDefinition_of_definitionKind? defines)),
              Nat.le_refl _⟩
          · exact within_of_mem_sitesOfAll placed inside below

theorem within_of_mem_sitesOfAll {site : Site} {parent : Tree} {key : Key} {low high : Nat} :
    {trees : List Tree} → PlacedBetween low high trees → AllHeadDefinitions trees →
    site ∈ sitesOfAll parent key trees →
    low ≤ site.node.span.startByte ∧ site.node.span.startByte < site.node.span.endByte ∧
      site.node.span.endByte ≤ high
  | [], _, _, member => by simp [sitesOfAll] at member
  | tree :: trees, placed, heads, member => by
      rcases placedBetween_cons.1 placed with ⟨begins, own, others⟩
      rw [allHeadDefinitions_cons] at heads
      rw [sitesOfAll] at member
      rcases List.mem_append.1 member with here | later
      · have within := within_of_mem_sitesOf own heads.1 here
        have after := others.le
        omega
      · have within := within_of_mem_sitesOfAll others heads.2 later
        have ordered := own.start_le_end
        omega

end

/-- Definitions inside a definition begin after its keyword. -/
theorem start_lt_of_isHead {site : Site} {parent : Tree} {key : Key} {low high : Nat}
    {children : List Tree} (placed : PlacedBetween low high children)
    (heads : AllHeadDefinitions children) (head : IsHead children)
    (member : site ∈ sitesOfAll parent key children) : low < site.node.span.startByte := by
  rcases head.keyword with ⟨first, rest, rfl, keyword⟩
  rcases placedBetween_cons.1 placed with ⟨begins, -, others⟩
  have none : sitesOf (some parent) key first = [] := by
    rcases keyword with ⟨leaf, literal, -⟩
    rcases first with ⟨label, field, span, text, children⟩
    cases leaf
    cases label with
    | construct => cases literal
    | literal => rfl
  rw [sitesOfAll, none, List.nil_append] at member
  rw [allHeadDefinitions_cons] at heads
  have within := within_of_mem_sitesOfAll others heads.2 member
  have nonempty := keyword.nonempty
  omega

mutual

/-- Definitions begin one after the other. -/
theorem pairwise_start_sitesOf {parent : Option Tree} {key : Key} :
    {tree : Tree} → tree.Placed → tree.HeadsDefinitions →
    (sitesOf parent key tree).Pairwise fun first second =>
      first.node.span.startByte < second.node.span.startByte
  | .node label field span text children, placed, heads => by
      rw [placed_node] at placed
      rcases headsDefinitions_node.1 heads with ⟨head, inside⟩
      rw [sitesOf]
      cases defines : definitionKind? label with
      | none => exact pairwise_start_sitesOfAll placed inside
      | some kind =>
          refine List.pairwise_cons.2 ⟨?_, pairwise_start_sitesOfAll placed inside⟩
          intro site member
          exact start_lt_of_isHead placed inside (head (isDefinition_of_definitionKind? defines))
            member

theorem pairwise_start_sitesOfAll {parent : Tree} {key : Key} {low high : Nat} :
    {trees : List Tree} → PlacedBetween low high trees → AllHeadDefinitions trees →
    (sitesOfAll parent key trees).Pairwise fun first second =>
      first.node.span.startByte < second.node.span.startByte
  | [], _, _ => List.Pairwise.nil
  | tree :: trees, placed, heads => by
      rcases placedBetween_cons.1 placed with ⟨-, own, others⟩
      rw [allHeadDefinitions_cons] at heads
      rw [sitesOfAll]
      refine List.pairwise_append.2 ⟨pairwise_start_sitesOf own heads.1,
        pairwise_start_sitesOfAll others heads.2, ?_⟩
      intro first firstMem second secondMem
      have before := within_of_mem_sitesOf own heads.1 firstMem
      have after := within_of_mem_sitesOfAll others heads.2 secondMem
      omega

end

/-- No tree that begins later reaches over a range. -/
theorem locateAmong_eq_none {kind : Kind} {range : Span} {parent : Tree} {low high : Nat}
    {trees : List Tree} (placed : PlacedBetween low high trees) (later : range.startByte < low) :
    locateAmong kind range parent trees = none := by
  induction trees generalizing low with
  | nil => rfl
  | cons tree trees ih =>
      rcases placedBetween_cons.1 placed with ⟨begins, own, others⟩
      have ordered := own.start_le_end
      rw [locateAmong, if_neg, ih others (by omega)]
      simp only [spans, Bool.and_eq_true, decide_eq_true_eq]
      omega

theorem locate_eq_none_of_isKeyword {kind : Kind} {range : Span} {parent : Option Tree}
    {tree : Tree} (keyword : tree.IsKeyword) : locate kind range parent tree = none := by
  rcases keyword with ⟨leaf, literal, -⟩
  rcases tree with ⟨label, field, span, text, children⟩
  cases leaf
  cases label with
  | construct => cases literal
  | literal => simp [locate, locateAmong]

/-- Nothing inside a definition begins where the definition begins, but for its
keyword. -/
theorem locateAmong_eq_none_of_isHead {kind : Kind} {range : Span} {parent : Tree} {high : Nat}
    {children : List Tree} (placed : PlacedBetween range.startByte high children)
    (head : IsHead children) : locateAmong kind range parent children = none := by
  rcases head.keyword with ⟨first, rest, rfl, keyword⟩
  rcases placedBetween_cons.1 placed with ⟨begins, -, others⟩
  rw [locateAmong]
  split
  · exact locate_eq_none_of_isKeyword keyword
  · exact locateAmong_eq_none others (Nat.lt_of_le_of_lt begins keyword.nonempty)

mutual

/-- The search for the place of a site leads to its definition. -/
theorem locate_of_mem_sitesOf {site : Site} {parent : Option Tree} {key : Key} :
    {tree : Tree} → tree.Placed → tree.HeadsDefinitions → site ∈ sitesOf parent key tree →
    locate (construct site.node.kind) site.node.span parent tree = some site.located
  | .node label field span text children, placed, heads, member => by
      rw [placed_node] at placed
      rcases headsDefinitions_node.1 heads with ⟨head, inside⟩
      rw [sitesOf] at member
      cases defines : definitionKind? label with
      | none =>
          simp only [defines] at member
          rw [locate, locateAmong_of_mem_sitesOfAll placed inside member, Option.some_or]
      | some kind =>
          simp only [defines] at member
          rcases List.mem_cons.1 member with rfl | below
          · simp only [Node.kind, Node.span]
            rw [locate, locateAmong_eq_none_of_isHead placed
              (head (isDefinition_of_definitionKind? defines)), Option.none_or,
              ← label_of_definitionKind? defines]
            simp
          · rw [locate, locateAmong_of_mem_sitesOfAll placed inside below, Option.some_or]

theorem locateAmong_of_mem_sitesOfAll {site : Site} {parent : Tree} {key : Key}
    {low high : Nat} : {trees : List Tree} → PlacedBetween low high trees →
    AllHeadDefinitions trees → site ∈ sitesOfAll parent key trees →
    locateAmong (construct site.node.kind) site.node.span parent trees = some site.located
  | [], _, _, member => by simp [sitesOfAll] at member
  | tree :: trees, placed, heads, member => by
      rcases placedBetween_cons.1 placed with ⟨begins, own, others⟩
      rw [allHeadDefinitions_cons] at heads
      rw [sitesOfAll] at member
      rw [locateAmong]
      rcases List.mem_append.1 member with here | later
      · have within := within_of_mem_sitesOf own heads.1 here
        rw [if_pos, locate_of_mem_sitesOf own heads.1 here]
        simp only [spans, Bool.and_eq_true, decide_eq_true_eq]
        omega
      · have within := within_of_mem_sitesOfAll others heads.2 later
        rw [if_neg, locateAmong_of_mem_sitesOfAll others heads.2 later]
        simp only [spans, Bool.and_eq_true, decide_eq_true_eq]
        omega

end

/-! ## Measures -/

/-- What is measured about a definition once it is found. -/
def measureAt (kind : NodeKind) (located : Located) : Header × Facts :=
  match kind with
  | .module => ({}, scopeFacts located.tree)
  | .functionDef =>
      (functionHeader located,
        (headFacts located.tree .parameters).add (bodyFacts located.tree))
  | .classDef =>
      (classHeader located,
        (headFacts located.tree .superclasses).add (bodyFacts located.tree))

@[simp]
theorem measureAt_form (kind : NodeKind) (located : Located) :
    measureAt kind located.form = measureAt kind located := by
  cases kind with
  | module => simp only [measureAt, Located.form, scopeFacts_form]
  | functionDef =>
      simp only [measureAt, functionHeader_form]
      simp only [Located.form, headFacts_form, bodyFacts_form]
  | classDef =>
      simp only [measureAt, classHeader_form]
      simp only [Located.form, headFacts_form, bodyFacts_form]

theorem definitionKind?_ne_module {label : Label} {kind : NodeKind}
    (defines : definitionKind? label = some kind) : kind ≠ .module := by
  unfold definitionKind? at defines
  split at defines <;> cases defines <;> decide

mutual

theorem kind_ne_module_of_mem_sitesOf {site : Site} {parent : Option Tree} {key : Key} :
    {tree : Tree} → site ∈ sitesOf parent key tree → site.node.kind ≠ .module
  | .node label field span text children, member => by
      rw [sitesOf] at member
      cases defines : definitionKind? label with
      | none =>
          simp only [defines] at member
          exact kind_ne_module_of_mem_sitesOfAll member
      | some kind =>
          simp only [defines] at member
          rcases List.mem_cons.1 member with rfl | below
          · exact definitionKind?_ne_module defines
          · exact kind_ne_module_of_mem_sitesOfAll below

theorem kind_ne_module_of_mem_sitesOfAll {site : Site} {parent : Tree} {key : Key} :
    {trees : List Tree} → site ∈ sitesOfAll parent key trees → site.node.kind ≠ .module
  | [], member => by simp [sitesOfAll] at member
  | tree :: trees, member => by
      rw [sitesOfAll] at member
      rcases List.mem_append.1 member with here | later
      · exact kind_ne_module_of_mem_sitesOf here
      · exact kind_ne_module_of_mem_sitesOfAll later

end

/-- What is measured about a node is measured at its definition. -/
theorem measure_eq_measureAt {tree : Tree} {key : Key} {site : Site} (placed : tree.Placed)
    (heads : tree.HeadsDefinitions) (member : site ∈ sitesOf none key tree) :
    measure tree site.node = measureAt site.node.kind site.located := by
  have found := locate_of_mem_sitesOf placed heads member
  have other := kind_ne_module_of_mem_sitesOf member
  rw [measure]
  cases kind : site.node.kind with
  | module => exact absurd kind other
  | functionDef =>
      rw [kind, construct] at found
      simp only [found, measureAt]
  | classDef =>
      rw [kind, construct] at found
      simp only [found, measureAt]

/-- What is known about a node when its place is forgotten. -/
def Site.profile (site : Site) : Key × NodeKind × Header × Facts :=
  (site.node.key, site.node.kind, measureAt site.node.kind site.located)

theorem definitionName_form (children : List Tree) :
    definitionName (children.map form) = definitionName children := by
  rw [definitionName, find?_form _ (fun tree => by rw [field_form]), Option.map_map,
    definitionName]
  congr 2
  exact funext text_form

/-- The profiles of all definitions of a tree. -/
def profilesOf (parent : Option Tree) (key : Key) (tree : Tree) :
    List (Key × NodeKind × Header × Facts) :=
  (sitesOf parent key tree).map Site.profile

/-- The profiles of all definitions of a run of trees. -/
def profilesOfAll (parent : Tree) (key : Key) (trees : List Tree) :
    List (Key × NodeKind × Header × Facts) :=
  (sitesOfAll parent key trees).map Site.profile

theorem profilesOfAll_cons (parent : Tree) (key : Key) (tree : Tree) (trees : List Tree) :
    profilesOfAll parent key (tree :: trees) =
      profilesOf (some parent) key tree ++ profilesOfAll parent key trees := by
  rw [profilesOfAll, sitesOfAll, List.map_append]
  rfl

mutual

/-- The profiles of definitions depend on the form of the tree only. -/
theorem profilesOf_form (parent : Option Tree) (key : Key) : (tree : Tree) →
    profilesOf (parent.map form) key tree.form = profilesOf parent key tree
  | .node label field span text children => by
      have below (key : Key) := profilesOfAll_form (.node label field span text children) key
        children
      rw [form_node] at below ⊢
      rw [profilesOf, profilesOf, sitesOf, sitesOf, definitionName_form]
      cases definitionKind? label with
      | none => exact below key
      | some kind =>
          simp only [profilesOfAll] at below
          simp only [List.map_cons, below]
          congr 1
          have blind := measureAt_form kind ⟨.node label field span text children, parent⟩
          rw [Located.form, form_node] at blind
          simp only [Site.profile, Node.key, Node.kind, blind]

theorem profilesOfAll_form (parent : Tree) (key : Key) : (trees : List Tree) →
    profilesOfAll parent.form key (trees.map form) = profilesOfAll parent key trees
  | [] => rfl
  | tree :: trees => by
      rw [List.map_cons, profilesOfAll_cons, profilesOfAll_cons,
        profilesOfAll_form parent key trees, ← profilesOf_form (some parent) key tree,
        Option.map_some]

end

end SemanticDiff.Feature
