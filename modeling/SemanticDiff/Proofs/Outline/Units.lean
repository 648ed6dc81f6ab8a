import Mathlib.Data.Finset.Dedup
import Mathlib.Data.List.Nodup
import SemanticDiff.Proofs.Collection.Result
import SemanticDiff.Proofs.Outline.Nesting
import SemanticDiff.Proofs.Source.Grammar

/-!
# Units that were read

The nodes of a unit that was read from a text have distinct keys, and only the
module has the key of the module.  What the outline says about a node, and what
is measured about it, depends on the form of the tree only.
-/

namespace SemanticDiff.Outline

open SemanticDiff.Source (Tree IsName)
open SemanticDiff.Source.Tree
open SemanticDiff.Feature (Site sitesOf sitesOfAll measureAt Header Facts)

/-! ## Keys -/

/-- A key that could be the key of a definition. -/
def Key.IsPlain (key : Key) : Prop :=
  '<' ∉ key.text.toList

theorem Key.not_isPlain_module : ¬ Key.module.IsPlain := by
  intro plain
  exact plain (by decide)

theorem Key.isPlain_child {key : Key} {name : String} (around : key = .module ∨ key.IsPlain)
    (plain : '<' ∉ name.toList) : (key.child name).IsPlain := by
  rw [IsPlain, child]
  by_cases top : key.isModule
  · simpa only [top, if_true] using plain
  · have keyPlain : '<' ∉ key.text.toList := by
      rcases around with rfl | keyPlain
      · exact absurd rfl top
      · exact keyPlain
    simp only [top, Bool.false_eq_true, if_false, String.toList_append, List.mem_append, not_or]
    exact ⟨⟨keyPlain, by decide⟩, plain⟩

theorem not_mem_toList_of_isName {text : String} (named : IsName text) : '<' ∉ text.toList := by
  intro member
  have other : ¬ (Text.isNameStart '<' ∨ Text.isNameContinue '<') := by decide +kernel
  exact other (named.2 _ member)

section

/-! What a name gives to the key of a definition, all keys of definitions have. -/

variable {good : Key → Prop}

mutual

theorem forall_mem_sitesOf
    (descends : ∀ {key name}, key = .module ∨ good key → IsName name → good (key.child name))
    {site : Site} {parent : Option Tree} {key : Key} :
    {tree : Tree} → key = .module ∨ good key → tree.HeadsDefinitions →
    site ∈ sitesOf parent key tree → good site.node.key
  | .node label field span text children, around, heads, member => by
      rcases headsDefinitions_node.1 heads with ⟨head, inside⟩
      rw [sitesOf] at member
      cases defines : definitionKind? label with
      | none =>
          simp only [defines] at member
          exact forall_mem_sitesOfAll descends around inside member
      | some kind =>
          have own := descends around
            (isName_definitionName (head (Feature.isDefinition_of_definitionKind? defines)))
          simp only [defines] at member
          rcases List.mem_cons.1 member with rfl | below
          · exact own
          · exact forall_mem_sitesOfAll descends (Or.inr own) inside below

theorem forall_mem_sitesOfAll
    (descends : ∀ {key name}, key = .module ∨ good key → IsName name → good (key.child name))
    {site : Site} {parent : Tree} {key : Key} :
    {trees : List Tree} → key = .module ∨ good key → AllHeadDefinitions trees →
    site ∈ sitesOfAll parent key trees → good site.node.key
  | [], _, _, member => by simp [sitesOfAll] at member
  | tree :: trees, around, heads, member => by
      rw [allHeadDefinitions_cons] at heads
      rw [sitesOfAll] at member
      rcases List.mem_append.1 member with here | later
      · exact forall_mem_sitesOf descends around heads.1 here
      · exact forall_mem_sitesOfAll descends around heads.2 later

end

end

/-- The key of a definition is plain. -/
theorem isPlain_of_mem_sitesOf {site : Site} {parent : Option Tree} {key : Key} {tree : Tree}
    (around : key = .module ∨ key.IsPlain) (heads : tree.HeadsDefinitions)
    (member : site ∈ sitesOf parent key tree) : site.node.key.IsPlain :=
  forall_mem_sitesOf
    (fun around named => Key.isPlain_child around (not_mem_toList_of_isName named))
    around heads member

/-! ## Units -/

namespace SourceUnit

/-- The unit was read from a text. -/
def IsRead (unit : SourceUnit) : Prop :=
  ∃ text, read unit.path unit.revision text = .ok unit

theorem read_eq_ok_iff {path revision text : String} {unit : SourceUnit} :
    read path revision text = .ok unit ↔
      unit.path = path ∧ unit.revision = revision ∧ Source.parse text = .ok unit.tree ∧
        ofTree path unit.tree = .ok unit.root := by
  rcases unit with ⟨unitPath, unitRevision, unitTree, unitRoot⟩
  unfold read
  cases Source.parse text with
  | error => simp
  | ok tree =>
      simp only [Except.ok.injEq]
      constructor
      · intro made
        cases outlined : ofTree path tree with
        | error =>
            rw [outlined] at made
            cases made
        | ok root =>
            rw [outlined] at made
            cases made
            exact ⟨rfl, rfl, rfl, outlined⟩
      · rintro ⟨rfl, rfl, rfl, outlined⟩
        rw [outlined]
        rfl

theorem isRead_of_read {path revision text : String} {unit : SourceUnit}
    (made : read path revision text = .ok unit) : unit.IsRead := by
  rcases read_eq_ok_iff.1 made with ⟨rfl, rfl, -⟩
  exact ⟨text, made⟩

/-- The site of the module, then those of its definitions. -/
def sites (unit : SourceUnit) : List Site :=
  ⟨unit.root, ⟨unit.tree, none⟩⟩ :: sitesOf none .module unit.tree

/-- The functions and classes of the unit. -/
def inventory (unit : SourceUnit) : Finset (Key × NodeKind) :=
  ((unit.nodes.map fun node => (node.key, node.kind)).filter fun entry =>
    entry.2 ≠ .module).toFinset

theorem mem_inventory_iff {unit : SourceUnit} {key : Key} {kind : NodeKind} :
    (key, kind) ∈ unit.inventory ↔
      kind ≠ .module ∧ ∃ node ∈ unit.nodes, node.key = key ∧ node.kind = kind := by
  simp [inventory, and_comm]

namespace IsRead

variable {unit : SourceUnit}

theorem placed (isRead : unit.IsRead) : unit.tree.Placed := by
  rcases isRead with ⟨text, made⟩
  exact Source.placed_of_parse (read_eq_ok_iff.1 made).2.2.1

theorem headsDefinitions (isRead : unit.IsRead) : unit.tree.HeadsDefinitions := by
  rcases isRead with ⟨text, made⟩
  exact Source.headsDefinitions_of_parse (read_eq_ok_iff.1 made).2.2.1

/-- What the check for repeated keys leaves: the outline of the tree, with
distinct keys. -/
theorem outlined (isRead : unit.IsRead) :
    unit.root = .mk .module (Files.Path.dottedName unit.path) .module unit.tree.span
        (definitionsOf .module unit.tree) ∧
      ((Node.preorderAll (definitionsOf .module unit.tree)).map Node.key).Nodup := by
  rcases isRead with ⟨text, made⟩
  rcases read_eq_ok_iff.1 made with ⟨-, -, parsed, outlined⟩
  rw [ofTree] at outlined
  cases nested : nest (definitionsIn [] [] unit.tree) with
  | error error =>
      rw [nested] at outlined
      cases error <;> cases outlined
  | ok nodes =>
      rw [nested] at outlined
      obtain ⟨distinct, rfl⟩ := (nest_eq_ok_iff (Source.placed_of_parse parsed)
        (Source.headsDefinitions_of_parse parsed) (.refl _)).1 nested
      exact ⟨(Except.ok.inj outlined).symm, distinct⟩

theorem nodes_eq (isRead : unit.IsRead) : unit.nodes = unit.sites.map Site.node := by
  rw [nodes_eq_preorder, sites, List.map_cons, Feature.map_node_sitesOf, isRead.outlined.1,
    Node.preorder]

theorem key_root (isRead : unit.IsRead) : unit.root.key = .module := by
  rw [isRead.outlined.1, Node.key]

theorem kind_root (isRead : unit.IsRead) : unit.root.kind = .module := by
  rw [isRead.outlined.1, Node.kind]

theorem root_mem_nodes (isRead : unit.IsRead) : unit.root ∈ unit.nodes := by
  rw [isRead.nodes_eq, sites]
  exact List.mem_cons_self

theorem isPlain_key (isRead : unit.IsRead) {site : Site}
    (member : site ∈ sitesOf none .module unit.tree) : site.node.key.IsPlain :=
  isPlain_of_mem_sitesOf (Or.inl rfl) isRead.headsDefinitions member

/-- The nodes of a unit have distinct keys. -/
theorem nodup_keys (isRead : unit.IsRead) : (unit.nodes.map Node.key).Nodup := by
  have distinct := isRead.outlined.2
  rw [← Feature.map_node_sitesOf none] at distinct
  rw [isRead.nodes_eq, sites, List.map_cons, List.map_cons, isRead.key_root]
  refine List.nodup_cons.2 ⟨?_, distinct⟩
  simp only [List.mem_map]
  rintro ⟨-, ⟨site, member, rfl⟩, same⟩
  have plain := isRead.isPlain_key member
  rw [same] at plain
  exact Key.not_isPlain_module plain

/-- The nodes of a unit are told apart by their keys. -/
theorem eq_of_key_eq (isRead : unit.IsRead) {first second : Node} (firstMem : first ∈ unit.nodes)
    (secondMem : second ∈ unit.nodes) (same : first.key = second.key) : first = second :=
  List.inj_on_of_nodup_map isRead.nodup_keys firstMem secondMem same

/-- Only the module has the key of the module. -/
theorem kind_eq_module_iff (isRead : unit.IsRead) {node : Node} (member : node ∈ unit.nodes) :
    node.kind = .module ↔ node.key = .module := by
  rw [isRead.nodes_eq, sites, List.map_cons] at member
  rcases List.mem_cons.1 member with rfl | below
  · simp only [isRead.kind_root, isRead.key_root]
  · rcases List.mem_map.1 below with ⟨site, siteMem, rfl⟩
    have plain := isRead.isPlain_key siteMem
    constructor
    · intro same
      exact absurd same (Feature.kind_ne_module_of_mem_sitesOf siteMem)
    · intro same
      rw [same] at plain
      exact absurd plain Key.not_isPlain_module

/-- What is measured about a node is measured at its site. -/
theorem measure_eq (isRead : unit.IsRead) {site : Site} (member : site ∈ unit.sites) :
    Feature.measure unit.tree site.node = measureAt site.node.kind site.located := by
  rcases List.mem_cons.1 member with rfl | below
  · simp only [Feature.measure, isRead.kind_root, measureAt]
  · exact Feature.measure_eq_measureAt isRead.placed isRead.headsDefinitions below

end IsRead

/-- The keys and kinds of all nodes and what is measured about them. -/
def profiles (unit : SourceUnit) : List (Key × NodeKind × Header × Facts) :=
  unit.nodes.map fun node => (node.key, node.kind, Feature.measure unit.tree node)

theorem IsRead.profiles_eq {unit : SourceUnit} (isRead : unit.IsRead) :
    unit.profiles = unit.sites.map Site.profile := by
  rw [profiles, isRead.nodes_eq, List.map_map]
  apply List.map_congr_left
  intro site member
  rw [Function.comp_apply, isRead.measure_eq member, Site.profile]

/-- The profile of the module, then those of its definitions. -/
theorem IsRead.profiles_eq_cons {unit : SourceUnit} (isRead : unit.IsRead) :
    unit.profiles = (.module, .module, {}, Feature.scopeFacts unit.tree.form) ::
      Feature.profilesOf none .module unit.tree.form := by
  have below := Feature.profilesOf_form none .module unit.tree
  rw [Option.map_none] at below
  rw [isRead.profiles_eq, sites, List.map_cons, below, Feature.profilesOf, Site.profile,
    isRead.key_root, isRead.kind_root, measureAt, Feature.scopeFacts_form]

theorem IsRead.isPlain_of_mem_profilesOf {unit : SourceUnit} (isRead : unit.IsRead)
    {profile : Key × NodeKind × Header × Facts}
    (member : profile ∈ Feature.profilesOf none .module unit.tree.form) : profile.1.IsPlain := by
  have below := Feature.profilesOf_form none .module unit.tree
  rw [Option.map_none] at below
  rw [below] at member
  rcases List.mem_map.1 member with ⟨site, siteMem, rfl⟩
  exact isRead.isPlain_key siteMem

/-- Units whose trees have one form have the same profiles. -/
theorem profiles_eq_of_form_eq {first second : SourceUnit} (firstRead : first.IsRead)
    (secondRead : second.IsRead) (sameForm : first.tree.form = second.tree.form) :
    first.profiles = second.profiles := by
  rw [firstRead.profiles_eq_cons, secondRead.profiles_eq_cons, sameForm]

end SourceUnit

end SemanticDiff.Outline
