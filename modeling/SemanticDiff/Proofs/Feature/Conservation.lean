import SemanticDiff.Proofs.Feature.Snapshot
import SemanticDiff.Proofs.Feature.Walks
import SemanticDiff.Proofs.Outline.Units

/-!
# Nothing is counted twice or lost

The features that count constructs add up.  Their sum over all nodes of a unit is the
number of such constructs in the whole tree, but for those in annotations, comments,
decorators and docstrings.  Each construct is counted by one node, that of the innermost
definition around it or the module.
-/

namespace SemanticDiff.Feature

open SemanticDiff.Source (Span)
open SemanticDiff.Outline (Key Node SourceUnit definitionKind?)

/-- All places of a unit. -/
def placesIn (unit : SourceUnit) : List Place :=
  placesOf [] [] unit.tree

/-- Whether a place belongs to a node: to that of the innermost definition around it,
or to the module if there is none. -/
def Place.belongsTo (place : Place) (node : Node) : Bool :=
  match holder? place.around with
  | some definition =>
      definitionKind? definition.label = some node.kind ∧ node.span = definition.span
  | none => node.kind = .module

/-- What the nodes of a unit count for a feature are the places of its constructs, each
for the one node that it belongs to. -/
structure CountsPlaces (unit : SourceUnit) (feature : Feature) : Prop where
  total : (unit.nodes.map fun node => (extract unit node).countOf feature).sum =
    (placesIn unit).countP fun place => place.counts feature
  each : ∀ node ∈ unit.nodes, (extract unit node).countOf feature =
    (placesIn unit).countP fun place => place.counts feature && place.belongsTo node
  owner : ∀ place ∈ placesIn unit, ∃! node, node ∈ unit.nodes ∧ place.belongsTo node = true

/-! ## Owners -/

section

variable {unit : SourceUnit}

/-- Definitions of a unit are told apart by where they stand. -/
theorem site_eq_of_span_eq (isRead : unit.IsRead) {first second : Site}
    (firstMem : first ∈ sitesOf none .module unit.tree)
    (secondMem : second ∈ sitesOf none .module unit.tree)
    (same : first.node.span = second.node.span) : first = second := by
  have distinct : ((sitesOf none .module unit.tree).map fun site =>
      site.node.span.startByte).Nodup := by
    have ordered := @pairwise_start_sitesOf none .module _ isRead.placed isRead.headsDefinitions
    exact List.pairwise_map.2 (ordered.imp Nat.ne_of_lt)
  exact List.inj_on_of_nodup_map distinct firstMem secondMem (congrArg Span.startByte same)

/-- A place belongs to the node with the key of its owner. -/
theorem belongsTo_iff (isRead : unit.IsRead) {place : Place} (inside : place ∈ placesIn unit)
    {node : Node} (member : node ∈ unit.nodes) :
    place.belongsTo node = true ↔ node.key = ownerOf place.around := by
  rw [Place.belongsTo]
  rcases exists_owner_of_mem_placesOf none inside with
    ⟨owner, holder⟩ | ⟨site, siteMem, definition, holder, names⟩
  · rw [holder, owner]
    exact decide_eq_true_iff.trans (isRead.kind_eq_module_iff member)
  · rw [holder]
    refine decide_eq_true_iff.trans ⟨?_, ?_⟩
    · -- No two definitions begin at the same byte.
      rintro ⟨kind, span⟩
      rw [isRead.nodes_eq, SourceUnit.sites, List.map_cons] at member
      rcases List.mem_cons.1 member with rfl | below
      · exact absurd isRead.kind_root (definitionKind?_ne_module kind)
      · rcases List.mem_map.1 below with ⟨other, otherMem, rfl⟩
        rw [site_eq_of_span_eq isRead otherMem siteMem (span.trans names.span.symm), names.key]
    · intro key
      have siteNode : site.node ∈ unit.nodes := by
        rw [isRead.nodes_eq]
        exact List.mem_map.2 ⟨site, List.mem_cons_of_mem _ siteMem, rfl⟩
      rw [isRead.eq_of_key_eq member siteNode (key.trans names.key.symm)]
      exact ⟨names.kind, names.span⟩

/-- The owner of a place is a node of the unit. -/
theorem exists_node_of_owner (isRead : unit.IsRead) {place : Place}
    (inside : place ∈ placesIn unit) : ∃ node ∈ unit.nodes, node.key = ownerOf place.around := by
  rcases exists_owner_of_mem_placesOf none inside with
    ⟨owner, -⟩ | ⟨site, siteMem, _, -, names⟩
  · exact ⟨unit.root, isRead.root_mem_nodes, isRead.key_root.trans owner.symm⟩
  · refine ⟨site.node, ?_, names.key⟩
    rw [isRead.nodes_eq]
    exact List.mem_map.2 ⟨site, List.mem_cons_of_mem _ siteMem, rfl⟩

theorem existsUnique_belongsTo (isRead : unit.IsRead) {place : Place}
    (inside : place ∈ placesIn unit) :
    ∃! node, node ∈ unit.nodes ∧ place.belongsTo node = true := by
  obtain ⟨node, member, key⟩ := exists_node_of_owner isRead inside
  refine ⟨node, ⟨member, (belongsTo_iff isRead inside member).2 key⟩, ?_⟩
  rintro other ⟨otherMem, belongs⟩
  have otherKey := (belongsTo_iff isRead inside otherMem).1 belongs
  exact isRead.eq_of_key_eq otherMem member (otherKey.trans key.symm)

/-! ## Counts -/

theorem wellMade_of_isRead (isRead : unit.IsRead) : WellMade unit.tree := by
  rcases isRead with ⟨text, made⟩
  have parsed := (SourceUnit.read_eq_ok_iff.1 made).2.2.1
  exact ⟨Source.nests_of_parse parsed, Source.headsDefinitions_of_parse parsed,
    Source.parted_of_parse parsed⟩

/-- The tree of a unit is that of a module. -/
theorem is_module_of_isRead (isRead : unit.IsRead) : unit.tree.is .module = true := by
  rcases isRead with ⟨text, made⟩
  obtain ⟨_, _, _, _, -, same⟩ :=
    Source.exists_reads_of_parse (SourceUnit.read_eq_ok_iff.1 made).2.2.1
  rw [same]
  rfl

theorem countOf_eq_number {feature : Feature} (counted : countedKinds feature ≠ [])
    (node : Node) :
    (extract unit node).countOf feature = (measure unit.tree node).2.number feature := by
  apply countOf_extract
  cases feature <;> first | exact absurd rfl counted | simp [values, Facts.number]

/-- The places of a unit count for what is measured about its nodes. -/
theorem amount_placesIn (isRead : unit.IsRead) {feature : Feature}
    (counted : countedKinds feature ≠ []) (concerns : Key → Bool) :
    amount feature concerns (placesIn unit) =
      (unit.nodes.map fun node =>
        if concerns node.key then (extract unit node).countOf feature else 0).sum := by
  have isModule := is_module_of_isRead isRead
  have conserved : Conserves feature concerns unit.tree := conserves (wellMade_of_isRead isRead)
  have entered := @Conserves.entered _ _ _ conserved [] [] none rfl rfl isModule (Or.inl isModule)
  calc
    amount feature concerns (placesIn unit) = shares feature concerns unit.profiles := by
      rw [isRead.profiles_eq, SourceUnit.sites, List.map_cons, shares, List.map_cons,
        List.sum_cons, Site.profile, isRead.key_root, isRead.kind_root]
      exact entered
    _ = _ := by
      simp only [shares, SourceUnit.profiles, List.map_map, countOf_eq_number counted]
      rfl

/-- What is counted for a key is what the node with the key counts. -/
theorem sum_of_key (isRead : unit.IsRead) {node : Node} (member : node ∈ unit.nodes)
    (number : Node → Nat) :
    (unit.nodes.map fun other => if other.key = node.key then number other else 0).sum =
      number node := by
  classical
  have distinct : unit.nodes.Nodup := List.Nodup.of_map _ isRead.nodup_keys
  rw [List.sum_map_eq_nsmul_single node, List.count_eq_one_of_mem distinct member, one_nsmul,
    if_pos rfl]
  intro other different otherMem
  exact if_neg fun same => different (isRead.eq_of_key_eq otherMem member same)

/-- Every construct that a feature counts is counted once, by the node that it belongs
to. -/
theorem countsPlaces {path revision text : String}
    (made : SourceUnit.read path revision text = .ok unit) {feature : Feature}
    (counted : countedKinds feature ≠ []) : CountsPlaces unit feature := by
  have isRead := SourceUnit.isRead_of_read made
  refine ⟨?_, ?_, fun place inside => existsUnique_belongsTo isRead inside⟩
  · have all := amount_placesIn isRead counted fun _ => true
    simpa [amount] using all.symm
  · intro node member
    have own := amount_placesIn isRead counted fun key => key = node.key
    simp only [decide_eq_true_eq] at own
    rw [sum_of_key isRead member, amount] at own
    rw [← own]
    apply List.countP_congr
    intro place inside
    rw [Bool.and_eq_true, Bool.and_eq_true, belongsTo_iff isRead inside member, decide_eq_true_iff,
      @eq_comm Key]

end

/-- A function with a decorator, a default and a docstring, and a lambda: the number in
the decorator counts for nothing, that of the lambda for the module. -/
theorem countsPlaces_decorated : ∃ unit,
    SourceUnit.read "m.py" "r1"
      "@d(1)\ndef f(a=2):\n  \"s\"\n  return 3\nx = lambda: 4\n" = .ok unit ∧
    CountsPlaces unit .numericLiterals ∧
    (unit.nodes.map fun node => (extract unit node).countOf .numericLiterals) = [1, 2] ∧
    (placesIn unit).countP (fun place => place.counts .numericLiterals) = 3 := by
  have seen : ((SourceUnit.read "m.py" "r1"
      "@d(1)\ndef f(a=2):\n  \"s\"\n  return 3\nx = lambda: 4\n").toOption.map fun unit =>
        unit.nodes.map fun node => (extract unit node).countOf .numericLiterals) =
      some [1, 2] := by
    decide +kernel
  obtain ⟨unit, made, numbers⟩ := exists_ok_of_map_eq_some seen
  have counts : CountsPlaces unit .numericLiterals := countsPlaces made (by decide)
  refine ⟨unit, made, counts, numbers, ?_⟩
  rw [← counts.total, numbers]
  rfl

end SemanticDiff.Feature
