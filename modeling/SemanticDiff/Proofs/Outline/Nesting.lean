import Mathlib.Data.List.Induction
import Mathlib.Data.List.Sort
import SemanticDiff.Proofs.Feature.Location

/-!
# Definitions are nested as they stand

The definitions of a syntax tree, found in any order, make the outline that is read off
from the root down.  In the order in which they begin they fill the table as a walk
through this outline meets its nodes, and to empty the table from its end hands every
node to the one around it.  A key that is met again stops the filling.
-/

namespace SemanticDiff.Outline

open SemanticDiff.Source (Tree Label Field Span IsHead IsName)
open SemanticDiff.Feature (Site sitesOf sitesOfAll)

/-! ## Handing over -/

namespace Node

/-- The node without those inside it. -/
def bare (node : Node) : Node :=
  node.withChildren fun _ => []

@[simp]
theorem key_bare (node : Node) : node.bare.key = node.key := by
  cases node
  rfl

@[simp]
theorem span_bare (node : Node) : node.bare.span = node.span := by
  cases node
  rfl

theorem withChildren_withChildren (first second : List Node → List Node) (node : Node) :
    (node.withChildren first).withChildren second = node.withChildren (second ∘ first) := by
  cases node
  rfl

mutual

/-- The rows of a node and of all below it, from a position of the table on. -/
def rowsOf (position : Nat) (parent : Option Nat) : Node → List Row
  | mk key name kind span children =>
      ⟨mk key name kind span [], parent⟩ :: rowsOfAll (position + 1) (some position) children

/-- The rows of a run of outlines, from a position of the table on. -/
def rowsOfAll (position : Nat) (parent : Option Nat) : List Node → List Row
  | [] => []
  | node :: nodes => rowsOf position parent node ++ rowsOfAll (position + node.size) parent nodes

end

mutual

/-- The rows are those of the nodes, in the order of the outline. -/
theorem map_node_rowsOf (position : Nat) (parent : Option Nat) : (node : Node) →
    (rowsOf position parent node).map Row.node = node.preorder.map bare
  | mk key name kind span children => by
      rw [rowsOf, preorder, List.map_cons, List.map_cons, map_node_rowsOfAll _ _ children]
      rfl

theorem map_node_rowsOfAll (position : Nat) (parent : Option Nat) : (nodes : List Node) →
    (rowsOfAll position parent nodes).map Row.node = (preorderAll nodes).map bare
  | [] => rfl
  | node :: nodes => by
      rw [rowsOfAll, preorderAll, List.map_append, List.map_append,
        map_node_rowsOf _ _ node, map_node_rowsOfAll _ _ nodes]

end

mutual

theorem length_rowsOf (position : Nat) (parent : Option Nat) : (node : Node) →
    (rowsOf position parent node).length = node.size
  | mk key name kind span children => by
      rw [rowsOf, List.length_cons, length_rowsOfAll _ _ children, size]

theorem length_rowsOfAll (position : Nat) (parent : Option Nat) : (nodes : List Node) →
    (rowsOfAll position parent nodes).length = sizeAll nodes
  | [] => rfl
  | node :: nodes => by
      rw [rowsOfAll, List.length_append, length_rowsOf _ _ node, length_rowsOfAll _ _ nodes,
        sizeAll]

end

theorem rowsOfAll_append (position : Nat) (parent : Option Nat) (first second : List Node) :
    rowsOfAll position parent (first ++ second) =
      rowsOfAll position parent first ++ rowsOfAll (position + sizeAll first) parent second := by
  induction first generalizing position with
  | nil => rfl
  | cons node nodes ih =>
      rw [List.cons_append, rowsOfAll, rowsOfAll, ih, List.append_assoc, sizeAll, Nat.add_assoc]

end Node

/-- The outermost nodes after some nodes were handed over. -/
def outermostAfter (parent : Option Nat) (outermost handed : List Node) : List Node :=
  match parent with
  | none => outermost ++ handed
  | some _ => outermost

/-- The other nodes after some nodes were handed over. -/
def nodesAfter (parent : Option Nat) (nodes handed : List Node) : List Node :=
  match parent with
  | none => nodes
  | some position => nodes.modify position (Node.withChildren (· ++ handed))

theorem length_nodesAfter (parent : Option Nat) (nodes handed : List Node) :
    (nodesAfter parent nodes handed).length = nodes.length := by
  cases parent with
  | none => rfl
  | some position => rw [nodesAfter, List.length_modify]

theorem outermostAfter_nil (parent : Option Nat) (outermost : List Node) :
    outermostAfter parent outermost [] = outermost := by
  cases parent with
  | none => exact List.append_nil outermost
  | some => rfl

theorem nodesAfter_nil (parent : Option Nat) (nodes : List Node) :
    nodesAfter parent nodes [] = nodes := by
  cases parent with
  | none => rfl
  | some position =>
      have same : Node.withChildren (· ++ []) = id := by
        funext node
        cases node
        simp only [Node.withChildren, List.append_nil, id_eq]
      rw [nodesAfter, same, List.modify_id]

/-- What is handed over in two parts is handed over as a whole. -/
theorem outermostAfter_append (parent : Option Nat) (outermost first second : List Node) :
    outermostAfter parent (outermostAfter parent outermost first) second =
      outermostAfter parent outermost (first ++ second) := by
  cases parent with
  | none => rw [outermostAfter, outermostAfter, outermostAfter, List.append_assoc]
  | some => rfl

theorem nodesAfter_append (parent : Option Nat) (nodes first second : List Node) :
    nodesAfter parent (nodesAfter parent nodes first) second =
      nodesAfter parent nodes (first ++ second) := by
  cases parent with
  | none => rfl
  | some position =>
      have twice : Node.withChildren (· ++ second) ∘ Node.withChildren (· ++ first) =
          Node.withChildren (· ++ (first ++ second)) := by
        funext node
        rw [Function.comp_apply, Node.withChildren_withChildren]
        congr 1
        funext children
        rw [Function.comp_apply, List.append_assoc]
      rw [nodesAfter, nodesAfter, nodesAfter, List.modify_modify_eq, twice]

/-- What is handed to a node leaves the nodes after it as they are. -/
theorem nodesAfter_append_left {parent : Option Nat} {nodes : List Node}
    (known : ∀ position ∈ parent, position < nodes.length) (later handed : List Node) :
    nodesAfter parent (nodes ++ later) handed = nodesAfter parent nodes handed ++ later := by
  cases parent with
  | none => rfl
  | some position =>
      have before := known position rfl
      simp only [nodesAfter]
      apply List.ext_getElem?
      intro index
      simp only [List.getElem?_modify, List.getElem?_append, List.length_modify]
      grind

/-- One step hands over the last node, with those inside it in their order. -/
theorem handOver_concat {parent : Option Nat} {nodes : List Node}
    (known : ∀ position ∈ parent, position < nodes.length) (outermost : List Node)
    (last : Node) (parents : List (Option Nat)) :
    handOver outermost (nodes ++ [last]) (parent :: parents) =
      handOver (outermostAfter parent outermost [last.withChildren List.reverse])
        (nodesAfter parent nodes [last.withChildren List.reverse]) parents := by
  rw [handOver]
  simp only [List.getLast?_concat, List.dropLast_concat]
  cases parent with
  | none => rfl
  | some position =>
      simp only [if_pos (known position rfl)]
      rfl

mutual

/-- The rows of a node, taken from the end of the table, hand over the node. -/
theorem handOver_rowsOf (parent : Option Nat) (outermost nodes : List Node)
    (known : ∀ position ∈ parent, position < nodes.length) (parents : List (Option Nat)) :
    (node : Node) →
    handOver outermost (nodes ++ (Node.rowsOf nodes.length parent node).map Row.node)
        (((Node.rowsOf nodes.length parent node).map Row.parent).reverse ++ parents) =
      handOver (outermostAfter parent outermost [node]) (nodesAfter parent nodes [node]) parents
  | .mk key name kind span children => by
      have inside := handOver_rowsOfAll (some nodes.length) outermost
        (nodes ++ [.mk key name kind span []]) (by simp) (parent :: parents) children
      rw [List.length_append, List.length_singleton] at inside
      rw [Node.rowsOf, List.map_cons, List.map_cons, List.reverse_cons, List.append_assoc,
        List.append_cons nodes, List.singleton_append, inside, outermostAfter, nodesAfter]
      have filled : (nodes ++ [Node.mk key name kind span []]).modify nodes.length
            (Node.withChildren (· ++ children.reverse)) =
          nodes ++ [.mk key name kind span children.reverse] := by
        simp [List.modify_eq_take_cons_drop, Node.withChildren]
      rw [filled, handOver_concat known, Node.withChildren, List.reverse_reverse]

/-- The rows of a run of nodes, taken from the end of the table, hand over the nodes, the
last one first. -/
theorem handOver_rowsOfAll (parent : Option Nat) (outermost nodes : List Node)
    (known : ∀ position ∈ parent, position < nodes.length) (parents : List (Option Nat)) :
    (run : List Node) →
    handOver outermost (nodes ++ (Node.rowsOfAll nodes.length parent run).map Row.node)
        (((Node.rowsOfAll nodes.length parent run).map Row.parent).reverse ++ parents) =
      handOver (outermostAfter parent outermost run.reverse)
        (nodesAfter parent nodes run.reverse) parents
  | [] => by
      rw [List.reverse_nil, outermostAfter_nil, nodesAfter_nil, Node.rowsOfAll, List.map_nil,
        List.map_nil, List.append_nil, List.reverse_nil, List.nil_append]
  | node :: run => by
      have later := handOver_rowsOfAll parent outermost
        (nodes ++ (Node.rowsOf nodes.length parent node).map Row.node)
        (fun position member => by
          rw [List.length_append]
          exact Nat.lt_add_right _ (known position member))
        (((Node.rowsOf nodes.length parent node).map Row.parent).reverse ++ parents) run
      rw [List.length_append, List.length_map, Node.length_rowsOf,
        nodesAfter_append_left known] at later
      have first := handOver_rowsOf parent (outermostAfter parent outermost run.reverse)
        (nodesAfter parent nodes run.reverse)
        (by simpa only [length_nodesAfter] using known) parents node
      rw [length_nodesAfter] at first
      rw [Node.rowsOfAll, List.map_append, List.map_append, List.reverse_append,
        List.append_assoc, ← List.append_assoc nodes, later, first, outermostAfter_append,
        nodesAfter_append, List.reverse_cons]

end

/-- The rows of an outline hand over its outermost nodes. -/
theorem handOver_table (nodes : List Node) :
    handOver [] ((Node.rowsOfAll 0 none nodes).map Row.node)
      ((Node.rowsOfAll 0 none nodes).map Row.parent).reverse = .ok nodes := by
  have all := handOver_rowsOfAll none [] [] (by simp) [] nodes
  rw [List.nil_append, List.length_nil, List.append_nil] at all
  rw [all, handOver, outermostAfter, List.nil_append, List.reverse_reverse]

/-! ## Filling the table -/

/-- The rows that definitions enter into a table, one after the other. -/
inductive Enters (definitions : List Definition) :
    (table : List Row) → List Definition → List Row → Prop
  | nil (table : List Row) : Enters definitions table [] []
  | cons {table rows : List Row} {definition : Definition} {rest : List Definition} {row : Row}
      (next : row? definitions table definition = some row)
      (later : Enters definitions (table ++ [row]) rest rows) :
      Enters definitions table (definition :: rest) (row :: rows)

namespace Enters

variable {definitions first second rest : List Definition} {table rows : List Row}

theorem length_eq (enters : Enters definitions table rest rows) : rows.length = rest.length := by
  induction enters with
  | nil => rfl
  | cons _ _ ih => rw [List.length_cons, List.length_cons, ih]

theorem append {firstRows secondRows : List Row} (left : Enters definitions table first firstRows)
    (right : Enters definitions (table ++ firstRows) second secondRows) :
    Enters definitions table (first ++ second) (firstRows ++ secondRows) := by
  induction left with
  | nil => simpa only [List.append_nil, List.nil_append] using right
  | cons next _ ih =>
      refine .cons next (ih ?_)
      simpa only [List.append_assoc, List.singleton_append] using right

/-- No earlier row has the key of a row, if keys are distinct. -/
theorem find?_eq_none_of_nodup {row : Row}
    (distinct : ((table ++ row :: rows).map fun row => row.node.key).Nodup) :
    (table.find? fun earlier => earlier.node.key = row.node.key) = none := by
  rw [List.map_append, List.map_cons] at distinct
  have apart := (List.nodup_append.1 distinct).2.2
  rw [List.find?_eq_none]
  intro earlier member same
  exact apart _ (List.mem_map_of_mem member) _ List.mem_cons_self (of_decide_eq_true same)

/-- Rows with distinct keys fill the table. -/
theorem fill_eq_ok (enters : Enters definitions table rest rows)
    (distinct : ((table ++ rows).map fun row => row.node.key).Nodup) :
    fill definitions table rest = .ok (table ++ rows) := by
  induction enters with
  | nil => rw [fill, List.append_nil]
  | cons next _ ih =>
      rw [fill]
      simp only [next, find?_eq_none_of_nodup distinct]
      rw [List.append_cons] at distinct
      rw [ih distinct, ← List.append_cons]

/-- The first row whose key is there already stops the filling. -/
theorem fill_eq_repeated (enters : Enters definitions table rest rows) {before after : List Row}
    {earlier row : Row} (split : rows = before ++ row :: after)
    (distinct : ((table ++ before).map fun row => row.node.key).Nodup)
    (member : earlier ∈ table ++ before) (same : earlier.node.key = row.node.key) :
    fill definitions table rest =
      .error (.repeated row.node.key earlier.node.span.startLine row.node.span.startLine) := by
  induction enters generalizing before with
  | nil => simp at split
  | @cons table rows definition rest row next _ ih =>
      rw [fill]
      cases before with
      | nil =>
          obtain ⟨rfl, rfl⟩ := List.cons.inj split
          rw [List.append_nil] at distinct member
          have found : (table.find? fun other => other.node.key = row.node.key) =
              some earlier := by
            cases found : table.find? fun other => other.node.key = row.node.key with
            | none => exact absurd same (by simpa using List.find?_eq_none.1 found earlier member)
            | some other =>
                have otherSame : other.node.key = row.node.key := by
                  simpa using List.find?_some found
                rw [List.inj_on_of_nodup_map distinct (List.mem_of_find?_eq_some found) member
                  (otherSame.trans same.symm)]
          simp only [next, found]
      | cons first before =>
          obtain ⟨rfl, rfl⟩ := List.cons.inj split
          simp only [next, find?_eq_none_of_nodup distinct]
          rw [List.append_cons] at distinct member
          exact ih rfl distinct member

end Enters

/-! ## Definitions of a tree -/

section

open SemanticDiff.Source.Tree

/-- The name of a definition is the text of its name. -/
theorem isName_definitionName {children : List Tree} (head : IsHead children) :
    IsName (definitionName children) := by
  have everywhere : ∀ roles ∈ Source.headRoles, Source.Field.name ∈ roles := by decide
  obtain ⟨named, namedMem, namedRole⟩ :=
    List.mem_filterMap.1 (everywhere _ head.roles)
  rw [definitionName]
  cases found : children.find? fun child => child.field == some .name with
  | none => simpa [namedRole] using List.find?_eq_none.1 found named namedMem
  | some child =>
      have role : child.field = some .name := by simpa using List.find?_some found
      exact head.named child (List.mem_of_find?_eq_some found) role

theorem definitionName_ne_empty {children : List Tree} (head : IsHead children) :
    definitionName children ≠ "" := by
  intro empty
  obtain ⟨first, rest, letters, -⟩ := (isName_definitionName head).1
  rw [empty] at letters
  cases letters

variable {address : List Nat} {around : List Tree} {label : Label} {field : Option Field}
  {span : Span} {text : String} {children : List Tree}

theorem definitionsIn_node {kind : NodeKind} (defines : definitionKind? label = some kind)
    (head : IsHead children) :
    definitionsIn address around (.node label field span text children) =
      { address, around, name := definitionName children, kind, span } ::
        definitionsAmong address (.node label field span text children :: around) 0 children := by
  rw [definitionsIn]
  simp only [defines, definitionName_ne_empty head, if_false]

theorem definitionsIn_of_eq_none (other : definitionKind? label = none) :
    definitionsIn address around (.node label field span text children) =
      definitionsAmong address (.node label field span text children :: around) 0 children := by
  rw [definitionsIn]
  simp only [other]

mutual

/-- The definitions of a tree have its address at the end of theirs. -/
theorem suffix_of_mem_definitionsIn {definition : Definition} {address : List Nat}
    {around : List Tree} : {tree : Tree} → tree.HeadsDefinitions →
    definition ∈ definitionsIn address around tree → address <:+ definition.address
  | .node label field span text children, heads, member => by
      rcases headsDefinitions_node.1 heads with ⟨head, inside⟩
      have below (member : definition ∈ definitionsAmong address
          (.node label field span text children :: around) 0 children) :
          address <:+ definition.address := by
        obtain ⟨position, -, suffix⟩ := exists_suffix_of_mem_definitionsAmong inside member
        exact (List.suffix_cons _ _).trans suffix
      cases defines : definitionKind? label with
      | none =>
          rw [definitionsIn_of_eq_none defines] at member
          exact below member
      | some kind =>
          rw [definitionsIn_node defines
            (head (Feature.isDefinition_of_definitionKind? defines))] at member
          rcases List.mem_cons.1 member with rfl | member
          · exact List.suffix_rfl
          · exact below member

theorem exists_suffix_of_mem_definitionsAmong {definition : Definition} {address : List Nat}
    {around : List Tree} {position : Nat} : {trees : List Tree} → AllHeadDefinitions trees →
    definition ∈ definitionsAmong address around position trees →
    ∃ index, position ≤ index ∧ index :: address <:+ definition.address
  | [], _, member => by simp [definitionsAmong] at member
  | tree :: trees, heads, member => by
      rw [allHeadDefinitions_cons] at heads
      rw [definitionsAmong] at member
      rcases List.mem_append.1 member with here | later
      · exact ⟨position, Nat.le_refl _, suffix_of_mem_definitionsIn heads.1 here⟩
      · obtain ⟨index, after, suffix⟩ := exists_suffix_of_mem_definitionsAmong heads.2 later
        exact ⟨index, Nat.le_of_succ_le after, suffix⟩

end

/-- Addresses that end in the same place are the same if they are equally long. -/
theorem eq_of_cons_suffix {first second : Nat} {address whole : List Nat}
    (left : first :: address <:+ whole) (right : second :: address <:+ whole) :
    first = second := by
  have suffix := List.suffix_of_suffix_length_le left right (Nat.le_refl _)
  exact (List.cons.inj (suffix.eq_of_length rfl)).1

mutual

/-- No two definitions of a tree have the same address. -/
theorem nodup_address_definitionsIn {address : List Nat} {around : List Tree} :
    {tree : Tree} → tree.HeadsDefinitions →
    ((definitionsIn address around tree).map Definition.address).Nodup
  | .node label field span text children, heads => by
      rcases headsDefinitions_node.1 heads with ⟨head, inside⟩
      cases defines : definitionKind? label with
      | none =>
          rw [definitionsIn_of_eq_none defines]
          exact nodup_address_definitionsAmong inside
      | some kind =>
          rw [definitionsIn_node defines (head (Feature.isDefinition_of_definitionKind? defines)),
            List.map_cons]
          refine List.nodup_cons.2 ⟨?_, nodup_address_definitionsAmong inside⟩
          simp only [List.mem_map]
          rintro ⟨definition, member, same⟩
          obtain ⟨index, -, suffix⟩ := exists_suffix_of_mem_definitionsAmong inside member
          have longer := suffix.length_le
          rw [same, List.length_cons] at longer
          exact Nat.not_succ_le_self _ longer

theorem nodup_address_definitionsAmong {address : List Nat} {around : List Tree}
    {position : Nat} : {trees : List Tree} → AllHeadDefinitions trees →
    ((definitionsAmong address around position trees).map Definition.address).Nodup
  | [], _ => List.nodup_nil
  | tree :: trees, heads => by
      rw [allHeadDefinitions_cons] at heads
      rw [definitionsAmong, List.map_append]
      refine List.nodup_append.2 ⟨nodup_address_definitionsIn heads.1,
        nodup_address_definitionsAmong heads.2, ?_⟩
      simp only [List.mem_map]
      rintro _ ⟨first, firstMem, rfl⟩ _ ⟨second, secondMem, rfl⟩ same
      have here := suffix_of_mem_definitionsIn heads.1 firstMem
      obtain ⟨index, after, later⟩ := exists_suffix_of_mem_definitionsAmong heads.2 secondMem
      rw [← same] at later
      have equal := eq_of_cons_suffix here later
      omega

end

theorem positionOf_eq {before after : List Definition} {definition : Definition}
    (distinct : ((before ++ definition :: after).map Definition.address).Nodup) :
    positionOf (before ++ definition :: after) definition.address = some before.length := by
  rw [List.map_append, List.map_cons] at distinct
  have apart := (List.nodup_append.1 distinct).2.2
  have fresh : before.findIdx? (fun other => other.address = definition.address) = none := by
    rw [List.findIdx?_eq_none_iff]
    intro other member
    exact decide_eq_false (apart _ (List.mem_map_of_mem member) _ List.mem_cons_self)
  rw [positionOf, List.findIdx?_append, fresh, List.findIdx?_cons]
  simp

theorem keyAt?_append {table : List Row} {parent : Option Nat} {key : Key}
    (known : keyAt? table parent = some key) (rows : List Row) :
    keyAt? (table ++ rows) parent = some key := by
  cases parent with
  | none => exact known
  | some position =>
      obtain ⟨row, found, rfl⟩ := Option.map_eq_some_iff.1 known
      rw [keyAt?, List.getElem?_append_left (List.getElem?_eq_some_iff.1 found).1, found,
        Option.map_some]

theorem keyAt?_concat (table : List Row) (row : Row) :
    keyAt? (table ++ [row]) (some table.length) = some row.node.key := by
  rw [keyAt?, List.getElem?_concat_length, Option.map_some]

mutual

/-- The definitions of a tree enter the rows of its outline. -/
theorem enters_definitionsIn {definitions : List Definition} (before after : List Definition)
    {table : List Row} {address : List Nat} {around : List Tree} {parent : Option Nat} {key : Key}
    (distinct : (definitions.map Definition.address).Nodup)
    (aligned : table.length = before.length) (known : keyAt? table parent = some key)
    (enclosed : (enclosing? address around).bind (positionOf definitions) = parent) :
    {tree : Tree} → tree.HeadsDefinitions →
    definitions = before ++ definitionsIn address around tree ++ after →
    Enters definitions table (definitionsIn address around tree)
      (Node.rowsOfAll table.length parent (definitionsOf key tree))
  | .node label field span text children, heads, whole => by
      rcases headsDefinitions_node.1 heads with ⟨head, inside⟩
      rw [definitionsOf]
      cases defines : definitionKind? label with
      | none =>
          rw [definitionsIn_of_eq_none defines] at whole ⊢
          refine enters_definitionsAmong before after distinct aligned known (fun position => ?_)
            inside whole
          rw [enclosing?]
          simp only [Tree.label, defines, Option.isSome_none, Bool.false_eq_true, if_false]
          exact enclosed
      | some kind =>
          have head := head (Feature.isDefinition_of_definitionKind? defines)
          rw [definitionsIn_node defines head] at whole ⊢
          simp only [Node.rowsOfAll, Node.rowsOf, List.append_nil]
          refine .cons (by rw [row?]; simp only [enclosed, known, Option.map_some]) ?_
          have position : positionOf definitions address = some table.length := by
            rw [whole, List.append_assoc, List.cons_append] at distinct ⊢
            rw [aligned]
            exact positionOf_eq distinct
          rw [List.append_cons] at whole
          have inner := enters_definitionsAmong (before ++ [_]) after distinct
            (by rw [List.length_append, List.length_append, aligned]; rfl)
            (keyAt?_concat table ⟨.mk (key.child (definitionName children))
              (definitionName children) kind span [], parent⟩)
            (fun _ => by
              rw [enclosing?]
              simp only [Tree.label, defines, Option.isSome_some, if_true]
              exact position) inside whole
          rwa [List.length_append] at inner

theorem enters_definitionsAmong {definitions : List Definition} (before after : List Definition)
    {table : List Row} {address : List Nat} {around : List Tree} {parent : Option Nat} {key : Key}
    {position : Nat}
    (distinct : (definitions.map Definition.address).Nodup)
    (aligned : table.length = before.length) (known : keyAt? table parent = some key)
    (enclosed : ∀ position,
      (enclosing? (position :: address) around).bind (positionOf definitions) = parent) :
    {trees : List Tree} → AllHeadDefinitions trees →
    definitions = before ++ definitionsAmong address around position trees ++ after →
    Enters definitions table (definitionsAmong address around position trees)
      (Node.rowsOfAll table.length parent (definitionsOfAll key trees))
  | [], _, _ => .nil table
  | tree :: trees, heads, whole => by
      rw [allHeadDefinitions_cons] at heads
      rw [definitionsAmong] at whole ⊢
      rw [definitionsOfAll, Node.rowsOfAll_append]
      rw [← List.append_assoc before] at whole
      have here := enters_definitionsIn before _ distinct aligned known (enclosed position) heads.1
        (whole.trans (List.append_assoc _ _ _))
      have level : (table ++ Node.rowsOfAll table.length parent (definitionsOf key tree)).length =
          (before ++ definitionsIn (position :: address) around tree).length := by
        rw [List.length_append, List.length_append, here.length_eq, aligned]
      have later := enters_definitionsAmong _ after distinct level (keyAt?_append known _) enclosed
        heads.2 whole
      rw [List.length_append, Node.length_rowsOfAll] at later
      exact here.append later

end

/-! ## Addresses -/

/-- The node of a tree at an address. -/
def nodeAt? (root : Tree) : (address : List Nat) → Option Tree
  | [] => some root
  | position :: address => (nodeAt? root address).bind fun around => around.children[position]?

/-- The node around the one at an address. -/
def nodeAround? (root : Tree) : (address : List Nat) → Option Tree
  | [] => none
  | _ :: address => nodeAt? root address

/-- A definition that was found has the address of the definition of a site, and the
same name, kind and span. -/
structure LeadsTo (root : Tree) (definition : Definition) (site : Site) : Prop where
  tree : nodeAt? root definition.address = some site.located.tree
  parent : nodeAround? root definition.address = site.located.parent
  name : site.node.name = definition.name
  kind : site.node.kind = definition.kind
  span : site.node.span = definition.span

mutual

/-- The definitions that are found in a tree lead to its sites, one after the other. -/
theorem leadsTo_definitionsIn {root : Tree} {address : List Nat} {around : List Tree}
    {parent : Option Tree} (key : Key) : {tree : Tree} → tree.HeadsDefinitions →
    nodeAt? root address = some tree → nodeAround? root address = parent →
    List.Forall₂ (LeadsTo root) (definitionsIn address around tree) (sitesOf parent key tree)
  | .node label field span text children, heads, here, outside => by
      rcases headsDefinitions_node.1 heads with ⟨head, inside⟩
      rw [sitesOf]
      cases defines : definitionKind? label with
      | none =>
          rw [definitionsIn_of_eq_none defines]
          exact leadsTo_definitionsAmong [] key inside here rfl
      | some kind =>
          rw [definitionsIn_node defines (head (Feature.isDefinition_of_definitionKind? defines))]
          exact .cons ⟨here, outside, rfl, rfl, rfl⟩
            (leadsTo_definitionsAmong [] _ inside here rfl)

theorem leadsTo_definitionsAmong {root : Tree} {address : List Nat} {around : List Tree}
    {parent : Tree} (before : List Tree) (key : Key) : {trees : List Tree} →
    AllHeadDefinitions trees → nodeAt? root address = some parent →
    parent.children = before ++ trees →
    List.Forall₂ (LeadsTo root) (definitionsAmong address around before.length trees)
      (sitesOfAll parent key trees)
  | [], _, _, _ => .nil
  | tree :: trees, heads, here, whole => by
      rw [allHeadDefinitions_cons] at heads
      have own : nodeAt? root (before.length :: address) = some tree := by
        simp [nodeAt?, here, whole]
      have later : List.Forall₂ (LeadsTo root)
          (definitionsAmong address around (before ++ [tree]).length trees)
          (sitesOfAll parent key trees) :=
        leadsTo_definitionsAmong (before ++ [tree]) key heads.2 here
          (whole.trans (List.append_cons _ _ _))
      rw [List.length_append] at later
      exact List.rel_append (leadsTo_definitionsIn key heads.1 own here) later

end

/-- The definitions of a tree begin one after the other. -/
theorem pairwise_start_definitionsIn {tree : Tree} (placed : tree.Placed)
    (heads : tree.HeadsDefinitions) :
    (definitionsIn [] [] tree).Pairwise fun first second =>
      first.span.startByte < second.span.startByte := by
  have leads : List.Forall₂ (LeadsTo tree) (definitionsIn [] [] tree) (sitesOf none .module tree) :=
    leadsTo_definitionsIn .module heads rfl rfl
  have spans : (definitionsIn [] [] tree).map Definition.span =
      (sitesOf none .module tree).map fun site => site.node.span := by
    rw [← List.forall₂_eq_eq_eq, List.forall₂_map_left_iff, List.forall₂_map_right_iff]
    exact leads.imp fun _ _ leadsTo => leadsTo.span.symm
  have starts : (sitesOf none .module tree).Pairwise fun first second =>
      first.node.span.startByte < second.node.span.startByte :=
    Feature.pairwise_start_sitesOf placed heads
  rw [← List.pairwise_map (f := fun site : Site => site.node.span)
    (R := fun first second : Span => first.startByte < second.startByte), ← spans,
    List.pairwise_map] at starts
  exact starts

end

/-! ## The order of definitions -/

namespace Definition

theorem precedes_total (first second : Definition) :
    first.precedes second = true ∨ second.precedes first = true := by
  simp only [precedes]
  grind

theorem precedes_trans {first second third : Definition} (left : first.precedes second = true)
    (right : second.precedes third = true) : first.precedes third = true := by
  simp only [precedes] at left right ⊢
  grind

theorem precedes_of_start_lt {first second : Definition}
    (before : first.span.startByte < second.span.startByte) : first.precedes second = true := by
  rw [precedes, if_neg (Nat.ne_of_lt before)]
  exact decide_eq_true before

theorem start_eq_of_precedes {first second : Definition} (left : first.precedes second = true)
    (right : second.precedes first = true) : first.span.startByte = second.span.startByte := by
  simp only [precedes] at left right
  grind

theorem perm_insertInto (definition : Definition) (definitions : List Definition) :
    (definition.insertInto definitions).Perm (definition :: definitions) := by
  induction definitions with
  | nil => exact .refl _
  | cons other others ih =>
      rw [insertInto]
      split
      · exact .refl _
      · exact (ih.cons other).trans (.swap _ _ _)

theorem perm_arrange (definitions : List Definition) :
    (arrange definitions).Perm definitions := by
  induction definitions with
  | nil => exact .refl _
  | cons definition definitions ih =>
      exact (perm_insertInto definition _).trans (ih.cons definition)

theorem pairwise_insertInto {definition : Definition} {definitions : List Definition}
    (ordered : definitions.Pairwise fun first second => first.precedes second = true) :
    (definition.insertInto definitions).Pairwise fun first second =>
      first.precedes second = true := by
  induction definitions with
  | nil => exact List.pairwise_singleton _ _
  | cons other others ih =>
      rcases List.pairwise_cons.1 ordered with ⟨least, rest⟩
      rw [insertInto]
      split
      · next first =>
          refine List.pairwise_cons.2 ⟨?_, ordered⟩
          intro later member
          rcases List.mem_cons.1 member with rfl | member
          · exact first
          · exact precedes_trans first (least later member)
      · next later =>
          refine List.pairwise_cons.2 ⟨?_, ih rest⟩
          intro next member
          rcases List.mem_cons.1 ((perm_insertInto definition others).mem_iff.1 member) with
            rfl | member
          · exact (precedes_total other next).resolve_right later
          · exact least next member

theorem pairwise_arrange (definitions : List Definition) :
    (arrange definitions).Pairwise fun first second => first.precedes second = true := by
  induction definitions with
  | nil => exact .nil
  | cons definition definitions ih => exact pairwise_insertInto ih

/-- Definitions that begin one after the other are put in this order, however they are
found. -/
theorem arrange_eq_of_perm {found definitions : List Definition} (perm : found.Perm definitions)
    (starts : definitions.Pairwise fun first second =>
      first.span.startByte < second.span.startByte) : arrange found = definitions := by
  apply ((perm_arrange found).trans perm).eq_of_pairwise ?_ (pairwise_arrange found)
    (starts.imp precedes_of_start_lt)
  intro first second firstMem secondMem before after
  have distinct : (definitions.map fun definition => definition.span.startByte).Nodup :=
    List.pairwise_map.2 (starts.imp Nat.ne_of_lt)
  exact List.inj_on_of_nodup_map distinct
    (((perm_arrange found).trans perm).mem_iff.1 firstMem) secondMem
    (start_eq_of_precedes before after)

end Definition

/-! ## Nesting -/

/-- Where a value is met again, some item is the first with a value from before it. -/
theorem exists_first_of_not_nodup {α β : Type} {value : α → β} {items : List α}
    (repeated : ¬ (items.map value).Nodup) :
    ∃ before item after, items = before ++ item :: after ∧ (before.map value).Nodup ∧
      ∃ earlier ∈ before, value earlier = value item := by
  induction items using List.reverseRecOn with
  | nil => exact absurd List.nodup_nil repeated
  | append_singleton items item ih =>
      by_cases distinct : (items.map value).Nodup
      · refine ⟨items, item, [], rfl, distinct, ?_⟩
        by_contra fresh
        apply repeated
        rw [List.map_append, List.map_singleton]
        refine List.nodup_append.2 ⟨distinct, List.nodup_singleton _, ?_⟩
        simp only [List.mem_map, List.mem_singleton]
        rintro _ ⟨earlier, member, rfl⟩ _ rfl same
        exact fresh ⟨earlier, member, same⟩
      · obtain ⟨before, first, after, rfl, rest⟩ := ih distinct
        exact ⟨before, first, after ++ [item], by rw [List.append_assoc, List.cons_append], rest⟩

section

variable {tree : Tree} {found : List Definition}

/-- The definitions in their order enter the rows of the outline. -/
theorem enters_arrange (placed : tree.Placed) (heads : tree.HeadsDefinitions)
    (perm : found.Perm (definitionsIn [] [] tree)) :
    Enters (Definition.arrange found) [] (Definition.arrange found)
      (Node.rowsOfAll 0 none (definitionsOf .module tree)) := by
  rw [Definition.arrange_eq_of_perm perm (pairwise_start_definitionsIn placed heads)]
  exact enters_definitionsIn [] [] (nodup_address_definitionsIn heads) rfl rfl rfl heads (by simp)

/-- Definitions whose keys are distinct make the outline of their tree. -/
theorem nest_eq_ok (placed : tree.Placed) (heads : tree.HeadsDefinitions)
    (perm : found.Perm (definitionsIn [] [] tree))
    (distinct : ((Node.preorderAll (definitionsOf .module tree)).map Node.key).Nodup) :
    nest found = .ok (definitionsOf .module tree) := by
  have keys : ((Node.rowsOfAll 0 none (definitionsOf .module tree)).map
      fun row => row.node.key).Nodup := by
    have same := congrArg (List.map Node.key)
      (Node.map_node_rowsOfAll 0 none (definitionsOf .module tree))
    simp only [List.map_map, Function.comp_def, Node.key_bare] at same
    rwa [same]
  have filled := (enters_arrange placed heads perm).fill_eq_ok keys
  rw [List.nil_append] at filled
  simp only [nest, filled, bind, Except.bind]
  exact handOver_table _

/-- The first definition whose key was there before is reported, with the definition that
has the key. -/
theorem nest_eq_repeated (placed : tree.Placed) (heads : tree.HeadsDefinitions)
    (perm : found.Perm (definitionsIn [] [] tree)) {before after : List Node}
    {earlier node : Node}
    (split : Node.preorderAll (definitionsOf .module tree) = before ++ node :: after)
    (distinct : (before.map Node.key).Nodup) (member : earlier ∈ before)
    (same : earlier.key = node.key) :
    nest found = .error (.repeated node.key earlier.span.startLine node.span.startLine) := by
  have rows := Node.map_node_rowsOfAll 0 none (definitionsOf .module tree)
  rw [split, List.map_append, List.map_cons] at rows
  obtain ⟨rowsBefore, rest, rowsSplit, nodesBefore, others⟩ := List.map_eq_append_iff.1 rows
  obtain ⟨row, rowsAfter, rfl, rowNode, -⟩ := List.map_eq_cons_iff.1 others
  have keys : (rowsBefore.map fun row => row.node.key).Nodup := by
    have sameKeys := congrArg (List.map Node.key) nodesBefore
    simp only [List.map_map, Function.comp_def, Node.key_bare] at sameKeys
    rwa [sameKeys]
  obtain ⟨earlierRow, earlierMem, earlierNode⟩ : ∃ row ∈ rowsBefore, row.node = earlier.bare := by
    rw [← List.mem_map, nodesBefore]
    exact List.mem_map_of_mem member
  have stopped := (enters_arrange placed heads perm).fill_eq_repeated rowsSplit keys earlierMem
    (by rw [earlierNode, rowNode, Node.key_bare, Node.key_bare, same])
  simp only [nest, stopped, bind, Except.bind, rowNode, earlierNode, Node.key_bare,
    Node.span_bare]

/-- Definitions make an outline exactly when their keys are distinct. -/
theorem nest_eq_ok_iff (placed : tree.Placed) (heads : tree.HeadsDefinitions)
    (perm : found.Perm (definitionsIn [] [] tree)) {nodes : List Node} :
    nest found = .ok nodes ↔
      ((Node.preorderAll (definitionsOf .module tree)).map Node.key).Nodup ∧
        nodes = definitionsOf .module tree := by
  constructor
  · intro nested
    have distinct : ((Node.preorderAll (definitionsOf .module tree)).map Node.key).Nodup := by
      by_contra repeated
      obtain ⟨before, node, after, split, first, earlier, member, same⟩ :=
        exists_first_of_not_nodup repeated
      rw [nest_eq_repeated placed heads perm split first member same] at nested
      cases nested
    rw [nest_eq_ok placed heads perm distinct] at nested
    exact ⟨distinct, (Except.ok.inj nested).symm⟩
  · rintro ⟨distinct, rfl⟩
    exact nest_eq_ok placed heads perm distinct

end

end SemanticDiff.Outline
