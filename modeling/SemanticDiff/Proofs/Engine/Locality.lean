import SemanticDiff.Proofs.Engine.Agreement
import SemanticDiff.Proofs.Feature.Region

/-!
# Edits stay where they are made

If two units differ inside one definition only, which keeps its name and its kind,
then all events between them are about this definition or about definitions inside
it.  Whatever else may change in the definition, decorators, parameters, bases or
body, nothing around it and nothing beside it takes notice.
-/

namespace SemanticDiff

open SemanticDiff.Feature (Differs IsLocal SameDecorators)
open SemanticDiff.Outline (Key NodeKind SourceUnit definitionKind? definitionName)
open SemanticDiff.Source (Tree Field Span)
open SemanticDiff.Source.Tree

/-! ## Profiles of a unit -/

namespace Outline.SourceUnit

variable {unit before after : SourceUnit}

theorem IsRead.nests_form (isRead : unit.IsRead) : unit.tree.form.Nests := by
  rcases isRead with ⟨text, made⟩
  exact (Source.nests_of_parse (read_eq_ok_iff.1 made).2.2.1).form

theorem IsRead.form_eq (isRead : unit.IsRead) :
    unit.tree.form =
      .node (.construct .module) none .nowhere "" (unit.tree.children.map form) := by
  rcases isRead with ⟨text, made⟩
  obtain ⟨_, _, _, _, -, same⟩ := Source.exists_reads_of_parse (read_eq_ok_iff.1 made).2.2.1
  rw [same, form_node]
  rfl

/-- Units that differ by a local change have the same profiles, but for the keys
that the change is about. -/
theorem mem_profiles_iff_of_differs {edit : Key → Tree → Tree → Prop} {inside : Key → Prop}
    (isLocal : IsLocal edit inside) (beforeRead : before.IsRead) (afterRead : after.IsRead)
    (differs : Differs edit .module before.tree.form after.tree.form)
    {profile : Key × NodeKind × Feature.Header × Feature.Facts} (outside : ¬ inside profile.1) :
    profile ∈ before.profiles ↔ profile ∈ after.profiles := by
  have root := differs.scopeFacts_eq isLocal beforeRead.nests_form afterRead.nests_form
    (by rw [beforeRead.form_eq]; rfl) (by rw [beforeRead.form_eq]; nofun)
  have alone : SameDecorators none none := fun _ _ => rfl
  have below := differs.mem_profilesOf_iff isLocal beforeRead.nests_form afterRead.nests_form
    alone outside
  rw [beforeRead.profiles_eq_cons, afterRead.profiles_eq_cons, List.mem_cons, List.mem_cons, root,
    below]

end Outline.SourceUnit

/-! ## Events -/

namespace Engine

variable {before after : SourceUnit}

theorem exists_finding_of_mem_finish {engine : Engine} {path revision : String}
    {findings : List Finding} {event : Event}
    (member : event ∈ engine.finish path revision findings) :
    ∃ finding ∈ findings, event.key = finding.key := by
  rw [finish] at member
  split at member
  · obtain ⟨finding, findingMem, key, -⟩ := exists_finding_of_mem_assemble member
    exact ⟨finding, findingMem, key⟩
  · rcases List.mem_mapIdx.1 member with ⟨order, bound, rfl⟩
    have kept := List.mem_of_mem_filter (List.getElem_mem bound)
    obtain ⟨finding, findingMem, key, -⟩ := exists_finding_of_mem_assemble kept
    exact ⟨finding, findingMem, key⟩

/-- Events are about keys only whose profiles differ. -/
theorem exists_diffUnits_inside (engine : Engine) {inside : Key → Prop}
    (beforeRead : before.IsRead) (afterRead : after.IsRead)
    (same : ∀ profile, ¬ inside profile.1 →
      (profile ∈ before.profiles ↔ profile ∈ after.profiles)) :
    ∃ events, engine.diffUnits before after = .ok events ∧ ∀ event ∈ events, inside event.key := by
  obtain ⟨findings, made, found⟩ := Catalog.exists_classifyAll fun context member =>
    Catalog.holds_of_mem_contexts beforeRead afterRead member
  refine ⟨_, engine.diffUnits_eq made, ?_⟩
  intro event member
  obtain ⟨finding, findingMem, eventKey⟩ := exists_finding_of_mem_finish member
  rcases (found finding).1 findingMem with ⟨context, contextMem, entry, entryMem, finds⟩
  obtain ⟨findingKey, -, reports⟩ := Catalog.reports_of_finds entryMem finds
  rw [eventKey, findingKey]
  exact inside_of_reports beforeRead afterRead same contextMem reports

/-- A local change has events about some keys only. -/
theorem exists_diffUnits_of_differs (engine : Engine) {edit : Key → Tree → Tree → Prop}
    {inside : Key → Prop} (isLocal : IsLocal edit inside) (beforeRead : before.IsRead)
    (afterRead : after.IsRead)
    (differs : Differs edit .module before.tree.form after.tree.form) :
    ∃ events, engine.diffUnits before after = .ok events ∧ ∀ event ∈ events, inside event.key := by
  apply engine.exists_diffUnits_inside beforeRead afterRead
  intro profile outside
  exact SourceUnit.mem_profiles_iff_of_differs isLocal beforeRead afterRead differs outside

end Engine

/-! ## Keys below a key -/

namespace Outline.Key

/-- The key is that of a definition, or of one inside it. -/
def IsWithin (key target : Key) : Prop :=
  key = target ∨ ∃ rest, key.text = target.text ++ "." ++ rest

theorem child_of_not_module {key : Key} (notModule : key ≠ .module) (name : String) :
    (key.child name).text = key.text ++ "." ++ name ∧ key.child name ≠ .module := by
  have other : key.isModule = false := by
    rw [isModule, beq_eq_false_iff_ne]
    intro same
    exact notModule (congrArg Key.mk same)
  have text : (key.child name).text = key.text ++ "." ++ name := by
    simp only [child, other, Bool.false_eq_true, if_false]
  refine ⟨text, ?_⟩
  intro same
  rw [same] at text
  have point : '.' ∈ (key.text ++ "." ++ name).toList := by simp
  rw [← text] at point
  revert point
  decide

/-- All keys that a path of names leads to begin alike. -/
theorem isWithin_descend {key : Key} (notModule : key ≠ .module) (names : List String) :
    (key.descend names).IsWithin key := by
  induction names generalizing key with
  | nil => exact Or.inl rfl
  | cons name names ih =>
      obtain ⟨text, childNotModule⟩ := child_of_not_module notModule name
      right
      rcases ih childNotModule with same | ⟨rest, longer⟩
      · exact ⟨name, (congrArg Key.text same).trans text⟩
      · refine ⟨name ++ "." ++ rest, longer.trans ?_⟩
        rw [text]
        simp only [String.append_assoc]

end Outline.Key

namespace Feature

variable {profile : Key × NodeKind × Header × Facts}

mutual

/-- The definitions of a tree have keys below that of the definition around. -/
theorem exists_descend_of_mem_profilesOf {parent : Option Tree} {key : Key} : {tree : Tree} →
    profile ∈ profilesOf parent key tree → ∃ names, profile.1 = key.descend names
  | .node label field span text children, member => by
      rw [profilesOf_node, ownProfiles, keyWithin] at member
      cases defines : definitionKind? label with
      | none =>
          simp only [defines, List.nil_append] at member
          exact exists_descend_of_mem_profilesOfAll member
      | some kind =>
          simp only [defines, List.singleton_append] at member
          rcases List.mem_cons.1 member with rfl | below
          · exact ⟨[definitionName children], rfl⟩
          · rcases exists_descend_of_mem_profilesOfAll below with ⟨names, leads⟩
            exact ⟨definitionName children :: names, leads⟩

theorem exists_descend_of_mem_profilesOfAll {parent : Tree} {key : Key} : {trees : List Tree} →
    profile ∈ profilesOfAll parent key trees → ∃ names, profile.1 = key.descend names
  | [], member => by cases member
  | tree :: trees, member => by
      rw [profilesOfAll_cons] at member
      rcases List.mem_append.1 member with here | later
      · exact exists_descend_of_mem_profilesOf here
      · exact exists_descend_of_mem_profilesOfAll later

end

/-! ## Redefinitions -/

/-- The tree is the definition of a name. -/
structure IsDefinition (kind : NodeKind) (name : String) (tree : Tree) : Prop where
  kind : definitionKind? tree.label = some kind
  name : definitionName tree.children = name

/-- The tree is a statement that defines a name, with decorators or without. -/
inductive Defines (kind : NodeKind) (name : String) : Tree → Prop
  | plain {tree : Tree} (definition : IsDefinition kind name tree) : Defines kind name tree
  | decorated {field : Option Field} {span : Span} {text : String} {before after : List Tree}
      {tree : Tree} (definition : IsDefinition kind name tree)
      (role : tree.field = some .definition)
      (alone : ∀ other ∈ before ++ after, other.field ≠ some .definition) :
      Defines kind name
        (.node (.construct .decoratedDefinition) field span text (before ++ tree :: after))

/-- Two statements, both directly inside the definition of a key, define the same
name as the same kind of thing.  The key of what they define is the target. -/
def Redefines (target key : Key) (old new : Tree) : Prop :=
  ∃ kind name, target = key.child name ∧ Defines kind name old ∧ Defines kind name new

namespace Defines

variable {kind : NodeKind} {name : String} {tree : Tree}

theorem isStatement (defines : Defines kind name tree) :
    tree.label.isDefinition = true ∨ tree.label = .construct .decoratedDefinition := by
  cases defines with
  | plain definition => exact Or.inl (isDefinition_of_definitionKind? definition.kind)
  | decorated => exact Or.inr rfl

theorem holdsDefinition (defines : Defines kind name tree) : tree.holdsDefinition = true := by
  have own {tree : Tree} (definition : IsDefinition kind name tree) :
      tree.holdsDefinition = true := by
    have label := isDefinition_of_definitionKind? definition.kind
    rcases tree with ⟨_, field, span, text, children⟩
    rw [Tree.holdsDefinition, Bool.or_eq_true]
    exact Or.inl label
  cases defines with
  | plain definition => exact own definition
  | decorated definition => exact holdsDefinition_of_mem (by simp) (own definition)

/-- From around a definition only its kind can be seen. -/
theorem factsOf_eq (defines : Defines kind name tree) :
    factsOf tree = nestedFacts (.construct (construct kind)) := by
  cases defines with
  | plain definition =>
      rw [factsOf_of_isDefinition (isDefinition_of_definitionKind? definition.kind),
        label_of_definitionKind? definition.kind]
  | @decorated _ _ _ before after tree definition role alone =>
      have first : before.find? (fun child => child.field == some .definition) = none := by
        rw [List.find?_eq_none]
        intro other member
        simpa using alone other (List.mem_append_left after member)
      rw [factsOf, List.find?_append, first, Option.none_or,
        List.find?_cons_of_pos (by simp [role]), ← label_of_definitionKind? definition.kind]
      rfl

theorem profilesOf_of_isDefinition {parent : Option Tree} {key : Key}
    (definition : IsDefinition kind name tree) :
    (∃ profile ∈ profilesOf parent key tree, profile.1 = key.child name) ∧
      ∀ profile ∈ profilesOf parent key tree,
        ∃ names, profile.1 = (key.child name).descend names := by
  rcases tree with ⟨label, field, span, text, children⟩
  rcases definition with ⟨isKind, rfl⟩
  rw [Tree.label] at isKind
  rw [profilesOf_node, ownProfiles, keyWithin, isKind, List.singleton_append]
  constructor
  · exact ⟨_, List.mem_cons_self, rfl⟩
  · intro profile member
    rcases List.mem_cons.1 member with rfl | below
    · exact ⟨[], rfl⟩
    · exact exists_descend_of_mem_profilesOfAll below

/-- The profiles of a decorated definition are those of the definition. -/
theorem profilesOf_decorated {parent : Option Tree} {key : Key} {field : Option Field} {span : Span}
    {text : String} {before after : List Tree}
    (nests : (node (.construct .decoratedDefinition) field span text
      (before ++ tree :: after)).Nests)
    (alone : ∀ other ∈ before ++ after, other.field ≠ some .definition) :
    profilesOf parent key (node (.construct .decoratedDefinition) field span text
        (before ++ tree :: after)) =
      profilesOf (some (node (.construct .decoratedDefinition) field span text
        (before ++ tree :: after))) key tree := by
  have quiet : ∀ other ∈ before ++ after, other.holdsDefinition = false := by
    intro other member
    rw [← Bool.not_eq_true]
    intro holds
    have listed : other ∈ before ++ tree :: after := by
      rw [List.mem_append] at member
      rw [List.mem_append, List.mem_cons]
      exact member.imp_right Or.inr
    obtain ⟨rank, admits, has⟩ := (nests_node.1 nests).1 other listed holds
    exact alone other member (hasRank_decorated_of_admits admits has).2
  rw [profilesOf_node, profilesOfAll_append, profilesOfAll_cons,
    profilesOfAll_eq_nil _ _ fun other member => quiet other (List.mem_append_left after member),
    profilesOfAll_eq_nil _ _ fun other member => quiet other (List.mem_append_right before member),
    List.append_nil]
  rfl

/-- A statement has the profile of what it defines, and else only profiles of what
is defined inside. -/
theorem profilesOf_spec (defines : Defines kind name tree) (nests : tree.Nests)
    (parent : Option Tree) (key : Key) :
    (∃ profile ∈ profilesOf parent key tree, profile.1 = key.child name) ∧
      ∀ profile ∈ profilesOf parent key tree,
        ∃ names, profile.1 = (key.child name).descend names := by
  cases defines with
  | plain definition => exact profilesOf_of_isDefinition definition
  | decorated definition _ alone =>
      rw [profilesOf_decorated nests alone]
      exact profilesOf_of_isDefinition definition

end Defines

/-- The new definition of a name can be seen from no other definition. -/
theorem isLocal_redefines (target : Key) :
    IsLocal (Redefines target) fun key => ∃ names, key = target.descend names where
  holds := by
    rintro key old new ⟨kind, name, -, oldDefines, newDefines⟩
    exact ⟨oldDefines.holdsDefinition, newDefines.holdsDefinition⟩
  statement := by
    rintro key old new ⟨kind, name, -, oldDefines, -⟩
    exact oldDefines.isStatement
  facts := by
    rintro key old new ⟨kind, name, -, oldDefines, newDefines⟩ - -
    rw [oldDefines.factsOf_eq, newDefines.factsOf_eq]
  profiles := by
    rintro key old new ⟨kind, name, rfl, oldDefines, newDefines⟩ oldNests newNests parent parent'
      - profile outside
    constructor
    · intro member
      exact absurd ((oldDefines.profilesOf_spec oldNests parent key).2 profile member) outside
    · intro member
      exact absurd ((newDefines.profilesOf_spec newNests parent' key).2 profile member) outside

/-- What is defined anew is a definition of the tree. -/
theorem exists_profile_of_redefines {target key : Key} {old new : Tree}
    (differs : Differs (Redefines target) key old new) (nests : old.Nests)
    (parent : Option Tree) : ∃ profile ∈ profilesOf parent key old, profile.1 = target := by
  induction differs generalizing parent with
  | here edited =>
      rcases edited with ⟨kind, name, rfl, oldDefines, -⟩
      exact (oldDefines.profilesOf_spec nests parent _).1
  | @inside _ _ _ _ _ before after old _ _ ih =>
      have inside := allNest_iff.1 (nests_node.1 nests).2 old (by simp)
      obtain ⟨profile, member, same⟩ := ih inside (some _)
      refine ⟨profile, ?_, same⟩
      rw [profilesOf_node, profilesOfAll_append, profilesOfAll_cons]
      simp only [List.mem_append]
      exact Or.inr (Or.inr (Or.inl member))

end Feature

namespace Engine

variable {before after : SourceUnit}

/-- If two units differ inside one definition only, which keeps its name and its
kind, all events are about this definition or about definitions inside it. -/
theorem exists_diffUnits_isWithin (engine : Engine) {target : Key} (beforeRead : before.IsRead)
    (afterRead : after.IsRead)
    (differs : Differs (Feature.Redefines target) .module before.tree.form after.tree.form) :
    ∃ events, engine.diffUnits before after = .ok events ∧
      ∀ event ∈ events, event.key.IsWithin target := by
  obtain ⟨profile, member, same⟩ :=
    Feature.exists_profile_of_redefines differs beforeRead.nests_form none
  have notModule : target ≠ .module := by
    rintro rfl
    have plain := beforeRead.isPlain_of_mem_profilesOf member
    rw [same] at plain
    exact Key.not_isPlain_module plain
  obtain ⟨events, made, inside⟩ :=
    engine.exists_diffUnits_of_differs (Feature.isLocal_redefines target) beforeRead afterRead
      differs
  refine ⟨events, made, ?_⟩
  intro event eventMem
  rcases inside event eventMem with ⟨names, leads⟩
  rw [leads]
  exact Key.isWithin_descend notModule names

/-- A function that gains a decorator and a parameter. -/
theorem exists_diffUnits_isWithin_decorated :
    ∃ before after events,
      SourceUnit.read "m.py" "r1" "def f(): pass\n" = .ok before ∧
      SourceUnit.read "m.py" "r1" "@g\ndef f(a): pass\n" = .ok after ∧
      default.diffUnits before after = .ok events ∧
      ∀ event ∈ events, event.key.IsWithin ⟨"f"⟩ := by
  obtain ⟨before, oldRead, oldView⟩ := @exists_ok_of_map_eq_some _ _ _
    (SourceUnit.read "m.py" "r1" "def f(): pass\n")
    (fun unit => unit.tree.children.map fun child =>
      (definitionKind? child.label, definitionName child.children))
    [(some .functionDef, "f")] (by decide +kernel)
  obtain ⟨after, newRead, newView⟩ := @exists_ok_of_map_eq_some _ _ _
    (SourceUnit.read "m.py" "r1" "@g\ndef f(a): pass\n")
    (fun unit => unit.tree.children.map Tree.label)
    [.construct .decoratedDefinition] (by decide +kernel)
  have parts : (SourceUnit.read "m.py" "r1" "@g\ndef f(a): pass\n").toOption.map
      (fun unit => (unit.tree.children.flatMap Tree.children).map fun part =>
        (part.field, definitionKind? part.label, definitionName part.children)) =
      some [(none, none, ""), (some .definition, some .functionDef, "f")] := by
    decide +kernel
  rw [newRead] at parts
  have beforeRead := SourceUnit.isRead_of_read oldRead
  have afterRead := SourceUnit.isRead_of_read newRead
  have differs : Differs (Feature.Redefines ⟨"f"⟩) .module before.tree.form after.tree.form := by
    rcases List.map_eq_singleton_iff.1 oldView with ⟨old, oldChildren, oldShape⟩
    rcases List.map_eq_singleton_iff.1 newView with ⟨new, newChildren, newShape⟩
    have parts := Option.some.inj parts
    simp only [newChildren, List.flatMap_singleton] at parts
    obtain ⟨decorator, rest, newParts, decoratorShape, restParts⟩ := List.map_eq_cons_iff.1 parts
    rcases List.map_eq_singleton_iff.1 restParts with ⟨definition, rfl, definitionShape⟩
    rcases new with ⟨label, field, span, text, children⟩
    simp only [Tree.label, Tree.children] at newShape newParts
    subst newShape newParts
    simp only [Prod.mk.injEq] at oldShape decoratorShape definitionShape
    rw [beforeRead.form_eq, afterRead.form_eq, oldChildren, newChildren]
    apply @Differs.inside _ _ _ _ _ _ [] []
    apply Differs.here
    refine ⟨.functionDef, "f", rfl, .plain ⟨?_, ?_⟩, ?_⟩
    · rw [label_form, oldShape.1]
    · rw [children_form, Feature.definitionName_form, oldShape.2]
    · rw [form_node]
      apply @Feature.Defines.decorated _ _ _ _ _ [decorator.form] []
      · constructor
        · rw [label_form, definitionShape.2.1]
        · rw [children_form, Feature.definitionName_form, definitionShape.2.2]
      · rw [field_form, definitionShape.1]
      · simp [decoratorShape.1]
  obtain ⟨events, made, within⟩ := default.exists_diffUnits_isWithin beforeRead afterRead differs
  exact ⟨before, after, events, oldRead, newRead, made, within⟩

end Engine

end SemanticDiff
