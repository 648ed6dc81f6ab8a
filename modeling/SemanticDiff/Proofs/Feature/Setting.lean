import SemanticDiff.Proofs.Collection.Result
import SemanticDiff.Proofs.Feature.Places
import SemanticDiff.Proofs.Source.Fragment

/-!
# How tokens are set

The text of a fragment is made of the texts of its tokens in their order, with nothing
or a single space between two of them.  Where two words would run into one, there is a
space.  Of all tokens of the fragment only commas are ever left out.
-/

namespace SemanticDiff.Feature

open SemanticDiff.Source (Tree Kind Label Field Span parse isTight)
open SemanticDiff.Source.Tree
open SemanticDiff.Text (isWordChar isWhiteSpace)

/-! ## Texts with gaps between them -/

/-- Whether a text begins with a character of a word. -/
def beginsWord (text : String) : Bool :=
  text.toList.head?.any isWordChar

/-- Whether a text ends with a character of a word. -/
def endsWord (text : String) : Bool :=
  text.toList.getLast?.any isWordChar

/-- Texts one after the other, with at most a space between two of them, and a space
where words meet. -/
inductive SetOut : List String → List Char → Prop
  | last (text : String) : SetOut [text] text.toList
  | next {text follower : String} {texts : List String} {gap set : List Char}
      (narrow : gap = [] ∨ gap = [' '])
      (apart : endsWord text = true → beginsWord follower = true → gap = [' '])
      (rest : SetOut (follower :: texts) set) :
      SetOut (text :: follower :: texts) (text.toList ++ (gap ++ set))

/-- The characters of some texts without spaces. -/
def withoutSpaces (texts : List String) : List Char :=
  (texts.flatMap String.toList).filter (· ≠ ' ')

namespace SetOut

variable {texts : List String} {set : List Char}

/-- Up to spaces, texts that are set out are only put together. -/
theorem filter_eq (setOut : SetOut texts set) :
    set.filter (· ≠ ' ') = withoutSpaces texts := by
  induction setOut with
  | last text => simp [withoutSpaces]
  | @next text follower texts gap set narrow _ _ ih =>
      have blank : gap.filter (· ≠ ' ') = [] := by
        rcases narrow with rfl | rfl <;> rfl
      rw [List.filter_append, List.filter_append, blank, ih]
      simp [withoutSpaces]

/-- Tight texts that are set out make a tight text. -/
theorem isTight_ofList (setOut : SetOut texts set) (tight : ∀ text ∈ texts, isTight text = true) :
    isTight (String.ofList set) = true := by
  have keeps {first second : Option Char} (own : first.any (!isWhiteSpace ·) = true) :
      (first.or second).any (!isWhiteSpace ·) = true := by
    cases first with
    | none => cases own
    | some => exact own
  induction setOut with
  | last text => simpa using tight text (by simp)
  | @next text follower texts gap set _ _ _ ih =>
      have own := tight text (by simp)
      have later := ih fun other member => tight other (List.mem_cons_of_mem _ member)
      rw [isTight, Bool.and_eq_true] at own later ⊢
      rw [String.toList_ofList] at later
      rw [String.toList_ofList, List.head?_append, List.getLast?_append, List.getLast?_append]
      exact ⟨keeps own.1, keeps (keeps later.2)⟩

end SetOut

/-! ## One token after another -/

namespace Token

/-- A space where one is wanted. -/
def spaceIf (wanted : Bool) : List Char :=
  if wanted then [' '] else []

theorem cons_ite (wanted : Bool) (out : List Char) :
    (if wanted then ' ' :: out else out) = spaceIf wanted ++ out := by
  cases wanted <;> rfl

theorem spaceIf_eq (wanted : Bool) : spaceIf wanted = [] ∨ spaceIf wanted = [' '] := by
  cases wanted
  · exact Or.inl rfl
  · exact Or.inr rfl

/-- What is left of a text when a bracket has taken back the space at its end. -/
def closeUp (out : List Char) (token : Token) : List Char :=
  if token.isClosing && out.head? == some ' ' then out.tail else out

theorem set_eq (out : List Char) (token : Token) :
    token.set out =
      spaceIf token.opensSpace ++ (token.text.toList.reverse ++
        (spaceIf ((token.isOperator || (out.head?.any isWordChar && beginsWord token.text)) &&
          !(closeUp out token).isEmpty && (closeUp out token).head? != some ' ') ++
            closeUp out token)) := by
  rw [← cons_ite, ← cons_ite]
  rfl

/-- The first token. -/
theorem set_nil (token : Token) :
    token.set [] = spaceIf token.opensSpace ++ token.text.toList.reverse := by
  have nothing : closeUp [] token = [] := by simp [closeUp]
  simp [set_eq, nothing, spaceIf]

theorem beginsWord_of_isClosing {token : Token} (closing : token.isClosing = true) :
    beginsWord token.text = false := by
  have all : ∀ text ∈ [")", "]", "\x7d"], beginsWord text = false := by decide
  exact all token.text (List.contains_iff_mem.1 closing)

/-- The last character of a tight text comes first when the text is held backwards. -/
theorem exists_reverse_eq_cons {text : String} (tight : isTight text = true) :
    ∃ last front, text.toList.reverse = last :: front ∧ last ≠ ' ' ∧
      endsWord text = isWordChar last := by
  rw [isTight, Bool.and_eq_true, Option.any_eq_true, Option.any_eq_true] at tight
  obtain ⟨-, last, isLast, visible⟩ := tight
  rw [← List.head?_reverse] at isLast
  obtain ⟨front, here⟩ := List.head?_eq_some_iff.1 isLast
  refine ⟨last, front, here, ?_, ?_⟩
  · rintro rfl
    cases visible
  · rw [endsWord, ← List.head?_reverse, isLast]
    rfl

/-- Setting a token after a tight text puts at most a space between them, and may open
a space after it. -/
theorem set_append {text : String} (tight : isTight text = true) (pending : Bool)
    (base : List Char) (token : Token) :
    ∃ gap, (gap = [] ∨ gap = [' ']) ∧
      (endsWord text = true → beginsWord token.text = true → gap = [' ']) ∧
      token.set (spaceIf pending ++ (text.toList.reverse ++ base)) =
        spaceIf token.opensSpace ++
          (token.text.toList.reverse ++ (gap ++ (text.toList.reverse ++ base))) := by
  obtain ⟨last, front, backwards, noSpace, ends⟩ := exists_reverse_eq_cons tight
  rw [backwards, ends]
  have noWord : isWordChar ' ' = false := by decide
  have visible : (some last != some ' ') = true := by simp [noSpace]
  cases pending with
  | false =>
      -- Only a word or an operator sets the text apart.
      refine ⟨spaceIf (token.isOperator || (isWordChar last && beginsWord token.text)),
        spaceIf_eq _, ?_, ?_⟩
      · intro word follows
        rw [word, follows, Bool.and_self, Bool.or_true]
        rfl
      · have kept : closeUp (last :: (front ++ base)) token = last :: (front ++ base) := by
          simp [closeUp, noSpace]
        rw [show spaceIf false = [] from rfl, List.nil_append, List.cons_append, set_eq, kept]
        simp [visible]
  | true =>
      -- A bracket takes back the space that the text left.
      refine ⟨spaceIf (!token.isClosing || token.isOperator), spaceIf_eq _, ?_, ?_⟩
      · intro word follows
        cases closing : token.isClosing with
        | true =>
            rw [beginsWord_of_isClosing closing] at follows
            cases follows
        | false => rfl
      · rw [show spaceIf true = [' '] from rfl, List.cons_append, List.cons_append,
          List.nil_append, set_eq]
        cases closing : token.isClosing with
        | true =>
            have taken : closeUp (' ' :: last :: (front ++ base)) token =
                last :: (front ++ base) := by simp [closeUp, closing]
            simp [taken, noWord, visible]
        | false =>
            have kept : closeUp (' ' :: last :: (front ++ base)) token =
                ' ' :: last :: (front ++ base) := by simp [closeUp, closing]
            simp [kept, spaceIf]

/-- Tokens that are set after a tight text are set out after it, up to a space at the
end. -/
theorem exists_setOut_foldl (run : List Token) (tightRun : ∀ token ∈ run, isTight token.text = true)
    {text : String} (tight : isTight text = true) (pending : Bool) (base : List Char) :
    ∃ out, SetOut (text :: run.map Token.text) out ∧
      (run.foldl set (spaceIf pending ++ (text.toList.reverse ++ base))).dropWhile (· == ' ') =
        out.reverse ++ base := by
  induction run generalizing text pending base with
  | nil =>
      obtain ⟨last, front, backwards, noSpace, -⟩ := exists_reverse_eq_cons tight
      refine ⟨text.toList, .last text, ?_⟩
      rw [List.foldl_nil, backwards]
      cases pending <;> simp [spaceIf, noSpace]
  | cons token run ih =>
      rcases List.forall_mem_cons.1 tightRun with ⟨tightToken, tightRest⟩
      obtain ⟨gap, narrow, apart, isSet⟩ := set_append tight pending base token
      obtain ⟨out, rest, ends⟩ :=
        ih tightRest tightToken token.opensSpace (gap ++ (text.toList.reverse ++ base))
      refine ⟨text.toList ++ (gap ++ out), .next narrow apart rest, ?_⟩
      have symmetric : gap.reverse = gap := by rcases narrow with rfl | rfl <;> rfl
      rw [List.foldl_cons, isSet, ends]
      simp [symmetric]

end Token

/-- Tight tokens are set out. -/
theorem setOut_setTokens {run : List Token} (some : run ≠ [])
    (tight : ∀ token ∈ run, isTight token.text = true) :
    SetOut (run.map Token.text) (setTokens run).toList := by
  cases run with
  | nil => exact absurd rfl some
  | cons token run =>
      rcases List.forall_mem_cons.1 tight with ⟨tightToken, tightRest⟩
      obtain ⟨out, setOut, ends⟩ :=
        Token.exists_setOut_foldl run tightRest tightToken token.opensSpace []
      rw [List.append_nil] at ends
      rw [setTokens, List.foldl_cons, Token.set_nil, ends, String.toList_ofList, List.append_nil,
        List.reverse_reverse]
      exact setOut

/-! ## The tokens of a fragment -/

/-- Whether a node is a token as a whole: it has no parts, or is a string literal. -/
def isWhole (tree : Tree) : Bool :=
  tree.children.isEmpty || tree.is .string

section

variable {label : Label} {field : Option Field} {span : Span} {text : String}
  {children : List Tree}

theorem tokens_node (parent : Option Kind) :
    tokens parent (.node label field span text children) =
      if (node label field span text children).isLayout then []
      else if isWhole (.node label field span text children) then
        [{ text, named := (kindOf? label).isSome, parent }]
      else tokensAll label children := by
  simp [tokens, isLayout, isWhole, is, Tree.label, Tree.children]

theorem isWhole_node :
    isWhole (.node label field span text children) = true ↔
      children = [] ∨ label = .construct .string := by
  simp [isWhole, is, Tree.label, Tree.children]

end

mutual

/-- The tokens of a neat tree are tight. -/
theorem isTight_of_mem_tokens (parent : Option Kind) : (tree : Tree) → tree.Neat →
    ∀ token ∈ tokens parent tree, isTight token.text = true
  | .node label field span text children, neat => by
      intro token member
      rw [tokens_node] at member
      split at member
      · cases member
      · rename_i visible
        rw [Bool.not_eq_true] at visible
        split at member
        · rename_i whole
          rw [List.mem_singleton.1 member]
          exact neat.isTight_text visible (isWhole_node.1 whole)
        · rename_i parts
          rw [isWhole_node, not_or] at parts
          exact isTight_of_mem_tokensAll label children (neat.inside visible parts.2) token member

theorem isTight_of_mem_tokensAll (around : Label) : (trees : List Tree) →
    (∀ tree ∈ trees, tree.Neat) → ∀ token ∈ tokensAll around trees, isTight token.text = true
  | [], _ => by simp [tokensAll]
  | tree :: trees, neat => by
      intro token member
      rcases List.forall_mem_cons.1 neat with ⟨own, rest⟩
      rw [tokensAll] at member
      split at member
      · exact isTight_of_mem_tokensAll around trees rest token member
      · rcases List.mem_append.1 member with here | later
        · exact isTight_of_mem_tokens (kindOf? around) tree own token here
        · exact isTight_of_mem_tokensAll around trees rest token later

end

theorem isTrailingComma_of_isSeen {tree : Tree} (seen : tree.isSeen = true) (around : Label)
    (next : Option Tree) : isTrailingComma around tree next = false := by
  rw [isSeen, Bool.and_eq_true, Bool.not_eq_true', Bool.not_eq_true'] at seen
  simp [isTrailingComma, seen.2]

mutual

/-- A neat tree that is no layout has tokens. -/
theorem tokens_ne_nil (parent : Option Kind) : (tree : Tree) → tree.Neat →
    tree.isLayout = false → tokens parent tree ≠ []
  | .node label field span text children, neat, visible => by
      rw [tokens_node, visible, if_neg Bool.false_ne_true]
      split
      · simp
      · rename_i parts
        rw [isWhole_node, not_or] at parts
        refine tokensAll_ne_nil label children (neat.inside visible parts.2) ?_
        cases neat with
        | layout is =>
            rw [visible] at is
            cases is
        | token whole => exact absurd whole (not_or.2 parts)
        | node _ seen _ => exact seen

theorem tokensAll_ne_nil (around : Label) : (trees : List Tree) → (∀ tree ∈ trees, tree.Neat) →
    (∃ tree ∈ trees, tree.isSeen = true) → tokensAll around trees ≠ []
  | [], _, seen => by simp at seen
  | tree :: trees, neat, ⟨found, member, seen⟩ => by
      rcases List.forall_mem_cons.1 neat with ⟨own, rest⟩
      rw [tokensAll]
      rcases List.mem_cons.1 member with same | later
      · rw [same] at seen
        have first := tokens_ne_nil (kindOf? around) tree own (isLayout_of_isSeen seen)
        rw [isTrailingComma_of_isSeen seen, if_neg Bool.false_ne_true]
        exact List.append_ne_nil_of_left_ne_nil first _
      · have more := tokensAll_ne_nil around trees rest ⟨found, later, seen⟩
        split
        · exact more
        · exact List.append_ne_nil_of_right_ne_nil _ more

end

/-- The text of a neat tree is tight. -/
theorem isTight_render {tree : Tree} (neat : tree.Neat) (visible : tree.isLayout = false) :
    isTight (render tree) = true := by
  have tight := isTight_of_mem_tokens none tree neat
  have setOut := setOut_setTokens (tokens_ne_nil none tree neat visible) tight
  have ends := setOut.isTight_ofList (by simpa using tight)
  rwa [String.ofList_toList] at ends

/-! ## Leaves -/

/-- A token of a tree as it stands there: its node, the node around it and the next
sibling. -/
structure Leaf where
  tree : Tree
  around : Option Label
  next : Option Tree

/-- Whether a leaf is a comma that only ends a list. -/
def Leaf.endsList (leaf : Leaf) : Bool :=
  leaf.around.any fun around => isTrailingComma around leaf.tree leaf.next

mutual

/-- The leaves of a tree in source order.  A string literal is one leaf, and layout is
none. -/
def leavesOf (around : Option Label) (next : Option Tree) : Tree → List Leaf
  | .node label field span text children =>
      let tree : Tree := .node label field span text children
      if tree.isLayout then []
      else if isWhole tree then [⟨tree, around, next⟩]
      else leavesOfAll label children

/-- The leaves of the children of a node. -/
def leavesOfAll (around : Label) : List Tree → List Leaf
  | [] => []
  | tree :: trees => leavesOf (some around) trees.head? tree ++ leavesOfAll around trees

end

/-- The texts of the leaves of a fragment, without the commas that only end a list. -/
def keptTexts (tree : Tree) : List String :=
  ((leavesOf none none tree).filter fun leaf => !leaf.endsList).map fun leaf => leaf.tree.text

mutual

theorem leavesOf_placed (around : Option Label) (next : Option Tree) : (tree : Tree) →
    tree.Placed →
    (∀ leaf ∈ leavesOf around next tree, tree.span.startByte ≤ leaf.tree.span.startByte ∧
        leaf.tree.span.endByte ≤ tree.span.endByte) ∧
      (leavesOf around next tree).Pairwise fun first second =>
        first.tree.span.endByte ≤ second.tree.span.startByte
  | .node label field span text children, placed => by
      rw [leavesOf]
      split
      · simp
      · split
        · simp
        · exact leavesOfAll_placed label children (placed_node.1 placed)

theorem leavesOfAll_placed (around : Label) {low high : Nat} : (trees : List Tree) →
    PlacedBetween low high trees →
    (∀ leaf ∈ leavesOfAll around trees, low ≤ leaf.tree.span.startByte ∧
        leaf.tree.span.endByte ≤ high) ∧
      (leavesOfAll around trees).Pairwise fun first second =>
        first.tree.span.endByte ≤ second.tree.span.startByte
  | [], _ => by simp [leavesOfAll]
  | tree :: trees, placed => by
      rcases placedBetween_cons.1 placed with ⟨begins, own, rest⟩
      obtain ⟨ownWithin, ownOrder⟩ := leavesOf_placed (some around) trees.head? tree own
      obtain ⟨restWithin, restOrder⟩ := leavesOfAll_placed around trees rest
      rw [leavesOfAll]
      refine ⟨fun leaf member => ?_, List.pairwise_append.2 ⟨ownOrder, restOrder, ?_⟩⟩
      · rcases List.mem_append.1 member with here | later
        · obtain ⟨starts, ends⟩ := ownWithin leaf here
          exact ⟨begins.trans starts, ends.trans rest.le⟩
        · obtain ⟨starts, ends⟩ := restWithin leaf later
          exact ⟨(begins.trans own.start_le_end).trans starts, ends⟩
      · intro first firstMem second secondMem
        exact (ownWithin first firstMem).2.trans (restWithin second secondMem).1

end

/-- A comma is a leaf. -/
theorem leavesOf_comma {tree : Tree} (neat : tree.Neat) (comma : tree.isLiteral "," = true)
    (around : Option Label) (next : Option Tree) :
    leavesOf around next tree = [⟨tree, around, next⟩] := by
  rcases tree with ⟨label, field, span, text, children⟩
  have spelled : label = .literal "," := by simpa [isLiteral, Tree.label] using comma
  subst spelled
  have visible : (node (.literal ",") field span text children).isLayout = false := rfl
  have whole : isWhole (.node (.literal ",") field span text children) = true := by
    rw [isWhole_node]
    cases neat with
    | layout is => cases is
    | token whole => exact whole
    | node composed => cases composed
  rw [leavesOf]
  simp only [visible, whole, Bool.false_eq_true, if_false, if_true]

mutual

/-- The leaves of a neat tree, without the commas that only end a list, are its
tokens. -/
theorem map_text_tokens (parent : Option Kind) (around : Option Label) (next : Option Tree) :
    (tree : Tree) → tree.Neat →
    around.any (fun around => isTrailingComma around tree next) = false →
    (tokens parent tree).map Token.text =
      ((leavesOf around next tree).filter fun leaf => !leaf.endsList).map
        fun leaf => leaf.tree.text
  | .node label field span text children, neat, kept => by
      rw [tokens_node, leavesOf]
      split
      · rfl
      · rename_i visible
        rw [Bool.not_eq_true] at visible
        split
        · simp [Leaf.endsList, kept, Tree.text]
        · rename_i parts
          rw [isWhole_node, not_or] at parts
          exact map_text_tokensAll label children (neat.inside visible parts.2)

theorem map_text_tokensAll (around : Label) : (trees : List Tree) →
    (∀ tree ∈ trees, tree.Neat) →
    (tokensAll around trees).map Token.text =
      ((leavesOfAll around trees).filter fun leaf => !leaf.endsList).map
        fun leaf => leaf.tree.text
  | [], _ => rfl
  | tree :: trees, neat => by
      rcases List.forall_mem_cons.1 neat with ⟨own, rest⟩
      rw [tokensAll, leavesOfAll, List.filter_append, List.map_append,
        ← map_text_tokensAll around trees rest]
      split
      · rename_i ends
        have comma : tree.isLiteral "," = true := by
          simp only [isTrailingComma, Bool.and_eq_true] at ends
          exact ends.1.1.1
        have dropped : Leaf.endsList ⟨tree, some around, trees.head?⟩ = true := ends
        simp [leavesOf_comma own comma, dropped]
      · rename_i kept
        rw [Bool.not_eq_true] at kept
        rw [List.map_append, map_text_tokens (kindOf? around) (some around) trees.head? tree own
          (by simpa using kept)]

end

/-! ## Renderings -/

/-- The tree stands in a text that can be parsed. -/
def IsParsed (tree : Tree) : Prop :=
  ∃ source root, parse source = .ok root ∧ ∃ place ∈ placesOf [] [] root, place.tree = tree

theorem IsParsed.kempt {tree : Tree} (parsed : IsParsed tree) : tree.Kempt := by
  obtain ⟨source, root, made, place, member, rfl⟩ := parsed
  exact forall_mem_placesOf (fun _ kempt => kempt.inside) (Source.kempt_of_parse made) place member

theorem IsParsed.placed {tree : Tree} (parsed : IsParsed tree) : tree.Placed := by
  obtain ⟨source, root, made, place, member, rfl⟩ := parsed
  refine forall_mem_placesOf (fun tree placed => ?_) (Source.placed_of_parse made) place member
  cases tree
  exact (placed_node.1 placed).placed

/-- The tree stands in a text that can be parsed, as an expression, a parameter, an
annotation or another construct without a block. -/
structure IsFragment (tree : Tree) : Prop where
  parsed : IsParsed tree
  label : tree.label.isFragment = true

/-- The text of a fragment is made of its leaves in source order, less the commas that
only end a list.  It has no white space at its ends. -/
structure IsSetFromLeaves (tree : Tree) : Prop where
  ordered : (leavesOf none none tree).Pairwise fun first second =>
    first.tree.span.endByte ≤ second.tree.span.startByte
  setOut : SetOut (keptTexts tree) (render tree).toList
  tight : isTight (render tree) = true

theorem IsFragment.neat {tree : Tree} (fragment : IsFragment tree) : tree.Neat := by
  rcases fragment with ⟨parsed, label⟩
  cases parsed.kempt with
  | node neat => exact neat label

theorem isLayout_of_isFragment {tree : Tree} (label : tree.label.isFragment = true) :
    tree.isLayout = false :=
  isLayout_of_isSeen (Source.isSeen_of_isFragment label)

theorem IsFragment.isSetFromLeaves {tree : Tree} (fragment : IsFragment tree) :
    IsSetFromLeaves tree := by
  have visible := isLayout_of_isFragment fragment.label
  have tight := isTight_of_mem_tokens none tree fragment.neat
  refine ⟨(leavesOf_placed none none tree fragment.parsed.placed).2, ?_,
    isTight_render fragment.neat visible⟩
  rw [keptTexts, ← map_text_tokens none none none tree fragment.neat rfl]
  exact setOut_setTokens (tokens_ne_nil none tree fragment.neat visible) tight

/-- The text of a fragment is set from its leaves, and it tells them up to spaces. -/
theorem isSetFromLeaves_and_keptTexts_eq {tree : Tree} (fragment : IsFragment tree) :
    IsSetFromLeaves tree ∧
      ∀ other, IsFragment other → render tree = render other →
        withoutSpaces (keptTexts tree) = withoutSpaces (keptTexts other) := by
  refine ⟨fragment.isSetFromLeaves, fun other otherFragment same => ?_⟩
  rw [← fragment.isSetFromLeaves.setOut.filter_eq, same,
    otherFragment.isSetFromLeaves.setOut.filter_eq]

/-- The first node of a kind in a text. -/
def firstOf? (kind : Kind) (source : String) : Option Tree :=
  (parse source).toOption.bind fun root =>
    ((placesOf [] [] root).map Place.tree).find? fun tree => tree.is kind

theorem isParsed_of_firstOf? {kind : Kind} {source : String} {tree : Tree}
    (found : firstOf? kind source = some tree) :
    IsParsed tree ∧ tree.label = .construct kind := by
  obtain ⟨root, parsed, first⟩ := Option.bind_eq_some_iff.1 found
  obtain ⟨place, member, same⟩ := List.mem_map.1 (List.mem_of_find?_eq_some first)
  exact ⟨⟨source, root, toOption_eq_some_iff.1 parsed, place, member, same⟩,
    by simpa [is] using List.find?_some first⟩

/-- Two texts that both have a node of a kind. -/
theorem exists_firstOf? {α : Type} {kind : Kind} {source source' : String}
    {measured : Tree → Tree → α} {value : α}
    (known : ((firstOf? kind source).bind fun first =>
      (firstOf? kind source').map (measured first)) = some value) :
    ∃ first second, firstOf? kind source = some first ∧ firstOf? kind source' = some second ∧
      measured first second = value := by
  obtain ⟨first, foundFirst, rest⟩ := Option.bind_eq_some_iff.1 known
  obtain ⟨second, foundSecond, facts⟩ := Option.map_eq_some_iff.1 rest
  exact ⟨first, second, foundFirst, foundSecond, facts⟩

/-- Two calls that are laid out in different ways have one text. -/
theorem isSetFromLeaves_calls : ∃ tree other, IsFragment tree ∧ IsFragment other ∧
    render tree = "g(a if b else -c, k=(3,))" ∧ render other = render tree ∧
    keptTexts tree = ["g", "(", "a", "if", "b", "else", "-", "c", ",", "k", "=", "(", "3", ",",
      ")", ")"] ∧
    IsSetFromLeaves tree ∧ withoutSpaces (keptTexts tree) = withoutSpaces (keptTexts other) := by
  obtain ⟨tree, other, found, otherFound, facts⟩ := @exists_firstOf? _ .call
    "g(a if b else -c, k=(3,))\n" "g(a if b\n  else -c,  # d\n  k=(3,),\n)\n"
    (fun tree other => (render tree, keptTexts tree, render other))
    ("g(a if b else -c, k=(3,))",
      ["g", "(", "a", "if", "b", "else", "-", "c", ",", "k", "=", "(", "3", ",", ")", ")"],
      "g(a if b else -c, k=(3,))") (by decide +kernel)
  simp only [Prod.mk.injEq] at facts
  rcases facts with ⟨text, kept, otherText⟩
  have isFragment {source : String} {call : Tree} (first : firstOf? .call source = some call) :
      IsFragment call := by
    obtain ⟨parsed, label⟩ := isParsed_of_firstOf? first
    exact ⟨parsed, label ▸ rfl⟩
  have fragment := isFragment found
  have otherFragment := isFragment otherFound
  have same : render tree = render other := text.trans otherText.symm
  obtain ⟨isSet, tells⟩ := isSetFromLeaves_and_keptTexts_eq fragment
  exact ⟨tree, other, fragment, otherFragment, text, same.symm, kept, isSet,
    tells other otherFragment same⟩

end SemanticDiff.Feature
