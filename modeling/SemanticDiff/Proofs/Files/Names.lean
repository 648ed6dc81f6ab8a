import Mathlib.Data.List.Basic
import SemanticDiff.Engine.Trees
import SemanticDiff.Proofs.Collection.Result
import SemanticDiff.Proofs.Files.Listing

/-!
# Names and the paths that they spell

Names that are joined by slashes are found again in the path that they spell, so different
files have different paths.  A path that is followed comes to where its names lead.
-/

namespace SemanticDiff.Files

namespace Path

/-- A path is cut as a list is split. -/
theorem pieces_eq_splitOn (separator : Char) (text : List Char) :
    pieces separator text = text.splitOn separator := by
  induction text with
  | nil => rfl
  | cons c rest ih =>
      rw [pieces, List.splitOn_cons_eq_if_modifyHead, ih]
      by_cases same : c = separator
      · rw [if_pos same, if_pos (beq_iff_eq.2 same)]
      · rw [if_neg same, if_neg (by simpa using same)]
        cases split : rest.splitOn separator with
        | nil => exact absurd split (List.splitOn_ne_nil _ _)
        | cons piece others => rfl

theorem pieces_append (separator : Char) (first second : List Char) :
    pieces separator (first ++ separator :: second) =
      pieces separator first ++ pieces separator second := by
  simp only [pieces_eq_splitOn, List.splitOn_append_cons_self]

/-- What follows the last point of a name is found, if something stands before that point. -/
theorem splitName_append {stem extension : String} (nonempty : stem ≠ "")
    (free : '.' ∉ extension.toList) :
    splitName (stem ++ "." ++ extension) = (stem, some extension) := by
  have reversed : (stem ++ "." ++ extension).toList.reverse =
      extension.toList.reverse ++ '.' :: stem.toList.reverse := by
    simp [String.toList_append]
  have after : (extension.toList.reverse ++ '.' :: stem.toList.reverse).takeWhile (· != '.') =
      extension.toList.reverse := by
    rw [List.takeWhile_append_of_pos]
    · simp
    · intro c member
      exact bne_iff_ne.2 (ne_of_mem_of_not_mem (List.mem_reverse.1 member) free)
  have before : stem.toList.reverse.isEmpty = false := by
    simpa using nonempty
  simp [splitName, after, before]

/-- A name has an extension only after a point with something before it. -/
theorem eq_append_of_splitName {name extension : String}
    (split : (splitName name).2 = some extension) :
    ∃ stem, stem ≠ "" ∧ name = stem ++ "." ++ extension := by
  unfold splitName at split
  dsimp only at split
  generalize reversal : name.toList.reverse = reversed at split
  have parts : reversed.takeWhile (· != '.') ++ reversed.dropWhile (· != '.') = reversed :=
    List.takeWhile_append_dropWhile
  have cut : reversed.drop (reversed.takeWhile (· != '.')).length =
      reversed.dropWhile (· != '.') :=
    List.append_cancel_left
      ((List.prefix_iff_eq_append.1 (List.takeWhile_prefix _)).trans parts.symm)
  rw [cut] at split
  cases rest : reversed.dropWhile (· != '.') with
  | nil => simp [rest] at split
  | cons point before =>
      have pointed : point = '.' := by
        have head := List.head?_dropWhile_not (· != '.') reversed
        rw [rest] at head
        simpa using head
      rw [rest, pointed] at parts
      cases before with
      | nil => simp [rest] at split
      | cons c before =>
          obtain rfl : String.ofList (reversed.takeWhile (· != '.')).reverse = extension := by
            simpa [rest] using split
          refine ⟨String.ofList (c :: before).reverse, by simp, String.toList_inj.1 ?_⟩
          calc
            name.toList = reversed.reverse := by rw [← reversal, List.reverse_reverse]
            _ = (reversed.takeWhile (· != '.') ++ '.' :: c :: before).reverse := by rw [parts]
            _ = _ := by simp

end Path

section

variable {names : List String}

/-- The pieces of the path that names spell are the names. -/
theorem pieces_joined (nonempty : names ≠ []) (named : ∀ name ∈ names, IsFileName name) :
    Path.pieces '/' (Engine.joined names).toList = names.map String.toList := by
  have text : (Engine.joined names).toList = ['/'].intercalate (names.map String.toList) := by
    rw [Engine.joined, String.toList_intercalate]
    rfl
  rw [text, Path.pieces_eq_splitOn, List.splitOn_intercalate]
  · intro piece member
    obtain ⟨name, nameMem, rfl⟩ := List.mem_map.1 member
    exact (named name nameMem).slash
  · simpa using nonempty

/-- Names that spell one path are the same. -/
theorem eq_of_joined_eq {others : List String} (nonempty : names ≠ []) (nonempty' : others ≠ [])
    (named : ∀ name ∈ names, IsFileName name) (named' : ∀ name ∈ others, IsFileName name)
    (same : Engine.joined names = Engine.joined others) : names = others := by
  have pieces := pieces_joined nonempty named
  rw [same, pieces_joined nonempty' named'] at pieces
  exact (List.map_injective_iff.2 fun _ _ => String.toList_inj.1) pieces.symm

/-- A name is no piece of a path that stands for a directory on the way. -/
theorem IsFileName.toList_ne {name : String} (named : IsFileName name) :
    name.toList ≠ [] ∧ name.toList ≠ ['.'] ∧ name.toList ≠ ['.', '.'] :=
  ⟨mt String.toList_eq_nil_iff.1 named.nonempty,
    fun same => named.here (String.toList_inj.1 same),
    fun same => named.up (String.toList_inj.1 same)⟩

/-- A name stands for itself in a path. -/
theorem component?_of_isFileName {name : String} (named : IsFileName name) :
    Path.component? name.toList = some (.name name) := by
  obtain ⟨nonempty, here, up⟩ := named.toList_ne
  unfold Path.component?
  split
  · exact absurd ‹_› nonempty
  · exact absurd ‹_› here
  · exact absurd ‹_› up
  · rw [String.ofList_toList]

/-- The components of the path that names spell are the names. -/
theorem components_joined (named : ∀ name ∈ names, IsFileName name) :
    Path.components (Engine.joined names) = names.map .name := by
  cases names with
  | nil => rfl
  | cons first rest =>
      rcases List.forall_mem_cons.1 named with ⟨firstNamed, restNamed⟩
      have others : (rest.map String.toList).filterMap Path.component? = rest.map .name := by
        rw [List.filterMap_map, ← List.filterMap_eq_map]
        exact List.filterMap_congr fun name member =>
          component?_of_isFileName (restNamed name member)
      unfold Path.components
      rw [pieces_joined (List.cons_ne_nil _ _) named, List.map_cons]
      dsimp only
      rw [others]
      split
      · exact absurd (String.toList_eq_nil_iff.1 ‹_›) firstNamed.nonempty
      · exact absurd (String.toList_inj.1 ‹_›) firstNamed.here
      · rw [component?_of_isFileName firstNamed]
        rfl

/-- The file name of the path that names spell is the last of them. -/
theorem fileName?_joined (named : ∀ name ∈ names, IsFileName name) :
    Path.fileName? (Engine.joined names) = names.getLast? := by
  rw [Path.fileName?, components_joined named, List.getLast?_map]
  cases names.getLast? <;> rfl

/-- The path that names spell has the characters of the names and slashes. -/
theorem mem_joined {c : Char} (member : c ∈ (Engine.joined names).toList) :
    c = '/' ∨ ∃ name ∈ names, c ∈ name.toList := by
  induction names with
  | nil => cases member
  | cons name names ih =>
      have split : c ∈ name.toList ∨ c = '/' ∨ c ∈ (Engine.joined names).toList := by
        cases names with
        | nil => exact Or.inl (by simpa [Engine.joined] using member)
        | cons other names =>
            simpa [Engine.joined, String.intercalate_cons_cons, or_assoc] using member
      rcases split with own | slash | rest
      · exact Or.inr ⟨name, List.mem_cons_self, own⟩
      · exact Or.inl slash
      · rcases ih rest with slash | ⟨other, listed, inside⟩
        · exact Or.inl slash
        · exact Or.inr ⟨other, List.mem_cons_of_mem _ listed, inside⟩

/-- The path of a file without backslashes in its names is reported as it is. -/
theorem reportedPath_eq_joined (plain : ∀ name ∈ names, '\\' ∉ name.toList) :
    Engine.reportedPath names = Engine.joined names := by
  have kept : ∀ c ∈ (Engine.joined names).toList, (if c = '\\' then '/' else c) = c := by
    intro c member
    rcases mem_joined member with rfl | ⟨name, listed, inside⟩
    · rfl
    · exact if_neg (ne_of_mem_of_not_mem inside (plain name listed))
  rw [Engine.reportedPath, List.map_congr_left kept, List.map_id'', String.ofList_toList]
  exact fun _ => rfl

end

/-! ## Paths that are followed -/

section

variable {names : List String} {entry own : Entry} {disk : Disk}

theorem Entry.get?_append (entry : Entry) (names rest : List String) :
    entry.get? (names ++ rest) = (entry.get? names).bind fun own => own.get? rest := by
  induction names generalizing entry with
  | nil => rfl
  | cons name names ih =>
      rw [List.cons_append, get?, get?]
      cases entry.child? name with
      | none => rfl
      | some child => exact ih child

/-- The name of an entry is followed from its directory. -/
theorem Disk.step_of_isFileName {entries : List (String × Entry)} {name : String}
    (here : disk.root.get? names = some (.directory entries)) (named : IsFileName name) :
    disk.step names name.toList = .ok (names ++ [name]) := by
  obtain ⟨nonempty, noHere, noUp⟩ := named.toList_ne
  unfold step
  rw [here]
  dsimp only
  split
  · exact absurd ‹_› nonempty
  · exact absurd ‹_› noHere
  · exact absurd ‹_› noUp
  · rw [String.ofList_toList]

/-- Names are followed, one after the other, to where they lead. -/
theorem Disk.foldlM_step_of_reaches {start : List String}
    (reaches : entry.Reaches names own) (tree : entry.IsTree)
    (here : disk.root.get? start = some entry) :
    (names.map String.toList).foldlM disk.step start = .ok (start ++ names) ∧
      disk.root.get? (start ++ names) = some own := by
  induction reaches generalizing start with
  | here =>
      rw [List.append_nil]
      exact ⟨rfl, here⟩
  | @under entries name names child own listed reaches ih =>
      cases tree with
      | directory distinct named inside =>
          have there : disk.root.get? (start ++ [name]) = some child := by
            rw [Entry.get?_append, here]
            simp [Entry.get?, Entry.child?, (Entry.lookup_eq_some_iff distinct).2 listed]
          have rest := ih (inside _ listed) there
          rw [List.append_assoc] at rest
          refine ⟨?_, rest.2⟩
          rw [List.map_cons, List.foldlM_cons, Disk.step_of_isFileName here (named _ listed)]
          exact rest.1

/-- Below a directory that is found, the path that names spell leads to where they do. -/
theorem Disk.find_append_joined {path : String} (found : disk.find path = .ok entry)
    (tree : entry.IsTree) (reaches : entry.Reaches names own) (nonempty : names ≠ []) :
    disk.find (path ++ "/" ++ Engine.joined names) = .ok own := by
  have named := (tree.of_reaches reaches).2
  obtain ⟨start, located, here⟩ : ∃ start, disk.locate path = .ok start ∧
      disk.root.get? start = some entry := by
    obtain ⟨start, located, rest⟩ := exists_of_bind_eq_ok found
    refine ⟨start, located, ?_⟩
    cases get : disk.root.get? start with
    | none => simp [get] at rest
    | some other => simpa [get, pure, Except.pure] using rest
  obtain ⟨followed, there⟩ := Disk.foldlM_step_of_reaches reaches tree here
  have whole : disk.locate (path ++ "/" ++ Engine.joined names) = .ok (start ++ names) := by
    unfold Disk.locate at located ⊢
    cases text : path.toList with
    | nil => simp [text] at located
    | cons c rest =>
        have longer : (path ++ "/" ++ Engine.joined names).toList =
            c :: (rest ++ '/' :: (Engine.joined names).toList) := by
          simp [text]
        rw [text] at located
        rw [longer]
        dsimp only at located ⊢
        rw [← List.cons_append, Path.pieces_append, pieces_joined nonempty named,
          List.foldlM_append, located]
        exact followed
  rw [Disk.find, whole]
  simp [bind, Except.bind, there, pure, Except.pure]

end

end SemanticDiff.Files
