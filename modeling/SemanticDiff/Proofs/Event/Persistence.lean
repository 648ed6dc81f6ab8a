import SemanticDiff.Event.Log
import SemanticDiff.Proofs.Collection.SortedMap
import SemanticDiff.Proofs.Json.RoundTrip

/-!
# Logs of lines lose nothing

An event that was written on a line is read back from it as it was.  Since a line
holds no line break, the lines of a log are the lines that were written, so that a
log of lines tells the same events as a log that keeps them.
-/

namespace SemanticDiff

open SemanticDiff.Json (AreBlanks Gathers IsAfterValue IsPrinted Reader ReadError Recovers Spacing
  spaced)
open SemanticDiff.Outline (NodeKind)

variable {spacing : Spacing} {level : Nat}

/-! ## Names -/

theorem EventType.ofName?_name (type : EventType) : ofName? type.name = some type := by
  cases type <;> decide +kernel

theorem Outline.NodeKind.ofName?_name (kind : NodeKind) :
    NodeKind.ofName? kind.name = some kind := by
  cases kind <;> decide +kernel

/-! ## Details -/

namespace Detail

/-- The number of a detail is one of 64 bits with a sign. -/
def IsWord : Detail → Prop
  | .int number => -Json.Number.signedLimit ≤ number ∧ number < Json.Number.signedLimit
  | _ => True

instance : DecidablePred IsWord
  | .int _ => inferInstanceAs (Decidable (_ ∧ _))
  | .flag _ | .text _ => .isTrue trivial

theorem read_text (content : String) {blanks : List Char} (areBlanks : AreBlanks blanks)
    (rest : List Char) :
    read (blanks ++ (Json.quoted content ++ rest)) = .ok (.text content, rest) := by
  simp only [read, areBlanks.skipBlanks_append, Json.skipBlanks_quoted,
    Json.readText_flatMap_escape]
  rfl

theorem read_natural {number : Nat} (bounded : number < Json.Number.signedLimit)
    {blanks rest : List Char} (areBlanks : AreBlanks blanks) (after : IsAfterValue rest) :
    read (blanks ++ (Nat.toDigits 10 number ++ rest)) = .ok (.int number, rest) := by
  have small : number < Json.Number.unsignedLimit := Nat.lt_trans bounded (by decide)
  have value := Json.readNumber_natural small after
  obtain ⟨first, others, written, isDigit⟩ := Json.exists_toDigits_append_eq_cons number rest
  have noOther : first ≠ '"' ∧ first ≠ 't' ∧ first ≠ 'f' ∧ first ≠ '-' := by
    refine ⟨?_, ?_, ?_, ?_⟩ <;> rintro rfl <;> revert isDigit <;> decide
  rw [written] at value
  simp [written, read, areBlanks.skipBlanks_append, Json.skipBlanks_cons_of_isDigit isDigit,
    noOther, isDigit, value, bounded, bind, Except.bind, pure, Except.pure]

theorem read_negative {number : Nat} (positive : number ≠ 0)
    (bounded : number ≤ Json.Number.signedLimit) {blanks rest : List Char}
    (areBlanks : AreBlanks blanks) (after : IsAfterValue rest) :
    read (blanks ++ ('-' :: Nat.toDigits 10 number ++ rest)) = .ok (.int (-number), rest) := by
  have value := Json.readNumber_negative positive bounded after
  have small : -(number : Int) < Json.Number.signedLimit := by
    simp only [Json.Number.signedLimit]
    omega
  simp [read, areBlanks.skipBlanks_append, Json.skipBlanks_cons (c := '-') rfl, value, small, bind,
    Except.bind, pure, Except.pure]

/-- A detail is read back. -/
theorem recovers_read {detail : Detail} (isWord : detail.IsWord) :
    Recovers read detail (spaced spacing level detail.toJson) := by
  intro blanks rest areBlanks after
  cases detail with
  | flag set =>
      rw [read, areBlanks.skipBlanks_append]
      cases set <;> rfl
  | text content => exact read_text content areBlanks rest
  | int number =>
      cases number with
      | ofNat number => exact read_natural (Int.ofNat_lt.1 isWord.2) areBlanks after
      | negSucc number =>
          have bounded : number + 1 ≤ Json.Number.signedLimit := by
            have lower := isWord.1
            omega
          exact read_negative (Nat.succ_ne_zero number) bounded areBlanks after

end Detail

/-! ## Maps of details -/

theorem SortedMap.ofList_entries {α : Type} (map : SortedMap α) : ofList map.entries = map := by
  apply ext_get?
  intro key
  apply Option.ext
  intro value
  have distinct : (map.entries.map Prod.fst).Nodup :=
    map.pairwise_keys.imp fun less => String.ne_of_lt less
  rw [get?_ofList_eq_some_iff distinct, mem_entries_iff]

namespace Details

/-- How one detail is read into others. -/
def readEntry (details : Details) (name : String) : Reader Details := fun chars => do
  let chars ← Json.readColon chars
  let (detail, rest) ← Detail.read chars
  return (details.insert name detail, rest)

theorem gathers_readEntry {entries : List (String × Detail)}
    (areWords : ∀ entry ∈ entries, entry.2.IsWord) (details : Details) :
    Gathers spacing level readEntry details
      (entries.map fun entry => (entry.1, entry.2.toJson))
      (entries.foldl (fun details entry => details.insert entry.1 entry.2) details) := by
  induction entries generalizing details with
  | nil => exact .done details
  | cons entry entries ih =>
      rcases List.forall_mem_cons.1 areWords with ⟨isWord, otherWords⟩
      exact .next ((Detail.recovers_read isWord).after_name (details.insert entry.1))
        (ih otherWords _)

/-- Details are read back. -/
theorem recovers_read {details : Details} (areWords : ∀ entry ∈ details.entries, entry.2.IsWord) :
    Recovers read details (spaced spacing level details.toJson) := by
  intro blanks rest areBlanks _
  have gathers : Gathers spacing (level + 1) readEntry SortedMap.empty _ _ :=
    gathers_readEntry areWords SortedMap.empty
  rw [show details.entries.foldl _ SortedMap.empty = details from details.ofList_entries] at gathers
  obtain ⟨opened, entered, made⟩ := gathers.readFields_record areBlanks rest
  rw [read, toJson, entered]
  exact made

end Details

/-! ## Events -/

namespace Event

/-- The numbers of an event are those of 64 bits: its position has no sign, a
detail has one. -/
structure FitsWords (event : Event) : Prop where
  order : event.order < Json.Number.unsignedLimit
  details : ∀ entry ∈ event.details.entries, entry.2.IsWord

/-- The fields of an event are read one after the other, and then it is complete. -/
theorem exists_gathers_readPart {event : Event} (fits : event.FitsWords) :
    ∃ fields parts, event.toJson = .record fields ∧
      Gathers spacing level Parts.readPart {} fields parts ∧ parts.event? = some event := by
  refine ⟨_, ?parts, rfl, ?gathers, ?complete⟩
  case gathers =>
    apply Gathers.next_new (Json.recovers_readNamed (EventType.ofName?_name _))
    · intro chars
      simp only [Parts.readPart, String.reduceEq, if_true]
      rfl
    apply Gathers.next_new (Json.recovers_readString _)
    · intro chars
      simp only [Parts.readPart, String.reduceEq, if_true, if_false]
      rfl
    apply Gathers.next_new (Json.recovers_readString _)
    · intro chars
      simp only [Parts.readPart, String.reduceEq, if_true, if_false]
      rfl
    apply Gathers.next_new (Json.recovers_readNamed (NodeKind.ofName?_name _))
    · intro chars
      simp only [Parts.readPart, String.reduceEq, if_true, if_false]
      rfl
    apply Gathers.next_new (Details.recovers_read fits.details)
    · intro chars
      simp only [Parts.readPart, String.reduceEq, if_true, if_false]
      rfl
    apply Gathers.next_new (Json.recovers_readString _)
    · intro chars
      simp only [Parts.readPart, String.reduceEq, if_true, if_false]
      rfl
    apply Gathers.next_new (Json.recovers_readString _)
    · intro chars
      simp only [Parts.readPart, String.reduceEq, if_true, if_false]
      rfl
    apply Gathers.next_new (Json.recovers_readNatural fits.order)
    · intro chars
      simp only [Parts.readPart, String.reduceEq, if_true, if_false]
      rfl
    exact .done _
  case complete => rfl

/-- An event is read back. -/
theorem recovers_reader {event : Event} (fits : event.FitsWords) :
    Recovers reader event (spaced spacing level event.toJson) := by
  obtain ⟨fields, parts, written, gathers, complete⟩ := exists_gathers_readPart fits
  rw [written]
  exact gathers.recovers_readRecord complete readListed

/-- An event is read back from its line. -/
theorem read_line {event : Event} (fits : event.FitsWords) : read event.line = .ok event := by
  have recovers : Recovers reader event (spaced .none 0 event.toJson) := recovers_reader fits
  rw [← Json.compactChars_eq_spaced] at recovers
  simpa [read, line, Json.compact] using recovers.readWhole .nil

theorem isPrinted_line (event : Event) : IsPrinted event.line.toList := by
  rw [line, Json.compact, String.toList_ofList]
  exact Json.isPrinted_compactChars event.toJson

end Event

/-! ## Lines -/

/-- Split characters into lines.  A line ends with a line feed, which may have a
carriage return before it; the last line need not end. -/
def splitLines : List Char → List (List Char)
  | [] => []
  | '\n' :: rest => [] :: splitLines rest
  | '\r' :: '\n' :: rest => [] :: splitLines rest
  | c :: rest =>
      match splitLines rest with
      | [] => [[c]]
      | line :: lines => (c :: line) :: lines

/-- The lines of a text. -/
def linesOf (text : String) : List String :=
  (splitLines text.toList).map String.ofList

example : linesOf "a\r\nb\r\r\n\nc\r" = ["a", "b\r", "", "c\r"] := by decide

/-- A line without control characters is split off whole. -/
theorem splitLines_line {line : List Char} (isPrinted : IsPrinted line) (rest : List Char) :
    splitLines (line ++ '\n' :: rest) = line :: splitLines rest := by
  induction line with
  | nil => rw [List.nil_append, splitLines]
  | cons c line ih =>
      rcases List.forall_mem_cons.1 isPrinted with ⟨visible, others⟩
      have noFeed : c ≠ '\n' := by
        rintro rfl
        revert visible
        decide
      have noReturn : c ≠ '\r' := by
        rintro rfl
        revert visible
        decide
      rw [List.cons_append, splitLines, ih others]
      · exact noFeed
      · intro _ same _
        exact noReturn same

theorem splitLines_flatMap {lines : List (List Char)} (arePrinted : ∀ line ∈ lines, IsPrinted line) :
    splitLines (lines.flatMap fun line => line ++ ['\n']) = lines := by
  induction lines with
  | nil => rfl
  | cons line lines ih =>
      rcases List.forall_mem_cons.1 arePrinted with ⟨isPrinted, others⟩
      rw [List.flatMap_cons, List.append_assoc, List.singleton_append,
        splitLines_line isPrinted, ih others]

/-! ## Logs -/

namespace LineLog

/-- Every appended event adds its line. -/
theorem append_eq (log : LineLog) (events : List Event) :
    (log.append events).text.toList =
        log.text.toList ++ (events.map fun event => event.line.toList).flatMap (· ++ ['\n']) ∧
      (log.append events).written = log.written + events.length := by
  induction events generalizing log with
  | nil => simp [append]
  | cons event events ih =>
      obtain ⟨text, written⟩ := ih (log.push event)
      rw [append, List.foldl_cons]
      refine ⟨text.trans ?_, written.trans ?_⟩
      · simp [push]
      · simp [push]
        omega

/-- Calls one after the other append all their events. -/
theorem foldl_append (log : LineLog) (calls : List (List Event)) :
    calls.foldl append log = log.append calls.flatten :=
  (List.foldl_flatten ..).symm

theorem linesOf_text (calls : List (List Event)) :
    linesOf (calls.foldl append empty).text = calls.flatten.map Event.line := by
  have text : (calls.foldl append empty).text.toList =
      (calls.flatten.map fun event => event.line.toList).flatMap (· ++ ['\n']) := by
    rw [foldl_append, (append_eq empty calls.flatten).1]
    rfl
  have printed : ∀ line ∈ calls.flatten.map fun event => event.line.toList, IsPrinted line := by
    intro line member
    rcases List.mem_map.1 member with ⟨event, -, rfl⟩
    exact event.isPrinted_line
  rw [linesOf, text, splitLines_flatMap printed, List.map_map]
  simp [Function.comp_def]

end LineLog

theorem EventLog.events_foldl_append (log : EventLog) (calls : List (List Event)) :
    (calls.foldl append log).events = log.events ++ calls.flatten := by
  induction calls generalizing log with
  | nil => simp
  | cons events calls ih => rw [List.foldl_cons, ih, append, List.flatten_cons, List.append_assoc]

theorem mapM_read_line {events : List Event} (fit : ∀ event ∈ events, event.FitsWords) :
    (events.map Event.line).mapM Event.read = .ok events := by
  induction events with
  | nil => rfl
  | cons event events ih =>
      rcases List.forall_mem_cons.1 fit with ⟨fits, others⟩
      rw [List.map_cons, List.mapM_cons, Event.read_line fits, ih others]
      rfl

/-- A log of lines and a log that keeps events tell the same after the same calls:
the lines of the one, read one after the other, are the events of the other one, and
as many events were written as there are lines and events. -/
theorem LineLog.mapM_read_linesOf (calls : List (List Event))
    (fit : ∀ events ∈ calls, ∀ event ∈ events, event.FitsWords) :
    (linesOf (calls.foldl append empty).text).mapM Event.read =
        .ok (calls.foldl EventLog.append EventLog.empty).events ∧
      (calls.foldl append empty).written = (linesOf (calls.foldl append empty).text).length ∧
      (calls.foldl append empty).written =
        (calls.foldl EventLog.append EventLog.empty).events.length := by
  have kept : (calls.foldl EventLog.append EventLog.empty).events = calls.flatten :=
    EventLog.events_foldl_append _ _
  have written : (calls.foldl append empty).written = calls.flatten.length := by
    rw [foldl_append, (append_eq empty calls.flatten).2]
    exact Nat.zero_add _
  have fitFlat : ∀ event ∈ calls.flatten, event.FitsWords := by
    intro event member
    rcases List.mem_flatten.1 member with ⟨events, listed, here⟩
    exact fit events listed event here
  rw [linesOf_text, kept, written, List.length_map]
  exact ⟨mapM_read_line fitFlat, rfl, rfl⟩

/-- An event whose texts hold what a line must not hold, with the largest numbers. -/
def Event.awkward : Event where
  type := .nodeAdded
  key := { text := "<module>" }
  path := "a\nb\r\n\"c\\\u2028"
  kind := .module
  details := ((SortedMap.empty.insert "\x00" (.int (-9223372036854775808))).insert "é\x7f"
    (.text "true")).insert "ok" (.flag true)
  revision := ""
  rule := "\t"
  order := 18446744073709551615

theorem LineLog.mapM_read_linesOf_awkward :
    (linesOf ([[], [Event.awkward, Event.awkward]].foldl append empty).text).mapM Event.read =
        .ok [Event.awkward, Event.awkward] ∧
      ([[], [Event.awkward, Event.awkward]].foldl append empty).written = 2 := by
  have fits : Event.awkward.FitsWords := ⟨by decide, by decide +kernel⟩
  have told := mapM_read_linesOf [[], [Event.awkward, Event.awkward]] (by simp [fits])
  exact ⟨told.1, told.2.2⟩

end SemanticDiff
