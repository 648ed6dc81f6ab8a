/-!
# Reading arguments

The words of a command line are options, values of options and positional
arguments.  A value is stored only when the next word shows that it is complete,
so of several faults the first one in this order is reported.
-/

namespace SemanticDiff.Command

/-- Why a command line is not carried out. -/
inductive UsageError where
  | help
  | version
  | helpForNothing
  | missingSubcommand
  | unknownSubcommand
  | missingArgument
  | unknownArgument
  | invalidValue
  | repeatedOption
  | unneededValue
deriving DecidableEq, Repr

namespace UsageError

/-- The exit code: asking for help or the version is no failure. -/
def exitCode : UsageError → Nat
  | help => 0
  | version => 0
  | _ => 2

end UsageError

/-- What an argument is for. -/
inductive Slot where
  | config
  | verbose
  | help
  | version
  | before
  | after
  | path
  | revision
  | format
  | append
  | noProgress
  | rule
deriving DecidableEq, Repr

/-- What an option does. -/
inductive Action where
  /-- It takes a value, which may or may not be empty. -/
  | value (mayBeEmpty : Bool)
  /-- It may be given once. -/
  | flag
  /-- It may be given any number of times. -/
  | count
  | help
  | version
deriving DecidableEq, Repr

/-- An option. -/
structure Choice where
  slot : Slot
  long : String
  short : Option Char
  action : Action

/-- A positional argument. -/
structure Positional where
  slot : Slot
  mayBeEmpty : Bool
  required : Bool

/-- What a command takes. -/
structure Spec where
  choices : List Choice
  positionals : List Positional
  subcommands : List String

/-- A value that is not stored yet. -/
structure Pending where
  slot : Slot
  mayBeEmpty : Bool
  value : Option String

/-- The arguments read so far. -/
structure Progress where
  values : List (Slot × String) := []
  pending : Option Pending := none
  /-- Positional arguments that are still free. -/
  free : List Positional
  /-- Whether all further words are positional. -/
  escaped : Bool := false
  /-- Whether any option was given. -/
  explicit : Bool := false

namespace Progress

/-- Store a value under a slot that is free. -/
def store (progress : Progress) (slot : Slot) (value : String) : Except UsageError Progress :=
  if (progress.values.lookup slot).isSome then .error .repeatedOption
  else .ok { progress with values := (slot, value) :: progress.values }

/-- Store the value that is pending. -/
def settle (progress : Progress) : Except UsageError Progress :=
  match progress.pending with
  | none => .ok progress
  | some { slot, mayBeEmpty, value } =>
      match value with
      | none => .error .invalidValue
      | some value => do
          let progress ← { progress with pending := none }.store slot value
          if value.isEmpty && !mayBeEmpty then .error .invalidValue else .ok progress

/-- Whether the next word is the value of an option. -/
def awaitsValue (progress : Progress) : Bool :=
  match progress.pending with
  | some { value := none, .. } => true
  | _ => false

/-- Take up an option, with the value attached to it. -/
def choose (progress : Progress) (choice : Choice) (attached : Option String) :
    Except UsageError Progress := do
  match choice.action with
  | .value mayBeEmpty =>
      let progress ← progress.settle
      let progress :=
        { progress with
          pending := some { slot := choice.slot, mayBeEmpty, value := attached }
          explicit := true }
      if attached.isSome then progress.settle else .ok progress
  | .flag =>
      let progress ← progress.settle
      { progress with explicit := true }.store choice.slot ""
  | .count =>
      let progress ← progress.settle
      return { progress with explicit := true }
  | .help => do
      let _ ← progress.settle
      .error .help
  | .version => do
      let _ ← progress.settle
      .error .version

end Progress

/-! ## Words -/

/-- A long option without its dashes: its name, and the value after an equals
sign. -/
def splitLong (chars : List Char) : String × Option String :=
  let name := chars.takeWhile (· != '=')
  match chars.drop name.length with
  | _ :: value => (String.ofList name, some (String.ofList value))
  | [] => (String.ofList name, none)

/-- A long option. -/
def readLong (spec : Spec) (progress : Progress) (chars : List Char) :
    Except UsageError Progress :=
  let (name, attached) := splitLong chars
  match spec.choices.find? fun choice => choice.long == name with
  | none => .error .unknownArgument
  | some choice =>
      match choice.action, attached with
      | .value _, attached => progress.choose choice attached
      | _, some _ => .error .unneededValue
      | _, none => progress.choose choice none

/-- Short options that share a dash; the rest of the word is the value of the
first one that takes a value. -/
def readShort (spec : Spec) : Progress → List Char → Except UsageError Progress
  | progress, [] => .ok progress
  | progress, c :: rest =>
      match spec.choices.find? fun choice => choice.short == some c with
      | none => .error .unknownArgument
      | some choice =>
          match choice.action with
          | .value _ =>
              let attached :=
                match rest with
                | [] => none
                | '=' :: value => some (String.ofList value)
                | value => some (String.ofList value)
              progress.choose choice attached
          | _ => do
              let progress ← progress.choose choice none
              readShort spec progress rest

/-- A positional argument. -/
def readPositional (spec : Spec) (progress : Progress) (word : String) :
    Except UsageError Progress :=
  match progress.free with
  | [] =>
      if spec.subcommands.isEmpty then .error .unknownArgument
      else if progress.escaped && spec.subcommands.contains word then .error .unknownArgument
      else .error .unknownSubcommand
  | positional :: free => do
      let progress ← progress.settle
      return { progress with
        pending := some
          { slot := positional.slot, mayBeEmpty := positional.mayBeEmpty, value := some word }
        free }

/-- One word that is no subcommand. -/
def readWord (spec : Spec) (progress : Progress) (word : String) :
    Except UsageError Progress :=
  let plain : Except UsageError Progress :=
    match progress.pending with
    | some { slot, mayBeEmpty, value := none } =>
        .ok { progress with pending := some { slot, mayBeEmpty, value := some word } }
    | _ => readPositional spec progress word
  if progress.escaped then readPositional spec progress word
  else
    match word.toList with
    | ['-', '-'] => .ok { progress with escaped := true }
    | '-' :: '-' :: chars => readLong spec progress chars
    | '-' :: c :: chars => readShort spec progress (c :: chars)
    | _ => plain

/-- Read words up to their end or to a subcommand. -/
def readWords (spec : Spec) :
    Progress → List String → Except UsageError (Progress × Option (String × List String))
  | progress, [] => .ok (progress, none)
  | progress, word :: words =>
      if !progress.escaped && !progress.awaitsValue && spec.subcommands.contains word then
        .ok (progress, some (word, words))
      else do
        let progress ← readWord spec progress word
        readWords spec progress words

/-- Read the words of a command that has no subcommands. -/
def readAll (spec : Spec) (words : List String) :
    Except UsageError (List (Slot × String)) := do
  let (progress, _) ← readWords spec { free := spec.positionals } words
  let progress ← progress.settle
  if progress.free.any Positional.required then .error .missingArgument
  else .ok progress.values

end SemanticDiff.Command
