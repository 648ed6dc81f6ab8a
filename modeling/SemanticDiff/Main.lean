import SemanticDiff.Command.Run

/-!
# The program

The program brings what a command may look at from the machine's disk onto a disk
of its own, carries the command out there, prints what came of it, and writes the
file that events were appended to.
-/

namespace SemanticDiff.Program

open SemanticDiff.Files (Disk Entry)
open SemanticDiff.Command

/-- What stands at a path of the machine.  Directories are read down to a depth. -/
def readEntry : Nat → String → IO Entry
  | depth, path => do
      let place ← IO.FS.realPath path
      match (← place.metadata).type with
      | .dir =>
          match depth with
          | 0 => return .empty
          | depth + 1 => do
              let entries ← (← place.readDir).toList.mapM fun entry => do
                return (entry.fileName, ← readEntry depth (path ++ "/" ++ entry.fileName))
              return .directory entries
      | _ =>
          if isAbsent path then return .nullDevice
          else return .file (← IO.FS.readBinFile path)

/-- The entry at a path of the machine, if there is one. -/
def readEntry? (depth : Nat) (path : String) : IO (Option Entry) := do
  try
    return some (← readEntry depth path)
  catch _ =>
    return none

/-- How deep directories are read when all of their files are wanted. -/
def deep : Nat := 256

/-- Where loading a path has come to. -/
structure Position where
  walked : String
  names : List String
  disk : Disk

/-- Bring the next piece of a path onto a disk. -/
def loadPiece (position : Position) (piece : List Char) : IO Position := do
  let { walked, names, disk } := position
  let walked := walked ++ String.ofList piece
  let names :=
    match piece with
    | [] => names
    | ['.'] => names
    | ['.', '.'] => names.dropLast
    | _ => names ++ [String.ofList piece]
  let missing := (disk.root.get? names).isNone && walked != ""
  let disk ←
    match ← if missing then readEntry? 0 walked else pure none with
    | some entry => pure { disk with root := disk.root.set names entry }
    | none => pure disk
  return { walked := walked ++ "/", names, disk }

/-- Bring what a path leads to onto a disk, with all that stands on the way. -/
def loadPath (depth : Nat) (disk : Disk) (path : String) : IO Disk := do
  let start := if path.startsWith "/" then [] else disk.workingDirectory
  let position ← (Files.Path.pieces '/' path.toList).foldlM loadPiece ⟨"", start, disk⟩
  if depth = 0 then return position.disk
  match ← readEntry? depth path with
  | some entry =>
      return { position.disk with root := position.disk.root.set position.names entry }
  | none => return position.disk

/-- The disk of the machine, as far as a command may look at it. -/
def loadDisk (home : Option String) (invocation : Invocation) : IO Disk := do
  let workingDirectory :=
    ((← IO.currentDir).toString.splitOn "/").filter fun name => name != ""
  let empty : Disk :=
    { root := Entry.empty.set workingDirectory .empty, workingDirectory }
  let settings :=
    settingsNames ++ (home.map userSettingsPath).toList ++ invocation.config.toList
  let (files, directories) :=
    match invocation.task with
    | .diff before after _ _ output => (output.append.toList ++ [before, after], [])
    | .tree before after _ output => (output.append.toList, [before, after])
    | .catalog _ => ([], [])
  let disk ← (settings ++ files).foldlM (loadPath 0) empty
  directories.foldlM (loadPath deep) disk

/-- The file that a command may append to. -/
def appendPath? (invocation : Invocation) : Option String :=
  match invocation.task with
  | .diff _ _ _ _ output => output.append
  | .tree _ _ _ output => output.append
  | .catalog _ => none

/-- Write the file that events were appended to, if it has grown. -/
def store (invocation : Invocation) (before after : Disk) : IO Unit := do
  let some path := appendPath? invocation | return
  match before.find path, after.find path with
  | .ok (.file old), .ok (.file new) =>
      unless old.size = new.size do IO.FS.writeBinFile path new
  | .error _, .ok (.file new) => IO.FS.writeBinFile path new
  | _, _ => return

/-- What is printed about a command line that is not carried out. -/
def usage : UsageError → String
  | .version => "svcs 0.1.0"
  | _ => "Usage: svcs [-c FILE] [-v] diff BEFORE AFTER | tree BEFORE AFTER | catalog [RULE]"

/-- Print why a command line is not carried out. -/
def printUsage (error : UsageError) : IO Unit :=
  if error.exitCode = 0 then IO.println (usage error) else IO.eprintln (usage error)

/-- Carry out a command on the machine. -/
def perform (invocation : Invocation) : IO UInt32 := do
  let home ← IO.getEnv "HOME"
  let disk ← loadDisk home invocation
  let outcome := run disk home invocation
  IO.print outcome.stdout
  IO.eprint outcome.stderr
  if let some failure := outcome.failure then IO.eprintln ("Error: " ++ failure)
  store invocation disk outcome.disk
  return outcome.exit.toUInt32

end SemanticDiff.Program

/-- The program: its words are a command line. -/
def main (words : List String) : IO UInt32 := do
  match SemanticDiff.Command.Invocation.read words with
  | .error error =>
      SemanticDiff.Program.printUsage error
      return error.exitCode.toUInt32
  | .ok invocation => SemanticDiff.Program.perform invocation
