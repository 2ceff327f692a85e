import PageBinding.Command.Run

/-!
This module contains the program: it reads the files that a command line may work on, executes it,
and writes what has changed. Files hold JSON.
-/

namespace PageBinding

namespace Main

def givenFile? (args : List Text) : Option Text :=
  match Command.request? args with
  | some (.run _ file) => file
  | _ => none

def candidates (root : Disk) (working : Location) (args : List Text) : List Location :=
  let above := Location.ascending working
  let given := (givenFile? args).bind (root.locate working)
  let beside := given.toList.flatMap fun location => Location.ascending location.dropLast
  above.map (· ++ [Project.fileName]) ++ (above ++ beside).map (· ++ [Settings.fileName]) ++
    given.toList

def passed (root : Disk) (working : Location) (args : List Text) : List Location :=
  match (givenFile? args).bind (root.namesFrom? working) with
  | some (start, names) =>
    (List.range names.length).filterMap fun n => Location.walk (fun _ => true) start (names.take n)
  | none => []

def findInto (disk : Disk) (location : Location) : IO Disk := do
  try
    let _ ← IO.FS.realPath ((disk.pathOf location).toString ++ "/.")
    return { disk with made := disk.made ++ [location] }
  catch _ =>
    return disk

def readInto (disk : Disk) (location : Location) : IO Disk := do
  try
    let text ← IO.FS.readFile (disk.pathOf location).toString
    return disk.write location (.text text)
  catch _ =>
    return disk

/--
Bring a document to the disk. Text is only ever added.
-/
def writeBack (disk : Disk) (location : Location) (document : Document) : IO Unit := do
  IO.FS.createDirAll (disk.pathOf location.dropLast).toString
  let path := (disk.pathOf location).toString
  match document with
  | .text t => IO.FS.withFile path .append fun file => file.putStr t.toString
  | .data v =>
    match v.json? (some 0) with
    | some t => IO.FS.writeFile path (t.toString ++ "\n")
    | none => throw (IO.userError "The project cannot be written")

def printLine : Line → IO Unit
  | .text t => IO.println t.toString
  | .row cells => IO.println (Text.join " | " cells).toString

def printEnding : Command.Ending → IO Unit
  | .done | .invalidProps => pure ()
  | .misused => IO.eprintln Command.helpText.toString
  | .reported f => IO.eprintln (Command.errorLine f).toString
  | .escaped f => IO.eprintln f.message.toString

end Main

end PageBinding

open PageBinding in
def main (args : List String) : IO UInt32 := do
  let args := args.map Text.ofString
  let working := Location.namesOf (toString (← IO.currentDir))
  let root : Disk := ⟨[], [], []⟩
  let disk ← (Main.passed root working args).foldlM Main.findInto root
  let disk ← (Main.candidates root working args).foldlM Main.readInto disk
  let stem := Text.hex (← IO.rand 0 0x3fffffffffffffff)
  let supplies : IdSupplies := ⟨⟨stem ++ ("-" : Text), 0⟩, ⟨stem ++ ("-tx-" : Text), 0⟩⟩
  let report := Command.execute disk working supplies args
  for (location, document) in report.disk.files do
    unless disk.document? location = some document do
      Main.writeBack report.disk location document
  report.lines.forM Main.printLine
  Main.printEnding report.ending
  return UInt32.ofNat report.ending.exitStatus
