import PageBinding.Disk
import PageBinding.Project
import PageBinding.Service

/-!
This module contains workspaces: a project that has been loaded from disk together with its
settings, in a service that edits it.
-/

namespace PageBinding

/--
The failure of a file that is not data, where faults of its syntax have failures of their own.
-/
def Unreadable.failure (ofSyntax : Malformed → Failure) : Unreadable → Failure
  | .malformed fault => ofSyntax fault
  | .numeral digits => .numeralTooLong (some digits)
  | .raised kind message => .raised kind message

def Unwritable.failure : Unwritable → Failure
  | .numeral => .numeralTooLong none
  | .raised kind message => .raised kind message

variable [FileFormat]

namespace Settings

def fileName : Text :=
  "varbind.yaml"

def ofDocument (document : Document) : Except Failure Settings :=
  match document.read with
  | .error fault => .error (fault.failure .malformedSettings)
  | .ok v =>
    match Settings.read [] v with
    | .error problems => .error (.invalidData problems)
    | .ok settings => .ok settings

def load (disk : Disk) (location : Location) : Except Failure Settings :=
  match disk.entry? location with
  | none => .ok default
  | some .directory => .error (.isDirectory (disk.pathOf location))
  | some (.file document) => ofDocument document

def discover (disk : Disk) (start : Location) : Except Failure Settings :=
  match disk.findAbove start fileName with
  | none => .ok default
  | some location => load disk location

end Settings

namespace Project

def fileName : Text :=
  "varbind.project.yaml"

def ofDocument (supply : IdSupply) (path : Text) (document : Document) :
    Except Failure (Project × IdSupply) :=
  match document.read with
  | .error fault => .error (fault.failure fun fault => .projectFile path (.malformed fault))
  | .ok v =>
    match Project.read supply v with
    | (.error problems, _) => .error (.projectFile path (.invalid problems))
    | (.ok project, supply) => .ok (project, supply)

def load (disk : Disk) (supply : IdSupply) (path : Text) (location : Option Location) :
    Except Failure (Project × IdSupply) :=
  match location.bind disk.entry? with
  | none => .error (.projectFile path .notFound)
  | some .directory => .error (.isDirectory path)
  | some (.file document) => ofDocument supply path document

def discover (disk : Disk) (start : Location) : Option Location :=
  disk.findAbove start fileName

end Project

structure IdSupplies where
  entities : IdSupply
  transactions : IdSupply
  deriving DecidableEq, Repr

structure Workspace where
  location : Location
  project : Project
  service : Service

namespace Workspace

/--
The project file to load: the one that is given, or the nearest one. Its path is how messages call
it.
-/
def target (disk : Disk) (working : Location) (given : Option Text) :
    Except Failure (Text × Option Location) :=
  match given with
  | some path => .ok (Location.normalize path, disk.follow working path)
  | none =>
    match Project.discover disk working with
    | some location => .ok (disk.pathOf location, some location)
    | none => .error (.projectFile Project.fileName .noneFound)

def load (disk : Disk) (supplies : IdSupplies) (working : Location) (given : Option Text) :
    Except Failure Workspace := do
  let (path, location) ← target disk working given
  let (project, ids) ← Project.load disk supplies.entities path location
  let location := location.getD []
  let settings ← Settings.discover disk location.dropLast
  let store := project.toStore ids supplies.transactions
  return ⟨location, project, .new store settings⟩

def logLocation? (w : Workspace) (disk : Disk) : Option Location := do
  let path ← w.service.settings.transactionLog
  if path.isEmpty then none else disk.locate w.location.dropLast path

def record (w : Workspace) (disk : Disk) : Disk :=
  match w.logLocation? disk with
  | some location =>
    let published := w.service.store.published
    if published.isEmpty then disk
    else disk.append location (published.filterMap Transaction.record?)
  | none => disk

def file (w : Workspace) : Value :=
  w.project.fileWith w.service.store.collections

/--
Save the project as the store has it now. A file that cannot be written is left alone.
-/
def save (w : Workspace) (disk : Disk) : Except Failure Disk :=
  match FileFormat.refusal? w.file with
  | some fault => .error fault.failure
  | none => .ok (disk.write w.location (.data w.file))

end Workspace

end PageBinding
