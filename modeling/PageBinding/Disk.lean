import PageBinding.Collection
import PageBinding.Value.Json
import PageBinding.Value.Read

/-!
This module contains the part of a disk that projects are kept on: documents at their locations
below one root directory. How data is read from files and written to them is up to a library, of
which only the outcomes are part of this one.
-/

namespace PageBinding

/--
A location below the root directory: the names on the way to it.
-/
abbrev Location := List Text

namespace Location

/--
The names of a path in order. Empty names and the name of the directory itself do not count.
-/
def namesOf (path : Text) : List Text :=
  let names := path.foldr
    (fun c names => match names with
      | [] => if c.is '/' then [[], []] else [[c]]
      | name :: rest => if c.is '/' then [] :: name :: rest else (c :: name) :: rest)
    []
  names.filter fun name => !name.isEmpty && name ≠ Text.ofString "."

/--
The location that names lead to from another location. Two dots lead up again from a location that
`leaves` allows to leave, unless that is the root directory.
-/
def walk (leaves : Location → Bool) (start : Location) (names : List Text) : Option Location :=
  names.foldlM step start
where
  step (location : Location) (name : Text) : Option Location :=
    if name = Text.ofString ".." then
      if location.isEmpty || !leaves location then none else some location.dropLast
    else
      some (location ++ [name])

/--
The location of a path that starts at another location. A path that leads out of the root directory
has none.
-/
def resolve (start : Location) (path : Text) : Option Location :=
  walk (fun _ => true) start (namesOf path)

def normalize (path : Text) : Text :=
  let names := Text.join "/" (namesOf path)
  let slashes := path.takeWhile (·.is '/')
  match slashes.length with
  | 0 => if names.isEmpty then "." else names
  | 2 => Text.concat ["//", names]
  | _ => Text.concat ["/", names]

def ascending (location : Location) : List Location :=
  (List.range (location.length + 1)).reverse.map location.take

end Location

/--
What a library for data in files makes of the text of a file, and why it refuses to write data. A
byte that belongs to no character is a surrogate in the text.
-/
class FileFormat where
  read : Text → Except Unreadable Value
  refusal? : Value → Option Unwritable

/--
JSON, in which no integer may be too long to be converted.
-/
instance FileFormat.json : FileFormat where
  read := Value.read
  refusal? v := if (v.json? none).isSome then none else some .numeral

/--
What a file holds: data that has been written to it, or a text that is yet to be read.
-/
inductive Document where
  | data (v : Value)
  | text (t : Text)
  deriving DecidableEq, Repr

namespace Document

def isVoid : Value → Bool
  | .null | .bool false | .number (.int 0) => true
  | .number (.float x) => x.isZero
  | .text t => t.isEmpty
  | .list items => items.isEmpty
  | .object entries => entries.isEmpty
  | _ => false

def read [FileFormat] (document : Document) : Except Unreadable Value := do
  let v ← match document with
    | .data v => pure v
    | .text t => FileFormat.read t
  return if isVoid v then .object [] else v

end Document

inductive Entry where
  | file (document : Document)
  | directory
  deriving DecidableEq, Repr

/--
A disk. Its root has a name, with which absolute paths start. Directories exist where they have been
made and above every file.
-/
structure Disk where
  root : Text
  made : List Location
  files : List (Location × Document)

namespace Disk

def pathOf (disk : Disk) (location : Location) : Text :=
  Text.join "/" (disk.root :: location)

def document? (disk : Disk) (location : Location) : Option Document :=
  (disk.files.find? (·.1 = location)).map Prod.snd

def isDirectory (disk : Disk) (location : Location) : Bool :=
  location.isEmpty || disk.made.any location.isPrefixOf ||
    disk.files.any fun file => location.isPrefixOf file.1 && location ≠ file.1

def namesFrom? (disk : Disk) (working : Location) (path : Text) : Option (Location × List Text) :=
  let root := Text.concat [disk.root, "/"]
  if Text.startsWith path root then some ([], Location.namesOf (path.drop root.length))
  else if Text.startsWith path "/" then none
  else some (working, Location.namesOf path)

def locate (disk : Disk) (working : Location) (path : Text) : Option Location := do
  let (start, names) ← disk.namesFrom? working path
  Location.walk (fun _ => true) start names

/--
The same for a path that is only followed: every directory that it leaves has to exist.
-/
def follow (disk : Disk) (working : Location) (path : Text) : Option Location := do
  let (start, names) ← disk.namesFrom? working path
  Location.walk disk.isDirectory start names

def entry? (disk : Disk) (location : Location) : Option Entry :=
  match disk.document? location with
  | some document => some (.file document)
  | none => if disk.isDirectory location then some .directory else none

def write (disk : Disk) (location : Location) (document : Document) : Disk :=
  if (disk.document? location).isSome then
    { disk with
      files := disk.files.map fun file =>
        if file.1 = location then (location, document) else file }
  else
    { disk with files := disk.files ++ [(location, document)] }

/--
Append lines to the text at a location. Nothing happens where no file can be.
-/
def append (disk : Disk) (location : Location) (lines : List Text) : Disk :=
  let added := Text.concat (lines.map fun line => Text.concat [line, "\n"])
  let isBlocked :=
    (Location.ascending location.dropLast).any fun above => (disk.document? above).isSome
  if isBlocked || disk.isDirectory location then disk
  else
    match disk.document? location with
    | some (.text t) => disk.write location (.text (t ++ added))
    | _ => disk.write location (.text added)

def findAbove (disk : Disk) (start : Location) (name : Text) : Option Location :=
  ((Location.ascending start).map (· ++ [name])).find? fun location => (disk.entry? location).isSome

end Disk

end PageBinding
