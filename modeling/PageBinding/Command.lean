import PageBinding.Text

/-!
This module contains the commands of the command line and how they are read from its arguments.
-/

namespace PageBinding

inductive Command where
  | check
  | scope (instanceId : Text)
  | usage
  | eval (text : Text)
  | setValue (instanceId name text : Text) (variableId : Option Text)
  | delete (variableId : Text)
  | bind (instanceId name variableId : Text)
  | expr (instanceId name text : Text) (type : Option Text)
  deriving DecidableEq, Repr

namespace Command

inductive Request where
  | version
  | help
  | run (command : Command) (file : Option Text)
  deriving DecidableEq, Repr

structure Switch where
  short : Option Char
  long : Text
  isFlag : Bool
  deriving DecidableEq

def Switch.help : Switch :=
  ⟨none, "--help", true⟩

def Switch.version : Switch :=
  ⟨none, "--version", true⟩

def Switch.file : Switch :=
  ⟨some 'f', "--file", false⟩

def Switch.verbose : Switch :=
  ⟨some 'v', "--verbose", true⟩

def Switch.id : Switch :=
  ⟨none, "--id", false⟩

def Switch.type : Switch :=
  ⟨none, "--type", false⟩

/--
The switches that an argument sets, with their values. The last one may still be without its value.
-/
structure Assignment where
  complete : List (Switch × Text)
  pending : Option Switch

/--
The switches of an argument that begins with one dash, by their letters. The first one with a value
takes the rest of the argument.
-/
def shortAssignment? (switches : List Switch) (letters : Text) : Option Assignment :=
  match letters with
  | [] => some ⟨[], none⟩
  | c :: rest =>
    match switches.find? fun s => s.short.any c.is with
    | none => none
    | some s =>
      if s.isFlag then
        (shortAssignment? switches rest).map fun assignment =>
          { assignment with complete := (s, []) :: assignment.complete }
      else if rest.isEmpty then some ⟨[], some s⟩
      else some ⟨[(s, rest)], none⟩

/--
The switch of an argument that begins with two dashes. An equals sign separates it from its value.
-/
def longAssignment? (switches : List Switch) (arg : Text) : Option Assignment :=
  let name := arg.takeWhile fun c => !c.is '='
  match switches.find? (·.long = name), arg.drop name.length with
  | none, _ => none
  | some s, [] => if s.isFlag then some ⟨[(s, [])], none⟩ else some ⟨[], some s⟩
  | some s, _ :: value => if s.isFlag then none else some ⟨[(s, value)], none⟩

def assignment? (switches : List Switch) (arg : Text) : Option Assignment :=
  if Text.startsWith arg "--" then longAssignment? switches arg
  else shortAssignment? switches (arg.drop 1)

/--
Whether an argument sets switches. A dash alone does not.
-/
def isSetting (arg : Text) : Bool :=
  Text.startsWith arg "-" && 1 < arg.length

structure Sorted where
  settings : List (Switch × Text)
  arguments : List Text

def Sorted.set (sorted : Sorted) (settings : List (Switch × Text)) : Sorted :=
  { sorted with settings := settings ++ sorted.settings }

def Sorted.add (sorted : Sorted) (arg : Text) : Sorted :=
  { sorted with arguments := arg :: sorted.arguments }

/--
Tell switches from other arguments. Two dashes end the switches. Unless they are mixed, the first
other argument ends them too.
-/
def sort? (switches : List Switch) (mixed : Bool) (args : List Text) : Option Sorted :=
  match args with
  | [] => some ⟨[], []⟩
  | arg :: rest =>
    if arg = Text.ofString "--" then some ⟨[], rest⟩
    else if isSetting arg then
      match assignment? switches arg, rest with
      | none, _ => none
      | some ⟨complete, none⟩, rest => (sort? switches mixed rest).map (·.set complete)
      | some ⟨_, some _⟩, [] => none
      | some ⟨complete, some s⟩, value :: rest =>
        (sort? switches mixed rest).map (·.set (complete ++ [(s, value)]))
    else if mixed then (sort? switches mixed rest).map (·.add arg)
    else some ⟨[], arg :: rest⟩

def Sorted.value? (sorted : Sorted) (s : Switch) : Option Text :=
  (sorted.settings.reverse.find? (·.1 = s)).map Prod.snd

def Sorted.has (sorted : Sorted) (s : Switch) : Bool :=
  (sorted.value? s).isSome

def ownSwitches (name : Text) : List Switch :=
  if name = Text.ofString "eval" then []
  else if name = Text.ofString "set-value" then [.file, .verbose, .id]
  else if name = Text.ofString "expr" then [.file, .verbose, .type]
  else [.file, .verbose]

/--
The command with a given name, if its arguments are as many as it needs. An empty type is none.
-/
def named? (name : Text) (sorted : Sorted) : Option Command :=
  let type := (sorted.value? .type).filter fun t => !t.isEmpty
  let commands : List (Text × Command) := match sorted.arguments with
    | [] => [("check", .check), ("usage", .usage)]
    | [a] => [("scope", .scope a), ("eval", .eval a), ("delete", .delete a)]
    | [a, b] => [("expr", .expr a b [] type)]
    | [a, b, c] => [
        ("set-value", .setValue a b c (sorted.value? .id)), ("bind", .bind a b c),
        ("expr", .expr a b c type)]
    | _ => []
  (commands.find? (·.1 = name)).map Prod.snd

def names : List Text :=
  ["check", "scope", "usage", "eval", "set-value", "delete", "bind", "expr"]

def requestFor? (name : Text) (args : List Text) : Option Request := do
  let sorted ← sort? (.help :: ownSwitches name) true args
  if sorted.has .help then
    return .help
  else
    return .run (← named? name sorted) (sorted.value? .file)

/--
The request that a command line makes. There is none if it cannot be understood. Of the two requests
for information the first one counts, whatever comes after it.
-/
def request? (args : List Text) : Option Request := do
  let sorted ← sort? [.help, .version] false args
  match sorted.settings, sorted.arguments with
  | (s, _) :: _, _ => return if s = .version then .version else .help
  | [], name :: args => if name ∈ names then requestFor? name args else none
  | [], [] => none

end Command

end PageBinding
