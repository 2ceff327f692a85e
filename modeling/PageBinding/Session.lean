import PageBinding.Service

/-!
This module contains edit sessions: one user's way through the variables of the selected instance.
A session is closed, at the list of variables, or at one variable, and goes back from there by the
way that it came.
-/

namespace PageBinding

variable [Limits]

inductive Tab where
  | value
  | resource
  deriving DecidableEq, Repr

def Tab.name : Tab → Text
  | .value => "value"
  | .resource => "resource"

inductive Stage where
  | closed
  | list
  | one
  deriving DecidableEq, Repr

def Stage.name : Stage → Text
  | .closed => "closed"
  | .list => "editing_list"
  | .one => "editing_one"

structure Session where
  selector : Option Selector
  stage : Stage
  current? : Option Variable
  tab? : Option Tab
  nameErrors : List Text
  valueErrors : List Text
  deriving DecidableEq, Repr

namespace Session

def new (selector : Option Selector) : Session :=
  ⟨selector, .closed, none, none, [], []⟩

def refuse (s : Session) (action : Text) : Failure :=
  .wrongState action s.stage.name

def require (s : Session) (action : Text) (stage : Stage) : Except Failure Unit :=
  if s.stage = stage then .ok () else .error (s.refuse action)

def resetOne (s : Session) : Session :=
  { s with current? := none, tab? := none, nameErrors := [], valueErrors := [] }

def openList (s : Session) : Except Failure Session := do
  s.require "open" .closed
  return { s with stage := .list }

def add (s : Session) : Except Failure Session := do
  s.require "add a variable" .list
  return { s.resetOne with stage := .one, tab? := some .value }

def tabOf (v : Variable) : Tab :=
  match v.content with
  | .resource _ => .resource
  | _ => .value

def edit (s : Session) (v : Variable) : Except Failure Session := do
  s.require "edit a variable" .list
  return { s.resetOne with stage := .one, current? := some v, tab? := some (tabOf v) }

/--
Change the tab. Of parameters only the name can be changed.
-/
def selectTab (s : Session) (tab : Tab) : Except Failure Session := do
  s.require "switch tabs" .one
  if s.current?.any Variable.isParameter then
    throw (.wrongState "switch tabs" "editing a parameter")
  return { s with tab? := some tab }

def cancel (s : Session) : Session :=
  match s.stage with
  | .one => { s.resetOne with stage := .list }
  | .list => { s with stage := .closed }
  | .closed => s

def close (s : Session) : Session :=
  { s.resetOne with stage := .closed }

def initialName (s : Session) : Text :=
  match s.current? with
  | some v => v.name
  | none => []

def initialText (s : Session) : Except Failure Text :=
  Expression.format <|
    match s.current?.bind Variable.literal? with
    | some v => v
    | none => .text []

def showing (s : Session) (failure : Failure) : Session :=
  match failure with
  | .nameRequired => { s with nameErrors := [failure.message] }
  | _ => if failure.isReported then { s with valueErrors := [failure.message] } else s

/--
Save by an operation of the service. A failure is kept to be shown, and the session goes on; else it
is back at the list.
-/
def saveBy (s : Session) (service : Service)
    (operation : Option Variable → Service → Except Failure Variable × Service) :
    Except Failure Variable × Session × Service :=
  match s.require "save" .one with
  | .error failure => (.error failure, s, service)
  | .ok () =>
    let s : Session := { s with nameErrors := [], valueErrors := [] }
    match operation s.current? service with
    | (.ok saved, service) => (.ok saved, { s.resetOne with stage := .list }, service)
    | (.error failure, service) => (.error failure, s.showing failure, service)

def saveValue (s : Session) (service : Service) (name text : Text) :
    Except Failure Variable × Session × Service :=
  s.saveBy service fun v service => service.save s.selector v name text

def saveResource (s : Session) (service : Service) (name : Text) (resource : Resource) :
    Except Failure Variable × Session × Service :=
  s.saveBy service fun v service => service.saveResource s.selector v name resource

end Session

end PageBinding
