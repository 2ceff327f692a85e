import PageBinding.Workspace

/-!
This module contains the check of props: whether their texts can be read and refer to nothing but
what is visible at their instances.
-/

namespace PageBinding

variable [Limits]

namespace Workspace

/--
A text to check: how it is to be read, and the names it may use besides the variables in scope.
-/
structure Source where
  mode : Expression.Mode
  text : Text
  locals : List Text

def sources (effects : List Text) (p : Property) : List Source :=
  match p.value with
  | .literal .. => []
  | .expression text => [⟨.expression, text, []⟩]
  | .action steps => steps.map fun step => ⟨.ofEffects (some effects), step.code, step.args⟩

def problemOf (aliases : Collection Text) (source : Source) : Except Failure (Option Text) :=
  let known (name : Text) : Bool := aliases.contains name || name ∈ source.locals
  match Expression.checkNames source.mode known source.text with
  | .ok _ => .ok none
  | .error failure =>
    match failure with
    | .parse .. | .unknownIdentifier _ => .ok (some failure.message)
    | failure => .error failure

/--
What is wrong with the texts of a prop. Where the path of its instance is not known, that is the
only problem.
-/
def problems (w : Workspace) (p : Property) : Except Failure (List Text) :=
  match p.value with
  | .literal .. => .ok []
  | _ =>
    match w.project.selector p.instanceId with
    | .error failure => .ok [failure.message]
    | .ok selector => do
      let aliases ← Scope.aliases (← w.service.visible (some selector))
      let found ← (sources w.service.settings.effects p).mapM (problemOf aliases)
      return found.filterMap id

end Workspace

end PageBinding
