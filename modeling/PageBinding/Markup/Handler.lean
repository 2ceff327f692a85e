import PageBinding.Markup.Handler.Expression

/-!
This module contains the parameters of tags that stand for handlers. They name the handler, or give
its arguments as a literal, or both.
-/

namespace PageBinding

namespace Markup

namespace Handler

def checkLiteral (t : Text) : Except LiteralFault Unit := do
  let ts ← tokens t
  match ← whole false ts with
  | some x => if !x.isLiteral then throw .notLiteral
  | none =>
    let _ ← whole true ts
    throw .malformed

/--
The arguments in some parameters: what follows a name, if that stands in parentheses, and all of the
parameters if they do not have that form.
-/
def argumentsOf (parameters : Text) : Text :=
  let name := parameters.takeWhile fun c => isNamePart c || c.is '.'
  let rest := parameters.drop name.length
  let isEnclosed := rest.head?.any (·.is '(') && rest.getLast?.any (·.is ')') &&
    !rest.any (·.is '\n')
  if rest.isEmpty then "()" else if isEnclosed then rest else parameters

def check (parameters : Text) : Except Failure Unit :=
  if parameters.isEmpty then .ok () else
  let part := argumentsOf parameters.trim
  match checkLiteral part with
  | .ok () => .ok ()
  | .error fault => .error (.handler parameters part fault)

end Handler

end Markup

end PageBinding
