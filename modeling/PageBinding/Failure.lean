import PageBinding.Model.Problem
import PageBinding.Number

/-!
This module contains the ways in which the operations of the library fail, each with its message.

Failures are *reported* or not: the edit session and the command line record and print the reported
ones, the others pass through.
-/

namespace PageBinding

structure Place where
  line : Nat
  column : Nat
  deriving DecidableEq, Repr

inductive ParseFault where
  | emptyExpression
  | emptyAction
  | effectNotAllowed (name : Text)
  | tooDeep
  | unexpectedEnd
  | call
  | assignment
  | keyword (word : Text)
  | token (text : Text)
  | character (c : CodePoint)
  | invalidEscape
  deriving DecidableEq, Repr

inductive Kind where
  | boolean
  | number
  | string
  | object
  deriving DecidableEq, Repr

inductive EvaluationFault where
  | blank
  | notFinite
  | divisionByZero
  | propertyOfNull
  | operand (op : Text) (kind : Kind)
  | operands (op : Text) (left right : Kind)
  | incomparable (op : Text) (left right : Kind)
  /-- The value holds an infinite number. -/
  | outOfRange
  | tooManyDigits
  deriving DecidableEq, Repr

/--
What is wrong with the syntax of a file: what was being read when it broke off.
-/
inductive Malformed where
  | node
  | sequence
  | mapping
  | quoted
  | escape
  | other (problem : Text)
  deriving DecidableEq, Repr

/--
Why a file is not data. Only a fault of its syntax is one that whoever reads files reckons with.
-/
inductive Unreadable where
  | malformed (fault : Malformed)
  /-- An integer is too long to be converted. -/
  | numeral (digits : Nat)
  /-- Bytes that are no text, data that is nested too deeply, a day that does not exist. -/
  | raised (kind message : Text)
  deriving DecidableEq, Repr

inductive Unwritable where
  /-- An integer is too long to be converted. -/
  | numeral
  | raised (kind message : Text)
  deriving DecidableEq, Repr

inductive ProjectFault where
  | notFound
  | noneFound
  | malformed (fault : Malformed)
  | invalid (problems : List Problem)
  | cycle (instanceId : Text)
  deriving DecidableEq, Repr

inductive LiteralFault where
  | malformed
  | missingComma
  | missingElse
  /-- An assignment stands for a comparison; the left side is said to be of some kind. -/
  | assignment (left : Option Text)
  | namedAssignment (left : Text)
  | missingParentheses (command : Text)
  | starred (isDouble : Bool)
  | star
  | missingEntryValue
  | missingEntryColon
  | starredEntryValue
  | neverClosed (opening : Text)
  | unmatched (closing : CodePoint)
  | mismatched (closing opening : CodePoint) (line : Option Nat)
  | unterminated (isTriple : Bool) (line : Nat)
  | numeral (kind : Text)
  | digit (digit : CodePoint) (kind : Text)
  | leadingZeros
  | continuation
  | character (c : CodePoint)
  | mixture
  | notLiteral
  deriving DecidableEq, Repr

inductive Failure where
  | parse (fault : ParseFault) (place : Option Place)
  | unknownIdentifier (name : Text)
  | dependsOnVariables (names : List Text)
  | evaluation (fault : EvaluationFault)
  | parameterKept (variableId : Text)
  | variableInUse (variableId : Text)
  | nestedTransaction
  | unknownCollections (names : List Text)
  | aborted (cause : Failure)
  | variableNotFound (variableId : Text)
  | nameRequired
  | noInstance
  | instanceNotFound (instanceId : Text)
  | wrongState (action state : Text)
  | projectFile (path : Text) (fault : ProjectFault)
  -- The failures from here on are not reported.
  | emptyId
  | notNumeral (key : Text)
  /-- A text or an integer is too long to be converted; texts count their digits. -/
  | numeralTooLong (digits : Option Nat)
  | outsideDomain
  | operandTooLarge
  | quotientTooLarge
  /-- An escape is beyond every code point by far, in a string or in a key. -/
  | escapeTooLarge (inKey : Bool)
  | notIterable (kind : Text)
  /-- Something stands where an entity of another kind, which has the field, is expected. -/
  | missingField (kind field : Text)
  | readOnly
  | unknownKey (key : Text)
  | unknownCollection (name : Text)
  | emptyCollection
  | invalidData (problems : List Problem)
  | malformedSettings (fault : Malformed)
  | isDirectory (path : Text)
  /-- A closing tag without its opening tag in styled output. -/
  | unmatchedTag (tag : Text) (position : Nat)
  | nothingToClose (tag : Text) (position : Nat)
  | handler (parameters part : Text) (fault : LiteralFault)
  /-- A failure of another library, or one that the caller brings about. -/
  | raised (kind message : Text)
  deriving Repr

def Kind.name : Kind → Text
  | .boolean => "boolean"
  | .number => "number"
  | .string => "string"
  | .object => "object"

def ParseFault.message : ParseFault → Text
  | .emptyExpression => "Expression cannot be empty"
  | .emptyAction => "Action cannot be empty"
  | .effectNotAllowed name => Text.concat ["Effect \"", name, "\" is not allowed"]
  | .tooDeep => "Expression is too deeply nested"
  | .unexpectedEnd => "Unexpected end of expression"
  | .call => "Function calls are not allowed"
  | .assignment => "Assignment is not allowed"
  | .keyword word => Text.concat ["Unexpected keyword \"", word, "\""]
  | .token text => Text.concat ["Unexpected token \"", text, "\""]
  | .character c => Text.concat ["Unexpected character \"", [c], "\""]
  | .invalidEscape => "Invalid escape sequence"

def tooLongMessage (digits : Option Nat) : Text :=
  Text.concat [
    "Exceeds the limit (4300 digits) for integer string conversion",
    match digits with
    | some n => Text.concat [": value has ", Text.ofNat n, " digits"]
    | none => "",
    "; use sys.set_int_max_str_digits() to increase the limit"]

def EvaluationFault.message : EvaluationFault → Text
  | .blank => "Variable value is required"
  | .notFinite => "Expression does not evaluate to a finite number"
  | .divisionByZero => "Division by zero"
  | .propertyOfNull => "Cannot read properties of null"
  | .operand op kind => Text.concat ["Unary ", op, " requires a number, got ", kind.name]
  | .operands op left right =>
    Text.concat ["Cannot apply ", op, " to ", left.name, " and ", right.name]
  | .incomparable op left right =>
    Text.concat ["Cannot compare ", left.name, " and ", right.name, " with ", op]
  | .outOfRange =>
    "Expression does not evaluate to data: Out of range float values are not JSON compliant"
  | .tooManyDigits => Text.concat ["Expression does not evaluate to data: ", tooLongMessage none]

def Malformed.message : Malformed → Text
  | .node => "while parsing a flow node"
  | .sequence => "while parsing a flow sequence"
  | .mapping => "while parsing a flow mapping"
  | .quoted => "while scanning a quoted scalar"
  | .escape => "while scanning a double-quoted scalar"
  | .other problem => problem

def ProjectFault.message : ProjectFault → Text
  | .notFound => "file not found"
  | .noneFound => "no project file found in any parent directories"
  | .malformed fault => fault.message
  | .invalid problems =>
    Text.concat [
      Text.ofNat problems.length, " validation error", if problems.length = 1 then "" else "s",
      " for ProjectFile"]
  | .cycle instanceId => Text.concat ["cycle at instance ", instanceId]

def codeOf (c : CodePoint) : Text :=
  let digits := (Nat.toDigits 16 c.val).map Char.toUpper
  Text.concat ["U+", Text.ofChars (List.replicate (4 - digits.length) '0' ++ digits)]

def LiteralFault.message : LiteralFault → Text
  | .malformed => "invalid syntax"
  | .missingComma => "invalid syntax. Perhaps you forgot a comma?"
  | .missingElse => "expected 'else' after 'if' expression"
  | .assignment none =>
    "invalid syntax. Maybe you meant '==' or ':=' instead of '='?"
  | .assignment (some left) =>
    Text.concat ["cannot assign to ", left, " here. Maybe you meant '==' instead of '='?"]
  | .namedAssignment left => Text.concat ["cannot use assignment expressions with ", left]
  | .missingParentheses command =>
    Text.concat [
      "Missing parentheses in call to '", command, "'. Did you mean ", command, "(...)?"]
  | .starred false => "cannot use starred expression here"
  | .starred true => "cannot use double starred expression here"
  | .star => "Invalid star expression"
  | .missingEntryValue => "expression expected after dictionary key and ':'"
  | .missingEntryColon => "':' expected after dictionary key"
  | .starredEntryValue => "cannot use a starred expression in a dictionary value"
  | .neverClosed opening => Text.concat ["'", opening, "' was never closed"]
  | .unmatched closing => Text.concat ["unmatched '", [closing], "'"]
  | .mismatched closing opening line =>
    Text.concat [
      "closing parenthesis '", [closing], "' does not match opening parenthesis '", [opening], "'",
      match line with
      | some line => Text.concat [" on line ", Text.ofNat line]
      | none => ""]
  | .unterminated isTriple line =>
    Text.concat [
      "unterminated ", if isTriple then "triple-quoted " else "",
      "string literal (detected at line ", Text.ofNat line, ")"]
  | .numeral kind => Text.concat ["invalid ", kind, " literal"]
  | .digit c kind => Text.concat ["invalid digit '", [c], "' in ", kind, " literal"]
  | .leadingZeros =>
    Text.concat [
      "leading zeros in decimal integer literals are not permitted; ",
      "use an 0o prefix for octal integers"]
  | .continuation => "unexpected character after line continuation character"
  | .character c =>
    if c.isPrintable then Text.concat ["invalid character '", [c], "' (", codeOf c, ")"]
    else Text.concat ["invalid non-printable character ", codeOf c]
  | .mixture => "cannot mix bytes and nonbytes literals"
  | .notLiteral => "malformed node or string"

namespace Failure

def message : Failure → Text
  | .parse fault none => fault.message
  | .parse fault (some place) =>
    Text.concat [
      fault.message, " (line ", Text.ofNat place.line, ", column ", Text.ofNat place.column, ")"]
  | .unknownIdentifier name => Text.concat ["Unknown variable \"", name, "\""]
  | .dependsOnVariables names =>
    Text.concat ["Cannot use variables ", Text.join ", " names, " as variable value"]
  | .evaluation fault => fault.message
  | .parameterKept variableId =>
    Text.concat ["Parameter variable cannot be deleted: ", variableId]
  | .variableInUse variableId =>
    Text.concat ["Variable is used by props and cannot be deleted: ", variableId]
  | .nestedTransaction => "Nested transactions are not supported"
  | .unknownCollections names => Text.concat ["Unknown collections: ", Text.join ", " names]
  | .aborted cause => Text.concat ["Transaction aborted: ", cause.message]
  | .variableNotFound variableId => Text.concat ["Variable not found: ", variableId]
  | .nameRequired => "Variable name is required"
  | .noInstance => "No instance selected"
  | .instanceNotFound instanceId => Text.concat ["Instance not found: ", instanceId]
  | .wrongState action state => Text.concat ["Cannot ", action, " while ", state]
  | .projectFile path fault =>
    Text.concat ["Invalid project file ", path, ": ", fault.message]
  | .emptyId => "Variable id cannot be empty"
  | .notNumeral key =>
    Text.concat ["invalid literal for int() with base 10: ", key.quoted.take 200]
  | .numeralTooLong digits => tooLongMessage digits
  | .outsideDomain => "math domain error"
  | .operandTooLarge => "int too large to convert to float"
  | .quotientTooLarge => "integer division result too large for a float"
  | .escapeTooLarge inKey =>
    Text.concat [
      "Error trying to process rule \"", if inKey then "property_key" else "string",
      "\":\n\nPython int too large to convert to C int"]
  | .notIterable kind => Text.concat ["'", kind, "' object is not iterable"]
  | .missingField kind field =>
    Text.concat ["'", kind, "' object has no attribute '", field, "'"]
  | .readOnly => "'mappingproxy' object does not support item assignment"
  | .unknownKey key => key.quoted
  | .unknownCollection name => Text.quoted (Text.concat ["Unknown collection: ", name])
  | .emptyCollection => ""
  | .invalidData problems => Text.concat [Text.ofNat problems.length, " validation errors"]
  | .malformedSettings fault => fault.message
  | .isDirectory path => Text.concat ["[Errno 21] Is a directory: ", path.quoted]
  | .unmatchedTag tag position =>
    Text.concat [
      "closing tag '", tag, "' at position ", Text.ofNat position,
      " doesn't match any open tag"]
  | .nothingToClose tag position =>
    Text.concat [
      "closing tag '", tag, "' at position ", Text.ofNat position, " has nothing to close"]
  | .handler parameters part fault =>
    let place := if fault = .notLiteral then [] else Text.concat [part.quoted, " in "]
    Text.concat ["error parsing ", place, parameters.quoted, "; ", fault.message]
  | .raised _ message => message

def isReported : Failure → Bool
  | .parse .. | .unknownIdentifier _ | .dependsOnVariables _ | .evaluation _ | .parameterKept _
  | .variableInUse _ | .nestedTransaction | .unknownCollections _ | .aborted _
  | .variableNotFound _ | .nameRequired | .noInstance | .instanceNotFound _ | .wrongState ..
  | .projectFile .. => true
  | _ => false

def isParse : Failure → Bool
  | .parse .. => true
  | _ => false

def exitStatus : Failure → Nat
  | .projectFile .. => 2
  | _ => 1

end Failure

end PageBinding
