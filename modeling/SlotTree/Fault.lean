import SlotTree.Location
import SlotTree.Text.Quoted

/-!
# What can go wrong

Every operation of this library that may fail does so with a `Fault`: a cause and a
position.  Causes are data, not text, so that a statement about a failing operation
can say which cause it fails with; the wording stands in one place per purpose.

* `Cause.name` is the short name under which the cause is reported;
* `Cause.message` is the sentence for a log or a caller;
* `Cause.tip` is the sentence for the person at the editor, absent only where the
  report already shows all there is to say.

An operation on a tree that no source stands behind gives a *detached* fault.  Whoever
knows a position moves the fault there with `Fault.moveTo`, which keeps the cause.
-/

namespace SlotTree

/-- Why an operation failed. -/
inductive Cause where
  -- the text is not made of tokens
  | unrecognisedToken (token : String)
  | unterminatedString
  | inconsistentIndentation
  | unexpectedIndent
  -- the tokens are not a script
  | unexpectedToken (token : String)
  | unexpectedTokenDetailed (token message : String)
  | malformedNumber (token : String)
  | nodeNotSupported (node : String)
  | constantNotSupported (constant : String)
  | featureNotSupported (feature : String)
  | unknownType (name : String)
  -- types and arguments
  | typeMismatch (expected received : String)
  | argumentMismatch (argument expected received : String)
  | tooManyPositional (callee : String)
  | unexpectedKeyword (callee keyword : String)
  | repeatedKeyword (keyword : String)
  | positionalAfterKeyword
  -- editing a tree
  | slotOccupied (slotType : String)
  | literalSlot (slotType : String)
  | notLiteralSlot (slotType : String)
  | literalMismatch (slotType value : String)
  | unknownField (node field : String)
  | constraintNotAllowed (slotType : String)
  | indexOutOfRange (index length : Nat)
  -- rendering a tree
  | emptySlot (node field : String)
  | noSourceForm (node : String)
  -- builtins
  | invalidBuiltinName (name : String)
  | builtinAlreadyRegistered (name : String)
  deriving DecidableEq, Repr

namespace Cause

open Text (quoted)

/-- The name under which the cause is reported. -/
def name : Cause → String
  | unrecognisedToken _ => "UnrecognisedToken"
  | unterminatedString => "UnterminatedString"
  | inconsistentIndentation => "InconsistentIndentation"
  | unexpectedIndent => "UnexpectedIndent"
  | unexpectedToken _ => "UnexpectedToken"
  | unexpectedTokenDetailed _ _ => "UnexpectedTokenDetailed"
  | malformedNumber _ => "NumberParseError"
  | nodeNotSupported _ => "ASTNotSupported"
  | constantNotSupported _ => "ConstantNotSupported"
  | featureNotSupported _ => "TempNotSupported"
  | unknownType _ => "UnknownType"
  | typeMismatch _ _ => "TypeMatchError"
  | argumentMismatch _ _ _ => "ArgumentTypeMatchError"
  | tooManyPositional _ => "TooManyPositionalArguments"
  | unexpectedKeyword _ _ => "UnexpectedKeywordArgument"
  | repeatedKeyword _ => "RepeatedKeywordArgument"
  | positionalAfterKeyword => "PositionalFollowsKeyword"
  | slotOccupied _ => "SlotOccupied"
  | literalSlot _ => "LiteralSlot"
  | notLiteralSlot _ => "NotLiteralSlot"
  | literalMismatch _ _ => "LiteralValueMismatch"
  | unknownField _ _ => "UnknownField"
  | constraintNotAllowed _ => "ConstraintNotAllowed"
  | indexOutOfRange _ _ => "IndexOutOfRange"
  | emptySlot _ _ => "EmptySlot"
  | noSourceForm _ => "NotUnparsable"
  | invalidBuiltinName _ => "InvalidBuiltinName"
  | builtinAlreadyRegistered _ => "BuiltinAlreadyRegistered"

/-- The cause as a sentence. Pieces of a script are quoted, names of the library's own
are not. -/
def message : Cause → String
  | unrecognisedToken token => "unrecognised token: " ++ quoted token
  | unterminatedString => "unterminated string literal"
  | inconsistentIndentation => "unindent does not match any outer indentation level"
  | unexpectedIndent => "unexpected indent"
  | unexpectedToken token => "unexpected token: " ++ quoted token
  | unexpectedTokenDetailed token message =>
    "unexpected token (" ++ quoted message ++ "): " ++ quoted token
  | malformedNumber token => "error parsing number: " ++ quoted token
  | nodeNotSupported node => node ++ " is not supported"
  | constantNotSupported constant => constant ++ " constant is not supported"
  | featureNotSupported feature => feature ++ " is temporarily not supported"
  | unknownType name => "unknown type " ++ name ++ " found"
  | typeMismatch expected received =>
    "types do not match: expected " ++ quoted expected ++ ", received " ++ quoted received
  | argumentMismatch argument expected received =>
    "argument " ++ quoted argument ++ " expects " ++ quoted expected ++ ", received " ++
      quoted received
  | tooManyPositional callee => "too many positional argument for " ++ callee
  | unexpectedKeyword callee keyword =>
    callee ++ " got an unexpected keyword argument " ++ quoted keyword
  | repeatedKeyword keyword => "keyword argument repeated: " ++ keyword
  | positionalAfterKeyword => "positional argument follows keyword argument"
  | slotOccupied slotType => "slot of type " ++ slotType ++ " is already occupied"
  | literalSlot slotType => "slot of type " ++ slotType ++ " only accepts literal values"
  | notLiteralSlot slotType => "slot of type " ++ slotType ++ " is not a literal slot"
  | literalMismatch slotType value =>
    "literal " ++ value ++ " does not match slot type " ++ slotType
  | unknownField node field => node ++ " has no field " ++ quoted field
  | constraintNotAllowed slotType =>
    "constraint slot requires slot type `type`, found " ++ slotType
  | indexOutOfRange index length =>
    "index " ++ toString index ++ " out of range for length " ++ toString length
  | emptySlot node field => "field " ++ quoted field ++ " of " ++ node ++ " is empty"
  | noSourceForm node => node ++ " cannot be unparsed"
  | invalidBuiltinName name => "invalid builtin name " ++ quoted name
  | builtinAlreadyRegistered name => "builtin " ++ quoted name ++ " already registered"

/-- Advice for the person at the editor. -/
def tip : Cause → Option String
  | unrecognisedToken _ => none
  | unterminatedString => some "String literal is missing its closing quote"
  | inconsistentIndentation => some "Dedent does not match any outer indentation level"
  | unexpectedIndent => some "Unexpected indent, only flat scripts are supported"
  | unexpectedToken token => some ("Unexpected token: `" ++ token ++ "`")
  | unexpectedTokenDetailed token message =>
    some ("Unexpected token: `" ++ token ++ "`, " ++ message)
  | malformedNumber token =>
    some ("Invalid number: `" ++ token ++ "`, is it above the integer limit?")
  | nodeNotSupported node => some ("`" ++ node ++ "` syntax cannot be represented yet")
  | constantNotSupported constant => some (constant ++ " constants cannot be represented")
  | featureNotSupported feature => some (feature ++ " is not supported yet")
  | unknownType name => some ("Unknown type `" ++ name ++ "` found")
  | typeMismatch expected received =>
    some ("Expected type `" ++ expected ++ "`, received `" ++ received ++ "`")
  | argumentMismatch argument expected received =>
    some ("Argument `" ++ argument ++ "` expects type `" ++ expected ++ "`, received `" ++
      received ++ "`")
  | tooManyPositional callee =>
    some ("Too many positional arguments for `" ++ callee ++ "`")
  | unexpectedKeyword callee keyword =>
    some ("`" ++ callee ++ "` got an unexpected keyword argument `" ++ keyword ++ "`")
  | repeatedKeyword keyword => some ("Keyword argument repeated: `" ++ keyword ++ "`")
  | positionalAfterKeyword =>
    some "Positional arguments must come before keyword arguments"
  | slotOccupied slotType =>
    some ("Slot of type `" ++ slotType ++ "` already holds an expression, remove it first")
  | literalSlot slotType =>
    some ("Slot of type `" ++ slotType ++ "` only holds literal values")
  | notLiteralSlot slotType =>
    some ("Slot of type `" ++ slotType ++ "` cannot hold a literal value")
  | literalMismatch slotType value =>
    some ("Literal `" ++ value ++ "` does not fit a slot of type `" ++ slotType ++ "`")
  | unknownField node field => some ("`" ++ node ++ "` has no field `" ++ field ++ "`")
  | constraintNotAllowed slotType =>
    some ("Only slots of type `type` can constrain another slot, found `" ++ slotType ++ "`")
  | indexOutOfRange index length =>
    some ("Index " ++ toString index ++ " is out of range for a block of " ++
      toString length ++ " statements")
  | emptySlot node field => some ("Field `" ++ field ++ "` of `" ++ node ++ "` is empty")
  | noSourceForm node => some ("`" ++ node ++ "` has no Python source form")
  | invalidBuiltinName name =>
    some ("`" ++ name ++ "` is not a Python builtin that can be registered")
  | builtinAlreadyRegistered name => some ("Builtin `" ++ name ++ "` is already registered")

end Cause

/-- A cause at a position. -/
structure Fault where
  cause : Cause
  position : Position
  deriving DecidableEq, Repr

namespace Fault

/-- A fault that no source stands behind. -/
def detached (cause : Cause) : Fault := ⟨cause, .detached⟩

/-- The same cause at another position. -/
def moveTo (fault : Fault) (position : Position) : Fault := ⟨fault.cause, position⟩

@[simp] theorem cause_moveTo (fault : Fault) (p : Position) : (fault.moveTo p).cause = fault.cause := rfl

@[simp] theorem position_moveTo (fault : Fault) (p : Position) : (fault.moveTo p).position = p := rfl

end Fault

/-- The outcome of an operation that may fail: its answer, and the state it leaves
behind, also where it fails. -/
abbrev Edited (σ : Type) (α : Type) : Type := Except Fault α × σ

end SlotTree
