import DialogueTyping.Span
import DialogueTyping.Ty
import DialogueTyping.Text.Quoted

set_option autoImplicit false

namespace DialogueTyping

inductive Problem where
  | unrecognisedToken (text : String)
  | unexpectedToken (token : String)
  | unmetExpectation (token expectation : String)
  | invalidNumber (token : String)
  | invalidAssignmentTarget
  | unknownType (name : String)
  | variableInConstant (name : String)
  | undeclaredVariable (name : String)
  | undeclaredFunction (name : String)
  | arityMismatch (function : String) (expected actual : Nat)
  -- `index` counts from 0
  | argumentMismatch (function : String) (index : Nat) (expected supplied : Ty)
  | nullNotPermitted
  | ambiguousType (operator : String)
  | operandMismatch (operator : String) (types : List Ty)
  | operatorMismatch (operator : String) (permitted types : List Ty)
  | unsupportedConversion (target : String)
  deriving DecidableEq, Repr

namespace Problem

def name : Problem → String
  | unrecognisedToken .. => "UnrecognisedToken"
  | unexpectedToken .. => "UnexpectedToken"
  | unmetExpectation .. => "UnexpectedTokenDetailed"
  | invalidNumber .. => "NumberParseError"
  | invalidAssignmentTarget => "InvalidAssignmentTarget"
  | unknownType .. => "UnknownType"
  | variableInConstant .. => "ConstantExpressionViolation"
  | undeclaredVariable .. => "UndeclaredVariable"
  | undeclaredFunction .. => "UndeclaredFunction"
  | arityMismatch .. => "ArityMismatch"
  | argumentMismatch .. => "ParameterTypeMismatch"
  | nullNotPermitted => "NullNotPermitted"
  | ambiguousType .. => "AmbiguousExpressionType"
  | operandMismatch .. => "TypeMismatch"
  | operatorMismatch .. => "OperatorTypeMismatch"
  | unsupportedConversion .. => "UnsupportedCastTarget"

def message : Problem → String
  | unrecognisedToken text => "unrecognised token: " ++ Text.quoted text
  | unexpectedToken token => "unexpected token: " ++ Text.quoted token
  | unmetExpectation token expectation =>
    "unexpected token (" ++ Text.quoted expectation ++ "): " ++ Text.quoted token
  | invalidNumber token => "error parsing number: " ++ Text.quoted token
  | invalidAssignmentTarget => "the target of a compound assignment must be a variable"
  | unknownType name => "unknown type " ++ Text.quoted name
  | variableInConstant name =>
    "variable " ++ Text.quoted name ++ " used in an expression that must be constant"
  | undeclaredVariable name => "variable " ++ Text.quoted name ++ " not declared"
  | undeclaredFunction name => "function " ++ Text.quoted name ++ " not declared"
  | arityMismatch function expected actual =>
    "function " ++ Text.quoted function ++ " expects " ++ toString expected
      ++ " arguments, received " ++ toString actual
  | argumentMismatch function index expected supplied =>
    "argument " ++ toString (index + 1) ++ " to " ++ Text.quoted function ++ " should be "
      ++ expected.label ++ ", received " ++ supplied.label
  | nullNotPermitted => "null is not permitted"
  | ambiguousType operator =>
    "type of expression using `" ++ operator ++ "` cannot be determined, "
      ++ "try adding an explicit conversion to at least one operand"
  | operandMismatch operator types =>
    "all operands of `" ++ operator ++ "` must have the same type, found: " ++ Ty.listLabel types
  | operatorMismatch operator permitted types =>
    "`" ++ operator ++ "` cannot be applied to " ++ Ty.listLabel types
      ++ ": permitted types are " ++ Ty.listLabel permitted
  | unsupportedConversion target => "unsupported conversion target " ++ Text.quoted target

/-- What to do about the problem, when there is anything to say. -/
def tip? : Problem → Option String
  | unrecognisedToken .. => none
  | unexpectedToken token => some ("Unexpected token: `" ++ token ++ "`")
  | unmetExpectation token expectation =>
    some ("Unexpected token: `" ++ token ++ "`, " ++ expectation)
  | invalidNumber token => some ("Invalid number: `" ++ token ++ "`")
  | invalidAssignmentTarget =>
    some "Only variables such as `$gold` can appear on the left of a compound assignment"
  | unknownType name =>
    some ("Unknown type `" ++ name ++ "`, expected `number`, `string`, `bool` or `?`")
  | variableInConstant name =>
    some ("Variable `" ++ name ++ "` cannot be used where a constant value is required")
  | undeclaredVariable name => some ("Variable `" ++ name ++ "` not declared")
  | undeclaredFunction name => some ("Function `" ++ name ++ "` not declared")
  | arityMismatch _ expected actual =>
    some ("Expected " ++ toString expected ++ " arguments, received " ++ toString actual)
  | argumentMismatch _ _ expected supplied =>
    some ("Expected argument type `" ++ expected.label ++ "`, received `" ++ supplied.label ++ "`")
  | nullNotPermitted => some "Null is not a value in this language"
  | ambiguousType .. =>
    some "Wrap at least one operand in a conversion such as `number(...)` or `string(...)`"
  | operandMismatch .. => some "All operands of an operator must have the same type"
  | operatorMismatch operator permitted _ =>
    some ("`" ++ operator ++ "` only accepts " ++ Ty.listLabel permitted)
  | unsupportedConversion target =>
    some ("Cannot convert to `" ++ target ++ "`, expected `number`, `string` or `bool`")

end Problem

/-- A problem and its place. `node` is given when the problem lies in a node of a tree. -/
structure Diagnostic where
  problem : Problem
  span : Span
  node : Option NodeId
  deriving DecidableEq, Repr

namespace Diagnostic

def atOffset (problem : Problem) (offset : Offset) : Diagnostic :=
  ⟨problem, Span.point offset, none⟩

def atSite (problem : Problem) (site : Site) : Diagnostic :=
  ⟨problem, site.span, some site.id⟩

/-- The diagnostic on one line, without its place. -/
def summary (diagnostic : Diagnostic) : String :=
  diagnostic.problem.name ++ ": " ++ diagnostic.problem.message

end Diagnostic

end DialogueTyping
