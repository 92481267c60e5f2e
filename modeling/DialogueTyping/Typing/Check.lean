import DialogueTyping.Declaration.Table
import DialogueTyping.Diagnostic.Basic
import DialogueTyping.Expr.Basic

set_option autoImplicit false

/-
Types of expressions. All operands of an operator agree on one type, which the first operand of a
known type decides. Open slots of called functions are filled on the way: a parameter from the type
of its argument, a result from the type that the operands agree on. What was filled stays filled,
also when a later part of the expression is found wrong.
-/

namespace DialogueTyping

/-- Why checking stops early. -/
inductive Stop where
  | report (diagnostic : Diagnostic)
  -- a slot that was found open could not be filled
  | breach (fault : BindFault)
  deriving DecidableEq, Repr

/-- A computation that fills slots of a table and may stop early. -/
abbrev Check := EStateM Stop Table

namespace Check

def fail {α : Type} (site : Site) (problem : Problem) : Check α :=
  throw (.report (.atSite problem site))

def bindSlot (name : String) (slot : Slot) (type : Ty) : Check Unit := do
  match (← get).bind name slot type with
  | .ok table => set table
  | .error fault => throw (.breach fault)

/-- The signature of a function that was found before. -/
def signature (name : String) : Check Signature := do
  match (← get).findFunction? name with
  | some signature => return signature
  | none => throw (.breach .noSlot)

/-- The type in a slot of a function that was found before. -/
def slot (name : String) (slot : Slot) : Check Ty := do
  match (← signature name).slot? slot with
  | some type => return type
  | none => throw (.breach .noSlot)

/-- Hands an argument of type `supplied` to a parameter. An open parameter takes the type. -/
def pass (function : String) (index : Nat) (argument : Site) (supplied : Ty) : Check Unit := do
  let expected ← slot function (.parameter index)
  if !expected.isResolved then
    if supplied.isResolved then bindSlot function (.parameter index) supplied
  else if expected ≠ supplied then
    fail argument (.argumentMismatch function index expected supplied)

/-- The type of an operand once the operands agree on `common`. A call whose result is open takes
that type; any other operand keeps its own. -/
def settle (common : Ty) (operand : Expr × Ty) : Check Ty := do
  match operand.1.call? with
  | none => return operand.2
  | some (name, _) =>
    if (← slot name .result).isResolved then
      return operand.2
    else
      bindSlot name .result common
      return common

/-- The type of the result of an operator on operands of given types. -/
def unify (site : Site) (operator : Operator) (operands : List (Expr × Ty)) : Check Ty := do
  match (operands.map Prod.snd).find? Ty.isResolved with
  | none => fail site (.ambiguousType operator.label)
  | some common =>
    let types ← operands.mapM (settle common)
    if types.any (· ≠ common) then
      fail site (.operandMismatch operator.label types)
    else if !operator.permitted.contains common then
      fail site (.operatorMismatch operator.label operator.permitted types)
    else
      return operator.result common

def literal (site : Site) : Literal → Check Ty
  | .number _ => return .number
  | .string _ => return .string
  | .bool _ => return .bool
  | .null => fail site .nullNotPermitted

/-- The type of a variable, which no constant expression may have. -/
def reference (constant : Bool) (site : Site) (name : String) : Check Ty := do
  if constant then fail site (.variableInConstant name)
  else match (← get).findVariable? name with
    | some type => return type
    | none => fail site (.undeclaredVariable name)

def conversion (site : Site) (target : String) : Check Ty :=
  match Ty.ofName? target with
  | some type => return type
  | none => fail site (.unsupportedConversion target)

/-- Checks that a function with a given number of parameters is declared. -/
def arity (site : Site) (name : String) (actual : Nat) : Check Unit := do
  match (← get).findFunction? name with
  | none => fail site (.undeclaredFunction name)
  | some signature =>
    if actual ≠ signature.parameters.length then
      fail site (.arityMismatch name signature.parameters.length actual)

mutual

/-- The type of an expression. With `constant` set, variables are refused. -/
def expr (constant : Bool) : Expr → Check Ty
  | .literal site value => literal site value
  | .reference site name => reference constant site name
  | .call site name arguments => do
    arity site name arguments.length
    passAll constant name 0 arguments
    slot name .result
  | .unary site operator operand => do
    let type ← expr constant operand
    unify site (.unary operator) [(operand, type)]
  | .binary site operator left right => do
    let leftType ← expr constant left
    let rightType ← expr constant right
    unify site (.binary operator) [(left, leftType), (right, rightType)]
  | .assignment site operator target value => do
    let targetType ← expr constant target
    let valueType ← expr constant value
    unify site (.assignment operator) [(target, targetType), (value, valueType)]
  | .paren _ inner => expr constant inner
  | .atom _ inner => expr constant inner
  | .conversion site target body => do
    let _ ← expr constant body
    conversion site target
  | .condition site clause body => do
    let type ← expr constant body
    unify site (.condition clause) [(body, type)]

/-- Hands arguments to the parameters of a function from number `index` on. -/
def passAll (constant : Bool) (function : String) (index : Nat) : List Expr → Check Unit
  | [] => return
  | argument :: others => do
    let supplied ← expr constant argument
    pass function index argument.site supplied
    passAll constant function (index + 1) others

end

end Check

end DialogueTyping
