import DialogueTyping.Ty

set_option autoImplicit false

namespace DialogueTyping

inductive BinaryOperator where
  | and | or | xor
  | add | subtract | multiply | divide | modulo
  | less | lessEquals | greater | greaterEquals
  | equals | notEquals
  deriving DecidableEq, Repr

inductive UnaryOperator where
  | negate | not
  deriving DecidableEq, Repr

inductive AssignmentOperator where
  | add | subtract | multiply | divide | modulo
  deriving DecidableEq, Repr

inductive Clause where
  | ifClause | elseIfClause
  deriving DecidableEq, Repr

namespace BinaryOperator

def all : List BinaryOperator :=
  [and, or, xor, add, subtract, multiply, divide, modulo, less, lessEquals, greater, greaterEquals,
    equals, notEquals]

def label : BinaryOperator → String
  | and => "and"
  | or => "or"
  | xor => "xor"
  | add => "+"
  | subtract => "-"
  | multiply => "*"
  | divide => "/"
  | modulo => "%"
  | less => "<"
  | lessEquals => "<="
  | greater => ">"
  | greaterEquals => ">="
  | equals => "=="
  | notEquals => "!="

/-- The types that the operands may have, in the order messages list them. -/
def permitted : BinaryOperator → List Ty
  | and | or | xor => [.bool]
  | add => [.string, .number]
  | subtract | multiply | divide | modulo => [.number]
  | less | lessEquals | greater | greaterEquals => [.number]
  | equals | notEquals => [.number, .string, .bool]

/-- Whether the operator compares its operands, so that its result is a truth value. -/
def yieldsBool : BinaryOperator → Bool
  | less | lessEquals | greater | greaterEquals | equals | notEquals => true
  | _ => false

end BinaryOperator

namespace UnaryOperator

def all : List UnaryOperator := [negate, not]

def label : UnaryOperator → String
  | negate => "-"
  | not => "!"

def permitted : UnaryOperator → List Ty
  | negate => [.number]
  | not => [.bool]

end UnaryOperator

namespace AssignmentOperator

def all : List AssignmentOperator := [add, subtract, multiply, divide, modulo]

def label : AssignmentOperator → String
  | add => "+="
  | subtract => "-="
  | multiply => "*="
  | divide => "/="
  | modulo => "%="

def permitted : AssignmentOperator → List Ty
  | add => [.string, .number]
  | _ => [.number]

end AssignmentOperator

namespace Clause

def all : List Clause := [ifClause, elseIfClause]

def label : Clause → String
  | ifClause => "if"
  | elseIfClause => "elseif"

def permitted : Clause → List Ty
  | _ => [.bool]

end Clause

inductive Operator where
  | unary (operator : UnaryOperator)
  | binary (operator : BinaryOperator)
  | assignment (operator : AssignmentOperator)
  | condition (clause : Clause)
  deriving DecidableEq, Repr

namespace Operator

def label : Operator → String
  | unary operator => operator.label
  | binary operator => operator.label
  | assignment operator => operator.label
  | condition clause => clause.label

def permitted : Operator → List Ty
  | unary operator => operator.permitted
  | binary operator => operator.permitted
  | assignment operator => operator.permitted
  | condition clause => clause.permitted

/-- The type of the result when the operands have the type `common`. -/
def result (common : Ty) : Operator → Ty
  | binary operator => if operator.yieldsBool then .bool else common
  | _ => common

theorem unresolved_notMem_permitted (operator : Operator) : Ty.unresolved ∉ operator.permitted := by
  rcases operator with op | op | op | op <;> cases op <;> decide

end Operator

end DialogueTyping
