import DialogueTyping.Token.Basic

set_option autoImplicit false

namespace DialogueTyping

/-- How tightly an operator binds, from loosest to tightest. -/
inductive BindingPower where
  | lowest
  | assignment
  | xor
  | or
  | and
  | equality
  | relational
  | additive
  | multiplicative
  | unary
  deriving DecidableEq, Repr

namespace BindingPower

def all : List BindingPower :=
  [lowest, assignment, xor, or, and, equality, relational, additive, multiplicative, unary]

def rank : BindingPower → Nat
  | lowest => 0
  | assignment => 1
  | xor => 2
  | or => 3
  | and => 4
  | equality => 5
  | relational => 6
  | additive => 7
  | multiplicative => 8
  | unary => 9

instance : LT BindingPower := ⟨fun p q => p.rank < q.rank⟩

instance (p q : BindingPower) : Decidable (p < q) := inferInstanceAs (Decidable (p.rank < q.rank))

end BindingPower

/-- What a token does at the start of an expression. -/
inductive LeadingRule where
  | atom
  | call
  | unary
  | group
  | conversion
  | condition
  deriving DecidableEq, Repr

/-- What a token does after an expression. -/
inductive TrailingRule where
  | binary
  | assignment
  deriving DecidableEq, Repr

/-- The rules for tokens at the start of an expression and after one. -/
structure Grammar where
  leading : TokenKind → Option LeadingRule
  trailing : TokenKind → Option (BindingPower × TrailingRule)

namespace Grammar

def empty : Grammar := ⟨fun _ => none, fun _ => none⟩

def setLeading (kind : TokenKind) (rule : LeadingRule) (grammar : Grammar) : Grammar :=
  { grammar with leading := fun k => if k = kind then some rule else grammar.leading k }

def setTrailing (kind : TokenKind) (power : BindingPower) (rule : TrailingRule)
    (grammar : Grammar) : Grammar :=
  { grammar with
    trailing := fun k => if k = kind then some (power, rule) else grammar.trailing k }

def standard : Grammar where
  leading
    | .number | .string | .trueWord | .falseWord | .nullWord | .variableName => some .atom
    | .identifier => some .call
    | .dash | .not => some .unary
    | .openParen => some .group
    | .stringType | .numberType | .boolType => some .conversion
    | .ifWord | .elseIfWord => some .condition
    | _ => none
  trailing
    | .plusEquals | .minusEquals | .starEquals | .slashEquals | .percentEquals =>
      some (.assignment, .assignment)
    | .xor => some (.xor, .binary)
    | .or => some (.or, .binary)
    | .and => some (.and, .binary)
    | .equals | .notEquals => some (.equality, .binary)
    | .less | .lessEquals | .greater | .greaterEquals => some (.relational, .binary)
    | .plus | .dash => some (.additive, .binary)
    | .star | .slash | .percent => some (.multiplicative, .binary)
    | _ => none

/-- The grammar with the rules for dialogue expressions, in place of its own for the same tokens. -/
def withStandard (grammar : Grammar) : Grammar where
  leading kind := standard.leading kind <|> grammar.leading kind
  trailing kind := standard.trailing kind <|> grammar.trailing kind

end Grammar

end DialogueTyping
