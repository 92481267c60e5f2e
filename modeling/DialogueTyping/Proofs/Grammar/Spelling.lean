import DialogueTyping.Grammar.Reading
import DialogueTyping.Proofs.Expr.Subexpression
import DialogueTyping.Proofs.Token.Lexed

set_option autoImplicit false

/-
The grammar as a relation, apart from any way to read it. `Expr.Spells` says which tokens an
expression is written with, from left to right, and `Expr.Shaped` says how its parts may be nested
so that no parentheses are missing.
-/

namespace DialogueTyping

namespace BinaryOperator

def kind : BinaryOperator → TokenKind
  | and => .and
  | or => .or
  | xor => .xor
  | add => .plus
  | subtract => .dash
  | multiply => .star
  | divide => .slash
  | modulo => .percent
  | less => .less
  | lessEquals => .lessEquals
  | greater => .greater
  | greaterEquals => .greaterEquals
  | equals => .equals
  | notEquals => .notEquals

def power : BinaryOperator → BindingPower
  | xor => .xor
  | or => .or
  | and => .and
  | equals | notEquals => .equality
  | less | lessEquals | greater | greaterEquals => .relational
  | add | subtract => .additive
  | multiply | divide | modulo => .multiplicative

theorem assignment_lt_power (operator : BinaryOperator) : .assignment < operator.power := by
  cases operator <;> decide

theorem power_ne_assignment (operator : BinaryOperator) : operator.power ≠ .assignment := by
  intro same
  have order := operator.assignment_lt_power
  rw [same] at order
  exact Nat.lt_irrefl _ order

end BinaryOperator

def UnaryOperator.kind : UnaryOperator → TokenKind
  | negate => .dash
  | not => .not

def AssignmentOperator.kind : AssignmentOperator → TokenKind
  | add => .plusEquals
  | subtract => .minusEquals
  | multiply => .starEquals
  | divide => .slashEquals
  | modulo => .percentEquals

def Clause.kind : Clause → TokenKind
  | ifClause => .ifWord
  | elseIfClause => .elseIfWord

/-- The token is a way to write the value. Many texts can stand for one number. -/
def Literal.WrittenAs (token : Token) : Literal → Prop
  | number value => token.kind = .number ∧ Numeral.read? token.value.toList = some value
  | string value => token.kind = .string ∧ token.value = value
  | bool true => token.kind = .trueWord
  | bool false => token.kind = .falseWord
  | null => token.kind = .nullWord

/-- The site that all nodes of a bare expression have. -/
def Site.blank : Site := ⟨⟨0⟩, Span.point 0⟩

namespace Expr

mutual

/-- The tokens, from left to right, are a way to write the expression. -/
inductive Spells : Expr → List Token → Prop
  | literal {site : Site} {value : Literal} {token : Token} :
      value.WrittenAs token → Spells (literal site value) [token]
  | reference {site : Site} {token : Token} :
      token.kind = .variableName → Spells (reference site token.value) [token]
  | call {site : Site} {name opening closing : Token} {arguments : List Expr}
      {inner : List Token} :
      name.kind = .identifier → opening.kind = .openParen → SpellsAll arguments inner →
      closing.kind = .closeParen →
      Spells (call site name.value arguments) (name :: opening :: (inner ++ [closing]))
  | unary {site : Site} {operator : UnaryOperator} {operand : Expr} {token : Token}
      {inner : List Token} :
      token.kind = operator.kind → Spells operand inner →
      Spells (unary site operator operand) (token :: inner)
  | binary {site : Site} {operator : BinaryOperator} {left right : Expr} {token : Token}
      {first second : List Token} :
      Spells left first → token.kind = operator.kind → Spells right second →
      Spells (binary site operator left right) (first ++ token :: second)
  | assignment {site : Site} {operator : AssignmentOperator} {target value : Expr} {token : Token}
      {first second : List Token} :
      Spells target first → token.kind = operator.kind → Spells value second →
      Spells (assignment site operator target value) (first ++ token :: second)
  | paren {site : Site} {inner : Expr} {opening closing : Token} {tokens : List Token} :
      opening.kind = .openParen → Spells inner tokens → closing.kind = .closeParen →
      Spells (paren site inner) (opening :: (tokens ++ [closing]))
  | atom {site : Site} {inner : Expr} {tokens : List Token} :
      Spells inner tokens → Spells (atom site inner) tokens
  | conversion {site : Site} {body : Expr} {word opening closing : Token} {tokens : List Token} :
      word.kind.typeWord? = some word.value → opening.kind = .openParen → Spells body tokens →
      closing.kind = .closeParen →
      Spells (conversion site word.value body) (word :: opening :: (tokens ++ [closing]))
  | condition {site : Site} {clause : Clause} {body : Expr} {token : Token}
      {inner : List Token} :
      token.kind = clause.kind → Spells body inner →
      Spells (condition site clause body) (token :: inner)

/-- The tokens are a way to write the expressions, with a comma between any two. -/
inductive SpellsAll : List Expr → List Token → Prop
  | nil : SpellsAll [] []
  | single {expr : Expr} {tokens : List Token} : Spells expr tokens → SpellsAll [expr] tokens
  | cons {expr next : Expr} {others : List Expr} {comma : Token} {first second : List Token} :
      Spells expr first → comma.kind = .comma → SpellsAll (next :: others) second →
      SpellsAll (expr :: next :: others) (first ++ comma :: second)

end

/-- How tightly the outermost operator binds what stands before it, if it has an operand there. -/
def power? : Expr → Option BindingPower
  | binary _ operator _ _ => some operator.power
  | assignment .. => some .assignment
  | _ => none

/-- The last operand is a condition, which takes all that follows it. -/
def EndsInCondition : Expr → Prop
  | condition .. => True
  | unary _ _ operand => operand.EndsInCondition
  | binary _ _ _ right => right.EndsInCondition
  | _ => False

/-- The outermost operator, if there is one, binds tighter than `power`. -/
def BindsTighter (power : BindingPower) (expr : Expr) : Prop :=
  ∀ outer, expr.power? = some outer → power < outer

/-- The expression can stand before an operator of a power. No assignment can, as all operators
with two operands bind tighter. -/
structure StandsBefore (power : BindingPower) (expr : Expr) : Prop where
  tight : ∀ outer, expr.power? = some outer → ¬ outer < power
  ends : ¬ expr.EndsInCondition

/-- A token of the kind can follow the expression without becoming a part of its last operand. -/
def Precedes (kind : TokenKind) (expr : Expr) : Prop :=
  ∀ power rule, Grammar.standard.trailing kind = some (power, rule) →
    expr.StandsBefore power ∧ expr.power? ≠ some .assignment

/-- The expression is nested as the powers of its operators ask for. Literals, references and calls
have one atom node around them, the target of an assignment has none. -/
inductive Shaped : Expr → Prop
  | literal {site inner : Site} {value : Literal} : Shaped (atom site (literal inner value))
  | reference {site inner : Site} {name : String} : Shaped (atom site (reference inner name))
  | call {site inner : Site} {name : String} {arguments : List Expr} :
      (∀ argument ∈ arguments, Shaped argument) → Shaped (atom site (call inner name arguments))
  | unary {site : Site} {operator : UnaryOperator} {operand : Expr} :
      Shaped operand → operand.power? = none → Shaped (unary site operator operand)
  | binary {site : Site} {operator : BinaryOperator} {left right : Expr} :
      Shaped left → left.StandsBefore operator.power → Shaped right →
      right.BindsTighter operator.power → Shaped (binary site operator left right)
  | assignment {site inner : Site} {operator : AssignmentOperator} {name : String} {value : Expr} :
      Shaped value → Shaped (assignment site operator (.reference inner name) value)
  | paren {site : Site} {inner : Expr} : Shaped inner → Shaped (paren site inner)
  | conversion {site : Site} {kind : TokenKind} {target : String} {body : Expr} :
      kind.typeWord? = some target → Shaped body → Shaped (conversion site target body)
  | condition {site : Site} {clause : Clause} {body : Expr} :
      Shaped body → Shaped (condition site clause body)

mutual

/-- The expression without its sites. -/
def bare : Expr → Expr
  | literal _ value => literal .blank value
  | reference _ name => reference .blank name
  | call _ name arguments => call .blank name (bareAll arguments)
  | unary _ operator operand => unary .blank operator operand.bare
  | binary _ operator left right => binary .blank operator left.bare right.bare
  | assignment _ operator target value => assignment .blank operator target.bare value.bare
  | paren _ inner => paren .blank inner.bare
  | atom _ inner => atom .blank inner.bare
  | conversion _ target body => conversion .blank target body.bare
  | condition _ clause body => condition .blank clause body.bare

def bareAll : List Expr → List Expr
  | [] => []
  | expr :: exprs => expr.bare :: bareAll exprs

end

end Expr

namespace Expr

theorem BindsTighter.of_power?_none {power : BindingPower} {expr : Expr}
    (plain : expr.power? = none) : expr.BindsTighter power := by
  intro outer known
  rw [plain] at known
  cases known

theorem StandsBefore.of_plain {power : BindingPower} {expr : Expr} (plain : expr.power? = none)
    (ends : ¬ expr.EndsInCondition) :
    expr.StandsBefore power ∧ expr.power? ≠ some .assignment := by
  refine ⟨⟨?_, ends⟩, ?_⟩ <;> simp [plain]

theorem Precedes.of_closed {kind : TokenKind} {expr : Expr} (plain : expr.power? = none)
    (ends : ¬ expr.EndsInCondition) : expr.Precedes kind :=
  fun _ _ _ => StandsBefore.of_plain plain ends

theorem Spells.length_pos {expr : Expr} {tokens : List Token} (spelled : expr.Spells tokens) :
    0 < tokens.length := by
  induction expr using Expr.ind generalizing tokens with
  | atom site inner ih =>
      cases spelled with
      | atom inside => exact ih inside
  | binary | assignment =>
      cases spelled
      rw [List.length_append, List.length_cons]
      omega
  | literal | reference | call | unary | paren | conversion | condition =>
      cases spelled
      exact Nat.succ_pos _

end Expr

namespace Grammar

theorem trailing_binary (operator : BinaryOperator) :
    standard.trailing operator.kind = some (operator.power, .binary) := by
  cases operator <;> rfl

theorem trailing_assignment (operator : AssignmentOperator) :
    standard.trailing operator.kind = some (.assignment, .assignment) := by
  cases operator <;> rfl

theorem ne_eof_of_leading {kind : TokenKind} {rule : LeadingRule}
    (found : standard.leading kind = some rule) : kind ≠ .eof := by
  rintro rfl
  cases found

theorem ne_eof_of_trailing {kind : TokenKind} {power : BindingPower} {rule : TrailingRule}
    (found : standard.trailing kind = some (power, rule)) : kind ≠ .eof := by
  rintro rfl
  cases found

/-- Every token that can follow an expression binds tighter than nothing at all. -/
theorem lowest_lt_of_trailing {kind : TokenKind} {power : BindingPower} {rule : TrailingRule}
    (found : standard.trailing kind = some (power, rule)) : .lowest < power := by
  cases kind <;> cases found <;> decide

theorem lt_unary_of_trailing {kind : TokenKind} {power : BindingPower} {rule : TrailingRule}
    (found : standard.trailing kind = some (power, rule)) : ¬ .unary < power := by
  cases kind <;> cases found <;> decide

theorem power_eq_of_trailing_binary {kind : TokenKind} {power : BindingPower}
    {operator : BinaryOperator} (found : standard.trailing kind = some (power, .binary))
    (known : kind.binaryOperator? = some operator) :
    kind = operator.kind ∧ power = operator.power := by
  cases kind <;> cases found <;> cases known <;> exact ⟨rfl, rfl⟩

theorem kind_of_trailing_assignment {kind : TokenKind} {power : BindingPower}
    (found : standard.trailing kind = some (power, .assignment)) :
    kind = kind.assignmentOperator.kind ∧ power = .assignment := by
  cases kind <;> cases found <;> exact ⟨rfl, rfl⟩

theorem binaryOperator?_of_trailing {kind : TokenKind} {power : BindingPower}
    (found : standard.trailing kind = some (power, .binary)) :
    ∃ operator, kind.binaryOperator? = some operator := by
  cases kind <;> cases found <;> exact ⟨_, rfl⟩

theorem kind_of_leading_call {kind : TokenKind} (found : standard.leading kind = some .call) :
    kind = .identifier := by
  cases kind <;> cases found
  rfl

theorem kind_of_leading_unary {kind : TokenKind} (found : standard.leading kind = some .unary) :
    kind = kind.unaryOperator.kind := by
  cases kind <;> cases found <;> rfl

theorem kind_of_leading_group {kind : TokenKind} (found : standard.leading kind = some .group) :
    kind = .openParen := by
  cases kind <;> cases found
  rfl

theorem kind_of_leading_condition {kind : TokenKind}
    (found : standard.leading kind = some .condition) : kind = kind.clause.kind := by
  cases kind <;> cases found <;> rfl

theorem typeWord?_of_leading_conversion {kind : TokenKind}
    (found : standard.leading kind = some .conversion) : ∃ word, kind.typeWord? = some word := by
  cases kind <;> cases found <;> exact ⟨_, rfl⟩

theorem leading_unary (operator : UnaryOperator) :
    standard.leading operator.kind = some .unary ∧ operator.kind.unaryOperator = operator := by
  cases operator <;> exact ⟨rfl, rfl⟩

theorem leading_condition (clause : Clause) :
    standard.leading clause.kind = some .condition ∧ clause.kind.clause = clause := by
  cases clause <;> exact ⟨rfl, rfl⟩

theorem leading_conversion {kind : TokenKind} {word : String}
    (named : kind.typeWord? = some word) : standard.leading kind = some .conversion := by
  cases kind <;> cases named <;> rfl

theorem binaryOperator?_kind (operator : BinaryOperator) :
    operator.kind.binaryOperator? = some operator := by
  cases operator <;> rfl

theorem assignmentOperator_kind (operator : AssignmentOperator) :
    operator.kind.assignmentOperator = operator := by
  cases operator <;> rfl

theorem leading_literal {token : Token} {value : Literal} (written : value.WrittenAs token) :
    standard.leading token.kind = some .atom ∧ token.asAtom = .ok (.literal · value) := by
  cases value with
  | number => simp [Token.asAtom, written.1, written.2, standard]
  | string => simp [Token.asAtom, written.1, written.2, standard]
  | bool value =>
      cases value <;> simp only [Literal.WrittenAs] at written <;>
        simp [Token.asAtom, written, standard]
  | null =>
      simp only [Literal.WrittenAs] at written
      simp [Token.asAtom, written, standard]

theorem leading_variableName {token : Token} (kind : token.kind = .variableName) :
    standard.leading token.kind = some .atom ∧ token.asAtom = .ok (.reference · token.value) := by
  simp [Token.asAtom, kind, standard]

end Grammar

end DialogueTyping
