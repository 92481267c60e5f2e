import DialogueTyping.Grammar.Production
import DialogueTyping.Number.Numeral

set_option autoImplicit false

/-
Reading expressions by a grammar. Each rule is given the way to read an operand, so that the rules
themselves are not recursive. `Grammar.readWithin` ties them together for at most a number of
operands inside or after one another; as every operand comes after a token of its own, the number of
tokens is enough.
-/

namespace DialogueTyping

/-- The literal or reference that a token stands for. -/
def Token.asAtom (token : Token) : Except Problem (Site → Expr) :=
  match token.kind with
  | .number =>
    match Numeral.read? token.value.toList with
    | some value => .ok (.literal · (.number value))
    | none => .error (.invalidNumber token.value)
  | .string => .ok (.literal · (.string token.value))
  | .trueWord => .ok (.literal · (.bool true))
  | .falseWord => .ok (.literal · (.bool false))
  | .nullWord => .ok (.literal · .null)
  | .variableName => .ok (.reference · token.value)
  | _ => .error (.unexpectedToken token.value)

/-- The operator that a token between two operands stands for. -/
def TokenKind.binaryOperator? : TokenKind → Option BinaryOperator
  | .and => some .and
  | .or => some .or
  | .xor => some .xor
  | .plus => some .add
  | .dash => some .subtract
  | .star => some .multiply
  | .slash => some .divide
  | .percent => some .modulo
  | .less => some .less
  | .lessEquals => some .lessEquals
  | .greater => some .greater
  | .greaterEquals => some .greaterEquals
  | .equals => some .equals
  | .notEquals => some .notEquals
  | _ => none

def TokenKind.unaryOperator : TokenKind → UnaryOperator
  | .dash => .negate
  | _ => .not

def TokenKind.assignmentOperator : TokenKind → AssignmentOperator
  | .plusEquals => .add
  | .minusEquals => .subtract
  | .starEquals => .multiply
  | .slashEquals => .divide
  | _ => .modulo

def TokenKind.clause : TokenKind → Clause
  | .ifWord => .ifClause
  | _ => .elseIfClause

namespace LeadingRule

/-- What each rule does at the start of an expression. A conversion keeps the name of its type as it
is written. -/
def opening (token : Token) : LeadingRule → Opening
  | atom =>
    match token.asAtom with
    | .error problem => .refused (.atOffset problem token.span.start)
    | .ok build => .taken ⟨[], fun _ => build, true⟩
  | call =>
    if token.kind = .identifier then
      .taken ⟨[.openParen, .arguments, .closeParen],
        fun (_, arguments, _) => (.call · token.value arguments), true⟩
    else
      .refused (token.unmet ("expected " ++ TokenKind.identifier.label))
  | unary => .taken ⟨[.operand .unary],
    fun (inner, _) => (.unary · token.kind.unaryOperator inner), false⟩
  | group => .taken ⟨[.operand .lowest, .closeParen], fun (inner, _) => (.paren · inner), false⟩
  | conversion => .taken ⟨[.openParen, .operand .lowest, .closeParen],
    fun (_, body, _) => (.conversion · token.value body), false⟩
  | condition => .taken ⟨[.operand .lowest],
    fun (body, _) => (.condition · token.kind.clause body), false⟩

def read (operand : OperandReading) (rule : LeadingRule) : Reading Expr := do
  let token ← Reading.current
  (rule.opening token).read operand token.span

end LeadingRule

namespace TrailingRule

/-- What each rule does after the expression `left`. Operators of one power group to the left.
Assignments group to the right, and the variable loses its atom node. -/
def opening (power : BindingPower) (left : Expr) (token : Token) : TrailingRule → Opening
  | binary =>
    match token.kind.binaryOperator? with
    | none => .refused token.unexpected
    | some operator => .taken ⟨[.operand power],
      fun (right, _) => (.binary · operator left right), false⟩
  | assignment =>
    match left.reference? with
    | none => .refusedBehind (.atOffset .invalidAssignmentTarget left.span.start)
    | some _ => .taken ⟨[.operand .lowest],
      fun (value, _) => (.assignment · token.kind.assignmentOperator left.unwrapped value), false⟩

def read (operand : OperandReading) (power : BindingPower) (left : Expr) (rule : TrailingRule) :
    Reading Expr := do
  let token ← Reading.current
  (rule.opening power left token).read operand left.span

end TrailingRule

namespace Grammar

/-- Reads on after the expression `left`, at most `count` times, as long as the next token binds
tighter than `power`. -/
def extend (grammar : Grammar) (operand : OperandReading) (power : BindingPower) :
    Nat → Expr → Reading Expr
  | 0, left => return left
  | count + 1, left => do
    match grammar.trailing (← Reading.current).kind with
    | none => return left
    | some (tighter, rule) =>
      if power < tighter then
        let extended ← rule.read operand tighter left
        extend grammar operand power count extended
      else
        return left

/-- Reads an expression with at most `depth` operands inside or after one another, up to a token
that does not bind tighter than `power`. -/
def readWithin (grammar : Grammar) : Nat → OperandReading
  | 0, _ => Reading.unexpected
  | depth + 1, power => do
    match grammar.leading (← Reading.current).kind with
    | none => Reading.unexpected
    | some rule =>
      let left ← rule.read (readWithin grammar depth)
      extend grammar (readWithin grammar depth) power depth left

/-- Reads an expression up to a token that does not bind tighter than `power`. -/
def read (grammar : Grammar) : OperandReading := fun power => do
  readWithin grammar (← Reading.remaining) power

/-- Reads an expression that takes all tokens up to the end. -/
def readAll (grammar : Grammar) : Reading Expr := do
  let expr ← grammar.read .lowest
  if (← get).hasTokens then Reading.unexpected else return expr

end Grammar

/-- The expression that a list of tokens spells. -/
def Expr.ofTokens (tokens : List Token) : Except Diagnostic Expr :=
  Grammar.standard.readAll.runOn tokens

end DialogueTyping
