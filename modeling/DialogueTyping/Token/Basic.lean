import DialogueTyping.Span

set_option autoImplicit false

namespace DialogueTyping

inductive TokenKind where
  | eof
  | number | string | identifier | variableName
  | openParen | closeParen
  | equals | not | notEquals
  | less | lessEquals | greater | greaterEquals
  | or | and | xor
  | semicolon | colon | question | comma | arrow
  | plusEquals | minusEquals | starEquals | slashEquals | percentEquals
  | plus | dash | slash | star | percent
  | trueWord | falseWord | nullWord
  | ifWord | elseIfWord
  | stringType | numberType | boolType
  | varWord | fnWord
  deriving DecidableEq, Repr

namespace TokenKind

def all : List TokenKind :=
  [eof, number, string, identifier, variableName, openParen, closeParen, equals, not, notEquals,
    less, lessEquals, greater, greaterEquals, or, and, xor, semicolon, colon, question, comma,
    arrow, plusEquals, minusEquals, starEquals, slashEquals, percentEquals, plus, dash, slash,
    star, percent, trueWord, falseWord, nullWord, ifWord, elseIfWord, stringType, numberType,
    boolType, varWord, fnWord]

theorem mem_all (kind : TokenKind) : kind ∈ all := by
  cases kind <;> decide

def label : TokenKind → String
  | eof => "EOF"
  | number => "Number"
  | string => "String"
  | identifier => "Identifier"
  | variableName => "Variable"
  | openParen => "OpenParen"
  | closeParen => "CloseParen"
  | equals => "Equals"
  | not => "Not"
  | notEquals => "NotEquals"
  | less => "Less"
  | lessEquals => "LessEquals"
  | greater => "Greater"
  | greaterEquals => "GreaterEquals"
  | or => "Or"
  | and => "And"
  | xor => "Xor"
  | semicolon => "Semicolon"
  | colon => "Colon"
  | question => "Question"
  | comma => "Comma"
  | arrow => "Arrow"
  | plusEquals => "PlusEquals"
  | minusEquals => "MinusEquals"
  | starEquals => "StarEquals"
  | slashEquals => "SlashEquals"
  | percentEquals => "PercentEquals"
  | plus => "Plus"
  | dash => "Dash"
  | slash => "Slash"
  | star => "Star"
  | percent => "Percent"
  | trueWord => "True"
  | falseWord => "False"
  | nullWord => "Null"
  | ifWord => "If"
  | elseIfWord => "ElseIf"
  | stringType => "StringType"
  | numberType => "NumberType"
  | boolType => "BoolType"
  | varWord => "Var"
  | fnWord => "Fn"

/-- Whether tokens of this kind differ in their values and not only in their places. -/
def carriesValue : TokenKind → Bool
  | string | identifier | variableName | number => true
  | _ => false

end TokenKind

/-- A word or symbol of a source text. The value is the text it was read from, for a string the
text it stands for. -/
structure Token where
  kind : TokenKind
  value : String
  span : Span
  deriving DecidableEq, Repr

namespace Token

/-- The token that ends a source text, at `offset`. -/
def endOfInput (offset : Offset) : Token := ⟨.eof, "EOF", Span.point offset⟩

/-- The token as it is listed: its kind, and its value where tokens of the kind differ in it. -/
def label (token : Token) : String :=
  if token.kind.carriesValue then token.kind.label ++ " (" ++ token.value ++ ")"
  else token.kind.label

end Token

end DialogueTyping
