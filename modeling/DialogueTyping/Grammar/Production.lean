import DialogueTyping.Expr.Basic
import DialogueTyping.Grammar.Basic
import DialogueTyping.Token.Cursor

set_option autoImplicit false

namespace DialogueTyping

/-- The way to read an operand that ends before a token which does not bind tighter than a power. -/
abbrev OperandReading := BindingPower → Reading Expr

/-- What a rule reads behind its first token, one thing after another. -/
inductive Item where
  | openParen
  | operand (power : BindingPower)
  -- none or more of them, up to the parenthesis that closes the list
  | arguments
  | closeParen

namespace Item

abbrev Part : Item → Type
  | openParen | closeParen => Token
  | operand _ => Expr
  | arguments => List Expr

def spans : (item : Item) → item.Part → List Span
  | openParen, token | closeParen, token => [token.span]
  | operand _, expr => [expr.span]
  | arguments, exprs => exprs.map Expr.span

/-- Reads at most `count` arguments, with a comma between any two. -/
def readArguments (operand : OperandReading) : Nat → Reading (List Expr)
  | 0 => return []
  | count + 1 => do
    let argument ← operand .lowest
    if (← Reading.current).kind = .comma then
      let _ ← Reading.advance
      let others ← readArguments operand count
      return argument :: others
    else
      return [argument]

def read (operand : OperandReading) : (item : Item) → Reading item.Part
  | .openParen => Reading.expect .openParen
  | .operand power => operand power
  | .arguments => do
    if (← Reading.current).kind = .closeParen then return []
    else readArguments operand (← Reading.remaining)
  | .closeParen => Reading.expect .closeParen

end Item

abbrev Parts : List Item → Type
  | [] => Unit
  | item :: items => item.Part × Parts items

namespace Parts

def spans : (items : List Item) → Parts items → List Span
  | [], _ => []
  | item :: items, (part, parts) => item.spans part ++ spans items parts

def read (operand : OperandReading) : (items : List Item) → Reading (Parts items)
  | [] => return ()
  | item :: items => do
    let part ← item.read operand
    let parts ← read operand items
    return (part, parts)

end Parts

/-- Makes a node and numbers it. -/
def Reading.node (span : Span) (build : Site → Expr) : Reading Expr := do
  let id ← Reading.freshId
  return build ⟨id, span⟩

/-- The items that a rule reads and the node that it makes of them. Some nodes get an atom node
around them. -/
structure Production where
  items : List Item
  build : Parts items → Site → Expr
  wrapped : Bool

namespace Production

/-- From the start of `first` to the end of the last part. -/
def span (first : Span) (production : Production) (parts : Parts production.items) : Span :=
  first.join ((Parts.spans production.items parts).getLastD first)

def read (operand : OperandReading) (first : Span) (production : Production) : Reading Expr := do
  let parts ← Parts.read operand production.items
  let span := production.span first parts
  let inner ← Reading.node span (production.build parts)
  if production.wrapped then Reading.node span (.atom · inner) else return inner

end Production

/-- What a rule does with the token that it starts at. -/
inductive Opening where
  | refused (report : Diagnostic)
  -- the token is taken before the rule gives up
  | refusedBehind (report : Diagnostic)
  | taken (production : Production)

/-- Reads on from the token that an opening was chosen for. The node starts where `first` does. -/
def Opening.read (operand : OperandReading) (first : Span) : Opening → Reading Expr
  | refused report => throw report
  | refusedBehind report => do
    let _ ← Reading.advance
    throw report
  | taken production => do
    let _ ← Reading.advance
    production.read operand first

end DialogueTyping
