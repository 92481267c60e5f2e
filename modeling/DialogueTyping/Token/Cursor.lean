import DialogueTyping.Diagnostic.Basic
import DialogueTyping.Token.Basic

set_option autoImplicit false

namespace DialogueTyping

namespace Token

/-- The report that the token cannot stand where it stands. -/
def unexpected (token : Token) : Diagnostic :=
  .atOffset (.unexpectedToken token.value) token.span.start

/-- The report that the token is not what `expectation` says. -/
def unmet (expectation : String) (token : Token) : Diagnostic :=
  .atOffset (.unmetExpectation token.value expectation) token.span.start

end Token

/-- A place in a list of tokens, and the number of the next node. -/
structure Cursor where
  -- without `last`
  ahead : List Token
  last : Token
  nodes : Nat
  deriving DecidableEq, Repr

namespace Cursor

/-- The place before the first of `tokens`, which get an end if they have none. -/
def ofTokens (tokens : List Token) : Cursor :=
  match tokens.getLast? with
  | none => ⟨[], Token.endOfInput 0, 0⟩
  | some last =>
    if last.kind = .eof then ⟨tokens.dropLast, last, 0⟩
    else ⟨tokens, Token.endOfInput last.span.stop, 0⟩

/-- The token `count` places further on. -/
def peek (count : Nat) (cursor : Cursor) : Token :=
  (cursor.ahead.drop count).headD cursor.last

def current (cursor : Cursor) : Token := cursor.ahead.headD cursor.last

/-- The place after the current token, unless that is the last. -/
def next (cursor : Cursor) : Cursor := { cursor with ahead := cursor.ahead.tail }

def position (cursor : Cursor) : Offset := cursor.current.span.start

def hasTokens (cursor : Cursor) : Bool := cursor.current.kind != .eof

def unexpected (cursor : Cursor) : Diagnostic := cursor.current.unexpected

end Cursor

/-- A computation that moves a cursor and may give up with a report. The place where it gave up is
kept. -/
abbrev Reading := EStateM Diagnostic Cursor

namespace Reading

def current : Reading Token := do
  return (← get).current

def advance : Reading Token := do
  let cursor ← get
  set cursor.next
  return cursor.current

/-- Gives up because of the current token. -/
def unexpected {α : Type} : Reading α := do
  throw (← get).unexpected

/-- Takes the current token if it is of the given kind, and gives up with `report` otherwise. -/
def expectOr (report : Cursor → Diagnostic) (kind : TokenKind) : Reading Token := do
  let cursor ← get
  if cursor.current.kind = kind then advance else throw (report cursor)

def unmet (expectation : String) (cursor : Cursor) : Diagnostic := cursor.current.unmet expectation

/-- Takes the current token, which has to be of the given kind. -/
def expect (kind : TokenKind) : Reading Token :=
  expectOr (unmet ("expected " ++ kind.label)) kind

/-- The number of the next node. Numbers are kept in 32 bits. -/
def freshId : Reading NodeId := do
  let cursor ← get
  set { cursor with nodes := cursor.nodes + 1 }
  return ⟨UInt32.ofNat cursor.nodes⟩

/-- The number of tokens from the current one on, which bounds every repetition. -/
def remaining : Reading Nat := do
  return (← get).ahead.length + 1

/-- The value that a computation gives from the start of `tokens`. -/
def runOn {α : Type} (reading : Reading α) (tokens : List Token) : Except Diagnostic α :=
  match reading.run (Cursor.ofTokens tokens) with
  | .ok value _ => .ok value
  | .error report _ => .error report

end Reading

end DialogueTyping
