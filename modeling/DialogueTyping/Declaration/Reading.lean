import DialogueTyping.Declaration.Table
import DialogueTyping.Token.Cursor

set_option autoImplicit false

/-
Reading declarations:

```text
var $gold: number;
fn visited(node: string) -> bool
fn dice(number) -> ?
```

A question mark stands for a type that is not yet known, which is also the type of a result that
is not written. A semicolon may follow a declaration.
-/

namespace DialogueTyping.Declaration

open Reading (advance current expect unmet)

/-- Reads a type. The token is taken even if it is none. -/
def readType : Reading Ty := do
  let token ← advance
  match token.kind with
  | .numberType => return .number
  | .stringType => return .string
  | .boolType => return .bool
  | .question => return .unresolved
  | .identifier => throw (.atOffset (.unknownType token.value) token.span.start)
  | _ => throw (.atOffset (.unmetExpectation token.value "expected a type") token.span.start)

/-- Reads a parameter, a type with or without a name before it. -/
def readParameter : Reading Parameter := do
  let cursor ← get
  if cursor.current.kind = .identifier && (cursor.peek 1).kind = .colon then
    let name ← advance
    let _ ← advance
    let type ← readType
    return ⟨some name.value, type⟩
  else
    let type ← readType
    return ⟨none, type⟩

/-- Reads at most `count` parameters, with a comma between any two. -/
def readParameters : Nat → Reading (List Parameter)
  | 0 => return []
  | count + 1 => do
    let parameter ← readParameter
    if (← current).kind = .comma then
      let _ ← advance
      let others ← readParameters count
      return parameter :: others
    else
      return [parameter]

def readVariable : Reading Declaration := do
  let _ ← expect .varWord
  let name ← expect .variableName
  let _ ← expect .colon
  let type ← readType
  return .variableOf name.value type

/-- Reads the type of a result, which may be left out. -/
def readResult : Reading Ty := do
  if (← current).kind = .arrow then
    let _ ← advance
    readType
  else
    return .unresolved

def readFunction : Reading Declaration := do
  let _ ← expect .fnWord
  let name ← expect .identifier
  let _ ← expect .openParen
  let parameters ←
    if (← current).kind = .closeParen then pure []
    else readParameters (← Reading.remaining)
  let _ ← expect .closeParen
  let result ← readResult
  return .functionOf name.value ⟨parameters, result⟩

def read : Reading Declaration := do
  match (← current).kind with
  | .varWord => readVariable
  | .fnWord => readFunction
  | _ => throw (unmet "expected `var` or `fn`" (← get))

def skipSemicolon : Reading Unit := do
  if (← current).kind = .semicolon then
    let _ ← advance

/-- Reads declarations up to the end, at most `count`. -/
def readAll : Nat → Reading (List Declaration)
  | 0 => return []
  | count + 1 => do
    if (← get).hasTokens then
      let declaration ← read
      skipSemicolon
      let others ← readAll count
      return declaration :: others
    else
      return []

end DialogueTyping.Declaration

namespace DialogueTyping

/-- The declarations that a list of tokens spells. -/
def Table.ofTokens (tokens : List Token) : Except Diagnostic Table :=
  Reading.runOn (do return ⟨← Declaration.readAll (← Reading.remaining)⟩) tokens

end DialogueTyping
