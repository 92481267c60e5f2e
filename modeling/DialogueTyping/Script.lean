import DialogueTyping.Declaration.Reading
import DialogueTyping.Grammar.Reading
import DialogueTyping.Token.Scan
import DialogueTyping.Typing.Check

set_option autoImplicit false

namespace DialogueTyping

def defaultFile : String := "shell"

def Expr.ofSource (source : String) : Except Diagnostic Expr := do
  Expr.ofTokens (← tokenize source)

def Table.ofSource (source : String) : Except Diagnostic Table := do
  Table.ofTokens (← tokenize source)

namespace Check

/-- What a computation gives from a table on, and the table it leaves. -/
def outcome {α : Type} (check : Check α) (table : Table) : Except Stop α × Table :=
  match check.run table with
  | .ok value after => (.ok value, after)
  | .error stop after => (.error stop, after)

/-- The type of the expression that a source text spells. -/
def source (constant : Bool) (text : String) : Check Ty :=
  match Expr.ofSource text with
  | .ok expression => expr constant expression
  | .error diagnostic => throw (.report diagnostic)

/-- The types of the expressions that source texts spell, the first of which has number `index`.
Stops at the first that is wrong, with its number. -/
def sourcesFrom (constant : Bool) (index : Nat) : List String → EStateM (Nat × Stop) Table (List Ty)
  | [] => return []
  | text :: texts => do
    let type ← EStateM.adaptExcept (index, ·) (source constant text)
    let types ← sourcesFrom constant (index + 1) texts
    return type :: types

/-- The types of the expressions that source texts spell, or the number of the first that is
wrong, from 0, and what is wrong with it. -/
def sources (constant : Bool) (texts : List String) : EStateM (Nat × Stop) Table (List Ty) :=
  sourcesFrom constant 0 texts

/-- What each of the source texts gives, and the table it leaves to the next, whether or not those
before it were wrong. -/
def eachSource (constant : Bool) : List String → Table → List (Except Stop Ty × Table)
  | [], _ => []
  | text :: texts, table =>
    let step := (source constant text).outcome table
    step :: eachSource constant texts step.2

end Check

end DialogueTyping
