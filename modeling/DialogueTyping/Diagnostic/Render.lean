import DialogueTyping.Diagnostic.Basic
import DialogueTyping.Text.Lines

set_option autoImplicit false

/-
Diagnostics with the source line they are about:

```text
Error: TypeMismatch (All operands of an operator must have the same type)
  all operands of `+` must have the same type, found: String, Number
-> start.txt
  |
1 | "a" + 1
  | ^^^^^^^
```

Columns and widths count bytes.
-/

namespace DialogueTyping.Diagnostic

open Text (LinePlace byteLength lineAt? trimEnd)

/-- The line of a place as it is displayed, and where the marks under it stand. -/
structure Excerpt where
  number : Nat
  shown : List Char
  column : Nat
  width : Nat
  deriving DecidableEq, Repr

/-- The excerpt for `width` bytes from `place` on. Marks end with the shown line, but one always
stands. -/
def Excerpt.ofPlace (place : LinePlace) (width : Nat) : Excerpt :=
  let indented := place.line.takeWhile (· = ' ')
  let shown := trimEnd (place.line.dropWhile (· = ' '))
  let column := place.offset - indented.length
  ⟨place.number, shown, column, max 1 (min width (byteLength shown - column))⟩

/-- The three rows of an excerpt: an empty one, the line, and the marks. -/
def Excerpt.rows (excerpt : Excerpt) : String :=
  let number := Nat.toDigits 10 excerpt.number
  let margin := List.leftpad (number.length + 2) ' ' ['|']
  String.ofList (margin ++ ['\n']
    ++ number ++ [' ', '|', ' '] ++ excerpt.shown ++ ['\n']
    ++ margin ++ [' '] ++ List.replicate excerpt.column ' ' ++ List.replicate excerpt.width '^'
    ++ ['\n'])

def excerpt? (diagnostic : Diagnostic) (source : String) : Option Excerpt :=
  (lineAt? source.toList diagnostic.span.start.toNat).map fun place =>
    Excerpt.ofPlace place diagnostic.span.width

def headline (diagnostic : Diagnostic) : String :=
  match diagnostic.problem.tip? with
  | none => "Error: " ++ diagnostic.problem.name
  | some tip => "Error: " ++ diagnostic.problem.name ++ " (" ++ tip ++ ")"

/-- A diagnostic about `source`, which is called `file`. The name is given here only. -/
def render (diagnostic : Diagnostic) (file source : String) : String :=
  diagnostic.headline ++ "\n  " ++ diagnostic.problem.message ++ "\n-> " ++ file ++ "\n"
    ++ match diagnostic.excerpt? source with
      | none => ""
      | some excerpt => excerpt.rows

end DialogueTyping.Diagnostic
