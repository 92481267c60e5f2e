import DialogueTyping.Text.Bytes
import DialogueTyping.Text.Blank

set_option autoImplicit false

namespace DialogueTyping.Text

/-- The lines of a text, each with the line feed that ends it. Only the last may lack one, and the
empty text has no lines. -/
def inclusiveLines : List Char → List (List Char)
  | [] => []
  | c :: rest =>
    if c = '\n' then [c] :: inclusiveLines rest
    else match inclusiveLines rest with
      | [] => [[c]]
      | line :: lines => (c :: line) :: lines

theorem flatten_inclusiveLines (text : List Char) : (inclusiveLines text).flatten = text := by
  fun_induction inclusiveLines text with
  | case1 => rfl
  | case2 rest ih => simp [ih]
  | case3 c rest h none ih => simpa [none] using ih
  | case4 c rest h line lines some ih => simpa [some] using ih

/-- A line without its line end: a line feed, or a carriage return and a line feed. A carriage
return that ends the text is no line end. -/
def withoutLineEnd (line : List Char) : List Char :=
  match line.reverse with
  | '\n' :: '\r' :: rest => rest.reverse
  | '\n' :: rest => rest.reverse
  | _ => line

/-- The lines of a text without their line ends. -/
def lines (text : List Char) : List (List Char) :=
  (inclusiveLines text).map withoutLineEnd

/-- A line of a text and a place in it. -/
structure LinePlace where
  -- from 1
  number : Nat
  line : List Char
  offset : Nat
  deriving Repr, DecidableEq

/-- The place of byte `position` in `lines`, the first of which has number `number`. -/
def locate? (number position : Nat) : List (List Char) → Option LinePlace
  | [] => none
  | line :: lines =>
    if position < byteLength line then some ⟨number, line, position⟩
    else locate? (number + 1) (position - byteLength line) lines

/-- The place just past the last character of a text, on its last line before the line feed. -/
def endPlace (text : List Char) : LinePlace :=
  let lines := inclusiveLines text
  let line := lines.getLast?.getD []
  ⟨max lines.length 1, line, byteLength (dropEndWhile (· = '\n') line)⟩

/-- The place of byte `position` of `text`. The byte after the last has a place too, where reports
about a text that ends too early belong. -/
def lineAt? (text : List Char) (position : Nat) : Option LinePlace :=
  match locate? 1 position (inclusiveLines text) with
  | some place => some place
  | none => if position = byteLength text then some (endPlace text) else none

end DialogueTyping.Text
