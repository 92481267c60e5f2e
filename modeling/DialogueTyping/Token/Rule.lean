import DialogueTyping.Text.Blank
import DialogueTyping.Token.Basic
import DialogueTyping.Token.Escape

set_option autoImplicit false

namespace DialogueTyping

/-- A rule that takes a lexeme from the start of a text. -/
inductive LexicalRule where
  | blanks
  | comment
  | variableName
  | word
  -- a point counts only with a digit behind it
  | number
  | string
  | symbol (kind : TokenKind) (spelling : List Char)
  deriving DecidableEq, Repr

namespace LexicalRule

def isNameStart (c : Char) : Bool := c.isAlpha || c = '_'

def isNamePart (c : Char) : Bool := c.isAlphanum || c = '_'

def name? : List Char → Option (List Char)
  | [] => none
  | c :: rest => if isNameStart c then some (c :: rest.takeWhile isNamePart) else none

/-- The characters at the start of a text that satisfy `keep`, if there is one. -/
def run? (keep : Char → Bool) (text : List Char) : Option (List Char) :=
  if text.takeWhile keep = [] then none else some (text.takeWhile keep)

/-- The point and the digits after it at the start of a text; nothing without a digit. -/
def fraction : List Char → List Char
  | [] => []
  | c :: rest => if c = '.' then ((run? Char.isDigit rest).map (c :: ·)).getD [] else []

/-- The lexeme that a rule takes from the start of a text. -/
def lexeme? : LexicalRule → List Char → Option (List Char)
  | blanks, text => run? Text.isBlank text
  | comment, '/' :: '/' :: rest => some ('/' :: '/' :: rest.takeWhile (· ≠ '\n'))
  | comment, _ => none
  | variableName, '$' :: rest => (name? rest).map ('$' :: ·)
  | variableName, _ => none
  | word, text => name? text
  | number, text =>
    (run? Char.isDigit text).map (· ++ fraction (text.dropWhile Char.isDigit))
  | string, '"' :: rest => (Escape.closing? rest).map ('"' :: ·)
  | string, _ => none
  | symbol _ spelling, text =>
    if spelling ≠ [] ∧ spelling <+: text then some spelling else none

/-- The symbols, a longer one before each that it starts with. -/
def symbols : List (TokenKind × String) := [
  (.openParen, "("), (.closeParen, ")"),
  (.equals, "=="), (.notEquals, "!="), (.not, "!"),
  (.lessEquals, "<="), (.less, "<"), (.greaterEquals, ">="), (.greater, ">"),
  (.or, "||"), (.and, "&&"), (.xor, "^"),
  (.plusEquals, "+="), (.minusEquals, "-="), (.starEquals, "*="), (.slashEquals, "/="),
  (.percentEquals, "%="), (.arrow, "->"),
  (.plus, "+"), (.dash, "-"), (.star, "*"), (.slash, "/"), (.percent, "%"),
  (.comma, ","), (.colon, ":"), (.semicolon, ";"), (.question, "?")]

/-- All rules in the order in which they are tried. -/
def all : List LexicalRule :=
  [blanks, comment, variableName, word, number, string]
    ++ symbols.map fun entry => symbol entry.1 entry.2.toList

/-- The words that are no identifiers. -/
def reserved : List (String × TokenKind) := [
  ("true", .trueWord), ("false", .falseWord), ("null", .nullWord),
  ("and", .and), ("or", .or), ("xor", .xor), ("not", .not),
  ("eq", .equals), ("is", .equals), ("neq", .notEquals),
  ("lt", .less), ("lte", .lessEquals), ("gt", .greater), ("gte", .greaterEquals),
  ("if", .ifWord), ("elseif", .elseIfWord),
  ("string", .stringType), ("number", .numberType), ("bool", .boolType),
  ("var", .varWord), ("fn", .fnWord)]

def wordKind (word : String) : TokenKind :=
  (reserved.lookup word).getD .identifier

/-- The kind and value of the token that a lexeme of a rule makes. Blanks and comments make none. -/
def token? (rule : LexicalRule) (lexeme : List Char) : Option (TokenKind × String) :=
  match rule with
  | blanks | comment => none
  | variableName => some (.variableName, String.ofList lexeme)
  | word => some (wordKind (String.ofList lexeme), String.ofList lexeme)
  | number => some (.number, String.ofList lexeme)
  | string => some (.string, String.ofList (Escape.decode (lexeme.drop 1).dropLast))
  | symbol kind _ => some (kind, String.ofList lexeme)

/-- The first rule that takes a lexeme from the start of a text, and the lexeme. -/
def first? (text : List Char) : Option (LexicalRule × List Char) :=
  all.findSome? fun rule => (rule.lexeme? text).map (rule, ·)

theorem run?_eq_some_iff {keep : Char → Bool} {text found : List Char} :
    run? keep text = some found ↔ found ≠ [] ∧ text.takeWhile keep = found := by
  unfold run?
  split
  · rename_i empty
    simp only [empty, reduceCtorEq, false_iff, not_and]
    exact fun nonempty none => nonempty none.symm
  · rename_i nonempty
    simp only [Option.some.injEq]
    exact ⟨fun taken => ⟨taken ▸ nonempty, taken⟩, And.right⟩

theorem name?_eq_some_iff {text lexeme : List Char} :
    name? text = some lexeme ↔
      ∃ c rest, text = c :: rest ∧ isNameStart c ∧ lexeme = c :: rest.takeWhile isNamePart := by
  cases text with
  | nil => simp [name?]
  | cons c rest =>
    simp only [name?, Option.ite_none_right_eq_some, Option.some.injEq, List.cons.injEq]
    constructor
    · rintro ⟨start, rfl⟩
      exact ⟨c, rest, ⟨rfl, rfl⟩, start, rfl⟩
    · rintro ⟨_, _, ⟨rfl, rfl⟩, start, rfl⟩
      exact ⟨start, rfl⟩

theorem fraction_isPrefix (text : List Char) : fraction text <+: text := by
  cases text with
  | nil => exact List.prefix_rfl
  | cons c rest =>
    simp only [fraction]
    split
    · cases found : run? Char.isDigit rest with
      | none => exact List.nil_prefix
      | some digits =>
        rw [run?_eq_some_iff] at found
        exact List.cons_prefix_cons.2 ⟨rfl, found.2 ▸ List.takeWhile_prefix _⟩
    · exact List.nil_prefix

theorem lexeme?_ne_nil {rule : LexicalRule} {text lexeme : List Char}
    (found : rule.lexeme? text = some lexeme) : lexeme ≠ [] := by
  rintro rfl
  unfold lexeme? at found
  split at found
  · exact (run?_eq_some_iff.1 found).1 rfl
  · cases found
  · cases found
  · simp at found
  · cases found
  · obtain ⟨c, rest, _, _, lexeme_eq⟩ := name?_eq_some_iff.1 found
    cases lexeme_eq
  · obtain ⟨digits, taken, joined⟩ := Option.map_eq_some_iff.1 found
    exact (run?_eq_some_iff.1 taken).1 (List.append_eq_nil_iff.1 joined).1
  · simp at found
  · cases found
  · split at found <;> cases found
    simp_all

theorem lexeme?_isPrefix {rule : LexicalRule} {text lexeme : List Char}
    (found : rule.lexeme? text = some lexeme) : lexeme <+: text := by
  have cons {c : Char} {first second : List Char} (h : first <+: second) :
      c :: first <+: c :: second := List.cons_prefix_cons.2 ⟨rfl, h⟩
  have name {text lexeme : List Char} (named : name? text = some lexeme) : lexeme <+: text := by
    obtain ⟨c, rest, rfl, _, rfl⟩ := name?_eq_some_iff.1 named
    exact cons (List.takeWhile_prefix _)
  unfold lexeme? at found
  split at found
  · exact (run?_eq_some_iff.1 found).2 ▸ List.takeWhile_prefix _
  · cases found
    exact cons (cons (List.takeWhile_prefix _))
  · cases found
  · obtain ⟨lexeme, named, rfl⟩ := Option.map_eq_some_iff.1 found
    exact cons (name named)
  · cases found
  · exact name found
  · obtain ⟨digits, taken, rfl⟩ := Option.map_eq_some_iff.1 found
    obtain ⟨after, joined⟩ := fraction_isPrefix (List.dropWhile Char.isDigit text)
    refine ⟨after, ?_⟩
    rw [List.append_assoc, joined, ← (run?_eq_some_iff.1 taken).2,
      List.takeWhile_append_dropWhile]
  · obtain ⟨closed, closing, rfl⟩ := Option.map_eq_some_iff.1 found
    exact cons (Escape.closing?_isPrefix closing)
  · cases found
  · split at found <;> cases found
    rename_i spelled
    exact spelled.2

theorem first?_mem {text lexeme : List Char} {rule : LexicalRule}
    (found : first? text = some (rule, lexeme)) : rule ∈ all ∧ rule.lexeme? text = some lexeme := by
  obtain ⟨candidate, member, taken⟩ := List.exists_of_findSome?_eq_some found
  obtain ⟨_, lexeme_eq, pair⟩ := Option.map_eq_some_iff.1 taken
  cases pair
  exact ⟨member, lexeme_eq⟩

@[simp] theorem first?_nil : first? [] = none := by
  decide

theorem length_sub_lt {text lexeme : List Char} {rule : LexicalRule}
    (found : first? text = some (rule, lexeme)) : text.length - lexeme.length < text.length := by
  have taken := (first?_mem found).2
  have nonempty := List.length_pos_iff.2 (lexeme?_ne_nil taken)
  have fits := (lexeme?_isPrefix taken).length_le
  omega

end LexicalRule

end DialogueTyping
