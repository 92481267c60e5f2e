import DialogueTyping.Diagnostic.Basic
import DialogueTyping.Text.Bytes
import DialogueTyping.Token.Rule

set_option autoImplicit false

namespace DialogueTyping

/-- A lexeme of a source text, with the rule that took it. -/
structure Piece where
  rule : LexicalRule
  lexeme : List Char
  deriving DecidableEq, Repr

/-- A text cut into lexemes as far as the rules go. -/
structure Cut where
  pieces : List Piece
  rest : List Char
  deriving DecidableEq, Repr

namespace Cut

/-- Cuts lexemes from the start of a text until no rule takes one. -/
def ofText (text : List Char) : Cut :=
  match found : LexicalRule.first? text with
  | none => ⟨[], text⟩
  | some (rule, lexeme) =>
    have := LexicalRule.length_sub_lt found
    let cut := ofText (text.drop lexeme.length)
    ⟨⟨rule, lexeme⟩ :: cut.pieces, cut.rest⟩
termination_by text.length

/-- Nothing of the text is lost, added or moved. -/
theorem flatMap_lexeme_append_rest (text : List Char) :
    (ofText text).pieces.flatMap Piece.lexeme ++ (ofText text).rest = text := by
  fun_induction ofText text with
  | case1 => rfl
  | case2 text rule lexeme found _ cut ih =>
    obtain ⟨after, joined⟩ := LexicalRule.lexeme?_isPrefix (LexicalRule.first?_mem found).2
    have dropped : text.drop lexeme.length = after := by
      rw [← joined, List.drop_left]
    rw [List.flatMap_cons, List.append_assoc, ih, dropped, joined]

def byteLength (cut : Cut) : Nat :=
  Text.byteLength (cut.pieces.flatMap Piece.lexeme)

end Cut

/-- The tokens of lexemes that stand one after another from byte `offset` on. -/
def tokensFrom (offset : Nat) : List Piece → List Token
  | [] => []
  | piece :: pieces =>
    let length := Text.byteLength piece.lexeme
    let later := tokensFrom (offset + length) pieces
    match piece.rule.token? piece.lexeme with
    | none => later
    | some (kind, value) => ⟨kind, value, Span.ofLength offset length⟩ :: later

/-- The tokens of a source text, closed by one that marks its end, or the first character that no
token starts with. -/
def tokenize (source : String) : Except Diagnostic (List Token) :=
  let cut := Cut.ofText source.toList
  let offset := UInt32.ofNat cut.byteLength
  match cut.rest with
  | [] => .ok (tokensFrom 0 cut.pieces ++ [Token.endOfInput offset])
  | c :: _ => .error (.atOffset (.unrecognisedToken (String.singleton c)) offset)

end DialogueTyping
