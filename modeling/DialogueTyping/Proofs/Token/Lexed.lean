import DialogueTyping.Token.Cursor
import DialogueTyping.Token.Scan
import Mathlib.Data.List.TakeWhile

set_option autoImplicit false

namespace DialogueTyping

/-- The one word that tokens of a kind are written with, if they name a type. -/
def TokenKind.typeWord? : TokenKind → Option String
  | stringType => some "string"
  | numberType => some "number"
  | boolType => some "bool"
  | _ => none

namespace Token

/-- The kind and the value of a token, without its place. -/
def word (token : Token) : TokenKind × String := (token.kind, token.value)

/-- The tokens before the first that marks an end. -/
def beforeEnd (tokens : List Token) : List Token := tokens.takeWhile (·.kind ≠ .eof)

/-- The tokens are as tokenizing gives them. The mark at the end may be missing. -/
structure Lexed (tokens : List Token) : Prop where
  endsOnce : ∀ token ∈ tokens.dropLast, token.kind ≠ .eof
  ownWords : ∀ token ∈ tokens, ∀ word ∈ token.kind.typeWord?, token.value = word

theorem mem_of_mem_beforeEnd {tokens : List Token} {token : Token}
    (member : token ∈ beforeEnd tokens) : token ∈ tokens ∧ token.kind ≠ .eof := by
  have kept := List.mem_takeWhile_imp member
  exact ⟨(List.takeWhile_prefix _).subset member, of_decide_eq_true kept⟩

theorem beforeEnd_eq_self {tokens : List Token} (inside : ∀ token ∈ tokens, token.kind ≠ .eof) :
    beforeEnd tokens = tokens := by
  rw [beforeEnd, List.takeWhile_eq_self_iff]
  intro token member
  exact decide_eq_true (inside token member)

end Token

namespace Cursor

theorem kind_last_ofTokens (tokens : List Token) : (ofTokens tokens).last.kind = .eof := by
  unfold ofTokens
  split
  · rfl
  · split
    · assumption
    · rfl

theorem nodes_ofTokens (tokens : List Token) : (ofTokens tokens).nodes = 0 := by
  unfold ofTokens
  split
  · rfl
  · split <;> rfl

theorem ahead_ofTokens {tokens : List Token}
    (endsOnce : ∀ token ∈ tokens.dropLast, token.kind ≠ .eof) :
    (ofTokens tokens).ahead = Token.beforeEnd tokens := by
  rcases List.eq_nil_or_concat tokens with rfl | ⟨front, last, rfl⟩
  · rfl
  · rw [List.concat_eq_append] at *
    rw [List.dropLast_concat] at endsOnce
    unfold ofTokens
    rw [List.getLast?_concat]
    by_cases marks : last.kind = .eof
    · simp only [marks, ↓reduceIte, List.dropLast_concat]
      rw [Token.beforeEnd, List.takeWhile_append_of_pos (by simpa using endsOnce)]
      simp [marks]
    · simp only [marks, ↓reduceIte]
      rw [Token.beforeEnd_eq_self]
      intro token member
      rcases List.mem_append.1 member with before | final
      · exact endsOnce token before
      · rwa [List.mem_singleton.1 final]

/-- A mark at the end makes no difference. -/
theorem ahead_ofTokens_append {tokens : List Token} {mark : Option Token}
    (inside : ∀ token ∈ tokens, token.kind ≠ .eof) (marks : ∀ token ∈ mark, token.kind = .eof) :
    (ofTokens (tokens ++ mark.toList)).ahead = tokens := by
  cases mark with
  | none =>
      rw [Option.toList_none, List.append_nil, ahead_ofTokens, Token.beforeEnd_eq_self inside]
      exact fun token member => inside token (List.dropLast_subset _ member)
  | some final =>
      have marked : final.kind = .eof := marks final rfl
      rw [Option.toList_some, ofTokens, List.getLast?_concat]
      simp only [marked, ↓reduceIte, List.dropLast_concat]

end Cursor

namespace LexicalRule

theorem wordKind_lexed (word : String) :
    wordKind word ≠ .eof ∧ ∀ name ∈ (wordKind word).typeWord?, word = name := by
  have listed : ∀ entry ∈ reserved,
      entry.2 ≠ .eof ∧ ∀ name ∈ entry.2.typeWord?, entry.1 = name := by
    decide
  rw [wordKind]
  cases found : reserved.lookup word with
  | none => exact ⟨by decide, fun _ named => nomatch named⟩
  | some kind =>
      obtain ⟨before, after, split, _⟩ := List.lookup_eq_some_iff.1 found
      exact listed (word, kind) (by rw [split]; exact List.mem_append_right _ List.mem_cons_self)

theorem mem_symbols_of_mem_all {kind : TokenKind} {spelling : List Char}
    (known : symbol kind spelling ∈ all) :
    ∃ text, spelling = text.toList ∧ (kind, text) ∈ symbols := by
  simp only [all, List.mem_append, List.mem_cons, reduceCtorEq, List.not_mem_nil, or_self,
    List.mem_map, symbol.injEq, false_or] at known
  obtain ⟨entry, member, rfl, rfl⟩ := known
  exact ⟨entry.2, rfl, member⟩

theorem token?_lexed {rule : LexicalRule} {lexeme : List Char} {kind : TokenKind} {value : String}
    (known : rule ∈ all) (made : rule.token? lexeme = some (kind, value)) :
    kind ≠ .eof ∧ ∀ name ∈ kind.typeWord?, value = name := by
  have listed : ∀ entry ∈ symbols, entry.1 ≠ .eof ∧ entry.1.typeWord? = none := by
    decide
  cases rule with
  | blanks | comment => cases made
  | variableName | number | string =>
      cases made
      exact ⟨by decide, fun _ named => nomatch named⟩
  | word =>
      cases made
      exact wordKind_lexed _
  | symbol symbolKind spelling =>
      cases made
      obtain ⟨text, -, member⟩ := mem_symbols_of_mem_all known
      have plain := listed _ member
      refine ⟨plain.1, ?_⟩
      rw [plain.2]
      exact fun _ named => nomatch named

end LexicalRule

theorem Cut.taken_of_mem_pieces (text : List Char) : ∀ piece ∈ (ofText text).pieces,
    piece.rule ∈ LexicalRule.all ∧ ∃ start, piece.rule.lexeme? start = some piece.lexeme := by
  fun_induction ofText text with
  | case1 => exact List.forall_mem_nil _
  | case2 text rule lexeme found _ cut ih =>
      obtain ⟨known, taken⟩ := LexicalRule.first?_mem found
      exact List.forall_mem_cons.2 ⟨⟨known, text, taken⟩, ih⟩

theorem exists_piece_of_mem_tokensFrom {pieces : List Piece} {offset : Nat} {token : Token}
    (member : token ∈ tokensFrom offset pieces) :
    ∃ piece ∈ pieces, piece.rule.token? piece.lexeme = some (token.kind, token.value) := by
  induction pieces generalizing offset with
  | nil => cases member
  | cons piece pieces ih =>
      have later {offset : Nat} (inside : token ∈ tokensFrom offset pieces) :
          ∃ other ∈ piece :: pieces,
            other.rule.token? other.lexeme = some (token.kind, token.value) := by
        obtain ⟨other, among, makes⟩ := ih inside
        exact ⟨other, List.mem_cons_of_mem piece among, makes⟩
      rw [tokensFrom] at member
      cases made : piece.rule.token? piece.lexeme with
      | none =>
          rw [made] at member
          exact later member
      | some pair =>
          rw [made] at member
          rcases List.mem_cons.1 member with rfl | inside
          · exact ⟨piece, List.mem_cons_self, made⟩
          · exact later inside

theorem made_of_mem_tokensFrom {text : List Char} {offset : Nat} {token : Token}
    (member : token ∈ tokensFrom offset (Cut.ofText text).pieces) :
    ∃ rule ∈ LexicalRule.all, ∃ start lexeme, rule.lexeme? start = some lexeme ∧
      rule.token? lexeme = some (token.kind, token.value) := by
  obtain ⟨piece, inside, makes⟩ := exists_piece_of_mem_tokensFrom member
  obtain ⟨known, start, taken⟩ := Cut.taken_of_mem_pieces text piece inside
  exact ⟨piece.rule, known, start, piece.lexeme, taken, makes⟩

theorem lexed_of_tokenize {source : String} {tokens : List Token}
    (scanned : tokenize source = .ok tokens) : Token.Lexed tokens := by
  have inner : ∀ token ∈ tokensFrom 0 (Cut.ofText source.toList).pieces,
      token.kind ≠ .eof ∧ ∀ name ∈ token.kind.typeWord?, token.value = name := by
    intro token member
    obtain ⟨rule, known, start, lexeme, -, makes⟩ := made_of_mem_tokensFrom member
    exact LexicalRule.token?_lexed known makes
  simp only [tokenize] at scanned
  split at scanned
  · cases scanned
    constructor
    · rw [List.dropLast_concat]
      exact fun token member => (inner token member).1
    · intro token member
      rcases List.mem_append.1 member with before | final
      · exact (inner token before).2
      · rw [List.mem_singleton.1 final]
        exact fun _ named => nomatch named
  · cases scanned

end DialogueTyping
