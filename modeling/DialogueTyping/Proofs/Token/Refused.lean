import DialogueTyping.Proofs.Token.Slice

set_option autoImplicit false

namespace DialogueTyping

namespace LexicalRule

/-- The characters that are symbols on their own. -/
def symbolChars : List Char :=
  ['(', ')', '!', '<', '>', '^', '+', '-', '*', '/', '%', ',', ':', ';', '?']

/-- The characters that make a symbol only twice in a row. -/
def doubledChars : List Char := ['=', '&', '|']

/-- No lexeme starts with `c` when `rest` stands behind it. -/
inductive StartsNoLexeme : Char → List Char → Prop
  | dollar {rest : List Char} : (∀ c ∈ rest.head?, isNameStart c = false) → StartsNoLexeme '$' rest
  | single {c : Char} {rest : List Char} : c ∈ doubledChars → rest.head? ≠ some c →
      StartsNoLexeme c rest
  | unclosed {rest : List Char} :
      (∀ body value after, Escape.Denotes body value → rest ≠ body ++ '"' :: after) →
      StartsNoLexeme '"' rest
  | foreign {c : Char} {rest : List Char} : Text.isBlank c = false → isNamePart c = false →
      c ∉ symbolChars → c ∉ doubledChars → c ≠ '$' → c ≠ '"' → StartsNoLexeme c rest

theorem symbols_of_symbolChars :
    ∀ text ∈ symbolChars.map fun c => [c], text ∈ symbols.map fun entry => entry.2.toList := by
  decide

theorem symbols_of_doubledChars :
    ∀ text ∈ doubledChars.map fun c => [c, c], text ∈ symbols.map fun entry => entry.2.toList := by
  decide

theorem symbol_cases : ∀ entry ∈ symbols, entry.2.toList.head? ∈ symbolChars.map some ∨
    entry.2.toList ∈ doubledChars.map fun c => [c, c] := by
  decide

theorem lexeme?_symbol_eq_none_iff {kind : TokenKind} {spelling text : List Char}
    (nonempty : spelling ≠ []) :
    (symbol kind spelling).lexeme? text = none ↔ ¬ spelling <+: text := by
  simp [lexeme?.eq_10, nonempty]

/-- A symbol is at the start of a text if its first character is one, or is there twice. -/
theorem symbols_eq_none_iff {c : Char} {rest : List Char} :
    (∀ entry ∈ symbols, (symbol entry.1 entry.2.toList).lexeme? (c :: rest) = none) ↔
      c ∉ symbolChars ∧ (c ∈ doubledChars → rest.head? ≠ some c) := by
  constructor
  · intro nothing
    constructor
    · intro member
      have known := symbols_of_symbolChars [c] (List.mem_map_of_mem member)
      obtain ⟨entry, listed, spelled⟩ := List.mem_map.1 known
      have missing := nothing entry listed
      rw [spelled, lexeme?_symbol_eq_none_iff (List.cons_ne_nil _ _)] at missing
      exact missing ⟨rest, rfl⟩
    · intro member twice
      have known := symbols_of_doubledChars [c, c] (List.mem_map_of_mem member)
      obtain ⟨entry, listed, spelled⟩ := List.mem_map.1 known
      have missing := nothing entry listed
      rw [spelled, lexeme?_symbol_eq_none_iff (List.cons_ne_nil _ _)] at missing
      obtain ⟨after, rfl⟩ := List.head?_eq_some_iff.1 twice
      exact missing ⟨after, rfl⟩
  · rintro ⟨notSymbol, notTwice⟩ entry listed
    rcases symbol_cases entry listed with starts | doubled
    · obtain ⟨d, member, head⟩ := List.mem_map.1 starts
      apply lexeme?_eq_none_of_opens
      rw [opens, ← head, decide_eq_false_iff_not, Option.some_inj]
      rintro rfl
      exact notSymbol member
    · obtain ⟨d, member, spelled⟩ := List.mem_map.1 doubled
      rw [← spelled, lexeme?_symbol_eq_none_iff (List.cons_ne_nil _ _)]
      rintro ⟨after, joined⟩
      cases joined
      exact notTwice member rfl

theorem lexeme?_string_eq_none_iff {rest : List Char} : string.lexeme? ('"' :: rest) = none ↔
    ∀ body value after, Escape.Denotes body value → rest ≠ body ++ '"' :: after := by
  constructor
  · rintro nothing body value after denotes rfl
    rw [lexeme?.eq_8, denotes.closing?] at nothing
    cases nothing
  · intro unclosed
    apply Option.eq_none_iff_forall_ne_some.2
    intro lexeme found
    obtain ⟨_, closed, ⟨⟩, closing, -⟩ := lexeme?_string_eq_some_iff.1 found
    obtain ⟨after, joined⟩ := Escape.closing?_isPrefix closing
    obtain ⟨body, rfl, denotes⟩ := Escape.closing?_eq_some closing
    exact unclosed body _ after denotes (by rw [← joined, List.append_assoc]; rfl)

theorem lexeme?_variableName_eq_none_iff {rest : List Char} :
    variableName.lexeme? ('$' :: rest) = none ↔ ∀ c ∈ rest.head?, isNameStart c = false := by
  rw [lexeme?.eq_4, Option.map_eq_none_iff]
  cases rest with
  | nil => simp [name?]
  | cons c rest => simp [name?]

/-- The rules for lexemes that are no symbols. -/
def forms : List LexicalRule := [blanks, comment, variableName, word, number, string]

theorem forms_eq_none_of_opens {own : LexicalRule} {c : Char} {rest : List Char}
    (alone : ∀ rule ∈ forms, rule ≠ own → rule.opens c = false)
    (nothing : own.lexeme? (c :: rest) = none) :
    ∀ rule ∈ forms, rule.lexeme? (c :: rest) = none := by
  intro rule member
  by_cases same : rule = own
  · rw [same, nothing]
  · exact lexeme?_eq_none_of_opens rest (alone rule member same)

theorem first?_eq_none_iff {c : Char} {rest : List Char} :
    first? (c :: rest) = none ↔ StartsNoLexeme c rest := by
  have split : first? (c :: rest) = none ↔ (∀ rule ∈ forms, rule.lexeme? (c :: rest) = none) ∧
      c ∉ symbolChars ∧ (c ∈ doubledChars → rest.head? ≠ some c) := by
    rw [← symbols_eq_none_iff, first?, List.findSome?_eq_none_iff]
    simp only [all, forms, Option.map_eq_none_iff, List.forall_mem_append, List.forall_mem_map]
  rw [split]
  constructor
  · rintro ⟨nothing, notSymbol, notTwice⟩
    simp only [forms, List.forall_mem_cons] at nothing
    obtain ⟨blanks, -, variableName, word, number, string, -⟩ := nothing
    by_cases dollar : c = '$'
    · subst dollar
      exact .dollar (lexeme?_variableName_eq_none_iff.1 variableName)
    by_cases quote : c = '"'
    · subst quote
      exact .unclosed (lexeme?_string_eq_none_iff.1 string)
    by_cases doubled : c ∈ doubledChars
    · exact .single doubled (notTwice doubled)
    have notBlank : Text.isBlank c = false := by simpa [lexeme?, run?] using blanks
    have notStart : isNameStart c = false := by simpa [lexeme?, name?] using word
    have notDigit : c.isDigit = false := by simpa [lexeme?, run?] using number
    have notPart : isNamePart c = false := by simp_all [isNameStart, isNamePart, Char.isAlphanum]
    exact .foreign notBlank notPart notSymbol doubled dollar quote
  · intro startsNone
    cases startsNone with
    | dollar unnamed =>
        have alone : ∀ rule ∈ forms, rule ≠ variableName → rule.opens '$' = false := by decide
        have nothing := forms_eq_none_of_opens alone (lexeme?_variableName_eq_none_iff.2 unnamed)
        exact ⟨nothing, by decide, fun doubled => absurd doubled (by decide)⟩
    | unclosed unclosed =>
        have alone : ∀ rule ∈ forms, rule ≠ string → rule.opens '"' = false := by decide
        have nothing := forms_eq_none_of_opens alone (lexeme?_string_eq_none_iff.2 unclosed)
        exact ⟨nothing, by decide, fun doubled => absurd doubled (by decide)⟩
    | single doubled once =>
        have apart : c ∉ symbolChars ∧ ∀ rule ∈ forms, rule.opens c = false := by
          simp only [doubledChars, List.mem_cons, List.not_mem_nil, or_false] at doubled
          rcases doubled with rfl | rfl | rfl <;> decide
        obtain ⟨notSymbol, closed⟩ := apart
        exact ⟨fun rule member => lexeme?_eq_none_of_opens rest (closed rule member), notSymbol,
          fun _ => once⟩
    | foreign notBlank notPart notSymbol notDoubled notDollar notQuote =>
        have notSlash : c ≠ '/' := by
          rintro rfl
          exact notSymbol (by decide)
        have closed : ∀ rule ∈ forms, rule.opens c = false := by
          simp_all [forms, opens, isNameStart, isNamePart, Char.isAlphanum]
        exact ⟨fun rule member => lexeme?_eq_none_of_opens rest (closed rule member), notSymbol,
          fun doubled => absurd doubled notDoubled⟩

end LexicalRule

/-- The lexemes of `source` are `pieces` up to the character `c`, which starts none. -/
structure StopsAt (source : List Char) (pieces : List Piece) (c : Char) (rest : List Char) :
    Prop where
  split : source = pieces.flatMap Piece.lexeme ++ c :: rest
  consumed : Consumed (c :: rest) pieces
  startsNone : LexicalRule.StartsNoLexeme c rest

theorem StopsAt.ofText {source rest : List Char} {pieces : List Piece} {c : Char}
    (stops : StopsAt source pieces c rest) : Cut.ofText source = ⟨pieces, c :: rest⟩ := by
  rw [stops.split]
  exact stops.consumed.ofText (LexicalRule.first?_eq_none_iff.2 stops.startsNone)

theorem stopsAt_of_rest {source rest : List Char} {c : Char}
    (left : (Cut.ofText source).rest = c :: rest) :
    StopsAt source (Cut.ofText source).pieces c rest where
  split := by rw [← left, Cut.flatMap_lexeme_append_rest]
  consumed := left ▸ Cut.consumed source
  startsNone := LexicalRule.first?_eq_none_iff.1 (left ▸ Cut.first?_rest source)

/-- A source is refused exactly when its lexemes stop at a character that starts none, and the text
before it is read. -/
theorem tokenize_refuses_iff (source : String)
    (short : Text.byteLength source.toList < UInt32.size) :
    ((∃ report, tokenize source = .error report) ↔
      ∃ pieces c rest, StopsAt source.toList pieces c rest) ∧
    ∀ pieces c rest, StopsAt source.toList pieces c rest →
      ∃ offset : Offset, offset.toNat = Text.byteLength (pieces.flatMap Piece.lexeme) ∧
        tokenize source = .error (.atOffset (.unrecognisedToken (String.singleton c)) offset) ∧
        tokenize (String.ofList (pieces.flatMap Piece.lexeme)) =
          .ok (tokensFrom 0 pieces ++ [Token.endOfInput offset]) := by
  have reported : ∀ pieces c rest, StopsAt source.toList pieces c rest →
      tokenize source = .error (.atOffset (.unrecognisedToken (String.singleton c))
        (UInt32.ofNat (Text.byteLength (pieces.flatMap Piece.lexeme)))) := by
    intro pieces c rest stops
    simp only [tokenize, stops.ofText, Cut.byteLength]
  refine ⟨⟨?_, ?_⟩, ?_⟩
  · rintro ⟨report, refused⟩
    simp only [tokenize] at refused
    split at refused
    · cases refused
    · rename_i left
      exact ⟨_, _, _, stopsAt_of_rest left⟩
  · rintro ⟨pieces, c, rest, stops⟩
    exact ⟨_, reported pieces c rest stops⟩
  · intro pieces c rest stops
    have total := congrArg Text.byteLength stops.split
    rw [Text.byteLength_append] at total
    exact ⟨_, UInt32.toNat_ofNat_of_lt' (by omega), reported pieces c rest stops,
      stops.consumed.tokenize_alone⟩

/-- A literal that only a quote behind a backslash and a line feed could close. -/
theorem tokenize_refuses_unclosed :
    let source := "$n \"é\\\n\""
    let pieces : List Piece := [⟨.variableName, ['$', 'n']⟩, ⟨.blanks, [' ']⟩]
    Text.byteLength source.toList < UInt32.size ∧
      StopsAt source.toList pieces '"' ['é', '\\', '\n', '"'] ∧
      (∃ report, tokenize source = .error report) ∧
      tokenize source = .error (.atOffset (.unrecognisedToken "\"") 3) ∧
      tokenize "$n " = .ok [⟨.variableName, "$n", ⟨0, 2⟩⟩, Token.endOfInput 3] := by
  intro source pieces
  have short : Text.byteLength source.toList < UInt32.size := by decide
  have stops : StopsAt source.toList pieces '"' ['é', '\\', '\n', '"'] := by
    refine ⟨by decide, .cons ?_ (.cons ?_ .nil), LexicalRule.first?_eq_none_iff.1 ?_⟩ <;>
      decide +kernel
  obtain ⟨refused, reported⟩ := tokenize_refuses_iff source short
  obtain ⟨offset, place, report, before⟩ := reported _ _ _ stops
  have three : offset = 3 := UInt32.toNat_inj.1 place
  subst three
  exact ⟨short, stops, refused.2 ⟨_, _, _, stops⟩, report, before⟩

end DialogueTyping
