import DialogueTyping.Proofs.Token.Forms

set_option autoImplicit false

namespace DialogueTyping

theorem Cut.ofText_append {rule : LexicalRule} {lexeme rest : List Char}
    (found : LexicalRule.first? (lexeme ++ rest) = some (rule, lexeme)) :
    ofText (lexeme ++ rest) = ⟨⟨rule, lexeme⟩ :: (ofText rest).pieces, (ofText rest).rest⟩ := by
  rw [ofText]
  split
  · rename_i nothing
    rw [found] at nothing
    cases nothing
  · rename_i otherRule other otherFound
    rw [found] at otherFound
    cases otherFound
    rw [List.drop_left]

/-- From byte `offset` on, `text` is read completely and as `tokens`. -/
structure Scans (offset : Nat) (text : List Char) (tokens : List Token) : Prop where
  complete : (Cut.ofText text).rest = []
  made : tokensFrom offset (Cut.ofText text).pieces = tokens

namespace Scans

variable {offset : Nat} {rule : LexicalRule} {lexeme rest text gap : List Char}
  {tokens : List Token}

theorem nil (offset : Nat) : Scans offset [] [] := by
  have nothing : Cut.ofText [] = ⟨[], []⟩ := by
    rw [Cut.ofText]
    split
    · rfl
    · rename_i found
      cases found
  constructor
  · rw [nothing]
  · rw [nothing, tokensFrom]

theorem token {kind : TokenKind} {value : String}
    (found : LexicalRule.first? (lexeme ++ rest) = some (rule, lexeme))
    (makes : rule.token? lexeme = some (kind, value))
    (later : Scans (offset + Text.byteLength lexeme) rest tokens) :
    Scans offset (lexeme ++ rest)
      (⟨kind, value, Span.ofLength offset (Text.byteLength lexeme)⟩ :: tokens) := by
  constructor
  · rw [Cut.ofText_append found]
    exact later.complete
  · simp only [Cut.ofText_append found, tokensFrom, makes, later.made]

theorem append_iff (found : LexicalRule.first? (lexeme ++ rest) = some (rule, lexeme))
    (silent : rule.token? lexeme = none) :
    Scans offset (lexeme ++ rest) tokens ↔ Scans (offset + Text.byteLength lexeme) rest tokens := by
  constructor
  · rintro ⟨complete, made⟩
    simp only [Cut.ofText_append found, tokensFrom, silent] at complete made
    exact ⟨complete, made⟩
  · rintro ⟨complete, made⟩
    constructor
    · rw [Cut.ofText_append found]
      exact complete
    · simp only [Cut.ofText_append found, tokensFrom, silent, made]

/-- A blank in front changes only the places of the tokens, whether or not more blanks follow. -/
theorem blank {c : Char} (isBlank : Text.isBlank c)
    (later : Scans (offset + c.utf8Size) text tokens) : Scans offset (c :: text) tokens := by
  have joined : text.takeWhile Text.isBlank ++ text.dropWhile Text.isBlank = text :=
    List.takeWhile_append_dropWhile
  have blanks : ∀ d ∈ text.takeWhile Text.isBlank, Text.isBlank d :=
    fun d member => List.mem_takeWhile_imp member
  have ends : ∀ d ∈ (text.dropWhile Text.isBlank).head?, Text.isBlank d = false := by
    intro d first
    have stops := List.head?_dropWhile_not Text.isBlank text
    rw [Option.mem_def.1 first] at stops
    simpa using stops
  generalize text.takeWhile Text.isBlank = run at *
  generalize text.dropWhile Text.isBlank = rest at *
  subst joined
  -- the blank and the run after it are one lexeme, so the run has to be taken off `later`
  have behind : Scans (offset + Text.byteLength (c :: run)) rest tokens := by
    rw [Text.byteLength_cons, ← Nat.add_assoc]
    cases run with
    | nil => exact later
    | cons d run =>
        have taken := LexicalRule.first?_blanks (List.cons_ne_nil d run) blanks ends
        exact (append_iff taken rfl).1 later
  have whole := LexicalRule.first?_blanks (List.cons_ne_nil c run)
    (List.forall_mem_cons.2 ⟨isBlank, blanks⟩) ends
  exact (append_iff whole rfl).2 behind

theorem skip (skipped : Text.Skipped text gap)
    (later : Scans (offset + Text.byteLength gap) text tokens) :
    Scans offset (gap ++ text) tokens := by
  induction skipped generalizing offset with
  | nil => exact later
  | blank isBlank _ ih =>
      rw [Text.byteLength_cons, ← Nat.add_assoc] at later
      exact blank isBlank (ih later)
  | @comment body others sameLine ends _ ih =>
      have behind : Scans (offset + Text.byteLength ('/' :: '/' :: body)) (others ++ text)
          tokens := by
        apply ih
        rw [Nat.add_assoc, ← Text.byteLength_append]
        exact later
      have taken := LexicalRule.first?_comment sameLine ends
      have whole := (append_iff taken rfl).2 behind
      rwa [← List.append_assoc] at whole

end Scans

theorem tokenize_of_scans {source : String} {tokens : List Token}
    (scans : Scans 0 source.toList tokens) :
    tokenize source =
      .ok (tokens ++ [Token.endOfInput (UInt32.ofNat (Text.byteLength source.toList))]) := by
  have joined := Cut.flatMap_lexeme_append_rest source.toList
  rw [scans.complete, List.append_nil] at joined
  simp only [tokenize, Cut.byteLength, scans.complete, scans.made, joined]

namespace Text

/-- Blanks and comments, each comment with the line feed that ends it. -/
inductive Filler : List Char → Prop
  | nil : Filler []
  | blank {c : Char} {rest : List Char} : isBlank c → Filler rest → Filler (c :: rest)
  | comment {body rest : List Char} : '\n' ∉ body → Filler rest →
      Filler ('/' :: '/' :: (body ++ '\n' :: rest))

/-- A blank, and blanks and comments. -/
inductive Separator : List Char → Prop
  | mk {c : Char} {rest : List Char} : isBlank c → Filler rest → Separator (c :: rest)

theorem Filler.skipped {gap : List Char} (filler : Filler gap) (after : List Char) :
    Skipped after gap := by
  induction filler with
  | nil => exact .nil
  | blank isBlank _ ih => exact .blank isBlank ih
  | comment sameLine _ ih =>
      have newline : isBlank '\n' := by decide
      refine .comment sameLine ?_ (.blank newline ih)
      rintro c ⟨⟩
      rfl

theorem Separator.skipped {gap : List Char} (separator : Separator gap) (after : List Char) :
    Skipped after gap := by
  obtain ⟨isBlank, filler⟩ := separator
  exact .blank isBlank (filler.skipped after)

end Text

/-- A token with the numbers of the bytes where it starts and stops. -/
structure Placed where
  kind : TokenKind
  value : String
  start : Nat
  stop : Nat
  deriving DecidableEq, Repr

def Token.placed (token : Token) : Placed :=
  ⟨token.kind, token.value, token.span.start.toNat, token.span.stop.toNat⟩

def Placed.written (offset : Nat) (kind : TokenKind) (value : String) : Placed :=
  ⟨kind, value, offset, offset + Text.byteLength (spell kind value)⟩

/-- From byte `offset` on, `text` is the spellings of the tokens, with a separator after each but
possibly not after the last. -/
inductive Layout : Nat → List Char → List Placed → Prop
  | nil {offset : Nat} : Layout offset [] []
  | last {offset : Nat} {kind : TokenKind} {value : String} : Spellable kind value →
      Layout offset (spell kind value) [Placed.written offset kind value]
  | next {offset : Nat} {kind : TokenKind} {value : String} {gap rest : List Char}
      {placed : List Placed} : Spellable kind value → Text.Separator gap →
      Layout (offset + Text.byteLength (spell kind value) + Text.byteLength gap) rest placed →
      Layout offset (spell kind value ++ (gap ++ rest)) (Placed.written offset kind value :: placed)

theorem placed_ofLength {offset : Nat} {kind : TokenKind} {value : String}
    (short : offset + Text.byteLength (spell kind value) < UInt32.size) :
    Token.placed ⟨kind, value, Span.ofLength offset (Text.byteLength (spell kind value))⟩ =
      Placed.written offset kind value := by
  obtain ⟨start, stop⟩ := Span.toNat_ofLength short
  simp only [Token.placed, Placed.written, start, stop]

theorem Layout.scans {offset : Nat} {text : List Char} {placed : List Placed}
    (layout : Layout offset text placed) (short : offset + Text.byteLength text < UInt32.size) :
    ∃ tokens, Scans offset text tokens ∧ tokens.map Token.placed = placed := by
  induction layout with
  | nil => exact ⟨[], .nil _, rfl⟩
  | @last offset kind value spellable =>
      have ends : ∀ c ∈ ([] : List Char).head?, LexicalRule.isBreak c :=
        fun c first => nomatch first
      obtain ⟨rule, taken, makes⟩ := LexicalRule.first?_spell spellable ends
      have scans := Scans.token taken makes (.nil (offset + Text.byteLength (spell kind value)))
      rw [List.append_nil] at scans
      exact ⟨_, scans, by rw [List.map_singleton, placed_ofLength short]⟩
  | @next offset kind value gap rest placed spellable separator _ ih =>
      simp only [Text.byteLength_append] at short
      obtain ⟨tokens, later, same⟩ := ih (by omega)
      have ends : ∀ c ∈ (gap ++ rest).head?, LexicalRule.isBreak c := by
        obtain ⟨isBlank, -⟩ := separator
        rintro c ⟨⟩
        exact LexicalRule.isBreak_of_isBlank isBlank
      obtain ⟨rule, taken, makes⟩ := LexicalRule.first?_spell spellable ends
      refine ⟨_, .token taken makes (.skip (separator.skipped rest) later), ?_⟩
      rw [List.map_cons, same, placed_ofLength (by omega)]

theorem spellable_of_tokenize {source : String} {tokens : List Token}
    (scanned : tokenize source = .ok tokens) :
    ∀ token ∈ tokens, token.kind ≠ .eof → Spellable token.kind token.value := by
  intro token member notEnd
  simp only [tokenize] at scanned
  split at scanned
  · cases scanned
    rcases List.mem_append.1 member with inner | last
    · obtain ⟨rule, known, start, lexeme, taken, makes⟩ := made_of_mem_tokensFrom inner
      exact LexicalRule.spellable_of_token? known taken makes
    · rw [List.mem_singleton.1 last] at notEnd
      exact absurd rfl notEnd
  · cases scanned

/-- Tokens that are written with separators between them are read back, each at the bytes it was
written in. -/
theorem tokenize_layout :
    (∀ (source : String) (placed : List Placed), Layout 0 source.toList placed →
      Text.byteLength source.toList < UInt32.size →
      ∃ tokens, tokenize source = .ok tokens ∧
        tokens.map Token.placed = placed ++
          [⟨.eof, "EOF", Text.byteLength source.toList, Text.byteLength source.toList⟩]) ∧
    (∀ text, Escape.decode (Escape.encode text) = text) ∧
    ∀ source tokens, tokenize source = .ok tokens →
      ∀ token ∈ tokens, token.kind ≠ .eof → Spellable token.kind token.value := by
  refine ⟨?_, fun text => (Escape.denotes_encode text).decode, fun _ _ => spellable_of_tokenize⟩
  intro source placed layout short
  obtain ⟨tokens, scans, same⟩ := layout.scans (by rwa [Nat.zero_add])
  refine ⟨_, tokenize_of_scans scans, ?_⟩
  have atEnd : (UInt32.ofNat (Text.byteLength source.toList)).toNat =
      Text.byteLength source.toList :=
    UInt32.toNat_ofNat_of_lt' short
  rw [List.map_append, same, List.map_singleton, Token.placed, Token.endOfInput, Span.point, atEnd]

/-- A symbol that starts another one, a comment, a string with escapes, and an identifier that
starts with a reserved word. -/
theorem tokenize_layout_comment :
    let source := "<= < // <\n\t\"é\\\"\\n\" ifx"
    let placed : List Placed := [⟨.lessEquals, "<=", 0, 2⟩, ⟨.less, "<", 3, 4⟩,
      ⟨.string, "é\"\n", 11, 19⟩, ⟨.identifier, "ifx", 20, 23⟩]
    Layout 0 source.toList placed ∧ Text.byteLength source.toList < UInt32.size ∧
      ∃ tokens, tokenize source = .ok tokens ∧
        tokens.map Token.placed = placed ++ [⟨.eof, "EOF", 23, 23⟩] := by
  intro source placed
  have length : Text.byteLength source.toList = 23 := by decide
  have short : Text.byteLength source.toList < UInt32.size := by
    rw [length]
    decide
  have spelled : source.toList = spell .lessEquals "<=" ++ ([' '] ++ (spell .less "<" ++
      ([' ', '/', '/', ' ', '<', '\n', '\t'] ++ (spell .string "é\"\n" ++ ([' '] ++
        spell .identifier "ifx"))))) := by
    decide
  have space : Text.Separator [' '] := .mk (by decide) .nil
  have comment : Text.Separator [' ', '/', '/', ' ', '<', '\n', '\t'] :=
    .mk (by decide) (.comment (by decide : '\n' ∉ [' ', '<']) (.blank (by decide) .nil))
  have word : Spellable .identifier "ifx" := by
    have parts : ['f', 'x'].all LexicalRule.isNamePart := by decide
    refine .identifier ⟨'i', ['f', 'x'], by decide, by decide, List.all_eq_true.1 parts⟩ ?_
    intro kind
    simp [LexicalRule.reserved]
  have layout : Layout 0 source.toList placed := by
    rw [spelled]
    exact .next (.symbol (by decide)) space (.next (.symbol (by decide)) comment
      (.next (.string _) space (.last word)))
  obtain ⟨tokens, scanned, same⟩ := tokenize_layout.1 source placed layout short
  rw [length] at same
  exact ⟨layout, short, tokens, scanned, same⟩

end DialogueTyping
