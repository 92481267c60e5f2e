import DialogueTyping.Proofs.Token.Layout

set_option autoImplicit false

namespace DialogueTyping

theorem Escape.closing?_of_append {found rest : List Char}
    (closed : closing? (found ++ rest) = some found) (other : List Char) :
    closing? (found ++ other) = some found := by
  obtain ⟨body, rfl, denotes⟩ := closing?_eq_some closed
  rw [List.append_assoc]
  exact denotes.closing? other

namespace LexicalRule

theorem takeWhile_of_append {keep : Char → Bool} {kept rest cut : List Char}
    (taken : (kept ++ (rest ++ cut)).takeWhile keep = kept) :
    (kept ++ rest).takeWhile keep = kept := by
  have each : ∀ c ∈ kept, keep c := by
    intro c member
    rw [← taken] at member
    exact List.mem_takeWhile_imp member
  refine takeWhile_append_eq_left each ?_
  intro c first
  rw [List.takeWhile_append_of_pos each, List.append_right_eq_self] at taken
  cases rest with
  | nil => cases first
  | cons d rest =>
      cases first
      simpa using taken

theorem name?_of_append {name rest cut : List Char}
    (found : name? (name ++ (rest ++ cut)) = some name) : name? (name ++ rest) = some name := by
  obtain ⟨c, parts, split, start, rfl⟩ := name?_eq_some_iff.1 found
  rw [List.cons_append, List.cons.injEq] at split
  have taken := takeWhile_of_append (congrArg (List.takeWhile isNamePart) split.2)
  exact name?_eq_some_iff.2 ⟨c, _, rfl, start, congrArg (c :: ·) taken.symm⟩

theorem run?_of_append {keep : Char → Bool} {kept rest cut : List Char}
    (found : run? keep (kept ++ (rest ++ cut)) = some kept) :
    run? keep (kept ++ rest) = some kept := by
  obtain ⟨nonempty, taken⟩ := run?_eq_some_iff.1 found
  exact run?_eq_some_iff.2 ⟨nonempty, takeWhile_of_append taken⟩

theorem isSome_run?_append {keep : Char → Bool} {text : List Char} (more : List Char)
    (present : (run? keep text).isSome) : (run? keep (text ++ more)).isSome := by
  cases text with
  | nil => cases present
  | cons c text =>
      by_cases kept : keep c
      · simp [run?, kept]
      · simp [run?, kept] at present

theorem isSome_name?_append {text : List Char} (more : List Char) (present : (name? text).isSome) :
    (name? (text ++ more)).isSome := by
  cases text with
  | nil => cases present
  | cons c text =>
      by_cases start : isNameStart c
      · simp [name?, start]
      · simp [name?, start] at present

theorem fraction_eq_cons_iff {c : Char} {text part : List Char} : fraction text = c :: part ↔
    ∃ rest, text = '.' :: rest ∧ run? Char.isDigit rest = some part ∧ c = '.' := by
  cases text with
  | nil => simp [fraction]
  | cons d text =>
      by_cases point : d = '.'
      · subst point
        cases digits : run? Char.isDigit text <;> simp [fraction, digits, and_comm, eq_comm]
      · simp [fraction, point]

theorem fraction_of_append {part rest cut : List Char}
    (found : fraction (part ++ (rest ++ cut)) = part) : fraction (part ++ rest) = part := by
  cases part with
  | cons c part =>
      obtain ⟨text, split, digits, rfl⟩ := fraction_eq_cons_iff.1 found
      rw [List.cons_append, List.cons.injEq] at split
      rw [← split.2] at digits
      exact fraction_eq_cons_iff.2 ⟨_, rfl, run?_of_append digits, rfl⟩
  | nil =>
      cases here : fraction rest with
      | nil => exact here
      | cons c part =>
          obtain ⟨text, rfl, digits, rfl⟩ := fraction_eq_cons_iff.1 here
          have more := isSome_run?_append cut (Option.isSome_of_eq_some digits)
          obtain ⟨longer, taken⟩ := Option.isSome_iff_exists.1 more
          have nonempty := fraction_eq_cons_iff.2 ⟨_, rfl, taken, rfl⟩
          rw [List.nil_append, List.cons_append, nonempty] at found
          cases found

theorem lexeme?_number_eq_some_iff {text lexeme : List Char} : number.lexeme? text = some lexeme ↔
    ∃ digits rest, text = digits ++ rest ∧ IsDigits digits ∧
      (∀ c ∈ rest.head?, c.isDigit = false) ∧ lexeme = digits ++ fraction rest := by
  constructor
  · intro found
    rw [lexeme?] at found
    obtain ⟨digits, taken, rfl⟩ := Option.map_eq_some_iff.1 found
    refine ⟨digits, text.dropWhile Char.isDigit, ?_, isDigits_of_run? taken, ?_, rfl⟩
    · rw [← (run?_eq_some_iff.1 taken).2, List.takeWhile_append_dropWhile]
    · intro c first
      have stops := List.head?_dropWhile_not Char.isDigit text
      rw [Option.mem_def.1 first] at stops
      simpa using stops
  · rintro ⟨digits, rest, rfl, isDigits, ends, rfl⟩
    exact lexeme?_number_append isDigits ends

theorem lexeme?_of_append {rule : LexicalRule} {lexeme rest cut : List Char}
    (found : rule.lexeme? (lexeme ++ (rest ++ cut)) = some lexeme) :
    rule.lexeme? (lexeme ++ rest) = some lexeme := by
  cases rule with
  | blanks => exact run?_of_append found
  | comment =>
      obtain ⟨line, split, rfl⟩ := lexeme?_comment_eq_some_iff.1 found
      simp only [List.cons_append, List.cons.injEq, true_and] at split
      have taken := takeWhile_of_append (congrArg (List.takeWhile (· ≠ '\n')) split)
      exact lexeme?_comment_eq_some_iff.2 ⟨_, rfl, congrArg ('/' :: '/' :: ·) taken.symm⟩
  | variableName =>
      obtain ⟨name, rfl, -⟩ := isName_of_lexeme?_variableName found
      rw [List.cons_append, lexeme?.eq_4] at found ⊢
      obtain ⟨_, named, ⟨⟩⟩ := Option.map_eq_some_iff.1 found
      rw [name?_of_append named]
      rfl
  | word => exact name?_of_append found
  | number =>
      obtain ⟨digits, after, split, isDigits, ends, rfl⟩ := lexeme?_number_eq_some_iff.1 found
      rw [List.append_assoc, List.append_cancel_left_eq] at split
      generalize isPart : fraction after = part at split ⊢
      subst split
      refine lexeme?_number_eq_some_iff.2 ⟨digits, part ++ rest, List.append_assoc _ _ _, isDigits,
        ?_, by rw [fraction_of_append isPart]⟩
      intro c first
      apply ends
      rw [← List.append_assoc, List.head?_append, Option.mem_def.1 first]
      rfl
  | string =>
      obtain ⟨text, closed, split, closing, rfl⟩ := lexeme?_string_eq_some_iff.1 found
      rw [List.cons_append, List.cons.injEq] at split
      rw [← split.2] at closing
      have shorter := Escape.closing?_of_append closing rest
      exact lexeme?_string_eq_some_iff.2 ⟨_, closed, rfl, shorter, rfl⟩
  | symbol kind spelling =>
      rw [lexeme?.eq_10] at found ⊢
      split at found
      · rename_i spelled
        cases found
        rw [if_pos ⟨spelled.1, List.prefix_append _ _⟩]
      · cases found

theorem isSome_lexeme?_append {rule : LexicalRule} {text : List Char} (more : List Char)
    (present : (rule.lexeme? text).isSome) : (rule.lexeme? (text ++ more)).isSome := by
  obtain ⟨lexeme, found⟩ := Option.isSome_iff_exists.1 present
  cases rule with
  | blanks => exact isSome_run?_append more present
  | comment =>
      obtain ⟨line, rfl, -⟩ := lexeme?_comment_eq_some_iff.1 found
      rfl
  | variableName =>
      obtain ⟨rest, joined⟩ := lexeme?_isPrefix found
      obtain ⟨name, rfl, -⟩ := isName_of_lexeme?_variableName found
      subst joined
      simp only [List.cons_append, lexeme?.eq_4, Option.isSome_map] at present ⊢
      exact isSome_name?_append more present
  | word => exact isSome_name?_append more present
  | number =>
      rw [lexeme?, Option.isSome_map] at present ⊢
      exact isSome_run?_append more present
  | string =>
      obtain ⟨rest, closed, rfl, closing, -⟩ := lexeme?_string_eq_some_iff.1 found
      obtain ⟨later, rfl⟩ := Escape.closing?_isPrefix closing
      have longer := Escape.closing?_of_append closing (later ++ more)
      rw [← List.append_assoc] at longer
      exact Option.isSome_of_eq_some (lexeme?_string_eq_some_iff.2 ⟨_, _, rfl, longer, rfl⟩)
  | symbol kind spelling =>
      rw [lexeme?.eq_10] at found ⊢
      split at found
      · rename_i spelled
        rw [if_pos ⟨spelled.1, spelled.2.trans (List.prefix_append _ _)⟩]
        rfl
      · cases found

theorem first?_of_append {rule : LexicalRule} {lexeme rest cut : List Char}
    (found : first? (lexeme ++ (rest ++ cut)) = some (rule, lexeme)) :
    first? (lexeme ++ rest) = some (rule, lexeme) := by
  obtain ⟨before, winner, after, order, taken, others⟩ := List.findSome?_eq_some_iff.1 found
  obtain ⟨_, taken, ⟨⟩⟩ := Option.map_eq_some_iff.1 taken
  refine first?_eq_some order ?_ (lexeme?_of_append taken)
  intro other member
  -- a rule that is tried earlier and takes something now would have taken something before the cut
  have nothing := Option.map_eq_none_iff.1 (others other member)
  rw [← List.append_assoc] at nothing
  by_contra here
  have present := isSome_lexeme?_append cut (Option.isSome_iff_ne_none.2 here)
  rw [nothing] at present
  cases present

end LexicalRule

/-- The pieces are the lexemes that the rules take one after another, when `rest` stands behind the
last. -/
inductive Consumed (rest : List Char) : List Piece → Prop
  | nil : Consumed rest []
  | cons {rule : LexicalRule} {lexeme : List Char} {pieces : List Piece} :
      LexicalRule.first? (lexeme ++ (pieces.flatMap Piece.lexeme ++ rest)) = some (rule, lexeme) →
      Consumed rest pieces → Consumed rest (⟨rule, lexeme⟩ :: pieces)

theorem Cut.consumed (text : List Char) : Consumed (ofText text).rest (ofText text).pieces := by
  fun_induction ofText text with
  | case1 => exact .nil
  | case2 text rule lexeme found _ cut ih =>
      obtain ⟨later, rfl⟩ := LexicalRule.lexeme?_isPrefix (LexicalRule.first?_mem found).2
      refine .cons ?_ ih
      rw [flatMap_lexeme_append_rest, List.drop_left]
      exact found

namespace Consumed

variable {rest cut : List Char} {pieces first second : List Piece}

theorem ofText (consumed : Consumed rest pieces) (stuck : LexicalRule.first? rest = none) :
    Cut.ofText (pieces.flatMap Piece.lexeme ++ rest) = ⟨pieces, rest⟩ := by
  induction consumed with
  | nil =>
      rw [List.flatMap_nil, List.nil_append, Cut.ofText]
      split
      · rfl
      · rename_i found
        rw [stuck] at found
        cases found
  | cons found _ ih =>
      rw [List.flatMap_cons, List.append_assoc, Cut.ofText_append found, ih]

theorem append (consumed : Consumed rest (first ++ second)) :
    Consumed (second.flatMap Piece.lexeme ++ rest) first ∧ Consumed rest second := by
  induction first with
  | nil => exact ⟨.nil, consumed⟩
  | cons piece first ih =>
      rw [List.cons_append] at consumed
      cases consumed with
      | cons found later =>
          obtain ⟨early, late⟩ := ih later
          rw [List.flatMap_append, List.append_assoc] at found
          exact ⟨.cons found early, late⟩

theorem of_append (consumed : Consumed (rest ++ cut) pieces) : Consumed rest pieces := by
  induction consumed with
  | nil => exact .nil
  | @cons rule lexeme pieces found _ ih =>
      rw [← List.append_assoc (pieces.flatMap Piece.lexeme)] at found
      exact .cons (LexicalRule.first?_of_append found) ih

/-- The text that the pieces make up, read alone, is read as these pieces. -/
theorem tokenize_alone (consumed : Consumed rest pieces) :
    tokenize (String.ofList (pieces.flatMap Piece.lexeme)) =
      .ok (tokensFrom 0 pieces ++
        [Token.endOfInput (UInt32.ofNat (Text.byteLength (pieces.flatMap Piece.lexeme)))]) := by
  have alone : Consumed [] pieces := of_append consumed
  have cut := alone.ofText LexicalRule.first?_nil
  rw [List.append_nil] at cut
  simp only [tokenize, String.toList_ofList, cut, Cut.byteLength]

end Consumed

def Piece.word? (piece : Piece) : Option (TokenKind × String) := piece.rule.token? piece.lexeme

theorem map_word_tokensFrom (offset : Nat) (pieces : List Piece) :
    (tokensFrom offset pieces).map Token.word = pieces.filterMap Piece.word? := by
  induction pieces generalizing offset with
  | nil => rfl
  | cons piece pieces ih =>
      cases made : piece.rule.token? piece.lexeme with
      | none => simp only [tokensFrom, made, List.filterMap_cons, Piece.word?, ih]
      | some word => simp only [tokensFrom, made, List.filterMap_cons, Piece.word?, ih,
          List.map_cons, Token.word]

/-- The first token comes from a piece behind some that make no token. -/
theorem exists_of_tokensFrom_eq_cons {offset : Nat} {pieces : List Piece} {token : Token}
    {tokens : List Token} (made : tokensFrom offset pieces = token :: tokens) :
    ∃ skipped piece later, pieces = skipped ++ piece :: later ∧ skipped.filterMap Piece.word? = [] ∧
      piece.word? = some token.word ∧
      token.span = Span.ofLength (offset + Text.byteLength (skipped.flatMap Piece.lexeme))
        (Text.byteLength piece.lexeme) ∧
      tokensFrom (offset + Text.byteLength (skipped.flatMap Piece.lexeme)
        + Text.byteLength piece.lexeme) later = tokens := by
  induction pieces generalizing offset with
  | nil => cases made
  | cons piece pieces ih =>
      rw [tokensFrom] at made
      cases word : piece.rule.token? piece.lexeme with
      | none =>
          simp only [word] at made
          obtain ⟨skipped, other, later, rfl, silent, makes, place, rest⟩ := ih made
          refine ⟨piece :: skipped, other, later, rfl, ?_, makes, ?_, ?_⟩
          · rw [List.filterMap_cons, Piece.word?, word]
            exact silent
          · rw [List.flatMap_cons, Text.byteLength_append, ← Nat.add_assoc]
            exact place
          · rw [List.flatMap_cons, Text.byteLength_append, ← Nat.add_assoc]
            exact rest
      | some pair =>
          simp only [word, List.cons.injEq] at made
          obtain ⟨rfl, rfl⟩ := made
          exact ⟨[], piece, pieces, rfl, rfl, word, rfl, rfl⟩

namespace Span

/-- The span reaches from the start of the first token to the end of the last. -/
structure Covers (span : Span) (tokens : List Token) : Prop where
  start : tokens.head?.map (·.span.start) = some span.start
  stop : tokens.getLast?.map (·.span.stop) = some span.stop

namespace Covers

variable {span first second : Span} {tokens front back : List Token}

theorem nonempty (covers : span.Covers tokens) : tokens ≠ [] := by
  rintro rfl
  cases covers.start

theorem singleton (token : Token) : token.span.Covers [token] := ⟨rfl, rfl⟩

theorem join (early : first.Covers front) (late : second.Covers back) (gap : List Token) :
    (first.join second).Covers (front ++ (gap ++ back)) where
  start := by
    rw [List.head?_append_of_ne_nil _ early.nonempty]
    exact early.start
  stop := by
    rw [List.getLast?_append_of_ne_nil _ (List.append_ne_nil_of_right_ne_nil _ late.nonempty),
      List.getLast?_append_of_ne_nil _ late.nonempty]
    exact late.stop

theorem unique (one : first.Covers tokens) (other : second.Covers tokens) : first = second := by
  have starts := Option.some.inj (one.start.symm.trans other.start)
  have stops := Option.some.inj (one.stop.symm.trans other.stop)
  cases first
  cases second
  cases starts
  cases stops
  rfl

end Covers

end Span

/-- A run of tokens at the start is made by pieces of which the first and the last make tokens. -/
theorem exists_slice {offset : Nat} {pieces : List Piece} {run after : List Token}
    (nonempty : run ≠ []) (made : tokensFrom offset pieces = run ++ after) :
    ∃ skipped slice later, pieces = skipped ++ (slice ++ later) ∧
      skipped.filterMap Piece.word? = [] ∧ slice.filterMap Piece.word? = run.map Token.word ∧
      (Span.ofLength (offset + Text.byteLength (skipped.flatMap Piece.lexeme))
        (Text.byteLength (slice.flatMap Piece.lexeme))).Covers run := by
  induction run generalizing offset pieces with
  | nil => exact absurd rfl nonempty
  | cons token run ih =>
      obtain ⟨skipped, piece, later, rfl, silent, makes, place, rest⟩ :=
        exists_of_tokensFrom_eq_cons made
      by_cases last : run = []
      · subst last
        refine ⟨skipped, [piece], later, rfl, silent, ?_, ?_⟩
        · rw [List.filterMap_cons, makes]
          rfl
        · rw [List.flatMap_singleton, ← place]
          exact .singleton token
      · obtain ⟨gap, slice, others, rfl, silentGap, words, covers⟩ := ih last rest
        refine ⟨skipped, piece :: (gap ++ slice), others, by simp, silent, ?_, ?_⟩
        · simp only [List.filterMap_cons, makes, List.filterMap_append, silentGap, words,
            List.nil_append, List.map_cons]
        · have joined := (Span.Covers.singleton token).join covers []
          rw [place] at joined
          simpa only [Span.join, Span.ofLength, List.flatMap_cons, List.flatMap_append,
            Text.byteLength_append, Nat.add_assoc, List.nil_append, List.singleton_append]
            using joined

theorem exists_behind {offset : Nat} {pieces : List Piece} {before after : List Token}
    (made : tokensFrom offset pieces = before ++ after) :
    ∃ front later, pieces = front ++ later ∧
      tokensFrom (offset + Text.byteLength (front.flatMap Piece.lexeme)) later = after := by
  induction before generalizing offset pieces with
  | nil => exact ⟨[], pieces, rfl, made⟩
  | cons token before ih =>
      obtain ⟨skipped, piece, later, rfl, -, -, -, rest⟩ := exists_of_tokensFrom_eq_cons made
      obtain ⟨front, later, rfl, behind⟩ := ih rest
      refine ⟨skipped ++ piece :: front, later, by simp, ?_⟩
      simpa only [List.flatMap_cons, List.flatMap_append, Text.byteLength_append,
        Nat.add_assoc] using behind

theorem Token.beforeEnd_concat {tokens : List Token} {mark : Token}
    (inside : ∀ token ∈ tokens, token.kind ≠ .eof) (marks : mark.kind = .eof) :
    beforeEnd (tokens ++ [mark]) = tokens := by
  rw [beforeEnd, List.takeWhile_append_of_pos (by simpa using inside)]
  simp [marks]

theorem exists_consumed_of_tokenize {source : String} {tokens : List Token}
    (success : tokenize source = .ok tokens) :
    ∃ pieces, source.toList = pieces.flatMap Piece.lexeme ∧ Consumed [] pieces ∧
      Token.beforeEnd tokens = tokensFrom 0 pieces := by
  have lexed := lexed_of_tokenize success
  have joined := Cut.flatMap_lexeme_append_rest source.toList
  have consumed := Cut.consumed source.toList
  simp only [tokenize] at success
  split at success
  · rename_i complete
    cases success
    rw [complete] at joined consumed
    rw [List.append_nil] at joined
    have inside := lexed.endsOnce
    rw [List.dropLast_concat] at inside
    exact ⟨_, joined.symm, consumed, Token.beforeEnd_concat inside rfl⟩
  · cases success

/-- The text at the bytes of a run of tokens, read alone, has the kinds and values of the run. -/
theorem tokenize_slice {source : String} {tokens run : List Token} {span : Span}
    (short : Text.byteLength source.toList < UInt32.size) (success : tokenize source = .ok tokens)
    (inside : run <:+: Token.beforeEnd tokens) (covers : span.Covers run) :
    ∃ text alone, span.Shows source.toList text ∧ tokenize (String.ofList text) = .ok alone ∧
      alone.map Token.word = run.map Token.word ++ [(.eof, "EOF")] := by
  obtain ⟨pieces, joined, consumed, made⟩ := exists_consumed_of_tokenize success
  obtain ⟨before, after, split⟩ := inside
  rw [← split, List.append_assoc] at made
  obtain ⟨front, behind, rfl, later⟩ := exists_behind made.symm
  obtain ⟨skipped, slice, rest, rfl, -, words, place⟩ := exists_slice covers.nonempty later
  cases covers.unique place
  have alone := consumed.append.2.append.2.append.1.tokenize_alone
  refine ⟨slice.flatMap Piece.lexeme, _, ?_, alone, ?_⟩
  · simp only [List.flatMap_append] at joined
    have total := congrArg Text.byteLength joined
    simp only [Text.byteLength_append] at total
    refine ⟨(front ++ skipped).flatMap Piece.lexeme, rest.flatMap Piece.lexeme, ?_⟩
    rw [(Span.toNat_ofLength _).1, (Span.toNat_ofLength _).2]
    · rw [List.flatMap_append, Text.byteLength_append, Nat.zero_add]
      exact ⟨by rw [joined, List.append_assoc], rfl, rfl⟩
    all_goals omega
  · rw [List.map_append, map_word_tokensFrom, words]
    rfl

end DialogueTyping
