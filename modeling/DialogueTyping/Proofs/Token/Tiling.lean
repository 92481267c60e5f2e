import DialogueTyping.Proofs.Token.Lexed
import DialogueTyping.Proofs.Token.Literal
import Mathlib.Data.List.Chain

set_option autoImplicit false

namespace DialogueTyping

namespace Text

/-- Blanks and comments, with `after` behind them. A comment is two slashes and all that follows up
to the next line feed or the end of the text. -/
inductive Skipped (after : List Char) : List Char → Prop
  | nil : Skipped after []
  | blank {c : Char} {rest : List Char} : isBlank c → Skipped after rest → Skipped after (c :: rest)
  | comment {body rest : List Char} : '\n' ∉ body → (∀ c ∈ (rest ++ after).head?, c = '\n') →
      Skipped after rest → Skipped after ('/' :: '/' :: (body ++ rest))

namespace Skipped

theorem append {first second after : List Char} (early : Skipped (second ++ after) first)
    (late : Skipped after second) : Skipped after (first ++ second) := by
  induction early with
  | nil => exact late
  | blank isBlank _ ih => exact .blank isBlank ih
  | @comment body rest sameLine ends _ ih =>
      rw [← List.append_assoc] at ends
      have joined := Skipped.comment sameLine ends ih
      rwa [← List.append_assoc] at joined

theorem of_blanks {after text : List Char} (blanks : ∀ c ∈ text, isBlank c) :
    Skipped after text := by
  induction text with
  | nil => exact .nil
  | cons c text ih =>
      obtain ⟨head, tail⟩ := List.forall_mem_cons.1 blanks
      exact .blank head (ih tail)

end Skipped

end Text

/-- The token is written as `text`: a string as a literal that stands for its value, any other token
as its value. -/
structure Token.Reads (token : Token) (text : List Char) : Prop where
  nonempty : text ≠ []
  notEnd : token.kind ≠ .eof
  plain : token.kind ≠ .string → token.value.toList = text
  quoted : token.kind = .string →
    ∃ body, text = '"' :: (body ++ ['"']) ∧ Escape.Denotes body token.value.toList

namespace LexicalRule

theorem lexeme?_comment_eq_some_iff {text lexeme : List Char} :
    comment.lexeme? text = some lexeme ↔
      ∃ line, text = '/' :: '/' :: line ∧
        lexeme = '/' :: '/' :: line.takeWhile (· ≠ '\n') := by
  by_cases slashes : ∃ line, text = '/' :: '/' :: line
  · obtain ⟨line, rfl⟩ := slashes
    simp [lexeme?, eq_comm]
  · have nothing : comment.lexeme? text = none :=
      lexeme?.eq_3 text fun line same => slashes ⟨line, same⟩
    rw [nothing]
    constructor
    · intro found
      cases found
    · rintro ⟨line, same, -⟩
      exact absurd ⟨line, same⟩ slashes

theorem lexeme?_string_eq_some_iff {text lexeme : List Char} :
    string.lexeme? text = some lexeme ↔
      ∃ rest closed, text = '"' :: rest ∧ Escape.closing? rest = some closed ∧
        lexeme = '"' :: closed := by
  by_cases quote : ∃ rest, text = '"' :: rest
  · obtain ⟨rest, rfl⟩ := quote
    rw [lexeme?.eq_8, Option.map_eq_some_iff]
    constructor
    · rintro ⟨closed, closing, rfl⟩
      exact ⟨rest, closed, rfl, closing, rfl⟩
    · rintro ⟨_, closed, ⟨⟩, closing, rfl⟩
      exact ⟨closed, closing, rfl⟩
  · have nothing : string.lexeme? text = none :=
      lexeme?.eq_9 text fun rest same => quote ⟨rest, same⟩
    rw [nothing]
    constructor
    · intro found
      cases found
    · rintro ⟨rest, closed, same, -⟩
      exact absurd ⟨rest, same⟩ quote

theorem skipped_of_token?_eq_none {rule : LexicalRule} {lexeme rest : List Char}
    (found : rule.lexeme? (lexeme ++ rest) = some lexeme) (silent : rule.token? lexeme = none) :
    Text.Skipped rest lexeme := by
  cases rule with
  | variableName | word | number | string | symbol => cases silent
  | blanks =>
      obtain ⟨-, taken⟩ := run?_eq_some_iff.1 found
      apply Text.Skipped.of_blanks
      intro c member
      rw [← taken] at member
      exact List.mem_takeWhile_imp member
  | comment =>
      obtain ⟨line, joined, rfl⟩ := lexeme?_comment_eq_some_iff.1 found
      have split : line.takeWhile (· ≠ '\n') ++ rest = line := by
        simpa only [List.cons_append, List.cons.injEq, true_and] using joined
      have left : rest = line.dropWhile (· ≠ '\n') := by
        have whole : line.takeWhile (· ≠ '\n') ++ line.dropWhile (· ≠ '\n') = line :=
          List.takeWhile_append_dropWhile
        exact List.append_cancel_left (split.trans whole.symm)
      have sameLine : '\n' ∉ line.takeWhile (· ≠ '\n') := by
        intro member
        simpa using List.mem_takeWhile_imp member
      have ends : ∀ c ∈ ([] ++ rest).head?, c = '\n' := by
        intro c first
        rw [List.nil_append] at first
        have stops := List.head?_dropWhile_not (· ≠ '\n') line
        rw [← left, Option.mem_def.1 first] at stops
        simpa using stops
      have skipped := Text.Skipped.comment sameLine ends .nil
      rwa [List.append_nil] at skipped

theorem ne_string_of_mem_reserved : ∀ entry ∈ reserved, entry.2 ≠ .string := by
  decide

theorem ne_string_of_mem_symbols : ∀ entry ∈ symbols, entry.1 ≠ .string := by
  decide

theorem kind_eq_string_iff {rule : LexicalRule} {lexeme : List Char} {kind : TokenKind}
    {value : String} (known : rule ∈ all) (made : rule.token? lexeme = some (kind, value)) :
    kind = .string ↔ rule = .string := by
  cases rule with
  | blanks | comment => cases made
  | variableName | number | string =>
      cases made
      decide
  | word =>
      cases made
      simp only [reduceCtorEq, iff_false, wordKind]
      cases found : reserved.lookup (String.ofList lexeme) with
      | none => decide
      | some kind =>
          obtain ⟨before, after, split, -⟩ := List.lookup_eq_some_iff.1 found
          exact ne_string_of_mem_reserved (String.ofList lexeme, kind) (by simp [split])
  | symbol symbolKind spelling =>
      cases made
      obtain ⟨text, -, member⟩ := mem_symbols_of_mem_all known
      simp only [ne_string_of_mem_symbols _ member, reduceCtorEq]

theorem reads_of_token? {rule : LexicalRule} {text lexeme : List Char} {kind : TokenKind}
    {value : String} (known : rule ∈ all) (found : rule.lexeme? text = some lexeme)
    (made : rule.token? lexeme = some (kind, value)) (span : Span) :
    Token.Reads ⟨kind, value, span⟩ lexeme where
  nonempty := lexeme?_ne_nil found
  notEnd := (token?_lexed known made).1
  plain notString := by
    have otherRule : rule ≠ .string :=
      fun same => notString ((kind_eq_string_iff known made).2 same)
    cases rule with
    | blanks | comment => cases made
    | string => exact absurd rfl otherRule
    | variableName | word | number | symbol =>
        cases made
        exact String.toList_ofList
  quoted isString := by
    cases (kind_eq_string_iff known made).1 isString
    cases made
    obtain ⟨rest, closed, -, closing, rfl⟩ := lexeme?_string_eq_some_iff.1 found
    obtain ⟨body, rfl, denotes⟩ := Escape.closing?_eq_some closing
    refine ⟨body, rfl, ?_⟩
    simpa using denotes

end LexicalRule

/-- From byte `offset` on, `text` consists of the tokens in turn, a gap before each and one at the
end. -/
inductive Tiling : Nat → List Char → List Token → Prop
  | gap {offset : Nat} {gap : List Char} : Text.Skipped [] gap → Tiling offset gap []
  | token {offset : Nat} {gap text rest : List Char} {token : Token} {tokens : List Token} :
      Text.Skipped (text ++ rest) gap → token.Reads text →
      token.span = Span.ofLength (offset + Text.byteLength gap) (Text.byteLength text) →
      Tiling (offset + Text.byteLength gap + Text.byteLength text) rest tokens →
      Tiling offset (gap ++ (text ++ rest)) (token :: tokens)

/-- Blanks and comments in front of a text belong to its first gap. -/
theorem Tiling.skip {offset : Nat} {front text : List Char} {tokens : List Token}
    (skipped : Text.Skipped text front)
    (tiling : Tiling (offset + Text.byteLength front) text tokens) :
    Tiling offset (front ++ text) tokens := by
  cases tiling with
  | gap inGap => exact .gap (.append (by rwa [List.append_nil]) inGap)
  | @token _ gap text rest token tokens inGap reads place later =>
      rw [Nat.add_assoc offset, ← Text.byteLength_append] at place later
      rw [← List.append_assoc]
      exact .token (.append skipped inGap) reads place later

/-- A text that is cut up completely is tiled by its tokens. -/
theorem tiling_of_cut {text : List Char} (offset : Nat) (complete : (Cut.ofText text).rest = []) :
    Tiling offset text (tokensFrom offset (Cut.ofText text).pieces) := by
  fun_induction Cut.ofText text generalizing offset with
  | case1 =>
      cases complete
      exact .gap .nil
  | case2 text rule lexeme found _ cut ih =>
      obtain ⟨known, taken⟩ := LexicalRule.first?_mem found
      obtain ⟨rest, rfl⟩ := LexicalRule.lexeme?_isPrefix taken
      have later := ih (offset + Text.byteLength lexeme) complete
      have remains : cut = Cut.ofText rest := congrArg Cut.ofText List.drop_left
      rw [List.drop_left] at later
      rw [tokensFrom, remains]
      -- a lexeme that makes no token joins the gap before the next one
      cases made : rule.token? lexeme with
      | none => exact .skip (LexicalRule.skipped_of_token?_eq_none taken made) later
      | some pair =>
          have reads := LexicalRule.reads_of_token? known taken made
          change Tiling offset ([] ++ (lexeme ++ rest)) _
          exact .token .nil (reads _) rfl later

namespace Span

/-- In `source`, the bytes of the span are those of `text`. -/
def Shows (source : List Char) (span : Span) (text : List Char) : Prop :=
  ∃ before after, source = before ++ (text ++ after) ∧
    Text.byteLength before = span.start.toNat ∧
    span.start.toNat + Text.byteLength text = span.stop.toNat

theorem Shows.stop_le {source text : List Char} {span : Span} (shows : span.Shows source text) :
    span.stop.toNat ≤ Text.byteLength source := by
  obtain ⟨before, after, split, place, length⟩ := shows
  have total := congrArg Text.byteLength split
  simp only [Text.byteLength_append] at total
  omega

theorem Shows.start_lt_stop {source text : List Char} {span : Span}
    (shows : span.Shows source text) (nonempty : text ≠ []) : span.start < span.stop := by
  obtain ⟨before, after, split, place, length⟩ := shows
  have positive := List.length_pos_iff.2 nonempty
  have bytes := Text.length_le_byteLength text
  rw [UInt32.lt_iff_toNat_lt]
  omega

/-- In `source`, only blanks and comments stand between the two spans. -/
def Apart (source : List Char) (first second : Span) : Prop :=
  ∃ before gap after, source = before ++ (gap ++ after) ∧
    Text.byteLength before = first.stop.toNat ∧
    first.stop.toNat + Text.byteLength gap = second.start.toNat ∧ Text.Skipped after gap

theorem toNat_ofLength {start length : Nat} (short : start + length < UInt32.size) :
    (ofLength start length).start.toNat = start ∧
      (ofLength start length).stop.toNat = start + length := by
  have startShort : start < UInt32.size := by omega
  exact ⟨UInt32.toNat_ofNat_of_lt' startShort, UInt32.toNat_ofNat_of_lt' short⟩

end Span

/-- Tokens that tile the end of a source stand there, in order, and with gaps between them. -/
theorem Tiling.spans {offset : Nat} {text : List Char} {tokens : List Token}
    (tiling : Tiling offset text tokens) {source : List Char} (front : List Char) (ending : Span)
    (split : source = front ++ text) (place : Text.byteLength front = offset)
    (short : Text.byteLength source < UInt32.size)
    (atEnd : ending.start.toNat = Text.byteLength source) :
    (∀ previous : Span, previous.stop.toNat = offset →
      List.IsChain (Span.Apart source) (previous :: (tokens.map Token.span ++ [ending]))) ∧
    (∀ token ∈ tokens, offset ≤ token.span.start.toNat ∧
      ∃ written, token.Reads written ∧ token.span.Shows source written) ∧
    tokens.Pairwise fun first second => first.span.stop ≤ second.span.start := by
  have total := congrArg Text.byteLength split
  induction tiling generalizing front with
  | @gap offset gap inGap =>
      simp only [Text.byteLength_append] at total
      refine ⟨?_, List.forall_mem_nil _, .nil⟩
      intro previous isPrevious
      apply List.isChain_pair.2
      refine ⟨front, gap, [], by rw [split, List.append_nil], ?_, ?_, inGap⟩ <;> omega
  | @token offset gap text rest token tokens inGap reads isSpan _ ih =>
      simp only [Text.byteLength_append] at total
      have places : token.span.start.toNat = offset + Text.byteLength gap ∧
          token.span.stop.toNat = offset + Text.byteLength gap + Text.byteLength text := by
        rw [isSpan]
        apply Span.toNat_ofLength
        omega
      obtain ⟨start, stop⟩ := places
      have regrouped : source = front ++ (gap ++ text) ++ rest := by
        rw [split]
        simp only [List.append_assoc]
      have behind : Text.byteLength (front ++ (gap ++ text)) =
          offset + Text.byteLength gap + Text.byteLength text := by
        simp only [Text.byteLength_append]
        omega
      obtain ⟨chain, each, ordered⟩ := ih _ regrouped behind (congrArg Text.byteLength regrouped)
      refine ⟨?_, List.forall_mem_cons.2 ⟨⟨?_, text, reads, ?_⟩, ?_⟩,
        List.pairwise_cons.2 ⟨?_, ordered⟩⟩
      · intro previous isPrevious
        apply List.IsChain.cons_cons
        · refine ⟨front, gap, text ++ rest, split, ?_, ?_, inGap⟩ <;> omega
        · exact chain token.span stop
      · omega
      · refine ⟨front ++ gap, rest, by rw [split, List.append_assoc], ?_, ?_⟩
        · rw [Text.byteLength_append]
          omega
        · omega
      · intro later member
        obtain ⟨after, shown⟩ := each later member
        exact ⟨by omega, shown⟩
      · intro later member
        have after := (each later member).1
        rw [UInt32.le_iff_toNat_le]
        omega

/-- What the tokens of `source` are: a mark at its end, and before it tokens in order, each at the
bytes it is written in. -/
structure Tiles (source : List Char) (tokens : List Token) : Prop where
  marked : ∃ inner mark, tokens = inner ++ [mark] ∧ (∀ token ∈ inner, token.kind ≠ .eof) ∧
    mark.kind = .eof ∧ mark.span.start.toNat = Text.byteLength source ∧
    mark.span.stop.toNat = Text.byteLength source
  ordered : tokens.Pairwise fun first second => first.span.stop ≤ second.span.start
  nonempty : ∀ token ∈ tokens, token.kind ≠ .eof → token.span.start < token.span.stop
  inside : ∀ token ∈ tokens, ∃ text, token.span.Shows source text
  apart : List.IsChain (Span.Apart source) (Span.point 0 :: tokens.map Token.span)
  plain : ∀ token ∈ tokens, token.kind ≠ .eof → token.kind ≠ .string →
    token.span.Shows source token.value.toList
  quoted : ∀ token ∈ tokens, token.kind = .string →
    ∃ body, token.span.Shows source ('"' :: (body ++ ['"'])) ∧
      Escape.Denotes body token.value.toList

theorem Tiling.tiles {source : List Char} {tokens : List Token} (tiling : Tiling 0 source tokens)
    (short : Text.byteLength source < UInt32.size) :
    Tiles source (tokens ++ [Token.endOfInput (UInt32.ofNat (Text.byteLength source))]) := by
  generalize isMark : Token.endOfInput (UInt32.ofNat (Text.byteLength source)) = mark
  have atEnd : (UInt32.ofNat (Text.byteLength source)).toNat = Text.byteLength source :=
    UInt32.toNat_ofNat_of_lt' short
  have marks : mark.kind = .eof := by rw [← isMark]; rfl
  have start : mark.span.start.toNat = Text.byteLength source := by rw [← isMark]; exact atEnd
  have stop : mark.span.stop.toNat = Text.byteLength source := by rw [← isMark]; exact atEnd
  obtain ⟨chain, each, ordered⟩ :=
    tiling.spans [] mark.span (List.nil_append source).symm rfl short start
  have written : ∀ token ∈ tokens ++ [mark], token.kind ≠ .eof →
      ∃ text, token.Reads text ∧ token.span.Shows source text := by
    intro token member notEnd
    rcases List.mem_append.1 member with inner | last
    · exact (each token inner).2
    · exact absurd (List.mem_singleton.1 last ▸ marks) notEnd
  constructor
  · refine ⟨tokens, mark, rfl, ?_, marks, start, stop⟩
    intro token member
    obtain ⟨-, text, reads, -⟩ := each token member
    exact reads.notEnd
  · apply List.pairwise_append.2
    refine ⟨ordered, List.pairwise_singleton _ _, ?_⟩
    intro token member last isLast
    obtain ⟨-, text, -, shows⟩ := each token member
    have before := shows.stop_le
    rw [List.mem_singleton.1 isLast, UInt32.le_iff_toNat_le]
    omega
  · intro token member notEnd
    obtain ⟨text, reads, shows⟩ := written token member notEnd
    exact shows.start_lt_stop reads.nonempty
  · intro token member
    rcases List.mem_append.1 member with inner | last
    · obtain ⟨-, text, -, shows⟩ := each token inner
      exact ⟨text, shows⟩
    · rw [List.mem_singleton.1 last]
      refine ⟨[], source, [], by simp, start.symm, ?_⟩
      rw [start, stop, Text.byteLength_nil, Nat.add_zero]
  · rw [List.map_append]
    exact chain (Span.point 0) rfl
  · intro token member notEnd notString
    obtain ⟨text, reads, shows⟩ := written token member notEnd
    rwa [reads.plain notString]
  · intro token member isString
    have notEnd : token.kind ≠ .eof := by rw [isString]; exact TokenKind.noConfusion
    obtain ⟨text, reads, shows⟩ := written token member notEnd
    obtain ⟨body, rfl, denotes⟩ := reads.quoted isString
    exact ⟨body, shows, denotes⟩

theorem Cut.first?_rest (text : List Char) : LexicalRule.first? (ofText text).rest = none := by
  fun_induction ofText text with
  | case1 text nothing => exact nothing
  | case2 text rule lexeme found _ cut ih => exact ih

/-- A source text either has tokens, which tile it, or is refused for the first character from which
no rule takes anything. -/
theorem tokenize_tiles (source : String) (short : Text.byteLength source.toList < UInt32.size) :
    (∃ tokens, tokenize source = .ok tokens ∧ Tiles source.toList tokens) ∨
      ∃ front c rest, source.toList = front ++ c :: rest ∧
        LexicalRule.first? (c :: rest) = none ∧
        tokenize source = .error (.atOffset (.unrecognisedToken (String.singleton c))
          (UInt32.ofNat (Text.byteLength front))) := by
  have joined := Cut.flatMap_lexeme_append_rest source.toList
  have stuck := Cut.first?_rest source.toList
  simp only [tokenize, Cut.byteLength]
  cases left : (Cut.ofText source.toList).rest with
  | nil =>
      rw [left, List.append_nil] at joined
      rw [joined]
      exact Or.inl ⟨_, rfl, (tiling_of_cut 0 left).tiles short⟩
  | cons c rest =>
      rw [left] at joined stuck
      exact Or.inr ⟨_, c, rest, joined.symm, stuck, rfl⟩

/-- A literal with a character of two bytes and two escapes, one of them without a meaning. -/
theorem tokenize_tiles_literal :
    let source := "$g += \"né\\\"\\q\" // é"
    let tokens : List Token := [⟨.variableName, "$g", ⟨0, 2⟩⟩, ⟨.plusEquals, "+=", ⟨3, 5⟩⟩,
      ⟨.string, "né\"\\q", ⟨6, 15⟩⟩, ⟨.eof, "EOF", ⟨21, 21⟩⟩]
    Text.byteLength source.toList < UInt32.size ∧ tokenize source = .ok tokens ∧
      Tiles source.toList tokens := by
  intro source tokens
  have short : Text.byteLength source.toList < UInt32.size := by decide
  have scanned : (tokenize source).toOption = some tokens := by decide +kernel
  rcases tokenize_tiles source short with ⟨found, success, tiles⟩ | ⟨_, _, _, _, _, failure⟩
  · rw [success] at scanned
    cases scanned
    exact ⟨short, success, tiles⟩
  · rw [failure] at scanned
    cases scanned

end DialogueTyping
