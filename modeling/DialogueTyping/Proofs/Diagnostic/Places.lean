import DialogueTyping.Proofs.Grammar.FirstBadToken
import DialogueTyping.Proofs.Grammar.Spans
import DialogueTyping.Proofs.Token.Layout
import DialogueTyping.Proofs.Token.Refused
import DialogueTyping.Proofs.Typing.Blame

set_option autoImplicit false

namespace DialogueTyping

namespace Text

theorem append_inj_of_byteLength {front rest twinFront twinRest : List Char}
    (same : front ++ rest = twinFront ++ twinRest)
    (length : byteLength front = byteLength twinFront) : front = twinFront ∧ rest = twinRest := by
  have behind := dropBytes?_byteLength_append front rest
  rw [same, length, dropBytes?_byteLength_append] at behind
  cases behind
  exact ⟨List.append_cancel_right same, rfl⟩

/-- Of two splits of a text, the one with fewer bytes in front is the earlier one. -/
theorem append_eq_append_of_le {front rest twinFront twinRest : List Char}
    (same : front ++ rest = twinFront ++ twinRest)
    (le : byteLength front ≤ byteLength twinFront) :
    ∃ between, twinFront = front ++ between ∧ rest = between ++ twinRest := by
  rcases List.append_eq_append_iff.1 same with found | ⟨between, rfl, rfl⟩
  · exact found
  · rw [byteLength_append] at le
    have none : between = [] := by
      have atLeast := length_le_byteLength between
      exact List.length_eq_zero_iff.1 (by omega)
    subst none
    exact ⟨[], (List.append_nil _).symm.trans (List.append_nil _).symm, rfl⟩

end Text

namespace Span

open Text (byteLength isBlank)

/-- The span starts at the end of `source` or before a character that is no blank, and both its ends
are between characters. -/
def Anchored (source : List Char) (span : Span) : Prop :=
  ∃ before text after, source = before ++ (text ++ after) ∧
    byteLength before = span.start.toNat ∧
    span.start.toNat + byteLength text = span.stop.toNat ∧
    ∀ c ∈ (text ++ after).head?, isBlank c = false

variable {source text before rest : List Char} {span : Span} {offset : Offset}

theorem anchored_point (split : source = before ++ rest) (place : byteLength before = offset.toNat)
    (solid : ∀ c ∈ rest.head?, isBlank c = false) : (Span.point offset).Anchored source :=
  ⟨before, [], rest, split, place, rfl, solid⟩

theorem Shows.anchored (shows : span.Shows source text)
    (starts : (Span.point span.start).Anchored source) : span.Anchored source := by
  obtain ⟨before, after, split, place, length⟩ := shows
  obtain ⟨front, middle, back, regrouped, twinPlace, -, solid⟩ := starts
  have same := Text.append_inj_of_byteLength (regrouped.symm.trans split)
    (twinPlace.trans place.symm)
  rw [same.2] at solid
  exact ⟨before, text, after, split, place, length, solid⟩

end Span

theorem tiles_of_tokenize {source : String} {tokens : List Token}
    (short : Text.byteLength source.toList < UInt32.size) (scanned : tokenize source = .ok tokens) :
    Tiles source.toList tokens := by
  have joined := Cut.flatMap_lexeme_append_rest source.toList
  simp only [tokenize, Cut.byteLength] at scanned
  split at scanned
  · rename_i left
    cases scanned
    rw [left, List.append_nil] at joined
    rw [joined]
    exact (tiling_of_cut 0 left).tiles short
  · cases scanned

namespace LexicalRule

theorem IsName.head_notBlank {text : List Char} (named : IsName text) :
    ∃ c rest, text = c :: rest ∧ Text.isBlank c = false := by
  obtain ⟨c, rest, rfl, start, -⟩ := named
  have bounds := toNat_of_isNameStart start
  exact ⟨c, rest, rfl, Text.isBlank_eq_false (by omega) (by omega)⟩

theorem IsDigits.head_notBlank {text : List Char} (digits : IsDigits text) :
    ∃ c rest, text = c :: rest ∧ Text.isBlank c = false := by
  obtain ⟨c, rest, rfl⟩ := List.exists_cons_of_ne_nil digits.1
  have bounds := toNat_of_isDigit (digits.2 c List.mem_cons_self)
  exact ⟨c, rest, rfl, Text.isBlank_eq_false (by omega) (by omega)⟩

theorem head_notBlank_of_mem_symbols {kind : TokenKind} {spelling : String}
    (listed : (kind, spelling) ∈ symbols) :
    ∃ c rest, spelling.toList = c :: rest ∧ Text.isBlank c = false := by
  have each : ∀ entry ∈ symbols, entry.2.toList.head?.any (!Text.isBlank ·) := by
    decide
  have solid := each _ listed
  cases spelled : spelling.toList with
  | nil =>
      rw [spelled] at solid
      cases solid
  | cons c rest =>
      rw [spelled] at solid
      exact ⟨c, rest, rfl, by simpa using solid⟩

theorem notBlank_of_first? {c : Char} {rest : List Char} (stuck : first? (c :: rest) = none) :
    Text.isBlank c = false := by
  have blanks := List.findSome?_eq_none_iff.1 stuck .blanks List.mem_cons_self
  simpa [lexeme?, run?] using blanks

end LexicalRule

theorem Spellable.head_notBlank {kind : TokenKind} {value : String} (spellable : Spellable kind value)
    (notString : kind ≠ .string) :
    ∃ c rest, value.toList = c :: rest ∧ Text.isBlank c = false := by
  cases spellable with
  | number numeral =>
      rcases numeral with digits | ⟨whole, part, split, digits, -⟩
      · exact digits.head_notBlank
      · obtain ⟨c, rest, rfl, solid⟩ := digits.head_notBlank
        exact ⟨c, rest ++ '.' :: part, split, solid⟩
  | @variableName name => exact ⟨'$', name, String.toList_ofList, by decide⟩
  | identifier named => exact named.head_notBlank
  | reserved listed => exact (LexicalRule.isName_of_mem_reserved listed).head_notBlank
  | symbol listed => exact LexicalRule.head_notBlank_of_mem_symbols listed
  | string => exact absurd rfl notString

theorem anchored_of_mem_tokens {source : String} {tokens : List Token} {token : Token}
    (short : Text.byteLength source.toList < UInt32.size) (scanned : tokenize source = .ok tokens)
    (member : token ∈ tokens) : (Span.point token.span.start).Anchored source.toList := by
  have tiles := tiles_of_tokenize short scanned
  by_cases marks : token.kind = .eof
  · obtain ⟨inner, mark, rfl, inside, -, start, -⟩ := tiles.marked
    have isMark : token = mark := by
      rcases List.mem_append.1 member with early | last
      · exact absurd marks (inside token early)
      · exact List.mem_singleton.1 last
    rw [isMark]
    exact Span.anchored_point (List.append_nil _).symm start.symm (by simp)
  by_cases quoted : token.kind = .string
  · obtain ⟨body, ⟨before, after, split, place, -⟩, -⟩ := tiles.quoted token member quoted
    refine Span.anchored_point split place ?_
    rintro c ⟨⟩
    decide
  · obtain ⟨before, after, split, place, -⟩ := tiles.plain token member marks quoted
    obtain ⟨c, rest, spelled, solid⟩ :=
      (spellable_of_tokenize scanned token member marks).head_notBlank quoted
    rw [spelled] at split
    refine Span.anchored_point split place ?_
    rintro _ ⟨⟩
    exact solid

theorem anchored_of_tokenize {source : String} {report : Diagnostic}
    (short : Text.byteLength source.toList < UInt32.size) (failed : tokenize source = .error report) :
    report.span.Anchored source.toList := by
  simp only [tokenize] at failed
  split at failed
  · cases failed
  · rename_i c rest left
    cases failed
    have stops := stopsAt_of_rest left
    have total := congrArg Text.byteLength stops.split
    rw [Text.byteLength_append] at total
    refine Span.anchored_point stops.split (UInt32.toNat_ofNat_of_lt' ?_).symm ?_
    · omega
    · rintro _ ⟨⟩
      exact LexicalRule.notBlank_of_first? (left ▸ Cut.first?_rest source.toList)

theorem Expr.anchored_of_ofSource {source : String} {report : Diagnostic}
    (short : Text.byteLength source.toList < UInt32.size) (failed : ofSource source = .error report) :
    report.span.Anchored source.toList := by
  rw [ofSource] at failed
  cases scanned : tokenize source with
  | error other =>
      rw [scanned] at failed
      cases failed
      exact anchored_of_tokenize short scanned
  | ok tokens =>
      rw [scanned] at failed
      obtain ⟨problem, token, member, rfl⟩ :=
        exists_token_of_ofTokens (lexed_of_tokenize scanned) failed
      obtain ⟨front, last, rfl, marks⟩ := tokenize_eq_append_mark scanned
      rw [Cursor.ofTokens_append_mark marks] at member
      exact anchored_of_mem_tokens short scanned member

/-- A part of an expression starts where its first token starts. -/
theorem Expr.anchored_of_within {source : String} {expr node : Expr}
    (short : Text.byteLength source.toList < UInt32.size) (read : ofSource source = .ok expr)
    (within : node.Within expr) : node.span.Anchored source.toList := by
  obtain ⟨tokens, scanned, accepted⟩ := tokenize_of_ofSource read
  have placed := placed_of_ofTokens (lexed_of_tokenize scanned) accepted
  obtain ⟨run, inside, placedNode⟩ := placed.exists_infix within
  obtain ⟨text, -, shows, -⟩ := tokenize_slice short scanned inside placedNode.covers
  obtain ⟨token, rest, rfl, start⟩ := placedNode.covers.exists_start
  have member := Token.mem_of_mem_beforeEnd (inside.subset List.mem_cons_self)
  apply shows.anchored
  rw [← start]
  exact anchored_of_mem_tokens short scanned member.1

theorem Check.anchored_source {constant : Bool} {source : String} {table after : Table}
    {diagnostic : Diagnostic} (short : Text.byteLength source.toList < UInt32.size)
    (reported : (Check.source constant source).outcome table = (.error (.report diagnostic), after)) :
    diagnostic.span.Anchored source.toList := by
  unfold Check.source at reported
  split at reported
  · rename_i expr read
    obtain ⟨node, problem, within, ⟨⟩, -⟩ := blames_expr reported
    exact Expr.anchored_of_within short read within
  · rename_i report failed
    cases reported
    exact Expr.anchored_of_ofSource short failed

end DialogueTyping
