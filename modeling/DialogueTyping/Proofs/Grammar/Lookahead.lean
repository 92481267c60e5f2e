import DialogueTyping.Proofs.Grammar.Twins

set_option autoImplicit false

namespace DialogueTyping

open Grammar

theorem Token.Alike.matches {first second : Token} (alike : first.Alike second)
    (own : ∀ word ∈ first.kind.typeWord?, first.value = word)
    (otherOwn : ∀ word ∈ second.kind.typeWord?, second.value = word) : first.Matches second where
  toAlike := alike
  typeName word named := by
    rw [own word named, otherOwn word (alike.kind ▸ named)]

/-- Whole lists of tokens that match. What is said about a token may show its value, so only the
kinds of problems are the same. -/
def Twins.matching : Twins where
  tokens := Token.Matches
  problems first second := first.name = second.name
  rest := []
  other := []
  refl _ := ⟨⟨rfl, fun _ => rfl⟩, fun _ _ => rfl⟩
  alike := id
  same _ := rfl
  unexpected _ := rfl
  unmet _ _ := rfl

theorem Cursor.matches_ofTokens {tokens others : List Token} (lexed : Token.Lexed tokens)
    (otherLexed : Token.Lexed others) (alike : List.Forall₂ Token.Alike tokens others) :
    List.Forall₂ Token.Matches (ofTokens tokens).tokens (ofTokens others).tokens := by
  have own := lexed.ownWords
  have otherOwn := otherLexed.ownWords
  refine List.rel_append ?_ (.cons ?_ .nil)
  · rw [ahead_ofTokens lexed.endsOnce, ahead_ofTokens otherLexed.endsOnce]
    clear lexed otherLexed
    induction alike with
    | nil => exact .nil
    | @cons token other tokens others head _ ih =>
        obtain ⟨ownHead, ownTail⟩ := List.forall_mem_cons.1 own
        obtain ⟨otherOwnHead, otherOwnTail⟩ := List.forall_mem_cons.1 otherOwn
        have rest := ih ownTail otherOwnTail
        simp only [Token.beforeEnd, List.takeWhile_cons, head.kind] at rest ⊢
        split
        · exact .cons (head.matches ownHead otherOwnHead) rest
        · exact .nil
  · have ends := kind_last_ofTokens tokens
    have otherEnds := kind_last_ofTokens others
    refine ⟨⟨ends.trans otherEnds.symm, ?_⟩, ?_⟩
    · rw [ends]
      intro carried
      cases carried
    · rw [ends]
      intro _ named
      cases named

/-- Lists of tokens that are alike spell expressions that are alike, or both spell none for the same
kind of problem. -/
theorem Expr.ofTokens_alike {tokens others : List Token} (lexed : Token.Lexed tokens)
    (otherLexed : Token.Lexed others) (alike : List.Forall₂ Token.Alike tokens others) :
    (∃ e other, ofTokens tokens = .ok e ∧ ofTokens others = .ok other ∧ e.Alike other) ∨
    ∃ report other, ofTokens tokens = .error report ∧ ofTokens others = .error other ∧
      report.problem.name = other.problem.name := by
  have same := Cursor.matches_ofTokens lexed otherLexed alike
  have some (cursor : Cursor) : cursor.tokens ≠ [] := List.concat_ne_nil _ _
  rcases Twins.matching.inStep_ofTokens same (some _) (List.append_nil _).symm
    (List.append_nil _).symm with read | failed | far
  · exact Or.inl read
  · exact Or.inr failed
  · exact absurd (List.length_eq_zero_iff.1 (Nat.le_zero.1 far)) (some _)

theorem Token.matches_of_word {first second : Token} (same : first.word = second.word) :
    first.Matches second := by
  obtain ⟨kind, value⟩ := Prod.mk.inj same
  exact ⟨⟨kind, fun _ => value⟩, fun _ _ => value⟩

/-- Lists that start with the same words. -/
def Twins.ofWords (rest other : List Token) : Twins where
  tokens first second := first.word = second.word
  problems := Eq
  rest := rest
  other := other
  refl _ := rfl
  alike := Token.matches_of_word
  same _ := rfl
  unexpected same := by rw [(Prod.mk.inj same).2]
  unmet _ same := by rw [(Prod.mk.inj same).2]

theorem Cursor.ofTokens_append_mark {front : List Token} {last : Token} (marks : last.kind = .eof) :
    ofTokens (front ++ [last]) = ⟨front, last, 0⟩ := by
  rw [ofTokens, List.getLast?_concat]
  simp only [marks, ↓reduceIte, List.dropLast_concat]

theorem Cursor.exists_tokens_ofTokens (front rest : List Token) :
    ∃ more, (ofTokens (front ++ rest)).tokens = front ++ more := by
  rcases tokens_ofTokens (front ++ rest) with same | same
  · exact ⟨rest, same⟩
  · exact ⟨_, same.trans (List.append_assoc _ _ _)⟩

/-- Tokens that start with the words which were looked at until reading gave up are not read. -/
theorem Expr.ofTokens_of_words {tokens others front rest : List Token} {stopped : Cursor}
    {report : Diagnostic}
    (failed : standard.readAll.run (Cursor.ofTokens tokens) = .error report stopped)
    (split : (Cursor.ofTokens tokens).tokens = front ++ rest)
    (within : rest.length < stopped.tokens.length)
    (nonempty : front ≠ [])
    (words : (others.take front.length).map Token.word = front.map Token.word) :
    ∃ other, ofTokens others = .error other ∧ other.problem = report.problem := by
  obtain ⟨more, twinSplit⟩ :=
    Cursor.exists_tokens_ofTokens (others.take front.length) (others.drop front.length)
  rw [List.take_append_drop] at twinSplit
  have same : List.Forall₂ (Twins.ofWords rest more).tokens front (others.take front.length) := by
    have equal : List.Forall₂ Eq (front.map Token.word)
        ((others.take front.length).map Token.word) :=
      words ▸ List.forall₂_refl _
    rw [List.forall₂_map_left_iff, List.forall₂_map_right_iff] at equal
    exact equal
  have gaveUp : ofTokens tokens = .error report := by rw [ofTokens, Reading.runOn, failed]
  rcases (Twins.ofWords rest more).inStep_ofTokens same nonempty split twinSplit with
    ⟨_, _, read, -⟩ | ⟨_, other, twinGaveUp, unread, problem⟩ | far
  · rw [gaveUp] at read
    cases read
  · rw [gaveUp] at twinGaveUp
    cases twinGaveUp
    exact ⟨other, unread, problem.symm⟩
  · rw [failed] at far
    exact absurd within (Nat.not_lt.2 far)

end DialogueTyping
