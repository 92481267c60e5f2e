import DialogueTyping.Proofs.Grammar.Completeness
import DialogueTyping.Proofs.Grammar.Lookahead
import DialogueTyping.Proofs.Grammar.Soundness

set_option autoImplicit false

namespace DialogueTyping

open Cursor Grammar Reading

/-- Some tokens behind these make them what the item is read as. -/
def Item.Starts (item : Item) (tokens : List Token) : Prop :=
  ∃ (more : List Token) (part : item.Part), item.Spells part (tokens ++ more) ∧ item.Shaped part

def Parts.Starts (items : List Item) (tokens : List Token) : Prop :=
  ∃ (more : List Token) (parts : Parts items), Spells items parts (tokens ++ more) ∧
    Shaped items parts

/-- Some tokens behind these make them a list of arguments. -/
def Expr.StartsAll (tokens : List Token) : Prop :=
  ∃ (more : List Token) (arguments : List Expr), arguments ≠ [] ∧
    SpellsAll arguments (tokens ++ more) ∧ ∀ argument ∈ arguments, argument.Shaped

section Starts

variable {item : Item} {items : List Item} {power : BindingPower} {token : Token}
  {front tokens : List Token} {production : Production}

/-- For an operand, any literal will do. -/
theorem Item.starts_nil (item : Item) : item.Starts [] := by
  cases item with
  | openParen => exact ⟨[⟨.openParen, "(", .point 0⟩], _, ⟨rfl, rfl⟩, trivial⟩
  | operand =>
      exact ⟨[⟨.trueWord, "true", .point 0⟩], .atom .blank (.literal .blank (.bool true)),
        .atom (.literal rfl), .literal, .of_power?_none rfl⟩
  | arguments => exact ⟨[], [], .nil, List.forall_mem_nil _⟩
  | closeParen => exact ⟨[⟨.closeParen, ")", .point 0⟩], _, ⟨rfl, rfl⟩, trivial⟩

theorem Parts.starts_nil (items : List Item) : Starts items [] := by
  induction items with
  | nil => exact ⟨[], (), rfl, trivial⟩
  | cons item items ih =>
      obtain ⟨first, part, spelled, shaped⟩ := item.starts_nil
      obtain ⟨rest, parts, spelledRest, shapedRest⟩ := ih
      exact ⟨first ++ rest, (part, parts), ⟨first, rest, spelled, spelledRest, rfl⟩, shaped,
        shapedRest⟩

theorem Item.Starts.parts (starts : item.Starts tokens) (items : List Item) :
    Parts.Starts (item :: items) tokens := by
  obtain ⟨more, part, spelled, shaped⟩ := starts
  obtain ⟨rest, parts, spelledRest, shapedRest⟩ := Parts.starts_nil items
  exact ⟨more ++ rest, (part, parts),
    ⟨_, rest, spelled, spelledRest, (List.append_assoc _ _ _).symm⟩, shaped, shapedRest⟩

theorem Parts.Starts.cons {part : item.Part} (spelled : item.Spells part front)
    (shaped : item.Shaped part) (starts : Starts items tokens) :
    Starts (item :: items) (front ++ tokens) := by
  obtain ⟨more, parts, spelledRest, shapedRest⟩ := starts
  exact ⟨more, (part, parts), ⟨front, _, spelled, spelledRest, List.append_assoc _ _ _⟩, shaped,
    shapedRest⟩

theorem LeadingRule.Takes.starts {rule : LeadingRule} (takes : rule.Takes token production)
    (own : ∀ word ∈ token.kind.typeWord?, token.value = word)
    (starts : Parts.Starts production.items tokens) :
    (Item.operand power).Starts (token :: tokens) := by
  obtain ⟨more, parts, spelled, shaped⟩ := starts
  obtain ⟨whole, plain⟩ := takes.shaped own shaped .blank .blank
  exact ⟨more, production.node parts .blank .blank,
    Production.spells_node (takes.spells own spelled .blank) .blank, whole, .of_power?_none plain⟩

theorem TrailingRule.Takes.starts {rule : TrailingRule} {tighter : BindingPower} {left : Expr}
    (takes : rule.Takes left token tighter production) (spelledLeft : left.Spells front)
    (shapedLeft : left.Shaped) (before : left.StandsBefore tighter) (binds : power < tighter)
    (starts : Parts.Starts production.items tokens) :
    (Item.operand power).Starts (front ++ token :: tokens) := by
  obtain ⟨more, parts, spelled, shaped⟩ := starts
  obtain ⟨whole, outermost⟩ := takes.shaped shapedLeft before shaped .blank .blank
  refine ⟨more, production.node parts .blank .blank, ?_, whole, ?_⟩
  · rw [List.append_assoc, List.cons_append]
    exact Production.spells_node (takes.spells spelledLeft shapedLeft spelled .blank) .blank
  · intro outer known
    rw [outermost] at known
    cases known
    exact binds

theorem Item.Starts.single (starts : (Item.operand .lowest).Starts tokens) :
    Expr.StartsAll tokens := by
  obtain ⟨more, argument, spelled, shaped, -⟩ := starts
  exact ⟨more, [argument], List.cons_ne_nil _ _, .single spelled,
    List.forall_mem_singleton.2 shaped⟩

theorem Expr.StartsAll.cons {argument : Expr} {comma : Token} (spelled : argument.Spells front)
    (shaped : argument.Shaped) (kind : comma.kind = .comma) (starts : StartsAll tokens) :
    StartsAll (front ++ comma :: tokens) := by
  obtain ⟨more, others, nonempty, spelledOthers, shapedOthers⟩ := starts
  refine ⟨more, argument :: others, List.cons_ne_nil _ _, ?_,
    List.forall_mem_cons.2 ⟨shaped, shapedOthers⟩⟩
  cases others with
  | nil => exact absurd rfl nonempty
  | cons next others =>
      rw [List.append_assoc, List.cons_append]
      exact .cons spelled kind spelledOthers

end Starts

/-- The ways to give up at `stopped`, with what is reported. `starts` holds of the tokens that can
go on to what is read from `cursor` on. -/
inductive GivesUp (starts : List Token → Prop) (cursor : Cursor) (report : Diagnostic)
    (stopped : Cursor) : Prop
  -- what was taken can go on, but the next token is not as it has to be
  | stuck {taken : List Token} : Takes taken cursor stopped → starts taken →
      (report = stopped.unexpected ∨ ∃ expectation, report = unmet expectation stopped) →
      GivesUp starts cursor report stopped
  -- what starts with the token cannot be assigned to
  | target {token : Token} : token ∈ cursor.ahead →
      report = .atOffset .invalidAssignmentTarget token.span.start →
      GivesUp starts cursor report stopped
  -- the token is no numeral, though it is of that kind
  | numeral {token : Token} : token ∈ cursor.ahead → token.kind = .number →
      Numeral.read? token.value.toList = none →
      report = .atOffset (.invalidNumber token.value) token.span.start →
      GivesUp starts cursor report stopped

/-- What gives up inside also gives up outside, with the tokens in front of the inner ones. -/
theorem GivesUp.lift {inner outer : List Token → Prop} {cursor between stopped : Cursor}
    {report : Diagnostic} {front : List Token} (before : Takes front cursor between)
    (starts : ∀ taken, inner taken → outer (front ++ taken))
    (givesUp : GivesUp inner between report stopped) : GivesUp outer cursor report stopped := by
  have inside {token : Token} (member : token ∈ between.ahead) : token ∈ cursor.ahead :=
    before.ahead ▸ List.mem_append_right _ member
  cases givesUp with
  | stuck taken viable cause => exact .stuck (before.trans taken) (starts _ viable) cause
  | target member place => exact .target (inside member) place
  | numeral member kind unread place => exact .numeral (inside member) kind unread place

theorem GivesUp.mono {inner outer : List Token → Prop} {cursor stopped : Cursor}
    {report : Diagnostic} (starts : ∀ taken, inner taken → outer taken)
    (givesUp : GivesUp inner cursor report stopped) : GivesUp outer cursor report stopped := by
  have nothing : Takes [] cursor cursor := ⟨rfl, rfl⟩
  exact givesUp.lift nothing starts

/-- Operands give up in these ways where fewer than `limit` tokens are ahead. -/
def OperandReading.GivesUp (limit : Nat) (operand : OperandReading) : Prop :=
  ∀ {power cursor report stopped}, cursor.Proper → cursor.ahead.length < limit →
    (operand power).run cursor = .error report stopped →
    DialogueTyping.GivesUp (Item.operand power).Starts cursor report stopped

section Items

variable {operand : OperandReading} {limit : Nat} {cursor stopped : Cursor} {report : Diagnostic}
  (stepwise : operand.Stepwise limit) (givesUp : operand.GivesUp limit)

theorem Cursor.Takes.current_mem {front : List Token} {after : Cursor}
    (taken : Takes front cursor after) (some : 0 < front.length) :
    cursor.current ∈ cursor.ahead := by
  obtain ⟨token, rest, rfl⟩ := List.exists_cons_of_length_pos some
  rw [current, taken.ahead]
  exact List.mem_cons_self

theorem GivesUp.of_expect {item : Item} {kind : TokenKind}
    (failed : (expect kind).run cursor = .error report stopped) :
    GivesUp item.Starts cursor report stopped := by
  obtain ⟨-, rfl, rfl⟩ := expect_eq_error_iff.1 failed
  exact .stuck ⟨rfl, rfl⟩ item.starts_nil (Or.inr ⟨_, rfl⟩)

include stepwise givesUp

theorem readArguments_givesUp {count : Nat} (proper : cursor.Proper)
    (short : cursor.ahead.length < limit)
    (failed : (Item.readArguments operand count).run cursor = .error report stopped) :
    GivesUp Expr.StartsAll cursor report stopped := by
  induction count generalizing cursor with
  | zero => cases failed
  | succ count ih =>
      rcases Item.readArguments_succ_eq_error failed with
        failed | ⟨argument, between, read, comma, failed⟩
      · exact (givesUp proper short failed).mono fun _ starts => starts.single
      · obtain ⟨⟨⟨front, taken, spelled⟩, shaped, -⟩, -⟩ :=
          (stepwise proper.marked short read).1.sound proper
        have here := taken.proper proper
        have step := here.takes_next (by rw [comma]; decide)
        have length := taken.length
        have fewer := step.length
        apply (ih (step.proper here) (by omega) failed).lift (taken.trans step)
        intro later starts
        rw [List.append_assoc]
        exact starts.cons spelled shaped comma

theorem item_givesUp {item : Item} (proper : cursor.Proper) (short : cursor.ahead.length < limit)
    (failed : (item.read operand).run cursor = .error report stopped) :
    GivesUp item.Starts cursor report stopped := by
  cases item with
  | openParen | closeParen => exact .of_expect failed
  | operand => exact givesUp proper short failed
  | arguments =>
      rw [Item.run_arguments] at failed
      split at failed
      · cases failed
      · apply (readArguments_givesUp stepwise givesUp proper short failed).mono
        rintro _ ⟨more, arguments, -, spelled, shaped⟩
        exact ⟨more, arguments, spelled, shaped⟩

/-- The items that are read so far are kept, and those that are left can always be written. -/
theorem parts_givesUp {items : List Item} (proper : cursor.Proper)
    (short : cursor.ahead.length < limit)
    (failed : (Parts.read operand items).run cursor = .error report stopped) :
    GivesUp (Parts.Starts items) cursor report stopped := by
  induction items generalizing cursor with
  | nil => cases failed
  | cons item items ih =>
      rcases Parts.read_cons_eq_error_iff.1 failed with failed | ⟨part, between, read, failed⟩
      · exact (item_givesUp stepwise givesUp proper short failed).mono
          fun _ starts => starts.parts items
      · have first := itemRead_of_read stepwise proper.marked short read
        obtain ⟨shaped, -, front, taken, spelled⟩ := first.sound Reads.sound proper
        have length := taken.length
        apply (ih (taken.proper proper) (by omega) failed).lift taken
        exact fun _ starts => starts.cons spelled shaped

theorem leading_givesUp {rule : LeadingRule} {power : BindingPower} (proper : cursor.Proper)
    (short : cursor.ahead.length ≤ limit)
    (found : standard.leading cursor.current.kind = some rule)
    (failed : (rule.read operand).run cursor = .error report stopped) :
    GivesUp (Item.operand power).Starts cursor report stopped := by
  have step := proper.takes_next (ne_eof_of_leading found)
  have length := step.length
  rw [List.length_singleton] at length
  rw [LeadingRule.run_read, Opening.read_eq_error_iff] at failed
  rcases LeadingRule.opening_taken_or_refused found with
    ⟨production, opens⟩ | ⟨kind, unread, refused⟩
  · have takes := LeadingRule.takes_of_opening found opens
    rw [opens] at failed
    rcases failed with ⟨⟨⟩, -⟩ | ⟨⟨⟩, -⟩ | ⟨_, ⟨⟩, failed⟩
    apply (parts_givesUp stepwise givesUp (step.proper proper) (by omega) failed).lift step
    exact fun _ starts => takes.starts (fun _ named => proper.current_ownWord named) starts
  · rw [refused] at failed
    rcases failed with ⟨⟨⟩, -⟩ | ⟨⟨⟩, -⟩ | ⟨_, ⟨⟩, -⟩
    exact .numeral (step.ahead ▸ List.mem_cons_self) kind unread rfl

theorem trailing_givesUp {rule : TrailingRule} {power tighter : BindingPower} {left : Expr}
    {start : Cursor} (proper : start.Proper) (short : cursor.ahead.length ≤ limit)
    (before : Reads power left start cursor)
    (found : standard.trailing cursor.current.kind = some (tighter, rule)) (binds : power < tighter)
    (failed : (rule.read operand tighter left).run cursor = .error report stopped) :
    GivesUp (Item.operand power).Starts start report stopped := by
  obtain ⟨⟨⟨front, taken, spelled⟩, shaped, precedes⟩, -⟩ := before.sound proper
  have here := taken.proper proper
  have step := here.takes_next (ne_eof_of_trailing found)
  have length := step.length
  rw [List.length_singleton] at length
  rw [TrailingRule.run_read, Opening.read_eq_error_iff] at failed
  rcases TrailingRule.opening_taken_or_refused found with ⟨production, opens⟩ | refused
  · have takes := TrailingRule.takes_of_opening found opens
    rw [opens] at failed
    rcases failed with ⟨⟨⟩, -⟩ | ⟨⟨⟩, -⟩ | ⟨_, ⟨⟩, failed⟩
    apply (parts_givesUp stepwise givesUp (step.proper here) (by omega) failed).lift
      (taken.trans step)
    intro later starts
    rw [List.append_assoc]
    exact takes.starts spelled shaped (precedes _ _ found).1 binds starts
  · rw [refused] at failed
    rcases failed with ⟨⟨⟩, -⟩ | ⟨⟨⟩, -⟩ | ⟨_, ⟨⟩, -⟩
    exact .target (taken.current_mem spelled.length_pos)
      (congrArg (Diagnostic.atOffset .invalidAssignmentTarget) before.start)

theorem extend_givesUp {count : Nat} {power : BindingPower} {left : Expr} {start : Cursor}
    (proper : start.Proper) (short : start.ahead.length ≤ limit)
    (before : Reads power left start cursor)
    (failed : (extend standard operand power count left).run cursor = .error report stopped) :
    GivesUp (Item.operand power).Starts start report stopped := by
  induction count generalizing cursor left with
  | zero => cases failed
  | succ count ih =>
      rcases cursor.stops_or_tighter power with stops | ⟨tighter, rule, found, binds⟩
      · rw [extend_of_stop stops] at failed
        cases failed
      · have passed := before.before proper.marked
        have shorter := passed.shorter
        rw [extend_of_tighter found binds, run_bind_eq_error_iff] at failed
        rcases failed with failed | ⟨extended, between, read, failed⟩
        · exact trailing_givesUp stepwise givesUp proper (by omega) before found binds failed
        · obtain ⟨longer, -⟩ := reads_of_trailing stepwise (passed.marked proper.marked)
            (by omega) before found binds read
          exact ih longer failed

end Items

/-- Reading with room for `depth` operands gives up in these ways where fewer tokens are ahead. -/
theorem givesUp_readWithin (depth : Nat) :
    OperandReading.GivesUp depth (readWithin standard depth) := by
  induction depth with
  | zero =>
      intro power cursor report stopped _ short _
      omega
  | succ depth ih =>
      intro power cursor report stopped proper short failed
      have stepwise : OperandReading.Stepwise depth (readWithin standard depth) :=
        stepwise_readWithin depth
      cases found : standard.leading cursor.current.kind with
      | none =>
          rw [readWithin, EStateM.run_bind, run_current] at failed
          simp only [found] at failed
          cases failed
          exact .stuck ⟨rfl, rfl⟩ (Item.starts_nil _) (Or.inl rfl)
      | some rule =>
          rw [readWithin_succ_of_leading found, run_bind_eq_error_iff] at failed
          rcases failed with failed | ⟨left, between, read, failed⟩
          · exact leading_givesUp stepwise ih proper (by omega) found failed
          · have before : Reads power left cursor between :=
              reads_of_leading stepwise proper.marked (by omega) found read
            exact extend_givesUp stepwise ih proper (by omega) before failed

/-- At the end, all that can be wrong is a token behind a whole expression. -/
theorem givesUp_readAll {cursor stopped : Cursor} {report : Diagnostic} (proper : cursor.Proper)
    (failed : standard.readAll.run cursor = .error report stopped) :
    GivesUp (Item.operand .lowest).Starts cursor report stopped := by
  rw [readAll, run_bind_eq_error_iff] at failed
  rcases failed with failed | ⟨expr, between, read, failed⟩
  · exact givesUp_readWithin _ proper (Nat.lt_succ_self _) failed
  · obtain ⟨⟨⟨tokens, taken, spelled⟩, shaped, -⟩, tight⟩ :=
      (reads_of_read proper.marked read).1.sound proper
    rw [EStateM.run_bind, EStateM.run_get] at failed
    dsimp only at failed
    split at failed
    · cases failed
      exact .stuck taken ⟨[], expr, by rwa [List.append_nil], shaped, tight⟩ (Or.inl rfl)
    · cases failed

theorem Cursor.Takes.getElem?_current {taken : List Token} {cursor stopped : Cursor}
    (takes : Takes taken cursor stopped) :
    (cursor.ahead ++ [cursor.last])[taken.length]? = some stopped.current := by
  rw [takes.ahead, ← takes.last, List.append_assoc, List.getElem?_append_right Nat.le.refl,
    Nat.sub_self, current]
  cases stopped.ahead <;> rfl

theorem tokenize_eq_append_mark {source : String} {tokens : List Token}
    (scanned : tokenize source = .ok tokens) :
    ∃ front last, tokens = front ++ [last] ∧ last.kind = .eof := by
  simp only [tokenize] at scanned
  split at scanned
  · cases scanned
    exact ⟨_, _, rfl, rfl⟩
  · cases scanned

theorem Expr.givesUp_of_ofTokens {tokens : List Token} {report : Diagnostic}
    (lexed : Token.Lexed tokens) (failed : ofTokens tokens = .error report) :
    ∃ stopped, standard.readAll.run (Cursor.ofTokens tokens) = .error report stopped ∧
      GivesUp (Item.operand .lowest).Starts (Cursor.ofTokens tokens) report stopped := by
  rw [ofTokens, runOn] at failed
  split at failed
  · cases failed
  · rename_i stopped gaveUp
    cases failed
    exact ⟨stopped, gaveUp, givesUp_readAll (proper_ofTokens lexed) gaveUp⟩

theorem Item.Starts.completes {tokens : List Token} (starts : (operand .lowest).Starts tokens) :
    ∃ completion e, Expr.ofTokens (tokens ++ completion) = .ok e := by
  obtain ⟨more, e, spelled, shaped, -⟩ := starts
  have unmarked : ∀ token ∈ (none : Option Token), token.kind = .eof := by simp
  obtain ⟨read, accepted, -⟩ := shaped.read_back spelled unmarked
  rw [Option.toList_none, List.append_nil] at accepted
  exact ⟨more, read, accepted⟩

theorem Expr.exists_token_of_ofTokens {tokens : List Token} {report : Diagnostic}
    (lexed : Token.Lexed tokens) (failed : ofTokens tokens = .error report) :
    ∃ problem, ∃ token ∈ (Cursor.ofTokens tokens).tokens,
      report = .atOffset problem token.span.start := by
  obtain ⟨stopped, -, ways⟩ := givesUp_of_ofTokens lexed failed
  cases ways with
  | stuck taken _ cause =>
      have here : stopped.current ∈ (Cursor.ofTokens tokens).tokens :=
        List.mem_of_getElem? taken.getElem?_current
      rcases cause with rfl | ⟨expectation, rfl⟩ <;> exact ⟨_, stopped.current, here, rfl⟩
  | target member place => exact ⟨_, _, List.mem_append_left _ member, place⟩
  | numeral member _ _ place => exact ⟨_, _, List.mem_append_left _ member, place⟩

/-- Reading gives up at the first bad token: those before it go on to an expression, and unless it
marks the end, no list of tokens with the same words up to it is read. -/
theorem Expr.ofTokens_first_bad_token {source : String} {tokens : List Token} {report : Diagnostic}
    (scanned : tokenize source = .ok tokens) (failed : ofTokens tokens = .error report)
    (syntactic : (∃ value, report.problem = .unexpectedToken value) ∨
      ∃ value expectation, report.problem = .unmetExpectation value expectation) :
    ∃ index token, tokens[index]? = some token ∧
      report = .atOffset report.problem token.span.start ∧
      (∃ completion e, ofTokens (tokens.take index ++ completion) = .ok e) ∧
      (token.kind ≠ .eof → ∀ others : List Token,
        (others.take (index + 1)).map Token.word = (tokens.take (index + 1)).map Token.word →
        ∃ other, ofTokens others = .error other ∧ other.problem = report.problem) := by
  have lexed := lexed_of_tokenize scanned
  have proper := proper_ofTokens lexed
  obtain ⟨stopped, gaveUp, ways⟩ := givesUp_of_ofTokens lexed failed
  obtain ⟨front, last, rfl, marks⟩ := tokenize_eq_append_mark scanned
  rw [ofTokens_append_mark marks] at proper gaveUp ways
  cases ways with
  | target _ place => simp [place, Diagnostic.atOffset] at syntactic
  | numeral _ _ _ place => simp [place, Diagnostic.atOffset] at syntactic
  | @stuck tokens taken starts cause =>
      have ahead : front = tokens ++ stopped.ahead := taken.ahead
      refine ⟨tokens.length, stopped.current, taken.getElem?_current, ?_, ?_, ?_⟩
      · rcases cause with rfl | ⟨expectation, rfl⟩ <;> rfl
      · rw [ahead, List.append_assoc, List.take_left]
        exact starts.completes
      · intro more others words
        have step := (taken.proper proper).takes_next more
        have split : front = tokens ++ [stopped.current] ++ stopped.next.ahead :=
          (taken.trans step).ahead
        have whole : (Cursor.ofTokens (front ++ [last])).tokens =
            tokens ++ [stopped.current] ++ (stopped.next.ahead ++ [last]) := by
          rw [ofTokens_append_mark marks, Cursor.tokens, ← List.append_assoc, ← split]
        have length : (tokens ++ [stopped.current]).length = tokens.length + 1 := by
          rw [List.length_append, List.length_singleton]
        rw [split, ← length, List.append_assoc, List.take_left] at words
        rw [← ofTokens_append_mark marks] at gaveUp
        refine ofTokens_of_words gaveUp whole ?_ (by simp) words
        have fewer := step.length
        rw [List.length_singleton] at fewer
        simp only [Cursor.tokens, List.length_append, List.length_singleton]
        omega

/-- `f($x, * 2)`: the star is refused where an argument has to start, inside an open call. -/
theorem Expr.ofTokens_first_bad_token_argument :
    let source := "f($x, * 2)"
    let tokens : List Token := [⟨.identifier, "f", ⟨0, 1⟩⟩, ⟨.openParen, "(", ⟨1, 2⟩⟩,
      ⟨.variableName, "$x", ⟨2, 4⟩⟩, ⟨.comma, ",", ⟨4, 5⟩⟩, ⟨.star, "*", ⟨6, 7⟩⟩,
      ⟨.number, "2", ⟨8, 9⟩⟩, ⟨.closeParen, ")", ⟨9, 10⟩⟩, ⟨.eof, "EOF", ⟨10, 10⟩⟩]
    let report := Diagnostic.atOffset (.unexpectedToken "*") 6
    tokenize source = .ok tokens ∧ ofTokens tokens = .error report ∧
      (∃ completion e, ofTokens (tokens.take 4 ++ completion) = .ok e) ∧
      ∀ others : List Token,
        (others.take 5).map Token.word = (tokens.take 5).map Token.word →
        ∃ other, ofTokens others = .error other ∧ other.problem = report.problem := by
  intro source tokens report
  have scanned : tokenize source = .ok tokens := by decide +kernel
  have failed : ofTokens tokens = .error report := by rfl
  obtain ⟨index, token, found, placed, completed, blocked⟩ :=
    ofTokens_first_bad_token scanned failed (Or.inl ⟨_, rfl⟩)
  -- only the star starts at byte 6
  have only : ∀ entry ∈ tokens.zipIdx, entry.1.span.start = 6 → entry.2 = 4 := by decide
  obtain rfl : index = 4 := only (token, index) (List.mk_mem_zipIdx_iff_getElem?.2 found)
    (congrArg (fun diagnostic => diagnostic.span.start) placed).symm
  cases found
  exact ⟨scanned, failed, completed, blocked (by decide)⟩

end DialogueTyping
