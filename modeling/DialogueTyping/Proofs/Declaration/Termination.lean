import DialogueTyping.Proofs.Declaration.Spelling
import DialogueTyping.Proofs.Grammar.Termination

set_option autoImplicit false

namespace DialogueTyping

open Program Reading

namespace Declaration

theorem forward_readType : readType.Forward := by
  apply forward_advance.bind
  intro token
  split
  · exact forward_pure _
  · exact forward_pure _
  · exact forward_pure _
  · exact forward_pure _
  · exact forward_throw _
  · exact forward_throw _

theorem forward_readParameter : readParameter.Forward := by
  apply forward_get.bind
  intro cursor
  split
  · apply forward_advance.bind
    intro name
    apply forward_advance.bind
    intro _
    exact forward_readType.bind fun type => forward_pure _
  · exact forward_readType.bind fun type => forward_pure _

theorem forward_readVariable : readVariable.Forward := by
  apply (forward_expect .varWord).bind
  intro _
  apply (forward_expect .variableName).bind
  intro name
  apply (forward_expect .colon).bind
  intro _
  exact forward_readType.bind fun type => forward_pure _

theorem forward_readResult : readResult.Forward := by
  apply forward_current.bind
  intro token
  split
  · exact forward_advance.bind fun _ => forward_readType
  · exact forward_pure _

theorem forward_skipSemicolon : skipSemicolon.Forward := by
  apply forward_current.bind
  intro token
  split
  · exact forward_advance.bind fun _ => forward_pure _
  · exact forward_pure _

end Declaration

/-- What reading declarations calls. -/
inductive DeclarationCall : Type → Type
  | parameters : DeclarationCall (List Parameter)
  | declarations : DeclarationCall (List Declaration)

abbrev DeclarationProgram := Program DeclarationCall

namespace DeclarationProgram

open DialogueTyping.Action Declaration

def parameters : DeclarationProgram (List Parameter) := do
  let parameter ← (⟨readParameter, forward_readParameter⟩ : Action Parameter)
  if (← current).kind = .comma then
    let _ ← advance
    let others ← Program.call .parameters
    return parameter :: others
  else
    return [parameter]

def function : DeclarationProgram Declaration := do
  let _ ← expect .fnWord
  let name ← expect .identifier
  let _ ← expect .openParen
  let parameters ←
    if (← current).kind = .closeParen then pure []
    else Program.call .parameters
  let _ ← expect .closeParen
  let result ← (⟨readResult, forward_readResult⟩ : Action Ty)
  return .functionOf name.value ⟨parameters, result⟩

def declaration : DeclarationProgram Declaration := do
  match (← current).kind with
  | .varWord => (⟨readVariable, forward_readVariable⟩ : Action Declaration)
  | .fnWord => function
  | _ =>
    let cursor ← place
    giveUp (unmet "expected `var` or `fn`" cursor)

def declarations : DeclarationProgram (List Declaration) := do
  if (← place).hasTokens then
    let declaration ← declaration
    let _ ← (⟨skipSemicolon, forward_skipSemicolon⟩ : Action Unit)
    let others ← Program.call .declarations
    return declaration :: others
  else
    return []

def body : (α : Type) → DeclarationCall α → DeclarationProgram α
  | _, .parameters => parameters
  | _, .declarations => declarations

variable {cursor between after : Cursor}

theorem before_of_parameter {parameter : Parameter} (marked : cursor.last.kind = .eof)
    (read : readParameter.run cursor = .ok parameter between)
    (comma : between.current.kind = .comma) : cursor.Before between.next := by
  obtain ⟨tokens, -, rfl⟩ := readParameter_sound read marked
  have kept : between.last.kind = .eof := marked
  have shorter := (Cursor.before_next kept comma (by decide)).shorter
  refine ⟨rfl, ?_⟩
  rw [Cursor.ahead_before, List.length_append]
  omega

theorem before_of_declaration {declaration : Declaration} (marked : cursor.last.kind = .eof)
    (done : read.run cursor = .ok declaration between)
    (skipped : skipSemicolon.run between = .ok () after) : cursor.Before after := by
  obtain ⟨tokens, spelled, rfl⟩ := read_sound done marked
  obtain ⟨mark, -, rfl⟩ := skipSemicolon_sound skipped marked
  have positive := spelled.length_pos
  refine ⟨rfl, ?_⟩
  rw [Cursor.before_before, Cursor.ahead_before, List.length_append, List.length_append]
  omega

theorem ends_parameters {count : Nat} (marked : cursor.last.kind = .eof)
    (enough : cursor.ahead.length < count) :
    Ends body (.call .parameters) cursor ((readParameters count).run cursor) := by
  induction count generalizing cursor with
  | zero => omega
  | succ count ih =>
      apply Ends.call
      apply Ends.bind (ends_act _ _)
      intro parameter between read
      apply Ends.current
      split
      · rename_i comma
        have passed := before_of_parameter marked read comma
        have shorter := passed.shorter
        apply Ends.advance
        apply Ends.bind (ih (passed.marked marked) (by omega))
        intro others between _
        exact ends_pure _ _
      · exact ends_pure _ _

theorem ends_function (marked : cursor.last.kind = .eof) :
    Ends body function cursor (readFunction.run cursor) := by
  apply Ends.expect
  intro _
  apply Ends.expect
  intro _
  apply Ends.expect
  intro _
  have kept : cursor.next.next.next.last.kind = .eof := marked
  -- with or without parameters, the rest is the same
  have closing (parameters : List Parameter) (between : Cursor) :
      Ends body
        (do let _ ← expect .closeParen
            let result ← (⟨readResult, forward_readResult⟩ : Action Ty)
            return .functionOf cursor.next.current.value ⟨parameters, result⟩)
        between
        ((do let _ ← Reading.expect .closeParen
             let result ← readResult
             return .functionOf cursor.next.current.value ⟨parameters, result⟩ :
            Reading Declaration).run between) := by
    apply Ends.expect
    intro _
    apply Ends.bind (ends_act _ _)
    intro result after _
    exact ends_pure _ _
  apply Ends.current
  split
  · exact Ends.bind (ends_pure _ _) fun parameters between _ => closing parameters between
  · rw [EStateM.run_bind, run_remaining]
    exact Ends.bind (ends_parameters kept (Nat.lt_succ_self _))
      fun parameters between _ => closing parameters between

theorem ends_declaration (marked : cursor.last.kind = .eof) :
    Ends body declaration cursor (read.run cursor) := by
  apply Ends.current
  cases cursor.current.kind with
  | varWord => exact ends_act _ _
  | fnWord => exact ends_function marked
  | _ =>
    apply Ends.place
    exact ends_act _ _

theorem ends_declarations {count : Nat} (marked : cursor.last.kind = .eof)
    (enough : cursor.ahead.length < count) :
    Ends body (.call .declarations) cursor ((readAll count).run cursor) := by
  induction count generalizing cursor with
  | zero => omega
  | succ count ih =>
      apply Ends.call
      apply Ends.place
      split
      · apply Ends.bind (ends_declaration marked)
        intro declaration between done
        apply Ends.bind (ends_act _ _)
        intro _ after skipped
        have passed := before_of_declaration marked done skipped
        have shorter := passed.shorter
        apply Ends.bind (ih (passed.marked marked) (by omega))
        intro others between _
        exact ends_pure _ _
      · exact ends_pure _ _

end DeclarationProgram

/-- From every place of every list of tokens, also with marks of the end inside it, reading an
expression and reading declarations end, with what the bounded readings give. -/
theorem readings_end (tokens : List Token) :
    let start := Cursor.ofTokens tokens
    (start.tokens = tokens ∨ start.tokens = tokens ++ [start.last]) ∧
      ∀ cursor, start.LeadsTo cursor →
        (∀ power,
          (∀ result, Ends ExprProgram.body (.call (.operand power)) cursor result ↔
            result = (Grammar.standard.read power).run cursor) ∧
          (∀ place, Visits ExprProgram.body (.call (.operand power)) cursor place →
            ∃ index < start.tokens.length, place.tokens = start.tokens.drop index) ∧
          ∀ expr after, (Grammar.standard.read power).run cursor = .ok expr after →
            cursor.Passes after ∧ after.Stops power) ∧
        (∀ result, Ends DeclarationProgram.body (.call .declarations) cursor result ↔
          result = (do Declaration.readAll (← remaining) : Reading (List Declaration)).run cursor) ∧
        (∀ place, Visits DeclarationProgram.body (.call .declarations) cursor place →
          ∃ index < start.tokens.length, place.tokens = start.tokens.drop index) ∧
        (∀ declaration between after, Declaration.read.run cursor = .ok declaration between →
          Declaration.skipSemicolon.run between = .ok () after → cursor.Before after) ∧
        ∀ parameter between, Declaration.readParameter.run cursor = .ok parameter between →
          between.current.kind = .comma → cursor.Before between.next := by
  intro start
  refine ⟨Cursor.tokens_ofTokens tokens, fun cursor leads => ?_⟩
  have marked : cursor.last.kind = .eof := leads.marked (Cursor.kind_last_ofTokens tokens)
  refine ⟨fun power => ⟨?_, ?_, ?_⟩, ?_, ?_, ?_, ?_⟩
  · exact (ExprProgram.ends_read power marked).iff
  · intro place visits
    exact (leads.trans visits.leadsTo).exists_index
  · intro expr after read
    obtain ⟨reads, stops⟩ := Grammar.reads_of_read marked read
    exact ⟨reads.passes marked, stops⟩
  · exact (DeclarationProgram.ends_declarations marked (Nat.lt_succ_self _)).iff
  · intro place visits
    exact (leads.trans visits.leadsTo).exists_index
  · intro declaration between after done skipped
    exact DeclarationProgram.before_of_declaration marked done skipped
  · intro parameter between read comma
    exact DeclarationProgram.before_of_parameter marked read comma

/-- `-$x` before a mark that is not the last token, and a parameter in a list without a mark. -/
theorem readings_end_inner_mark :
    let early : List Token := [⟨.dash, "-", ⟨0, 1⟩⟩, ⟨.variableName, "$x", ⟨1, 3⟩⟩,
      ⟨.eof, "EOF", ⟨3, 3⟩⟩, ⟨.plus, "+", ⟨4, 5⟩⟩]
    let start := Cursor.ofTokens early
    let expr : Expr := .unary ⟨⟨2⟩, ⟨0, 3⟩⟩ .negate
      (.atom ⟨⟨1⟩, ⟨1, 3⟩⟩ (.reference ⟨⟨0⟩, ⟨1, 3⟩⟩ "$x"))
    let after : Cursor := ⟨early.drop 2, ⟨.eof, "EOF", ⟨5, 5⟩⟩, 3⟩
    let typed : List Token := [⟨.numberType, "number", ⟨0, 6⟩⟩, ⟨.comma, ",", ⟨6, 7⟩⟩]
    (start.LeadsTo start ∧ (Grammar.standard.read .lowest).run start = .ok expr after) ∧
      (start.Passes after ∧ after.Stops .lowest) ∧
      Declaration.readParameter.run (Cursor.ofTokens typed) =
        .ok ⟨none, .number⟩ (Cursor.ofTokens typed).next ∧
      (Cursor.ofTokens typed).Before (Cursor.ofTokens typed).next.next := by
  intro early start expr after typed
  have read : (Grammar.standard.read .lowest).run start = .ok expr after := rfl
  have one : Declaration.readParameter.run (Cursor.ofTokens typed) =
      .ok ⟨none, .number⟩ (Cursor.ofTokens typed).next := rfl
  obtain ⟨-, places⟩ := readings_end early
  obtain ⟨-, typedPlaces⟩ := readings_end typed
  refine ⟨⟨.refl start, read⟩, ?_, one, ?_⟩
  · exact ((places start (.refl start)).1 .lowest).2.2 expr after read
  · exact (typedPlaces _ (.refl _)).2.2.2.2 _ _ one rfl

end DialogueTyping
