import DialogueTyping.Declaration.Reading
import DialogueTyping.Proofs.Grammar.Rules
import DialogueTyping.Proofs.Token.Lexed

set_option autoImplicit false

namespace DialogueTyping

/-- The kind of token that a declared type is written with. -/
def Ty.kind : Ty → TokenKind
  | unresolved => .question
  | bool => .boolType
  | number => .numberType
  | string => .stringType

/-- The tokens are a way to write the type of a result. One that is not known can be left out. -/
inductive Ty.SpellsResult : Ty → List Token → Prop
  | omitted : SpellsResult .unresolved []
  | written {type : Ty} {arrow word : Token} :
      arrow.kind = .arrow → word.kind = type.kind → SpellsResult type [arrow, word]

namespace Parameter

inductive Spells : Parameter → List Token → Prop
  | bare {type : Ty} {word : Token} : word.kind = type.kind → Spells ⟨none, type⟩ [word]
  | named {type : Ty} {name colon word : Token} :
      name.kind = .identifier → colon.kind = .colon → word.kind = type.kind →
      Spells ⟨some name.value, type⟩ [name, colon, word]

/-- The tokens are a way to write the parameters, with a comma between any two. -/
inductive SpellsAll : List Parameter → List Token → Prop
  | nil : SpellsAll [] []
  | single {parameter : Parameter} {tokens : List Token} :
      parameter.Spells tokens → SpellsAll [parameter] tokens
  | cons {parameter next : Parameter} {others : List Parameter} {comma : Token}
      {first second : List Token} :
      parameter.Spells first → comma.kind = .comma → SpellsAll (next :: others) second →
      SpellsAll (parameter :: next :: others) (first ++ comma :: second)

end Parameter

namespace Declaration

/-- The tokens are a way to write the declaration. -/
inductive Spells : Declaration → List Token → Prop
  | variableOf {type : Ty} {var name colon word : Token} :
      var.kind = .varWord → name.kind = .variableName → colon.kind = .colon →
      word.kind = type.kind → Spells (variableOf name.value type) [var, name, colon, word]
  | functionOf {parameters : List Parameter} {result : Ty} {fn name opening closing : Token}
      {inner ending : List Token} :
      fn.kind = .fnWord → name.kind = .identifier → opening.kind = .openParen →
      Parameter.SpellsAll parameters inner → closing.kind = .closeParen →
      result.SpellsResult ending →
      Spells (functionOf name.value ⟨parameters, result⟩)
        (fn :: name :: opening :: (inner ++ closing :: ending))

/-- The tokens are a way to write the declarations, with at most one semicolon behind each. -/
inductive SpellsAll : List Declaration → List Token → Prop
  | nil : SpellsAll [] []
  | cons {declaration : Declaration} {others : List Declaration} {mark : Option Token}
      {first second : List Token} :
      declaration.Spells first → (∀ token ∈ mark, token.kind = .semicolon) →
      SpellsAll others second → SpellsAll (declaration :: others) (first ++ mark.toList ++ second)

end Declaration

theorem Ty.kind_ne_identifier (type : Ty) : type.kind ≠ .identifier := by
  cases type <;> decide

theorem Ty.kind_ne_closeParen (type : Ty) : type.kind ≠ .closeParen := by
  cases type <;> decide

theorem Ty.kind_ne_eof (type : Ty) : type.kind ≠ .eof := by
  cases type <;> decide

namespace Cursor

/-- The place before `tokens`, which are put in front of those ahead. -/
def before (tokens : List Token) (cursor : Cursor) : Cursor :=
  { cursor with ahead := tokens ++ cursor.ahead }

variable (cursor : Cursor) (token : Token) (tokens : List Token)

@[simp] theorem before_nil : cursor.before [] = cursor := rfl

@[simp] theorem current_before_cons : (cursor.before (token :: tokens)).current = token := rfl

@[simp] theorem next_before_cons :
    (cursor.before (token :: tokens)).next = cursor.before tokens := rfl

@[simp] theorem before_before (first : List Token) :
    (cursor.before tokens).before first = cursor.before (first ++ tokens) := by
  simp [before]

theorem ahead_before : (cursor.before tokens).ahead = tokens ++ cursor.ahead := rfl

theorem peek_one : cursor.peek 1 = cursor.next.current := by
  rw [peek, current, next, List.drop_one]

theorem exists_before (marked : cursor.last.kind = .eof) (more : cursor.current.kind ≠ .eof) :
    ∃ (head : Token) (after : Cursor), cursor = after.before [head] := by
  obtain ⟨ahead, last, nodes⟩ := cursor
  cases ahead with
  | nil => exact absurd marked more
  | cons head rest => exact ⟨head, ⟨rest, last, nodes⟩, rfl⟩

end Cursor

open Reading

theorem Reading.expect_sound {kind : TokenKind} {token : Token} {cursor after : Cursor}
    (read : (expect kind).run cursor = .ok token after) (marked : cursor.last.kind = .eof)
    (inner : kind ≠ .eof) :
    token.kind = kind ∧ cursor = after.before [token] := by
  obtain ⟨same, rfl, rfl⟩ := expect_eq_ok_iff.1 read
  obtain ⟨head, after, rfl⟩ := cursor.exists_before marked (same ▸ inner)
  exact ⟨same, rfl⟩

namespace Declaration

variable {cursor after : Cursor}

theorem readType_eq_ok_iff {type : Ty} : readType.run cursor = .ok type after ↔
    cursor.current.kind = type.kind ∧ after = cursor.next := by
  rw [readType, EStateM.run_bind, run_advance]
  dsimp only
  split
  case h_5 | h_6 => cases type <;> simp_all [Ty.kind]
  all_goals
    rename_i kind
    rw [EStateM.run_pure, ok_eq_ok_iff, kind]
    cases type <;> simp [Ty.kind]

theorem readType_sound {type : Ty} (read : readType.run cursor = .ok type after)
    (marked : cursor.last.kind = .eof) :
    ∃ word, word.kind = type.kind ∧ cursor = after.before [word] := by
  obtain ⟨same, rfl⟩ := readType_eq_ok_iff.1 read
  obtain ⟨word, after, rfl⟩ := cursor.exists_before marked (same ▸ type.kind_ne_eof)
  exact ⟨word, same, rfl⟩

theorem readParameter_sound {parameter : Parameter}
    (read : readParameter.run cursor = .ok parameter after) (marked : cursor.last.kind = .eof) :
    ∃ tokens, parameter.Spells tokens ∧ cursor = after.before tokens := by
  rw [readParameter, EStateM.run_bind, EStateM.run_get] at read
  dsimp only at read
  split at read
  · rename_i labelled
    simp only [Bool.and_eq_true, decide_eq_true_eq, Cursor.peek_one] at labelled
    obtain ⟨isName, isColon⟩ := labelled
    simp only [run_bind_eq_ok_iff, run_advance, ok_eq_ok_iff, EStateM.run_pure] at read
    obtain ⟨_, _, ⟨rfl, rfl⟩, _, _, ⟨rfl, rfl⟩, type, _, typed, rfl, rfl⟩ := read
    obtain ⟨name, rest, rfl⟩ := cursor.exists_before marked (by rw [isName]; decide)
    obtain ⟨colon, rest, rfl⟩ := rest.exists_before marked fun ends =>
      nomatch isColon.symm.trans ends
    obtain ⟨word, kind, rfl⟩ := @readType_sound rest _ _ typed marked
    exact ⟨_, .named isName isColon kind, rfl⟩
  · simp only [run_bind_eq_ok_iff, EStateM.run_pure, ok_eq_ok_iff] at read
    obtain ⟨type, _, typed, rfl, rfl⟩ := read
    obtain ⟨word, kind, taken⟩ := readType_sound typed marked
    exact ⟨_, .bare kind, taken⟩

/-- A comma is always followed by another parameter, as more of them are allowed than there are
tokens. -/
theorem readParameters_sound {count : Nat} {parameters : List Parameter}
    (read : (readParameters count).run cursor = .ok parameters after)
    (marked : cursor.last.kind = .eof) (room : cursor.ahead.length < count) :
    parameters ≠ [] ∧ ∃ tokens, Parameter.SpellsAll parameters tokens ∧
      cursor = after.before tokens := by
  induction count generalizing cursor parameters with
  | zero => omega
  | succ count ih =>
      obtain ⟨parameter, between, first, rest⟩ := run_bind_eq_ok_iff.1 read
      obtain ⟨tokens, spelled, rfl⟩ := readParameter_sound first marked
      rw [EStateM.run_bind, run_current] at rest
      dsimp only at rest
      split at rest
      · rename_i isComma
        simp only [run_bind_eq_ok_iff, run_advance, ok_eq_ok_iff, EStateM.run_pure] at rest
        obtain ⟨_, _, ⟨rfl, rfl⟩, others, _, later, rfl, rfl⟩ := rest
        obtain ⟨comma, rest, rfl⟩ := between.exists_before marked (by rw [isComma]; decide)
        have shorter : rest.ahead.length < count := by
          simp only [Cursor.ahead_before, List.length_append, List.length_singleton] at room
          omega
        obtain ⟨more, second, spelledOthers, rfl⟩ := @ih rest _ later marked shorter
        obtain ⟨next, others, rfl⟩ := List.exists_cons_of_ne_nil more
        refine ⟨List.cons_ne_nil _ _, _, .cons spelled isComma spelledOthers, ?_⟩
        simp only [Cursor.before_before, Cursor.current_before_cons, List.singleton_append]
      · rw [EStateM.run_pure, ok_eq_ok_iff] at rest
        obtain ⟨rfl, rfl⟩ := rest
        exact ⟨List.cons_ne_nil _ _, tokens, .single spelled, rfl⟩

theorem readResult_sound {type : Ty} (read : readResult.run cursor = .ok type after)
    (marked : cursor.last.kind = .eof) :
    ∃ tokens, type.SpellsResult tokens ∧ cursor = after.before tokens := by
  rw [readResult, EStateM.run_bind, run_current] at read
  dsimp only at read
  split at read
  · rename_i isArrow
    rw [EStateM.run_bind, run_advance] at read
    obtain ⟨arrow, rest, rfl⟩ := cursor.exists_before marked (by rw [isArrow]; decide)
    obtain ⟨word, kind, rfl⟩ := @readType_sound rest _ _ read marked
    exact ⟨_, .written isArrow kind, rfl⟩
  · cases read
    exact ⟨[], .omitted, rfl⟩

theorem readVariable_sound {declaration : Declaration}
    (read : readVariable.run cursor = .ok declaration after) (marked : cursor.last.kind = .eof) :
    ∃ tokens, declaration.Spells tokens ∧ cursor = after.before tokens := by
  simp only [readVariable, run_bind_eq_ok_iff, EStateM.run_pure, ok_eq_ok_iff] at read
  obtain ⟨var, _, first, name, _, second, colon, _, third, type, _, fourth, rfl, rfl⟩ := read
  obtain ⟨isVar, rfl⟩ := expect_sound first marked (by decide)
  obtain ⟨isName, rfl⟩ := expect_sound second marked (by decide)
  obtain ⟨isColon, rfl⟩ := expect_sound third marked (by decide)
  obtain ⟨word, kind, rfl⟩ := readType_sound fourth marked
  refine ⟨_, .variableOf isVar isName isColon kind, ?_⟩
  simp only [Cursor.before_before, List.cons_append, List.nil_append]

theorem readFunction_sound {declaration : Declaration}
    (read : readFunction.run cursor = .ok declaration after) (marked : cursor.last.kind = .eof) :
    ∃ tokens, declaration.Spells tokens ∧ cursor = after.before tokens := by
  simp only [readFunction, run_bind_eq_ok_iff] at read
  obtain ⟨fn, _, first, name, _, second, opening, between, third, _, _, here, rest⟩ := read
  cases here
  obtain ⟨isFn, rfl⟩ := expect_sound first marked (by decide)
  obtain ⟨isName, rfl⟩ := expect_sound second marked (by decide)
  obtain ⟨opens, rfl⟩ := expect_sound third marked (by decide)
  -- with or without parameters, the list is read and the rest is the same
  obtain ⟨parameters, inside, inner, spelled, rfl, behind⟩ :
      ∃ parameters inside inner, Parameter.SpellsAll parameters inner ∧
        between = Cursor.before inner inside ∧
        (do let _ ← expect .closeParen
            let result ← readResult
            return functionOf name.value ⟨parameters, result⟩ : Reading Declaration).run inside =
          .ok declaration after := by
    split at rest
    · rw [EStateM.run_bind, EStateM.run_pure] at rest
      exact ⟨[], between, [], .nil, rfl, rest⟩
    · simp only [run_bind_eq_ok_iff, run_remaining, ok_eq_ok_iff] at rest
      obtain ⟨_, _, ⟨rfl, rfl⟩, parameters, inside, read, rest⟩ := rest
      obtain ⟨-, inner, spelled, taken⟩ :=
        readParameters_sound read marked (Nat.lt_succ_self _)
      refine ⟨parameters, inside, inner, spelled, taken, ?_⟩
      simpa only [run_bind_eq_ok_iff] using rest
  obtain ⟨closing, _, closed, last⟩ := run_bind_eq_ok_iff.1 behind
  obtain ⟨result, _, typed, done⟩ := run_bind_eq_ok_iff.1 last
  cases done
  obtain ⟨closes, rfl⟩ := expect_sound closed marked (by decide)
  obtain ⟨ending, written, rfl⟩ := readResult_sound typed marked
  refine ⟨_, .functionOf isFn isName opens spelled closes written, ?_⟩
  simp only [Cursor.before_before, List.cons_append, List.nil_append]

theorem read_sound {declaration : Declaration} (done : read.run cursor = .ok declaration after)
    (marked : cursor.last.kind = .eof) :
    ∃ tokens, declaration.Spells tokens ∧ cursor = after.before tokens := by
  rw [read, EStateM.run_bind, run_current] at done
  dsimp only at done
  split at done
  · exact readVariable_sound done marked
  · exact readFunction_sound done marked
  · cases done

theorem skipSemicolon_sound (read : skipSemicolon.run cursor = .ok () after)
    (marked : cursor.last.kind = .eof) :
    ∃ mark : Option Token, (∀ token ∈ mark, token.kind = .semicolon) ∧
      cursor = after.before mark.toList := by
  rw [skipSemicolon, EStateM.run_bind, run_current] at read
  dsimp only at read
  split at read
  · rename_i isMark
    cases read
    obtain ⟨mark, after, rfl⟩ := cursor.exists_before marked (by rw [isMark]; decide)
    refine ⟨some mark, ?_, rfl⟩
    rintro _ ⟨⟩
    exact isMark
  · cases read
    refine ⟨none, ?_, rfl⟩
    intro _ absent
    cases absent

theorem Spells.length_pos {declaration : Declaration} {tokens : List Token}
    (spelled : declaration.Spells tokens) : 0 < tokens.length := by
  cases spelled <;> exact Nat.succ_pos _

theorem readAll_sound {count : Nat} {declarations : List Declaration}
    (read : (readAll count).run cursor = .ok declarations after)
    (marked : cursor.last.kind = .eof) (inside : ∀ token ∈ cursor.ahead, token.kind ≠ .eof)
    (room : cursor.ahead.length < count) :
    SpellsAll declarations cursor.ahead := by
  induction count generalizing cursor declarations with
  | zero => omega
  | succ count ih =>
      rw [readAll, EStateM.run_bind, EStateM.run_get] at read
      dsimp only at read
      split at read
      · simp only [run_bind_eq_ok_iff, EStateM.run_pure, ok_eq_ok_iff] at read
        obtain ⟨declaration, _, first, _, between, skipped, others, _, later, rfl, rfl⟩ := read
        obtain ⟨tokens, spelled, rfl⟩ := read_sound first marked
        obtain ⟨mark, isMark, rfl⟩ := skipSemicolon_sound skipped marked
        rw [Cursor.before_before, Cursor.ahead_before] at inside room ⊢
        have positive := spelled.length_pos
        simp only [List.length_append] at room
        refine .cons spelled isMark (ih later marked ?_ (by omega))
        exact fun token member => inside token (List.mem_append_right _ member)
      · rename_i ends
        have final : cursor.current.kind = .eof := by simpa [Cursor.hasTokens] using ends
        cases read
        obtain ⟨ahead, last, nodes⟩ := after
        cases ahead with
        | nil => exact .nil
        | cons token rest => exact absurd final (inside token List.mem_cons_self)

end Declaration

theorem Reading.run_expect_before {kind : TokenKind} {token : Token} {tokens : List Token}
    {cursor : Cursor} (same : token.kind = kind) :
    (expect kind).run (cursor.before (token :: tokens)) = .ok token (cursor.before tokens) :=
  expect_eq_ok_iff.2 ⟨same, rfl, rfl⟩

namespace Parameter.SpellsAll

variable {parameters : List Parameter} {tokens : List Token}

theorem head_ne_closeParen (spelled : SpellsAll parameters tokens) (some : parameters ≠ []) :
    ∃ token others, tokens = token :: others ∧ token.kind ≠ .closeParen := by
  have first {parameter : Parameter} {tokens : List Token} (spelled : parameter.Spells tokens) :
      ∃ token others, tokens = token :: others ∧ token.kind ≠ .closeParen := by
    cases spelled with
    | @bare type word kind => exact ⟨word, [], rfl, by rw [kind]; exact type.kind_ne_closeParen⟩
    | named isName => exact ⟨_, _, rfl, by rw [isName]; decide⟩
  cases spelled with
  | nil => exact absurd rfl some
  | single spelled => exact first spelled
  | cons spelled =>
      obtain ⟨token, others, rfl, different⟩ := first spelled
      exact ⟨token, _, rfl, different⟩

theorem length_le (spelled : SpellsAll parameters tokens) :
    parameters.length ≤ tokens.length := by
  have positive {parameter : Parameter} {tokens : List Token}
      (spelled : parameter.Spells tokens) : 0 < tokens.length := by
    cases spelled <;> exact Nat.succ_pos _
  induction spelled with
  | nil => exact Nat.le_refl _
  | single spelled => exact positive spelled
  | cons spelled _ _ ih =>
      have := positive spelled
      simp only [List.length_append, List.length_cons] at ih ⊢
      omega

end Parameter.SpellsAll

namespace Declaration

variable {cursor : Cursor} {tokens : List Token}

theorem run_readType_before {type : Ty} {word : Token} (kind : word.kind = type.kind) :
    readType.run (cursor.before (word :: tokens)) = .ok type (cursor.before tokens) :=
  readType_eq_ok_iff.2 ⟨kind, rfl⟩

theorem readParameter_complete {parameter : Parameter} (spelled : parameter.Spells tokens) :
    readParameter.run (cursor.before tokens) = .ok parameter cursor := by
  rw [readParameter, EStateM.run_bind, EStateM.run_get]
  cases spelled with
  | @bare type word kind =>
      have unnamed : word.kind ≠ .identifier := by
        rw [kind]
        exact type.kind_ne_identifier
      simp only [Cursor.current_before_cons, unnamed, decide_false, Bool.false_and,
        Bool.false_eq_true, ↓reduceIte, EStateM.run_bind, run_readType_before kind,
        EStateM.run_pure, Cursor.before_nil]
  | named isName isColon kind =>
      simp only [Cursor.peek_one, Cursor.current_before_cons, Cursor.next_before_cons, isName,
        isColon, decide_true, Bool.and_self, ↓reduceIte, EStateM.run_bind, run_advance,
        run_readType_before kind, EStateM.run_pure, Cursor.before_nil]

theorem readParameters_complete {parameters : List Parameter} {count : Nat}
    (spelled : Parameter.SpellsAll parameters tokens) (some : parameters ≠ [])
    (room : parameters.length ≤ count) (stops : cursor.current.kind ≠ .comma) :
    (readParameters count).run (cursor.before tokens) = .ok parameters cursor := by
  induction spelled generalizing count with
  | nil => exact absurd rfl some
  | single spelled =>
      obtain ⟨count, rfl⟩ := Nat.exists_eq_add_of_le' room
      simp only [List.length_singleton, readParameters, EStateM.run_bind,
        readParameter_complete spelled, run_current, stops, ↓reduceIte, EStateM.run_pure]
  | cons spelled isComma _ ih =>
      obtain ⟨count, rfl⟩ := Nat.exists_eq_add_of_le' (Nat.succ_le_of_lt (Nat.zero_lt_of_lt room))
      rw [List.length_cons, Nat.add_le_add_iff_right] at room
      rw [← Cursor.before_before]
      simp only [readParameters, EStateM.run_bind, readParameter_complete spelled, run_current,
        Cursor.current_before_cons, isComma, ↓reduceIte, run_advance, Cursor.next_before_cons,
        ih (List.cons_ne_nil _ _) room, EStateM.run_pure]

theorem readResult_complete {type : Ty} (spelled : type.SpellsResult tokens)
    (stops : cursor.current.kind ≠ .arrow) :
    readResult.run (cursor.before tokens) = .ok type cursor := by
  rw [readResult, EStateM.run_bind, run_current]
  cases spelled with
  | omitted => simp only [Cursor.before_nil, stops, ↓reduceIte, EStateM.run_pure]
  | written isArrow kind =>
      simp only [Cursor.current_before_cons, isArrow, ↓reduceIte, EStateM.run_bind, run_advance,
        Cursor.next_before_cons, run_readType_before kind, Cursor.before_nil]

theorem readFunction_complete {parameters : List Parameter} {result : Ty}
    {fn name opening closing : Token} {inner ending : List Token} (isFn : fn.kind = .fnWord)
    (isName : name.kind = .identifier) (opens : opening.kind = .openParen)
    (spelled : Parameter.SpellsAll parameters inner) (closes : closing.kind = .closeParen)
    (written : result.SpellsResult ending) (stops : cursor.current.kind ≠ .arrow) :
    readFunction.run (cursor.before (fn :: name :: opening :: (inner ++ closing :: ending))) =
      .ok (functionOf name.value ⟨parameters, result⟩) cursor := by
  simp only [readFunction, EStateM.run_bind, run_expect_before isFn, run_expect_before isName,
    run_expect_before opens, run_current]
  cases parameters with
  | nil =>
      cases spelled
      simp only [List.nil_append, Cursor.current_before_cons, closes, ↓reduceIte,
        EStateM.run_bind, EStateM.run_pure, run_expect_before closes,
        readResult_complete written stops]
  | cons parameter others =>
      obtain ⟨token, rest, rfl, more⟩ := spelled.head_ne_closeParen (List.cons_ne_nil _ _)
      have room := spelled.length_le
      have stopsInside : (cursor.before (closing :: ending)).current.kind ≠ .comma := by
        rw [Cursor.current_before_cons, closes]
        decide
      rw [← Cursor.before_before, Cursor.current_before_cons, if_neg more]
      simp only [EStateM.run_bind, run_remaining]
      rw [readParameters_complete spelled (List.cons_ne_nil _ _) ?_ stopsInside]
      · simp only [EStateM.run_pure, run_expect_before closes, readResult_complete written stops]
      · rw [Cursor.ahead_before, List.length_append]
        omega

theorem read_complete {declaration : Declaration} (spelled : declaration.Spells tokens)
    (stops : cursor.current.kind ≠ .arrow) :
    read.run (cursor.before tokens) = .ok declaration cursor := by
  rw [read, EStateM.run_bind, run_current]
  cases spelled with
  | variableOf isVar isName isColon kind =>
      simp only [Cursor.current_before_cons, isVar, readVariable, EStateM.run_bind,
        run_expect_before isVar, run_expect_before isName, run_expect_before isColon,
        run_readType_before kind, EStateM.run_pure, Cursor.before_nil]
  | functionOf isFn isName opens spelled closes written =>
      simp only [Cursor.current_before_cons, isFn]
      exact readFunction_complete isFn isName opens spelled closes written stops

theorem skipSemicolon_complete {mark : Option Token}
    (isMark : ∀ token ∈ mark, token.kind = .semicolon) (stops : cursor.current.kind ≠ .semicolon) :
    skipSemicolon.run (cursor.before mark.toList) = .ok () cursor := by
  rw [skipSemicolon, EStateM.run_bind, run_current]
  cases mark with
  | none =>
      simp only [Option.toList_none, Cursor.before_nil, stops, ↓reduceIte]
      rfl
  | some token =>
      simp only [Option.toList_some, Cursor.current_before_cons, isMark token rfl, ↓reduceIte]
      rfl

/-- Declarations start with a word of their own, which is no part of what stands before them. -/
theorem SpellsAll.current_kind {declarations : List Declaration}
    (spelled : SpellsAll declarations tokens) (ends : cursor.current.kind = .eof) :
    (cursor.before tokens).current.kind ∈ [.varWord, .fnWord, .eof] := by
  cases spelled with
  | nil =>
      rw [Cursor.before_nil, ends]
      decide
  | cons first =>
      cases first with
      | variableOf isVar =>
          simp only [List.cons_append, Cursor.current_before_cons, isVar]
          decide
      | functionOf isFn =>
          simp only [List.cons_append, Cursor.current_before_cons, isFn]
          decide

theorem SpellsAll.length_le {declarations : List Declaration}
    (spelled : SpellsAll declarations tokens) : declarations.length ≤ tokens.length := by
  induction spelled with
  | nil => exact Nat.le_refl _
  | cons first _ _ ih =>
      have := first.length_pos
      simp only [List.length_append, List.length_cons]
      omega

theorem readAll_complete {declarations : List Declaration} {count : Nat}
    (spelled : SpellsAll declarations tokens) (ends : cursor.current.kind = .eof)
    (room : declarations.length < count) :
    (readAll count).run (cursor.before tokens) = .ok declarations cursor := by
  induction spelled generalizing count with
  | nil =>
      obtain ⟨count, rfl⟩ := Nat.exists_eq_add_of_lt room
      simp [readAll, Cursor.hasTokens, ends]
  | @cons declaration others mark first second head isMark tail ih =>
      obtain ⟨count, rfl⟩ := Nat.exists_eq_add_of_le' (Nat.zero_lt_of_lt room)
      rw [List.length_cons, Nat.add_lt_add_iff_right] at room
      have own := tail.current_kind ends
      have noMark : (cursor.before second).current.kind ≠ .semicolon := by
        intro same
        rw [same] at own
        exact absurd own (by decide)
      have noArrow : ((cursor.before second).before mark.toList).current.kind ≠ .arrow := by
        cases mark with
        | none =>
            intro same
            rw [Option.toList_none, Cursor.before_nil] at same
            rw [same] at own
            exact absurd own (by decide)
        | some token =>
            rw [Option.toList_some, Cursor.current_before_cons, isMark token rfl]
            decide
      have more : (cursor.before (first ++ mark.toList ++ second)).hasTokens := by
        cases head with
        | variableOf isVar => simp [Cursor.hasTokens, isVar]
        | functionOf isFn => simp [Cursor.hasTokens, isFn]
      rw [readAll, EStateM.run_bind, EStateM.run_get]
      simp only [more, ↓reduceIte, EStateM.run_bind]
      rw [List.append_assoc, ← Cursor.before_before, ← Cursor.before_before]
      simp only [read_complete head noArrow, skipSemicolon_complete isMark noMark, ih room,
        EStateM.run_pure]

end Declaration

namespace Table

theorem ofTokens_eq_ok_iff {tokens : List Token} {table : Table} :
    ofTokens tokens = .ok table ↔ ∃ after,
      (Declaration.readAll ((Cursor.ofTokens tokens).ahead.length + 1)).run
        (Cursor.ofTokens tokens) = .ok table.declarations after := by
  rw [ofTokens, runOn, EStateM.run_bind, run_remaining]
  simp only [EStateM.run_bind]
  cases (Declaration.readAll ((Cursor.ofTokens tokens).ahead.length + 1)).run
      (Cursor.ofTokens tokens) with
  | error report after => simp
  | ok declarations after =>
      simp only [EStateM.run_pure, Except.ok.injEq, ok_eq_ok_iff, exists_and_left, exists_eq,
        and_true]
      constructor
      · rintro rfl
        rfl
      · intro same
        rw [← same]

theorem spellsAll_of_ofTokens {tokens : List Token} {table : Table}
    (endsOnce : ∀ token ∈ tokens.dropLast, token.kind ≠ .eof)
    (read : ofTokens tokens = .ok table) :
    Declaration.SpellsAll table.declarations (Token.beforeEnd tokens) := by
  obtain ⟨after, done⟩ := ofTokens_eq_ok_iff.1 read
  rw [← Cursor.ahead_ofTokens endsOnce]
  apply Declaration.readAll_sound done (Cursor.kind_last_ofTokens tokens)
  · rw [Cursor.ahead_ofTokens endsOnce]
    exact fun token member => (Token.mem_of_mem_beforeEnd member).2
  · exact Nat.lt_succ_self _

theorem ofTokens_of_spellsAll {tokens : List Token} {table : Table}
    (endsOnce : ∀ token ∈ tokens.dropLast, token.kind ≠ .eof)
    (spelled : Declaration.SpellsAll table.declarations (Token.beforeEnd tokens)) :
    ofTokens tokens = .ok table := by
  rw [← Cursor.ahead_ofTokens endsOnce] at spelled
  have marked := Cursor.kind_last_ofTokens tokens
  rw [ofTokens_eq_ok_iff]
  generalize Cursor.ofTokens tokens = cursor at *
  obtain ⟨ahead, last, nodes⟩ := cursor
  refine ⟨⟨[], last, nodes⟩, ?_⟩
  have whole : Cursor.mk ahead last nodes = (Cursor.mk [] last nodes).before ahead := by
    rw [Cursor.before, List.append_nil]
  have ends : (Cursor.mk [] last nodes).current.kind = .eof := marked
  have room : table.declarations.length < ahead.length + 1 := Nat.lt_succ_of_le spelled.length_le
  rw [whole]
  exact Declaration.readAll_complete spelled ends (whole ▸ room)

/-- The declarations that are read are exactly those that the tokens spell. -/
theorem ofTokens_iff_spellsAll {tokens : List Token} {table : Table}
    (endsOnce : ∀ token ∈ tokens.dropLast, token.kind ≠ .eof) :
    ofTokens tokens = .ok table ↔
      Declaration.SpellsAll table.declarations (Token.beforeEnd tokens) :=
  ⟨spellsAll_of_ofTokens endsOnce, ofTokens_of_spellsAll endsOnce⟩

/-- `fn f(n: number, ?) fn g() -> bool; var $x: ?`. A result left out is not taken from the next
declaration. -/
theorem ofTokens_iff_spellsAll_optional :
    let tokens := [(.fnWord, "fn"), (.identifier, "f"), (.openParen, "("), (.identifier, "n"),
      (.colon, ":"), (.numberType, "number"), (.comma, ","), (.question, "?"), (.closeParen, ")"),
      (.fnWord, "fn"), (.identifier, "g"), (.openParen, "("), (.closeParen, ")"), (.arrow, "->"),
      (.boolType, "bool"), (.semicolon, ";"), (.varWord, "var"), (.variableName, "$x"),
      (.colon, ":"), (.question, "?"), (.eof, "EOF")].map
        fun entry => (⟨entry.1, entry.2, Span.point 0⟩ : Token)
    let table : Table := ⟨[
      .functionOf "f" ⟨[⟨some "n", .number⟩, ⟨none, .unresolved⟩], .unresolved⟩,
      .functionOf "g" ⟨[], .bool⟩, .variableOf "$x" .unresolved]⟩
    (∀ token ∈ tokens.dropLast, token.kind ≠ .eof) ∧ ofTokens tokens = .ok table ∧
      Declaration.SpellsAll table.declarations (Token.beforeEnd tokens) := by
  intro tokens table
  have endsOnce : ∀ token ∈ tokens.dropLast, token.kind ≠ .eof := by decide
  have found : (ofTokens tokens).toOption = some table := by decide +kernel
  cases read : ofTokens tokens with
  | error report =>
      rw [read] at found
      cases found
  | ok other =>
      rw [read] at found
      cases Option.some.inj found
      exact ⟨endsOnce, rfl, (ofTokens_iff_spellsAll endsOnce).1 read⟩

end Table

end DialogueTyping
