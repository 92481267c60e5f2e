import DialogueTyping.Proofs.Grammar.Rules

set_option autoImplicit false

/-
Programs that read tokens and call each other by name, as often as they like. No number bounds a
program: it runs step by step, and a run either has an end after finitely many steps
(`Program.Ends`) or goes on for ever.
-/

namespace DialogueTyping

open Reading (placeOf)

namespace Cursor

/-- Both places are before the same end, and `place` is the same as `cursor` or further on. -/
structure LeadsTo (cursor place : Cursor) : Prop where
  last : place.last = cursor.last
  ahead : place.ahead <:+ cursor.ahead

variable {cursor between place : Cursor}

theorem LeadsTo.refl (cursor : Cursor) : cursor.LeadsTo cursor :=
  ⟨rfl, List.suffix_rfl⟩

theorem LeadsTo.trans (first : cursor.LeadsTo between) (second : between.LeadsTo place) :
    cursor.LeadsTo place :=
  ⟨second.last.trans first.last, second.ahead.trans first.ahead⟩

theorem LeadsTo.length_le (leads : cursor.LeadsTo place) :
    place.ahead.length ≤ cursor.ahead.length :=
  leads.ahead.length_le

theorem LeadsTo.marked (leads : cursor.LeadsTo place) (marked : cursor.last.kind = .eof) :
    place.last.kind = .eof := by
  rw [leads.last, marked]

theorem leadsTo_next (cursor : Cursor) : cursor.LeadsTo cursor.next :=
  ⟨rfl, List.tail_suffix _⟩

/-- All tokens from the place on, with the one that ends the list. -/
def tokens (cursor : Cursor) : List Token := cursor.ahead ++ [cursor.last]

theorem tokens_ofTokens (tokens : List Token) :
    (ofTokens tokens).tokens = tokens ∨
      (ofTokens tokens).tokens = tokens ++ [(ofTokens tokens).last] := by
  unfold ofTokens
  split
  · rename_i empty
    rw [List.getLast?_eq_none_iff] at empty
    subst empty
    exact Or.inr rfl
  · rename_i last ends
    split
    · obtain ⟨front, rfl⟩ := List.getLast?_eq_some_iff.1 ends
      rw [List.dropLast_concat]
      exact Or.inl rfl
    · exact Or.inr rfl

theorem LeadsTo.exists_index (leads : cursor.LeadsTo place) :
    ∃ index < cursor.tokens.length, place.tokens = cursor.tokens.drop index := by
  obtain ⟨front, split⟩ := leads.ahead
  have all : cursor.tokens = front ++ place.tokens := by
    rw [tokens, tokens, leads.last, ← split, List.append_assoc]
  have positive : 0 < place.tokens.length := by simp [tokens]
  refine ⟨front.length, ?_, ?_⟩
  · rw [all, List.length_append]
    omega
  · rw [all, List.drop_left]

end Cursor

namespace Reading

variable {α β : Type}

/-- The computation does not go back, whether it succeeds or gives up. -/
def Forward (reading : Reading α) : Prop :=
  ∀ cursor : Cursor, cursor.LeadsTo (placeOf (reading.run cursor))

theorem Forward.bind {first : Reading α} {next : α → Reading β} (early : first.Forward)
    (late : ∀ value, (next value).Forward) : (first >>= next).Forward := by
  intro cursor
  have leads := early cursor
  rw [EStateM.run_bind]
  cases ended : first.run cursor with
  | ok value between =>
      rw [ended] at leads
      exact leads.trans (late value between)
  | error report stopped =>
      rw [ended] at leads
      exact leads

theorem forward_pure (value : α) : (pure value : Reading α).Forward := .refl

theorem forward_throw (report : Diagnostic) : (throw report : Reading α).Forward := .refl

theorem forward_get : (get : Reading Cursor).Forward := .refl

theorem forward_current : current.Forward := .refl

theorem forward_unexpected : (unexpected : Reading α).Forward := .refl

theorem forward_advance : advance.Forward := Cursor.leadsTo_next

theorem forward_expect (kind : TokenKind) : (expect kind).Forward := by
  apply forward_get.bind
  intro cursor
  split
  · exact forward_advance
  · exact forward_throw _

theorem forward_node (span : Span) (build : Site → Expr) : (node span build).Forward :=
  fun _ => ⟨rfl, List.suffix_rfl⟩

end Reading

open Reading

structure Action (α : Type) where
  reading : Reading α
  forward : reading.Forward

namespace Action

variable {α : Type}

def place : Action Cursor := ⟨get, forward_get⟩

def current : Action Token := ⟨Reading.current, forward_current⟩

def advance : Action Token := ⟨Reading.advance, forward_advance⟩

def expect (kind : TokenKind) : Action Token := ⟨Reading.expect kind, forward_expect kind⟩

def unexpected : Action α := ⟨Reading.unexpected, forward_unexpected⟩

def giveUp (report : Diagnostic) : Action α := ⟨throw report, forward_throw report⟩

def node (span : Span) (build : Site → Expr) : Action Expr :=
  ⟨Reading.node span build, forward_node span build⟩

end Action

/-- A program that reads tokens and gives an `α`: it does something at the place where it is, it
calls a program by name, or it goes on with what another gives. -/
inductive Program (Call : Type → Type) : Type → Type 1
  | act {α : Type} (action : Action α) : Program Call α
  | call {α : Type} (name : Call α) : Program Call α
  | bind {α β : Type} (first : Program Call α) (next : α → Program Call β) : Program Call β

namespace Program

variable {Call : Type → Type} {α β : Type}

instance : Monad (Program Call) where
  pure value := .act ⟨pure value, forward_pure value⟩
  bind := .bind

instance : MonadLift Action (Program Call) := ⟨.act⟩

/-- What one step comes to: the end, or the program that is left and the place where it is. -/
inductive Phase (Call : Type → Type) (α : Type) : Type 1
  | ended (result : EStateM.Result Diagnostic Cursor α) : Phase Call α
  | goesOn (program : Program Call α) (place : Cursor) : Phase Call α

def Phase.place : Phase Call α → Cursor
  | ended result => placeOf result
  | goesOn _ place => place

/-- One step of a program, where `body` is what the names stand for. A report ends the whole
program. -/
def step (body : (α : Type) → Call α → Program Call α) {α : Type} :
    Program Call α → Cursor → Phase Call α
  | .act action, cursor => .ended (action.reading.run cursor)
  | .call name, cursor => .goesOn (body _ name) cursor
  | .bind first next, cursor =>
    match step body first cursor with
    | .goesOn rest place => .goesOn (.bind rest next) place
    | .ended (.ok value place) => .goesOn (next value) place
    | .ended (.error report place) => .ended (.error report place)

/-- The program comes to its end after finitely many steps, with the given result. -/
inductive Ends (body : (α : Type) → Call α → Program Call α) {α : Type} :
    Program Call α → Cursor → EStateM.Result Diagnostic Cursor α → Prop
  | now {program : Program Call α} {cursor : Cursor}
      {result : EStateM.Result Diagnostic Cursor α} : step body program cursor = .ended result →
      Ends body program cursor result
  | later {program rest : Program Call α} {cursor place : Cursor}
      {result : EStateM.Result Diagnostic Cursor α} :
      step body program cursor = .goesOn rest place → Ends body rest place result →
      Ends body program cursor result

/-- The program is at a place at some time, from its start up to its end if it has one. -/
inductive Visits (body : (α : Type) → Call α → Program Call α) {α : Type} :
    Program Call α → Cursor → Cursor → Prop
  | start {program : Program Call α} {cursor : Cursor} : Visits body program cursor cursor
  | finish {program : Program Call α} {cursor : Cursor}
      {result : EStateM.Result Diagnostic Cursor α} : step body program cursor = .ended result →
      Visits body program cursor (placeOf result)
  | later {program rest : Program Call α} {cursor between place : Cursor} :
      step body program cursor = .goesOn rest between → Visits body rest between place →
      Visits body program cursor place

variable {body : (α : Type) → Call α → Program Call α} {cursor between : Cursor}

theorem ends_act (action : Action α) (cursor : Cursor) :
    Ends body (.act action) cursor (action.reading.run cursor) :=
  .now rfl

theorem ends_pure (value : α) (cursor : Cursor) :
    Ends body (pure value) cursor ((pure value : Reading α).run cursor) :=
  ends_act _ cursor

theorem Ends.call {name : Call α} {result : EStateM.Result Diagnostic Cursor α}
    (ends : Ends body (body α name) cursor result) : Ends body (.call name) cursor result :=
  .later rfl ends

theorem Ends.bind_ok {first : Program Call α} {next : α → Program Call β} {value : α}
    {result : EStateM.Result Diagnostic Cursor β} (early : Ends body first cursor (.ok value between))
    (late : Ends body (next value) between result) : Ends body (first >>= next) cursor result := by
  generalize ended : EStateM.Result.ok value between = middle at early
  induction early with
  | now stepped =>
      subst ended
      exact .later (by simp only [Bind.bind, step, stepped]) late
  | later stepped _ ih => exact .later (by simp only [Bind.bind, step, stepped]) (ih ended)

theorem Ends.bind_error {first : Program Call α} {next : α → Program Call β} {report : Diagnostic}
    (early : Ends body first cursor (.error report between)) :
    Ends body (first >>= next) cursor (.error report between) := by
  generalize ended : EStateM.Result.error report between = middle at early
  induction early with
  | now stepped =>
      subst ended
      exact .now (by simp only [Bind.bind, step, stepped])
  | later stepped _ ih => exact .later (by simp only [Bind.bind, step, stepped]) (ih ended)

/-- A program that goes on with another does what the two computations do in a row, if each of them
does what its own does. -/
theorem Ends.bind {first : Program Call α} {next : α → Program Call β} {reading : Reading α}
    {rest : α → Reading β} (early : Ends body first cursor (reading.run cursor))
    (late : ∀ value between, reading.run cursor = .ok value between →
      Ends body (next value) between ((rest value).run between)) :
    Ends body (first >>= next) cursor ((reading >>= rest).run cursor) := by
  rw [EStateM.run_bind]
  cases ended : reading.run cursor with
  | ok value between =>
      rw [ended] at early
      exact early.bind_ok (late value between ended)
  | error report stopped =>
      rw [ended] at early
      exact early.bind_error

theorem Ends.place {next : Cursor → Program Call α} {rest : Cursor → Reading α}
    (late : Ends body (next cursor) cursor ((rest cursor).run cursor)) :
    Ends body (Action.place >>= next) cursor ((get >>= rest).run cursor) :=
  bind_ok (ends_act .place cursor) late

theorem Ends.current {next : Token → Program Call α} {rest : Token → Reading α}
    (late : Ends body (next cursor.current) cursor ((rest cursor.current).run cursor)) :
    Ends body (Action.current >>= next) cursor ((Reading.current >>= rest).run cursor) :=
  bind_ok (ends_act .current cursor) late

theorem Ends.advance {next : Token → Program Call α} {rest : Token → Reading α}
    (late : Ends body (next cursor.current) cursor.next ((rest cursor.current).run cursor.next)) :
    Ends body (Action.advance >>= next) cursor ((Reading.advance >>= rest).run cursor) :=
  bind_ok (ends_act .advance cursor) late

theorem Ends.expect {kind : TokenKind} {next : Token → Program Call α} {rest : Token → Reading α}
    (late : cursor.current.kind = kind →
      Ends body (next cursor.current) cursor.next ((rest cursor.current).run cursor.next)) :
    Ends body (Action.expect kind >>= next) cursor ((Reading.expect kind >>= rest).run cursor) := by
  refine .bind (ends_act (.expect kind) cursor) ?_
  intro token between taken
  obtain ⟨same, rfl, rfl⟩ := expect_eq_ok_iff.1 taken
  exact late same

theorem Ends.unique {program : Program Call α} {result other : EStateM.Result Diagnostic Cursor α}
    (ends : Ends body program cursor result) (again : Ends body program cursor other) :
    other = result := by
  induction ends with
  | now stepped =>
      cases again with
      | now same =>
          rw [stepped] at same
          cases same
          rfl
      | later same =>
          rw [stepped] at same
          cases same
  | later stepped _ ih =>
      cases again with
      | now same =>
          rw [stepped] at same
          cases same
      | later same rest =>
          rw [stepped] at same
          cases same
          exact ih rest

theorem Ends.iff {program : Program Call α} {result : EStateM.Result Diagnostic Cursor α}
    (ends : Ends body program cursor result) (other : EStateM.Result Diagnostic Cursor α) :
    Ends body program cursor other ↔ other = result := by
  constructor
  · exact ends.unique
  · rintro rfl
    exact ends

theorem Ends.visits {program : Program Call α} {result : EStateM.Result Diagnostic Cursor α}
    (ends : Ends body program cursor result) : Visits body program cursor (placeOf result) := by
  induction ends with
  | now stepped => exact .finish stepped
  | later stepped _ ih => exact .later stepped ih

theorem step_leadsTo (body : (α : Type) → Call α → Program Call α) (program : Program Call α)
    (cursor : Cursor) : cursor.LeadsTo (program.step body cursor).place := by
  induction program with
  | act action => exact action.forward cursor
  | call name => exact .refl cursor
  | bind first next ih _ =>
      rw [step]
      cases stepped : first.step body cursor with
      | goesOn rest place =>
          rw [stepped] at ih
          exact ih
      | ended result =>
          rw [stepped] at ih
          cases result with
          | ok value place => exact ih
          | error report place => exact ih

theorem Visits.leadsTo {program : Program Call α} {place : Cursor}
    (visits : Visits body program cursor place) : cursor.LeadsTo place := by
  induction visits with
  | start => exact .refl _
  | @finish program cursor result stepped =>
      have leads := program.step_leadsTo body cursor
      rw [stepped] at leads
      exact leads
  | @later program rest cursor between place stepped _ ih =>
      have leads := program.step_leadsTo body cursor
      rw [stepped] at leads
      exact leads.trans ih

theorem Ends.leadsTo {program : Program Call α} {result : EStateM.Result Diagnostic Cursor α}
    (ends : Ends body program cursor result) : cursor.LeadsTo (placeOf result) :=
  ends.visits.leadsTo

theorem Ends.leadsTo_of_ok {program : Program Call α} {reading : Reading α} {value : α}
    (ends : Ends body program cursor (reading.run cursor))
    (read : reading.run cursor = .ok value between) : cursor.LeadsTo between := by
  have leads := ends.leadsTo
  rw [read] at leads
  exact leads

end Program

end DialogueTyping
