import DialogueTyping.Proofs.Grammar.Steps
import DialogueTyping.Proofs.Token.Program

set_option autoImplicit false

/-
Reading an expression comes to an end. `ExprProgram.body` are the rules of the grammar as programs
that call each other without a bound, and each of them does what its bounded reading does, as long
as the bound is not below the number of tokens ahead. The measure is that number: an operand is
called behind a token that its rule has taken, and the repetitions take a comma or an operator in
each pass.
-/

namespace DialogueTyping

open Program Grammar

/-- What the rules call. -/
inductive ExprCall : Type → Type
  | operand (power : BindingPower) : ExprCall Expr
  | extend (power : BindingPower) (left : Expr) : ExprCall Expr
  | arguments : ExprCall (List Expr)

abbrev ExprProgram := Program ExprCall

namespace ExprProgram

open DialogueTyping.Action

def operand (power : BindingPower) : ExprProgram Expr := .call (.operand power)

def arguments : ExprProgram (List Expr) := do
  let argument ← operand .lowest
  if (← current).kind = .comma then
    let _ ← advance
    let others ← Program.call .arguments
    return argument :: others
  else
    return [argument]

def item : (item : Item) → ExprProgram item.Part
  | .openParen => expect .openParen
  | .operand power => operand power
  | .arguments => do
    if (← current).kind = .closeParen then return []
    else Program.call .arguments
  | .closeParen => expect .closeParen

def parts : (items : List Item) → ExprProgram (Parts items)
  | [] => return ()
  | first :: items => do
    let part ← item first
    let others ← parts items
    return (part, others)

def production (first : Span) (production : Production) : ExprProgram Expr := do
  let parts ← parts production.items
  let span := production.span first parts
  let inner ← node span (production.build parts)
  if production.wrapped then node span (.atom · inner) else return inner

def opening (first : Span) : Opening → ExprProgram Expr
  | .refused report => giveUp report
  | .refusedBehind report => do
    let _ ← advance
    giveUp report
  | .taken made => do
    let _ ← advance
    production first made

def leading (rule : LeadingRule) : ExprProgram Expr := do
  let token ← current
  opening token.span (rule.opening token)

def trailing (power : BindingPower) (left : Expr) (rule : TrailingRule) : ExprProgram Expr := do
  let token ← current
  opening left.span (rule.opening power left token)

def extend (power : BindingPower) (left : Expr) : ExprProgram Expr := do
  match standard.trailing (← current).kind with
  | none => return left
  | some (tighter, rule) =>
    if power < tighter then
      let extended ← trailing tighter left rule
      Program.call (.extend power extended)
    else
      return left

def read (power : BindingPower) : ExprProgram Expr := do
  match standard.leading (← current).kind with
  | none => unexpected
  | some rule =>
    let left ← leading rule
    Program.call (.extend power left)

def body : (α : Type) → ExprCall α → ExprProgram α
  | _, .operand power => read power
  | _, .extend power left => extend power left
  | _, .arguments => arguments

end ExprProgram

/-- Where fewer than `limit` tokens are ahead, the operand that a rule calls comes to an end, and
with the same result as `operand`. -/
def OperandReading.EndsBelow (limit : Nat) (operand : OperandReading) : Prop :=
  ∀ (power : BindingPower) {cursor : Cursor}, cursor.last.kind = .eof →
    cursor.ahead.length < limit →
    Ends ExprProgram.body (.call (.operand power)) cursor ((operand power).run cursor)

variable {operand : OperandReading} {limit : Nat} {power : BindingPower} {cursor after : Cursor}
  {left expr : Expr}

namespace ExprProgram

/-- Every argument but the last is followed by a comma, which is a token less for the others. -/
theorem ends_arguments (operands : operand.EndsBelow limit) {count : Nat}
    (marked : cursor.last.kind = .eof) (short : cursor.ahead.length < limit)
    (enough : cursor.ahead.length < count) :
    Ends body (.call .arguments) cursor ((Item.readArguments operand count).run cursor) := by
  induction count generalizing cursor with
  | zero => omega
  | succ count ih =>
      apply Ends.call
      apply Ends.bind (operands .lowest marked short)
      intro argument between read
      have leads := (operands .lowest marked short).leadsTo_of_ok read
      have notLonger := leads.length_le
      apply Ends.current
      split
      · rename_i comma
        have step := Cursor.before_next (leads.marked marked) comma (by decide)
        have shorter := step.shorter
        apply Ends.advance
        apply Ends.bind (ih (step.marked (leads.marked marked)) (by omega) (by omega))
        intro others between _
        exact ends_pure _ _
      · exact ends_pure _ _

theorem ends_item (operands : operand.EndsBelow limit) (first : Item)
    (marked : cursor.last.kind = .eof) (short : cursor.ahead.length < limit) :
    Ends body (item first) cursor ((first.read operand).run cursor) := by
  cases first with
  | openParen | closeParen => exact ends_act _ _
  | operand power => exact operands power marked short
  | arguments =>
      apply Ends.current
      split
      · exact ends_pure _ _
      · rw [EStateM.run_bind, Reading.run_remaining]
        exact ends_arguments operands marked short (Nat.lt_succ_self _)

theorem ends_parts (operands : operand.EndsBelow limit) (items : List Item)
    (marked : cursor.last.kind = .eof) (short : cursor.ahead.length < limit) :
    Ends body (parts items) cursor ((Parts.read operand items).run cursor) := by
  induction items generalizing cursor with
  | nil => exact ends_pure _ _
  | cons first items ih =>
      have one := ends_item operands first marked short
      apply Ends.bind one
      intro part between read
      have leads := one.leadsTo_of_ok read
      apply Ends.bind (ih (leads.marked marked) (Nat.lt_of_le_of_lt leads.length_le short))
      intro others after _
      exact ends_pure _ _

theorem ends_production (operands : operand.EndsBelow limit) (first : Span) (made : Production)
    (marked : cursor.last.kind = .eof) (short : cursor.ahead.length < limit) :
    Ends body (production first made) cursor ((made.read operand first).run cursor) := by
  apply Ends.bind (ends_parts operands made.items marked short)
  intro parts between _
  apply Ends.bind (ends_act _ _)
  intro inner after _
  split
  · exact ends_act _ _
  · exact ends_pure _ _

/-- A rule reads on behind the token that it starts at. -/
theorem ends_opening (operands : operand.EndsBelow limit) (first : Span) (opens : Opening)
    (marked : cursor.last.kind = .eof) (more : cursor.current.kind ≠ .eof)
    (short : cursor.ahead.length ≤ limit) :
    Ends body (opening first opens) cursor ((opens.read operand first).run cursor) := by
  have step := Cursor.before_next marked rfl more
  have shorter := step.shorter
  cases opens with
  | refused => exact ends_act _ _
  | refusedBehind =>
      apply Ends.advance
      exact ends_act _ _
  | taken made =>
      apply Ends.advance
      exact ends_production operands first made (step.marked marked) (by omega)

/-- A token that a rule starts at is taken, so that one less is ahead. -/
theorem before_of_trailing {rule : TrailingRule} (operands : operand.EndsBelow limit)
    (marked : cursor.last.kind = .eof) (short : cursor.ahead.length ≤ limit)
    (more : cursor.current.kind ≠ .eof)
    (read : (rule.read operand power left).run cursor = .ok expr after) : cursor.Before after := by
  have step := Cursor.before_next marked rfl more
  have shorter := step.shorter
  rw [TrailingRule.run_read, Opening.read_eq_ok_iff] at read
  obtain ⟨made, parts, between, -, one, -, rfl⟩ := read
  have leads := (ends_parts operands made.items (step.marked marked) (by omega)).leadsTo_of_ok one
  have notLonger := leads.length_le
  have behind : cursor.Before between := ⟨leads.last, by omega⟩
  exact behind.numbered _

theorem ends_extend_of_stops (stops : cursor.Stops power) :
    Ends body (.call (.extend power left)) cursor (.ok left cursor) := by
  apply Ends.call
  apply Ends.bind_ok (ends_act Action.current cursor)
  split
  · exact ends_pure _ _
  · rename_i found
    rw [if_neg (stops _ _ found)]
    exact ends_pure _ _

/-- An operator that binds tighter is taken, so that a token less is ahead for what follows. -/
theorem ends_extend (operands : operand.EndsBelow limit) {count : Nat}
    (marked : cursor.last.kind = .eof) (short : cursor.ahead.length ≤ limit)
    (enough : cursor.ahead.length ≤ count) :
    Ends body (.call (.extend power left)) cursor
      ((Grammar.extend standard operand power count left).run cursor) := by
  induction count generalizing cursor left with
  | zero =>
      apply ends_extend_of_stops
      intro tighter rule found
      have shorter := (Cursor.before_next marked rfl (ne_eof_of_trailing found)).shorter
      omega
  | succ count ih =>
      rcases cursor.stops_or_tighter power with stops | ⟨tighter, rule, found, binds⟩
      · rw [extend_of_stop stops]
        exact ends_extend_of_stops stops
      · rw [extend_of_tighter found binds]
        apply Ends.call
        apply Ends.bind_ok (ends_act Action.current cursor)
        simp only [found, binds, ↓reduceIte]
        have more := ne_eof_of_trailing found
        apply Ends.bind
        · apply Ends.current
          exact ends_opening operands left.span _ marked more short
        · intro extended between read
          have passed := before_of_trailing operands marked short more read
          have shorter := passed.shorter
          exact ih (passed.marked marked) (by omega) (by omega)

/-- A bound of `depth` is no restriction where fewer tokens are ahead. -/
theorem endsBelow_readWithin (depth : Nat) :
    OperandReading.EndsBelow depth (readWithin standard depth) := by
  induction depth with
  | zero =>
      intro power cursor _ short
      omega
  | succ depth ih =>
      intro power cursor marked short
      apply Ends.call
      apply Ends.current
      cases found : standard.leading cursor.current.kind with
      | none => exact ends_act _ _
      | some rule =>
          have start : Ends body (leading rule) cursor
              ((rule.read (readWithin standard depth)).run cursor) :=
            Ends.current (ends_opening ih _ _ marked (ne_eof_of_leading found) (by omega))
          apply Ends.bind start
          intro left between read
          have leads := start.leadsTo_of_ok read
          have notLonger := leads.length_le
          exact ends_extend ih (leads.marked marked) (by omega) (by omega)

theorem ends_read (power : BindingPower) (marked : cursor.last.kind = .eof) :
    Ends body (.call (.operand power)) cursor ((standard.read power).run cursor) :=
  endsBelow_readWithin (cursor.ahead.length + 1) power marked (Nat.lt_succ_self _)

end ExprProgram

end DialogueTyping
