import DialogueTyping.Grammar.Reading

set_option autoImplicit false

namespace DialogueTyping

namespace Cursor

/-- The cursor after `count` more nodes were numbered. -/
def numbered (count : Nat) (cursor : Cursor) : Cursor :=
  { cursor with nodes := cursor.nodes + count }

/-- The site of a node that is made at this point. -/
def site (span : Span) (cursor : Cursor) : Site := ⟨⟨UInt32.ofNat cursor.nodes⟩, span⟩

end Cursor

namespace Reading

variable {α β : Type}

def placeOf : EStateM.Result Diagnostic Cursor α → Cursor
  | .ok _ after | .error _ after => after

theorem run_bind_eq_ok_iff {first : Reading α} {next : α → Reading β} {cursor after : Cursor}
    {value : β} : (first >>= next).run cursor = .ok value after ↔
      ∃ middle between, first.run cursor = .ok middle between ∧
        (next middle).run between = .ok value after := by
  rw [EStateM.run_bind]
  cases first.run cursor with
  | error report stopped => simp
  | ok middle between =>
      constructor
      · intro done
        exact ⟨middle, between, rfl, done⟩
      · rintro ⟨_, _, ⟨⟩, done⟩
        exact done

theorem run_bind_eq_error_iff {first : Reading α} {next : α → Reading β} {cursor stopped : Cursor}
    {report : Diagnostic} : (first >>= next).run cursor = .error report stopped ↔
      first.run cursor = .error report stopped ∨
        ∃ middle between, first.run cursor = .ok middle between ∧
          (next middle).run between = .error report stopped := by
  rw [EStateM.run_bind]
  cases first.run cursor with
  | error report stopped => simp
  | ok middle between =>
      constructor
      · intro failed
        exact Or.inr ⟨middle, between, rfl, failed⟩
      · rintro (⟨⟨⟩⟩ | ⟨_, _, ⟨⟩, failed⟩)
        exact failed

theorem ok_eq_ok_iff {value other : α} {cursor after : Cursor} :
    (EStateM.Result.ok value cursor : EStateM.Result Diagnostic Cursor α) = .ok other after ↔
      other = value ∧ after = cursor := by
  rw [EStateM.Result.ok.injEq, eq_comm, @eq_comm _ cursor]

@[simp] theorem run_current (cursor : Cursor) : current.run cursor = .ok cursor.current cursor := rfl

@[simp] theorem run_advance (cursor : Cursor) : advance.run cursor = .ok cursor.current cursor.next :=
  rfl

@[simp] theorem run_remaining (cursor : Cursor) :
    remaining.run cursor = .ok (cursor.ahead.length + 1) cursor := rfl

@[simp] theorem run_unexpected (cursor : Cursor) :
    (unexpected : Reading α).run cursor = .error cursor.unexpected cursor := rfl

@[simp] theorem run_throw (report : Diagnostic) (cursor : Cursor) :
    (throw report : Reading α).run cursor = .error report cursor := rfl

theorem expect_eq_ok_iff {kind : TokenKind} {cursor after : Cursor} {token : Token} :
    (expect kind).run cursor = .ok token after ↔
      cursor.current.kind = kind ∧ token = cursor.current ∧ after = cursor.next := by
  simp only [expect, expectOr, EStateM.run_bind, EStateM.run_get]
  by_cases same : cursor.current.kind = kind
  · simp only [same, ↓reduceIte, run_advance, ok_eq_ok_iff, true_and]
  · simp [same]

theorem expect_eq_error_iff {kind : TokenKind} {cursor stopped : Cursor} {report : Diagnostic} :
    (expect kind).run cursor = .error report stopped ↔
      cursor.current.kind ≠ kind ∧ report = unmet ("expected " ++ kind.label) cursor ∧
        stopped = cursor := by
  simp only [expect, expectOr, EStateM.run_bind, EStateM.run_get]
  by_cases same : cursor.current.kind = kind
  · simp [same]
  · simp only [same, ↓reduceIte, run_throw, EStateM.Result.error.injEq, ne_eq, not_false_eq_true,
      true_and, eq_comm]

@[simp] theorem run_node (span : Span) (build : Site → Expr) (cursor : Cursor) :
    (node span build).run cursor = .ok (build (cursor.site span)) (cursor.numbered 1) := rfl

end Reading

open Reading

namespace Item

variable {operand : OperandReading} {cursor after stopped : Cursor} {report : Diagnostic}

theorem run_arguments (operand : OperandReading) (cursor : Cursor) :
    (read operand .arguments).run cursor =
      if cursor.current.kind = .closeParen then .ok [] cursor
      else (readArguments operand (cursor.ahead.length + 1)).run cursor := by
  rw [read, EStateM.run_bind, run_current]
  by_cases closes : cursor.current.kind = .closeParen
  · simp only [closes, ↓reduceIte, EStateM.run_pure]
  · simp only [closes, ↓reduceIte, EStateM.run_bind, run_remaining]

/-- After an argument, a comma asks for more of them. -/
theorem readArguments_succ_eq_ok_iff {count : Nat} {arguments : List Expr} :
    (readArguments operand (count + 1)).run cursor = .ok arguments after ↔
      ∃ argument between, (operand .lowest).run cursor = .ok argument between ∧
        (between.current.kind = .comma ∧ (∃ others,
            (readArguments operand count).run between.next = .ok others after ∧
              arguments = argument :: others) ∨
          between.current.kind ≠ .comma ∧ arguments = [argument] ∧ after = between) := by
  rw [readArguments, run_bind_eq_ok_iff]
  apply exists_congr
  intro argument
  apply exists_congr
  intro between
  apply and_congr_right
  intro read
  rw [EStateM.run_bind, run_current]
  by_cases comma : between.current.kind = .comma
  · simp only [comma, ↓reduceIte, run_bind_eq_ok_iff, run_advance, EStateM.run_pure,
      ok_eq_ok_iff, true_and, ne_eq, not_true_eq_false, false_and, or_false]
    constructor
    · rintro ⟨_, _, ⟨rfl, rfl⟩, others, _, later, rfl, rfl⟩
      exact ⟨others, later, rfl⟩
    · rintro ⟨others, later, rfl⟩
      exact ⟨_, _, ⟨rfl, rfl⟩, others, _, later, rfl, rfl⟩
  · simp only [comma, ↓reduceIte, EStateM.run_pure, ok_eq_ok_iff, false_and, ne_eq,
      not_false_eq_true, true_and, false_or]

theorem readArguments_succ_eq_error {count : Nat}
    (failed : (readArguments operand (count + 1)).run cursor = .error report stopped) :
    (operand .lowest).run cursor = .error report stopped ∨
      ∃ argument between, (operand .lowest).run cursor = .ok argument between ∧
        between.current.kind = .comma ∧
        (readArguments operand count).run between.next = .error report stopped := by
  rw [readArguments, run_bind_eq_error_iff] at failed
  rcases failed with first | ⟨argument, between, read, rest⟩
  · exact Or.inl first
  · refine Or.inr ⟨argument, between, read, ?_⟩
    rw [EStateM.run_bind, run_current] at rest
    by_cases comma : between.current.kind = .comma
    · simp only [comma, ↓reduceIte, run_bind_eq_error_iff, run_advance] at rest
      rcases rest with ⟨⟨⟩⟩ | ⟨_, _, ⟨⟩, later | ⟨_, _, _, ⟨⟩⟩⟩
      exact ⟨comma, later⟩
    · simp [comma] at rest

end Item

namespace Parts

variable {operand : OperandReading} {item : Item} {items : List Item}
  {cursor after stopped : Cursor} {report : Diagnostic}

theorem read_cons_eq_ok_iff {parts : Parts (item :: items)} :
    (read operand (item :: items)).run cursor = .ok parts after ↔
      ∃ between, (item.read operand).run cursor = .ok parts.1 between ∧
        (read operand items).run between = .ok parts.2 after := by
  simp only [read, run_bind_eq_ok_iff, EStateM.run_pure, ok_eq_ok_iff]
  constructor
  · rintro ⟨part, between, first, others, _, rest, rfl, rfl⟩
    exact ⟨between, first, rest⟩
  · rintro ⟨between, first, rest⟩
    exact ⟨_, between, first, _, _, rest, rfl, rfl⟩

theorem read_cons_eq_error_iff :
    (read operand (item :: items)).run cursor = .error report stopped ↔
      (item.read operand).run cursor = .error report stopped ∨
        ∃ part between, (item.read operand).run cursor = .ok part between ∧
          (read operand items).run between = .error report stopped := by
  simp only [read, run_bind_eq_error_iff, EStateM.run_pure]
  constructor
  · rintro (first | ⟨part, between, first, rest | ⟨_, _, _, ⟨⟩⟩⟩)
    · exact Or.inl first
    · exact Or.inr ⟨part, between, first, rest⟩
  · rintro (first | ⟨part, between, first, rest⟩)
    · exact Or.inl first
    · exact Or.inr ⟨part, between, first, Or.inl rest⟩

end Parts

namespace Production

variable {operand : OperandReading} {first : Span} {production : Production}
  {cursor after stopped : Cursor} {e : Expr} {report : Diagnostic}

/-- The node that is made of the parts, inside an atom node if it gets one. -/
def node (production : Production) (parts : Parts production.items) (site outer : Site) : Expr :=
  if production.wrapped then .atom outer (production.build parts site)
  else production.build parts site

def made (first : Span) (production : Production) (parts : Parts production.items)
    (cursor : Cursor) : Expr :=
  production.node parts (cursor.site (production.span first parts))
    ((cursor.numbered 1).site (production.span first parts))

/-- How many numbers are given out. -/
def nodes (production : Production) : Nat := if production.wrapped then 2 else 1

theorem span_made {parts : Parts production.items}
    (own : ∀ site, (production.build parts site).site = site) :
    (production.made first parts cursor).span = production.span first parts := by
  unfold made node
  split
  · rfl
  · rw [Expr.span, own]
    rfl

theorem read_eq_ok_iff : (production.read operand first).run cursor = .ok e after ↔
    ∃ parts between, (Parts.read operand production.items).run cursor = .ok parts between ∧
      e = production.made first parts between ∧ after = between.numbered production.nodes := by
  rw [read, run_bind_eq_ok_iff]
  apply exists_congr
  intro parts
  apply exists_congr
  intro between
  apply and_congr_right
  intro done
  rw [EStateM.run_bind, run_node, made, node, nodes]
  by_cases wrapped : production.wrapped
  · simp only [wrapped, ↓reduceIte, run_node, ok_eq_ok_iff]
    rfl
  · simp only [wrapped, Bool.false_eq_true, ↓reduceIte, EStateM.run_pure, ok_eq_ok_iff]

theorem read_eq_error_iff : (production.read operand first).run cursor = .error report stopped ↔
    (Parts.read operand production.items).run cursor = .error report stopped := by
  rw [read, run_bind_eq_error_iff]
  constructor
  · rintro (failed | ⟨parts, between, _, failed⟩)
    · exact failed
    · rw [EStateM.run_bind, run_node] at failed
      by_cases wrapped : production.wrapped <;> simp [wrapped] at failed
  · exact Or.inl

end Production

namespace Opening

variable {operand : OperandReading} {first : Span} {opening : Opening}
  {cursor after stopped : Cursor} {e : Expr} {report : Diagnostic}

theorem read_eq_ok_iff : (opening.read operand first).run cursor = .ok e after ↔
    ∃ production parts between, opening = .taken production ∧
      (Parts.read operand production.items).run cursor.next = .ok parts between ∧
      e = production.made first parts between ∧ after = between.numbered production.nodes := by
  cases opening with
  | refused | refusedBehind => simp [read]
  | taken production =>
      rw [read, EStateM.run_bind, run_advance]
      simp only [Production.read_eq_ok_iff]
      constructor
      · rintro ⟨parts, between, done⟩
        exact ⟨production, parts, between, rfl, done⟩
      · rintro ⟨_, parts, between, ⟨⟩, done⟩
        exact ⟨parts, between, done⟩

theorem read_eq_error_iff : (opening.read operand first).run cursor = .error report stopped ↔
    opening = .refused report ∧ stopped = cursor ∨
      opening = .refusedBehind report ∧ stopped = cursor.next ∨
      ∃ production, opening = .taken production ∧
        (Parts.read operand production.items).run cursor.next = .error report stopped := by
  cases opening with
  | refused | refusedBehind => simp [read, eq_comm]
  | taken production => simp [read, Production.read_eq_error_iff]

end Opening

theorem LeadingRule.run_read (operand : OperandReading) (rule : LeadingRule) (cursor : Cursor) :
    (rule.read operand).run cursor =
      ((rule.opening cursor.current).read operand cursor.current.span).run cursor :=
  rfl

theorem TrailingRule.run_read (operand : OperandReading) (power : BindingPower) (left : Expr)
    (rule : TrailingRule) (cursor : Cursor) :
    (rule.read operand power left).run cursor =
      ((rule.opening power left cursor.current).read operand left.span).run cursor :=
  rfl

namespace Grammar

variable {grammar : Grammar} {operand : OperandReading} {power : BindingPower} {count : Nat}
  {cursor : Cursor} {left : Expr}

/-- Reading on ends before a token that does not bind tighter. -/
theorem extend_of_stop (stops : ∀ tighter rule,
      grammar.trailing cursor.current.kind = some (tighter, rule) → ¬ power < tighter) :
    (extend grammar operand power count left).run cursor = .ok left cursor := by
  cases count with
  | zero => rfl
  | succ count =>
      rw [extend, EStateM.run_bind, run_current]
      cases found : grammar.trailing cursor.current.kind with
      | none => simp [found]
      | some entry => simp [found, stops entry.1 entry.2 found]

theorem extend_of_tighter {tighter : BindingPower} {rule : TrailingRule}
    (found : grammar.trailing cursor.current.kind = some (tighter, rule)) (binds : power < tighter) :
    (extend grammar operand power (count + 1) left).run cursor =
      (rule.read operand tighter left >>= extend grammar operand power count).run cursor := by
  rw [extend, EStateM.run_bind, run_current]
  simp only [found, binds, ↓reduceIte]

theorem readWithin_succ_of_leading {depth : Nat} {rule : LeadingRule}
    (found : grammar.leading cursor.current.kind = some rule) :
    (readWithin grammar (depth + 1) power).run cursor =
      (rule.read (readWithin grammar depth) >>=
        extend grammar (readWithin grammar depth) power depth).run cursor := by
  rw [readWithin, EStateM.run_bind, run_current]
  simp only [found]

theorem readWithin_succ_eq_ok {depth : Nat} {after : Cursor} {e : Expr}
    (read : (readWithin grammar (depth + 1) power).run cursor = .ok e after) :
    ∃ rule left between, grammar.leading cursor.current.kind = some rule ∧
      (rule.read (readWithin grammar depth)).run cursor = .ok left between ∧
      (extend grammar (readWithin grammar depth) power depth left).run between = .ok e after := by
  cases found : grammar.leading cursor.current.kind with
  | none =>
      rw [readWithin, EStateM.run_bind, run_current] at read
      simp [found] at read
  | some rule =>
      rw [readWithin_succ_of_leading found, run_bind_eq_ok_iff] at read
      obtain ⟨left, between, first, later⟩ := read
      exact ⟨rule, left, between, rfl, first, later⟩

theorem readAll_eq_ok_iff {after : Cursor} {e : Expr} :
    grammar.readAll.run cursor = .ok e after ↔
      (readWithin grammar (cursor.ahead.length + 1) .lowest).run cursor = .ok e after ∧
        after.current.kind = .eof := by
  simp only [readAll, read, run_bind_eq_ok_iff, run_remaining, ok_eq_ok_iff]
  constructor
  · rintro ⟨_, between, ⟨_, _, ⟨rfl, rfl⟩, first⟩, _, _, found, rest⟩
    cases found
    by_cases ends : between.current.kind = .eof
    · simp only [Cursor.hasTokens, ends, bne_self_eq_false, Bool.false_eq_true, ↓reduceIte,
        EStateM.run_pure, ok_eq_ok_iff] at rest
      rcases rest with ⟨rfl, rfl⟩
      exact ⟨first, ends⟩
    · simp [Cursor.hasTokens, ends] at rest
  · rintro ⟨first, ends⟩
    refine ⟨e, after, ⟨_, _, ⟨rfl, rfl⟩, first⟩, after, after, rfl, ?_⟩
    simp [Cursor.hasTokens, ends]

end Grammar

theorem Expr.ofTokens_eq_ok_iff {tokens : List Token} {e : Expr} :
    Expr.ofTokens tokens = .ok e ↔
      ∃ after, Grammar.standard.readAll.run (Cursor.ofTokens tokens) = .ok e after := by
  rw [Expr.ofTokens, runOn]
  cases Grammar.standard.readAll.run (Cursor.ofTokens tokens) with
  | ok value after => simp
  | error report after => simp

end DialogueTyping
