import DialogueTyping.Proofs.Grammar.Productions

set_option autoImplicit false

namespace DialogueTyping

open Grammar

namespace Cursor

/-- Both places are before the same end, and fewer tokens are ahead of `after`. -/
structure Before (cursor after : Cursor) : Prop where
  last : after.last = cursor.last
  shorter : after.ahead.length < cursor.ahead.length

variable {cursor between after : Cursor}

theorem Before.trans (first : cursor.Before between) (second : between.Before after) :
    cursor.Before after :=
  ⟨second.last.trans first.last, second.shorter.trans first.shorter⟩

theorem Before.numbered (before : cursor.Before after) (count : Nat) :
    cursor.Before (after.numbered count) :=
  ⟨before.last, before.shorter⟩

theorem Before.marked (before : cursor.Before after) (marked : cursor.last.kind = .eof) :
    after.last.kind = .eof := by
  rw [before.last, marked]

/-- At least one token is between the places, and none of them marks an end. -/
structure Passes (cursor after : Cursor) : Prop where
  last : after.last = cursor.last
  taken : ∃ tokens ≠ [], cursor.ahead = tokens ++ after.ahead ∧
    ∀ token ∈ tokens, token.kind ≠ .eof

theorem Passes.trans (first : cursor.Passes between) (second : between.Passes after) :
    cursor.Passes after := by
  refine ⟨second.last.trans first.last, ?_⟩
  obtain ⟨early, some, split, inside⟩ := first.taken
  obtain ⟨late, _, splitLate, insideLate⟩ := second.taken
  refine ⟨early ++ late, by simp [some], by rw [split, splitLate, List.append_assoc], ?_⟩
  intro token member
  rcases List.mem_append.1 member with member | member
  · exact inside token member
  · exact insideLate token member

theorem Passes.numbered (passes : cursor.Passes after) (count : Nat) :
    cursor.Passes (after.numbered count) :=
  ⟨passes.last, passes.taken⟩

theorem Passes.marked (passes : cursor.Passes after) (marked : cursor.last.kind = .eof) :
    after.last.kind = .eof := by
  rw [passes.last, marked]

theorem Passes.before (passes : cursor.Passes after) : cursor.Before after := by
  refine ⟨passes.last, ?_⟩
  obtain ⟨tokens, some, split, -⟩ := passes.taken
  have positive := List.length_pos_iff.2 some
  rw [split, List.length_append]
  omega

theorem passes_next {kind : TokenKind} (marked : cursor.last.kind = .eof)
    (here : cursor.current.kind = kind) (more : kind ≠ .eof) : cursor.Passes cursor.next := by
  refine ⟨rfl, ?_⟩
  obtain ⟨ahead, last, nodes⟩ := cursor
  cases ahead with
  | nil => exact absurd (here.symm.trans marked) more
  | cons token rest =>
      refine ⟨[token], List.cons_ne_nil _ _, rfl, ?_⟩
      intro other member
      rw [List.mem_singleton.1 member]
      exact here ▸ more

theorem before_next {kind : TokenKind} (marked : cursor.last.kind = .eof)
    (here : cursor.current.kind = kind) (more : kind ≠ .eof) : cursor.Before cursor.next :=
  (passes_next marked here more).before

end Cursor

namespace Grammar

/-- The expressions were read one after another, with a comma between any two. -/
inductive Listed (reads : BindingPower → Expr → Cursor → Cursor → Prop) :
    List Expr → Cursor → Cursor → Prop
  | nil {cursor : Cursor} : Listed reads [] cursor cursor
  | last {expr : Expr} {cursor after : Cursor} : reads .lowest expr cursor after →
      Listed reads [expr] cursor after
  | next {expr other : Expr} {others : List Expr} {cursor between after : Cursor} :
      reads .lowest expr cursor between → between.current.kind = .comma →
      Listed reads (other :: others) between.next after →
      Listed reads (expr :: other :: others) cursor after

/-- The item was read between two places, and `reads` says how its expressions were. -/
inductive ItemRead (reads : BindingPower → Expr → Cursor → Cursor → Prop) :
    (item : Item) → item.Part → Cursor → Cursor → Prop
  | openParen {cursor : Cursor} : cursor.current.kind = .openParen →
      ItemRead reads .openParen cursor.current cursor cursor.next
  | operand {power : BindingPower} {expr : Expr} {cursor after : Cursor} :
      reads power expr cursor after → after.Stops power →
      ItemRead reads (.operand power) expr cursor after
  | arguments {exprs : List Expr} {cursor after : Cursor} : Listed reads exprs cursor after →
      ItemRead reads .arguments exprs cursor after
  | closeParen {cursor : Cursor} : cursor.current.kind = .closeParen →
      ItemRead reads .closeParen cursor.current cursor cursor.next

inductive PartsRead (reads : BindingPower → Expr → Cursor → Cursor → Prop) :
    (items : List Item) → Parts items → Cursor → Cursor → Prop
  | nil {parts : Parts []} {cursor : Cursor} : PartsRead reads [] parts cursor cursor
  | cons {item : Item} {items : List Item} {part : item.Part} {parts : Parts items}
      {cursor between after : Cursor} : ItemRead reads item part cursor between →
      PartsRead reads items parts between after →
      PartsRead reads (item :: items) (part, parts) cursor after

/-- The expression was read between two places, by a rule for its first token and by rules for
operators that bind tighter than a power. -/
inductive Reads : BindingPower → Expr → Cursor → Cursor → Prop
  | leading {power : BindingPower} {rule : LeadingRule} {production : Production}
      {parts : Parts production.items} {cursor between : Cursor} :
      rule.Takes cursor.current production →
      PartsRead Reads production.items parts cursor.next between →
      Reads power (production.made cursor.current.span parts between) cursor
        (between.numbered production.nodes)
  | trailing {power tighter : BindingPower} {rule : TrailingRule} {production : Production}
      {parts : Parts production.items} {left : Expr} {start cursor between : Cursor} :
      Reads power left start cursor → rule.Takes left cursor.current tighter production →
      power < tighter → PartsRead Reads production.items parts cursor.next between →
      Reads power (production.made left.span parts between) start
        (between.numbered production.nodes)

@[elab_as_elim]
theorem Reads.ind {motive : BindingPower → Expr → Cursor → Cursor → Prop}
    (leading : ∀ {power} {rule : LeadingRule} {production : Production}
      {parts : Parts production.items} {cursor between : Cursor},
      rule.Takes cursor.current production →
      PartsRead motive production.items parts cursor.next between →
      motive power (production.made cursor.current.span parts between) cursor
        (between.numbered production.nodes))
    (trailing : ∀ {power tighter} {rule : TrailingRule} {production : Production}
      {parts : Parts production.items} {left : Expr} {start cursor between : Cursor},
      Reads power left start cursor → motive power left start cursor →
      rule.Takes left cursor.current tighter production → power < tighter →
      PartsRead motive production.items parts cursor.next between →
      motive power (production.made left.span parts between) start
        (between.numbered production.nodes))
    {power : BindingPower} {expr : Expr} {cursor after : Cursor}
    (reads : Reads power expr cursor after) : motive power expr cursor after :=
  @Reads.rec (fun power expr cursor after _ => motive power expr cursor after)
    (fun items parts cursor after _ => PartsRead motive items parts cursor after)
    (fun item part cursor after _ => ItemRead motive item part cursor after)
    (fun exprs cursor after _ => Listed motive exprs cursor after)
    (fun takes _ parts => leading takes parts)
    (fun before takes binds _ left parts => trailing before left takes binds parts)
    .nil
    (fun _ _ first rest => .cons first rest)
    .openParen
    (fun _ stops read => .operand read stops)
    (fun _ listed => .arguments listed)
    .closeParen
    .nil
    (fun _ last => .last last)
    (fun _ comma _ first others => .next first comma others)
    power expr cursor after reads

section Passing

variable {reads : BindingPower → Expr → Cursor → Cursor → Prop}
  (passing : ∀ {power expr cursor after}, reads power expr cursor after →
    cursor.last.kind = .eof → cursor.Passes after)

include passing

theorem Listed.passes {exprs : List Expr} {cursor after : Cursor}
    (listed : Listed reads exprs cursor after) (marked : cursor.last.kind = .eof) :
    after = cursor ∨ cursor.Passes after := by
  induction listed with
  | nil => exact Or.inl rfl
  | last read => exact Or.inr (passing read marked)
  | next read comma _ ih =>
      have first := passing read marked
      have step := first.trans (Cursor.passes_next (first.marked marked) comma (by decide))
      rcases ih (first.marked marked) with rfl | later
      · exact Or.inr step
      · exact Or.inr (step.trans later)

theorem ItemRead.passes {item : Item} {part : item.Part} {cursor after : Cursor}
    (read : ItemRead reads item part cursor after) (marked : cursor.last.kind = .eof) :
    after = cursor ∨ cursor.Passes after := by
  cases read with
  | openParen opens => exact Or.inr (Cursor.passes_next marked opens (by decide))
  | operand read => exact Or.inr (passing read marked)
  | arguments listed => exact listed.passes passing marked
  | closeParen closes => exact Or.inr (Cursor.passes_next marked closes (by decide))

theorem PartsRead.passes {items : List Item} {parts : Parts items} {start cursor after : Cursor}
    (read : PartsRead reads items parts cursor after) (marked : start.last.kind = .eof)
    (front : start.Passes cursor) : start.Passes after := by
  induction read with
  | nil => exact front
  | cons first _ ih =>
      rcases first.passes passing (front.marked marked) with rfl | passed
      · exact ih front
      · exact ih (front.trans passed)

end Passing

variable {power : BindingPower} {expr : Expr} {cursor after : Cursor}

theorem Reads.passes (reads : Reads power expr cursor after) :
    cursor.last.kind = .eof → cursor.Passes after := by
  refine Reads.ind ?leading ?trailing reads
  case leading =>
    intro _ _ _ _ cursor _ takes parts marked
    have step := Cursor.passes_next marked rfl takes.ne_eof
    exact (parts.passes id marked step).numbered _
  case trailing =>
    intro _ _ _ _ _ _ start cursor _ _ left takes _ parts marked
    have step := Cursor.passes_next ((left marked).marked marked) rfl takes.ne_eof
    exact (parts.passes id marked ((left marked).trans step)).numbered _

theorem Reads.target {name : String} (reads : Reads power expr cursor after)
    (known : expr.reference? = some name) :
    ∃ site inner, expr = .atom site (.reference inner name) := by
  cases reads with
  | leading takes =>
      cases takes with
      | reference =>
          cases known
          exact ⟨_, _, rfl⟩
      | literal | call | unary | group | conversion | condition => cases known
  | trailing _ takes => cases takes <;> cases known

/-- An expression starts where its first token does. -/
theorem Reads.start (reads : Reads power expr cursor after) :
    expr.span.start = cursor.current.span.start := by
  refine Reads.ind ?leading ?trailing reads
  case leading =>
    intro _ _ _ _ _ _ takes _
    rw [Production.span_made (takes.site_build _)]
    rfl
  case trailing =>
    intro _ _ _ _ _ _ _ _ _ _ left takes _ _
    rw [Production.span_made (takes.site_build _)]
    exact left

theorem Reads.before (reads : Reads power expr cursor after) (marked : cursor.last.kind = .eof) :
    cursor.Before after :=
  (reads.passes marked).before

end Grammar

/-- Operands are read in steps where fewer than `limit` tokens are ahead. -/
def OperandReading.Stepwise (limit : Nat) (operand : OperandReading) : Prop :=
  ∀ {power cursor expr after}, cursor.last.kind = .eof → cursor.ahead.length < limit →
    (operand power).run cursor = .ok expr after → Reads power expr cursor after ∧ after.Stops power

namespace Grammar

variable {operand : OperandReading} {limit : Nat} {power : BindingPower}
  {start cursor after : Cursor} {left expr : Expr}

theorem listed_of_readArguments (stepwise : operand.Stepwise limit) {count : Nat}
    {arguments : List Expr} (marked : cursor.last.kind = .eof)
    (short : cursor.ahead.length < limit) (enough : cursor.ahead.length < count)
    (read : (Item.readArguments operand count).run cursor = .ok arguments after) :
    arguments ≠ [] ∧ Listed Reads arguments cursor after := by
  induction count generalizing cursor arguments with
  | zero => omega
  | succ count ih =>
      obtain ⟨argument, between, one, rest⟩ := Item.readArguments_succ_eq_ok_iff.1 read
      have first := (stepwise marked short one).1
      have passed := first.before marked
      rcases rest with ⟨comma, others, more, rfl⟩ | ⟨_, rfl, rfl⟩
      · have next := passed.trans (Cursor.before_next (passed.marked marked) comma (by decide))
        have shorter := next.shorter
        obtain ⟨some, listed⟩ := ih (next.marked marked) (by omega) (by omega) more
        obtain ⟨other, others, rfl⟩ := List.exists_cons_of_ne_nil some
        exact ⟨List.cons_ne_nil _ _, .next first comma listed⟩
      · exact ⟨List.cons_ne_nil _ _, .last first⟩

theorem itemRead_of_read (stepwise : operand.Stepwise limit) {item : Item} {part : item.Part}
    (marked : cursor.last.kind = .eof) (short : cursor.ahead.length < limit)
    (read : (item.read operand).run cursor = .ok part after) :
    ItemRead Reads item part cursor after := by
  cases item with
  | openParen =>
      obtain ⟨opens, rfl, rfl⟩ := Reading.expect_eq_ok_iff.1 read
      exact .openParen opens
  | operand power =>
      obtain ⟨reads, stops⟩ := stepwise marked short read
      exact .operand reads stops
  | arguments =>
      rw [Item.run_arguments] at read
      split at read
      · cases read
        exact .arguments .nil
      · exact .arguments
          (listed_of_readArguments stepwise marked short (Nat.lt_succ_self _) read).2
  | closeParen =>
      obtain ⟨closes, rfl, rfl⟩ := Reading.expect_eq_ok_iff.1 read
      exact .closeParen closes

theorem partsRead_of_read (stepwise : operand.Stepwise limit) {items : List Item}
    {parts : Parts items} (marked : cursor.last.kind = .eof) (short : cursor.ahead.length < limit)
    (read : (Parts.read operand items).run cursor = .ok parts after) :
    PartsRead Reads items parts cursor after := by
  induction items generalizing cursor with
  | nil =>
      cases read
      exact .nil
  | cons item items ih =>
      obtain ⟨between, one, rest⟩ := Parts.read_cons_eq_ok_iff.1 read
      have first := itemRead_of_read stepwise marked short one
      refine .cons first ?_
      rcases first.passes Reads.passes marked with rfl | passed
      · exact ih marked short rest
      · have shorter := passed.before.shorter
        exact ih (passed.marked marked) (by omega) rest

theorem reads_of_leading {rule : LeadingRule} (stepwise : operand.Stepwise limit)
    (marked : cursor.last.kind = .eof) (short : cursor.ahead.length ≤ limit)
    (found : standard.leading cursor.current.kind = some rule)
    (read : (rule.read operand).run cursor = .ok expr after) : Reads power expr cursor after := by
  have step := Cursor.before_next marked rfl (ne_eof_of_leading found)
  have shorter := step.shorter
  rw [LeadingRule.run_read, Opening.read_eq_ok_iff] at read
  obtain ⟨production, parts, between, opens, one, rfl, rfl⟩ := read
  exact .leading (LeadingRule.takes_of_opening found opens)
    (partsRead_of_read stepwise (step.marked marked) (by omega) one)

theorem reads_of_trailing {tighter : BindingPower} {rule : TrailingRule}
    (stepwise : operand.Stepwise limit) (marked : cursor.last.kind = .eof)
    (short : cursor.ahead.length ≤ limit) (before : Reads power left start cursor)
    (found : standard.trailing cursor.current.kind = some (tighter, rule)) (binds : power < tighter)
    (read : (rule.read operand tighter left).run cursor = .ok expr after) :
    Reads power expr start after ∧ cursor.Before after := by
  have step := Cursor.passes_next marked rfl (ne_eof_of_trailing found)
  have shorter := step.before.shorter
  rw [TrailingRule.run_read, Opening.read_eq_ok_iff] at read
  obtain ⟨production, parts, between, opens, one, rfl, rfl⟩ := read
  have behind := partsRead_of_read stepwise (step.marked marked) (by omega) one
  exact ⟨.trailing before (TrailingRule.takes_of_opening found opens) binds behind,
    ((behind.passes Reads.passes marked step).numbered _).before⟩

/-- Where no more rounds than tokens are left, none is missing. -/
theorem reads_of_extend {count : Nat} (stepwise : operand.Stepwise limit)
    (marked : start.last.kind = .eof) (short : start.ahead.length ≤ limit)
    (enough : cursor.ahead.length ≤ count) (before : Reads power left start cursor)
    (read : (extend standard operand power count left).run cursor = .ok expr after) :
    Reads power expr start after ∧ after.Stops power := by
  have passed := before.before marked
  have shorter := passed.shorter
  induction count generalizing cursor left with
  | zero =>
      cases read
      refine ⟨before, fun tighter rule found => ?_⟩
      have more := Cursor.before_next (passed.marked marked) rfl (ne_eof_of_trailing found)
      have := more.shorter
      omega
  | succ count ih =>
      rcases cursor.stops_or_tighter power with stops | ⟨tighter, rule, found, binds⟩
      · rw [extend_of_stop stops] at read
        cases read
        exact ⟨before, stops⟩
      · rw [extend_of_tighter found binds, Reading.run_bind_eq_ok_iff] at read
        obtain ⟨extended, between, one, rest⟩ := read
        obtain ⟨longer, behind⟩ := reads_of_trailing stepwise (passed.marked marked) (by omega)
          before found binds one
        have fewer := behind.shorter
        exact ih (by omega) longer rest (longer.before marked) (longer.before marked).shorter

/-- Reading with room for `depth` operands goes in steps where fewer tokens are ahead: an operand
inside another comes after a token of its own. -/
theorem stepwise_readWithin (depth : Nat) :
    OperandReading.Stepwise depth (readWithin standard depth) := by
  induction depth with
  | zero =>
      intro power cursor expr after _ short _
      omega
  | succ depth ih =>
      intro power cursor expr after marked short read
      obtain ⟨rule, left, between, found, one, rest⟩ := readWithin_succ_eq_ok read
      have before : Reads power left cursor between :=
        reads_of_leading ih marked (by omega) found one
      have shorter := (before.before marked).shorter
      exact reads_of_extend ih marked (by omega) (by omega) before rest

theorem reads_of_read (marked : cursor.last.kind = .eof)
    (read : (standard.read power).run cursor = .ok expr after) :
    Reads power expr cursor after ∧ after.Stops power :=
  stepwise_readWithin (cursor.ahead.length + 1) marked (Nat.lt_succ_self _) read

end Grammar

theorem Expr.reads_of_ofTokens {tokens : List Token} {expr : Expr}
    (accepted : Expr.ofTokens tokens = .ok expr) :
    ∃ after, Grammar.standard.readAll.run (Cursor.ofTokens tokens) = .ok expr after ∧
      Reads .lowest expr (Cursor.ofTokens tokens) after ∧ after.current.kind = .eof := by
  obtain ⟨after, all⟩ := Expr.ofTokens_eq_ok_iff.1 accepted
  obtain ⟨read, ends⟩ := readAll_eq_ok_iff.1 all
  obtain ⟨reads, -⟩ :=
    stepwise_readWithin _ (Cursor.kind_last_ofTokens tokens) (Nat.lt_succ_self _) read
  exact ⟨after, all, reads, ends⟩

end DialogueTyping
